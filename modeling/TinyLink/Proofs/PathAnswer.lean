import Mathlib.Tactic.IntervalCases
import TinyLink.Proofs.PathSteps

/-!
# Unanswered data leaves DIRECT

While nothing restarts the window, `await_us` keeps the time of the first unanswered frame.
-/

namespace TinyLink.Proofs
open StepSystem

section Await
variable {p : WgPath} {now : ℤ}

lemma checkAnswer_keeps_await (h : (wgPathCheckAnswer p now).1.mode = .direct) :
    wgPathCheckAnswer p now = (p, .none) := by
  rcases checkAnswer_cases p now with ⟨_, _, _, hr⟩ | ⟨_, hr⟩
  · rw [hr] at h
    exact absurd h (by simp [wgPathLapse, wgPathEnterDual])
  · exact hr

lemma checkIdle_keeps_await (h : (wgPathCheckIdle p now).1.mode = .direct) :
    wgPathCheckIdle p now = (p, .none) := by
  rcases checkIdle_cases p now with ⟨_, hr⟩ | hr
  · rw [hr] at h
    exact absurd h (by simp [wgPathLapse, wgPathEnterDual])
  · exact hr

lemma onSend_direct (hm : p.managed) (h : (wgPathOnSend p now true).2.2 = .direct) :
    wgPathCheckAnswer p now = (p, .none) ∧ p.mode = .direct ∧
      (wgPathOnSend p now true).1 = wgPathNoteData p now := by
  rw [onSend_data p now hm] at h ⊢
  have hidle := checkIdle_keeps_await h
  rw [hidle] at h ⊢
  have hanswer := checkAnswer_keeps_await h
  rw [hanswer] at h ⊢
  exact ⟨rfl, h, rfl⟩

lemma onSend_direct_await (hm : p.managed) (h : (wgPathOnSend p now true).2.2 = .direct)
    (hnow : now ≠ 0) (hle : p.awaitUs ≤ now) :
    (wgPathOnSend p now true).1.awaitUs ≠ 0 ∧ (wgPathOnSend p now true).1.awaitUs ≤ now := by
  obtain ⟨_, hmode, hr⟩ := onSend_direct hm h
  rw [hr]
  simp only [wgPathNoteData, hmode, decide_true, Bool.true_or, Bool.true_and, decide_eq_true_eq]
  split
  · exact ⟨hnow, le_rfl⟩
  · next hne => exact ⟨hne, hle⟩

lemma onSend_direct_window (hm : p.managed) (h : (wgPathOnSend p now true).2.2 = .direct)
    (ha : p.awaitUs ≠ 0) : now ≤ p.awaitUs + wgPathAnswerUs := by
  obtain ⟨hanswer, hmode, _⟩ := onSend_direct hm h
  rcases checkAnswer_cases p now with ⟨_, _, _, hr⟩ | ⟨hno, _⟩
  · rw [hanswer] at hr
    have hdual : p.mode = .dual := congrArg (fun r => r.1.mode) hr
    rw [hmode] at hdual
    cases hdual
  · by_contra hlt
    exact hno ⟨hmode, ha, by omega⟩

lemma pong_keeps_window (a : PongArgs) (h : p.mode = .direct) :
    (pathEvent p now (.pong a)).1.mode = .direct ∧
      (pathEvent p now (.pong a)).1.awaitUs = p.awaitUs := by
  obtain ⟨e, he⟩ : ∃ e, PathEvent.pong a = e := ⟨_, rfl⟩
  have hmove := pathEvent_move p now e
  rw [he]
  generalize pathEvent p now e = r at hmove ⊢
  cases hmove with
  | held | keepsCand => exact ⟨h, rfl⟩
  | answers _ hd => simp [not_inDoubt_of_direct p h] at hd
  | doubts _ ho => exact absurd ho.1 (by simp [h])
  | confirms => exact ⟨confirm_mode p now, confirm_awaitUs p now h⟩
  | roams _ _ _ hr =>
    cases hr with
    | pending hl => simp [WgPath.lapsePending, h] at hl
    | none => exact ⟨confirm_mode p now, confirm_awaitUs p now h⟩
  | startsOver hs => simp [StartsOverAt, ← he] at hs
  | still hs | lapses hs => simp [← he] at hs
  | resolves hp | undelivered hp | heard hp | restarts hp => cases hp <;> cases he
  | _ => cases he

lemma pathEvent_keeps_await {e : PathEvent} (h : p.mode = .direct)
    (h' : (pathEvent p now e).1.mode = .direct) (hne : p.awaitUs ≠ 0)
    (hr : ¬ RestartsWindow p now e) : (pathEvent p now e).1.awaitUs = p.awaitUs := by
  have hpong (a : PongArgs) : (pathEvent p now (.pong a)).1.awaitUs = p.awaitUs :=
    (pong_keeps_window a h).2
  have hmove := pathEvent_move p now e
  generalize hq : pathEvent p now e = r at hmove h' ⊢
  cases hmove with
  | startsOver | lapses | sendsLapsed | silent | dies | undelivered | moves => cases h'
  | tests hd | resolves _ hd => simp [not_inDoubt_of_direct p h] at hd
  | sends => simp [wgPathNoteData, hne]
  | heard hp => cases hp <;> rfl
  | restarts _ _ hrestart => exact absurd hrestart hr
  | proves => exact absurd (.inl rfl) hr
  | setManaged | still | pings | reprobes => rfl
  | held a | answers a | doubts a | confirms a | roams a | keepsCand a =>
    rw [← hq]
    exact hpong a

end Await

section Origin
variable (p : WgPath) (now : ℤ)

lemma resolve_origin : (wgPathResolve p now).1.hsUs = p.hsUs ∧
    ((wgPathResolve p now).1.awaitUs = p.awaitUs ∨ (wgPathResolve p now).1.awaitUs = 0) := by
  grind [wgPathResolve, wgPathConfirm]

def KeepsOrigin (p q : WgPath) (now : ℤ) : Prop :=
  (q.hsUs = p.hsUs ∨ q.hsUs = 0) ∧ (q.awaitUs = p.awaitUs ∨ q.awaitUs = 0 ∨ q.awaitUs = now)

lemma keepsOrigin_pathEvent {e : PathEvent} (he : e ≠ .handshake) :
    KeepsOrigin p (pathEvent p now e).1 now := by
  have hmove := pathEvent_move p now e
  generalize pathEvent p now e = r at hmove ⊢
  cases hmove with
  | tests _ hr | silent _ hr => cases hr <;> grind [KeepsOrigin, wgPathSilent]
  | resolves hp | undelivered hp | heard hp | restarts hp =>
    cases hp <;> grind [KeepsOrigin, wgPathConfirm]
  | dies _ _ hr | moves _ hr | roams _ _ _ hr => cases hr <;> grind [KeepsOrigin, wgPathConfirm]
  | _ => grind [KeepsOrigin, wgPathNoteData, wgPathConfirm]

lemma onHandshake_origin : (wgPathOnHandshake p now).1.hsUs = now ∧
    ((wgPathOnHandshake p now).1.awaitUs = p.awaitUs ∨ (wgPathOnHandshake p now).1.awaitUs = 0) := by
  grind [wgPathOnHandshake, resolve_origin]

end Origin

section Run
variable {E : PathRun} {k : ℕ}

lemma await_le_clock (E : PathRun) : ∀ k, k ≤ E.length → (E.pathAt k).awaitUs ≤
    (E.state k).clock := by
  refine E.along ?_ ?_
  · obtain ⟨now, managed, endpoint, hstart⟩ := E.starts
    rw [PathRun.pathAt, hstart]
    exact Int.natCast_nonneg now
  · intro k hk ih
    have hle := ih.trans (clock_le hk)
    have hnow : (0 : ℤ) ≤ E.timeAt k := Int.natCast_nonneg _
    rw [clock_succ hk, pathAt_succ hk]
    by_cases he : (E.act k).event = .handshake
    · rw [he]
      rcases (onHandshake_origin (E.pathAt k) (E.timeAt k)).2 with h | h
      · exact h.le.trans hle
      · exact h.le.trans hnow
    · rcases (keepsOrigin_pathEvent (E.pathAt k) (E.timeAt k) he).2 with h | h | h
      · exact h.le.trans hle
      · exact h.le.trans hnow
      · exact h.le

/-- The last handshake before state `k` was at `t`. -/
def HandshakeAt (E : PathRun) (k : ℕ) (t : ℤ) : Prop :=
  ∃ i, Since (fun j => (E.act j).event = .handshake) (fun j => (E.act j).event = .handshake) k i ∧
    E.timeAt i = t

lemma hsUs_handshakeAt (E : PathRun) : ∀ k, k ≤ E.length → (E.pathAt k).hsUs ≠ 0 →
    HandshakeAt E k (E.pathAt k).hsUs := by
  refine E.along ?_ ?_
  · obtain ⟨now, managed, endpoint, hstart⟩ := E.starts
    intro hne
    rw [PathRun.pathAt, hstart] at hne
    exact absurd rfl hne
  · intro k hk ih hne
    rw [pathAt_succ hk] at hne ⊢
    by_cases he : (E.act k).event = .handshake
    · rw [he]
      exact ⟨k, since_self he, (onHandshake_origin (E.pathAt k) (E.timeAt k)).1.symm⟩
    · rcases (keepsOrigin_pathEvent (E.pathAt k) (E.timeAt k) he).1 with h | h
      · rw [h] at hne ⊢
        obtain ⟨i, hi, ht⟩ := ih hne
        exact ⟨i, hi.succ he, ht⟩
      · exact absurd h hne

lemma firstPayload_of_grace (hk : k < E.length) (ho : E.WindowInOrder k)
    (he : (E.act k).event = .peerData) (hg : GraceApplies (E.pathAt k) (E.timeAt k)) :
    E.FirstPayload k := by
  obtain ⟨hmode, hne, hused, hwin⟩ := hg
  obtain ⟨h, ⟨hh, hact, hno⟩, ht⟩ := hsUs_handshakeAt E k hk.le hne
  rw [← ht] at hwin
  exact ⟨he, h, hh, hact, hwin, ho.2 he hmode hused h hh hact hwin hno⟩

lemma await_persists {i j : ℕ} (hj : j < E.length) (ho : ∀ k, k < E.length → E.WindowInOrder k)
    (hno : ¬ E.AnsweredBetween i j) (h0 : (E.pathAt (i + 1)).awaitUs ≠ 0) :
    ∀ k, i < k → k ≤ j → (E.pathAt k).awaitUs = (E.pathAt (i + 1)).awaitUs := by
  have hdirect : ∀ k, i < k → k ≤ j → (E.pathAt k).mode = .direct := by
    intro k hik hkj
    by_contra hm
    exact hno (.inr ⟨k, hik, hkj, hm⟩)
  intro k
  induction k with
  | zero => intro hik; omega
  | succ k ih =>
    intro hik hkj
    rcases Nat.lt_or_eq_of_le (Nat.le_of_lt_succ hik) with hlt | rfl
    · have hprev := ih hlt (by omega)
      have hk : k < E.length := by omega
      have hquiet : ¬ RestartsWindow (E.pathAt k) (E.timeAt k) (E.act k).event := by
        intro hr
        apply hno
        left
        refine ⟨k, hlt, by omega, ?_⟩
        rcases hr with he | he | ⟨he, hg⟩
        · exact .inl he
        · exact .inr (.inl he)
        · exact .inr (.inr (firstPayload_of_grace hk (ho k hk) he hg))
      have hstep := pathAt_succ hk
      have hafter := hdirect (k + 1) hik hkj
      rw [hstep] at hafter ⊢
      rw [← hprev] at h0 ⊢
      exact pathEvent_keeps_await (hdirect k hlt (by omega)) hafter h0 hquiet
    · rfl

/-- Where windows start in order, a frame sent direct only more than a window after another one has
been answered, or DIRECT was left, in between. And no pong moves the window of a path already
DIRECT. -/
theorem unanswered_data_leaves_direct (E : PathRun) (ho : ∀ k, k < E.length → E.WindowInOrder k) :
    (∀ i j, E.SendsDirect i → E.SendsDirect j → i < j →
        (∀ k, i ≤ k → k ≤ j → (E.pathAt k).managed = true) →
        E.timeAt i + wgPathAnswerUs < E.timeAt j → E.AnsweredBetween i j) ∧
      ∀ k args, k < E.length → (E.act k).event = .pong args → (E.pathAt k).mode = .direct →
        (E.pathAt (k + 1)).mode = .direct ∧ (E.pathAt (k + 1)).awaitUs = (E.pathAt k).awaitUs := by
  refine ⟨?_, ?_⟩
  · intro i j hi hj hij hm hlate
    have hzero := (ho i hi.1).1 hi
    obtain ⟨hilen, hiact, hidir⟩ := hi
    obtain ⟨hjlen, hjact, hjdir⟩ := hj
    by_contra hno
    have hle : (E.pathAt i).awaitUs ≤ E.timeAt i := (await_le_clock E i hilen.le).trans (clock_le hilen)
    have hopen := onSend_direct_await (hm i le_rfl hij.le) hidir hzero hle
    have hnext : E.pathAt (i + 1) = (wgPathOnSend (E.pathAt i) (E.timeAt i) true).1 := by
      rw [pathAt_succ hilen, hiact]
      rfl
    rw [← hnext] at hopen
    have hkept := await_persists hjlen ho hno hopen.1 j hij le_rfl
    have hwin := onSend_direct_window (hm j hij.le le_rfl) hjdir (by rw [hkept]; exact hopen.1)
    rw [hkept] at hwin
    omega
  · intro k args hk hact hmode
    rw [pathAt_succ hk, hact]
    exact pong_keeps_window args hmode

end Run

section Samples

def answerStart : PathState := ⟨wgPathInit 500000 true, ⟨1, 41641⟩, 500000⟩

lemma answerStart_started : answerStart.Started := ⟨500000, true, ⟨1, 41641⟩, rfl⟩

def currentPong : PathEvent := .pong ⟨20000, true, ⟨1, 41641⟩, false, false, true⟩

def twoPayloads : List PathStep :=
  [⟨1000000, .handshake⟩, ⟨2000000, .peerData⟩, ⟨3000000, currentPong⟩, ⟨4000000, .send true⟩,
    ⟨5000000, .peerData⟩, ⟨6000000, currentPong⟩, ⟨17000000, .send true⟩]

def twoPayloadsRun : PathRun := runOf answerStart answerStart_started ⟨0, .tick⟩ twoPayloads rfl

lemma twoPayloadsRun_unanswered : ¬ twoPayloadsRun.AnsweredBetween 3 6 := by
  intro h
  rcases h with ⟨k, hk, hk', h⟩ | ⟨k, hk, hk', h⟩
  · interval_cases k
    · rcases h with h | h | ⟨_, i, hi, hact, _, hno⟩
      · cases h
      · cases h
      · interval_cases i
        · exact hno 1 (by decide) (by decide) rfl
        all_goals cases hact
    · rcases h with h | h | ⟨h, _⟩ <;> cases h
  · interval_cases k <;> exact h rfl

theorem second_payload_restarts_window : ¬ ∀ (E : PathRun) (i j : ℕ), E.SendsDirect i →
    E.SendsDirect j → i < j → (∀ k, i ≤ k → k ≤ j → (E.pathAt k).managed = true) →
    E.timeAt i + wgPathAnswerUs < E.timeAt j → E.AnsweredBetween i j := by
  intro h
  apply twoPayloadsRun_unanswered
  apply h twoPayloadsRun 3 6 ⟨by decide, rfl, rfl⟩ ⟨by decide, rfl, rfl⟩ (by decide)
  · intro k hk hk'
    interval_cases k <;> rfl
  · decide

def answeredFrames : List PathStep :=
  [⟨1000000, .handshake⟩, ⟨3000000, currentPong⟩, ⟨4000000, .send true⟩, ⟨5000000, .peerData⟩,
    ⟨9000000, .send true⟩, ⟨15000000, .keepalive⟩, ⟨22000000, .send true⟩]

def answeredRun : PathRun := runOf answerStart answerStart_started ⟨0, .tick⟩ answeredFrames rfl

lemma answeredRun_inOrder : ∀ k, k < answeredRun.length → answeredRun.WindowInOrder k := by
  intro k hk
  change k < 7 at hk
  have hfirst : ∀ j, j < 3 → (answeredRun.act j).event ≠ .peerData := by
    intro j hj
    interval_cases j <;> exact PathEvent.noConfusion
  by_cases h3 : k = 3
  · subst h3
    refine ⟨fun _ => by decide, ?_⟩
    intro _ _ _ h _ _ _ _ j _ hj
    exact hfirst j hj
  · refine ⟨?_, ?_⟩
    · intro _
      interval_cases k <;> decide
    · intro he
      interval_cases k <;> first | exact absurd rfl h3 | cases he

theorem answered_frame_found : answeredRun.AnsweredBetween 4 6 := by
  apply (unanswered_data_leaves_direct answeredRun answeredRun_inOrder).1 4 6 ⟨by decide, rfl, rfl⟩
    ⟨by decide, rfl, rfl⟩ (by decide)
  · intro k hk hk'
    interval_cases k <;> rfl
  · decide

end Samples

end TinyLink.Proofs
