import TinyLink.Proofs.PathDirect
import TinyLink.Proofs.PathHistory

/-!
# The path timer and its deadline

`wg_path_tick` and `wg_path_next_deadline` state the same conditions twice; they agree mode by mode.
-/

namespace TinyLink.Proofs
open StepSystem

/-- The deadline has come and the tick `r` asks for something, or it lies ahead and `p` is left
alone. -/
def Agrees (p : WgPath) (deadline : WithTop ℤ) (now : ℤ) (r : WgPath × WgPathAct) : Prop :=
  (deadline ≤ now ∧ r.2 ≠ .none) ∨ ((now : WithTop ℤ) < deadline ∧ r = (p, .none))

section Modes
variable {p : WgPath} {now : ℤ}

lemma answerAt_le_iff : p.answerAt ≤ now ↔ p.awaitUs ≠ 0 ∧ p.awaitUs + wgPathAnswerUs < now := by
  unfold WgPath.answerAt
  split
  · next h =>
    rw [WithTop.coe_le_coe, wgTimerAt]
    exact ⟨fun hle => ⟨h, by omega⟩, fun hlt => by omega⟩
  · next h => simp [h]

lemma checkAnswer_agrees (h : p.mode = .direct) :
    Agrees p p.answerAt now (wgPathCheckAnswer p now) := by
  rcases checkAnswer_cases p now with ⟨_, hne, hlt, hr⟩ | ⟨hno, hr⟩
  · rw [hr]
    exact .inl ⟨answerAt_le_iff.mpr ⟨hne, hlt⟩, by simp [wgPathLapse, WgPathAct.none]⟩
  · refine .inr ⟨?_, hr⟩
    rw [← not_le, answerAt_le_iff]
    exact fun hc => hno ⟨h, hc⟩

lemma doubtDeadline_le_iff :
    (if p.testAtUs ≠ 0 ∧ (p.testAtUs : WithTop ℤ) < p.answerAt then (p.testAtUs : WithTop ℤ)
      else p.answerAt) ≤ now ↔ (p.testAtUs ≠ 0 ∧ p.testAtUs ≤ now) ∨ p.answerAt ≤ now := by
  split
  · next h =>
    rw [WithTop.coe_le_coe]
    constructor
    · exact fun hle => .inl ⟨h.1, hle⟩
    · rintro (hle | hle)
      · exact hle.2
      · exact WithTop.coe_le_coe.mp (h.2.le.trans hle)
  · next h =>
    constructor
    · exact .inr
    · rintro (⟨hne, hle⟩ | hle)
      · have hge := not_lt.mp fun hlt => h ⟨hne, hlt⟩
        exact hge.trans (WithTop.coe_le_coe.mpr hle)
      · exact hle

lemma takeTest_cases (p : WgPath) (now : ℤ) :
    (p.testAtUs ≠ 0 ∧ p.testAtUs ≤ now ∧ (wgPathTakeTest p now).2 = { test := true } ∧
        (wgPathTakeTest p now).1.testAtUs = 0) ∨
      (¬ (p.testAtUs ≠ 0 ∧ p.testAtUs ≤ now) ∧ wgPathTakeTest p now = (p, .none)) := by
  by_cases h : p.testAtUs ≠ 0 ∧ p.testAtUs ≤ now
  · have hr : wgPathTakeTest p now =
        ({ p with testAtUs := 0, stats := { p.stats with tests := p.stats.tests + 1 } },
          { test := true }) := if_pos (by simpa using h)
    exact .inl ⟨h.1, h.2, by rw [hr], by rw [hr]⟩
  · exact .inr ⟨h, if_neg (by simpa using h)⟩

lemma takeTest_kept (p : WgPath) (now : ℤ) : (wgPathTakeTest p now).1.awaitUs = p.awaitUs ∧
    (wgPathTakeTest p now).1.mode = p.mode ∧ (wgPathTakeTest p now).1.why = p.why := by
  unfold wgPathTakeTest
  split <;> exact ⟨rfl, rfl, rfl⟩

lemma tickDoubt_eq : wgPathTickDoubt p now =
    if p.answerAt ≤ now then ((wgPathSilent (wgPathTakeTest p now).1 now).1,
      (wgPathTakeTest p now).2 ||| (wgPathSilent (wgPathTakeTest p now).1 now).2)
    else wgPathTakeTest p now := by
  have hiff : ((wgPathTakeTest p now).1.awaitUs ≠ 0 &&
      wgTimerDue now (wgPathTakeTest p now).1.awaitUs wgPathAnswerUs) = true ↔ p.answerAt ≤ now := by
    rw [answerAt_le_iff, (takeTest_kept p now).1, Bool.and_eq_true, decide_eq_true_eq, wgTimerDue_iff]
  exact if_congr hiff rfl rfl

lemma or_ne_none_right {a b : WgPathAct} (h : b.rescue) : a ||| b ≠ .none := by
  intro hc
  have := congrArg WgPathAct.rescue hc
  simp [HOr.hOr, OrOp.or, WgPathAct.none, h] at this

lemma tickDoubt_agrees : Agrees p
    (if p.testAtUs ≠ 0 ∧ (p.testAtUs : WithTop ℤ) < p.answerAt then (p.testAtUs : WithTop ℤ)
      else p.answerAt) now (wgPathTickDoubt p now) := by
  rw [tickDoubt_eq]
  by_cases hw : p.answerAt ≤ now
  · left
    rw [if_pos hw, doubtDeadline_le_iff]
    exact ⟨.inr hw, or_ne_none_right (by simp [wgPathSilent, wgPathRescue, HOr.hOr, OrOp.or])⟩
  · rw [if_neg hw]
    rcases takeTest_cases p now with ⟨hne, hle, hact, _⟩ | ⟨hno, hr⟩
    · left
      rw [doubtDeadline_le_iff, hact]
      exact ⟨.inl ⟨hne, hle⟩, by decide⟩
    · right
      rw [← not_le, doubtDeadline_le_iff]
      exact ⟨not_or.mpr ⟨hno, hw⟩, hr⟩

lemma tickDual_agrees (hs : p.sinceUs ≤ now) : Agrees p
    (if p.pingUs < p.sinceUs then (p.sinceUs : WithTop ℤ)
      else (wgTimerAt p.pingUs wgPathPingTimeoutUs : ℤ)) now (wgPathTickDual p now) := by
  unfold wgPathTickDual
  by_cases hp : p.pingUs < p.sinceUs
  · rw [if_pos hp, if_pos hp]
    exact .inl ⟨WithTop.coe_le_coe.mpr hs, by simp [WgPathAct.none]⟩
  · rw [if_neg hp, if_neg hp]
    have hiff : ((wgTimerAt p.pingUs wgPathPingTimeoutUs : ℤ) : WithTop ℤ) ≤ now ↔
        wgTimerDue now p.pingUs wgPathPingTimeoutUs = true := by
      rw [WithTop.coe_le_coe, wgTimerDue_iff, wgTimerAt]
      omega
    by_cases hd : wgTimerDue now p.pingUs wgPathPingTimeoutUs = true
    · rw [if_pos hd]
      refine .inl ⟨hiff.mpr hd, ?_⟩
      split
      · exact or_ne_none_right rfl
      · simp [WgPathAct.none]
    · rw [if_neg hd]
      exact .inr ⟨not_le.mp (mt hiff.mp hd), rfl⟩

lemma tickRelay_agrees : Agrees p (if wgPathReprobeLive p then (p.reprobeUs : WithTop ℤ) else ⊤) now
    (wgPathTickRelay p now) := by
  by_cases hl : wgPathReprobeLive p = true
  · rw [if_pos hl]
    by_cases hd : p.reprobeUs ≤ now
    · have hc : (wgPathReprobeLive p && now ≥ p.reprobeUs) = true := by simp [hl, hd]
      left
      rw [wgPathTickRelay, if_pos hc]
      exact ⟨WithTop.coe_le_coe.mpr hd, by simp [WgPathAct.none]⟩
    · have hc : ¬ (wgPathReprobeLive p && now ≥ p.reprobeUs) = true := by simp [hl, hd]
      right
      rw [wgPathTickRelay, if_neg hc]
      exact ⟨WithTop.coe_lt_coe.mpr (not_le.mp hd), rfl⟩
  · have hc : ¬ (wgPathReprobeLive p && now ≥ p.reprobeUs) = true := by simp [hl]
    right
    rw [if_neg hl, wgPathTickRelay, if_neg hc]
    exact ⟨WithTop.coe_lt_top now, rfl⟩

lemma tick_agrees (hs : p.sinceUs ≤ now) :
    Agrees p (wgPathNextDeadline p) now (wgPathTick p now) := by
  unfold wgPathNextDeadline wgPathTick
  cases p.managed with
  | false => exact .inr ⟨WithTop.coe_lt_top now, rfl⟩
  | true =>
    cases hm : p.mode with
    | direct => exact checkAnswer_agrees hm
    | relay => exact tickRelay_agrees
    | dual =>
      by_cases hw : p.why = .doubt
      · simp only [hw]
        exact tickDoubt_agrees
      · simp only [if_neg hw]
        exact tickDual_agrees hs

end Modes

section After
variable {p : WgPath} {now : ℤ}

lemma deadline_relay (hm : p.mode = .relay) (h : now < p.reprobeUs) :
    (now : WithTop ℤ) < wgPathNextDeadline p := by
  have hlt : (now : WithTop ℤ) < (p.reprobeUs : ℤ) := WithTop.coe_lt_coe.mpr h
  unfold wgPathNextDeadline
  cases p.managed with
  | false => exact WithTop.coe_lt_top now
  | true =>
    simp only [hm]
    split
    · exact absurd ‹_› (by decide)
    · split
      · exact hlt
      · exact WithTop.coe_lt_top now

lemma deadline_pinged (hm : p.mode = .dual) (hw : p.why ≠ .doubt) (hs : p.sinceUs ≤ p.pingUs)
    (h : now ≤ p.pingUs) : (now : WithTop ℤ) < wgPathNextDeadline p := by
  have hlt : (now : WithTop ℤ) < (wgTimerAt p.pingUs wgPathPingTimeoutUs : ℤ) := by
    rw [WithTop.coe_lt_coe, wgTimerAt, wgPathPingTimeoutUs]
    omega
  unfold wgPathNextDeadline
  cases p.managed with
  | false => exact WithTop.coe_lt_top now
  | true =>
    simp only [hm, if_neg hw, if_neg (not_lt.mpr hs)]
    exact hlt

lemma enterRelay_reprobe (p : WgPath) (now : ℤ) (why : WgPathWhy) :
    now < (wgPathEnterRelay p now why).reprobeUs := by
  have hpos : 0 < min (wgPathReprobeMinMs <<< (if p.doubts > 3 then 3 else if p.doubts > 0 then
      p.doubts - 1 else 0)) wgPathReprobeMaxMs := by
    rw [Nat.shiftLeft_eq, wgPathReprobeMinMs, wgPathReprobeMaxMs]
    positivity
  simp only [wgPathEnterRelay]
  omega

def WaitsInRelay (p : WgPath) : Prop := p.mode = .relay → 0 < p.reprobeMs

lemma deadline_checkAnswer (h : (wgPathCheckAnswer p now).2 ≠ .none) :
    (now : WithTop ℤ) < wgPathNextDeadline (wgPathCheckAnswer p now).1 := by
  rcases checkAnswer_cases p now with ⟨_, _, _, hr⟩ | ⟨_, hr⟩
  · rw [hr]
    exact deadline_pinged rfl (by simp [wgPathLapse, wgPathEnterDual]) le_rfl le_rfl
  · rw [hr] at h
    exact absurd rfl h

lemma deadline_tickDoubt (hm : p.mode = .dual) (hw : p.why = .doubt) :
    (now : WithTop ℤ) < wgPathNextDeadline (wgPathTickDoubt p now).1 := by
  rw [tickDoubt_eq]
  split
  · apply deadline_relay
    · rfl
    · exact enterRelay_reprobe _ now .silent
  · next hlate =>
    obtain ⟨hawait, hmode, hwhy⟩ := takeTest_kept p now
    have hanswer : (wgPathTakeTest p now).1.answerAt = p.answerAt := by
      rw [WgPath.answerAt, hawait, WgPath.answerAt]
    have hnot : ¬ ((wgPathTakeTest p now).1.testAtUs ≠ 0 ∧ (wgPathTakeTest p now).1.testAtUs ≤ now) := by
      rcases takeTest_cases p now with ⟨_, _, _, h0⟩ | ⟨hno, hr⟩
      · simp [h0]
      · rw [hr]
        exact hno
    rw [← not_le, wgPathNextDeadline, hmode, hm, hwhy, hw]
    cases hman : (wgPathTakeTest p now).1.managed with
    | false => exact not_le.mpr (WithTop.coe_lt_top now)
    | true =>
      refine mt doubtDeadline_le_iff.mp (not_or.mpr ⟨hnot, ?_⟩)
      rw [hanswer]
      exact hlate

lemma deadline_tickDual (hm : p.mode = .dual) (hw : p.why ≠ .doubt) (hs : p.sinceUs ≤ now)
    (h : (wgPathTickDual p now).2 ≠ .none) :
    (now : WithTop ℤ) < wgPathNextDeadline (wgPathTickDual p now).1 := by
  have hdie : ∀ q : WgPath, q.mode = .relay → q.reprobeUs = now + wgPathReprobeMinMs * 1000 →
      (now : WithTop ℤ) < wgPathNextDeadline q := by
    intro q hq hr
    apply deadline_relay hq
    rw [hr, wgPathReprobeMinMs]
    omega
  unfold wgPathTickDual at h ⊢
  by_cases hp : p.pingUs < p.sinceUs
  · rw [if_pos hp]
    have hping : p.sinceUs ≤ (if now > p.sinceUs then now else p.sinceUs) ∧
        now ≤ (if now > p.sinceUs then now else p.sinceUs) := by
      split <;> omega
    exact deadline_pinged hm hw hping.1 hping.2
  · rw [if_neg hp] at h ⊢
    by_cases hd : wgTimerDue now p.pingUs wgPathPingTimeoutUs = true
    · rw [if_pos hd]
      split
      · exact hdie _ rfl rfl
      · exact hdie _ rfl rfl
    · rw [if_neg hd] at h
      exact absurd rfl h

lemma deadline_tickRelay (hm : p.mode = .relay) (hwait : 0 < p.reprobeMs)
    (h : (wgPathTickRelay p now).2 ≠ .none) :
    (now : WithTop ℤ) < wgPathNextDeadline (wgPathTickRelay p now).1 := by
  unfold wgPathTickRelay at h ⊢
  by_cases hc : (wgPathReprobeLive p && now ≥ p.reprobeUs) = true
  · rw [if_pos hc]
    have hpos : 0 < (if p.reprobeMs * 2 > wgPathReprobeMaxMs then wgPathReprobeMaxMs
        else p.reprobeMs * 2) := by
      rw [wgPathReprobeMaxMs]
      split <;> omega
    apply deadline_relay
    · exact hm
    · dsimp only
      omega
  · rw [if_neg hc] at h
    exact absurd rfl h

lemma deadline_after_tick (hs : p.sinceUs ≤ now) (hwait : WaitsInRelay p) :
    (now : WithTop ℤ) < wgPathNextDeadline (wgPathTick p now).1 := by
  rcases tick_agrees hs with ⟨_, hact⟩ | ⟨hlt, hr⟩
  · rcases tick_cases p now with ⟨_, h⟩ | ⟨_, _, h⟩ | ⟨_, hd, h⟩ | ⟨_, hm, hd, h⟩ | ⟨_, hm, h⟩
    · rw [h] at hact
      exact absurd rfl hact
    · rw [h] at hact ⊢
      exact deadline_checkAnswer hact
    · rw [h]
      obtain ⟨hm, hw⟩ := (inDoubt_iff p).mp hd
      exact deadline_tickDoubt hm hw
    · rw [h] at hact ⊢
      have hw : p.why ≠ .doubt := by
        intro hw
        rw [(inDoubt_iff p).mpr ⟨hm, hw⟩] at hd
        cases hd
      exact deadline_tickDual hm hw hs hact
    · rw [h] at hact ⊢
      exact deadline_tickRelay hm (hwait hm) hact
  · rw [hr]
    exact hlt

end After

lemma enterRelay_reprobeMs (p : WgPath) (now : ℤ) (why : WgPathWhy) :
    0 < (wgPathEnterRelay p now why).reprobeMs := by
  simp only [wgPathEnterRelay, Nat.shiftLeft_eq, wgPathReprobeMinMs, wgPathReprobeMaxMs]
  positivity

lemma waitsInRelay_event {p : WgPath} (now : ℤ) (e : PathEvent) (h : WaitsInRelay p) :
    WaitsInRelay (pathEvent p now e).1 := by
  have hmove := pathEvent_move p now e
  generalize pathEvent p now e = r at hmove ⊢
  cases hmove with
  | tests _ hr => cases hr <;> exact h
  | silent => exact fun _ => enterRelay_reprobeMs _ now .silent
  | undelivered => exact fun _ => enterRelay_reprobeMs _ now .undelivered
  | dies => exact fun _ => (by decide : 0 < wgPathReprobeMinMs)
  | reprobes hm =>
    have hwait := h hm
    exact fun _ => by grind
  | heard hp | restarts hp => cases hp <;> exact h
  | resolves | confirms | roams => simp [WaitsInRelay]
  | startsOver | lapses | sendsLapsed | moves => rintro ⟨⟩
  | _ => exact h

lemma waitsInRelay_run (E : PathRun) : ∀ k, k ≤ E.length → WaitsInRelay (E.pathAt k) := by
  refine E.along ?_ ?_
  · obtain ⟨now, managed, endpoint, h⟩ := E.starts
    rw [PathRun.pathAt, h]
    rintro ⟨⟩
  · intro k hk ih
    rw [pathAt_succ hk]
    exact waitsInRelay_event _ _ ih

/-- The tick asks for something or leaves the mode exactly from the deadline on; after it the
deadline lies ahead. -/
theorem tick_agrees_with_deadline (E : PathRun) {k : ℕ} (hk : k ≤ E.length) {now : ℤ}
    (hs : (E.pathAt k).sinceUs ≤ now) : (((wgPathTick (E.pathAt k) now).2 ≠ .none ∨
        (wgPathTick (E.pathAt k) now).1.mode ≠ (E.pathAt k).mode) ↔
          wgPathNextDeadline (E.pathAt k) ≤ now) ∧ (¬ ((wgPathTick (E.pathAt k) now).2 ≠ .none ∨
        (wgPathTick (E.pathAt k) now).1.mode ≠ (E.pathAt k).mode) →
          (wgPathTick (E.pathAt k) now).1 = E.pathAt k) ∧
      (now : WithTop ℤ) < wgPathNextDeadline (wgPathTick (E.pathAt k) now).1 := by
  have hahead := deadline_after_tick hs (waitsInRelay_run E k hk)
  rcases tick_agrees hs with ⟨hle, hact⟩ | ⟨hlt, hr⟩
  · exact ⟨iff_of_true (.inl hact) hle, fun hno => absurd (.inl hact) hno, hahead⟩
  · refine ⟨iff_of_false ?_ (not_le.mpr hlt), fun _ => by rw [hr], hahead⟩
    rw [hr]
    simp

section Sample

/-- A data frame on a direct path waits for its answer. -/
def awaitRun : PathRun :=
  runOf sampleStart sampleStart_started ⟨0, .tick⟩ (roamSteps ++ [⟨5, .send true⟩]) rfl

theorem unanswered_path_lapses :
    (wgPathTick (awaitRun.pathAt 3) 1000).1 = awaitRun.pathAt 3 ∧
      wgPathNextDeadline (awaitRun.pathAt 3) ≤ ((10 ^ 8 : ℤ) : WithTop ℤ) ∧
      ((10 ^ 8 : ℤ) : WithTop ℤ) <
        wgPathNextDeadline (wgPathTick (awaitRun.pathAt 3) (10 ^ 8)).1 := by
  obtain ⟨-, hearly, -⟩ := tick_agrees_with_deadline awaitRun (k := 3) le_rfl
    (by decide : (awaitRun.pathAt 3).sinceUs ≤ 1000)
  obtain ⟨hlate, -, hnext⟩ := tick_agrees_with_deadline awaitRun (k := 3) le_rfl
    (by decide : (awaitRun.pathAt 3).sinceUs ≤ 10 ^ 8)
  exact ⟨hearly (by decide), hlate.mp (.inl (by decide)), hnext⟩

end Sample

end TinyLink.Proofs
