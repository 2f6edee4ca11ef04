import TinyLink.Proofs.PathRetest

/-!
# Forced rekeys and handshake tests

Only a transport packet of the peer clears `silent_streak`, and only a new doubt sets `test_at_us`.
-/

namespace TinyLink.Proofs
open StepSystem

section Events
variable (p : WgPath) (now : ℤ)

lemma confirm_silentStreak : (wgPathConfirm p now).silentStreak = p.silentStreak := by
  unfold wgPathConfirm
  split <;> rfl

lemma confirm_testAtUs : (wgPathConfirm p now).testAtUs = p.testAtUs := by
  unfold wgPathConfirm
  split <;> rfl

/-- No action of the two kinds, no change of what pays for them, and no new doubt. -/
structure Quiet (p q : WgPath) (act : WgPathAct) : Prop where
  rekey : act.rekey = false
  test : act.test = false
  streak : q.silentStreak = p.silentStreak
  testAt : q.testAtUs = p.testAtUs
  doubt : q.inDoubt = true → p.inDoubt = true

/-- The doubt's own tick: the test it owes, and the silence that ends it. -/
structure TicksDoubt (p q : WgPath) (act : WgPathAct) : Prop where
  doubt : p.inDoubt = true
  test : act.test = true → p.testAtUs ≠ 0 ∧ q.testAtUs = 0
  testAt : q.testAtUs ≠ 0 → p.testAtUs ≠ 0
  streak : p.silentStreak ≤ q.silentStreak
  rekey : act.rekey = true → p.silentStreak = 0 ∧ q.silentStreak = 1

lemma ticksDoubt_silent {r : WgPath × WgPathAct} (hd : p.inDoubt) (hr : Tested p r) :
    TicksDoubt p (wgPathSilent r.1 now).1 (r.2 ||| (wgPathSilent r.1 now).2) := by
  have hkept : r.1.silentStreak = p.silentStreak ∧ r.2.rekey = false := by
    cases hr <;> exact ⟨rfl, rfl⟩
  have hstreak : (wgPathSilent r.1 now).1.silentStreak =
      if p.silentStreak < 255 then p.silentStreak + 1 else p.silentStreak := by
    rw [← hkept.1]
    rfl
  refine ⟨hd, ?_, ?_, ?_, fun h => ?_⟩
  · cases hr with
    | owed h => exact fun _ => ⟨h, rfl⟩
    | none => rintro ⟨⟩
  · cases hr with
    | owed => exact fun h => absurd rfl h
    | none => exact id
  · rw [hstreak]
    split <;> omega
  · change (r.2.rekey || _) = true at h
    rw [hkept.2, Bool.false_or] at h
    have hone : (wgPathSilent r.1 now).1.silentStreak = 1 := of_decide_eq_true h
    refine ⟨?_, hone⟩
    rw [hstreak] at hone
    split at hone <;> omega

/-- A doubt opens; its test is owed at once, unless a silence came before it. -/
structure OpensWithTest (p q : WgPath) (now : ℤ) (act : WgPathAct) : Prop where
  before : p.inDoubt = false
  after : q.inDoubt = true
  act : act = .none
  streak : q.silentStreak = p.silentStreak
  testAt : q.testAtUs = if p.silentStreak = 0 then now else 0

/-- What an event does to what pays for the rekeys and the tests. -/
inductive Budget (p : WgPath) (now : ℤ) (e : PathEvent) (q : WgPath) (act : WgPathAct) : Prop where
  | startsOver (h : StartsOverAt p e) (hact : act = .none) (htest : q.testAtUs = 0)
      (hdoubt : q.inDoubt = false)
  | heard (h : e = .keepalive ∨ e = .peerData) (hq : Quiet (wgPathHeard p now) q act)
  | quiet (hq : Quiet p q act)
  | ticks (h : TicksDoubt p q act)
  | opens (h : OpensWithTest p q now act)

lemma packet_budget {e : PathEvent} {q q' : WgPath} {act : WgPathAct} (hp : PeerPacket p now e q)
    (h : Quiet q q' act) : Budget p now e q' act := by
  cases hp with
  | keepalive => exact .heard (.inl rfl) h
  | peerData => exact .heard (.inr rfl) h
  | handshake => exact .quiet ⟨h.rekey, h.test, h.streak, h.testAt, h.doubt⟩

lemma event_budget (e : PathEvent) :
    Budget p now e (pathEvent p now e).1 (pathEvent p now e).2 := by
  have hmove := pathEvent_move p now e
  generalize pathEvent p now e = r at hmove ⊢
  cases hmove with
  | startsOver hs => exact .startsOver hs rfl rfl rfl
  | lapses => exact .quiet ⟨rfl, rfl, rfl, rfl, by rintro ⟨⟩⟩
  | sendsLapsed hl =>
    rcases hl.2 with ⟨rfl, _⟩ | rfl <;> exact .quiet ⟨rfl, rfl, rfl, rfl, by rintro ⟨⟩⟩
  | tests hd hr =>
    refine .ticks ?_
    cases hr with
    | owed h => exact ⟨hd, fun _ => ⟨h, rfl⟩, fun h' => absurd rfl h', le_rfl, by rintro ⟨⟩⟩
    | none => exact ⟨hd, by rintro ⟨⟩, id, le_rfl, by rintro ⟨⟩⟩
  | silent hd hr => exact .ticks (ticksDoubt_silent p now hd hr)
  | dies _ _ hr | moves _ hr => cases hr <;> exact .quiet ⟨rfl, rfl, rfl, rfl, by rintro ⟨⟩⟩
  | resolves hp =>
    exact packet_budget p now hp ⟨rfl, rfl, confirm_silentStreak _ now, confirm_testAtUs _ now,
      by simp [WgPath.inDoubt]⟩
  | undelivered hp => exact packet_budget p now hp ⟨rfl, rfl, rfl, rfl, by rintro ⟨⟩⟩
  | heard hp | restarts hp => exact packet_budget p now hp ⟨rfl, rfl, rfl, rfl, id⟩
  | proves => exact .heard (.inl rfl) ⟨rfl, rfl, rfl, rfl, id⟩
  | doubts _ ho =>
    obtain ⟨hdual, hwhy, _⟩ := ho
    exact .opens ⟨by simp [WgPath.inDoubt, hwhy], (inDoubt_iff _).mpr ⟨hdual, rfl⟩, rfl, rfl, rfl⟩
  | confirms =>
    exact .quiet ⟨rfl, rfl, confirm_silentStreak p now, confirm_testAtUs p now,
      by simp [WgPath.inDoubt]⟩
  | roams _ _ _ hr =>
    cases hr <;> exact .quiet ⟨rfl, rfl, confirm_silentStreak _ now, confirm_testAtUs _ now,
      by simp [WgPath.inDoubt]⟩
  | _ => exact .quiet ⟨rfl, rfl, rfl, rfl, id⟩

end Events

section Runs
variable {E : PathRun} {i j k : ℕ}

lemma budget_at (hk : k < E.length) :
    Budget (E.pathAt k) (E.timeAt k) (E.act k).event (E.pathAt (k + 1)) (E.actAt k) := by
  rw [pathAt_succ hk]
  exact event_budget _ _ _

lemma streak_pos_of_pos (hij : i ≤ j) (hj : j ≤ E.length) (hpos : 0 < (E.pathAt i).silentStreak)
    (hno : ∀ k, i ≤ k → k < j → ¬ E.TransportAt k ∧ ¬ E.StartsOver k) :
    0 < (E.pathAt j).silentStreak := by
  refine stretch hij hpos fun k hik hkj hbefore => ?_
  obtain ⟨hpacket, hover⟩ := hno k hik hkj
  cases budget_at (E := E) (k := k) (by omega) with
  | startsOver h => exact absurd h hover
  | heard h => exact absurd h hpacket
  | quiet h => rwa [h.streak]
  | ticks h => exact hbefore.trans_le h.streak
  | opens h => rwa [h.streak]

lemma rekey_streak (hk : k < E.length) (h : (E.actAt k).rekey) :
    (E.pathAt k).silentStreak = 0 ∧ 0 < (E.pathAt (k + 1)).silentStreak := by
  cases budget_at (E := E) hk with
  | startsOver _ hact =>
    rw [hact] at h
    cases h
  | heard _ hq => simp [hq.rekey] at h
  | quiet hq => simp [hq.rekey] at h
  | ticks ht =>
    obtain ⟨hzero, hone⟩ := ht.rekey h
    exact ⟨hzero, by omega⟩
  | opens ho =>
    rw [ho.act] at h
    cases h

lemma testAt_zero_of_zero (hij : i ≤ j) (hj : j ≤ E.length) (hzero : (E.pathAt i).testAtUs = 0)
    (hno : ∀ k, i ≤ k → k < j → ¬ E.EntersDoubt k) : (E.pathAt j).testAtUs = 0 := by
  refine stretch hij hzero fun k hik hkj hbefore => ?_
  cases budget_at (E := E) (k := k) (by omega) with
  | startsOver _ _ htest => exact htest
  | heard _ h | quiet h => exact h.testAt.trans hbefore
  | ticks h =>
    by_contra hne
    exact h.testAt hne hbefore
  | opens h => exact absurd ⟨h.before, h.after⟩ (hno k hik hkj)

lemma test_testAt (hk : k < E.length) (h : (E.actAt k).test) :
    (E.pathAt k).testAtUs ≠ 0 ∧ (E.pathAt (k + 1)).testAtUs = 0 := by
  cases budget_at (E := E) hk with
  | startsOver _ hact =>
    rw [hact] at h
    cases h
  | heard _ hq => simp [hq.test] at h
  | quiet hq => simp [hq.test] at h
  | ticks ht => exact ht.test h
  | opens ho =>
    rw [ho.act] at h
    cases h

lemma entersDoubt_testAt (hk : k < E.length) (h : E.EntersDoubt k)
    (hpos : 0 < (E.pathAt k).silentStreak) : (E.pathAt (k + 1)).testAtUs = 0 := by
  obtain ⟨hbefore, hafter⟩ := h
  cases budget_at (E := E) hk with
  | startsOver _ _ htest => exact htest
  | heard _ hq =>
    have hdoubt : (E.pathAt k).inDoubt = true := hq.doubt hafter
    simp [hbefore] at hdoubt
  | quiet hq => exact absurd (hq.doubt hafter) (by simpa using hbefore)
  | ticks ht => exact absurd ht.doubt (by simpa using hbefore)
  | opens ho => rw [ho.testAt, if_neg (by omega)]

lemma entersRelay_silent_streak (h : E.EntersRelay k .silent) :
    0 < (E.pathAt (k + 1)).silentStreak := by
  obtain ⟨hk, hm, hrelay, hwhy⟩ := h
  have hmode : (pathEvent (E.pathAt k) (E.timeAt k) (E.act k).event).1.mode = .relay := by
    rw [← pathAt_succ hk]
    exact hrelay
  have hentry := relayEntry (E.pathAt k) (E.timeAt k) (E.act k).event hm hmode
  rw [← pathAt_succ hk] at hentry
  cases hentry with
  | died hdual _ hsame =>
    rw [hwhy] at hsame
    exact absurd hsame.symm (dualWhy_at k hk.le hdual).1
  | failed _ _ _ _ _ _ hstreak hq =>
    rw [hq] at hwhy ⊢
    exact hstreak hwhy

/-- Between two rekeys comes a transport packet of the peer, between two tests a doubt opens, and a
doubt that opens after a silence with no such packet between has no test. -/
theorem forced_rekeys_bounded (E : PathRun) :
    (∀ i j, i < j → j < E.length → (E.actAt i).rekey = true → (E.actAt j).rekey = true →
        (∀ k, i < k → k < j → ¬ E.StartsOver k) → ∃ k, i < k ∧ k < j ∧ E.TransportAt k) ∧
      (∀ i j, i < j → j < E.length → (E.actAt i).test = true → (E.actAt j).test = true →
        ∃ k, i < k ∧ k < j ∧ E.EntersDoubt k) ∧
      (∀ v d t, E.EntersRelay v .silent → v < d → d < t → t < E.length → E.EntersDoubt d →
        (∀ k, v < k → k < d → ¬ E.TransportAt k ∧ ¬ E.StartsOver k) →
        (∀ k, d < k → k < t → ¬ E.EntersDoubt k) → (E.actAt t).test = false) := by
  refine ⟨?_, ?_, ?_⟩
  · intro i j hij hj hi hrekey hover
    by_contra hnone
    have hpos := (rekey_streak (by omega) hi).2
    have hstreak := streak_pos_of_pos (i := i + 1) hij hj.le hpos fun k hk hk' =>
      ⟨fun h => hnone ⟨k, hk, hk', h⟩, hover k hk hk'⟩
    have hzero := (rekey_streak hj hrekey).1
    omega
  · intro i j hij hj hi htest
    by_contra hnone
    have hzero := (test_testAt (by omega) hi).2
    have hstill := testAt_zero_of_zero (i := i + 1) hij hj.le hzero fun k hk hk' h =>
      hnone ⟨k, hk, hk', h⟩
    exact (test_testAt hj htest).1 hstill
  · intro v d t hv hvd hdt ht hd hquiet hsame
    have hpos := streak_pos_of_pos (i := v + 1) hvd (by omega) (entersRelay_silent_streak hv) hquiet
    have hzero := entersDoubt_testAt (by omega) hd hpos
    have hstill := testAt_zero_of_zero (i := d + 1) hdt ht.le hzero hsame
    by_contra h
    exact (test_testAt ht (by simpa using h)).1 hstill

end Runs

section Sample

def silentTwice : List PathStep :=
  [⟨1000000, currentPong⟩, ⟨2000000, .send true⟩, ⟨15000000, .tick⟩, ⟨16000000, currentPong⟩,
    ⟨17000000, .send true⟩, ⟨18000000, .tick⟩, ⟨30000000, .tick⟩, ⟨41000000, .tick⟩,
    ⟨42000000, currentPong⟩, ⟨43000000, .keepalive⟩, ⟨44000000, .send true⟩, ⟨57000000, .tick⟩,
    ⟨58000000, currentPong⟩, ⟨59000000, .send true⟩, ⟨72000000, .tick⟩]

def silentTwiceRun : PathRun := runOf answerStart answerStart_started ⟨0, .tick⟩ silentTwice rfl

theorem keepalive_allows_second_rekey : ∃ k, 6 < k ∧ k < 14 ∧ silentTwiceRun.TransportAt k := by
  apply (forced_rekeys_bounded silentTwiceRun).1 6 14 (by decide) (by decide) rfl rfl
  intro k hk hk' h
  rcases h with ⟨managed, endpoint, h⟩ | ⟨h, _⟩
  · interval_cases k <;> cases h
  · interval_cases k <;> cases h

end Sample

end TinyLink.Proofs
