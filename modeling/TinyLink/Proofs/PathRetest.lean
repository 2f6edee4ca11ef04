import TinyLink.Proofs.PathHistory

/-!
# RELAY after a failed WireGuard test

How a stay in RELAY begins, what the events in it can do, and how it ends.
-/

namespace TinyLink.Proofs
open StepSystem

section Entry
variable (p : WgPath) (now : ℤ)

inductive RelayEntry (p : WgPath) (now : ℤ) (q : WgPath) : Prop where
  | died (hm : p.mode = .dual) (hd : p.inDoubt = false) (hw : q.why = p.why)
  | failed (r : WgPath) (why : WgPathWhy) (hd : p.inDoubt = true) (hdoubts : r.doubts = p.doubts)
      (hping : r.pingUs = p.pingUs) (hdata : r.lastDataUs = p.lastDataUs)
      (hstreak : why = .silent → 0 < r.silentStreak)
      (hq : q = (wgPathRescue (wgPathEnterRelay r now why) now).1)

lemma relayEntry (e : PathEvent) (hm : p.mode ≠ .relay) (hq : (pathEvent p now e).1.mode = .relay) :
    RelayEntry p now (pathEvent p now e).1 := by
  have hmove := pathEvent_move p now e
  generalize pathEvent p now e = r at hmove hq ⊢
  cases hmove with
  | startsOver | lapses | sendsLapsed | moves => cases hq
  | tests _ hr => cases hr <;> exact absurd hq hm
  | @silent r hd hr =>
    refine .failed (r.1.countSilence now) .silent hd ?_ ?_ ?_ (fun _ => ?_) rfl
    · cases hr <;> rfl
    · cases hr <;> rfl
    · cases hr <;> rfl
    · simp only [WgPath.countSilence]
      split <;> omega
  | dies hdual hd hr => cases hr <;> exact .died hdual hd rfl
  | @undelivered _ q hp hd =>
    refine .failed (q.countUndelivered now) .undelivered hd ?_ ?_ ?_ (by rintro ⟨⟩) rfl
    · cases hp <;> rfl
    · cases hp <;> rfl
    · cases hp <;> rfl
  | heard hp | restarts hp => cases hp <;> exact absurd hq hm
  | resolves | confirms | roams => simp at hq
  | _ => exact absurd hq hm

end Entry

section Stay
variable (p : WgPath) (now : ℤ)

structure SameRetest (p q : WgPath) : Prop where
  mode : q.mode = p.mode
  why : q.why = p.why
  sinceUs : q.sinceUs = p.sinceUs
  pingUs : q.pingUs = p.pingUs
  reprobeMs : q.reprobeMs = p.reprobeMs
  reprobeUs : q.reprobeUs = p.reprobeUs

/-- What an event can do in RELAY. -/
inductive RelayStep (p : WgPath) (now : ℤ) (e : PathEvent) (q : WgPath) (act : WgPathAct) : Prop where
  | stays (h : SameRetest p q) (hact : act.probe = false)
  | reprobes (he : e = .tick) (hm : p.managed = true) (hlive : wgPathReprobeLive p = true)
      (hdue : p.reprobeUs ≤ now) (hact : act.probe = true)
      (hq : q = { p with
        pingUs := now
        reprobeMs := min (2 * p.reprobeMs) 60000
        reprobeUs := now + (min (2 * p.reprobeMs) 60000 : ℕ) * 1000 })
  | endpoint (endpoint : Endpoint) (he : e = .endpointChange endpoint) (hq : q.mode ≠ .relay)
  | startsOver (h : StartsOverAt p e) (hq : q.mode ≠ .relay)
  | pong (a : PongArgs) (he : e = .pong a) (hhold : wgPathRetestHold p now = false)
      (hq : q.mode ≠ .relay)

lemma relayStep (e : PathEvent) (hm : p.mode = .relay) :
    RelayStep p now e (pathEvent p now e).1 (pathEvent p now e).2 := by
  have hmove := pathEvent_move p now e
  generalize pathEvent p now e = r at hmove ⊢
  cases hmove with
  | startsOver hs => exact .startsOver hs (by rintro ⟨⟩)
  | lapses _ h | sendsLapsed h | doubts _ h => exact absurd h.1 (by simp [hm])
  | tests h | silent h | resolves _ h | undelivered _ h | answers _ h => simp [WgPath.inDoubt, hm] at h
  | pings h | dies h | restarts _ h | proves h => simp [hm] at h
  | reprobes _ hman hlive hdue => exact .reprobes rfl hman hlive hdue rfl rfl
  | heard hp => cases hp <;> exact .stays ⟨rfl, rfl, rfl, rfl, rfl, rfl⟩ rfl
  | moves endpoint => exact .endpoint endpoint rfl (by rintro ⟨⟩)
  | confirms a hh | roams a hh => exact .pong a rfl hh (by simp)
  | keepsCand _ _ ht => simp [wgPathTakes, wgPathValid, WgPath.inDoubt, hm] at ht
  | _ => exact .stays ⟨rfl, rfl, rfl, rfl, rfl, rfl⟩ rfl

lemma relayStep_kept {e : PathEvent} (hm : p.mode = .relay)
    (hq : (pathEvent p now e).1.mode = .relay) :
    (SameRetest p (pathEvent p now e).1 ∧ (pathEvent p now e).2.probe = false) ∨
      (e = .tick ∧ p.managed = true ∧ wgPathReprobeLive p = true ∧ p.reprobeUs ≤ now ∧
        (pathEvent p now e).2.probe = true ∧ (pathEvent p now e).1 = { p with
          pingUs := now
          reprobeMs := min (2 * p.reprobeMs) 60000
          reprobeUs := now + (min (2 * p.reprobeMs) 60000 : ℕ) * 1000 }) := by
  cases relayStep p now e hm with
  | stays h hact => exact .inl ⟨h, hact⟩
  | reprobes he hman hlive hdue hact hq => exact .inr ⟨he, hman, hlive, hdue, hact, hq⟩
  | endpoint _ _ h | startsOver _ h | pong _ _ _ h => exact absurd hq h

end Stay

section Fields
variable (p : WgPath) (now : ℤ) (e : PathEvent)

def DualWhy (p : WgPath) : Prop := p.mode = .dual → p.why ≠ .silent ∧ p.why ≠ .undelivered

def NotYounger (t : ℤ) (p : WgPath) : Prop := p.pingUs ≤ t ∧ p.sinceUs ≤ t

lemma dualWhy_pathEvent (h : DualWhy p) : DualWhy (pathEvent p now e).1 := by
  have hmove := pathEvent_move p now e
  generalize pathEvent p now e = r at hmove ⊢
  cases hmove with
  | tests _ hr | silent _ hr | dies _ _ hr => cases hr <;> grind [DualWhy, wgPathSilent]
  | heard hp | restarts hp => cases hp <;> exact h
  | sendsLapsed hl => grind [DualWhy, LapsesFrom, wgPathNoteData]
  | resolves | confirms | roams => simp [DualWhy]
  | _ => grind [DualWhy, wgPathNoteData]

lemma notYounger_pathEvent (h0 : 0 ≤ now) (h : NotYounger now p) :
    NotYounger now (pathEvent p now e).1 := by
  have hmove := pathEvent_move p now e
  generalize pathEvent p now e = r at hmove ⊢
  cases hmove with
  | tests _ hr | silent _ hr => cases hr <;> grind [NotYounger, wgPathSilent]
  | resolves hp | undelivered hp | heard hp | restarts hp =>
    cases hp <;> grind [NotYounger, wgPathConfirm]
  | dies _ _ hr | moves _ hr | roams _ _ _ hr => cases hr <;> grind [NotYounger, wgPathConfirm]
  | _ => grind [NotYounger, wgPathNoteData, wgPathConfirm]

lemma lastData_pathEvent (hs : ¬ StartsOverAt p e) :
    ((pathEvent p now e).1.managed = true → p.managed = true) ∧
      (e = .send true → p.managed = true → (pathEvent p now e).1.lastDataUs = now) ∧
      (e ≠ .send true → (pathEvent p now e).1.lastDataUs = p.lastDataUs) := by
  have hmove := pathEvent_move p now e
  generalize pathEvent p now e = r at hmove ⊢
  cases hmove with
  | startsOver h => exact absurd h hs
  | setManaged _ h => exact ⟨h, by rintro ⟨⟩, fun _ => rfl⟩
  | still _ hm => exact ⟨id, fun he h => absurd he (hm h), fun _ => rfl⟩
  | lapses he => exact ⟨id, by rcases he with rfl | rfl <;> rintro ⟨⟩, fun _ => rfl⟩
  | sends | sendsLapsed => exact ⟨id, fun _ _ => rfl, fun h => absurd rfl h⟩
  | tests _ hr | silent _ hr | dies _ _ hr | moves _ hr =>
    cases hr <;> exact ⟨id, by rintro ⟨⟩, fun _ => rfl⟩
  | resolves hp | undelivered hp | heard hp | restarts hp => cases hp <;> grind [wgPathConfirm]
  | confirms => grind [wgPathConfirm]
  | roams _ _ _ hr => cases hr <;> grind [wgPathConfirm]
  | _ => exact ⟨id, by rintro ⟨⟩, fun _ => rfl⟩

end Fields

section Runs
variable {E : PathRun} {k e x : ℕ}

lemma dualWhy_at : ∀ k, k ≤ E.length → DualWhy (E.pathAt k) := by
  refine E.along ?_ ?_
  · obtain ⟨now, managed, endpoint, h⟩ := E.starts
    intro _
    rw [PathRun.pathAt, h]
    exact ⟨by simp [wgPathInit], by simp [wgPathInit]⟩
  · intro k hk ih
    rw [pathAt_succ hk]
    exact dualWhy_pathEvent _ _ _ ih

lemma notYounger_at : ∀ k, k ≤ E.length → NotYounger (E.state k).clock (E.pathAt k) := by
  refine E.along ?_ ?_
  · obtain ⟨now, managed, endpoint, h⟩ := E.starts
    rw [PathRun.pathAt, h]
    exact ⟨Int.natCast_nonneg now, le_rfl⟩
  · intro k hk ih
    rw [pathAt_succ hk, clock_succ hk]
    have hle := clock_le hk
    exact notYounger_pathEvent _ _ _ (Int.natCast_nonneg _) ⟨ih.1.trans hle, ih.2.trans hle⟩

lemma lastData_at : ∀ k, k ≤ E.length → (E.pathAt k).managed = true → (E.pathAt k).lastDataUs ≠ 0 →
    ∃ d, Since E.SendsData (fun j => E.StartsOver j ∨ E.SendsData j) k d ∧
      (E.pathAt k).lastDataUs = E.timeAt d := by
  refine E.along ?_ ?_
  · obtain ⟨now, managed, endpoint, h⟩ := E.starts
    rw [PathRun.pathAt, h]
    exact fun _ h0 => absurd rfl h0
  · intro k hk ih hm hdata
    by_cases hs : E.StartsOver k
    · obtain ⟨_, _, hq⟩ := startsOver_eq (E.pathAt k) (E.timeAt k) hs
      rw [pathAt_succ hk, hq] at hdata
      exact absurd rfl hdata
    · rw [pathAt_succ hk] at hm hdata ⊢
      obtain ⟨hman, hsend, hother⟩ := lastData_pathEvent (E.pathAt k) (E.timeAt k) (E.act k).event hs
      by_cases he : (E.act k).event = .send true
      · exact ⟨k, since_self ⟨hk, he⟩, hsend he (hman hm)⟩
      · rw [hother he] at hdata ⊢
        obtain ⟨d, hd, ht⟩ := ih (hman hm) hdata
        exact ⟨d, hd.succ (not_or.mpr ⟨hs, fun h => he h.2⟩), ht⟩

lemma enterRelay_wait (p : WgPath) (now : ℤ) (why : WgPathWhy) :
    (wgPathEnterRelay p now why).reprobeMs = retestWaitMs p.doubts 0 := by
  simp only [wgPathEnterRelay]
  match p.doubts with
  | 0 => rfl
  | 1 => rfl
  | 2 => rfl
  | 3 => rfl
  | n + 4 =>
    rw [if_pos (by omega)]
    simp [retestWaitMs, wgPathReprobeMinMs, wgPathReprobeMaxMs]

lemma pingUs_lt_timeAt (hstrict : E.Strict) (hk : k < E.length) (hd : (E.pathAt k).inDoubt) :
    (E.pathAt k).pingUs < E.timeAt k := by
  cases k with
  | zero =>
    obtain ⟨now, managed, endpoint, h⟩ := E.starts
    rw [PathRun.pathAt, h] at hd
    cases hd
  | succ k =>
    have hle := (notYounger_at (E := E) (k + 1) hk.le).1
    rw [clock_succ (by omega)] at hle
    exact hle.trans_lt (hstrict k hk)

structure Entered (E : PathRun) (e : ℕ) : Prop where
  lt : e < E.length
  mode : (E.pathAt (e + 1)).mode = .relay
  why : (E.pathAt (e + 1)).why = .silent ∨ (E.pathAt (e + 1)).why = .undelivered
  sinceUs : (E.pathAt (e + 1)).sinceUs = E.timeAt e
  pingUs : (E.pathAt (e + 1)).pingUs < E.timeAt e
  reprobeMs : (E.pathAt (e + 1)).reprobeMs = retestWaitMs (E.pathAt e).doubts 0
  reprobeUs : (E.pathAt (e + 1)).reprobeUs =
    E.timeAt e + (retestWaitMs (E.pathAt e).doubts 0 : ℕ) * 1000

lemma entered_of_entersRelay (hstrict : E.Strict) {why : WgPathWhy} (h : E.EntersRelay e why)
    (hw : why = .silent ∨ why = .undelivered) : Entered E e := by
  obtain ⟨he, hm, hrelay, hwhy⟩ := h
  have hmode : (pathEvent (E.pathAt e) (E.timeAt e) (E.act e).event).1.mode = .relay := by
    rw [← pathAt_succ he]
    exact hrelay
  have hentry := relayEntry (E.pathAt e) (E.timeAt e) (E.act e).event hm hmode
  rw [← pathAt_succ he] at hentry
  cases hentry with
  | died hdual _ hsame =>
    -- DUAL outside of a doubt has another reason
    obtain ⟨hs, hu⟩ := dualWhy_at e he.le hdual
    rw [hwhy] at hsame
    rcases hw with rfl | rfl
    · exact absurd hsame.symm hs
    · exact absurd hsame.symm hu
  | failed r why' hd hdoubts hping _ _ hq =>
    have hwait := enterRelay_wait r (E.timeAt e) why'
    rw [hdoubts] at hwait
    refine ⟨he, hrelay, hwhy ▸ hw, ?_, ?_, ?_, ?_⟩
    · rw [hq]
      rfl
    · rw [hq]
      exact hping ▸ pingUs_lt_timeAt hstrict he hd
    · rw [hq]
      exact hwait
    · rw [hq, ← hwait]
      rfl

lemma entered_of_failsTest (hstrict : E.Strict) (h : E.FailsTest e) : Entered E e := by
  rcases h with h | h
  · exact entered_of_entersRelay hstrict h (.inl rfl)
  · exact entered_of_entersRelay hstrict h (.inr rfl)

lemma reprobesIn_succ (E : PathRun) (e x : ℕ) :
    E.reprobesIn e (x + 1) = E.reprobesIn e x + if e < x && E.reprobes x then 1 else 0 := by
  simp [PathRun.reprobesIn, List.range_succ, List.countP_append, List.countP_cons]

lemma reprobesIn_entry (E : PathRun) (e : ℕ) : E.reprobesIn e (e + 1) = 0 := by
  rw [PathRun.reprobesIn, List.countP_eq_zero]
  intro k hk
  have hle : k < e + 1 := List.mem_range.mp hk
  simp only [Bool.and_eq_true, decide_eq_true_eq, not_and]
  intro hlt
  omega

/-- The state of the back-off in a stay: `b` is the step that set the timer last. -/
structure Backoff (E : PathRun) (e x b : ℕ) : Prop where
  timer : E.SetsTimer e x b
  why : (E.pathAt x).why = .silent ∨ (E.pathAt x).why = .undelivered
  sinceUs : (E.pathAt x).sinceUs = E.timeAt e
  pingUs : (b = e ∧ (E.pathAt x).pingUs < E.timeAt e) ∨ (e < b ∧ (E.pathAt x).pingUs = E.timeAt b)
  reprobeMs : (E.pathAt x).reprobeMs = retestWaitMs (E.pathAt e).doubts (E.reprobesIn e x)
  reprobeUs : (E.pathAt x).reprobeUs =
    E.timeAt b + (retestWaitMs (E.pathAt e).doubts (E.reprobesIn e x) : ℕ) * 1000

lemma backoff_entry (h : Entered E e) : Backoff E e (e + 1) e := by
  have hn := reprobesIn_entry E e
  refine ⟨⟨le_rfl, Nat.lt_succ_self e, .inl rfl, ?_⟩, h.why, h.sinceUs, .inl ⟨rfl, h.pingUs⟩, ?_, ?_⟩
  · intro k hk hk'
    omega
  · rw [hn]
    exact h.reprobeMs
  · rw [hn]
    exact h.reprobeUs

lemma reprobes_eq (hm : (E.pathAt x).mode = .relay) :
    E.reprobes x = ((E.act x).event.isTick &&
      (pathEvent (E.pathAt x) (E.timeAt x) (E.act x).event).2.probe) := by
  simp [PathRun.reprobes, PathRun.actAt, hm]

lemma backoff_step {b : ℕ} (hx : x < E.length) (h : Backoff E e x b)
    (hm : (E.pathAt x).mode = .relay) (hm' : (E.pathAt (x + 1)).mode = .relay) :
    ∃ b', Backoff E e (x + 1) b' := by
  have hsucc := pathAt_succ hx
  rw [hsucc] at hm'
  obtain ⟨hbe, hbx, hb, hno⟩ := h.timer
  rcases relayStep_kept _ _ hm hm' with ⟨hsame, hact⟩ | ⟨he, _, _, _, hact, hq⟩
  · have hnone : E.reprobes x = false := by simp [reprobes_eq hm, hact]
    have hcount : E.reprobesIn e (x + 1) = E.reprobesIn e x := by simp [reprobesIn_succ, hnone]
    rw [← hsucc] at hsame
    refine ⟨b, ⟨hbe, by omega, hb, ?_⟩, hsame.why ▸ h.why, hsame.sinceUs.trans h.sinceUs,
      hsame.pingUs ▸ h.pingUs, ?_, ?_⟩
    · intro k hbk hk
      rcases Nat.lt_or_eq_of_le (Nat.le_of_lt_succ hk) with hlt | rfl
      · exact hno k hbk hlt
      · exact hnone
    · rw [hcount, hsame.reprobeMs, h.reprobeMs]
    · rw [hcount, hsame.reprobeUs, h.reprobeUs]
  · have hprobe : E.reprobes x = true := by
      rw [reprobes_eq hm, hact, he]
      rfl
    have hcount : E.reprobesIn e (x + 1) = E.reprobesIn e x + 1 := by
      simp [reprobesIn_succ, hprobe, show e < x by omega]
    have hwait : min (2 * (E.pathAt x).reprobeMs) 60000 =
        retestWaitMs (E.pathAt e).doubts (E.reprobesIn e (x + 1)) := by
      rw [hcount, h.reprobeMs]
      rfl
    rw [← hsucc] at hq
    refine ⟨x, ⟨by omega, Nat.lt_succ_self x, .inr hprobe, fun k hk hk' => by omega⟩, ?_, ?_,
      .inr ⟨by omega, ?_⟩, ?_, ?_⟩
    · rw [hq]
      exact h.why
    · rw [hq]
      exact h.sinceUs
    · rw [hq]
    · rw [hq]
      exact hwait
    · rw [hq, ← hwait]

lemma backoff_at (h : Entered E e) :
    ∀ x, E.InStay e x → ∃ b, Backoff E e x b := by
  intro x
  induction x with
  | zero => exact fun hs => absurd hs.1 (Nat.not_lt_zero e)
  | succ x ih =>
    intro hstay
    obtain ⟨hex, hx, hmode⟩ := hstay
    rcases Nat.lt_or_eq_of_le (Nat.le_of_lt_succ hex) with hlt | rfl
    · obtain ⟨b, hb⟩ := ih ⟨hlt, by omega, fun y hy hyx => hmode y hy (by omega)⟩
      exact backoff_step (by omega) hb (hmode x hlt (by omega)) (hmode (x + 1) hex le_rfl)
    · exact ⟨e, backoff_entry h⟩

lemma inRetest_of_not_hold {b : ℕ} (h : Backoff E e x b)
    (hm : (E.pathAt x).mode = .relay) (hhold : wgPathRetestHold (E.pathAt x) (E.timeAt x) = false) :
    E.InRetest e x := by
  have hround : (E.pathAt x).sinceUs ≤ (E.pathAt x).pingUs ∧
      E.timeAt x ≤ (E.pathAt x).pingUs + wgPathPingTimeoutUs := by
    rcases h.why with hw | hw <;>
      simpa [wgPathRetestHold, hm, hw, wgTimerDue_eq_false_iff] using hhold
  rcases h.pingUs with ⟨_, hp⟩ | ⟨heb, hp⟩
  · rw [h.sinceUs] at hround
    omega
  · obtain ⟨_, hbx, hb, _⟩ := h.timer
    rw [hp] at hround
    exact ⟨b, heb, hbx, hb.resolve_left (by omega), hround.2⟩

/-- After a failed WireGuard test only an endpoint change, a new start or a pong in the round of a
re-probe ends RELAY. The re-probe that follows `n` others comes at least the wait for `n` after the
last of them, or after the entry, and is due within the activity window of a data frame. -/
theorem retest_backs_off (E : PathRun) (hstrict : E.Strict) {e x : ℕ} (hfail : E.FailsTest e)
    (hstay : E.InStay e x) (hx : x < E.length) :
    ((E.pathAt (x + 1)).mode ≠ .relay → E.ChangesEndpoint x ∨ E.StartsOver x ∨
        ((∃ args, (E.act x).event = .pong args) ∧ E.InRetest e x)) ∧
      (∀ args, (E.act x).event = .pong args → ¬ E.InRetest e x →
        (E.pathAt (x + 1)).mode = .relay ∧ (E.state (x + 1)).endpoint = (E.state x).endpoint) ∧
      (E.reprobes x = true → ∃ b d, E.SetsTimer e x b ∧
        Since E.SendsData (fun j => E.StartsOver j ∨ E.SendsData j) x d ∧
        E.timeAt b + (retestWaitMs (E.pathAt e).doubts (E.reprobesIn e x) : ℕ) * 1000 ≤ E.timeAt x ∧
        E.timeAt b + (retestWaitMs (E.pathAt e).doubts (E.reprobesIn e x) : ℕ) * 1000 ≤
          E.timeAt d + wgPathActiveUs) := by
  obtain ⟨b, hb⟩ := backoff_at (entered_of_failsTest hstrict hfail) x hstay
  have hm : (E.pathAt x).mode = .relay := hstay.2.2 x hstay.1 le_rfl
  have hstep := relayStep (E.pathAt x) (E.timeAt x) (E.act x).event hm
  refine ⟨?_, ?_, ?_⟩
  · intro hleft
    rw [pathAt_succ hx] at hleft
    cases hstep with
    | stays h => exact absurd (h.mode.trans hm) hleft
    | reprobes _ _ _ _ _ hq =>
      rw [hq] at hleft
      exact absurd hm hleft
    | endpoint endpoint he => exact .inl ⟨endpoint, he⟩
    | startsOver h => exact .inr (.inl h)
    | pong a he hhold => exact .inr (.inr ⟨⟨a, he⟩, inRetest_of_not_hold hb hm hhold⟩)
  · intro args he hnot
    have hhold : wgPathRetestHold (E.pathAt x) (E.timeAt x) = true := by
      by_contra h
      exact hnot (inRetest_of_not_hold hb hm (by simpa using h))
    have hkept : (wgPathOnPong (E.pathAt x) (E.timeAt x) args).1.mode = .relay ∧
        (wgPathOnPong (E.pathAt x) (E.timeAt x) args).2.1 = .kept := by
      rcases onPong_cases (E.pathAt x) (E.timeAt x) args with
        ⟨_, _, h⟩ | ⟨_, _, h⟩ | ⟨h, _, _⟩ | ⟨h, _, _⟩
      · rw [h]
        exact ⟨hm, rfl⟩
      · rw [h]
        exact ⟨hm, rfl⟩
      · simp [hhold] at h
      · simp [hhold] at h
    rw [pathAt_succ hx, endpoint_succ hx, he]
    refine ⟨hkept.1, ?_⟩
    change pongEndpoint (E.pathAt x) (E.timeAt x) args (E.state x).endpoint = _
    rw [pongEndpoint, hkept.2]
  · intro hprobe
    rw [reprobes_eq hm] at hprobe
    cases hstep with
    | stays _ hact => simp [hact] at hprobe
    | reprobes _ hman hlive hdue =>
      simp only [wgPathReprobeLive, Bool.and_eq_true, decide_eq_true_eq] at hlive
      obtain ⟨d, hd, hlast⟩ := lastData_at x hx.le hman hlive.1
      rw [hlast] at hlive
      rw [hb.reprobeUs] at hdue hlive
      exact ⟨b, d, hb.timer, hd, hdue, hlive.2⟩
    | endpoint _ he | pong _ he => simp [he, PathEvent.isTick] at hprobe
    | startsOver h =>
      rcases h with ⟨_, _, he⟩ | ⟨he, _⟩ <;> simp [he, PathEvent.isTick] at hprobe

end Runs

section Sample

/-- The pong at 47 s comes after the round of the first re-test, the one at 63 s in the round of the
second. -/
def silentDoubt : List PathStep :=
  [⟨1000000, currentPong⟩, ⟨2000000, .send true⟩, ⟨15000000, .tick⟩, ⟨16000000, currentPong⟩,
    ⟨17000000, .send true⟩, ⟨18000000, .tick⟩, ⟨30000000, .tick⟩, ⟨41000000, .tick⟩,
    ⟨47000000, currentPong⟩, ⟨62000000, .tick⟩, ⟨63000000, currentPong⟩]

def silentDoubtRun : PathRun := runOf answerStart answerStart_started ⟨0, .tick⟩ silentDoubt rfl

lemma silentDoubtRun_strict : silentDoubtRun.Strict := by
  intro k hk
  have hlt : k < 10 := Nat.lt_of_succ_lt_succ hk
  interval_cases k <;> decide

lemma silentDoubtRun_fails : silentDoubtRun.FailsTest 6 := .inl ⟨by decide, by decide, rfl, rfl⟩

lemma silentDoubtRun_stay : silentDoubtRun.InStay 6 9 := by
  refine ⟨by decide, by decide, ?_⟩
  intro y hy hy'
  interval_cases y <;> rfl

theorem second_retest_backs_off : ∃ b d, silentDoubtRun.SetsTimer 6 9 b ∧
    Since silentDoubtRun.SendsData (fun j => silentDoubtRun.StartsOver j ∨ silentDoubtRun.SendsData j)
      9 d ∧
    silentDoubtRun.timeAt b + (retestWaitMs 1 1 : ℕ) * 1000 ≤ 62000000 ∧
    silentDoubtRun.timeAt b + (retestWaitMs 1 1 : ℕ) * 1000 ≤ silentDoubtRun.timeAt d + wgPathActiveUs :=
  (retest_backs_off silentDoubtRun silentDoubtRun_strict silentDoubtRun_fails silentDoubtRun_stay
    (by decide)).2.2 rfl

example : (silentDoubtRun.pathAt 9).mode = .relay ∧ (silentDoubtRun.pathAt 11).mode = .direct :=
  ⟨rfl, rfl⟩

end Sample

end TinyLink.Proofs
