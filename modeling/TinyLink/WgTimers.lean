import Mathlib.Data.Int.Order.Basic
import Mathlib.Tactic.Common

/-!
# Timer predicates

Embedding of `wg_timers.h`. Times are microseconds since boot.
-/

namespace TinyLink

/-- More than `periodUs` since `tUs`. -/
def wgTimerDue (nowUs tUs periodUs : ℤ) : Bool := nowUs - tUs > periodUs

/-- The first instant at which `wgTimerDue` holds. -/
def wgTimerAt (tUs periodUs : ℤ) : ℤ := tUs + periodUs + 1

def wgRecvTimeoutMs (nowUs deadlineUs : ℤ) (capMs tickMs : UInt32) : UInt32 :=
  let tickMs := if tickMs = 0 then 1 else tickMs
  let capMs := if capMs < tickMs then tickMs else capMs
  if deadlineUs ≤ nowUs then tickMs
  else
    let remUs := UInt64.ofNat (deadlineUs - nowUs).toNat
    let tickUs := tickMs.toUInt64 * 1000
    if remUs ≥ capMs.toUInt64 * 1000 then capMs
    else
      let ms := ((remUs + tickUs - 1) / tickUs + 1) * tickMs.toUInt64
      if ms > capMs.toUInt64 then capMs else ms.toUInt32

/-- How long FreeRTOS may wait for `ms`: its first tick is a partial one. -/
def FreertosWait (tickMs ms : UInt32) (us : ℕ) : Prop :=
  (ms.toNat / tickMs.toNat - 1) * (tickMs.toNat * 1000) ≤ us ∧
    us ≤ ms.toNat / tickMs.toNat * (tickMs.toNat * 1000)

lemma wgTimerDue_iff {n t p : ℤ} : wgTimerDue n t p = true ↔ t + p < n := by
  simp only [wgTimerDue, decide_eq_true_eq]
  omega

lemma wgTimerDue_eq_false_iff {n t p : ℤ} : wgTimerDue n t p = false ↔ n ≤ t + p := by
  simp only [wgTimerDue, decide_eq_false_iff_not]
  omega

end TinyLink
