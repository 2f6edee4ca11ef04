import TinyLink.Library.Execution
import TinyLink.WgRescue

/-!
# Runs of the rescue ring

`wg_rescue_keep` and `wg_rescue_flush` in any order, with any relay, at times that do not decrease.
A frame is known by the step that kept it: two frames may have the same bytes and the same time.
-/

namespace TinyLink
open StepSystem

/-- The slots, counted from the oldest, whose frames `wg_rescue_flush` hands to `send`. -/
def wgRescueHanded (r : WgRescueRing) (now fromUs maxAgeUs : ℤ) (accepts : ℕ → Bool) : List ℕ :=
  (List.range wgRescueSlots).filter fun i =>
    let f := (List.range i).foldl (wgRescueFlushSlot now fromUs maxAgeUs accepts) ⟨r, [], 0⟩
    f.left = 0 && wgRescuePending (f.ring.nth i) now fromUs maxAgeUs

inductive RescueOp where
  | keep (buf : Bytes) (gen : UInt32)
  | flush (fromUs maxAgeUs : ℤ) (accepts : ℕ → Bool)

structure RescueStep where
  now : ℕ
  op : RescueOp

structure RescueState where
  ring : WgRescueRing
  clock : ℕ

def rescueOp (r : WgRescueRing) (now : ℤ) : RescueOp → WgRescueRing
  | .keep buf gen => wgRescueKeep r buf now gen
  | .flush fromUs maxAgeUs accepts => (wgRescueFlush r now fromUs maxAgeUs accepts).ring

def rescueStep (σ : RescueState) (a : RescueStep) : Option RescueState :=
  if σ.clock ≤ a.now then some ⟨rescueOp σ.ring a.now a.op, a.now⟩ else none

def RescueState.Started (σ : RescueState) : Prop := σ.ring = .empty

abbrev RescueRun := Execution RescueState.Started rescueStep

namespace RescueRun
variable (E : RescueRun)

def ringAt (k : ℕ) : WgRescueRing := (E.state k).ring

def timeAt (k : ℕ) : ℤ := (E.act k).now

def KeepsAt (i : ℕ) (buf : Bytes) (gen : UInt32) : Prop :=
  i < E.length ∧ (E.act i).op = .keep buf gen ∧ buf.length ≤ wgRescueMax

def Keeps (i : ℕ) : Prop := ∃ buf gen, E.KeepsAt i buf gen

def FlushesAt (k : ℕ) (fromUs maxAgeUs : ℤ) (accepts : ℕ → Bool) : Prop :=
  k < E.length ∧ (E.act k).op = .flush fromUs maxAgeUs accepts

def bufAt (i : ℕ) : Bytes :=
  match (E.act i).op with
  | .keep buf _ => buf
  | .flush _ _ _ => []

def slotOf (i : ℕ) : Fin 10 := (E.ringAt i).head

/-- Step `j` writes the slot of frame `i`. -/
def Overwrites (j i : ℕ) : Prop := E.Keeps j ∧ E.slotOf j = E.slotOf i

def frameAt (k i : ℕ) : WgRescue := (E.ringAt k).slot.get (E.slotOf i)

/-- Where that slot is in state `k`, counted from the oldest. -/
def posAt (k i : ℕ) : ℕ := (E.slotOf i - (E.ringAt k).head : Fin 10).val

/-- State `k` still holds the frame that step `i` kept. -/
def InRing (k i : ℕ) : Prop :=
  i < k ∧ E.Keeps i ∧ (∀ j, i < j → j < k → ¬ E.Overwrites j i) ∧ (E.frameAt k i).atUs ≠ 0

def OwedAt (k i : ℕ) : Prop := (E.frameAt k i).owed = true

/-- Frame `i` is owed, or was sent at `fromUs` or after it. -/
def WantedAt (k i : ℕ) (fromUs : ℤ) : Prop := E.OwedAt k i ∨ fromUs ≤ E.timeAt i

/-- Frame `i` is no older than `maxAgeUs` at step `k`. -/
def YoungAt (k i : ℕ) (maxAgeUs : ℤ) : Prop := E.timeAt k ≤ E.timeAt i + maxAgeUs

/-- The ring holds frame `i`, and it is still to re-send. -/
def PendingAt (k i : ℕ) (fromUs maxAgeUs : ℤ) : Prop :=
  E.InRing k i ∧ E.WantedAt k i fromUs ∧ E.YoungAt k i maxAgeUs

/-- Step `k` hands frame `i` to the relay, which answers `taken`. -/
def HandsAt (k i : ℕ) (taken : Bool) : Prop :=
  E.InRing k i ∧ ∃ fromUs maxAgeUs accepts, E.FlushesAt k fromUs maxAgeUs accepts ∧
    E.posAt k i ∈ wgRescueHanded (E.ringAt k) (E.timeAt k) fromUs maxAgeUs accepts ∧
    accepts (E.posAt k i) = taken

/-- Step `k` is a flush and finds frame `i` too old. -/
def AgesAt (k i : ℕ) : Prop :=
  ∃ fromUs maxAgeUs accepts, E.FlushesAt k fromUs maxAgeUs accepts ∧ ¬ E.YoungAt k i maxAgeUs

/-- If step `k` is a flush and a pending frame is refused, every later one is pending too. -/
def DropsInOrder (k : ℕ) : Prop :=
  ∀ fromUs maxAgeUs accepts, E.FlushesAt k fromUs maxAgeUs accepts → ∀ i j, i < j →
    E.PendingAt k i fromUs maxAgeUs → accepts (E.posAt k i) = false → E.InRing k j →
    E.PendingAt k j fromUs maxAgeUs

end RescueRun

end TinyLink
