import Mathlib.Order.Interval.Finset.Nat
import TinyLink.Disco
import TinyLink.Library.Execution

/-!
# The table of outstanding pings

Embedding of `disco_prober.c`.
-/

namespace TinyLink

abbrev discoProberTableSize : ℕ := 16
def discoProberTimeoutMs : Int := 5000

structure ProberSlot where
  txid : Txid
  dstV4Be : UInt32
  dstPort : UInt16
  sentUs : Int
  valid : Bool
deriving DecidableEq

def ProberSlot.zero : ProberSlot := ⟨Vector.replicate 12 0, 0, 0, 0, false⟩

abbrev ProberTable := Vector ProberSlot discoProberTableSize

def discoProberInit : ProberTable := Vector.replicate discoProberTableSize .zero

def expiryThresholdUs (nowUs : Int) : Int := nowUs - discoProberTimeoutMs * 1000

/-- The loop of `disco_prober_record`: the first free or expired slot, else the oldest. -/
def proberTarget (table : ProberTable) (threshold : Int) :
    List (Fin discoProberTableSize) → Fin discoProberTableSize → Fin discoProberTableSize
  | [], oldest => oldest
  | i :: is, oldest =>
    if !table[i].valid then i
    else if table[i].sentUs < threshold then i
    else proberTarget table threshold is (if table[i].sentUs < table[oldest].sentUs then i else oldest)

def discoProberRecord (table : ProberTable) (txid : Txid) (dstV4Be : UInt32) (dstPort : UInt16)
    (nowUs : Int) : ProberTable :=
  let target := proberTarget table (expiryThresholdUs nowUs) (List.finRange discoProberTableSize) 0
  table.set target ⟨txid, dstV4Be, dstPort, nowUs, true⟩

/-- The loop of `disco_prober_take` up to the slot whose transaction id matches. -/
def proberFind (table : ProberTable) (txid : Txid) :
    List (Fin discoProberTableSize) → Option (Fin discoProberTableSize)
  | [] => none
  | i :: is =>
    if !table[i].valid then proberFind table txid is
    else if table[i].txid ≠ txid then proberFind table txid is
    else some i

def discoProberTake (table : ProberTable) (txid : Txid) (srcV4Be : UInt32) (srcPort : UInt16)
    (nowUs : Int) : Option Int × ProberTable :=
  match proberFind table txid (List.finRange discoProberTableSize) with
  | none => (none, table)
  | some i =>
    let slot := table[i]
    if slot.dstV4Be ≠ srcV4Be ∨ slot.dstPort ≠ srcPort then (none, table)
    else
      (if slot.sentUs ≥ expiryThresholdUs nowUs then some slot.sentUs else none,
        table.set i .zero)

inductive ProberCall where
  | record (txid : Txid) (v4 : UInt32) (port : UInt16) (nowUs : Int)
  | take (txid : Txid) (v4 : UInt32) (port : UInt16) (nowUs : Int)
deriving DecidableEq

def ProberCall.timeUs : ProberCall → Int
  | record _ _ _ nowUs => nowUs
  | take _ _ _ nowUs => nowUs

def ProberCall.isRecord : ProberCall → Bool
  | record .. => true
  | take .. => false

def proberStep (table : ProberTable) : ProberCall → Option ProberTable
  | .record txid v4 port nowUs => some (discoProberRecord table txid v4 port nowUs)
  | .take txid v4 port nowUs => some (discoProberTake table txid v4 port nowUs).2

abbrev ProberRun := StepSystem.Execution (· = discoProberInit) proberStep

namespace ProberRun
variable (E : ProberRun)

def RecordsAt (k : ℕ) (txid : Txid) (v4 : UInt32) (port : UInt16) (nowUs : Int) : Prop :=
  k < E.length ∧ E.act k = .record txid v4 port nowUs

def TakesAt (k : ℕ) (txid : Txid) (v4 : UInt32) (port : UInt16) (nowUs : Int) : Prop :=
  k < E.length ∧ E.act k = .take txid v4 port nowUs

/-- What the `disco_prober_take` of call `k` returns. -/
def returnAt (k : ℕ) (txid : Txid) (v4 : UInt32) (port : UInt16) (nowUs : Int) : Option Int :=
  (discoProberTake (E.state k) txid v4 port nowUs).1

/-- A take for `txid` before call `k` returned true or consumed its slot. -/
def SpentBefore (k : ℕ) (txid : Txid) : Prop :=
  ∃ j v4 port now, j < k ∧ E.TakesAt j txid v4 port now ∧
    ((E.returnAt j txid v4 port now).isSome = true ∨ E.state (j + 1) ≠ E.state j)

/-- The number of probes recorded strictly between two calls. -/
def recordsBetween (j k : ℕ) : ℕ := ((Finset.Ioo j k).filter fun i => (E.act i).isRecord).card

/-- Transaction ids are distinct, record times increase and no time decreases. -/
structure Orderly : Prop where
  distinct : ∀ i j txid v4 port s v4' port' s', E.RecordsAt i txid v4 port s →
    E.RecordsAt j txid v4' port' s' → i = j
  increasing : ∀ i j txid v4 port s txid' v4' port' s', i < j → E.RecordsAt i txid v4 port s →
    E.RecordsAt j txid' v4' port' s' → s < s'
  ordered : ∀ i j, i ≤ j → j < E.length → (E.act i).timeUs ≤ (E.act j).timeUs

end ProberRun

end TinyLink
