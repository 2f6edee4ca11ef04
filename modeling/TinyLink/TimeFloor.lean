import TinyLink.Crypto
import TinyLink.Library.Execution

/-!
# The persisted time floor

Embedding of `s_floor`, `s_last_sync_s` and `s_persist_pending` (`tl_time.c`). Each access of the SNTP
callback and of the housekeeping poll to them is a step, and a reboot may come between any two. A
write of NVS that fails leaves the stored value.
-/

namespace TinyLink

def persistMinIntervalS : UInt64 := 86400

inductive SyncPc where
  | idle
  | stored
  | due
deriving DecidableEq

inductive PersistPc where
  | idle
  | due
  | claimed
  | saving (v : UInt64)
  | saved (v : UInt64)
  | failed (v : UInt64)
deriving DecidableEq

structure TimeState where
  nvs : Option UInt64
  floor : UInt64
  lastSyncS : UInt64
  persistPending : Bool
  sync : SyncPc
  poll : PersistPc
deriving DecidableEq

/-- `tl_time_init`; `persisted` is what `load_floor` gave. -/
def tlTimeInit (build : UInt64) (persisted : Option UInt64) : UInt64 :=
  match persisted with
  | some v => if v > build then v else build
  | none => build

def TimeState.boot (nvs : Option UInt64) (build : UInt64) (readOk : Bool) : TimeState :=
  ⟨nvs, tlTimeInit build (if readOk then nvs else none), 0, false, .idle, .idle⟩

inductive TimeAction where
  | syncStore (tvSec : UInt64)
  | syncTest
  | syncMark
  | pollTest
  | pollClear
  | pollRead
  | pollSave (ok : Bool)
  | pollEnd
  | reboot (build : UInt64) (readOk : Bool)
deriving DecidableEq

def timeStep (s : TimeState) : TimeAction → Option TimeState
  | .syncStore tvSec =>
    if s.sync = .idle then some { s with lastSyncS := tvSec, sync := .stored } else none
  | .syncTest =>
    if s.sync = .stored then
      some { s with sync := if s.lastSyncS ≥ s.floor + persistMinIntervalS then .due else .idle }
    else none
  | .syncMark =>
    if s.sync = .due then some { s with persistPending := true, sync := .idle } else none
  | .pollTest =>
    if s.poll = .idle then some { s with poll := if s.persistPending then .due else .idle } else none
  | .pollClear =>
    if s.poll = .due then some { s with persistPending := false, poll := .claimed } else none
  | .pollRead => if s.poll = .claimed then some { s with poll := .saving s.lastSyncS } else none
  | .pollSave ok =>
    match s.poll with
    | .saving v =>
      some (if ok then { s with nvs := some v, poll := .saved v } else { s with poll := .failed v })
    | _ => none
  | .pollEnd =>
    match s.poll with
    | .saved v => some { s with floor := v, poll := .idle }
    | .failed _ => some { s with persistPending := true, poll := .idle }
    | _ => none
  | .reboot build readOk => some (.boot s.nvs build readOk)

def TimeStart (s : TimeState) : Prop := ∃ nvs build, s = .boot nvs build true

abbrev TimeRun := StepSystem.Execution TimeStart timeStep

/-- The floor, or the time that a poll is writing. -/
def TimeState.mark (s : TimeState) : UInt64 :=
  match s.poll with
  | .saving v => v
  | .saved v => v
  | .failed v => v
  | _ => s.floor

def TimeState.quiet (s : TimeState) : Bool := !s.persistPending && s.poll = .idle

/-- A sync gives no time before the mark, unless nothing is to be written; a boot reads the stored
floor, unless it is not above its build time. -/
def TimeState.Orderly (s : TimeState) : TimeAction → Prop
  | .syncStore tvSec =>
    s.mark ≤ tvSec ∨ (s.quiet = true ∧ tvSec < s.floor + persistMinIntervalS)
  | .reboot build readOk => readOk = true ∨ ∀ v ∈ s.nvs, v ≤ build
  | _ => True

end TinyLink
