import TinyLink.Crypto
import TinyLink.Library.ByteOrder
import TinyLink.Library.Execution

/-!
# Handshake time stamps across boots

Embedding of `wg_tai64n_init` and `wg_tai64n_now` (`wg_proto.c`) and of
`tinylink_tai64n_floor_init` (`tinylink.c`), cut where a reset can separate RAM from NVS. The write of
`tai64n_persist_cb` is one step.
-/

namespace TinyLink
open StepSystem ByteOrder

def wgTai64nReserveChunkSecs : UInt64 := 86400

/-- `s_emitted_high`, `s_reservation`, and whether `s_persist_fn` is set. -/
structure Tai64nRam where
  emittedHigh : UInt64
  reservation : UInt64
  persists : Bool

def Tai64nRam.boot : Tai64nRam := ⟨0, 0, false⟩

def wgTai64nInit (persistedFloorSecs reservationSecs : UInt64) (persists : Bool) : Tai64nRam :=
  ⟨persistedFloorSecs, reservationSecs, persists⟩

/-- The clocks `wg_tai64n_now` reads: `time(NULL)`, and the two parts of `esp_timer`. -/
structure ClockReading where
  time : UInt64
  monotonicSeconds : UInt64
  monotonicNanos : UInt32

/-- The seconds to emit: wall clock or else uptime, and above everything emitted. -/
def tai64nSecs (ram : Tai64nRam) (clock : ClockReading) : UInt64 :=
  let secs := if clock.time = 0 then clock.monotonicSeconds else clock.time
  if secs ≤ ram.emittedHigh then ram.emittedHigh + 1 else secs

/-- The reservation to persist before `secs` is emitted, if there is one. -/
def tai64nExtend (ram : Tai64nRam) (secs : UInt64) : Option UInt64 :=
  if ram.persists && secs ≥ ram.reservation then some (secs + wgTai64nReserveChunkSecs) else none

def tai64nBytes (secs : UInt64) (nanos : UInt32) : Bytes :=
  let tai := secs + 0x4000000000000000
  beBytes 8 tai.toNat ++ beBytes 4 nanos.toNat

/-- The call of `wg_tai64n_now` in one piece: the bytes, RAM and NVS afterwards. -/
def wgTai64nNow (ram : Tai64nRam) (nvs : Option UInt64) (clock : ClockReading) (ok : Bool) :
    Bytes × Tai64nRam × Option UInt64 :=
  let secs := tai64nSecs ram clock
  let out := tai64nBytes secs clock.monotonicNanos
  match tai64nExtend ram secs with
  | none => (out, { ram with emittedHigh := secs }, nvs)
  | some newReservation =>
    if ok then (out, ⟨secs, newReservation, ram.persists⟩, some newReservation)
    else (out, { ram with emittedHigh := secs }, nvs)

/-- `tinylink_tai64n_floor_init` in one piece: RAM and NVS afterwards. A key that was never
written reads as 0. -/
def tinylinkTai64nFloorInit (nvs : Option UInt64) (readOk persistOk : Bool) :
    Tai64nRam × Option UInt64 :=
  if readOk then
    let persisted := nvs.getD 0
    let reservation := persisted + wgTai64nReserveChunkSecs
    if persistOk then (wgTai64nInit persisted reservation true, some reservation)
    else (wgTai64nInit persisted persisted false, nvs)
  else (wgTai64nInit 0 0 false, nvs)

/-- Where the boot is: in neither call, or inside one at a read, a write or a reservation. -/
inductive Tai64nPc where
  | idle
  | floorRead (persisted : UInt64)
  | floorReserved (persisted reservation : UInt64)
  | chosen (secs : UInt64) (nanos : UInt32)
  | reserved (secs : UInt64) (nanos : UInt32)

structure Tai64nState where
  nvs : Option UInt64
  ram : Tai64nRam
  pc : Tai64nPc

inductive Tai64nStep where
  | floorRead (ok : Bool)
  | floorPersist (ok : Bool)
  | floorInstall
  | choose (clock : ClockReading)
  | persist (ok : Bool)
  | emit
  | reset

def tai64nStep (σ : Tai64nState) (a : Tai64nStep) : Option Tai64nState :=
  match a, σ.pc with
  | .reset, _ => some { σ with ram := .boot, pc := .idle }
  | .floorRead ok, .idle =>
    if ok then some { σ with pc := .floorRead (σ.nvs.getD 0) }
    else some { σ with ram := wgTai64nInit 0 0 false }
  | .floorPersist ok, .floorRead persisted =>
    let reservation := persisted + wgTai64nReserveChunkSecs
    if ok then some { σ with nvs := some reservation, pc := .floorReserved persisted reservation }
    else some { σ with ram := wgTai64nInit persisted persisted false, pc := .idle }
  | .floorInstall, .floorReserved persisted reservation =>
    some { σ with ram := wgTai64nInit persisted reservation true, pc := .idle }
  | .choose clock, .idle =>
    some { σ with pc := .chosen (tai64nSecs σ.ram clock) clock.monotonicNanos }
  | .persist ok, .chosen secs nanos =>
    match tai64nExtend σ.ram secs with
    | none => some { σ with pc := .reserved secs nanos }
    | some newReservation =>
      if ok then
        some ⟨some newReservation, { σ.ram with reservation := newReservation }, .reserved secs nanos⟩
      else some { σ with pc := .reserved secs nanos }
  | .emit, .reserved secs _ => some { σ with ram := { σ.ram with emittedHigh := secs }, pc := .idle }
  | _, _ => none

def Tai64nState.new : Tai64nState := ⟨none, .boot, .idle⟩

abbrev Tai64nRun := Execution (· = Tai64nState.new) tai64nStep

def Tai64nStep.isCall : Tai64nStep → Bool
  | .floorRead _ => true
  | .choose _ => true
  | _ => false

/-- NVS accesses succeed and clocks read less than `2^62` seconds. -/
def Tai64nStep.Sane : Tai64nStep → Prop
  | .floorRead ok => ok = true
  | .floorPersist ok => ok = true
  | .persist ok => ok = true
  | .choose clock => clock.time.toNat < 2 ^ 62 ∧ clock.monotonicSeconds.toNat < 2 ^ 62
  | _ => True

namespace Tai64nRun

/-- Before step `k` the floor was installed in the boot that step `k` belongs to. -/
def Floored (E : Tai64nRun) (k : ℕ) : Prop :=
  ∃ j, j < k ∧ E.act j = .floorInstall ∧ ∀ i, j < i → i < k → E.act i ≠ .reset

/-- Every step is sane, and no time stamp is asked for before the boot's floor is installed. -/
def Sane (E : Tai64nRun) : Prop :=
  ∀ k, k < E.length → (E.act k).Sane ∧ ∀ clock, E.act k = .choose clock → E.Floored k

def Emits (E : Tai64nRun) (k : ℕ) (out : Bytes) : Prop :=
  k < E.length ∧ E.act k = .emit ∧ ∃ secs nanos, (E.state k).pc = .reserved secs nanos ∧
    out = tai64nBytes secs nanos

/-- The floor initialisations and time stamps asked for before step `k`. -/
def callsBefore (E : Tai64nRun) (k : ℕ) : ℕ := (List.range k).countP fun i => (E.act i).isCall

end Tai64nRun

end TinyLink
