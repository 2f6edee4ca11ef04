import TinyLink.WgTransport
import TinyLink.Library.Execution
import Mathlib.Order.Interval.Finset.Nat

/-!
# One session and the tasks that use it

The atomic steps that tasks take on `g.transport` in `wg_netif.c`. A ticket is a local variable of the
task that fills it, so the tickets are numbered by their owners; a number is free again once its ticket
was sealed, committed, scrubbed or failed to open.
-/

namespace TinyLink
open StepSystem

inductive RxPhase where
  | begun (t : WgRxTicket)
  | opened (t : WgRxTicket)

structure TransportSystem where
  nextGen : UInt32
  session : WgTransportSession
  tx : ℕ → Option WgTxTicket
  rx : ℕ → Option RxPhase

/-- `otherGen` is a session of another owner taking a generation: `s_next_gen` is
process-wide. -/
inductive TransportStep where
  | sessionInit (localIndex remoteIndex : UInt32) (sendKey recvKey : Key)
  | sessionScrub
  | otherGen
  | txReserve (id : ℕ)
  | txSeal (id : ℕ) (outSize : ObjSize) (plaintext : Buf)
  | rxBegin (id : ℕ) (wire : Bytes) (maxPlen : ℕ)
  | rxOpen (id : ℕ) (wire : Bytes)
  | rxCommit (id : ℕ)
  | ticketScrub (id : ℕ)

def setSlotAt {α : Type} (f : ℕ → Option α) (id : ℕ) (v : Option α) : ℕ → Option α :=
  fun j => if j = id then v else f j

def transportStep (aead : Aead) (σ : TransportSystem) : TransportStep → Option TransportSystem
  | .sessionInit localIndex remoteIndex sendKey recvKey =>
    let gen := newGen σ.nextGen
    some { σ with
      nextGen := gen
      session := wgTransportSessionInit gen localIndex remoteIndex sendKey recvKey }
  | .sessionScrub =>
    let gen := newGen σ.nextGen
    some { σ with nextGen := gen, session := wgTransportSessionScrub gen }
  | .otherGen => some { σ with nextGen := newGen σ.nextGen }
  | .txReserve id =>
    match σ.tx id with
    | some _ => none
    | none =>
      match wgTransportTxReserve σ.session with
      | none => some σ
      | some (t, s) => some { σ with session := s, tx := setSlotAt σ.tx id (some t) }
  | .txSeal id _ _ =>
    match σ.tx id with
    | none => none
    | some _ => some { σ with tx := setSlotAt σ.tx id none }
  | .rxBegin id wire maxPlen =>
    match σ.rx id with
    | some _ => none
    | none => some { σ with
        rx := setSlotAt σ.rx id ((wgTransportRxBegin σ.session wire maxPlen).map .begun) }
  | .rxOpen id wire =>
    match σ.rx id with
    | some (.begun t) => some { σ with
        rx := setSlotAt σ.rx id ((wgTransportRxOpen aead t wire).map fun _ => .opened t.wiped) }
    | _ => none
  | .rxCommit id =>
    match σ.rx id with
    | some (.opened t) => some { σ with
        session := (wgTransportRxCommit σ.session t).2
        rx := setSlotAt σ.rx id none }
    | _ => none
  | .ticketScrub id =>
    match σ.rx id with
    | some (.begun _) => some { σ with rx := setSlotAt σ.rx id none }
    | _ => none

/-- Boot: zeroed session, no ticket out, no generation taken. -/
def TransportSystem.boot : TransportSystem := ⟨0, .zero, fun _ => none, fun _ => none⟩

abbrev TransportRun (aead : Aead) := Execution (· = TransportSystem.boot) (transportStep aead)

def TransportStep.rekeys : TransportStep → Bool
  | .sessionInit .. => true
  | .sessionScrub => true
  | _ => false

def TransportStep.takesGen : TransportStep → Bool
  | .otherGen => true
  | a => a.rekeys

def TransportSystem.reserves (σ : TransportSystem) : TransportStep → Bool
  | .txReserve _ => (wgTransportTxReserve σ.session).isSome
  | _ => false

/-- The action is the `rx_commit` of ticket `id`, which holds `t`, and it returns `0`. -/
def CommitAccepts (σ : TransportSystem) (a : TransportStep) (id : ℕ) (t : WgRxTicket) : Prop :=
  a = .rxCommit id ∧ σ.rx id = some (.opened t) ∧ (wgTransportRxCommit σ.session t).1 = 0

namespace TransportRun

variable {aead : Aead}

/-- `s_next_gen` does not wrap around in this run. -/
def GenNoWrap (E : TransportRun aead) : Prop :=
  ∀ k, k < E.length → (E.act k).takesGen = true → (E.state k).nextGen.toNat + 1 < 2 ^ 32

/-- No `session_init` or `session_scrub` between the steps `i` and `j`. -/
def SameKeys (E : TransportRun aead) (i j : ℕ) : Prop :=
  ∀ k, i < k → k < j → (E.act k).rekeys = false

/-- Step `i` is the `rx_begin` that fills ticket `id` with `t`. -/
def RxBegins (E : TransportRun aead) (i id : ℕ) (t : WgRxTicket) : Prop :=
  i < E.length ∧ ∃ wire maxPlen, E.act i = .rxBegin id wire maxPlen ∧
    wgTransportRxBegin (E.state i).session wire maxPlen = some t

/-- Ticket `id` was filled with `t` by the `rx_begin` at step `i` and not refilled before `k`. -/
def FilledAt (E : TransportRun aead) (i k id : ℕ) (t : WgRxTicket) : Prop :=
  i < k ∧ RxBegins E i id t ∧
    ∀ l, i < l → l < k → ∀ wire maxPlen, E.act l ≠ .rxBegin id wire maxPlen

/-- Step `i` is an `rx_open` of ticket `id`, filled with `t`, whose tag verifies. -/
def RxOpens (E : TransportRun aead) (i id : ℕ) (t : WgRxTicket) : Prop :=
  i < E.length ∧ ∃ wire plaintext, E.act i = .rxOpen id wire ∧
    (E.state i).rx id = some (.begun t) ∧ wgTransportRxOpen aead t wire = some plaintext

/-- Step `i` is an `rx_commit` of ticket `id` that returns `0`. -/
def RxAccepts (E : TransportRun aead) (i id : ℕ) (counter : UInt64) : Prop :=
  i < E.length ∧ ∃ t, CommitAccepts (E.state i) (E.act i) id t ∧ t.counter = counter

/-- Step `i` is a successful `tx_reserve` that fills ticket `id` with `t`. -/
def TxReserves (E : TransportRun aead) (i id : ℕ) (t : WgTxTicket) : Prop :=
  i < E.length ∧ E.act i = .txReserve id ∧
    ∃ s, wgTransportTxReserve (E.state i).session = some (t, s)

/-- How many reservations succeed strictly between the steps `i` and `j`. -/
def reservedBetween (E : TransportRun aead) (i j : ℕ) : ℕ :=
  ((Finset.Ioo i j).filter fun k => (E.state k).reserves (E.act k) = true).card

/-- No `session_init` at the steps from `i` up to `j`. -/
def NoInit (E : TransportRun aead) (i j : ℕ) : Prop :=
  ∀ k, i ≤ k → k < j → ∀ li ri sk rk, E.act k ≠ .sessionInit li ri sk rk

end TransportRun

end TinyLink
