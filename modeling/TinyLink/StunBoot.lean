import TinyLink.EndpointPush

/-!
# The boot STUN probe

Embedding of `stun_boot.h` and of its two sides, `stun_boot_run` on the probe's task and
`stun_boot_join` on the main task. A section under `s_stun_boot_mx` is one step. A probe that the main
task runs inline is one that ends before the join.
-/

namespace TinyLink

inductive StunBootState
  | idle
  | resolving
  | onSocket
  | done
  | abandoned
deriving DecidableEq

def stunBootClaim : StunBootState → Bool × StunBootState
  | .resolving => (true, .onSocket)
  | s => (false, s)

def stunBootMayRead (s : StunBootState) : Bool := s = .onSocket

def stunBootPublish : StunBootState → Bool × StunBootState
  | .onSocket => (true, .done)
  | s => (false, s)

def stunBootFinish : StunBootState → Bool × StunBootState
  | .abandoned => (false, .abandoned)
  | _ => (true, .done)

def stunBootGiveUp : StunBootState → Bool × StunBootState
  | .done => (true, .done)
  | _ => (false, .abandoned)

/-- The binary semaphore `done`. -/
inductive DoneSem
  | null
  | empty
  | given
  | deleted
deriving DecidableEq

inductive BootProbePc
  | none
  | pick
  | claim
  | exchange
  | finish
  /-- the signal, or the deletion of the semaphore -/
  | last (awaited : Bool)
  | ended
deriving DecidableEq

inductive BootJoinPc
  | before
  | wait
  | giveUp
  /-- in the take without a limit -/
  | take
  | delete
  /-- before `s_stun_result.valid` is read -/
  | check
  /-- returned: `wg_rx` may be spawned -/
  | after
deriving DecidableEq

structure BootWorld where
  boot : StunBootState := .idle
  probe : BootProbePc := .none
  main : BootJoinPc := .before
  done : DoneSem := .null
  result : Option PublicEndpoint := none
  reprobeNow : Bool := false
  /-- calls of `recvfrom` by the probe -/
  reads : ℕ := 0
  /-- an operation on a deleted semaphore -/
  misuse : Bool := false

inductive BootAction
  | start (created : Bool)
  /-- a step without a read; `ok` is the outcome of what it calls -/
  | probe (ok : Bool)
  /-- the socket is readable; `stun_match_v4` may take the datagram -/
  | read (answer : Option PublicEndpoint)
  | main (timeout : Bool)

def BootWorld.setDone (s : BootWorld) (sem : DoneSem) : BootWorld :=
  if s.done = .deleted then { s with misuse := true } else { s with done := sem }

def BootWorld.takeDone (s : BootWorld) : Option BootWorld :=
  if s.done = .given ∨ s.done = .deleted then some { s.setDone .empty with main := .delete }
  else none

/-- `main.c` calls it before the join. -/
def tinylinkStunProbeStart (s : BootWorld) (created : Bool) : Option BootWorld :=
  if s.main = .before ∧ s.boot = .idle then
    some (if created then { s with boot := .resolving, done := .empty, probe := .pick } else s)
  else none

def stunBootRun (s : BootWorld) (ok : Bool) : Option BootWorld :=
  match s.probe with
  | .pick => some { s with probe := if ok then .claim else .finish }
  | .claim =>
    let (mine, boot) := stunBootClaim s.boot
    some { s with boot, probe := if mine then .exchange else .finish }
  -- nothing to read in this slice, or the deadline or an error
  | .exchange => some (if ok then s else { s with probe := .finish })
  | .finish =>
    let (awaited, boot) := stunBootFinish s.boot
    some { s with boot, probe := .last awaited }
  | .last awaited => some { s.setDone (if awaited then .given else .deleted) with probe := .ended }
  | .none | .ended => none

/-- The critical section of `stun_boot_exchange`. -/
def stunBootRead (s : BootWorld) (answer : Option PublicEndpoint) : Option BootWorld :=
  if s.probe ≠ .exchange then none
  else if stunBootMayRead s.boot then
    match answer, stunBootPublish s.boot with
    | some r, (true, boot) =>
      some { s with reads := s.reads + 1, boot, result := some r, probe := .finish }
    | _, _ => some { s with reads := s.reads + 1 }
  else some { s with probe := .finish }

def stunBootJoin (s : BootWorld) (timeout : Bool) : Option BootWorld :=
  match s.main with
  | .before => some { s with main := if s.done = .null then .check else .wait }
  | .wait => if timeout then some { s with main := .giveUp } else s.takeDone
  | .giveUp =>
    let (finished, boot) := stunBootGiveUp s.boot
    some { s with boot, main := if finished then .take else .check }
  | .take => s.takeDone
  | .delete => some { s.setDone .deleted with main := .check }
  | .check => some { s with reprobeNow := s.reprobeNow || s.result.isNone, main := .after }
  | .after => none

def bootStep (s : BootWorld) : BootAction → Option BootWorld
  | .start created => tinylinkStunProbeStart s created
  | .probe ok => stunBootRun s ok
  | .read answer => stunBootRead s answer
  | .main timeout => stunBootJoin s timeout

abbrev BootRun := StepSystem.Execution (· = ({} : BootWorld)) bootStep

end TinyLink
