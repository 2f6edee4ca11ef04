import TinyLink.Library.Execution
import TinyLink.Warm

/-!
# The endpoint push

Embedding of `tinylink_stun_probe`, `tinylink_endpoint_push_async`, `ep_push_timer_cb`,
`ep_push_done` and the push of `long_poll_task`. Three contexts share plain flags without a lock; each
read and each write of a flag is one step, and the server and the timer may act at any time.
-/

namespace TinyLink

def epPushRetryMs : ℕ := 30000

def mapreqPushGoaway : ℤ := -1

structure PublicEndpoint where
  addr : Ipv4
  port : ℕ
deriving DecidableEq

inductive AsyncPc
  | idle
  | setPending
  | loadWaiting
  | loadOpen
  | abort
deriving DecidableEq

inductive TimerPc
  /-- fired: before `s_ep_push_waiting = false` -/
  | fired
  | async (pc : AsyncPc)
deriving DecidableEq

inductive PollPc
  /-- between streams -/
  | out
  /-- connected: the loads of `s_ep_push_pending` and `s_ep_push_waiting` -/
  | loadPending
  | loadWaiting
  /-- `push` is true: before `s_ep_push_pending = false` -/
  | clear
  /-- before `s_ep_push_resolved = false` -/
  | reset (push : Bool)
  /-- in `mapreq_run_stream`, before the body of the push is built -/
  | build
  /-- the stream runs; with a push, it is not answered -/
  | stream (push : Bool)
  /-- in `ep_push_done`, one point for each read and write of a flag -/
  | resolve (status : ℤ) (waitMs : ℕ)
  | clearRetried
  | setPending (status : ℤ) (waitMs : ℕ)
  | loadRetried (status : ℤ) (waitMs : ℕ)
  | setWaiting (ms : ℕ)
  | arm (ms : ℕ)
  | setRetried
  | clearWaiting
  /-- the stream goes on behind `ep_push_done` -/
  | answered
  /-- `mapreq_run_stream` returned: the load of `s_ep_push_resolved` -/
  | ended (push : Bool)
  | owe
  | drop
  /-- behind the stream: a re-register sets the flag too -/
  | reregister
deriving DecidableEq

structure PushWorld where
  pending : Bool
  waiting : Bool
  retried : Bool
  resolved : Bool
  timerMade : Bool
  armed : Bool
  connOpen : Bool
  abortReads : Bool
  pushes : ℕ
  result : Option PublicEndpoint
  probe : AsyncPc
  timer : TimerPc
  poll : PollPc
deriving DecidableEq

/-- Before the first stream. `tinylink_dataplane_start` may have set the flag for the boot's endpoint. -/
def PushWorld.Starts (s : PushWorld) : Prop :=
  ∃ pending timerMade connOpen result,
    s = ⟨pending, false, false, false, timerMade, false, connOpen, false, 0, result, .idle,
      .async .idle, .out⟩

def asyncStep (s : PushWorld) : AsyncPc → Option (PushWorld × AsyncPc)
  | .idle => none
  | .setPending => some ({ s with pending := true }, .loadWaiting)
  | .loadWaiting => some (s, if s.waiting then .idle else .loadOpen)
  | .loadOpen => some (s, if s.connOpen then .abort else .idle)
  | .abort => some ({ s with abortReads := true }, .idle)

inductive PollAction
  | connect (ok : Bool)
  | loadPending
  | loadWaiting
  | clear
  | reset
  /-- the body is built, for the burst with the stream or for the one-shot before it -/
  | build
  /-- `on_push` is called -/
  | answer (status : ℤ) (waitMs : ℕ)
  /-- a read or write of `ep_push_done` -/
  | done
  | arm (ok : Bool)
  | streamEnd
  | loadResolved
  | owe
  | drop
  | reregister (ok : Bool)
deriving DecidableEq

inductive PushAction
  /-- a valid answer of the STUN server -/
  | probe (found : PublicEndpoint)
  | probeAsync
  | fire
  | timerStep
  | poll (a : PollAction)
deriving DecidableEq

def retryAllowed (s : PushWorld) (status : ℤ) : Bool :=
  (status = 0 || status = 429 || status = 503) && !s.retried && s.timerMade

def pollStep (s : PushWorld) : PollAction → Option PushWorld
  | .connect ok =>
    match s.poll with
    | .out =>
      if ok || s.connOpen then
        some { s with
          connOpen := true
          abortReads := s.abortReads && s.connOpen
          poll := .loadPending }
      else some s
    | _ => none
  | .loadPending =>
    match s.poll with
    | .loadPending => some { s with poll := if s.pending then .loadWaiting else .reset false }
    | _ => none
  | .loadWaiting =>
    match s.poll with
    | .loadWaiting => some { s with poll := if s.waiting then .reset false else .clear }
    | _ => none
  | .clear =>
    match s.poll with
    | .clear => some { s with pending := false, poll := .reset true }
    | _ => none
  | .reset =>
    match s.poll with
    | .reset push =>
      some { s with resolved := false, poll := if push then .build else .stream false }
    | _ => none
  | .build =>
    match s.poll with
    | .build | .stream true => some { s with poll := .stream true }
    | _ => none
  | .answer status waitMs =>
    match s.poll with
    | .stream true => some { s with poll := .resolve status waitMs }
    | _ => none
  | .done =>
    match s.poll with
    | .resolve status waitMs =>
      some { s with
        resolved := true
        poll := if status = 200 then .clearRetried else .setPending status waitMs }
    | .clearRetried => some { s with pushes := s.pushes + 1, retried := false, poll := .answered }
    | .setPending status waitMs =>
      some { s with
        pending := true
        poll := if status = mapreqPushGoaway then .answered else .loadRetried status waitMs }
    | .loadRetried status waitMs =>
      some { s with
        poll := if retryAllowed s status then .setWaiting (max waitMs epPushRetryMs)
          else .answered }
    | .setWaiting ms => some { s with waiting := true, poll := .arm ms }
    | .setRetried => some { s with retried := true, poll := .answered }
    | .clearWaiting => some { s with waiting := false, poll := .answered }
    | _ => none
  | .arm ok =>
    match s.poll with
    | .arm _ =>
      if !ok then some { s with poll := .clearWaiting }
      else if s.armed then none
      else some { s with armed := true, poll := .setRetried }
    | _ => none
  | .streamEnd =>
    match s.poll with
    | .build | .answered => some { s with poll := .ended true }
    | .stream push => some { s with poll := .ended push }
    | _ => none
  | .loadResolved =>
    match s.poll with
    | .ended push => some { s with poll := if push && !s.resolved then .owe else .drop }
    | _ => none
  | .owe =>
    match s.poll with
    | .owe => some { s with pending := true, poll := .drop }
    | _ => none
  | .drop =>
    match s.poll with
    | .drop => some { s with connOpen := false, poll := .reregister }
    | _ => none
  | .reregister ok =>
    match s.poll with
    | .reregister => some { s with pending := s.pending || ok, poll := .out }
    | _ => none

def pushStep (s : PushWorld) : PushAction → Option PushWorld
  | .probe found =>
    match s.probe with
    | .idle =>
      if s.result = some found then some s
      else some { s with result := some found, probe := .setPending }
    | _ => none
  | .probeAsync => (asyncStep s s.probe).map fun (s', pc) => { s' with probe := pc }
  | .fire =>
    match s.timer with
    | .async .idle => if s.armed then some { s with armed := false, timer := .fired } else none
    | _ => none
  | .timerStep =>
    match s.timer with
    | .fired => some { s with waiting := false, timer := .async .setPending }
    | .async pc => (asyncStep s pc).map fun (s', pc) => { s' with timer := .async pc }
  | .poll a => pollStep s a

abbrev PushRun := StepSystem.Execution PushWorld.Starts pushStep

end TinyLink
