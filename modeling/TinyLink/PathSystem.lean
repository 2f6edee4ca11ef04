import TinyLink.Library.Execution
import TinyLink.WgPath

/-!
# Runs of the path selection

The path of one peer under every order of events, with the endpoint its caller keeps
(`g.peer_addr` in `wg_netif.c`): a pong moves it as `rx_pong` does, and every other move comes
with `wg_path_on_endpoint_change`. Times do not decrease.
-/

namespace TinyLink
open StepSystem

inductive PathEvent where
  | init (managed : Bool) (endpoint : Endpoint)
  | setManaged (managed : Bool)
  | send (data : Bool)
  | tick
  | keepalive
  | peerData
  | handshake
  | endpointChange (endpoint : Endpoint)
  | pong (args : PongArgs)

def PathEvent.isWgPacket : PathEvent → Bool
  | .keepalive => true
  | .peerData => true
  | .handshake => true
  | _ => false

/-- The event can ask for actions: it belongs to the session, and a pong brings room for them. -/
def PathEvent.asks : PathEvent → Bool
  | .init _ _ => false
  | .setManaged _ => false
  | .pong args => args.hasAct
  | _ => true

def PathEvent.isTick : PathEvent → Bool
  | .tick => true
  | _ => false

structure PathStep where
  now : ℕ
  event : PathEvent

structure PathState where
  path : WgPath
  endpoint : Endpoint
  clock : ℕ

/-- The path after an event, and the actions it asks for. -/
def pathEvent (p : WgPath) (now : ℤ) : PathEvent → WgPath × WgPathAct
  | .init managed _ => (wgPathInit now managed, .none)
  | .setManaged managed => (wgPathSetManaged p now managed, .none)
  | .send data => ((wgPathOnSend p now data).1, (wgPathOnSend p now data).2.1)
  | .tick => wgPathTick p now
  | .keepalive => wgPathOnKeepalive p now
  | .peerData => wgPathOnPeerData p now
  | .handshake => wgPathOnHandshake p now
  | .endpointChange _ => wgPathOnEndpointChange p now
  | .pong args => ((wgPathOnPong p now args).1, (wgPathOnPong p now args).2.2)

/-- `rx_pong`: the endpoint after a pong. -/
def pongEndpoint (p : WgPath) (now : ℤ) (args : PongArgs) (endpoint : Endpoint) : Endpoint :=
  match (wgPathOnPong p now args).2.1 with
  | .roam => args.src
  | .roamCand => (wgPathOnPong p now args).1.cand.addr
  | _ => endpoint

def nextEndpoint (σ : PathState) (now : ℤ) : PathEvent → Endpoint
  | .init _ endpoint => endpoint
  | .endpointChange endpoint => endpoint
  | .pong args => pongEndpoint σ.path now args σ.endpoint
  | _ => σ.endpoint

/-- Time does not go back, and `from_current` is said of the current endpoint only. -/
def PathState.admits (σ : PathState) (a : PathStep) : Bool :=
  σ.clock ≤ a.now &&
    match a.event with
    | .pong args => !args.fromCurrent || args.src = σ.endpoint
    | _ => true

def pathStep (σ : PathState) (a : PathStep) : Option PathState :=
  if σ.admits a then some ⟨(pathEvent σ.path a.now a.event).1, nextEndpoint σ a.now a.event, a.now⟩
  else none

def PathState.Started (σ : PathState) : Prop := ∃ now managed endpoint,
  σ = ⟨wgPathInit (now : ℕ) managed, endpoint, now⟩

abbrev PathRun := Execution PathState.Started pathStep

/-- The wait before the re-probe that follows `n` others of its stay, in ms. -/
def retestWaitMs (doubts : ℕ) : ℕ → ℕ
  | 0 => if doubts ≤ 1 then 10000 else if doubts = 2 then 20000 else if doubts = 3 then 40000 else 60000
  | n + 1 => min (2 * retestWaitMs doubts n) 60000

namespace PathRun

def pathAt (E : PathRun) (k : ℕ) : WgPath := (E.state k).path

def timeAt (E : PathRun) (k : ℕ) : ℤ := (E.act k).now

def actAt (E : PathRun) (k : ℕ) : WgPathAct :=
  (pathEvent (E.pathAt k) (E.timeAt k) (E.act k).event).2

/-- Step `k` starts a session or makes the path managed. -/
def StartsOver (E : PathRun) (k : ℕ) : Prop :=
  (∃ managed endpoint, (E.act k).event = .init managed endpoint) ∨
    ((E.act k).event = .setManaged true ∧ (E.pathAt k).managed = false)

/-- Step `k` moves the endpoint to an address no pong has proven. -/
def ChangesEndpoint (E : PathRun) (k : ℕ) : Prop := ∃ endpoint, (E.act k).event = .endpointChange endpoint

def PongAt (E : PathRun) (endpoint : Endpoint) (k : ℕ) : Prop :=
  ∃ args, (E.act k).event = .pong args ∧ args.src = endpoint

/-- Before state `k` a pong from `endpoint` was processed, and nothing since started over or
changed the endpoint. -/
def PongFrom (E : PathRun) (k : ℕ) (endpoint : Endpoint) : Prop :=
  ∃ i, Since (E.PongAt endpoint) (fun j => E.StartsOver j ∨ E.ChangesEndpoint j) k i

def SendsDirect (E : PathRun) (k : ℕ) : Prop :=
  k < E.length ∧ (E.act k).event = .send true ∧
    (wgPathOnSend (E.pathAt k) (E.timeAt k) true).2.2 = .direct

/-- Before state `k` a data frame went direct only at time `t`. -/
def FrameAt (E : PathRun) (k : ℕ) (t : ℤ) : Prop := ∃ i, i < k ∧ E.SendsDirect i ∧ E.timeAt i = t

/-- Step `k` is the first payload of the peer after a handshake, and in its window. -/
def FirstPayload (E : PathRun) (k : ℕ) : Prop :=
  (E.act k).event = .peerData ∧ ∃ h, h < k ∧ (E.act h).event = .handshake ∧
    E.timeAt k ≤ E.timeAt h + wgPathAnswerUs ∧ ∀ j, h < j → j < k → (E.act j).event ≠ .peerData

/-- No frame goes direct only at time 0, which stands for no frame, and no payload restarts the
window when another one already followed its handshake. -/
def WindowInOrder (E : PathRun) (k : ℕ) : Prop :=
  (E.SendsDirect k → E.timeAt k ≠ 0) ∧
    ((E.act k).event = .peerData → (E.pathAt k).mode = .direct → (E.pathAt k).graceUsed = false →
      ∀ h, h < k → (E.act h).event = .handshake → E.timeAt k ≤ E.timeAt h + wgPathAnswerUs →
        (∀ j, h < j → j < k → (E.act j).event ≠ .handshake) →
        ∀ j, h < j → j < k → (E.act j).event ≠ .peerData)

/-- Between steps `i` and `j` something restarted the answer window. -/
def AnsweredBetween (E : PathRun) (i j : ℕ) : Prop :=
  (∃ k, i < k ∧ k < j ∧
      ((E.act k).event = .keepalive ∨ (E.act k).event = .handshake ∨ E.FirstPayload k)) ∨
    ∃ k, i < k ∧ k ≤ j ∧ (E.pathAt k).mode ≠ .direct

/-- A WireGuard packet of the peer came at `t` or later, in the session of state `k`. -/
def HeardSince (E : PathRun) (k : ℕ) (t : ℤ) : Prop :=
  ∃ i, Since (fun j => (E.act j).event.isWgPacket = true) E.StartsOver k i ∧ t ≤ E.timeAt i

def EntersDoubt (E : PathRun) (k : ℕ) : Prop :=
  (E.pathAt k).inDoubt = false ∧ (E.pathAt (k + 1)).inDoubt = true

/-- Step `k` is a keepalive that proves the direct path. -/
def ProvesDirect (E : PathRun) (k : ℕ) : Prop :=
  (E.act k).event = .keepalive ∧ (E.pathAt k).mode = .direct ∧
    wgPathProvesDirect (E.pathAt k) (E.timeAt k) = true

/-- Step `i` put the path in doubt, and no keepalive has proved the direct path since. -/
def DoubtSince (E : PathRun) (k i : ℕ) : Prop :=
  Since E.EntersDoubt (fun j => E.ProvesDirect j ∨ E.StartsOver j) k i

/-- Fewer than two doubts since the last keepalive that proved the direct path. -/
def FewDoubts (E : PathRun) (k : ℕ) : Prop := ¬ ∃ i j, i < j ∧ E.DoubtSince k i ∧ E.DoubtSince k j

/-- The exits from a pending lapse that ask for no re-send. -/
def QuietExit (E : PathRun) (k : ℕ) : Prop :=
  (∃ args, (E.act k).event = .pong args ∧ args.fromCurrent = true ∧
      ((E.pathAt k).why = .idle ∨
        ((E.pathAt k).why = .answer ∧ E.HeardSince k (E.pathAt k).lapseFromUs))) ∨
    ((E.act k).event.isWgPacket = true ∧ (E.pathAt k).why = .doubt ∧ E.FewDoubts k)

/-- Step `k` is a transport packet of the peer: a keepalive or a payload. -/
def TransportAt (E : PathRun) (k : ℕ) : Prop :=
  (E.act k).event = .keepalive ∨ (E.act k).event = .peerData

def EntersRelay (E : PathRun) (k : ℕ) (why : WgPathWhy) : Prop :=
  k < E.length ∧ (E.pathAt k).mode ≠ .relay ∧ (E.pathAt (k + 1)).mode = .relay ∧
    (E.pathAt (k + 1)).why = why

def FailsTest (E : PathRun) (k : ℕ) : Prop := E.EntersRelay k .silent ∨ E.EntersRelay k .undelivered

/-- State `x` belongs to the stay in RELAY that step `e` began. -/
def InStay (E : PathRun) (e x : ℕ) : Prop :=
  e < x ∧ x ≤ E.length ∧ ∀ y, e < y → y ≤ x → (E.pathAt y).mode = .relay

/-- Step `k` is a tick that issues a re-probe. -/
def reprobes (E : PathRun) (k : ℕ) : Bool :=
  (E.act k).event.isTick && (E.pathAt k).mode = .relay && (E.actAt k).probe

/-- The re-probes after step `e` and before state `x`. -/
def reprobesIn (E : PathRun) (e x : ℕ) : ℕ :=
  (List.range x).countP fun k => e < k && E.reprobes k

/-- Step `b` is the last one before `x` that set the re-probe timer of the stay: the entry `e`, or
a re-probe. -/
def SetsTimer (E : PathRun) (e x b : ℕ) : Prop :=
  e ≤ b ∧ b < x ∧ (b = e ∨ E.reprobes b = true) ∧ ∀ k, b < k → k < x → E.reprobes k = false

/-- State `x` is within the round of a re-probe of the stay that step `e` began. -/
def InRetest (E : PathRun) (e x : ℕ) : Prop :=
  ∃ r, e < r ∧ r < x ∧ E.reprobes r = true ∧ E.timeAt x ≤ E.timeAt r + wgPathPingTimeoutUs

def SendsData (E : PathRun) (k : ℕ) : Prop := k < E.length ∧ (E.act k).event = .send true

/-- Times increase at every step. -/
def Strict (E : PathRun) : Prop := ∀ k, k + 1 < E.length → E.timeAt k < E.timeAt (k + 1)

end PathRun

end TinyLink
