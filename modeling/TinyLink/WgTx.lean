import TinyLink.PathSystem
import TinyLink.WgRescue

/-!
# The sending task

Embedding of `tx_send_item`, `tx_rescue` and `queue_rescue` (`wg_netif.c`) with the events that change
the path around them. `tx_send_item` is cut where it gives back the lock. The log of what the relay
took says by which code a frame came to it.
-/

namespace TinyLink
open StepSystem

def wgPathRescueMaxUs : ℤ := 180000 * 1000

/-- A filled TX slot; `relayOnly` is the DERP copy of a handshake INIT. -/
structure WgTxItem where
  buf : Bytes
  gen : UInt32
  relayOnly : Bool
  data : Bool
  rescue : Bool

/-- How a frame came to the relay: the path selection said so, the socket refused it, or a
re-send. -/
inductive RelayRoute where
  | routed
  | fallback
  | rescue
deriving DecidableEq

/-- A data frame the relay took: when the sending task took it up, and when the relay did. -/
structure HandOff where
  route : RelayRoute
  takenUs : ℕ
  handedUs : ℕ

/-- An item between the two halves of `tx_send_item`. -/
structure TxSending where
  item : WgTxItem
  mode : WgPathMode
  takenUs : ℕ

/-- The log of hand-offs and the times at which a re-send was asked for are kept for the statements
only. -/
structure TxState where
  path : WgPath
  clock : ℕ
  hasRelay : Bool
  ring : WgRescueRing
  rescueQueued : Bool
  rescueOwed : Bool
  sending : Option TxSending
  handed : List HandOff
  orders : List ℕ

def queueRescue (σ : TxState) (now : ℕ) (act : WgPathAct) : TxState :=
  if act.rescue then
    { σ with rescueQueued := σ.rescueQueued || σ.hasRelay, orders := now :: σ.orders }
  else σ

/-- `tx_send_item` up to the lock it gives back. -/
def txTake (σ : TxState) (now : ℕ) (it : WgTxItem) : TxState :=
  if it.relayOnly then σ
  else
    let r := wgPathOnSend σ.path now it.data
    { σ with
      path := r.1
      sending := some ⟨it, if σ.hasRelay then r.2.2 else .direct, now⟩ }

def logHandOff (σ : TxState) (now : ℕ) (s : TxSending) (route : RelayRoute) : TxState :=
  if s.item.data then { σ with handed := ⟨route, s.takenUs, now⟩ :: σ.handed } else σ

/-- `rescue_keep`, stamped with the time the item was taken up. -/
def rescueKeep (σ : TxState) (s : TxSending) : TxState :=
  { σ with ring := wgRescueKeep σ.ring s.item.buf s.takenUs s.item.gen }

/-- The rest of `tx_send_item`; it calls the relay at most once. -/
def txFinish (σ : TxState) (now : ℕ) (s : TxSending) (sendtoOk relayOk : Bool) : TxState :=
  let σ := { σ with sending := none }
  match s.mode with
  | .relay =>
    if relayOk then logHandOff σ now s .routed
    else if sendtoOk && s.item.rescue && σ.hasRelay then rescueKeep σ s
    else σ
  | .dual =>
    if relayOk then logHandOff σ now s .routed
    else if sendtoOk && s.item.rescue then rescueKeep σ s
    else σ
  | .direct =>
    if sendtoOk then
      if s.item.rescue && σ.hasRelay then rescueKeep σ s else σ
    else if σ.hasRelay && relayOk then logHandOff σ now s .fallback
    else σ

/-- `tx_rescue`; `leftUs` is the time its last frame left. -/
def txRescue (σ : TxState) (now leftUs : ℕ) (accepts : ℕ → Bool) : TxState :=
  let σ := { σ with rescueQueued := false }
  if !σ.hasRelay then σ
  else
    let f := wgRescueFlush σ.ring now (wgPathRescueFrom σ.path) wgPathRescueMaxUs accepts
    { σ with
      ring := if f.sent.length > 0 then wgRescueSentBy f.ring now leftUs else f.ring
      rescueOwed := f.left > 0
      handed := f.sent.map (fun _ => ⟨.rescue, now, leftUs⟩) ++ σ.handed }

/-- The events of the other tasks: the peer's packets and pongs, the timer pass, and moves of the
endpoint. -/
def PathEvent.isAround : PathEvent → Bool
  | .init _ _ => false
  | .setManaged _ => false
  | .send _ => false
  | _ => true

inductive TxEvent where
  | take (item : WgTxItem)
  | finish (sendtoOk relayOk : Bool)
  | rescue (leftUs : ℕ) (accepts : ℕ → Bool)
  | login
  | initBehindResend
  | path (event : PathEvent)

structure TxStep where
  now : ℕ
  event : TxEvent

/-- `login` is the kick at a DERP login, `initBehindResend` an INIT that waits for a re-send: both
queue one without asking the path selection. -/
def txEvent (σ : TxState) (now : ℕ) : TxEvent → Option TxState
  | .take item => if σ.sending.isNone then some (txTake σ now item) else none
  | .finish sendtoOk relayOk => σ.sending.map (txFinish σ now · sendtoOk relayOk)
  | .rescue leftUs accepts =>
    if σ.sending.isNone && σ.rescueQueued && now ≤ leftUs then some (txRescue σ now leftUs accepts)
    else none
  | .login =>
    some { σ with rescueQueued := σ.rescueQueued || (σ.rescueOwed && σ.hasRelay) }
  | .initBehindResend => some { σ with rescueQueued := σ.rescueQueued || σ.hasRelay }
  | .path event =>
    if event.isAround then
      let r := pathEvent σ.path now event
      some (queueRescue { σ with path := r.1 } now r.2)
    else none

def txStep (σ : TxState) (a : TxStep) : Option TxState :=
  if a.now < σ.clock then none
  else (txEvent σ a.now a.event).map fun τ => { τ with clock := a.now }

def TxState.Started (σ : TxState) : Prop := ∃ now managed hasRelay,
  σ = ⟨wgPathInit (now : ℕ) managed, now, hasRelay, .empty, false, false, none, [], []⟩

abbrev TxRun := Execution TxState.Started txStep

namespace TxRun

def pathAt (E : TxRun) (k : ℕ) : WgPath := (E.state k).path

def timeAt (E : TxRun) (k : ℕ) : ℤ := (E.act k).now

def Keepalive (E : TxRun) (k : ℕ) : Prop := k < E.length ∧ (E.act k).event = .path .keepalive

/-- Step `k` renews the proof, clears the doubts or moves what is known to be delivered. -/
def Proves (E : TxRun) (k : ℕ) : Prop :=
  (E.pathAt (k + 1)).proofUs ≠ (E.pathAt k).proofUs ∨
    (E.pathAt (k + 1)).doubts ≠ (E.pathAt k).doubts ∨
    (E.pathAt (k + 1)).deliveredUs ≠ (E.pathAt k).deliveredUs

end TxRun

end TinyLink
