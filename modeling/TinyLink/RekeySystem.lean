import TinyLink.WgTx

/-!
# A rekey INIT and the frames it would kill

`wg_path_init_route` beside the keypair slots of the peer, a `wireguard-go` responder: an INIT it
consumes deletes `next` and `previous` and parks the new keypair as `next`, the first packet under
`next` promotes it, and it seals with `current`. Packets in either direction may be lost.
-/

namespace TinyLink
open StepSystem

def wgPathInitHoldUs : ℤ := 5000 * 1000

inductive WgInitRoute where
  | anyPath
  | derpBehindResend
deriving DecidableEq

def wgPathInitRoute (p : WgPath) (ring : WgRescueSum) (rekey relayUp : Bool) (now : ℤ)
    (curGen : UInt32) : WgPath × WgInitRoute :=
  if !rekey || !relayUp || !wgRescueInitRisk ring now (wgPathRescueFrom p) wgPathRescueMaxUs curGen
      (wgPathKeysConfirmed p) then
    ({ p with initHoldUs := 0 }, .anyPath)
  else
    let p := if p.initHoldUs = 0 then { p with initHoldUs := now } else p
    (p, if wgTimerDue now p.initHoldUs wgPathInitHoldUs then .anyPath else .derpBehindResend)

lemma wgPathInitRoute_path (p : WgPath) (ring : WgRescueSum) (rekey relayUp : Bool) (now : ℤ)
    (curGen : UInt32) : ∃ hold,
      (wgPathInitRoute p ring rekey relayUp now curGen).1 = { p with initHoldUs := hold } := by
  unfold wgPathInitRoute
  split
  · exact ⟨0, rfl⟩
  · by_cases h : p.initHoldUs = 0
    · exact ⟨now, by simp [h]⟩
    · exact ⟨p.initHoldUs, by simp [h]⟩

/-- The keypair of our generation `gen`, or one we do not hold. -/
inductive PeerKey where
  | ours (gen : UInt32)
  | other
deriving DecidableEq

structure PeerSlots where
  previous : Option PeerKey
  current : Option PeerKey
  next : Option PeerKey
deriving DecidableEq

namespace PeerSlots

def consumeInit (s : PeerSlots) : PeerSlots := { s with previous := none, next := some .other }

def answered (s : PeerSlots) (gen : UInt32) : PeerSlots := { s with next := some (.ours gen) }

def receive (s : PeerSlots) (gen : UInt32) : PeerSlots :=
  if s.next = some (.ours gen) then ⟨s.current, s.next, none⟩ else s

/-- An INIT consumed now, or after a packet under `next`, deletes generation `gen`. -/
def mayDelete (s : PeerSlots) (gen : UInt32) : Prop :=
  s.previous = some (.ours gen) ∨ s.next = some (.ours gen) ∨
    ∃ g, s.next = some (.ours g) ∧ s.current = some (.ours gen)

end PeerSlots

/-- `peerSealed` lists the generations the peer has sealed packets under, `resent` the re-sent
frames by generation and time; `lastUs` and `lastGen` belong to the frame kept last. -/
structure RekeyState where
  path : WgPath
  ring : WgRescueRing
  clock : ℕ
  gen : UInt32
  peer : PeerSlots
  peerSealed : List UInt32
  lastUs : ℕ
  lastGen : UInt32
  resent : List (UInt32 × ℕ)

/-- The generations a pass took out of the ring: pending before it, empty after. -/
def resentGens (r r' : WgRescueRing) (now fromUs maxAgeUs : ℤ) : List UInt32 :=
  (List.range wgRescueSlots).filterMap fun i =>
    if wgRescuePending (r.nth i) now fromUs maxAgeUs && (r'.nth i).atUs = 0 then some (r.nth i).gen
    else none

inductive RekeyEvent where
  | peerInit
  | handshake
  | peerReceives (gen : UInt32)
  | peerSeals
  | keepalive
  | payload
  | keep (buf : Bytes) (atUs : ℕ) (gen : UInt32)
  | resend (leftUs : ℕ) (accepts : ℕ → Bool)
  | route (rekey relayUp : Bool)
  | path (event : PathEvent)

/-- The events of the path that bring no WireGuard packet of the peer and start no session. -/
def PathEvent.isLocal : PathEvent → Bool
  | .init _ _ => false
  | .keepalive => false
  | .peerData => false
  | .handshake => false
  | _ => true

/-- We receive on our newest keypair only, and a frame is kept in the order of times and
generations. -/
def rekeyEvent (σ : RekeyState) (now : ℕ) : RekeyEvent → Option RekeyState
  | .peerInit => some { σ with peer := σ.peer.consumeInit }
  | .handshake =>
    if σ.peer.next = some .other && σ.gen + 1 ≠ 0 then
      some { σ with
        gen := σ.gen + 1
        peer := σ.peer.answered (σ.gen + 1)
        path := (wgPathOnHandshake σ.path now).1 }
    else none
  | .peerReceives gen => some { σ with peer := σ.peer.receive gen }
  | .peerSeals =>
    match σ.peer.current with
    | some (.ours gen) => some { σ with peerSealed := gen :: σ.peerSealed }
    | _ => none
  | .keepalive =>
    if σ.gen ∈ σ.peerSealed then some { σ with path := (wgPathOnKeepalive σ.path now).1 } else none
  | .payload =>
    if σ.gen ∈ σ.peerSealed then some { σ with path := (wgPathOnPeerData σ.path now).1 } else none
  | .keep buf atUs gen =>
    if σ.lastUs ≤ atUs && atUs ≤ now && atUs ≠ 0 && σ.lastGen ≤ gen && gen ≤ σ.gen then
      some { σ with ring := wgRescueKeep σ.ring buf atUs gen, lastUs := atUs, lastGen := gen }
    else none
  | .resend leftUs accepts =>
    if now ≤ leftUs then
      let fromUs := wgPathRescueFrom σ.path
      let f := wgRescueFlush σ.ring now fromUs wgPathRescueMaxUs accepts
      some { σ with
        ring := if f.sent.length > 0 then wgRescueSentBy f.ring now leftUs else f.ring
        resent := (resentGens σ.ring f.ring now fromUs wgPathRescueMaxUs).map (·, leftUs) ++ σ.resent
        clock := leftUs }
    else none
  | .route rekey relayUp =>
    some { σ with
      path := (wgPathInitRoute σ.path (wgRescueSummarize σ.ring) rekey relayUp now σ.gen).1 }
  | .path event =>
    if event.isLocal then some { σ with path := (pathEvent σ.path now event).1 } else none

structure RekeyStep where
  now : ℕ
  event : RekeyEvent

def rekeyStep (σ : RekeyState) (a : RekeyStep) : Option RekeyState :=
  if a.now < σ.clock then none
  else rekeyEvent { σ with clock := a.now } a.now a.event

/-- A session start: the peer holds no keypair of ours. -/
def RekeyState.Started (σ : RekeyState) : Prop := ∃ now managed gen peer,
  (∀ g, peer.previous ≠ some (.ours g) ∧ peer.current ≠ some (.ours g) ∧ peer.next ≠ some (.ours g)) ∧
    σ = ⟨wgPathInit (now : ℕ) managed, .empty, now, gen, peer, [], 0, 0, []⟩

/-- A frame of generation `gen` is still to be re-sent, or was re-sent a moment ago. -/
def RekeyState.Endangered (σ : RekeyState) (now : ℤ) (gen : UInt32) : Prop :=
  (∃ s ∈ σ.ring.oldestFirst, s.gen = gen ∧
      wgRescuePending s now (wgPathRescueFrom σ.path) wgPathRescueMaxUs = true) ∨
    ∃ t, (gen, t) ∈ σ.resent ∧ now ≤ t + wgRescueTransitUs

abbrev RekeyRun := Execution RekeyState.Started rekeyStep

namespace RekeyRun

def timeAt (E : RekeyRun) (k : ℕ) : ℤ := (E.act k).now

/-- What `wg_path_init_route` says to a rekey INIT at step `k` with the relay up. -/
def routeAt (E : RekeyRun) (k : ℕ) : WgInitRoute :=
  (wgPathInitRoute (E.state k).path (wgRescueSummarize (E.state k).ring) true true (E.timeAt k)
    (E.state k).gen).2

/-- Step `k` asks the way of a rekey INIT with the relay up, and the answer is `route`. -/
def Routes (E : RekeyRun) (k : ℕ) (route : WgInitRoute) : Prop :=
  k < E.length ∧ (E.act k).event = .route true true ∧ E.routeAt k = route

/-- `wg_rescue_init_risk` as step `k` finds it. -/
def riskAt (E : RekeyRun) (k : ℕ) : Bool :=
  wgRescueInitRisk (wgRescueSummarize (E.state k).ring) (E.timeAt k)
    (wgPathRescueFrom (E.state k).path) wgPathRescueMaxUs (E.state k).gen
    (wgPathKeysConfirmed (E.state k).path)

/-- Step `k` ends a hold: a handshake, a new start of the path, or an INIT that finds no risk or no
relay. -/
def EndsHold (E : RekeyRun) (k : ℕ) : Prop :=
  (E.act k).event = .handshake ∨
    ((E.act k).event = .path (.setManaged true) ∧ (E.state k).path.managed = false) ∨
    ∃ rekey relayUp, (E.act k).event = .route rekey relayUp ∧
      ¬ (rekey = true ∧ relayUp = true ∧ E.riskAt k = true)

/-- INITs have been held for the risk for longer than the hold lasts. -/
def HeldFor (E : RekeyRun) (k : ℕ) : Prop :=
  ∃ i, Since (fun j => E.Routes j .derpBehindResend) E.EndsHold k i ∧
    E.timeAt i + wgPathInitHoldUs < E.timeAt k

/-- At step `k` the peer has received a packet under our newest keypair, or there is none yet. -/
def NewestReceived (E : RekeyRun) (k : ℕ) : Prop :=
  (E.state k).peer.current = some (.ours (E.state k).gen) ∨
    ∀ j, j < k → (E.act j).event ≠ .handshake

end RekeyRun

end TinyLink
