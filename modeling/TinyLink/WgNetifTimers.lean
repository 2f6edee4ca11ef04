import TinyLink.RekeySystem

/-!
# The timers of the receive task

Embedding of the timer blocks of `rx_task` (`wg_netif.c`), of `rx_next_deadline_us`, and of what the
other tasks do to the fields both read. What a pass learns from its calls is its environment. A direct
send that fails with `ENETUNREACH` is an event of its own, outside a pass.
-/

namespace TinyLink
open StepSystem

def wgRekeyTimeoutUs : ℤ := 5000 * 1000
def wgFirstRetryUs : ℤ := 2000 * 1000
def wgHandshakeBackoffUs : ℤ := 30000 * 1000
def wgRekeyAfterUs : ℤ := 110000 * 1000
def wgRxStaleThresholdUs : ℤ := 30000 * 1000
def wgPathProbeCooldownUs : ℤ := 10000 * 1000
def wgPersistentKeepaliveUs : ℤ := 25000 * 1000
def wgInitFreshAfterUs : ℤ := 2500 * 1000
def wgHandshakeMaxRetries : ℕ := 12

inductive WgNetifState where
  | idle
  | handshakePending
  | up
deriving DecidableEq

structure WgNetif where
  state : WgNetifState
  rekeyInFlight : Bool
  handshakeAttempt : ℕ
  rekeyAttempt : ℕ
  lastHandshakeUs : ℤ
  lastHandshakeCompletedUs : ℤ
  lastTransportRecvUs : ℤ
  lastPathProbeUs : ℤ
  lastTxUs : ℤ
  pathStaleCb : Bool
  path : WgPath

inductive RxBlock where
  | handshakeRetry
  | proactiveRekey
  | pathProbe
  | rxStale
  | rekeyRetry
  | pathTick
  | keepalive
deriving DecidableEq

/-- How building an INIT goes: when, whether it could be built, and what `wg_path_init_route` is
asked with. -/
structure InitEnv where
  us : ℤ
  built : Bool
  relayUp : Bool
  ring : WgRescueSum
  gen : UInt32

structure RxEnv where
  init : RxBlock → InitEnv
  tickUs : ℤ
  txOk : Bool
  txUs : ℤ

/-- `build_and_send_init`: the attempt is stamped even if the INIT cannot be built. -/
def buildAndSendInit (g : WgNetif) (e : InitEnv) : WgNetif :=
  { g with
    lastHandshakeUs := e.us
    path := if e.built then
        (wgPathInitRoute g.path e.ring (g.state = .up) e.relayUp e.us e.gen).1
      else g.path }

def kickOffHandshake (g : WgNetif) (e : InitEnv) : WgNetif :=
  let g := buildAndSendInit { g with state := .handshakePending } e
  { g with handshakeAttempt := g.handshakeAttempt + 1 }

def startRekey (g : WgNetif) (e : InitEnv) : WgNetif :=
  let g := buildAndSendInit g e
  { g with rekeyAttempt := g.rekeyAttempt + 1, rekeyInFlight := true }

def handshakeRetryUs (g : WgNetif) : ℤ :=
  if g.state = .handshakePending ∧ g.handshakeAttempt = 1 then wgFirstRetryUs else wgRekeyTimeoutUs

/-- `RX_DEADLINE`: the earlier of the two. -/
def earlier (d t : WithTop ℤ) : WithTop ℤ := if t < d then t else d

/-- The instant the next timer block acts; `⊤` is `INT64_MAX`. -/
def rxNextDeadlineUs (g : WgNetif) : WithTop ℤ :=
  let d := if g.state = .handshakePending ∨ g.rekeyInFlight then
      earlier ⊤ (wgTimerAt g.lastHandshakeUs (handshakeRetryUs g))
    else ⊤
  let d := if g.state = .up ∧ ¬ g.rekeyInFlight ∧ 0 < g.lastHandshakeCompletedUs then
      earlier d (wgTimerAt g.lastHandshakeCompletedUs wgRekeyAfterUs)
    else d
  let d := if g.state = .up ∧ ¬ g.rekeyInFlight ∧ 0 < g.lastTransportRecvUs then
      earlier d (wgTimerAt g.lastTransportRecvUs wgRxStaleThresholdUs)
    else d
  let d := if (g.state = .up ∨ g.state = .handshakePending) ∧ g.pathStaleCb ∧
      0 < g.lastTransportRecvUs then
      let stale := wgTimerAt g.lastTransportRecvUs wgRxStaleThresholdUs
      let cool := wgTimerAt g.lastPathProbeUs wgPathProbeCooldownUs
      earlier d (if stale > cool then stale else cool : ℤ)
    else d
  let d := if g.state = .up ∧ 0 < g.lastTxUs then
      earlier d (wgTimerAt g.lastTxUs wgPersistentKeepaliveUs)
    else d
  earlier d (wgPathNextDeadline g.path)

inductive WgRekeyGate where
  | go
  | noSession
  | inFlight
  | tooSoon
deriving DecidableEq

def wgPathRekeyGate (up inFlight : Bool) (now lastInitUs : ℤ) : WgRekeyGate :=
  if !up then .noSession
  else if inFlight then .inFlight
  else if !wgTimerDue now lastInitUs wgRekeyTimeoutUs then .tooSoon
  else .go

def rxPathTick (g : WgNetif) (now : ℤ) (e : InitEnv) : WgNetif :=
  let r := wgPathTick g.path now
  let g := { g with
    path := r.1
    lastPathProbeUs := if r.2.probe then now else g.lastPathProbeUs }
  if (r.2.rekey || r.2.test) &&
      wgPathRekeyGate (g.state = .up) g.rekeyInFlight now g.lastHandshakeUs = .go then
    startRekey { g with rekeyAttempt := 0 } e
  else g

def rxBlockDue (g : WgNetif) (now tickUs : ℤ) : RxBlock → Bool
  | .handshakeRetry =>
    g.state = .handshakePending && wgTimerDue now g.lastHandshakeUs (handshakeRetryUs g)
  | .proactiveRekey =>
    g.state = .up && !g.rekeyInFlight && 0 < g.lastHandshakeCompletedUs &&
      wgTimerDue now g.lastHandshakeCompletedUs wgRekeyAfterUs
  | .pathProbe =>
    (g.state = .up || g.state = .handshakePending) && g.pathStaleCb && 0 < g.lastTransportRecvUs &&
      wgTimerDue now g.lastTransportRecvUs wgRxStaleThresholdUs &&
      wgTimerDue now g.lastPathProbeUs wgPathProbeCooldownUs
  | .rxStale =>
    g.state = .up && !g.rekeyInFlight && 0 < g.lastTransportRecvUs &&
      wgTimerDue now g.lastTransportRecvUs wgRxStaleThresholdUs
  | .rekeyRetry => g.rekeyInFlight && wgTimerDue now g.lastHandshakeUs wgRekeyTimeoutUs
  | .pathTick =>
    (wgPathTick g.path tickUs).2 ≠ .none || (wgPathTick g.path tickUs).1.mode ≠ g.path.mode
  | .keepalive =>
    g.state = .up && 0 < g.lastTxUs && wgTimerDue now g.lastTxUs wgPersistentKeepaliveUs

def rxBlockAct (g : WgNetif) (now : ℤ) (e : RxEnv) : RxBlock → WgNetif
  | .handshakeRetry =>
    if g.handshakeAttempt ≥ wgHandshakeMaxRetries then
      { g with
        handshakeAttempt := 0
        lastHandshakeUs := now + (wgHandshakeBackoffUs - wgRekeyTimeoutUs) + 1 }
    else kickOffHandshake g (e.init .handshakeRetry)
  | .proactiveRekey => startRekey { g with rekeyAttempt := 0 } (e.init .proactiveRekey)
  | .pathProbe => { g with lastPathProbeUs := now }
  | .rxStale =>
    startRekey { g with rekeyAttempt := 0, lastTransportRecvUs := now } (e.init .rxStale)
  | .rekeyRetry =>
    if g.rekeyAttempt ≥ wgHandshakeMaxRetries then
      kickOffHandshake
        { g with
          rekeyInFlight := false
          rekeyAttempt := 0
          handshakeAttempt := 0
          state := .handshakePending } (e.init .rekeyRetry)
    else startRekey g (e.init .rekeyRetry)
  | .pathTick => rxPathTick g e.tickUs (e.init .pathTick)
  | .keepalive =>
    if e.txOk then { g with lastTxUs := e.txUs }
    else { g with lastTxUs := now - (wgPersistentKeepaliveUs - 1000 * 1000) }

def rxBlock (now : ℤ) (e : RxEnv) (b : RxBlock) (g : WgNetif) : WgNetif :=
  if b = .pathTick || rxBlockDue g now e.tickUs b then rxBlockAct g now e b else g

def rxBlocks : List RxBlock :=
  [.handshakeRetry, .proactiveRekey, .pathProbe, .rxStale, .rekeyRetry, .pathTick, .keepalive]

/-- One timer pass: the state after it, and the blocks that acted. -/
def rxPass (now : ℤ) (e : RxEnv) : List RxBlock → WgNetif → WgNetif × List RxBlock
  | [], g => (g, [])
  | b :: bs, g =>
    let r := rxPass now e bs (rxBlock now e b g)
    (r.1, if rxBlockDue g now e.tickUs b then b :: r.2 else r.2)

inductive RxEvent where
  | start (managed : Bool) (init : InitEnv)
  | abortStart
  | response
  | transport (data : Bool)
  | sent
  | unreachable
  | peerKeys (staticChanged disco : Bool) (init : InitEnv)
  | refresh (init : InitEnv)
  | route (init : InitEnv)
  | setPathStaleCallback (set : Bool)
  | path (event : PathEvent)
  | pass (env : RxEnv)

def RxEnv.readings (e : RxEnv) : List ℤ := e.tickUs :: e.txUs :: rxBlocks.map fun b => (e.init b).us

structure RxStep where
  now : ℕ
  endUs : ℕ
  event : RxEvent

structure RxState where
  netif : WgNetif
  clock : ℕ

def handshakePending (g : WgNetif) : Bool :=
  g.state = .handshakePending || (g.state = .up && g.rekeyInFlight)

def wgInitFreshDue (now initUs : ℤ) : Bool := wgTimerDue now initUs wgInitFreshAfterUs

/-- An accepted handshake response (`handle_handshake_response_locked`). -/
def rxResponse (g : WgNetif) (now : ℤ) : WgNetif :=
  let cold := g.state = .handshakePending
  { g with
    path := (wgPathOnHandshake g.path now).1
    lastHandshakeCompletedUs := now
    lastTransportRecvUs := now
    state := .up
    handshakeAttempt := if cold then 0 else g.handshakeAttempt
    rekeyInFlight := if cold then g.rekeyInFlight else false
    rekeyAttempt := if cold then g.rekeyAttempt else 0 }

def rxEvent (g : WgNetif) (now : ℤ) : RxEvent → WgNetif
  | .start managed init =>
    kickOffHandshake
      { g with
        path := wgPathInit now managed
        handshakeAttempt := 0
        rekeyAttempt := 0
        rekeyInFlight := false
        lastHandshakeCompletedUs := 0
        lastTransportRecvUs := 0 } init
  | .abortStart =>
    { g with
      state := .idle
      handshakeAttempt := 0
      rekeyAttempt := 0
      rekeyInFlight := false
      path := wgPathInit now false }
  | .response => if handshakePending g then rxResponse g now else g
  | .transport data =>
    if g.state = .up then
      { g with
        lastTransportRecvUs := now
        path := if data then (wgPathOnPeerData g.path now).1 else (wgPathOnKeepalive g.path now).1 }
    else g
  | .sent => if g.state = .up then { g with lastTxUs := now } else g
  | .unreachable =>
    { g with
      lastTransportRecvUs := now - (wgRxStaleThresholdUs + 1000)
      lastPathProbeUs := 0 }
  | .peerKeys staticChanged disco init =>
    let g := if disco then { g with path := wgPathSetManaged g.path now true } else g
    if staticChanged then
      kickOffHandshake { g with rekeyInFlight := false, rekeyAttempt := 0, handshakeAttempt := 0 } init
    else g
  | .refresh init =>
    if handshakePending g && wgInitFreshDue now g.lastHandshakeUs then
      let g' := buildAndSendInit g init
      if g.state = .up then { g' with rekeyAttempt := g'.rekeyAttempt + 1 }
      else { g' with handshakeAttempt := g'.handshakeAttempt + 1 }
    else g
  | .route init =>
    { g with path := (wgPathInitRoute g.path init.ring (g.state = .up) init.relayUp now init.gen).1 }
  | .setPathStaleCallback set => { g with pathStaleCb := set }
  | .path event => { g with path := (pathEvent g.path now event).1 }
  | .pass env => (rxPass now env rxBlocks g).1

/-- The clock does not go back. A pass takes `now` before its packet is handled, so what that stamps
may lie after `now`; all else the pass reads from the clock comes later. -/
def RxState.admits (σ : RxState) (a : RxStep) : Bool :=
  match a.event with
  | .pass env => env.readings.all fun t => (max σ.clock a.now : ℕ) ≤ t && t ≤ a.endUs
  | _ => σ.clock ≤ a.now && a.now ≤ a.endUs

def rxStep (σ : RxState) (a : RxStep) : Option RxState :=
  if σ.admits a then some ⟨rxEvent σ.netif a.now a.event, a.endUs⟩ else none

def WgNetif.zero : WgNetif :=
  ⟨.idle, false, 0, 0, 0, 0, 0, 0, 0, false, wgPathInit 0 false⟩

abbrev RxRun := Execution (fun σ : RxState => σ.netif = .zero) rxStep

end TinyLink
