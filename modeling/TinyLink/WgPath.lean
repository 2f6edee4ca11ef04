import Mathlib.Order.ConditionallyCompleteLattice.Basic
import Mathlib.Data.Int.ConditionallyCompleteOrder
import TinyLink.WgTimers

/-!
# Data-plane path selection

Embedding of `wg_path.h`. The `int64_t` times are integers, `doubts` and `silent_streak` are naturals
that the code caps at 255, and a bit mask of actions is a record of flags.
-/

namespace TinyLink

def wgPathAnswerUs : ℤ := 12000 * 1000
def wgPathPingTimeoutUs : ℤ := 5000 * 1000
def wgPathActiveUs : ℤ := 45000 * 1000
def wgPathTrustUs : ℤ := 30000 * 1000
def wgPathRoundUs : ℤ := 1000 * 1000
def wgPathReprobeMinMs : ℕ := 10000
def wgPathReprobeMaxMs : ℕ := 60000
def wgPathBetterPoints : ℤ := 15
def wgPathBetterMinUs : ℕ := 25000
def wgPathPrivatePoints : ℤ := 20

inductive WgPathMode where
  | dual
  | direct
  | relay
deriving DecidableEq

inductive WgPathWhy where
  | start
  | answer
  | idle
  | endpoint
  | doubt
  | silent
  | undelivered
deriving DecidableEq

/-- The actions for the caller, one flag for each bit. -/
structure WgPathAct where
  ping : Bool := false
  probe : Bool := false
  rescue : Bool := false
  rekey : Bool := false
  test : Bool := false
deriving DecidableEq

namespace WgPathAct

def none : WgPathAct := {}

instance : OrOp WgPathAct where
  or a b := ⟨a.ping || b.ping, a.probe || b.probe, a.rescue || b.rescue, a.rekey || b.rekey,
    a.test || b.test⟩

end WgPathAct

inductive WgPathPong where
  | kept
  | confirmed
  | roam
  | roamCand
  | doubt
deriving DecidableEq

structure Endpoint where
  v4Be : UInt32
  port : UInt16
deriving DecidableEq

/-- Another endpoint that answered this round first. -/
structure WgPathCand where
  isPrivate : Bool
  addr : Endpoint
  rttUs : UInt32
  atUs : ℤ

structure WgPathStats where
  unconfirmedUs : ℤ
  wasOffUs : ℤ
  lapses : UInt32
  deaths : UInt32
  confirms : UInt32
  roams : UInt32
  doubtsTotal : UInt32
  silences : UInt32
  undelivered : UInt32
  tests : UInt32

structure WgPath where
  managed : Bool
  mode : WgPathMode
  why : WgPathWhy
  sinceUs : ℤ
  offDirectUs : ℤ
  proofUs : ℤ
  kaUs : ℤ
  awaitUs : ℤ
  lastDataUs : ℤ
  lastRelayDataUs : ℤ
  hsUs : ℤ
  initHoldUs : ℤ
  peerWgUs : ℤ
  peerTrUs : ℤ
  lapseFromUs : ℤ
  testAtUs : ℤ
  deliveredUs : ℤ
  doubts : ℕ
  silentStreak : ℕ
  graceUsed : Bool
  pingUs : ℤ
  reprobeUs : ℤ
  reprobeMs : ℕ
  rttUs : UInt32
  rttAtUs : ℤ
  candValid : Bool
  cand : WgPathCand
  stats : WgPathStats

def WgPath.lapsePending (p : WgPath) : Bool :=
  p.mode = .dual && (p.why = .answer || p.why = .idle || p.why = .doubt)

def WgPath.inDoubt (p : WgPath) : Bool := p.mode = .dual && p.why = .doubt

def WgPath.setRtt (p : WgPath) (rttUs : UInt32) (atUs : ℤ) : WgPath :=
  { p with rttUs := rttUs, rttAtUs := atUs }

def WgPath.dropCand (p : WgPath) : WgPath := { p with candValid := false }

def WgPath.setCand (p : WgPath) (c : WgPathCand) : WgPath := { p with candValid := true, cand := c }

def WgPath.countRoam (p : WgPath) : WgPath :=
  { p with stats := { p.stats with roams := p.stats.roams + 1 } }

def wgPathBetter (aRttUs : UInt32) (aPriv : Bool) (bRttUs : UInt32) (bPriv : Bool) : Bool :=
  let a := aRttUs.toNat
  let b := bRttUs.toNat
  let faster : ℤ := if a + wgPathBetterMinUs < b then 100 - (a * 100) / b else 0
  let slower : ℤ :=
    if a + wgPathBetterMinUs < b then 0
    else if b + wgPathBetterMinUs < a then 100 - (b * 100) / a else 0
  let aPts := if aPriv then faster + wgPathPrivatePoints else faster
  let bPts := if bPriv then slower + wgPathPrivatePoints else slower
  aPts > bPts + wgPathBetterPoints

def wgPathEnterDual (p : WgPath) (now : ℤ) (why : WgPathWhy) : WgPath :=
  { p with
    offDirectUs := if p.mode = .direct then now else p.offDirectUs
    mode := .dual
    why := why
    sinceUs := now
    awaitUs := 0
    reprobeMs := 0 }

def WgPathCand.zero : WgPathCand := ⟨false, ⟨0, 0⟩, 0, 0⟩

def WgPathStats.zero : WgPathStats := ⟨0, 0, 0, 0, 0, 0, 0, 0, 0, 0⟩

def wgPathInit (now : ℤ) (managed : Bool) : WgPath where
  managed := managed
  mode := .dual
  why := .start
  sinceUs := now
  offDirectUs := now
  proofUs := 0
  kaUs := 0
  awaitUs := 0
  lastDataUs := 0
  lastRelayDataUs := 0
  hsUs := 0
  initHoldUs := 0
  peerWgUs := 0
  peerTrUs := 0
  lapseFromUs := 0
  testAtUs := 0
  deliveredUs := 0
  doubts := 0
  silentStreak := 0
  graceUsed := false
  pingUs := 0
  reprobeUs := 0
  reprobeMs := 0
  rttUs := 0
  rttAtUs := 0
  candValid := false
  cand := .zero
  stats := .zero

/-- Becoming managed starts over and keeps the counters. -/
def wgPathSetManaged (p : WgPath) (now : ℤ) (managed : Bool) : WgPath :=
  if p.managed = managed then p
  else if managed then
    { wgPathInit now true with stats := { p.stats with unconfirmedUs := 0, wasOffUs := 0 } }
  else { p with managed := false }

def wgPathValid (p : WgPath) (now : ℤ) : Bool :=
  p.mode = .direct && p.proofUs ≠ 0 && !wgTimerDue now p.proofUs wgPathTrustUs

def wgPathLapse (p : WgPath) (now : ℤ) (why : WgPathWhy) (fromUs : ℤ) : WgPath × WgPathAct :=
  let q := wgPathEnterDual p now why
  ({ q with
      lapseFromUs := fromUs
      pingUs := now
      stats := { q.stats with unconfirmedUs := now - fromUs, lapses := q.stats.lapses + 1 } },
    { ping := true })

/-- DIRECT and our oldest unanswered data frame is past the window. -/
def wgPathCheckAnswer (p : WgPath) (now : ℤ) : WgPath × WgPathAct :=
  if p.mode = .direct && p.awaitUs ≠ 0 && wgTimerDue now p.awaitUs wgPathAnswerUs then
    wgPathLapse p now .answer p.awaitUs
  else (p, .none)

/-- The keepalive or proof that says the path is not idle. -/
def wgPathSeen (p : WgPath) : ℤ := if p.kaUs > p.proofUs then p.kaUs else p.proofUs

/-- `wg_path_on_send`: the first data frame after a pause lapses. -/
def wgPathCheckIdle (p : WgPath) (now : ℤ) : WgPath × WgPathAct :=
  if p.mode = .direct && (p.lastDataUs = 0 || wgTimerDue now p.lastDataUs wgPathAnswerUs) &&
      wgTimerDue now (wgPathSeen p) wgPathAnswerUs then
    wgPathLapse p now .idle (wgPathSeen p)
  else (p, .none)

/-- `wg_path_on_send`: what a data frame leaves behind, sent the way `p.mode` says. -/
def wgPathNoteData (p : WgPath) (now : ℤ) : WgPath :=
  { p with
    awaitUs := if (p.mode = .direct || p.inDoubt) && p.awaitUs = 0 then now else p.awaitUs
    lastRelayDataUs := if p.mode ≠ .direct then now else p.lastRelayDataUs
    lastDataUs := now }

/-- A transport frame is about to go out; the mode is how to send it. -/
def wgPathOnSend (p : WgPath) (now : ℤ) (data : Bool) : WgPath × WgPathAct × WgPathMode :=
  if !p.managed then (p, .none, .direct)
  else
    let r := wgPathCheckAnswer p now
    if data then
      let s := wgPathCheckIdle r.1 now
      let q := wgPathNoteData s.1 now
      (q, r.2 ||| s.2, q.mode)
    else (r.1, r.2, r.1.mode)

def wgPathReprobeLive (p : WgPath) : Bool :=
  p.lastDataUs ≠ 0 && p.reprobeUs ≤ p.lastDataUs + wgPathActiveUs

def wgPathRescue (p : WgPath) (now : ℤ) : WgPath × WgPathAct :=
  ({ p with lastRelayDataUs := now }, { rescue := true })

def wgPathEnterRelay (p : WgPath) (now : ℤ) (why : WgPathWhy) : WgPath :=
  let shift := if p.doubts > 3 then 3 else if p.doubts > 0 then p.doubts - 1 else 0
  let reprobeMs := min (wgPathReprobeMinMs <<< shift) wgPathReprobeMaxMs
  { p with
    mode := .relay
    why := why
    sinceUs := now
    candValid := false
    reprobeMs := reprobeMs
    reprobeUs := now + reprobeMs * 1000 }

def WgPath.countSilence (p : WgPath) (now : ℤ) : WgPath :=
  { p with
    silentStreak := if p.silentStreak < 255 then p.silentStreak + 1 else p.silentStreak
    stats := { p.stats with
      silences := p.stats.silences + 1
      unconfirmedUs := now - p.lapseFromUs } }

/-- DOUBT, and its window passed with no WireGuard packet. -/
def wgPathSilent (p : WgPath) (now : ℤ) : WgPath × WgPathAct :=
  let r := wgPathRescue (wgPathEnterRelay (p.countSilence now) now .silent) now
  (r.1, r.2 ||| { rekey := r.1.silentStreak = 1 })

/-- Into DIRECT; already there, only the proof is renewed. -/
def wgPathConfirm (p : WgPath) (now : ℤ) : WgPath :=
  if p.mode ≠ .direct then
    { p with
      mode := .direct
      sinceUs := now
      reprobeMs := 0
      awaitUs := 0
      proofUs := now
      stats := { p.stats with
        wasOffUs := now - p.offDirectUs
        confirms := p.stats.confirms + 1 } }
  else { p with proofUs := now }

def WgPath.countUndelivered (p : WgPath) (now : ℤ) : WgPath :=
  { p with stats := { p.stats with
    undelivered := p.stats.undelivered + 1
    unconfirmedUs := now - p.lapseFromUs } }

/-- A WireGuard packet from the peer ends a doubt. -/
def wgPathResolve (p : WgPath) (now : ℤ) : WgPath × WgPathAct :=
  if p.doubts < 2 then (wgPathConfirm p now, .none)
  else wgPathRescue (wgPathEnterRelay (p.countUndelivered now) now .undelivered) now

def wgPathTakeTest (p : WgPath) (now : ℤ) : WgPath × WgPathAct :=
  if p.testAtUs ≠ 0 && now ≥ p.testAtUs then
    ({ p with testAtUs := 0, stats := { p.stats with tests := p.stats.tests + 1 } }, { test := true })
  else (p, .none)

def wgPathTickDoubt (p : WgPath) (now : ℤ) : WgPath × WgPathAct :=
  let q := wgPathTakeTest p now
  if q.1.awaitUs ≠ 0 && wgTimerDue now q.1.awaitUs wgPathAnswerUs then
    let r := wgPathSilent q.1 now
    (r.1, q.2 ||| r.2)
  else q

/-- The current endpoint failed its ping: DERP only, and look for another. -/
def wgPathDie (p : WgPath) (now : ℤ) : WgPath :=
  { p with
    mode := .relay
    sinceUs := now
    reprobeMs := wgPathReprobeMinMs
    reprobeUs := now + wgPathReprobeMinMs * 1000
    stats := { p.stats with deaths := p.stats.deaths + 1 } }

/-- `wg_path_tick` in DUAL: the ping of this mode, then its timeout. -/
def wgPathTickDual (p : WgPath) (now : ℤ) : WgPath × WgPathAct :=
  if p.pingUs < p.sinceUs then
    ({ p with pingUs := if now > p.sinceUs then now else p.sinceUs }, { ping := true })
  else if wgTimerDue now p.pingUs wgPathPingTimeoutUs then
    if p.lapsePending then
      let r := wgPathRescue (wgPathDie p now) now
      (r.1, { probe := true } ||| r.2)
    else (wgPathDie p now, { probe := true })
  else (p, .none)

/-- `wg_path_tick` in RELAY: the re-probe, and the next one backed off. -/
def wgPathTickRelay (p : WgPath) (now : ℤ) : WgPath × WgPathAct :=
  if wgPathReprobeLive p && now ≥ p.reprobeUs then
    let reprobeMs :=
      if p.reprobeMs * 2 > wgPathReprobeMaxMs then wgPathReprobeMaxMs else p.reprobeMs * 2
    ({ p with pingUs := now, reprobeMs := reprobeMs, reprobeUs := now + reprobeMs * 1000 },
      { ping := true, probe := true })
  else (p, .none)

def wgPathTick (p : WgPath) (now : ℤ) : WgPath × WgPathAct :=
  if !p.managed then (p, .none)
  else
    match p.mode with
    | .direct => wgPathCheckAnswer p now
    | .dual => if p.why = .doubt then wgPathTickDoubt p now else wgPathTickDual p now
    | .relay => wgPathTickRelay p now

/-- Deadlines are compared as `int64_t` values. -/
instance deadlineDecidableLT (t d : WithTop ℤ) : Decidable (t < d) :=
  @WithTop.decidableLT ℤ Int.instLTInt Int.decLt t d

/-- The end of an answer window, `⊤` (`INT64_MAX`) while none is open. -/
def WgPath.answerAt (p : WgPath) : WithTop ℤ :=
  if p.awaitUs ≠ 0 then wgTimerAt p.awaitUs wgPathAnswerUs else ⊤

/-- The earliest instant `wg_path_tick` acts; `⊤` is `INT64_MAX`, none. -/
def wgPathNextDeadline (p : WgPath) : WithTop ℤ :=
  if !p.managed then ⊤
  else
    match p.mode with
    | .direct => p.answerAt
    | .dual =>
      if p.why = .doubt then
        if p.testAtUs ≠ 0 ∧ (p.testAtUs : WithTop ℤ) < p.answerAt then p.testAtUs else p.answerAt
      else if p.pingUs < p.sinceUs then p.sinceUs
      else wgTimerAt p.pingUs wgPathPingTimeoutUs
    | .relay => if wgPathReprobeLive p then p.reprobeUs else ⊤

def wgPathProvesDirect (p : WgPath) (now : ℤ) : Bool :=
  p.lastRelayDataUs = 0 || wgTimerDue now p.lastRelayDataUs wgPathAnswerUs

/-- A transport packet of the peer ends the silent streak: the session works. -/
def wgPathHeard (p : WgPath) (now : ℤ) : WgPath :=
  { p with peerWgUs := now, peerTrUs := now, silentStreak := 0 }

/-- The answer window restarts at the next data frame. -/
def WgPath.clearAwait (p : WgPath) : WgPath := { p with awaitUs := 0 }

/-- A keepalive proves the direct path: frames sent a window before it were delivered. -/
def wgPathProve (p : WgPath) (now : ℤ) : WgPath :=
  let d := now - wgPathAnswerUs
  { p with
    proofUs := now
    doubts := 0
    deliveredUs := if d > p.deliveredUs then d else p.deliveredUs }

def wgPathOnKeepalive (p : WgPath) (now : ℤ) : WgPath × WgPathAct :=
  let p := wgPathHeard p now
  if p.inDoubt then wgPathResolve p now
  else if p.mode ≠ .direct then (p, .none)
  else
    let p := { p.clearAwait with kaUs := now }
    if wgPathProvesDirect p now then (wgPathProve p now, .none) else (p, .none)

def wgPathRescueFrom (p : WgPath) : ℤ := p.deliveredUs

def wgPathKeysConfirmed (p : WgPath) : Bool := p.peerTrUs > p.hsUs

def wgPathOnPeerData (p : WgPath) (now : ℤ) : WgPath × WgPathAct :=
  let p := wgPathHeard p now
  if p.inDoubt then wgPathResolve p now
  else if p.mode = .direct && p.hsUs ≠ 0 && !p.graceUsed && !wgTimerDue now p.hsUs wgPathAnswerUs then
    ({ p.clearAwait with graceUsed := true }, .none)
  else (p, .none)

/-- A handshake does not end the silent streak: a fresh session may be silent too. -/
def wgPathHandshaken (p : WgPath) (now : ℤ) : WgPath :=
  { p with hsUs := now, peerWgUs := now, graceUsed := false, initHoldUs := 0 }

def wgPathOnHandshake (p : WgPath) (now : ℤ) : WgPath × WgPathAct :=
  let p := wgPathHandshaken p now
  if p.inDoubt then wgPathResolve p now
  else if p.mode = .direct then (p.clearAwait, .none)
  else (p, .none)

def wgPathOnEndpointChange (p : WgPath) (now : ℤ) : WgPath × WgPathAct :=
  let r := if p.lapsePending then wgPathRescue p now else (p, .none)
  let q := wgPathEnterDual r.1 now .endpoint
  (({ q with pingUs := 0, proofUs := 0 }.setRtt 0 0).dropCand, r.2)

/-- RELAY after a failed WireGuard test: only the re-test's own round ends it. -/
def wgPathRetestHold (p : WgPath) (now : ℤ) : Bool :=
  p.mode = .relay && (p.why = .silent || p.why = .undelivered) &&
    !(p.pingUs ≥ p.sinceUs && !wgTimerDue now p.pingUs wgPathPingTimeoutUs)

/-- The arguments of `wg_path_on_pong`; `hasAct` says that `act` is not `NULL`. -/
structure PongArgs where
  rttUs : UInt32
  fromCurrent : Bool
  src : Endpoint
  srcPrivate : Bool
  curPrivate : Bool
  hasAct : Bool

/-- `wg_path_on_pong` answering a lapse while nothing came from the peer. -/
def wgPathEnterDoubt (p : WgPath) (now : ℤ) : WgPath :=
  { p with
    doubts := if p.doubts < 255 then p.doubts + 1 else p.doubts
    why := .doubt
    awaitUs := 0
    candValid := false
    testAtUs := if p.silentStreak = 0 then now else 0
    stats := { p.stats with
      doubtsTotal := p.stats.doubtsTotal + 1
      unconfirmedUs := now - p.lapseFromUs } }

def wgPathPongCurrent (p : WgPath) (now : ℤ) (a : PongArgs) : WgPath × WgPathPong :=
  let p := p.setRtt a.rttUs now
  if p.inDoubt then (p.dropCand, .kept)
  else if p.mode = .dual && p.why = .answer && p.peerWgUs < p.lapseFromUs then
    (wgPathEnterDoubt p now, .doubt)
  else
    let q := (wgPathConfirm p now).dropCand
    if p.candValid && !wgTimerDue now p.cand.atUs wgPathRoundUs &&
        wgPathBetter p.cand.rttUs p.cand.isPrivate a.rttUs a.curPrivate then
      ((q.setRtt p.cand.rttUs p.cand.atUs).countRoam, .roamCand)
    else (q, .confirmed)

/-- May a pong from another endpoint move the endpoint there? -/
def wgPathTakes (p : WgPath) (now : ℤ) (a : PongArgs) : Bool :=
  (!wgPathValid p now && !p.inDoubt) ||
    (p.rttAtUs ≠ 0 && !wgTimerDue now p.rttAtUs wgPathRoundUs &&
      wgPathBetter a.rttUs a.srcPrivate p.rttUs a.curPrivate)

def wgPathPongOther (p : WgPath) (now : ℤ) (a : PongArgs) : WgPath × WgPathPong × WgPathAct :=
  if wgPathTakes p now a then
    let r := if a.hasAct && p.lapsePending then wgPathRescue p now else (p, .none)
    ((wgPathConfirm (r.1.setRtt a.rttUs now).dropCand now).countRoam, .roam, r.2)
  else if !p.candValid || wgTimerDue now p.cand.atUs wgPathRoundUs ||
      (a.srcPrivate && !p.cand.isPrivate) ||
      (a.srcPrivate = p.cand.isPrivate && a.rttUs < p.cand.rttUs) then
    (p.setCand ⟨a.srcPrivate, a.src, a.rttUs, now⟩, .kept, .none)
  else (p, .kept, .none)

def wgPathOnPong (p : WgPath) (now : ℤ) (a : PongArgs) : WgPath × WgPathPong × WgPathAct :=
  if wgPathRetestHold p now then
    if a.fromCurrent then (p.setRtt a.rttUs now, .kept, .none)
    else (p, .kept, .none)
  else if a.fromCurrent then
    let r := wgPathPongCurrent p now a
    (r.1, r.2, .none)
  else wgPathPongOther p now a

end TinyLink
