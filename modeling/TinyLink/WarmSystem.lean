import TinyLink.Library.Execution
import TinyLink.Warm

/-!
# The warm start across tasks and boots

The tasks of `tinylink.c` that drive `tl_warm.h`: the main, the long-poll and the telemetry task. Each
critical section on `s_warm_mux` is one step, with the work on data that only its task uses at that
point. Where a task is says whether it holds the mutex `s_warm_mx`. The device may be reset at any
time. What NVS holds is not modelled: a boot may read any record.
-/

namespace TinyLink

/-- The main task: before `warm_load`, before `tinylink_warm_start`, at two points inside
`warm_start_locked`, before it gives the mutex, behind it. -/
inductive MainPc
  | booting
  | idle
  | holding
  | starting
  | leaving
  | done
deriving DecidableEq

/-- The long-poll task. `loop` and `ended` are the two places of `warm_poll(true)`. -/
inductive LpPc
  | loop
  | connect
  | stream
  | ended
  | gate (nm : Netmap)
  | frame (nm : Netmap)
  | handle (nm : Netmap) (warm : Bool)
  | cold
  | stage
  | mark (hung : Bool)
  | shut (hung : Bool)
  | halted (hung mx : Bool)
deriving DecidableEq

/-- The telemetry task: `warm_poll(false)`, the steps of `warm_persist`, and `warm_restart_now`. -/
inductive TelPc
  | idle
  | persist
  | wait (r : WarmRec) (sm : WarmSm)
  | store (r : WarmRec) (sm : WarmSm)
  | settle (rc : StoreRc)
  | leaving
  | mark
  | shut
  | halted (mx : Bool)
deriving DecidableEq

def MainPc.holds : MainPc → Bool
  | .holding | .starting | .leaving => true
  | _ => false

def LpPc.holds : LpPc → Bool
  | .halted _ mx => mx
  | _ => false

def TelPc.holds : TelPc → Bool
  | .store _ _ | .settle _ | .leaving => true
  | .halted mx => mx
  | _ => false

/-- What happens to the warm start of a boot. -/
inductive WarmEvent
  | began (r : WarmRec)
  | started (ok : Bool)
  | answered (act : WarmAct) (self : List Bytes) (target : Option Peer)
  | polled (longPoll : Bool) (why : WarmPoll)
  | stored (rc : StoreRc)
  | settled
  | restarted (hung : Bool)
deriving DecidableEq

/-- A boot that is over: what happened in it, and the reason of the reset that ended it. -/
structure WarmBoot where
  events : List WarmEvent
  endedBy : ℕ

structure WarmDevice where
  rtc : WarmRtc
  resetReason : ℕ
  /-- `s_warm_rtc_verdict` -/
  verdict : RtcVerdict
  nodePub : Key
  controlPub : Key
  /-- `s_warm_nvs` -/
  nvs : WarmNvs
  /-- `s_wsm` -/
  sm : WarmSm
  tables : WarmTables
  dataplaneStarted : Bool
  /-- `wg_dataplane_self_v4` -/
  selfV4 : ℕ
  /-- `s_warm_stage` with `s_warm_staged` -/
  staged : Option WarmRec
  gateShut : Bool
  gateLp : Bool
  nvsShut : Bool
  main : MainPc
  lp : LpPc
  tel : TelPc
  /-- the events of this boot -/
  log : List WarmEvent
  /-- the boots before -/
  history : List WarmBoot

/-- `CONFIG_TINYLINK_WARM_START_MAX_S`, and `cidr_host_v4`. -/
structure WarmConfig where
  maxS : ℕ
  hostV4 : Bytes → ℕ

/-- A boot begins: RTC memory and the reset reason; all else is zero. -/
def WarmDevice.boot (rtc : WarmRtc) (resetReason : ℕ) (history : List WarmBoot) : WarmDevice where
  rtc
  resetReason
  verdict := .clean
  nodePub := zeroKey
  controlPub := zeroKey
  nvs := .empty
  sm := .zero
  tables := .empty
  dataplaneStarted := false
  selfV4 := 0
  staged := none
  gateShut := false
  gateLp := false
  nvsShut := false
  main := .booting
  lp := .loop
  tel := .idle
  log := []
  history

namespace WarmDevice
variable (s : WarmDevice)

def note (e : WarmEvent) : WarmDevice := { s with log := s.log ++ [e] }

def mxFree : Bool := !s.main.holds && !s.lp.holds && !s.tel.holds

def load (nodePub controlPub : Key) (eraseOk : Bool) (read : WarmRead) : WarmDevice :=
  let l := tlWarmLoad s.rtc s.resetReason eraseOk read
  { s with rtc := l.rtc, verdict := l.verdict, nvs := l.nvs, nodePub, controlPub, main := .idle }

/-- The head of `tinylink_warm_start`. -/
def takeStart : WarmDevice :=
  if s.gateShut then { s with main := .done }
  else { s with gateShut := true, main := .holding }

/-- `warm_start_locked` up to `tl_warm_seed`. -/
def go (regReused heapOk : Bool) (nowUnix : ℤ) : WarmDevice :=
  let r := s.nvs.record
  let i : WarmGoIn :=
    { rtc := s.verdict
      haveRec := s.nvs.valid
      keysOk := s.nvs.valid && tlWarmRecFor r s.nodePub s.controlPub
      regReused
      heapOk
      nowUnix
      written := r.written }
  if tlWarmGo i = .go then
    let b := tlWarmSmBegin s.rtc
    { s with sm := b.1, rtc := b.2, tables := tlWarmSeed r, main := .starting }.note (.began r)
  else { s with main := .leaving }

def start (ok : Bool) (nowS selfV4 : ℕ) : WarmDevice :=
  let r := tlWarmSmStarted s.sm s.rtc s.tables ok nowS s.nvs.record.written
  { s with
    sm := r.1
    rtc := r.2.1
    tables := r.2.2
    dataplaneStarted := s.dataplaneStarted || ok
    selfV4 := if ok then selfV4 else s.selfV4
    main := .leaving }.note (.started ok)

def lpPoll (cfg : WarmConfig) (c : WarmClock) (next : LpPc) : WarmDevice :=
  let p := tlWarmSmPoll s.sm true cfg.maxS c
  let lp := if p.2 = WarmPoll.nothing then next else .mark false
  { s with sm := p.1, lp }.note (.polled true p.2)

def selfNodeExpired (nm : Netmap) (nowUnix : ℤ) : Bool :=
  nm.haveSelf && (nm.selfExpired || (nm.selfKeyExpiry > 0 && nm.selfKeyExpiry ≤ nowUnix))

def target (our : Option Ipv4) : Option Peer :=
  if s.tables.self = [] then none
  else s.tables.peers[(tlWarmTargetIndex s.tables.peers our).1]?

/-- `warm_netmap` up to the answer of `tl_warm_sm_netmap`. -/
def warmNetmap (nm : Netmap) (our : Option Ipv4) (expired self0Moved : Bool) : WarmDevice :=
  let t := if expired || self0Moved then none else s.target our
  let now := t.map fun p => tlWarmRecBuild s.tables.self p s.nodePub s.controlPub
  let a := tlWarmSmNetmap s.sm s.nvs.record ⟨expired, nm.haveSelf, self0Moved, now⟩
  let lp :=
    match a.2.1 with
    | .restart => LpPc.ended
    | .confirm => .stage
    | _ => .stream
  { s with sm := a.1, lp }.note (.answered a.2.1 s.tables.self t)

/-- The end of `long_poll_handler`, behind the merge. -/
def applyNetmap (nm : Netmap) (changed startOk : Bool) (selfV4 : ℕ) : WarmDevice :=
  if !s.dataplaneStarted then
    if s.tables.self = [] || s.tables.peers = [] then { s with lp := .stream }
    else if !startOk then { s with lp := .stream }
    else { s with dataplaneStarted := true, selfV4, lp := .cold }
  else if changed || nm.haveSelf then { s with lp := .stage }
  else { s with lp := .stream }

/-- What `long_poll_handler` reads besides the frame: the time, our STUN address, and what
`wg_dataplane_start` returns. -/
structure HandlerEnv where
  nowUnix : ℤ
  our : Option Ipv4
  startOk : Bool
  selfV4 : ℕ

def handle (cfg : WarmConfig) (nm : Netmap) (warm : Bool) (e : HandlerEnv) : WarmDevice :=
  if selfNodeExpired nm e.nowUnix then
    if warm then s.warmNetmap nm e.our true false else { s with lp := .ended }
  else
    let taken := nm.haveSelf && nm.selfAddresses ≠ []
    let s := if taken then { s with tables.self := nm.selfAddresses } else s
    let nowV4 := (s.tables.self.head?.map cfg.hostV4).getD 0
    if taken && s.dataplaneStarted && nowV4 ≠ 0 && nowV4 ≠ s.selfV4 then
      if warm then s.warmNetmap nm e.our false true
      else { s with sm.restart := true, lp := .ended }
    else
      let m := mergePeers s.tables.peers nm
      let s := { s with tables.peers := m.1 }
      if warm then s.warmNetmap nm e.our false false
      else s.applyNetmap nm m.2 e.startOk e.selfV4

def stage (our : Option Ipv4) : WarmDevice :=
  match s.target our with
  | none => { s with lp := .stream }
  | some p =>
    let r := tlWarmRecBuild s.tables.self p s.nodePub s.controlPub
    { s with staged := if tlWarmRecStorable r then some r else s.staged, lp := .stream }

/-- The mark of `warm_restart_now`. -/
def mark (hung : Bool) : WarmDevice :=
  { s with rtc := if hung then tlWarmRtcHung s.rtc else tlWarmRtcRestart s.rtc }.note
    (.restarted hung)

def telPoll (cfg : WarmConfig) (c : WarmClock) : WarmDevice :=
  let p := tlWarmSmPoll s.sm false cfg.maxS c
  let tel := if p.2 = WarmPoll.nothing then TelPc.persist else .mark
  { s with sm := p.1, tel }.note (.polled false p.2)

/-- What `tl_warm_store` is given besides the record. -/
structure StoreEnv where
  nowUnix : ℕ
  nowUs : ℤ
  nowS : ℕ
  controlRxS : ℕ
  writeOk : Bool

def store (r : WarmRec) (sm : WarmSm) (e : StoreEnv) : WarmDevice :=
  let w := tlWarmStore s.nvs r e.nowUnix e.nowUs (tlWarmSmFresh sm e.nowS e.controlRxS) e.writeOk
  { s with nvs := w.1, tel := .settle w.2 }.note (.stored w.2)

def settle (rc : StoreRc) : WarmDevice :=
  let w := tlWarmSmSettle s.sm s.rtc rc
  let s := { s with sm := w.1, rtc := w.2.1, tel := .leaving }
  if w.2.2 then s.note .settled else s

end WarmDevice

inductive WarmAction
  | load (nodePub controlPub : Key) (eraseOk : Bool) (read : WarmRead)
  | takeStart
  | go (regReused heapOk : Bool) (nowUnix : ℤ)
  | start (ok : Bool) (nowS selfV4 : ℕ)
  | giveStart
  | lpPoll (c : WarmClock)
  | connect (ok : Bool)
  | receive (nm : Netmap)
  | streamEnds
  | gatePass
  | gateHang
  | frame
  | handle (e : WarmDevice.HandlerEnv)
  | cold
  | stage (our : Option Ipv4)
  | lpMark
  | lpShut (got : Bool)
  | telPoll (c : WarmClock)
  | snapshot
  | telTake (got : Bool)
  | store (e : WarmDevice.StoreEnv)
  | settle
  | telGive
  | telMark
  | telShut (got : Bool)
  | reset (reason : ℕ) (garbage : WarmRtc)

def mainStep (s : WarmDevice) : WarmAction → Option WarmDevice
  | .load nodePub controlPub eraseOk read =>
    if s.main = .booting then some (s.load nodePub controlPub eraseOk read) else none
  | .takeStart => if s.main = .idle && s.mxFree then some s.takeStart else none
  | .go regReused heapOk nowUnix =>
    if s.main = .holding then some (s.go regReused heapOk nowUnix) else none
  | .start ok nowS selfV4 => if s.main = .starting then some (s.start ok nowS selfV4) else none
  | .giveStart => if s.main = .leaving then some { s with main := .done } else none
  | _ => none

def lpStep (cfg : WarmConfig) (s : WarmDevice) : WarmAction → Option WarmDevice
  | .lpPoll c =>
    match s.lp with
    | .loop => some (s.lpPoll cfg c .connect)
    | .ended => some (s.lpPoll cfg c .loop)
    | _ => none
  | .connect ok =>
    if s.lp = .connect then some { s with lp := if ok then .stream else .loop } else none
  | .receive nm =>
    if s.lp = .stream then
      some { s with gateLp := true, lp := if s.gateLp then .frame nm else .gate nm }
    else none
  | .streamEnds => if s.lp = .stream then some { s with lp := .ended } else none
  | .gatePass =>
    match s.lp with
    | .gate nm => if s.mxFree then some { s with gateShut := true, lp := .frame nm } else none
    | _ => none
  | .gateHang =>
    match s.lp with
    | .gate _ => if !s.mxFree then some { s with lp := .mark true } else none
    | _ => none
  | .frame =>
    match s.lp with
    | .frame nm =>
      let f := tlWarmSmFrame s.sm s.tables
      some { s with sm := f.1, tables := f.2.1, lp := .handle nm f.2.2 }
    | _ => none
  | .handle e =>
    match s.lp with
    | .handle nm warm => some (s.handle cfg nm warm e)
    | _ => none
  | .cold =>
    if s.lp = .cold then some { s with sm := tlWarmSmCold s.sm, lp := .stage } else none
  | .stage our => if s.lp = .stage then some (s.stage our) else none
  | .lpMark =>
    match s.lp with
    | .mark hung => some { s.mark hung with lp := .shut hung }
    | _ => none
  | .lpShut got =>
    match s.lp with
    | .shut hung =>
      if !got || s.mxFree then some { s with nvsShut := true, lp := .halted hung got } else none
    | _ => none
  | _ => none

def telStep (cfg : WarmConfig) (s : WarmDevice) : WarmAction → Option WarmDevice
  | .telPoll c => if s.tel = .idle then some (s.telPoll cfg c) else none
  | .snapshot =>
    if s.tel = .persist then
      match s.staged with
      | none => some { s with tel := .idle }
      | some r => some { s with tel := .wait r s.sm }
    else none
  | .telTake got =>
    match s.tel with
    | .wait r sm =>
      if !got then some { s with tel := .idle }
      else if s.mxFree then some { s with tel := if s.nvsShut then .leaving else .store r sm }
      else none
    | _ => none
  | .store e =>
    match s.tel with
    | .store r sm => some (s.store r sm e)
    | _ => none
  | .settle =>
    match s.tel with
    | .settle rc => some (s.settle rc)
    | _ => none
  | .telGive => if s.tel = .leaving then some { s with tel := .idle } else none
  | .telMark => if s.tel = .mark then some { s.mark false with tel := .shut } else none
  | .telShut got =>
    if s.tel = .shut && (!got || s.mxFree) then
      some { s with nvsShut := true, tel := .halted got }
    else none
  | _ => none

/-- One step of a task or a reset; the long-poll and the telemetry task run behind `warm_load`. -/
def warmStep (cfg : WarmConfig) (s : WarmDevice) : WarmAction → Option WarmDevice
  | .reset reason garbage =>
    some (.boot (if reason = tlWarmRstPoweron then garbage else s.rtc) reason
      (s.history ++ [⟨s.log, reason⟩]))
  | a =>
    (mainStep s a).or
      (if s.main = .booting then none else (lpStep cfg s a).or (telStep cfg s a))

def WarmStart (s : WarmDevice) : Prop := ∃ rtc, s = .boot rtc tlWarmRstPoweron []

abbrev WarmRun (cfg : WarmConfig) := StepSystem.Execution WarmStart (warmStep cfg)

/-- Whether a warm start is under way: begun, and neither failed, settled nor given up. -/
def WarmEvent.opens (under : Bool) : WarmEvent → Bool
  | .began _ => true
  | .started ok => under && ok
  | .settled => false
  | .restarted _ => false
  | _ => under

def underWay (es : List WarmEvent) : Bool := es.foldl WarmEvent.opens false

def hasBegun (es : List WarmEvent) : Bool :=
  es.any fun
    | .began _ => true
    | _ => false

namespace WarmBoot
variable (b : WarmBoot)

/-- The reset hit a warm start under way, and was neither a software reset nor a power-on. -/
def crashed : Bool :=
  underWay b.events && b.endedBy ≠ tlWarmRstSw && b.endedBy ≠ tlWarmRstPoweron

def hung : Bool := WarmEvent.restarted true ∈ b.events

/-- The boot warm-started, and that ended in a crash reset or a reported hang. -/
def failed : Bool := hasBegun b.events && (b.crashed || b.hung)

end WarmBoot

/-- The warm starts that failed since the last power-on or settled warm start, and whether the limit
was reached. -/
structure GuardTally where
  failures : ℕ
  off : Bool

def GuardTally.add (g : GuardTally) (b : WarmBoot) : GuardTally :=
  if b.endedBy = tlWarmRstPoweron then ⟨0, false⟩
  else
    let n := (if .settled ∈ b.events then 0 else g.failures) + (if b.failed then 1 else 0)
    ⟨n, g.off || tlWarmRtcMaxCrashes ≤ n⟩

def guardTally (h : List WarmBoot) : GuardTally := h.foldl GuardTally.add ⟨0, false⟩

/-- The last boot ended in a crash, a hang or a planned restart, and not by a power-on. -/
def mustStartCold (h : List WarmBoot) : Bool :=
  h.getLast?.any fun b =>
    b.endedBy ≠ tlWarmRstPoweron && (b.crashed || b.hung || .restarted false ∈ b.events)

/-- No reset but a power-on hits a boot that has not read the attempt mark yet. -/
def readsMarkFirst (s : WarmDevice) : WarmAction → Bool
  | .reset reason _ => reason = tlWarmRstPoweron || s.main ≠ .booting || s.rtc.attempt = 0
  | _ => true

namespace WarmEvent

def isBound : WarmEvent → Bool
  | .polled _ .boundTime | .polled _ .boundAge => true
  | _ => false

def isConfirm : WarmEvent → Bool
  | .answered .confirm _ _ => true
  | _ => false

def isRefusal : WarmEvent → Bool
  | .answered .restart _ _ => true
  | _ => false

end WarmEvent

/-- The peer, our first address and our keys are the record's; a NodeID of 0 leaves the NodeKey to
decide. -/
structure WarmRec.RunsAgainst (r : WarmRec) (self : List Bytes) (p : Peer) (nodePub controlPub : Key) :
    Prop where
  peer : if r.peer.id ≠ 0 then p.id = r.peer.id else p.nodePub = r.peer.nodePub
  address : ∃ c, r.self.head? = some c ∧ self.head?.bind tlWarmCidrParse = some c
  identity : r.selfTag = warmTag nodePub ∧ r.ctlTag = warmTag controlPub

end TinyLink
