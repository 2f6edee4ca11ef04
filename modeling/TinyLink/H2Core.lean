import TinyLink.Hpack
import TinyLink.Library.ByteOrder

/-!
# The HTTP/2 engine: receiving

Embedding of the receiving half of `h2_core.c`. The two streams are named by their slot. Staged and
sent bytes are lists of frames; `OutFrame.encode` gives the bytes. The answers of the embedder's hooks
are a parameter, and the engine's state carries the log of the calls it made.
-/

namespace TinyLink

def h2FrameHdrLen : ℕ := 9
def h2DefaultWindow : ℤ := 65535
def h2MaxWindow : ℤ := 0x7fffffff
def h2MaxFrame : ℕ := 16384
def h2MaxContinuations : ℕ := 8
def h2CtlCap : ℕ := 64

inductive H2Type where
  | data
  | headers
  | priority
  | rstStream
  | settings
  | pushPromise
  | ping
  | goaway
  | windowUpdate
  | continuation
  | other (b : UInt8)
deriving DecidableEq

def H2Type.ofByte (b : UInt8) : H2Type :=
  match b.toNat with
  | 0 => .data
  | 1 => .headers
  | 2 => .priority
  | 3 => .rstStream
  | 4 => .settings
  | 5 => .pushPromise
  | 6 => .ping
  | 7 => .goaway
  | 8 => .windowUpdate
  | 9 => .continuation
  | _ => .other b

def H2Type.toByte : H2Type → UInt8
  | .data => 0
  | .headers => 1
  | .priority => 2
  | .rstStream => 3
  | .settings => 4
  | .pushPromise => 5
  | .ping => 6
  | .goaway => 7
  | .windowUpdate => 8
  | .continuation => 9
  | .other b => b

def h2FEndStream : UInt8 := 0x01
def h2FAck : UInt8 := 0x01
def h2FEndHeaders : UInt8 := 0x04
def h2FPadded : UInt8 := 0x08
def h2FPriority : UInt8 := 0x20

def hasFlag (flags flag : UInt8) : Bool := flags &&& flag ≠ 0

def h2NoError : ℕ := 0x0
def h2ProtocolError : ℕ := 0x1
def h2FlowControlError : ℕ := 0x3
def h2FrameSizeError : ℕ := 0x6
def h2RefusedStream : ℕ := 0x7
def h2Cancel : ℕ := 0x8
def h2CompressionError : ℕ := 0x9
def h2EnhanceYourCalm : ℕ := 0xb

/-- The identifiers of `enum { H2_SET_… }` that `setting` tells apart. -/
inductive H2Setting where
  | enablePush
  | maxConcurrentStreams
  | initialWindowSize
  | maxFrameSize
  | enableConnectProtocol
  | noRfc7540Priorities
  | other (id : ℕ)
deriving DecidableEq

def H2Setting.ofId : ℕ → H2Setting
  | 2 => .enablePush
  | 3 => .maxConcurrentStreams
  | 4 => .initialWindowSize
  | 5 => .maxFrameSize
  | 8 => .enableConnectProtocol
  | 9 => .noRfc7540Priorities
  | id => .other id

inductive H2Rc where
  | ok
  | errIo
  | errProto
  | errState
  | errSize
  | errStreams
deriving DecidableEq

def put32 (v : ℕ) : Bytes := ByteOrder.beBytes 4 v

def getBe (p : Bytes) : ℕ := p.foldl (fun n b => 256 * n + b.toNat) 0

def get32 (p : Bytes) : ℕ := getBe (p.take 4)

def putFh (len : ℕ) (type : H2Type) (flags : UInt8) (sid : ℕ) : Bytes :=
  ByteOrder.beBytes 3 len ++ [type.toByte, flags] ++ put32 sid

def h2Preface : Bytes := asciiBytes "PRI * HTTP/2.0\r\n\r\nSM\r\n\r\n"
def h2PrefaceLen : ℕ := 24

inductive OutFrame where
  | preface
  | frame (type : H2Type) (flags : UInt8) (sid : ℕ) (payload : Bytes)
deriving DecidableEq

def OutFrame.encode : OutFrame → Bytes
  | .preface => h2Preface
  | .frame type flags sid payload => putFh payload.length type flags sid ++ payload

def OutFrame.size : OutFrame → ℕ
  | .preface => h2PrefaceLen
  | .frame _ _ _ payload => h2FrameHdrLen + payload.length

def framesLen (b : List OutFrame) : ℕ := (b.map OutFrame.size).sum

/-- What the log says beside the hook calls. -/
inductive H2Note where
  | frame (type : H2Type) (flags : UInt8) (sid : ℕ)
  | setting (what : H2Setting) (v : ℕ)
  | windowUpdate (sid inc : ℕ)
  -- of an open stream
  | rstStream (sid code : ℕ)
  | accepted (sid status : ℕ)
  | opened (sid : ℕ) (body : Bytes)
  -- of the header blocks of an open stream: a field, and that a response head is whole
  | field (sid : ℕ) (f : HpackField)
  | head (sid : ℕ) (endStream : Bool)
deriving DecidableEq

/-- A call of an `h2_io_*` hook, with the stream it is about, or a note. -/
inductive H2Event where
  | send (frames : List OutFrame)
  | txSend (frames : List OutFrame)
  | onStatus (sid status : ℕ)
  | onHeader (sid : ℕ) (field : HpackField)
  | onData (sid : ℕ) (bytes : Bytes)
  | onSideStatus (sid status : ℕ)
  | onSideHeader (sid : ℕ) (field : HpackField)
  | onGoaway (last err : ℕ)
  | note (n : H2Note)
deriving DecidableEq

/-- The answers of the hooks, by what was called before. -/
structure H2Io where
  send : List H2Event → Bool
  txBuf : List H2Event → Option ℕ
  txSend : List H2Event → Bool
  onData : List H2Event → Bool

/-- `h2_stream_t`; a window of the peer's DATA is `recvWin`, of ours `sendWin`. -/
structure H2Stream where
  id : ℕ
  isOpen : Bool
  localEnd : Bool
  remoteEnd : Bool
  closed : Bool
  stop : Bool
  haveStatus : Bool
  final : Bool
  pseudoDone : Bool
  closeErr : ℕ
  status : ℕ
  sendWin : ℤ
  recvWin : ℤ
  consumed : ℤ
  contentLength : ℤ
  recvLen : ℕ
  body : Bytes
  bodyOff : ℕ
deriving DecidableEq

def H2Stream.zero : H2Stream :=
  ⟨0, false, false, false, false, false, false, false, false, 0, 0, 0, 0, 0, 0, 0, [], 0⟩

inductive H2Phase where
  | padlen
  | prio
  | body
  | pad
  | fixed
  | skip
deriving DecidableEq

/-- The frame parser; `fh` and `fix` are the bytes held (`fh_have`, `f_fix_have` of them). -/
structure H2Frame where
  fh : Bytes
  type : H2Type
  flags : UInt8
  phase : H2Phase
  pad : ℕ
  fix : Bytes
  ignore : Bool
  len : ℕ
  sid : ℕ
  left : ℕ
  bodyLeft : ℕ
deriving DecidableEq

structure H2Block where
  contSid : ℕ
  contCount : ℕ
  endStream : Bool
  ignore : Bool
  trailer : Bool
  error : Bool
  hpack : HpackListDec

structure H2Peer where
  initialWin : ℕ
  maxFrame : ℕ
  enableConnect : ℕ
  maxStreams : ℕ
deriving DecidableEq

structure H2Core where
  started : Bool
  dead : Bool
  goaway : Bool
  sentSizeUpdate : Bool
  goawayLast : ℕ
  nextId : ℕ
  lastId : ℕ
  settingsUnacked : ℕ
  connSendWin : ℤ
  connRecvWin : ℤ
  connConsumed : ℤ
  peer : H2Peer
  f : H2Frame
  blk : H2Block
  s : H2Stream
  side : H2Stream
  ctl : List OutFrame
  log : List H2Event

abbrev H2Res := H2Core × H2Rc

def H2Res.andThen (r : H2Res) (k : H2Core → H2Res) : H2Res := if r.2 = .ok then k r.1 else r

inductive H2Slot where
  | main
  | side
deriving DecidableEq

namespace H2Core

@[simp] def emit (h : H2Core) (e : H2Event) : H2Core := { h with log := h.log ++ [e] }

@[simp] def note (h : H2Core) (n : H2Note) : H2Core := h.emit (.note n)

def stream (h : H2Core) : H2Slot → H2Stream
  | .main => h.s
  | .side => h.side

def setStream (h : H2Core) (w : H2Slot) (s : H2Stream) : H2Core :=
  match w with
  | .main => { h with s := s }
  | .side => { h with side := s }

def streamOf (h : H2Core) (sid : ℕ) : Option H2Slot :=
  if h.s.isOpen && sid = h.s.id then some .main
  else if h.side.isOpen && sid = h.side.id then some .side
  else none

/-- The stream of the DATA frame in progress, unless it is ignored. -/
def dataStream (h : H2Core) : Option H2Slot := if h.f.ignore then none else h.streamOf h.f.sid

end H2Core

def H2Stream.close (s : H2Stream) (code : ℕ) : H2Stream :=
  { s with isOpen := false, closed := true, closeErr := code }

def closeStream (h : H2Core) (w : H2Slot) (code : ℕ) : H2Core :=
  h.setStream w ((h.stream w).close code)

section Receive
variable (io : H2Io)

def ctlFlush (h : H2Core) : H2Res :=
  if h.ctl.isEmpty then (h, .ok)
  else
    let h' := { h with ctl := [], log := h.log ++ [.send h.ctl] }
    if io.send h.log then (h', .ok) else ({ h' with dead := true }, .errIo)

def ctlFrame (h : H2Core) (type : H2Type) (flags : UInt8) (sid : ℕ) (payload : Bytes) : H2Res :=
  let r :=
    if framesLen h.ctl + h2FrameHdrLen + payload.length > h2CtlCap then ctlFlush io h else (h, .ok)
  r.andThen fun h => ({ h with ctl := h.ctl ++ [.frame type flags sid payload] }, .ok)

def ctlU32 (h : H2Core) (type : H2Type) (sid v : ℕ) : H2Res := ctlFrame io h type 0 sid (put32 v)

def connError (h : H2Core) (code : ℕ) : H2Res :=
  if h.dead then (h, .errProto)
  else
    let r := (ctlFrame io h .goaway 0 0 (put32 0 ++ put32 code)).andThen (ctlFlush io)
    ({ r.1 with dead := true }, .errProto)

def streamError (h : H2Core) (code : ℕ) : H2Res :=
  let r :=
    match h.streamOf h.f.sid with
    | some w =>
      let r := ctlU32 io h .rstStream (h.stream w).id code
      (closeStream r.1 w code, r.2)
    | none => (h, .ok)
  ({ r.1 with f := { r.1.f with ignore := true }, blk := { r.1.blk with error := true } }, r.2)

def idleStream (h : H2Core) (sid : ℕ) : Bool := sid ≠ 0 && (sid % 2 = 0 || sid > h.lastId)

def h2WuThreshold : ℤ := h2DefaultWindow / 2

/-- `data_consumed` for the connection window. -/
def connConsume (h : H2Core) (n : ℕ) : H2Res :=
  let h := { h with connConsumed := h.connConsumed + n }
  if h.connConsumed ≥ h2WuThreshold then
    let r := ctlU32 io h .windowUpdate 0 h.connConsumed.toNat
    ({ r.1 with connRecvWin := h.connRecvWin + h.connConsumed, connConsumed := 0 }, r.2)
  else (h, .ok)

/-- `data_consumed` for the window of the frame's stream; not renewed behind END_STREAM. -/
def streamConsume (h : H2Core) (n : ℕ) : H2Res :=
  match h.dataStream with
  | none => (h, .ok)
  | some w =>
    let s := { h.stream w with consumed := (h.stream w).consumed + n }
    if s.consumed ≥ h2WuThreshold && !hasFlag h.f.flags h2FEndStream then
      let r := ctlU32 io h .windowUpdate s.id s.consumed.toNat
      (r.1.setStream w { s with recvWin := s.recvWin + s.consumed, consumed := 0 }, r.2)
    else (h.setStream w s, .ok)

def dataConsumed (h : H2Core) (n : ℕ) : H2Res :=
  (connConsume io h n).andThen fun h => streamConsume io h n

/-- More of a body than the response allows. -/
def H2Stream.refusesData (s : H2Stream) : Bool :=
  !s.final || (s.contentLength ≥ 0 && s.recvLen > s.contentLength)

def dataBytes (h : H2Core) (p : Bytes) : H2Res :=
  match h.dataStream with
  | none => (h, .ok)
  | some w =>
    let s := { h.stream w with recvLen := (h.stream w).recvLen + p.length }
    let h := h.setStream w s
    if s.refusesData then streamError io h h2ProtocolError
    -- the side stream's body is counted and dropped
    else if w = .main && !s.stop && p.length > 0 then
      (({ h with s := { s with stop := io.onData h.log } }).emit (.onData s.id p), .ok)
    else (h, .ok)

def remoteEnd (h : H2Core) (w : H2Slot) : H2Res :=
  let s := h.stream w
  if !s.final || (s.contentLength ≥ 0 && s.contentLength ≠ s.recvLen) then
    streamError io h h2ProtocolError
  else
    let h := h.setStream w { s with remoteEnd := true }
    if s.localEnd then (closeStream h w h2NoError, .ok)
    else
      -- a complete response before our body was out
      let r := ctlU32 io h .rstStream s.id h2Cancel
      (closeStream r.1 w h2NoError, r.2)

def nameIs (f : HpackField) (n : String) : Bool :=
  f.nameTotal = (asciiBytes n).length && f.name.take (asciiBytes n).length = asciiBytes n

def toLower (c : UInt8) : UInt8 := if 0x41 ≤ c && c ≤ 0x5a then c + 32 else c

def valueIeq (f : HpackField) (v : String) : Bool :=
  f.valueTotal = (asciiBytes v).length &&
    (f.value.take (asciiBytes v).length).map toLower = asciiBytes v

def parseDigit (v : ℕ) (c : UInt8) : Option ℕ :=
  if c < 0x30 || c > 0x39 || v > (2 ^ 63 - 1 - 9) / 10 then none
  else some (v * 10 + (c.toNat - 0x30))

/-- One or more digits without overflow; else -1. -/
def parseUint (f : HpackField) : ℤ :=
  if f.valueTotal = 0 || f.flags.valueCut then -1
  else
    match f.value.foldlM parseDigit 0 with
    | some v => v
    | none => -1

/-- What `field_cb` does with a field: nothing more, the jump to `bad`, the status callback or
the header callback. -/
inductive FieldVerdict where
  | skip
  | bad
  | status
  | header
deriving DecidableEq

def isConnField (f : HpackField) : Bool :=
  nameIs f "connection" || nameIs f "keep-alive" || nameIs f "proxy-connection" ||
    nameIs f "transfer-encoding" || nameIs f "upgrade"

/-- `field_cb` for the pseudo field `f` of a well-formed name and value. -/
def pseudoField (s : H2Stream) (trailer : Bool) (f : HpackField) : H2Stream × FieldVerdict :=
  if trailer || s.pseudoDone || !nameIs f ":status" || s.haveStatus then (s, .bad)
  else if f.valueTotal ≠ 3 then (s, .bad)
  else
    let st := parseUint f
    if st < 0 || st = 101 then (s, .bad)
    else ({ s with haveStatus := true, status := st.toNat }, .status)

/-- `field_cb` for the regular field `f` of a well-formed name and value. -/
def regularField (s : H2Stream) (f : HpackField) : H2Stream × FieldVerdict :=
  let s := { s with pseudoDone := true }
  if nameIs f "content-length" then
    if s.status = 204 then
      if s.contentLength ≠ -1 || !valueIeq f "0" then (s, .bad)
      else ({ s with contentLength := 0 }, .skip)
    else if s.status / 100 = 1 || s.contentLength ≠ -1 then (s, .bad)
    else
      let s := { s with contentLength := parseUint f }
      if s.contentLength < 0 then (s, .bad) else (s, .header)
  else if isConnField f then (s, .bad)
  else if nameIs f "te" && !valueIeq f "trailers" then (s, .bad)
  else (s, .header)

def streamField (s : H2Stream) (trailer : Bool) (f : HpackField) : H2Stream × FieldVerdict :=
  let pseudo := f.name.head? = some 0x3a
  if f.flags.nameBad || f.flags.nameUpper then
    if pseudo || f.flags.nameUpper then (s, .bad) else ({ s with pseudoDone := true }, .skip)
  else if f.flags.valueBad then
    if pseudo then (s, .bad) else ({ s with pseudoDone := true }, .skip)
  else if pseudo then pseudoField s trailer f
  else regularField s f

@[simp] def H2Slot.statusEvent : H2Slot → ℕ → ℕ → H2Event
  | .main => .onStatus
  | .side => .onSideStatus

@[simp] def H2Slot.headerEvent : H2Slot → ℕ → HpackField → H2Event
  | .main => .onHeader
  | .side => .onSideHeader

def fieldCb (h : H2Core) (f : HpackField) : H2Core :=
  if h.blk.ignore || h.blk.error then h
  else
    match h.streamOf h.f.sid with
    | none => h
    | some w =>
      let r := streamField (h.stream w) h.blk.trailer f
      let h := (h.setStream w r.1).note (.field (h.stream w).id f)
      match r.2 with
      | .skip => h
      | .bad => (streamError io h h2ProtocolError).1
      | .status => h.emit (w.statusEvent r.1.id r.1.status)
      | .header => if h.blk.trailer then h else h.emit (w.headerEvent r.1.id f)

inductive BlockVerdict where
  | bad
  | informational
  | final
deriving DecidableEq

/-- `block_end` for a complete block that is no trailer. -/
def responseBlock (s : H2Stream) (endStream : Bool) : H2Stream × BlockVerdict :=
  if !s.haveStatus then (s, .bad)
  else if s.status / 100 = 1 then
    -- a final one follows
    ({ s with haveStatus := false, pseudoDone := false, contentLength := -1 },
      if endStream then .bad else .informational)
  else
    let s := { s with final := true }
    (if s.status = 204 || s.status = 304 then { s with contentLength := 0 } else s, .final)

/-- `block_end` on the open stream of the block. -/
def blockStream (h : H2Core) (w : H2Slot) : H2Res :=
  if h.blk.trailer then
    -- trailers must end it
    if h.blk.endStream then remoteEnd io h w else streamError io h h2ProtocolError
  else
    let r := responseBlock (h.stream w) h.blk.endStream
    let h := (h.setStream w r.1).note (.head (h.stream w).id h.blk.endStream)
    match r.2 with
    | .bad => streamError io h h2ProtocolError
    | .informational => (h, .ok)
    | .final =>
      let h := h.note (.accepted r.1.id r.1.status)
      if h.blk.endStream then remoteEnd io h w else (h, .ok)

def blockEnd (h : H2Core) : H2Res :=
  if hpackDecEnd h.blk.hpack ≠ .ok then connError io h h2CompressionError
  else
    let h := { h with blk := { h.blk with contSid := 0 } }
    if h.blk.ignore || h.blk.error then (h, .ok)
    else
      match h.streamOf h.f.sid with
      | none => (h, .ok)
      | some w => blockStream io h w

def blockBytes (h : H2Core) (p : Bytes) : H2Res :=
  let r := hpackDecFeed (fun h f => (fieldCb io h f, true)) h.blk.hpack h p
  let h := { r.ctx with blk := { r.ctx.blk with hpack := r.dec } }
  if r.rc ≠ .ok then connError io h h2CompressionError
  else (h, if h.dead then .errIo else .ok)

def shiftWindow (h : H2Core) (w : H2Slot) (delta : ℤ) : H2Res :=
  let s := h.stream w
  if !s.isOpen then (h, .ok)
  else if s.sendWin + delta > h2MaxWindow then connError io h h2FlowControlError
  else (h.setStream w { s with sendWin := s.sendWin + delta }, .ok)

def setting (h : H2Core) (what : H2Setting) (v : ℕ) : H2Res :=
  match what with
  | .enablePush => if v ≠ 0 then connError io h h2ProtocolError else (h, .ok)
  | .initialWindowSize =>
    if v > h2MaxWindow then connError io h h2FlowControlError
    else
      let delta := (v : ℤ) - h.peer.initialWin
      (shiftWindow io h .main delta).andThen fun h =>
        (shiftWindow io h .side delta).andThen fun h =>
          ({ h with peer := { h.peer with initialWin := v } }, .ok)
  | .maxFrameSize =>
    if v < 16384 || v > 0xffffff then connError io h h2ProtocolError
    else ({ h with peer := { h.peer with maxFrame := v } }, .ok)
  | .enableConnectProtocol =>
    if v > 1 || (h.peer.enableConnect ≠ 0 && v = 0) then connError io h h2ProtocolError
    else ({ h with peer := { h.peer with enableConnect := v } }, .ok)
  | .noRfc7540Priorities => if v > 1 then connError io h h2ProtocolError else (h, .ok)
  | .maxConcurrentStreams => ({ h with peer := { h.peer with maxStreams := v } }, .ok)
  | .other _ => (h, .ok)

def fixedLen : H2Type → ℕ
  | .settings => 6
  | .ping => 8
  | .goaway => 8
  | _ => 4

/-- `fixed_done` on a GOAWAY: streams above its last one were never processed. -/
def goawayDone (h : H2Core) (last err : ℕ) : H2Res :=
  if (last ≠ 0 && last % 2 = 0) || last > h.goawayLast then connError io h h2ProtocolError
  else
    let h := ({ h with goaway := true, goawayLast := last }).emit (.onGoaway last err)
    let h := if h.s.isOpen && h.s.id > last then closeStream h .main h2RefusedStream else h
    (if h.side.isOpen && h.side.id > last then closeStream h .side h2RefusedStream else h, .ok)

def windowUpdateDone (h : H2Core) (inc : ℕ) : H2Res :=
  if h.f.sid = 0 then
    if inc = 0 then connError io h h2ProtocolError
    else if h.connSendWin + inc > h2MaxWindow then connError io h h2FlowControlError
    else ({ h with connSendWin := h.connSendWin + inc }, .ok)
  else
    match h.streamOf h.f.sid with
    | none => (h, .ok)
    | some w =>
      let s := h.stream w
      if inc = 0 then streamError io h h2ProtocolError
      else if s.sendWin + inc > h2MaxWindow then streamError io h h2FlowControlError
      else (h.setStream w { s with sendWin := s.sendWin + inc }, .ok)

def fixedDone (h : H2Core) : H2Res :=
  let p := h.f.fix
  match h.f.type with
  | .settings =>
    let what := H2Setting.ofId (getBe (p.take 2))
    let v := get32 (p.drop 2)
    setting io (h.note (.setting what v)) what v
  | .ping => if hasFlag h.f.flags h2FAck then (h, .ok) else ctlFrame io h .ping h2FAck 0 (p.take 8)
  | .goaway => goawayDone io h (get32 p % 2 ^ 31) (get32 (p.drop 4))
  | .rstStream =>
    match h.streamOf h.f.sid with
    | none => (h, .ok)
    | some w => (closeStream (h.note (.rstStream h.f.sid (get32 p))) w (get32 p), .ok)
  | .windowUpdate =>
    let inc := get32 p % 2 ^ 31
    windowUpdateDone io (h.note (.windowUpdate h.f.sid inc)) inc
  | _ => (h, .ok)

def chargeStream (h : H2Core) : H2Res :=
  match h.streamOf h.f.sid with
  | none => ({ h with f := { h.f with ignore := true } }, .ok)
  | some w =>
    let s := { h.stream w with recvWin := (h.stream w).recvWin - h.f.len }
    let h := { h.setStream w s with f := { h.f with ignore := false } }
    if s.recvWin < 0 then streamError io h h2FlowControlError else (h, .ok)

def beginData (h : H2Core) : H2Res :=
  if h.f.sid = 0 || idleStream h h.f.sid then connError io h h2ProtocolError
  else if hasFlag h.f.flags h2FPadded && h.f.len < 1 then connError io h h2FrameSizeError
  else
    -- padding counts, and so do streams no longer tracked
    let h := { h with connRecvWin := h.connRecvWin - h.f.len }
    if h.connRecvWin < 0 then connError io h h2FlowControlError
    else
      (chargeStream io h).andThen fun h =>
        ({ h with f := { h.f with
          bodyLeft := h.f.len
          phase := if hasFlag h.f.flags h2FPadded then .padlen else .body } }, .ok)

def prioLen (flags : UInt8) : ℕ := if hasFlag flags h2FPriority then 5 else 0

def headersMin (flags : UInt8) : ℕ := (if hasFlag flags h2FPadded then 1 else 0) + prioLen flags

def beginHeaders (h : H2Core) : H2Res :=
  if h.f.sid = 0 || idleStream h h.f.sid then connError io h h2ProtocolError
  else if h.f.len < headersMin h.f.flags then connError io h h2FrameSizeError
  else
    let stream := h.streamOf h.f.sid
    ({ h with
      blk :=
        { contSid := if hasFlag h.f.flags h2FEndHeaders then 0 else h.f.sid
          contCount := 0
          endStream := hasFlag h.f.flags h2FEndStream
          ignore := stream.isNone
          trailer := stream.any fun w => (h.stream w).final
          error := false
          hpack := hpackDecBegin h.blk.hpack }
      f := { h.f with
        bodyLeft := h.f.len - prioLen h.f.flags
        phase :=
          if hasFlag h.f.flags h2FPadded then .padlen
          else if hasFlag h.f.flags h2FPriority then .prio
          else .body } }, .ok)

/-- The frame that the header `b` announces. The source keeps an old `f_body_left`, which is
written again before it is read. -/
def H2Frame.ofHeader (b : Bytes) : H2Frame :=
  let len := getBe (b.take 3)
  { fh := b
    type := .ofByte (b.getD 3 0)
    flags := b.getD 4 0
    phase := .skip
    pad := 0
    fix := []
    ignore := false
    len := len
    sid := get32 (b.drop 5) % 2 ^ 31
    left := len
    bodyLeft := 0 }

def beginContinuation (h : H2Core) : H2Res :=
  if h.blk.contSid = 0 then connError io h h2ProtocolError
  else
    let h := { h with blk := { h.blk with contCount := h.blk.contCount + 1 } }
    if h.blk.contCount > h2MaxContinuations then connError io h h2EnhanceYourCalm
    else
      ({ h with
        blk := { h.blk with
          contSid := if hasFlag h.f.flags h2FEndHeaders then 0 else h.blk.contSid }
        f := { h.f with bodyLeft := h.f.len, phase := .body } }, .ok)

/-- `frame_begin` for the frames with a fixed-size payload: the stream and the length they need. -/
def beginFixed (h : H2Core) (sidOk lenOk : Bool) : H2Res :=
  if !sidOk then connError io h h2ProtocolError
  else if !lenOk then connError io h h2FrameSizeError
  else ({ h with f := { h.f with phase := .fixed } }, .ok)

def H2Core.headed (h : H2Core) (f : H2Frame) : H2Core :=
  ({ h with f := f }).note (.frame f.type f.flags f.sid)

def beginFrame (h : H2Core) : H2Res :=
  let sid := h.f.sid
  let len := h.f.len
  if len > h2MaxFrame then connError io h h2FrameSizeError
  else if h.blk.contSid ≠ 0 && (h.f.type ≠ .continuation || sid ≠ h.blk.contSid) then
    connError io h h2ProtocolError
  else
    match h.f.type with
    | .data => beginData io h
    | .headers => beginHeaders io h
    | .continuation => beginContinuation io h
    | .priority =>
      if sid = 0 then connError io h h2ProtocolError
      else if len ≠ 5 then connError io h h2FrameSizeError
      else (h, .ok)
    | .rstStream => beginFixed io h (sid ≠ 0 && !idleStream h sid) (len = 4)
    | .settings =>
      beginFixed io h (sid = 0) (if hasFlag h.f.flags h2FAck then len = 0 else len % 6 = 0)
    | .pushPromise => connError io h h2ProtocolError
    | .ping => beginFixed io h (sid = 0) (len = 8)
    | .goaway => beginFixed io h (sid = 0) (len ≥ 8)
    | .windowUpdate =>
      -- the length is checked first
      if len ≠ 4 then connError io h h2FrameSizeError
      else if idleStream h sid then connError io h h2ProtocolError
      else ({ h with f := { h.f with phase := .fixed } }, .ok)
    | .other _ => (h, .ok)

def frameBegin (h : H2Core) : H2Res := beginFrame io (h.headed (.ofHeader h.f.fh))

def frameEnd (h : H2Core) : H2Res :=
  match h.f.type with
  | .data =>
    match h.dataStream with
    | none => (h, .ok)
    | some w => if hasFlag h.f.flags h2FEndStream then remoteEnd io h w else (h, .ok)
  | .headers | .continuation =>
    if hasFlag h.f.flags h2FEndHeaders then blockEnd io h else (h, .ok)
  | .settings =>
    if hasFlag h.f.flags h2FAck then
      if h.settingsUnacked = 0 then connError io h h2ProtocolError
      else ({ h with settingsUnacked := h.settingsUnacked - 1 }, .ok)
    else ctlFrame io h .settings h2FAck 0 []
  | .ping | .goaway | .rstStream | .windowUpdate => fixedDone io h
  | _ => (h, .ok)

def H2Frame.prio (f : H2Frame) : ℕ := if f.type = .data then 0 else prioLen f.flags

def padLen (h : H2Core) (b : UInt8) : H2Res :=
  let h := { h with f := { h.f with pad := b.toNat } }
  if h.f.pad + h.f.prio > h.f.left - 1 then connError io h h2ProtocolError
  else
    ({ h with f := { h.f with
      bodyLeft := h.f.left - 1 - h.f.prio - h.f.pad
      phase := if h.f.prio ≠ 0 then .prio else .body } }, .ok)

def prioBytes (h : H2Core) (p : Bytes) : H2Res :=
  let fix := h.f.fix ++ p
  ({ h with f :=
    if fix.length = 5 then { h.f with fix := [], phase := .body } else { h.f with fix := fix } }, .ok)

def bodyChunk (h : H2Core) (p : Bytes) : H2Res :=
  if p.length > 0 then
    if h.f.type = .data then dataBytes io h p else blockBytes io h p
  else (h, .ok)

def H2Frame.bodyTaken (f : H2Frame) (n : ℕ) : H2Frame :=
  { f with
    bodyLeft := f.bodyLeft - n
    phase := if f.bodyLeft - n = 0 then .pad else f.phase }

def bodyBytes (h : H2Core) (p : Bytes) : H2Res :=
  let r := bodyChunk io h p
  ({ r.1 with f := r.1.f.bodyTaken p.length }, r.2)

/-- `PH_FIXED`; SETTINGS entries are processed one at a time, other frames at their end. -/
def fixedBytes (h : H2Core) (p : Bytes) : H2Res :=
  let h := { h with f := { h.f with fix := h.f.fix ++ p } }
  if h.f.fix.length = fixedLen h.f.type then
    if h.f.type = .settings then
      let r := fixedDone io h
      ({ r.1 with f := { r.1.f with fix := [] } }, r.2)
    else ({ h with f := { h.f with phase := .skip } }, .ok)
  else (h, .ok)

def H2Frame.take (f : H2Frame) (n : ℕ) : ℕ :=
  match f.phase with
  | .padlen => 1
  | .prio => min n (5 - f.fix.length)
  | .body => min n f.bodyLeft
  | .fixed => min n (fixedLen f.type - f.fix.length)
  | .pad => n
  | .skip => n

def phaseBytes (h : H2Core) (p : Bytes) : H2Res :=
  match h.f.phase with
  | .padlen => padLen io h (p.headD 0)
  | .prio => prioBytes h p
  | .body => bodyBytes io h p
  | .fixed => fixedBytes io h p
  | .pad => (h, .ok)
  | .skip => (h, .ok)

def passDone (h : H2Core) (n : ℕ) : H2Res :=
  let r := if h.f.type = .data then dataConsumed io h n else (h, .ok)
  r.andThen fun h => ({ h with f := { h.f with left := h.f.left - n } }, .ok)

def payloadPass (h : H2Core) (p : Bytes) : H2Res :=
  (phaseBytes io h p).andThen fun h => passDone io h p.length

/-- The loop of `frame_payload`; `fuel` bounds its passes. -/
def payloadLoop : ℕ → H2Core → Bytes → H2Res
  | 0, h, _ => (h, .ok)
  | fuel + 1, h, p =>
    if p.isEmpty then (h, .ok)
    else
      let n := h.f.take p.length
      (payloadPass io h (p.take n)).andThen fun h => payloadLoop fuel h (p.drop n)

/-- `frame_payload`: of two passes in a row, one takes a byte. -/
def framePayload (h : H2Core) (p : Bytes) : H2Res := payloadLoop io (2 * p.length + 1) h p

def frameDone (h : H2Core) : H2Res :=
  if h.f.fh.length = h2FrameHdrLen && h.f.left = 0 then
    let r := frameEnd io h
    ({ r.1 with f := { r.1.f with fh := [] } }, r.2)
  else (h, .ok)

/-- The loop of `feed`; `fuel` bounds its passes. -/
def feedLoop : ℕ → H2Core → Bytes → H2Res
  | 0, h, _ => (h, .ok)
  | fuel + 1, h, p =>
    if p.isEmpty then (h, .ok)
    else if h.f.fh.length < h2FrameHdrLen then
      let n := h2FrameHdrLen - h.f.fh.length
      let h := { h with f := { h.f with fh := h.f.fh ++ p.take n } }
      if h.f.fh.length < h2FrameHdrLen then (h, .ok)
      else
        ((frameBegin io h).andThen (frameDone io)).andThen fun h => feedLoop fuel h (p.drop n)
    else
      let n := h.f.left
      ((framePayload io h (p.take n)).andThen (frameDone io)).andThen fun h =>
        feedLoop fuel h (p.drop n)

/-- `feed`: a pass takes at least one byte, or ends a frame that had none left. -/
def feed (h : H2Core) (p : Bytes) : H2Res :=
  if h.dead then (h, .errState)
  else
    let r := feedLoop io (2 * p.length) h p
    (r.1, if r.1.dead && r.2 = .ok then .errIo else r.2)

def h2cFeed (h : H2Core) (p : Bytes) : H2Res := (feed io h p).andThen (ctlFlush io)

def h2cFeedStaged (h : H2Core) (p : Bytes) : H2Res := feed io h p

end Receive

end TinyLink
