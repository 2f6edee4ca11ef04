import TinyLink.H2Core
import TinyLink.Library.Execution

/-!
# The HTTP/2 engine: sending, and its sessions

Embedding of the sending half of `h2_core.c`: requests, pairs of requests, the pump and the
session start. The buffer the embedder lends is the list of frames built in it. A session is a run
of the engine's calls.
-/

namespace TinyLink
open StepSystem

structure H2Field where
  name : Bytes
  value : Bytes

/-- `h2_req_t`; no body is an empty one. -/
structure H2Req where
  fields : List H2Field
  body : Bytes

section Send
variable (io : H2Io)

def H2Stream.bodyRem (s : H2Stream) : ℕ := s.body.length - s.bodyOff

def H2Core.sendWindow (h : H2Core) (w : H2Slot) : ℤ := min h.connSendWin (h.stream w).sendWin

/-- The size of the next DATA frame. -/
def dataLen (h : H2Core) (w : H2Slot) (room : ℕ) : ℕ :=
  let rem := (h.stream w).bodyRem
  let n := if rem > 0 && rem > h.sendWindow w then (h.sendWindow w).toNat else rem
  let n := if n > h.peer.maxFrame then h.peer.maxFrame else n
  if n > room - h2FrameHdrLen then room - h2FrameHdrLen else n

def putDataFrame (h : H2Core) (w : H2Slot) (n : ℕ) : H2Core × OutFrame :=
  let s := h.stream w
  let last := n = s.bodyRem
  (({ h with connSendWin := h.connSendWin - n }).setStream w { s with
    bodyOff := s.bodyOff + n
    sendWin := s.sendWin - n
    localEnd := s.localEnd || last },
    .frame .data (if last then h2FEndStream else 0) s.id ((s.body.drop s.bodyOff).take n))

/-- The loop of `put_data` on stream `w`; `b` is the buffer of size `cap` so far. -/
def putDataLoop (w : H2Slot) (cap : ℕ) : ℕ → H2Core → List OutFrame → H2Core × List OutFrame
  | 0, h, b => (h, b)
  | fuel + 1, h, b =>
    let s := h.stream w
    let room := cap - framesLen b
    if s.isOpen && !s.localEnd && room ≥ h2FrameHdrLen then
      if s.bodyRem > 0 && h.sendWindow w ≤ 0 then (h, b)
      else
        let n := dataLen h w room
        if s.bodyRem > 0 && n = 0 then (h, b)
        else
          let r := putDataFrame h w n
          putDataLoop w cap fuel r.1 (b ++ [r.2])
    else (h, b)

/-- `put_data`: every frame but the last takes a byte of the body. -/
def putData (h : H2Core) (w : H2Slot) (cap : ℕ) (b : List OutFrame) : H2Core × List OutFrame :=
  putDataLoop w cap ((h.stream w).bodyRem + 1) h b

/-- `tx_begin`: the size of the buffer, and the staged control frames put into it. -/
def txBegin (h : H2Core) : Option (ℕ × H2Core × List OutFrame) :=
  (io.txBuf h.log).bind fun cap =>
    if cap < h2CtlCap + h2FrameHdrLen + 1 then none else some (cap, { h with ctl := [] }, h.ctl)

def txEnd (h : H2Core) (b : List OutFrame) : H2Res :=
  if b.isEmpty then (h, .ok)
  else if io.txSend h.log then (h.emit (.txSend b), .ok)
  else ({ h.emit (.txSend b) with dead := true }, .errIo)

def pumpWants (h : H2Core) : Bool :=
  h.s.isOpen && !h.s.localEnd && !(h.s.bodyRem > 0 && h.sendWindow .main ≤ 0)

def pumpPass (h : H2Core) : H2Res :=
  match txBegin io h with
  | none => (h, .errIo)
  | some (cap, h, b) =>
    let r := putData h .main cap b
    txEnd io r.1 r.2

/-- The loop of `h2c_pump`; `none` when `fuel` passes do not end it. -/
def pumpLoop : ℕ → H2Core → Option H2Res
  | fuel, h =>
    if !pumpWants h then some (h, .ok)
    else
      match fuel with
      | 0 => none
      | fuel + 1 =>
        let r := pumpPass io h
        if r.2 = .ok then pumpLoop fuel r.1 else some r

/-- `h2c_pump`: every pass sends a byte of the body, or ends it. -/
def h2cPump (h : H2Core) : H2Res :=
  if h.dead then (h, .errState)
  else (pumpLoop io (h.s.bodyRem + 1) h).getD (h, .ok)

def putFields (cap : ℕ) : ℕ → List H2Field → Option Bytes
  | _, [] => some []
  | o, fld :: flds =>
    (hpackPutField (cap - o) fld.name fld.value).bind fun n =>
      (putFields cap (o + n.length) flds).map (n ++ ·)

/-- `memset` and the fields that `open_stream` sets. -/
def H2Stream.fresh (sid initialWin : ℕ) (body : Bytes) : H2Stream :=
  { H2Stream.zero with
    id := sid
    isOpen := true
    sendWin := initialWin
    recvWin := h2DefaultWindow
    contentLength := -1
    body := body }

/-- `open_stream`; `none` is `H2C_ERR_SIZE`, with nothing changed. -/
def openStream (h : H2Core) (w : H2Slot) (r : H2Req) (cap : ℕ) (b : List OutFrame) :
    Option (H2Core × List OutFrame) :=
  if cap - framesLen b < h2FrameHdrLen + 1 then none
  else
    let upd : Bytes := if h.sentSizeUpdate then [] else [0x20]
    (putFields cap (framesLen b + h2FrameHdrLen + upd.length) r.fields).bind fun flds =>
      let block := upd ++ flds
      if block.length > h.peer.maxFrame then none
      else
        let sid := h.nextId
        let h := { h with nextId := sid + 2, lastId := sid, sentSizeUpdate := true }
        let h := h.setStream w (.fresh sid h.peer.initialWin r.body)
        some (putData h w cap (b ++ [.frame .headers h2FEndHeaders sid block]))

/-- The side request of a pair, if any; the last component says whether all of it fits. -/
def openSide (h : H2Core) (side : Option H2Req) (cap : ℕ) (b : List OutFrame) :
    H2Core × List OutFrame × Bool :=
  match side with
  | none => (h, b, true)
  | some r =>
    match openStream h .side r cap b with
    | none => (h, b, false)
    | some (h, b) => (h, b, h.side.localEnd)

/-- The state of a failed request: what was spent since `h₀` is taken back. -/
def rollback (h₀ h : H2Core) (paired : Bool) : H2Core :=
  { h with
    side := if paired then .zero else h.side
    s := { h.s with isOpen := false }
    nextId := h₀.nextId
    lastId := h₀.lastId
    sentSizeUpdate := h₀.sentSizeUpdate
    connSendWin := h₀.connSendWin }

def noteOpened (h : H2Core) (paired : Bool) : H2Core :=
  let h := if paired then h.note (.opened h.side.id h.side.body) else h
  h.note (.opened h.s.id h.s.body)

def requestCheck (h : H2Core) (paired : Bool) : H2Rc :=
  if !h.started || h.dead || h.goaway || h.s.isOpen || (paired && h.side.isOpen) then .errState
  else if h.nextId > (if paired then 0x7ffffffd else 0x7fffffff) then .errState
  else if paired && h.peer.maxStreams < 2 then .errStreams
  else .ok

def h2cRequestPair (h : H2Core) (side : Option H2Req) (req : H2Req) : H2Res :=
  let rc := requestCheck h side.isSome
  if rc ≠ .ok then (h, rc)
  else
    match txBegin io h with
    | none => (h, .errIo)
    | some (cap, h₀, ctl) =>
      let (h₁, b₁, whole) := openSide h₀ side cap ctl
      match if whole then openStream h₁ .main req cap b₁ else none with
      | none =>
        let r := txEnd io (rollback h₀ h₁ side.isSome) ctl
        (r.1, if r.2 = .ok then .errSize else r.2)
      | some (h₂, b₂) => (txEnd io (noteOpened h₂ side.isSome) b₂).andThen (h2cPump io)

def h2cRequest (h : H2Core) (fields : List H2Field) (body : Bytes) : H2Res :=
  h2cRequestPair io h none ⟨fields, body⟩

def h2cCancelSide (h : H2Core) : H2Res :=
  if !h.side.isOpen then (h, .ok)
  else if h.dead then (h, .errState)
  else
    let r := ctlU32 io h .rstStream h.side.id h2Cancel
    H2Res.andThen (closeStream r.1 .side h2Cancel, r.2) (ctlFlush io)

def h2OurSettings : Bytes := [0, 1, 0, 0, 0, 0, 0, 2, 0, 0, 0, 0]

def h2cStart (h : H2Core) : H2Res :=
  if h.started then (h, .errState)
  else
    let h := { h with ctl := [.preface] }
    ((ctlFrame io h .settings 0 0 h2OurSettings).andThen (ctlFlush io)).andThen fun h =>
      ({ h with settingsUnacked := 1, started := true }, .ok)

end Send

def h2cInit : H2Core where
  started := false
  dead := false
  goaway := false
  sentSizeUpdate := false
  goawayLast := 0x7fffffff
  nextId := 1
  lastId := 0
  settingsUnacked := 0
  connSendWin := h2DefaultWindow
  connRecvWin := h2DefaultWindow
  connConsumed := 0
  peer := ⟨65535, h2MaxFrame, 0, 0xffffffff⟩
  f := ⟨[], .data, 0, .padlen, 0, [], false, 0, 0, 0, 0⟩
  blk := ⟨0, 0, false, false, false, false, hpackDecInit 0 0⟩
  s := .zero
  side := .zero
  ctl := []
  log := []

inductive H2Call where
  | start
  | request (side : Option H2Req) (req : H2Req)
  | pump
  | feed (bytes : Bytes)
  | feedStaged (bytes : Bytes)
  | cancelSide

def h2Call (io : H2Io) (h : H2Core) : H2Call → H2Res
  | .start => h2cStart io h
  | .request side req => h2cRequestPair io h side req
  | .pump => h2cPump io h
  | .feed bytes => h2cFeed io h bytes
  | .feedStaged bytes => h2cFeedStaged io h bytes
  | .cancelSide => h2cCancelSide io h

/-- A session: any calls, in any order, whatever they return. -/
abbrev H2Run (io : H2Io) :=
  Execution (· = h2cInit) fun h (a : H2Call) => some (h2Call io h a).1

def H2Io.willing (cap : ℕ) : H2Io where
  send := fun _ => true
  txBuf := fun _ => some cap
  txSend := fun _ => true
  onData := fun _ => false

end TinyLink
