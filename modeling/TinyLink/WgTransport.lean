import TinyLink.Crypto
import TinyLink.Library.ByteOrder

/-!
# The WireGuard transport layer

Embedding of `wg_transport.c`: the RFC 6479 anti-replay window, the session with its
keypair generation, and the split encrypt and decrypt steps with their tickets.
-/

namespace TinyLink
open ByteOrder

abbrev wgReplayWindowBits : ℕ := 8192
abbrev wgReplayWindowBytes : ℕ := wgReplayWindowBits / 8

/-- `WG_COUNTER_REJECT_AT`, that is `UINT64_MAX`. -/
def wgCounterRejectAt : UInt64 := 0xFFFFFFFFFFFFFFFF

abbrev ReplayBitmap := Vector UInt8 wgReplayWindowBytes

structure WgReplayWindow where
  highest : UInt64
  bitmap : ReplayBitmap
deriving DecidableEq

def WgReplayWindow.zero : WgReplayWindow := ⟨0, Vector.replicate wgReplayWindowBytes 0⟩

instance replayWindowNeZero : NeZero wgReplayWindowBits := ⟨by decide⟩

/-- `counter & (WG_REPLAY_WINDOW_BITS - 1)`, so that `pos + 1` and `pos + 8` wrap as in the source.
-/
def replayPos (counter : UInt64) : Fin wgReplayWindowBits :=
  Fin.ofNat wgReplayWindowBits (counter &&& 8191).toNat

def posByte (pos : Fin wgReplayWindowBits) : Fin wgReplayWindowBytes :=
  ⟨pos.val / 8, by have := pos.isLt; simp only [wgReplayWindowBits, wgReplayWindowBytes] at *; omega⟩

def posMask (pos : Fin wgReplayWindowBits) : UInt8 := 1 <<< UInt8.ofNat (pos.val % 8)

/-- `0` if `counter` would be accepted, `-1` if it is rejected. The sum wraps. -/
def wgReplayCheck (w : WgReplayWindow) (counter : UInt64) : Int :=
  if counter = wgCounterRejectAt then -1
  else if counter > w.highest then 0
  else if counter + 8192 ≤ w.highest then -1
  else
    let pos := replayPos counter
    if w.bitmap[posByte pos] &&& posMask pos ≠ 0 then -1 else 0

def clearSlot (bm : ReplayBitmap) (pos : Fin wgReplayWindowBits) : ReplayBitmap :=
  bm.set (posByte pos) (bm[posByte pos] &&& ~~~posMask pos)

def slotBit (bm : ReplayBitmap) (pos : Fin wgReplayWindowBits) : Bool :=
  bm[posByte pos].toBitVec.getLsbD (pos.val % 8)

/-- The first loop of `replay_clear_slots`: single slots up to a byte boundary. -/
def clearHead : ReplayBitmap → Fin wgReplayWindowBits → ℕ →
    ReplayBitmap × Fin wgReplayWindowBits × ℕ
  | bm, pos, 0 => (bm, pos, 0)
  | bm, pos, n + 1 =>
    if pos.val &&& 7 ≠ 0 then clearHead (clearSlot bm pos) (pos + 1) n else (bm, pos, n + 1)

def clearBytes : ReplayBitmap → Fin wgReplayWindowBits → ℕ →
    ReplayBitmap × Fin wgReplayWindowBits × ℕ
  | bm, pos, n + 8 => clearBytes (bm.set (posByte pos) 0) (pos + 8) n
  | bm, pos, n => (bm, pos, n)

def clearTail : ReplayBitmap → Fin wgReplayWindowBits → ℕ → ReplayBitmap
  | bm, _, 0 => bm
  | bm, pos, n + 1 => clearTail (clearSlot bm pos) (pos + 1) n

def replayClearSlots (bm : ReplayBitmap) (first : UInt64) (n : ℕ) : ReplayBitmap :=
  let (bm, pos, n) := clearHead bm (replayPos first) n
  let (bm, pos, n) := clearBytes bm pos n
  clearTail bm pos n

def setSlot (bm : ReplayBitmap) (pos : Fin wgReplayWindowBits) : ReplayBitmap :=
  bm.set (posByte pos) (bm[posByte pos] ||| posMask pos)

def wgReplayUpdate (w : WgReplayWindow) (counter : UInt64) : WgReplayWindow :=
  let w' :=
    if counter > w.highest then
      let diff := counter - w.highest
      { highest := counter
        bitmap :=
          if diff ≥ 8192 then Vector.replicate wgReplayWindowBytes 0
          else replayClearSlots w.bitmap (w.highest + 1) diff.toNat }
    else w
  { w' with bitmap := setSlot w'.bitmap (replayPos counter) }

/-- `wg_replay_check_and_update`: the result and the window. -/
def wgReplayCheckAndUpdate (w : WgReplayWindow) (counter : UInt64) : Int × WgReplayWindow :=
  if wgReplayCheck w counter ≠ 0 then (-1, w) else (0, wgReplayUpdate w counter)

def wgMsgTransport : UInt8 := 4
def wgTransportHeaderLen : ℕ := 16
def wgTransportOverhead : ℕ := wgTransportHeaderLen + wgTagLen

structure WgTransportSession where
  sendKey : Key
  recvKey : Key
  localIndex : UInt32
  remoteIndex : UInt32
  sendCounter : UInt64
  gen : UInt32
  valid : Bool
  replay : WgReplayWindow
deriving DecidableEq

structure WgTxTicket where
  key : Key
  counter : UInt64
  remoteIndex : UInt32

structure WgRxTicket where
  key : Key
  counter : UInt64
  gen : UInt32
  plen : ℕ

def WgTransportSession.zero : WgTransportSession :=
  ⟨zeroKey, zeroKey, 0, 0, 0, 0, false, .zero⟩

/-- `__atomic_add_fetch(&s_next_gen, 1, …)`: the generation handed out is also the new
value of the process-wide counter. -/
def newGen (nextGen : UInt32) : UInt32 := nextGen + 1

def wgTransportSessionInit (gen localIndex remoteIndex : UInt32) (sendKey recvKey : Key) :
    WgTransportSession where
  sendKey := sendKey
  recvKey := recvKey
  localIndex := localIndex
  remoteIndex := remoteIndex
  sendCounter := 0
  gen := gen
  valid := true
  replay := .zero

def wgTransportSessionScrub (gen : UInt32) : WgTransportSession :=
  { WgTransportSession.zero with gen := gen }

/-- Four zero bytes and the little-endian counter, stored as three 32-bit words. -/
def counterToNonce (counter : UInt64) : Bytes :=
  leBytes 4 0 ++ leBytes 4 counter.toUInt32.toNat ++ leBytes 4 (counter >>> 32).toUInt32.toNat

def storeU32Le (v : UInt32) : Bytes := leBytes 4 v.toNat
def storeU64Le (v : UInt64) : Bytes := leBytes 8 v.toNat
def loadU32Le (b : Bytes) : UInt32 := UInt32.ofNat (leNat (b.take 4))
def loadU64Le (b : Bytes) : UInt64 := UInt64.ofNat (leNat (b.take 8))

/-- The size of a C object: at most `PTRDIFF_MAX` on the 32-bit target. -/
abbrev ObjSize := Fin (2 ^ 31)

/-- A buffer a caller can own, pointer and length of one object. -/
abbrev Buf := {b : Bytes // b.length < 2 ^ 31}

/-- `WG_TRANSPORT_HEADER_LEN + plen + WG_TAG_LEN`, a sum of `size_t`. -/
def wgWireLen (plen : ℕ) : ℕ := (wgTransportHeaderLen + plen + wgTagLen) % 2 ^ 32

/-- The ticket, and the session after the reservation; `none` is `-1`. -/
def wgTransportTxReserve (s : WgTransportSession) : Option (WgTxTicket × WgTransportSession) :=
  if !s.valid then none
  else if s.sendCounter = wgCounterRejectAt then none
  else some (⟨s.sendKey, s.sendCounter, s.remoteIndex⟩,
    { s with sendCounter := s.sendCounter + 1 })

def transportHeader (receiverIndex : UInt32) (counter : UInt64) : Bytes :=
  [wgMsgTransport, 0, 0, 0] ++ storeU32Le receiverIndex ++ storeU64Le counter

/-- The bytes written to `out`; `none` when `out_size` is too small. -/
def wgTransportTxSeal (aead : Aead) (t : WgTxTicket) (outSize : ObjSize) (plaintext : Buf) :
    Option Bytes :=
  if outSize.val ≥ wgWireLen plaintext.val.length then
    some (transportHeader t.remoteIndex t.counter ++
      aead.encrypt t.key (counterToNonce t.counter) [] plaintext.val)
  else none

/-- Header checks, replay pre-check and size check; `none` is `-1`. -/
def wgTransportRxBegin (s : WgTransportSession) (wire : Bytes) (maxPlen : ℕ) :
    Option WgRxTicket :=
  if !s.valid then none
  else if wire.length < wgTransportOverhead then none
  else if wire.getD 0 0 ≠ wgMsgTransport then none
  else if wire.getD 1 0 ≠ 0 ∨ wire.getD 2 0 ≠ 0 ∨ wire.getD 3 0 ≠ 0 then none
  else if loadU32Le (wire.drop 4) ≠ s.localIndex then none
  else
    let counter := loadU64Le (wire.drop 8)
    if wgReplayCheck s.replay counter ≠ 0 then none
    else
      let plen := wire.length - wgTransportOverhead
      if plen > maxPlen then none
      else some ⟨s.recvKey, counter, s.gen, plen⟩

/-- The plaintext; `none` on a bad tag or a length other than the one `rx_begin` saw. -/
def wgTransportRxOpen (aead : Aead) (t : WgRxTicket) (wire : Bytes) : Option Bytes :=
  if wire.length = t.plen + wgTransportOverhead then
    aead.decrypt t.key (counterToNonce t.counter) [] (wire.drop wgTransportHeaderLen)
  else none

/-- What both `seal` and `open` leave of the ticket: the key is wiped. -/
def WgRxTicket.wiped (t : WgRxTicket) : WgRxTicket := { t with key := zeroKey }

def wgTransportRxReplay : Int := -1
def wgTransportRxStale : Int := -2

def wgTransportRxCommit (s : WgTransportSession) (t : WgRxTicket) : Int × WgTransportSession :=
  if !s.valid ∨ s.gen ≠ t.gen then (wgTransportRxStale, s)
  else if wgReplayCheck s.replay t.counter ≠ 0 then (wgTransportRxReplay, s)
  else (0, { s with replay := wgReplayUpdate s.replay t.counter })

/-- The wire bytes (`none` is a negative result) and the session afterwards. -/
def wgTransportEncrypt (aead : Aead) (s : WgTransportSession) (outSize : ObjSize)
    (plaintext : Buf) : Option Bytes × WgTransportSession :=
  if outSize.val < wgWireLen plaintext.val.length then (none, s)
  else match wgTransportTxReserve s with
    | none => (none, s)
    | some (t, s') => (wgTransportTxSeal aead t outSize plaintext, s')

/-- What is written to `out` and to `*out_len` (`none` is `-1`), and the session afterwards. -/
def wgTransportDecrypt (aead : Aead) (s : WgTransportSession) (wire : Bytes) (outSize : ℕ) :
    Option (Bytes × ℕ) × WgTransportSession :=
  match wgTransportRxBegin s wire outSize with
  | none => (none, s)
  | some t =>
    match wgTransportRxOpen aead t wire with
    | none => (none, s)
    | some plaintext =>
      let (rc, s') := wgTransportRxCommit s t.wiped
      if rc ≠ 0 then (none, s') else (some (plaintext, t.plen), s')

end TinyLink
