import TinyLink.Crypto
import TinyLink.Library.ByteOrder

/-!
# DISCO frames

Embedding of `disco.c` and `disco_handler.c`. The box key of two DiscoKeys is one
symmetric key, so a frame is opened with a function from nonce and box to plaintext and
does not tell who sealed it.
-/

namespace TinyLink
open ByteOrder

def discoMagic : Bytes := [0x54, 0x53, 0xf0, 0x9f, 0x92, 0xac]
def discoMagicLen : ℕ := 6
def discoKeyLen : ℕ := 32
def discoNonceLen : ℕ := 24
def discoTagLen : ℕ := 16
def discoInnerHdrLen : ℕ := 2
def discoOverhead : ℕ := discoMagicLen + discoKeyLen + discoNonceLen + discoTagLen
def discoTxidLen : ℕ := 12
def discoNodekeyLen : ℕ := 32
def discoApLen : ℕ := 18
def discoCmmMaxEndpoints : ℕ := 8

abbrev Txid := Vector UInt8 12
abbrev V4MappedAddr := Vector UInt8 16

def discoTypePing : UInt8 := 0x01
def discoTypePong : UInt8 := 0x02
def discoTypeCallMeMaybe : UInt8 := 0x03

structure DiscoPing where
  txid : Txid
  nodeKey : Option Key
  padding : ℕ
deriving DecidableEq

structure DiscoPong where
  txid : Txid
  srcAddr : V4MappedAddr
  srcPort : UInt16
deriving DecidableEq

inductive DiscoMsg where
  | ping (m : DiscoPing)
  | pong (m : DiscoPong)
  | callMeMaybe (endpoints : List (V4MappedAddr × UInt16))
deriving DecidableEq

def readVec (n : ℕ) (p : Bytes) : Vector UInt8 n := Vector.ofFn fun i => p.getD i 0

def putU16Be (v : UInt16) : Bytes := [(v >>> 8).toUInt8, v.toUInt8]

def getU16Be (p : Bytes) : UInt16 := (p.getD 0 0).toUInt16 <<< 8 ||| (p.getD 1 0).toUInt16

def discoEncodePing (outCap : ℕ) (m : DiscoPing) : Option Bytes :=
  let out := [discoTypePing, 0x00] ++ m.txid.toList ++ (m.nodeKey.map Vector.toList).getD [] ++
    List.replicate m.padding 0
  if outCap < out.length then none else some out

def discoEncodePong (outCap : ℕ) (m : DiscoPong) : Option Bytes :=
  let out := [discoTypePong, 0x00] ++ m.txid.toList ++ m.srcAddr.toList ++ putU16Be m.srcPort
  if outCap < out.length then none else some out

def discoLooksLike (buf : Bytes) : Bool :=
  if buf.length < discoMagicLen + discoKeyLen + discoNonceLen then false
  else buf.take discoMagicLen == discoMagic

def frameSender (buf : Bytes) : Bytes := (buf.drop discoMagicLen).take discoKeyLen

def frameNonce (buf : Bytes) : Bytes :=
  (buf.drop (discoMagicLen + discoKeyLen)).take discoNonceLen

def frameBox (buf : Bytes) : Bytes := buf.drop (discoMagicLen + discoKeyLen + discoNonceLen)

/-- The wire bytes; `sealBox` is `nacl_box` or `nacl_box_after_shared` under the box key. -/
def discoSeal (sealBox : Bytes → Bytes → Bytes) (outCap : ℕ) (plaintext nonce : Bytes)
    (senderPub : Key) : Option Bytes :=
  if outCap < discoOverhead + plaintext.length then none
  else some (discoMagic ++ senderPub.toList ++ nonce ++ sealBox nonce plaintext)

/-- `openBox` is `nacl_box_open` or `nacl_box_open_after_shared` under the box key. An empty
plaintext reads as a failure, as in the source. -/
def discoOpen (openBox : Bytes → Bytes → Option Bytes) (ptCap : ℕ) (buf : Bytes) : Option Bytes :=
  if !discoLooksLike buf then none
  else if buf.length < discoOverhead then none
  else if ptCap < buf.length - discoOverhead then none
  else
    match openBox (frameNonce buf) (frameBox buf) with
    | none => none
    | some pt => if buf.length - discoOverhead = 0 then none else some pt

def parseEndpoints : ℕ → Bytes → List (V4MappedAddr × UInt16)
  | 0, _ => []
  | n + 1, p => (readVec 16 p, getU16Be (p.drop 16)) :: parseEndpoints n (p.drop discoApLen)

def discoParse (pt : Bytes) : Option DiscoMsg :=
  if pt.length < discoInnerHdrLen then none
  else
    let version := pt.getD 1 0
    let p := pt.drop discoInnerHdrLen
    let rem := p.length
    if pt.getD 0 0 = discoTypePing then
      if rem < discoTxidLen then none
      else
        let txid := readVec 12 p
        let p := p.drop discoTxidLen
        let rem := rem - discoTxidLen
        if rem ≥ discoNodekeyLen then
          some (.ping ⟨txid, some (readVec 32 p), rem - discoNodekeyLen⟩)
        else some (.ping ⟨txid, none, rem⟩)
    else if pt.getD 0 0 = discoTypePong then
      if rem < discoTxidLen + 16 + 2 then none
      else
        let txid := readVec 12 p
        let p := p.drop discoTxidLen
        some (.pong ⟨txid, readVec 16 p, getU16Be (p.drop 16)⟩)
    else if pt.getD 0 0 = discoTypeCallMeMaybe then
      if version ≠ 0 ∨ rem = 0 then some (.callMeMaybe [])
      else if rem % discoApLen ≠ 0 then none
      else some (.callMeMaybe (parseEndpoints (min (rem / discoApLen) discoCmmMaxEndpoints) p))
    else none

def discoPongPlaintextMax : ℕ := 32
def discoOpenPlaintextMax : ℕ := 256
def discoHandlerReplyMax : ℕ := 128

structure DiscoReply where
  inner : Bytes
  wire : Bytes

/-- What `finish_disco_recv` reports: the message, and the answer to a ping under a fresh nonce. -/
def finishDiscoRecv (sealBox : Bytes → Bytes → Bytes) (pt : Bytes) (myDiscoPub : Key)
    (nonce : Bytes) : Option DiscoMsg × Option DiscoReply :=
  match discoParse pt with
  | none => (none, none)
  | some (.ping m) =>
    match discoEncodePong discoPongPlaintextMax ⟨m.txid, Vector.replicate 16 0, 0⟩ with
    | none => (some (.ping m), none)
    | some inner =>
      (some (.ping m), (discoSeal sealBox discoHandlerReplyMax inner nonce myDiscoPub).map
        fun wire => ⟨inner, wire⟩)
  | some msg => (some msg, none)

/-- `disco_handle_recv` and `disco_handle_recv_with_shared`: they differ in where the box
key comes from. -/
def discoHandleRecv (sealBox : Bytes → Bytes → Bytes) (openBox : Bytes → Bytes → Option Bytes)
    (buf : Bytes) (myDiscoPub : Key) (nonce : Bytes) : Option DiscoMsg × Option DiscoReply :=
  if !discoLooksLike buf then (none, none)
  else
    match discoOpen openBox discoOpenPlaintextMax buf with
    | none => (none, none)
    | some pt => finishDiscoRecv sealBox pt myDiscoPub nonce

/-- The pre-AEAD gate of the direct path with the peer's DiscoKey known. -/
def directGateDrops (buf : Bytes) (peerPub : Key) : Bool :=
  buf.length ≥ discoMagicLen + discoKeyLen && frameSender buf != peerPub.toList

/-- `disco_gate` of the relayed path with the peer's DiscoKey known: `DISCO_GATE_DROP`. -/
def relayGateDrops (buf : Bytes) (peerPub : Key) : Bool :=
  buf.length < discoMagicLen + discoKeyLen || frameSender buf != peerPub.toList

end TinyLink
