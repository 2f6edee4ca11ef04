import TinyLink.WgProto
import TinyLink.Library.Execution

/-!
# The initiator's handshake

Embedding of `wg_handshake.c`. What the functions draw from outside, the bytes of
`esp_fill_random` and the time stamp of `wg_tai64n_now`, are arguments.
-/

namespace TinyLink
open StepSystem

def zeroNonce : Bytes := List.replicate 12 0

structure WgHandshakeState where
  localStaticPriv : Key
  localStaticPub : Key
  peerStaticPub : Key
  presharedKey : Key
  mac1Key : Key
  mac1KeySelf : Key
  staticStaticDh : Key
  identityValid : Bool
  chainKey : Key
  hash : Key
  ephemeralPriv : Key
  ephemeralPub : Key
  localIndex : UInt32
  armed : Bool

def WgHandshakeState.zero : WgHandshakeState :=
  ⟨zeroKey, zeroKey, zeroKey, zeroKey, zeroKey, zeroKey, zeroKey, false, zeroKey, zeroKey, zeroKey,
    zeroKey, 0, false⟩

def diffBytes (a b : Bytes) : UInt8 := (List.zipWith (· ^^^ ·) a b).foldl (· ||| ·) 0

def identityCached (st : WgHandshakeState) (localStaticPriv localStaticPub peerStaticPub : Key)
    (presharedKey : Option Key) : Bool :=
  if !st.identityValid then false
  else
    let d := diffBytes st.localStaticPriv.toList localStaticPriv.toList
    let d := d ||| diffBytes st.localStaticPub.toList localStaticPub.toList
    let d := d ||| diffBytes st.peerStaticPub.toList peerStaticPub.toList
    let d := d ||| diffBytes st.presharedKey.toList (presharedKey.getD zeroKey).toList
    d == 0

def wgHandshakeScrubLive (st : WgHandshakeState) : WgHandshakeState :=
  { st with
    chainKey := zeroKey
    hash := zeroKey
    ephemeralPriv := zeroKey
    ephemeralPub := zeroKey
    localIndex := 0
    armed := false }

/-- The result code and the state afterwards. -/
def wgHandshakeInit (P : Primitives) (st : WgHandshakeState)
    (localStaticPriv localStaticPub peerStaticPub : Key) (presharedKey : Option Key) :
    Int × WgHandshakeState :=
  if identityCached st localStaticPriv localStaticPub peerStaticPub presharedKey then
    (0, wgHandshakeScrubLive st)
  else
    match P.dh localStaticPriv peerStaticPub with
    | none => (-1, .zero)
    | some dh => (0,
      { WgHandshakeState.zero with
        localStaticPriv := localStaticPriv
        localStaticPub := localStaticPub
        peerStaticPub := peerStaticPub
        presharedKey := presharedKey.getD zeroKey
        mac1Key := wgMac1Key P peerStaticPub
        mac1KeySelf := wgMac1Key P localStaticPub
        staticStaticDh := dh
        identityValid := true })

/-- The message (`none` is `-1`) and the state afterwards. -/
def wgHandshakeCreateInitiation (P : Primitives) (st : WgHandshakeState) (localIndex : UInt32)
    (random : Key) (timestamp : Tai64n) : Option WgMsgInitiation × WgHandshakeState :=
  let ck := wgInitialChainKey P
  let h := wgInitialHash P
  let h := wgMixHash P h st.peerStaticPub.toList
  let (ephemeralPriv, ephemeralPub) := curve25519Keypair P random
  let ck := wgMixChainOnly P ck ephemeralPub.toList
  let h := wgMixHash P h ephemeralPub.toList
  match P.dh ephemeralPriv st.peerStaticPub with
  | none => (none,
    { st with
      chainKey := ck
      hash := h
      ephemeralPriv := ephemeralPriv
      ephemeralPub := ephemeralPub })
  | some dhES =>
    let (ck, key) := wgMixKey P ck dhES.toList
    let encryptedStatic := P.aead.encrypt key zeroNonce h.toList st.localStaticPub.toList
    let h := wgMixHash P h encryptedStatic
    let (ck, key) := wgMixKey P ck st.staticStaticDh.toList
    let encryptedTimestamp := P.aead.encrypt key zeroNonce h.toList timestamp.toList
    let h := wgMixHash P h encryptedTimestamp
    let msg : WgMsgInitiation :=
      { messageType := wgMsgInitiationType
        reserved := Vector.replicate 3 0
        senderIndex := localIndex
        ephemeral := ephemeralPub
        encryptedStatic := encryptedStatic
        encryptedTimestamp := encryptedTimestamp
        mac1 := List.replicate 16 0
        mac2 := List.replicate 16 0 }
    (some { msg with mac1 := wgKeyedMac16 P st.mac1Key msg.macd },
      { st with
        chainKey := ck
        hash := h
        ephemeralPriv := ephemeralPriv
        ephemeralPub := ephemeralPub
        localIndex := localIndex
        armed := true })

/-- The send key, the receive key and the peer's index; `none` is `-1`. The state is only
read: the chain is mixed on copies. -/
def wgHandshakeProcessResponse (P : Primitives) (st : WgHandshakeState) (msg : WgMsgResponse) :
    Option (Key × Key × UInt32) :=
  let ck := st.chainKey
  let h := st.hash
  if !st.armed then none
  else if msg.messageType ≠ wgMsgResponseType then none
  else if msg.reservedBits ≠ 0 then none
  else if msg.receiverIndex ≠ st.localIndex then none
  else if diffBytes (wgKeyedMac16 P st.mac1KeySelf msg.macd) msg.mac1 ≠ 0 then none
  else
    let ck := wgMixChainOnly P ck msg.ephemeral.toList
    let h := wgMixHash P h msg.ephemeral.toList
    match P.dh st.ephemeralPriv msg.ephemeral with
    | none => none
    | some dhEE =>
      let ck := wgMixChainOnly P ck dhEE.toList
      match P.dh st.localStaticPriv msg.ephemeral with
      | none => none
      | some dhES =>
        let ck := wgMixChainOnly P ck dhES.toList
        let (ck, tau, key) := noiseHkdf3 P ck st.presharedKey.toList
        let h := wgMixHash P h tau.toList
        match P.aead.decrypt key zeroNonce h.toList msg.encryptedNothing with
        | none => none
        | some _ =>
          let (sendKey, recvKey) := noiseHkdf2 P ck []
          some (sendKey, recvKey, msg.senderIndex)

inductive HandshakeStep where
  | init (localStaticPriv localStaticPub peerStaticPub : Key) (presharedKey : Option Key)
  | createInitiation (localIndex : UInt32) (random : Key) (timestamp : Tai64n)
  | processResponse (msg : WgMsgResponse)
  | scrubLive
  | scrub

def handshakeStep (P : Primitives) (st : WgHandshakeState) :
    HandshakeStep → Option WgHandshakeState
  | .init localStaticPriv localStaticPub peerStaticPub presharedKey =>
    some (wgHandshakeInit P st localStaticPriv localStaticPub peerStaticPub presharedKey).2
  | .createInitiation localIndex random timestamp =>
    some (wgHandshakeCreateInitiation P st localIndex random timestamp).2
  | .processResponse _ => some st
  | .scrubLive => some (wgHandshakeScrubLive st)
  | .scrub => some .zero

/-- Any sequence of calls on `g.handshake`, from boot on. -/
abbrev HandshakeRun (P : Primitives) :=
  Execution (· = WgHandshakeState.zero) (handshakeStep P)

end TinyLink
