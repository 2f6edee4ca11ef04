import TinyLink.WgProto

/-!
# A responder

The other end of the handshake, which is not part of the repository: written from the
WireGuard protocol (Noise IKpsk2) and not from `wg_handshake.c`. `kdf` is the protocol's
key derivation, its `n`-th output for the `n` of the text.
-/

namespace TinyLink

/-- `τ₀ = HMAC(key, input)`, `τ₁ = HMAC(τ₀, 1)`, `τₙ₊₁ = HMAC(τ₀, τₙ ‖ n + 1)`. -/
def kdf (P : Primitives) (key : Key) (input : Bytes) : ℕ → Key
  | 0 => hmacBlake2s P key.toList input
  | 1 => hmacBlake2s P (hmacBlake2s P key.toList input).toList [1]
  | n + 2 => hmacBlake2s P (hmacBlake2s P key.toList input).toList
      ((kdf P key input (n + 1)).toList ++ [UInt8.ofNat (n + 2)])

def keyOfBytes (b : Bytes) : Option Key :=
  if h : b.length = 32 then some ⟨b.toArray, by simpa using h⟩ else none

structure Consumed where
  initiatorStatic : Key
  initiatorEphemeral : Key
  initiatorIndex : UInt32
  timestamp : Bytes
  chainKey : Key
  hash : Key

def mac1Of (P : Primitives) (receiverStatic : Key) (macd : Bytes) : Bytes :=
  P.mac16 (P.blake2s (wgLabelMac1 ++ receiverStatic.toList)) macd

def consumeInitiation (P : Primitives) (staticPriv : Key) (msg : WgMsgInitiation) :
    Option Consumed := do
  let staticPub := P.derivePub staticPriv
  guard (msg.messageType = 1 ∧ msg.reserved = Vector.replicate 3 0)
  guard (msg.mac1 = mac1Of P staticPub msg.macd)
  let c := P.blake2s wgConstruction
  let h := P.blake2s (c.toList ++ wgIdentifier)
  let h := P.blake2s (h.toList ++ staticPub.toList)
  let c := kdf P c msg.ephemeral.toList 1
  let h := P.blake2s (h.toList ++ msg.ephemeral.toList)
  let es ← P.dh staticPriv msg.ephemeral
  let k := kdf P c es.toList 2
  let c := kdf P c es.toList 1
  let static ← (P.aead.decrypt k (counterToNonce 0) h.toList msg.encryptedStatic).bind keyOfBytes
  let h := P.blake2s (h.toList ++ msg.encryptedStatic)
  let ss ← P.dh staticPriv static
  let k := kdf P c ss.toList 2
  let c := kdf P c ss.toList 1
  let timestamp ← P.aead.decrypt k (counterToNonce 0) h.toList msg.encryptedTimestamp
  let h := P.blake2s (h.toList ++ msg.encryptedTimestamp)
  return { initiatorStatic := static
           initiatorEphemeral := msg.ephemeral
           initiatorIndex := msg.senderIndex
           timestamp := timestamp
           chainKey := c
           hash := h }

/-- The response, and the responder's send and receive keys. -/
def createResponse (P : Primitives) (presharedKey : Key) (index : UInt32) (ephemeralPriv : Key)
    (i : Consumed) : Option (WgMsgResponse × Key × Key) := do
  let ephemeral := P.derivePub ephemeralPriv
  let c := kdf P i.chainKey ephemeral.toList 1
  let h := P.blake2s (i.hash.toList ++ ephemeral.toList)
  let ee ← P.dh ephemeralPriv i.initiatorEphemeral
  let c := kdf P c ee.toList 1
  let se ← P.dh ephemeralPriv i.initiatorStatic
  let c := kdf P c se.toList 1
  let k := kdf P c presharedKey.toList 3
  let tau := kdf P c presharedKey.toList 2
  let c := kdf P c presharedKey.toList 1
  let h := P.blake2s (h.toList ++ tau.toList)
  let msg : WgMsgResponse :=
    { messageType := 2
      reserved := Vector.replicate 3 0
      senderIndex := index
      receiverIndex := i.initiatorIndex
      ephemeral := ephemeral
      encryptedNothing := P.aead.encrypt k (counterToNonce 0) h.toList []
      mac1 := List.replicate 16 0
      mac2 := List.replicate 16 0 }
  return ({ msg with mac1 := mac1Of P i.initiatorStatic msg.macd }, kdf P c [] 2, kdf P c [] 1)

end TinyLink
