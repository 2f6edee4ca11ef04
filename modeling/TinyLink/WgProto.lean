import TinyLink.WgTransport

/-!
# Noise and WireGuard helpers

Embedding of `crypto/hkdf_blake2s.c` and of the helpers and message layouts of
`wg_proto.c`. X25519, BLAKE2s and the AEAD are parameters.
-/

namespace TinyLink

abbrev Tai64n := Vector UInt8 12

/-- The primitives under `crypto/`. `dh` fails on a low-order point; `mac16` is keyed BLAKE2s with a
16-byte digest. -/
structure Primitives where
  derivePub : Key → Key
  dh : Key → Key → Option Key
  blake2s : Bytes → Key
  mac16 : Key → Bytes → Bytes
  aead : Aead

/-- `curve25519_keypair` on the bytes `esp_fill_random` returned: the clamped private key
and its public key. -/
def curve25519Keypair (P : Primitives) (random : Key) : Key × Key :=
  let priv := random.set 0 (random[0] &&& 0xF8)
  let priv := priv.set 31 (priv[31] &&& 0x7F)
  let priv := priv.set 31 (priv[31] ||| 0x40)
  (priv, P.derivePub priv)

def hmacBlockLen : ℕ := 64

def hmacBlake2s (P : Primitives) (key data : Bytes) : Key :=
  let k₀ := if key.length > hmacBlockLen then (P.blake2s key).toList else key
  let k := k₀ ++ List.replicate (hmacBlockLen - k₀.length) 0
  let ipad := k.map (· ^^^ 0x36)
  let opad := k.map (· ^^^ 0x5C)
  let inner := P.blake2s (ipad ++ data)
  P.blake2s (opad ++ inner.toList)

def noiseHkdf1 (P : Primitives) (ck : Key) (input : Bytes) : Key :=
  let tempKey := hmacBlake2s P ck.toList input
  hmacBlake2s P tempKey.toList [0x01]

def noiseHkdf2 (P : Primitives) (ck : Key) (input : Bytes) : Key × Key :=
  let tempKey := hmacBlake2s P ck.toList input
  let out1 := hmacBlake2s P tempKey.toList [0x01]
  let out2 := hmacBlake2s P tempKey.toList (out1.toList ++ [0x02])
  (out1, out2)

def noiseHkdf3 (P : Primitives) (ck : Key) (input : Bytes) : Key × Key × Key :=
  let tempKey := hmacBlake2s P ck.toList input
  let out1 := hmacBlake2s P tempKey.toList [0x01]
  let out2 := hmacBlake2s P tempKey.toList (out1.toList ++ [0x02])
  let out3 := hmacBlake2s P tempKey.toList (out2.toList ++ [0x03])
  (out1, out2, out3)

def wgConstruction : Bytes := asciiBytes "Noise_IKpsk2_25519_ChaChaPoly_BLAKE2s"
def wgIdentifier : Bytes := asciiBytes "WireGuard v1 zx2c4 Jason@zx2c4.com"
def wgLabelMac1 : Bytes := asciiBytes "mac1----"

def wgInitialChainKey (P : Primitives) : Key := P.blake2s wgConstruction

def wgInitialHash (P : Primitives) : Key :=
  P.blake2s ((wgInitialChainKey P).toList ++ wgIdentifier)

def wgMixHash (P : Primitives) (h : Key) (data : Bytes) : Key := P.blake2s (h.toList ++ data)

/-- The new chaining key and the key derived with it. -/
def wgMixKey (P : Primitives) (ck : Key) (x : Bytes) : Key × Key := noiseHkdf2 P ck x

def wgMixChainOnly (P : Primitives) (ck : Key) (x : Bytes) : Key := noiseHkdf1 P ck x

def wgMac1Key (P : Primitives) (staticPub : Key) : Key :=
  P.blake2s (wgLabelMac1 ++ staticPub.toList)

def wgKeyedMac16 (P : Primitives) (key : Key) (data : Bytes) : Bytes := P.mac16 key data

def wgMsgInitiationType : UInt8 := 1
def wgMsgResponseType : UInt8 := 2

/-- `struct wg_msg_initiation`. The encrypted fields are 48 and 28 bytes, the MACs 16. -/
structure WgMsgInitiation where
  messageType : UInt8
  reserved : Vector UInt8 3
  senderIndex : UInt32
  ephemeral : Key
  encryptedStatic : Bytes
  encryptedTimestamp : Bytes
  mac1 : Bytes
  mac2 : Bytes
deriving DecidableEq

def WgMsgInitiation.macd (m : WgMsgInitiation) : Bytes :=
  m.messageType :: m.reserved.toList ++ storeU32Le m.senderIndex ++ m.ephemeral.toList ++
    m.encryptedStatic ++ m.encryptedTimestamp

/-- `struct wg_msg_response`. `encryptedNothing` and the MACs are 16 bytes. -/
structure WgMsgResponse where
  messageType : UInt8
  reserved : Vector UInt8 3
  senderIndex : UInt32
  receiverIndex : UInt32
  ephemeral : Key
  encryptedNothing : Bytes
  mac1 : Bytes
  mac2 : Bytes
deriving DecidableEq

def WgMsgResponse.macd (m : WgMsgResponse) : Bytes :=
  m.messageType :: m.reserved.toList ++ storeU32Le m.senderIndex ++ storeU32Le m.receiverIndex ++
    m.ephemeral.toList ++ m.encryptedNothing

def WgMsgResponse.reservedBits (m : WgMsgResponse) : UInt8 :=
  m.reserved[0] ||| m.reserved[1] ||| m.reserved[2]

end TinyLink
