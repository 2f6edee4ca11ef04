import TinyLink.WgProto

/-!
# The control plane's Noise handshake

Embedding of the handshake functions of `crypto/noise_ik.c`. The bytes that `curve25519_keypair` draws
are arguments. A result of `none` or `false` is an error code; the state is returned as the call
leaves it.
-/

namespace TinyLink
open ByteOrder

def noiseHashLen : ℕ := 32
def noiseDhLen : ℕ := 32
def noiseTagLen : ℕ := 16

/-- `NOISE_IK_MSG1_LEN`: `e`, the encrypted `s` and the tag of the empty payload. -/
def noiseIkMsg1Len : ℕ := 96

structure NoiseIkState where
  h : Key
  ck : Key
  k : Key
  haveK : Bool
  n : UInt64
  sPriv : Key
  sPub : Key
  ePriv : Key
  ePub : Key
  rs : Key
  re : Key
  kSend : Key
  kRecv : Key
  nSend : UInt64
  nRecv : UInt64
  transportReady : Bool
deriving DecidableEq

def NoiseIkState.zero : NoiseIkState :=
  ⟨zeroKey, zeroKey, zeroKey, false, 0, zeroKey, zeroKey, zeroKey, zeroKey, zeroKey, zeroKey,
    zeroKey, zeroKey, 0, 0, false⟩

/-- The first 32 bytes of a buffer, behind the end of which stand zeros. -/
def padKey (b : Bytes) : Key := Vector.ofFn fun i => b.getD i 0

def mixHash (P : Primitives) (st : NoiseIkState) (data : Bytes) : NoiseIkState :=
  { st with h := P.blake2s (st.h.toList ++ data) }

def mixKey (P : Primitives) (st : NoiseIkState) (input : Bytes) : NoiseIkState :=
  let (ck, k) := noiseHkdf2 P st.ck input
  { st with ck := ck, k := k, haveK := true, n := 0 }

/-- `noise_nonce`: the counter is big-endian. -/
def noiseNonce (n : UInt64) : Bytes := List.replicate 4 0 ++ beBytes 8 n.toNat

def encryptAndHash (P : Primitives) (st : NoiseIkState) (outMax : ℕ) (plaintext : Bytes) :
    Option (Bytes × NoiseIkState) :=
  if outMax < plaintext.length + noiseTagLen then none
  else
    let out := P.aead.encrypt st.k (noiseNonce st.n) st.h.toList plaintext
    let st := mixHash P st out
    some (out, { st with n := st.n + 1 })

def decryptAndHash (P : Primitives) (st : NoiseIkState) (outMax : ℕ) (ciphertext : Bytes) :
    Option (Bytes × NoiseIkState) :=
  if ciphertext.length < noiseTagLen then none
  else if outMax < ciphertext.length - noiseTagLen then none
  else
    match P.aead.decrypt st.k (noiseNonce st.n) st.h.toList ciphertext with
    | none => none
    | some out =>
      let st := mixHash P st ciphertext
      some (out, { st with n := st.n + 1 })

def noiseIkInit (P : Primitives) (sPriv sPub rs : Key) (protocolName prologue : Bytes) :
    NoiseIkState :=
  let st := { NoiseIkState.zero with sPriv := sPriv, sPub := sPub, rs := rs }
  let h := if noiseHashLen < protocolName.length then P.blake2s protocolName else padKey protocolName
  let st := { st with h := h, ck := h }
  let st := mixHash P st prologue
  mixHash P st rs.toList

structure NoiseIkPre where
  ss : Key
  ePriv : Key
  ePub : Key
  es : Key
  haveSs : Bool
  haveE : Bool
deriving DecidableEq

def NoiseIkPre.zero : NoiseIkPre := ⟨zeroKey, zeroKey, zeroKey, zeroKey, false, false⟩

def noiseIkPrecompute (P : Primitives) (pre : NoiseIkPre) (sPriv rs : Key) (wantE : Bool)
    (random : Key) : Bool × NoiseIkPre :=
  match (if pre.haveSs then some pre.ss else P.dh sPriv rs) with
  | none => (false, { pre with ss := zeroKey })
  | some ss =>
    let pre := { pre with ss := ss, haveSs := true }
    if wantE && !pre.haveE then
      let (ePriv, ePub) := curve25519Keypair P random
      match P.dh ePriv rs with
      | none => (false, { pre with ePriv := zeroKey, ePub := ePub, es := zeroKey })
      | some es => (true, { pre with ePriv := ePriv, ePub := ePub, es := es, haveE := true })
    else (true, pre)

/-- The `e` of the first message, and `DH(e, rs)`. -/
def msg1Ephemeral (P : Primitives) (st : NoiseIkState) (random : Key) (pre : Option NoiseIkPre) :
    Option Key × NoiseIkState :=
  match pre.filter (·.haveE) with
  | some pre => (some pre.es, { st with ePriv := pre.ePriv, ePub := pre.ePub })
  | none =>
    let (ePriv, ePub) := curve25519Keypair P random
    (P.dh ePriv st.rs, { st with ePriv := ePriv, ePub := ePub })

/-- The `DH(s, rs)` of the first message. -/
def msg1Static (P : Primitives) (st : NoiseIkState) (pre : Option NoiseIkPre) : Option Key :=
  match pre.filter (·.haveSs) with
  | some pre => some pre.ss
  | none => P.dh st.sPriv st.rs

def noiseIkWriteMsg1Pre (P : Primitives) (st : NoiseIkState) (random : Key)
    (pre : Option NoiseIkPre) : Option Bytes × NoiseIkState :=
  match msg1Ephemeral P st random pre with
  | (none, st) => (none, st)
  | (some es, st) =>
    let st := mixHash P st st.ePub.toList
    let st := mixKey P st es.toList
    match encryptAndHash P st (noiseIkMsg1Len - noiseDhLen) st.sPub.toList with
    | none => (none, st)
    | some (s, st) =>
      match msg1Static P st pre with
      | none => (none, st)
      | some ss =>
        let st := mixKey P st ss.toList
        match encryptAndHash P st noiseTagLen [] with
        | none => (none, st)
        | some (tag, st) => (some (st.ePub.toList ++ s ++ tag), st)

def noiseIkWriteMsg1 (P : Primitives) (st : NoiseIkState) (random : Key) :
    Option Bytes × NoiseIkState :=
  noiseIkWriteMsg1Pre P st random none

def noiseIkReadMsg2 (P : Primitives) (st : NoiseIkState) (msg : Bytes) : Bool × NoiseIkState :=
  let st := { st with re := padKey (msg.take noiseDhLen) }
  let st := mixHash P st st.re.toList
  match P.dh st.ePriv st.re with
  | none => (false, st)
  | some ee =>
    let st := mixKey P st ee.toList
    match P.dh st.sPriv st.re with
    | none => (false, st)
    | some se =>
      let st := mixKey P st se.toList
      match decryptAndHash P st 1 ((msg.drop noiseDhLen).take noiseTagLen) with
      | none => (false, st)
      | some (_, st) =>
        let (kSend, kRecv) := noiseHkdf2 P st.ck []
        (true, { st with
          kSend := kSend, kRecv := kRecv, nSend := 0, nRecv := 0, transportReady := true })

end TinyLink
