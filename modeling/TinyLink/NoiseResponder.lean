import TinyLink.WgResponder

/-!
# A Noise IK responder

The control server's end of the handshake, which is not part of the repository: written from the Noise
protocol framework (`IK`: `<- s`, `-> e, es, s, ss`, `<- e, ee, se`) and not from `noise_ik.c`.
-/

namespace TinyLink

structure NoiseSymmetric where
  h : Key
  ck : Key
  k : Option Key
  n : UInt64

namespace NoiseSymmetric
variable (P : Primitives)

def start (protocolName : Bytes) : NoiseSymmetric :=
  let h := if protocolName.length ≤ 32 then
      Vector.ofFn fun i : Fin 32 => (protocolName ++ List.replicate 32 0).getD i 0
    else P.blake2s protocolName
  ⟨h, h, none, 0⟩

def mixHash (s : NoiseSymmetric) (data : Bytes) : NoiseSymmetric :=
  { s with h := P.blake2s (s.h.toList ++ data) }

def mixKey (s : NoiseSymmetric) (input : Key) : NoiseSymmetric :=
  { s with ck := kdf P s.ck input.toList 1, k := some (kdf P s.ck input.toList 2), n := 0 }

def encryptAndHash (s : NoiseSymmetric) (plaintext : Bytes) : Bytes × NoiseSymmetric :=
  match s.k with
  | none => (plaintext, mixHash P s plaintext)
  | some k =>
    let c := P.aead.encrypt k (counterToNonce s.n) s.h.toList plaintext
    (c, mixHash P { s with n := s.n + 1 } c)

def decryptAndHash (s : NoiseSymmetric) (c : Bytes) : Option (Bytes × NoiseSymmetric) :=
  match s.k with
  | none => some (c, mixHash P s c)
  | some k =>
    (P.aead.decrypt k (counterToNonce s.n) s.h.toList c).map fun m =>
      (m, mixHash P { s with n := s.n + 1 } c)

/-- The initiator's key for sending, and the responder's. -/
def split (s : NoiseSymmetric) : Key × Key := (kdf P s.ck [] 1, kdf P s.ck [] 2)

end NoiseSymmetric

structure NoiseHeard where
  sym : NoiseSymmetric
  initiatorStatic : Key
  initiatorEphemeral : Key

def noiseReadMsg1 (P : Primitives) (protocolName prologue : Bytes) (staticPriv : Key) (msg : Bytes) :
    Option NoiseHeard := do
  let sym := NoiseSymmetric.start P protocolName
  let sym := sym.mixHash P prologue
  let sym := sym.mixHash P (P.derivePub staticPriv).toList
  let re ← keyOfBytes (msg.take 32)
  let sym := sym.mixHash P re.toList
  let es ← P.dh staticPriv re
  let sym := sym.mixKey P es
  let (s, sym) ← sym.decryptAndHash P ((msg.drop 32).take 48)
  let rs ← keyOfBytes s
  let ss ← P.dh staticPriv rs
  let sym := sym.mixKey P ss
  let (_, sym) ← sym.decryptAndHash P (msg.drop 80)
  return ⟨sym, rs, re⟩

/-- The second message, and the responder's keys for sending and receiving. -/
def noiseWriteMsg2 (P : Primitives) (ephemeralPriv : Key) (i : NoiseHeard) :
    Option (Bytes × Key × Key) := do
  let e := P.derivePub ephemeralPriv
  let sym := i.sym.mixHash P e.toList
  let ee ← P.dh ephemeralPriv i.initiatorEphemeral
  let sym := sym.mixKey P ee
  let se ← P.dh ephemeralPriv i.initiatorStatic
  let sym := sym.mixKey P se
  let (payload, sym) := sym.encryptAndHash P []
  let (c₁, c₂) := sym.split P
  return (e.toList ++ payload, c₂, c₁)

end TinyLink
