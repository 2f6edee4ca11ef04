import Mathlib.Algebra.Ring.Int.Defs
import Mathlib.Algebra.Ring.Nat
import Mathlib.Data.Nat.Notation

/-!
# Byte buffers and the AEAD interface

Fixed-length arrays of the source are vectors; buffers passed as a pointer and a length are byte
lists. The AEAD is a parameter of the model.
-/

namespace TinyLink

abbrev Bytes := List UInt8

def asciiBytes (s : String) : Bytes := s.toList.map fun c => UInt8.ofNat c.toNat

/-- `WG_KEY_LEN`: X25519 keys, symmetric keys and BLAKE2s digests are 32 bytes. -/
abbrev Key := Vector UInt8 32

def zeroKey : Key := Vector.replicate 32 0

def wgTagLen : ℕ := 16

/-- `chacha20poly1305_encrypt`, whose output is ciphertext and tag, and `chacha20poly1305_decrypt`,
`none` for a tag that does not verify. -/
structure Aead where
  encrypt : Key → Bytes → Bytes → Bytes → Bytes
  decrypt : Key → Bytes → Bytes → Bytes → Option Bytes
  length_encrypt : ∀ k n aad m, (encrypt k n aad m).length = m.length + wgTagLen

def tagAead : Aead where
  encrypt _ _ _ m := m ++ List.replicate wgTagLen 0
  decrypt _ _ _ c :=
    if c.drop (c.length - wgTagLen) = List.replicate wgTagLen 0 then
      some (c.take (c.length - wgTagLen))
    else none
  length_encrypt _ _ _ m := by simp

end TinyLink
