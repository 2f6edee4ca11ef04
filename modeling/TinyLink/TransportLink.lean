import TinyLink.WgTransport
import TinyLink.Library.Execution
import Mathlib.Logic.Function.Basic

/-!
# Two peers and a network

Two sessions with swapped keys and indices. What `wg_transport_decrypt` is given is arbitrary, so the
network may lose, repeat, reorder and invent datagrams. The AEAD is ideal: `decrypt` consults the list
of the texts sealed so far.
-/

namespace TinyLink
open StepSystem

inductive Side where
  | left
  | right
deriving DecidableEq

def Side.other : Side → Side
  | .left => .right
  | .right => .left

structure SealRecord where
  key : Key
  nonce : Bytes
  aad : Bytes
  ciphertext : Bytes
  plaintext : Bytes
deriving DecidableEq

def SealRecord.opens (r : SealRecord) (k : Key) (nonce aad ciphertext : Bytes) : Bool :=
  r.key = k ∧ r.nonce = nonce ∧ r.aad = aad ∧ r.ciphertext = ciphertext

/-- Opening succeeds exactly on what was sealed, and returns the text sealed. -/
def idealAead (aead : Aead) (log : List SealRecord) : Aead :=
  { aead with
    decrypt := fun k nonce aad c => (log.find? (·.opens k nonce aad c)).map (·.plaintext) }

structure LinkState where
  session : Side → WgTransportSession
  log : List SealRecord

inductive LinkStep where
  | encrypt (side : Side) (outSize : ObjSize) (plaintext : Buf)
  | decrypt (side : Side) (wire : Bytes) (outSize : ℕ)

/-- The `chacha20poly1305_encrypt` call of `tx_seal`, as the AEAD sees it. -/
def sealedBy (aead : Aead) (s : WgTransportSession) (plaintext : Buf) : SealRecord where
  key := s.sendKey
  nonce := counterToNonce s.sendCounter
  aad := []
  ciphertext := aead.encrypt s.sendKey (counterToNonce s.sendCounter) [] plaintext.val
  plaintext := plaintext.val

def linkStep (aead : Aead) (σ : LinkState) : LinkStep → Option LinkState
  | .encrypt side outSize plaintext =>
    let s := σ.session side
    let r := wgTransportEncrypt (idealAead aead σ.log) s outSize plaintext
    some { session := Function.update σ.session side r.2
           log := if r.1.isSome then σ.log ++ [sealedBy aead s plaintext] else σ.log }
  | .decrypt side wire outSize =>
    let r := wgTransportDecrypt (idealAead aead σ.log) (σ.session side) wire outSize
    some { σ with session := Function.update σ.session side r.2 }

/-- Both handshakes done: `left` sends under `k` what `right` receives under `k`. -/
structure LinkSetup where
  leftGen : UInt32
  rightGen : UInt32
  leftIndex : UInt32
  rightIndex : UInt32
  leftKey : Key
  rightKey : Key

def LinkSetup.boot (p : LinkSetup) : LinkState where
  session
    | .left => wgTransportSessionInit p.leftGen p.leftIndex p.rightIndex p.leftKey p.rightKey
    | .right => wgTransportSessionInit p.rightGen p.rightIndex p.leftIndex p.rightKey p.leftKey
  log := []

abbrev LinkRun (aead : Aead) (p : LinkSetup) := Execution (· = p.boot) (linkStep aead)

def wireCounter (wire : Bytes) : UInt64 := loadU64Le (wire.drop 8)

namespace LinkRun

variable {aead : Aead} {p : LinkSetup}

/-- Step `i` is a `wg_transport_encrypt` of `plaintext` under `counter` that writes `wire`. -/
def Sends (E : LinkRun aead p) (i : ℕ) (side : Side) (counter : UInt64) (plaintext wire : Bytes) :
    Prop :=
  i < E.length ∧ ∃ (outSize : ObjSize) (m : Buf), E.act i = .encrypt side outSize m ∧
    m.val = plaintext ∧ counter = ((E.state i).session side).sendCounter ∧
    (wgTransportEncrypt (idealAead aead (E.state i).log) ((E.state i).session side) outSize m).1 =
      some wire

/-- Step `j` is a `wg_transport_decrypt` of `wire` that returns `plaintext` and its length. -/
def Delivers (E : LinkRun aead p) (j : ℕ) (side : Side) (wire plaintext : Bytes) (len : ℕ) : Prop :=
  j < E.length ∧ ∃ outSize, E.act j = .decrypt side wire outSize ∧
    (wgTransportDecrypt (idealAead aead (E.state j).log) ((E.state j).session side) wire outSize).1 =
      some (plaintext, len)

/-- The counters `side` accepted before step `j`. -/
def accepted (E : LinkRun aead p) (j : ℕ) (side : Side) : Set ℕ :=
  {c | ∃ i wire plaintext len, i < j ∧ Delivers E i side wire plaintext len ∧
    (wireCounter wire).toNat = c}

end LinkRun

end TinyLink
