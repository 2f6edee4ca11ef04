import TinyLink.Library.Execution
import TinyLink.NoiseIk

/-!
# The control connection's handshake

Embedding of the DH cache `s_pre` of `ts2021_client.c` and of `handshake` up to its first message, and
any history of `ts2021_precompute` and connect attempts over it.
-/

namespace TinyLink
open ByteOrder

def tinylinkCapver : ℕ := 148

def ts2021ProtocolName : Bytes := asciiBytes "Noise_IK_25519_ChaChaPoly_BLAKE2s"

def ts2021Prologue : Bytes :=
  asciiBytes "Tailscale Control Protocol v" ++ asciiBytes (toString tinylinkCapver)

def ts2021MsgInitiation : UInt8 := 0x01

def ts2021InitHeader : Bytes :=
  beBytes 2 tinylinkCapver ++ [ts2021MsgInitiation] ++ beBytes 2 noiseIkMsg1Len

structure PreCache where
  machinePub : Key
  controlPub : Key
  keyed : Bool
  pre : NoiseIkPre
deriving DecidableEq

def PreCache.zero : PreCache := ⟨zeroKey, zeroKey, false, .zero⟩

def preFor (c : PreCache) (machinePub controlPub : Key) : PreCache :=
  if !c.keyed || c.machinePub ≠ machinePub || c.controlPub ≠ controlPub then
    ⟨machinePub, controlPub, true, .zero⟩
  else c

def ts2021Precompute (P : Primitives) (c : PreCache) (machinePriv machinePub controlPub random : Key) :
    PreCache :=
  let c := preFor c machinePub controlPub
  match noiseIkPrecompute P c.pre machinePriv controlPub true random with
  | (false, _) => .zero
  | (true, pre) => { c with pre := pre }

/-- `handshake` up to the initiation frame: the frame (`none`: it fails), the Noise state of the
connection and the cache. -/
def handshake (P : Primitives) (prologue : Bytes) (c : PreCache)
    (machinePriv machinePub controlPub random : Key) : Option Bytes × NoiseIkState × PreCache :=
  let st := noiseIkInit P machinePriv machinePub controlPub ts2021ProtocolName prologue
  let c := preFor c machinePub controlPub
  match noiseIkPrecompute P c.pre machinePriv controlPub false random with
  | (false, pre) => (none, st, { c with pre := pre })
  | (true, pre) =>
    let (msg, st) := noiseIkWriteMsg1Pre P st random (some pre)
    let pre := if pre.haveE then
        { pre with ePriv := zeroKey, es := zeroKey, ePub := zeroKey, haveE := false }
      else pre
    (msg.map (ts2021InitHeader ++ ·), st, { c with pre := pre })

/-- A call with the machine key pair of `machinePriv`. -/
inductive Ts2021Call
  | precompute (machinePriv controlPub random : Key)
  | connect (prologue : Bytes) (machinePriv controlPub random : Key)

def Ts2021Call.machinePriv : Ts2021Call → Key
  | .precompute machinePriv _ _ | .connect _ machinePriv _ _ => machinePriv

def Ts2021Call.controlPub : Ts2021Call → Key
  | .precompute _ controlPub _ | .connect _ _ controlPub _ => controlPub

def Ts2021Call.random : Ts2021Call → Key
  | .precompute _ _ random | .connect _ _ _ random => random

/-- `s_pre`, and the private keys `curve25519_keypair` has made. -/
structure Ts2021State where
  cache : PreCache
  made : List Key

/-- The private key that the call makes, if it makes one: with `ss` at hand, and no `e` waiting. -/
def Ts2021Call.makes (P : Primitives) (c : PreCache) (a : Ts2021Call) : Option Key :=
  let pre := (preFor c (P.derivePub a.machinePriv) a.controlPub).pre
  if (pre.haveSs || (P.dh a.machinePriv a.controlPub).isSome) && !pre.haveE then
    some (curve25519Keypair P a.random).1
  else none

def Ts2021Call.apply (P : Primitives) (c : PreCache) : Ts2021Call → PreCache
  | .precompute machinePriv controlPub random =>
    ts2021Precompute P c machinePriv (P.derivePub machinePriv) controlPub random
  | .connect prologue machinePriv controlPub random =>
    (handshake P prologue c machinePriv (P.derivePub machinePriv) controlPub random).2.2

/-- A key that is made is a new one. -/
def ts2021Step (P : Primitives) (s : Ts2021State) (a : Ts2021Call) : Option Ts2021State :=
  match a.makes P s.cache with
  | none => some ⟨a.apply P s.cache, s.made⟩
  | some e => if e ∈ s.made then none else some ⟨a.apply P s.cache, e :: s.made⟩

abbrev Ts2021Run (P : Primitives) :=
  StepSystem.Execution (· = ⟨PreCache.zero, []⟩) (ts2021Step P)

/-- The attempt at `i` makes the frame `frame`, and leaves the connection in `st`. -/
def Ts2021Run.SendsAt {P : Primitives} (E : Ts2021Run P) (i : ℕ) (frame : Bytes)
    (st : NoiseIkState) : Prop :=
  i < E.length ∧ ∃ prologue machinePriv controlPub random,
    E.act i = .connect prologue machinePriv controlPub random ∧
    ∃ c, handshake P prologue (E.state i).cache machinePriv (P.derivePub machinePriv) controlPub
      random = (some frame, st, c)

end TinyLink
