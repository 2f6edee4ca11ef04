import TinyLink.Crypto
import TinyLink.WgTimers

/-!
# The rescue ring

Embedding of `wg_rescue.h`: copies of the last data frames that went direct only, their re-send,
and the summary by which an INIT is held back. A frame is the list of its bytes; a relay is the
answers it gives, by position in the ring.
-/

namespace TinyLink

def wgRescueSlots : ℕ := 10
def wgRescueMax : ℕ := 224

/-- A kept frame; `atUs = 0` is an empty slot. -/
structure WgRescue where
  atUs : ℤ
  gen : UInt32
  owed : Bool
  buf : Bytes

/-- A keypair whose frames a re-send handed to the relay, and when. -/
structure WgRescueSent where
  gen : UInt32
  us : ℤ

structure WgRescueRing where
  slot : Vector WgRescue 10
  head : Fin 10
  sent0 : WgRescueSent
  sent1 : WgRescueSent

def WgRescueRing.empty : WgRescueRing := ⟨.replicate 10 ⟨0, 0, false, []⟩, 0, ⟨0, 0⟩, ⟨0, 0⟩⟩

def wgRescueKeep (r : WgRescueRing) (buf : Bytes) (now : ℤ) (gen : UInt32) : WgRescueRing :=
  if buf.length > wgRescueMax then r
  else { r with slot := r.slot.set r.head ⟨now, gen, false, buf⟩, head := r.head + 1 }

/-- A frame still to re-send at a confirmed lapse. -/
def wgRescuePending (s : WgRescue) (now fromUs maxAgeUs : ℤ) : Bool :=
  s.atUs ≠ 0 && (s.owed || s.atUs ≥ fromUs) && !wgTimerDue now s.atUs maxAgeUs

/-- A pass of `wg_rescue_flush`: the ring, the frames the relay took, the frames left. -/
structure FlushState where
  ring : WgRescueRing
  sent : List Bytes
  left : ℕ

/-- The relay took a frame of keypair `gen`. -/
def WgRescueRing.markSent (r : WgRescueRing) (gen : UInt32) (now : ℤ) : WgRescueRing :=
  if gen ≠ r.sent0.gen then { r with sent1 := r.sent0, sent0 := ⟨gen, now⟩ }
  else { r with sent0 := ⟨gen, now⟩ }

/-- One slot of the pass, counted from the oldest. The first refusal stops it. -/
def wgRescueFlushSlot (now fromUs maxAgeUs : ℤ) (accepts : ℕ → Bool) (f : FlushState) (i : ℕ) :
    FlushState :=
  let j : Fin 10 := f.ring.head + Fin.ofNat 10 i
  let s := f.ring.slot.get j
  if s.atUs = 0 then f
  else if !wgRescuePending s now fromUs maxAgeUs then
    { f with ring := { f.ring with slot := f.ring.slot.set j { s with atUs := 0 } } }
  else if f.left = 0 && accepts i then
    { f with
      sent := f.sent ++ [s.buf]
      ring := { f.ring with slot := f.ring.slot.set j { s with atUs := 0 } }.markSent s.gen now }
  else
    { f with
      left := f.left + 1
      ring := { f.ring with slot := f.ring.slot.set j { s with owed := true } } }

def wgRescueFlush (r : WgRescueRing) (now fromUs maxAgeUs : ℤ) (accepts : ℕ → Bool) : FlushState :=
  (List.range wgRescueSlots).foldl (wgRescueFlushSlot now fromUs maxAgeUs accepts) ⟨r, [], 0⟩

/-- The frames of a flush left by `leftAt`: their transit window starts then. -/
def wgRescueSentBy (r : WgRescueRing) (flushedAt leftAt : ℤ) : WgRescueRing :=
  let move (s : WgRescueSent) : WgRescueSent :=
    if s.gen ≠ 0 && s.us = flushedAt then { s with us := leftAt } else s
  { r with sent0 := move r.sent0, sent1 := move r.sent1 }

def wgRescueTransitUs : ℤ := 5000 * 1000

/-- The frames of one keypair: the newest, and the newest owed one (0: none). -/
structure WgRescueKeypair where
  gen : UInt32
  newestUs : ℤ
  owedUs : ℤ

/-- The two newest keypairs with frames in the ring, and the two newest that were re-sent. -/
structure WgRescueSum where
  key0 : WgRescueKeypair
  key1 : WgRescueKeypair
  sent0 : WgRescueSent
  sent1 : WgRescueSent

def WgRescueRing.nth (r : WgRescueRing) (i : ℕ) : WgRescue := r.slot.get (r.head + Fin.ofNat 10 i)

def WgRescueRing.oldestFirst (r : WgRescueRing) : List WgRescue := (List.range wgRescueSlots).map r.nth

def wgRescueSumSlot (out : WgRescueSum) (s : WgRescue) : WgRescueSum :=
  if s.atUs = 0 then out
  else
    -- a newer keypair starts
    let out := if s.gen ≠ out.key0.gen then { out with key1 := out.key0, key0 := ⟨s.gen, 0, 0⟩ } else out
    { out with key0 := ⟨out.key0.gen, s.atUs, if s.owed then s.atUs else out.key0.owedUs⟩ }

def wgRescueSummarize (r : WgRescueRing) : WgRescueSum :=
  r.oldestFirst.foldl wgRescueSumSlot ⟨⟨0, 0, 0⟩, ⟨0, 0, 0⟩, r.sent0, r.sent1⟩

/-- Would an INIT, once the peer consumes it, delete keypair `g`? -/
def wgRescueGenAtRisk (g curGen : UInt32) (confirmed : Bool) : Bool :=
  g ≠ 0 && (g = curGen - 1 || (!confirmed && g = curGen))

/-- `wg_rescue_init_risk` for a re-sent keypair: its frames may still be on their way. -/
def wgRescueSentAtRisk (s : WgRescueSent) (now : ℤ) (curGen : UInt32) (confirmed : Bool) : Bool :=
  wgRescueGenAtRisk s.gen curGen confirmed && !wgTimerDue now s.us wgRescueTransitUs

/-- `wg_rescue_init_risk` for a keypair with frames in the ring: one of them is pending. -/
def wgRescueKeyAtRisk (k : WgRescueKeypair) (now fromUs maxAgeUs : ℤ) (curGen : UInt32)
    (confirmed : Bool) : Bool :=
  let last := if k.owedUs ≠ 0 && k.newestUs < fromUs then k.owedUs else k.newestUs
  wgRescueGenAtRisk k.gen curGen confirmed && (k.owedUs ≠ 0 || k.newestUs ≥ fromUs) &&
    !wgTimerDue now last maxAgeUs

def wgRescueInitRisk (sum : WgRescueSum) (now fromUs maxAgeUs : ℤ) (curGen : UInt32)
    (confirmed : Bool) : Bool :=
  wgRescueSentAtRisk sum.sent0 now curGen confirmed ||
    wgRescueKeyAtRisk sum.key0 now fromUs maxAgeUs curGen confirmed ||
    wgRescueSentAtRisk sum.sent1 now curGen confirmed ||
    wgRescueKeyAtRisk sum.key1 now fromUs maxAgeUs curGen confirmed

end TinyLink
