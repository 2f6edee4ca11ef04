import TinyLink.Library.Execution
import TinyLink.Warm

/-!
# Dialing the control plane

Embedding of the dial memory of `ts2021_client.c` and of `ts2021_connect`, `ts2021_close` and
`ts2021_set_addr` over it. How each `connect_on` ends and when `ts2021_abort_reads` comes is up to the
environment.
-/

namespace TinyLink
open StepSystem

def ts2021PlainEarlyDropS : ℤ := 120
def ts2021AddrTtlUs : ℤ := 600 * 1000000

structure DialMemory where
  plainOff : Bool
  tlsNext : Bool
  addr : Ipv4
  addrSkip : Bool
  addrUntilUs : ℤ

def DialMemory.boot : DialMemory := ⟨false, false, ipv4Of 0 0 0 0, false, 0⟩

/-- A `connect_on`: the address it reached, none where it failed, and `s_abort_reads` behind it. -/
structure Dial where
  plain : Bool
  ip : Option Ipv4
  got : Option Ipv4
  abort : Bool

/-- How a dial ends: success, `peer_v4` of a dial by name, and whether an abort is raised
meanwhile. -/
structure DialEnd where
  ok : Bool
  peer : Ipv4
  abort : Bool

/-- The dials of a connect so far, and the variables of `ts2021_connect`. -/
structure Connecting where
  dials : List Dial
  abort : Bool
  tryAddr : Bool
  atAddr : Bool
  got : Option Ipv4

/-- `connect_on`; `ends n` is how the dial number `n` of the connect ends. -/
def connectOn (ends : ℕ → DialEnd) (c : Connecting) (plain : Bool) (ip : Option Ipv4) :
    Connecting :=
  let e := ends c.dials.length
  let got := if e.ok then some (ip.getD e.peer) else none
  let abort := c.abort || e.abort
  { c with dials := c.dials ++ [⟨plain, ip, got, abort⟩], abort := abort, got := got }

def connectPort (ends : ℕ → DialEnd) (addr : Ipv4) (c : Connecting) (plain : Bool) : Connecting :=
  let c := { c with atAddr := false }
  let byName (c : Connecting) := connectOn ends { c with tryAddr := false } plain none
  if c.tryAddr then
    let c := connectOn ends c plain (some addr)
    if c.got.isSome || c.abort then { c with atAddr := c.got.isSome } else byName c
  else byName c

/-- `TS2021_PLAIN` is whether the build has port 80. -/
def dialsPlain (cfgPlain : Bool) (s : DialMemory) (keyPinned : Bool) : Bool :=
  cfgPlain && keyPinned && !s.plainOff && !s.tlsNext

def triesAddr (s : DialMemory) (t0 : ℤ) : Bool :=
  tlIpv4Usable s.addr && !s.addrSkip && decide (t0 < s.addrUntilUs)

/-- The memory behind a connect that ends at `tEnd`; `off` switches port 80 off. -/
def DialMemory.settle (s : DialMemory) (off : Bool) (c : Connecting) (tEnd : ℤ) : DialMemory :=
  let s := { s with plainOff := s.plainOff || off, tlsNext := false, addrSkip := false }
  match c.got with
  | some peer =>
    { s with
      addr := peer
      addrUntilUs := if c.atAddr then s.addrUntilUs else tEnd + ts2021AddrTtlUs }
  | none => s

def ts2021Connect (cfgPlain : Bool) (s : DialMemory) (keyPinned : Bool) (t0 tEnd : ℤ)
    (ends : ℕ → DialEnd) : DialMemory × List Dial :=
  let plain := dialsPlain cfgPlain s keyPinned
  let c : Connecting := ⟨[], false, triesAddr s t0, false, none⟩
  let c := if plain then connectPort ends s.addr c true else c
  let fallback := !plain || (c.got.isNone && !c.abort)
  let c := if fallback then connectPort ends s.addr c false else c
  (s.settle (fallback && c.got.isSome && plain) c tEnd, c.dials)

/-- What `ts2021_close` reads of a conn. -/
structure ConnFlags where
  plain : Bool
  connected : Bool
  ioFailed : Bool
  atAddr : Bool
  aborted : Bool
  h2Goaway : Bool
  upUs : ℤ

def ConnFlags.young (c : ConnFlags) (now : ℤ) : Bool :=
  decide ((now - c.upUs).tdiv 1000000 < ts2021PlainEarlyDropS)

def ts2021Close (s : DialMemory) (c : ConnFlags) (now : ℤ) : DialMemory :=
  { s with
    tlsNext := s.tlsNext || (c.plain && c.connected && c.ioFailed && c.young now)
    addrSkip := s.addrSkip ||
      (c.connected && c.atAddr && !c.aborted && (c.ioFailed || c.h2Goaway) && c.young now) }

def ts2021SetAddr (s : DialMemory) (ip : Option Ipv4) (now : ℤ) : DialMemory :=
  { s with
    addr := (ip.filter tlIpv4Usable).getD (ipv4Of 0 0 0 0)
    addrUntilUs := now + ts2021AddrTtlUs }

inductive DialCall where
  | connect (keyPinned : Bool) (t0 tEnd : ℤ) (ends : ℕ → DialEnd)
  | close (c : ConnFlags) (now : ℤ)
  | setAddr (ip : Option Ipv4) (now : ℤ)

def dialStep (cfgPlain : Bool) (s : DialMemory) : DialCall → Option DialMemory
  | .connect keyPinned t0 tEnd ends => some (ts2021Connect cfgPlain s keyPinned t0 tEnd ends).1
  | .close c now => some (ts2021Close s c now)
  | .setAddr ip now => some (ts2021SetAddr s ip now)

def DialCall.dials (cfgPlain : Bool) (s : DialMemory) : DialCall → List Dial
  | .connect keyPinned t0 tEnd ends => (ts2021Connect cfgPlain s keyPinned t0 tEnd ends).2
  | _ => []

abbrev DialRun (cfgPlain : Bool) := Execution (· = DialMemory.boot) (dialStep cfgPlain)

end TinyLink
