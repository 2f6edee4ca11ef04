import Mathlib.Logic.Function.Basic
import TinyLink.Crypto
import TinyLink.Library.ByteOrder
import TinyLink.Library.Execution

/-!
# DERP writers and the write lock

Embedding of `derp_wlock.h`, of `send_frame`, `derp_client_connect_login` and `derp_client_close` of
`derp_client.c`, and of `tls_io_write_full`. Each access to `connected`, `gen` or the lock and each
call into TLS is one step. A timed take of the lock may fail at any time, and a write call at any byte.
-/

namespace TinyLink
open ByteOrder

def derpFrameHdrLen : ℕ := 5
def derpKeyLen : ℕ := 32
def derpTxStageMax : ℕ := derpKeyLen + 1536

/-- What `send_frame` is given. Its callers bound the payload, so the length fits the header. -/
structure DerpFrame where
  type : UInt8
  key : Option Key
  payload : Bytes
  fits : (key.elim [] Vector.toList ++ payload).length < 2 ^ 32

namespace DerpFrame
variable (f : DerpFrame)

def keyBytes : Bytes := f.key.elim [] Vector.toList

def body : Bytes := f.keyBytes ++ f.payload

def header : Bytes := f.type :: beBytes 4 f.body.length

def encode : Bytes := f.header ++ f.body

end DerpFrame

/-- A buffer that `tls_io_write_full` is given: the first bytes of `tx_stage`, or another one. -/
inductive DerpBuf
  | staged (len : ℕ)
  | plain (b : Bytes)

def DerpFrame.writes (f : DerpFrame) : List DerpBuf :=
  if f.body.length ≤ derpTxStageMax then [.staged (derpFrameHdrLen + f.body.length)]
  else .plain f.header :: (if f.keyBytes = [] then [] else [.plain f.keyBytes]) ++
    (if f.payload = [] then [] else [.plain f.payload])

inductive WaitEvent
  | feed
  | overdue
deriving DecidableEq

/-- One wait for the lock: the time counted, and what was done about the watchdog. -/
structure DerpWait where
  total : ℕ
  told : List WaitEvent

def DerpWait.begin : DerpWait := ⟨0, []⟩

def derpWlWaited (w : DerpWait) (ms fedMaxMs : ℕ) : DerpWait :=
  if w.total ≥ fedMaxMs then w
  else
    let total := if ms > fedMaxMs - w.total then fedMaxMs else w.total + ms
    ⟨total, w.told ++ [if total < fedMaxMs then .feed else .overdue]⟩

inductive DerpSent
  | ok
  | fail
  | timeout
  | invalidState
deriving DecidableEq

/-- A writer in `send_frame`, with the generation it read. -/
inductive WriterPc
  /-- with what the last call returned -/
  | idle (last : Option DerpSent)
  /-- behind the load of `gen` in `derp_wl_admits` -/
  | admits (f : DerpFrame) (noWait : Bool) (gen : ℕ)
  /-- before `derp_wl_take` -/
  | takes (f : DerpFrame) (noWait : Bool) (gen : ℕ) (w : DerpWait)
  /-- with the lock, before `derp_wl_up` and before the load of `gen` -/
  | took (f : DerpFrame) (noWait : Bool) (gen : ℕ) (w : DerpWait)
  | tookUp (f : DerpFrame) (noWait : Bool) (gen : ℕ) (w : DerpWait)
  /-- without the lock, at the same two loads -/
  | missed (f : DerpFrame) (noWait : Bool) (gen : ℕ) (w : DerpWait)
  | missedUp (f : DerpFrame) (noWait : Bool) (gen : ℕ) (w : DerpWait)
  /-- `DERP_WL_HELD` -/
  | held (f : DerpFrame) (noWait : Bool) (gen : ℕ)
  /-- in `tls_io_write_full`, before `derp_wl_may_write` and before the write call -/
  | polls (f : DerpFrame) (gen : ℕ) (bufs : List DerpBuf) (sent idle : ℕ)
  | writes (f : DerpFrame) (gen : ℕ) (bufs : List DerpBuf) (sent idle : ℕ)
  /-- in `frame_failed_locked`: before the load and the store of `connected`, and before the store of
  `abort_reads` -/
  | failed (f : DerpFrame) (gen : ℕ)
  | failedUp (f : DerpFrame) (gen : ℕ)
  | aborts (f : DerpFrame) (gen : ℕ)
  /-- before `derp_wl_give` -/
  | gives (r : DerpSent)

namespace WriterPc

def holds : WriterPc → Bool
  | .took _ _ _ _ | .tookUp _ _ _ _ | .held _ _ _ | .polls _ _ _ _ _ | .writes _ _ _ _ _
  | .failed _ _ | .failedUp _ _ | .aborts _ _ | .gives _ => true
  | _ => false

def flight : WriterPc → Option (DerpFrame × ℕ)
  | .admits f _ g | .takes f _ g _ | .took f _ g _ | .tookUp f _ g _ | .missed f _ g _
  | .missedUp f _ g _ | .held f _ g | .polls f g _ _ _ | .writes f g _ _ _ | .failed f g
  | .failedUp f g | .aborts f g => some (f, g)
  | .idle _ | .gives _ => none

/-- Between `DERP_WL_HELD` and the end of `frame_failed_locked` or of the frame. -/
def inside : WriterPc → Bool
  | .held _ _ _ | .polls _ _ _ _ _ | .writes _ _ _ _ _ | .failed _ _ | .failedUp _ _
  | .aborts _ _ => true
  | _ => false

def wait : WriterPc → DerpWait
  | .takes _ _ _ w | .took _ _ _ w | .tookUp _ _ _ w | .missed _ _ _ w | .missedUp _ _ _ w => w
  | _ => .begin

end WriterPc

/-- What follows a close: the dial by name of the same connect, or nothing. -/
inductive AfterClose
  | byName
  | down
deriving DecidableEq

inductive DerpSupPc
  | down
  /-- in `derp_wl_new_conn`, before the store of `gen` -/
  | bump
  | reset
  | dial (byAddr : Bool)
  /-- the dial failed: `tls_offer_fallback` may dial again -/
  | refused (byAddr : Bool)
  | login (byAddr : Bool)
  | setUp
  | up
  /-- in `derp_wl_close_lock` -/
  | closing (next : AfterClose)
  | grace (next : AfterClose)
  | cut (next : AfterClose) (w : DerpWait)
  | slice (next : AfterClose) (w : DerpWait)
  /-- `derp_wl_close_lock` returned -/
  | destroy (next : AfterClose)
  | gives (next : AfterClose)

namespace DerpSupPc

def holds : DerpSupPc → Bool
  | .destroy _ | .gives _ => true
  | _ => false

def wait : DerpSupPc → DerpWait
  | .cut _ w | .slice _ w => w
  | _ => .begin

end DerpSupPc

/-- A TLS context: its generation, what was written on it up to the end of the login and behind it,
the frames that writers began on it, whether a write of a frame failed or was cut, and whether it is
destroyed. -/
structure DerpConn where
  gen : ℕ
  loggedIn : Bool
  hello : Bytes
  stream : Bytes
  frames : List DerpFrame
  broken : Bool
  destroyed : Bool

def DerpConn.opened (gen : ℕ) : DerpConn := ⟨gen, false, [], [], [], false, false⟩

def DerpConn.write (c : DerpConn) (b : Bytes) : DerpConn :=
  if c.loggedIn then { c with stream := c.stream ++ b } else { c with hello := c.hello ++ b }

structure DerpConfig where
  graceMs : ℕ
  sliceMs : ℕ
  fedMaxMs : ℕ
  maxIdle : ℕ

/-- `derp_client_t` with the connections it had, and the tasks. -/
structure DerpWorld (ι : Type) where
  lockMade : Bool
  /-- the holder of the lock; `none` inside is the supervisor -/
  holder : Option (Option ι)
  connected : Bool
  gen : ℕ
  tls : Option ℕ
  txStage : Bytes
  abortReads : Bool
  conns : List DerpConn
  sup : DerpSupPc
  writers : ι → WriterPc

variable {ι : Type} [DecidableEq ι]

def DerpWorld.init : DerpWorld ι :=
  ⟨false, none, false, 0, none, [], false, [], .down, fun _ => .idle none⟩

namespace DerpWorld
variable (s : DerpWorld ι)

def onConn (g : DerpConn → DerpConn) : List DerpConn :=
  match s.tls with
  | none => s.conns
  | some c => s.conns.modify c g

def goTo (i : ι) (pc : WriterPc) : DerpWorld ι := { s with writers := Function.update s.writers i pc }

def bufBytes : DerpBuf → Bytes
  | .staged len => s.txStage.take len
  | .plain b => b

/-- The head of `tls_io_write_full`'s loop: the next buffer that has bytes left. -/
def nextWrite (f : DerpFrame) (gen : ℕ) : List DerpBuf → ℕ → ℕ → WriterPc
  | [], _, _ => .gives .ok
  | b :: bs, sent, idle =>
    if sent < (s.bufBytes b).length then .polls f gen (b :: bs) sent idle
    else nextWrite f gen bs 0 0

inductive WriteCall
  | wrote (n : ℕ)
  | again
  | failed (n : ℕ)

def sendBytes (b : DerpBuf) (sent n : ℕ) : DerpWorld ι :=
  { s with conns := s.onConn fun c => c.write (((s.bufBytes b).drop sent).take n) }

def broke (i : ι) (f : DerpFrame) (gen : ℕ) : DerpWorld ι :=
  { s with conns := s.onConn fun c => { c with broken := true } }.goTo i (.failed f gen)

/-- `esp_tls_conn_write`, and what `tls_io_write_full` makes of it. -/
def writeCall (cfg : DerpConfig) (i : ι) (f : DerpFrame) (gen : ℕ) (b : DerpBuf)
    (bs : List DerpBuf) (sent idle : ℕ) : WriteCall → DerpWorld ι
  | .wrote n =>
    if n = 0 then s.broke i f gen
    else
      let n := min n ((s.bufBytes b).length - sent)
      (s.sendBytes b sent n).goTo i (s.nextWrite f gen (b :: bs) (sent + n) 0)
  | .again =>
    if cfg.maxIdle ≠ 0 && idle + 1 ≥ cfg.maxIdle then s.broke i f gen
    else s.goTo i (.polls f gen (b :: bs) sent (idle + 1))
  | .failed n => (s.sendBytes b sent n).broke i f gen

end DerpWorld

inductive WriterAction
  /-- `send_frame` up to the load of `gen` -/
  | send (f : DerpFrame) (noWait : Bool)
  | loadUp
  | take (got : Bool)
  | loadGen
  /-- `socket_writable_now`, and the frame goes into `tx_stage` -/
  | enter (writable : Bool)
  | poll
  | write (r : DerpWorld.WriteCall)
  | fail
  | give

def writerStep (cfg : DerpConfig) (s : DerpWorld ι) (i : ι) : WriterAction → Option (DerpWorld ι)
  | .send f noWait =>
    match s.writers i with
    | .idle _ =>
      some (s.goTo i (if s.lockMade then .admits f noWait s.gen else .idle (some .invalidState)))
    | _ => none
  | .loadUp =>
    match s.writers i with
    | .admits f noWait g =>
      some (s.goTo i (if s.connected then .takes f noWait g .begin else .idle (some .invalidState)))
    | .took f noWait g w =>
      some (s.goTo i (if s.connected then .tookUp f noWait g w else .gives .invalidState))
    | .missed f noWait g w =>
      some (s.goTo i (if s.connected then .missedUp f noWait g w else .idle (some .invalidState)))
    | _ => none
  | .take got =>
    match s.writers i with
    | .takes f noWait g w =>
      if !got then some (s.goTo i (.missed f noWait g w))
      else if s.holder = none then
        some ({ s with holder := some (some i) }.goTo i (.took f noWait g w))
      else none
    | _ => none
  | .loadGen =>
    match s.writers i with
    | .tookUp f noWait g _ =>
      some (s.goTo i (if s.gen = g then .held f noWait g else .gives .invalidState))
    | .missedUp f noWait g w =>
      some (s.goTo i (if s.gen ≠ g then .idle (some .invalidState)
        else if noWait then .idle (some .timeout)
        else .takes f noWait g (derpWlWaited w cfg.sliceMs cfg.fedMaxMs)))
    | _ => none
  | .enter writable =>
    match s.writers i with
    | .held f noWait g =>
      if noWait && !writable then some (s.goTo i (.gives .timeout))
      else
        let txStage :=
          if f.body.length ≤ derpTxStageMax then f.encode ++ s.txStage.drop f.encode.length
          else s.txStage
        let s := { s with
          txStage
          conns := s.onConn fun c => { c with frames := c.frames ++ [f] } }
        some (s.goTo i (s.nextWrite f g f.writes 0 0))
    | _ => none
  | .poll =>
    match s.writers i with
    | .polls f g bufs sent idle =>
      if s.connected then some (s.goTo i (.writes f g bufs sent idle))
      else some (s.broke i f g)
    | _ => none
  | .write r =>
    match s.writers i with
    | .writes f g (b :: bs) sent idle => some (s.writeCall cfg i f g b bs sent idle r)
    | _ => none
  | .fail =>
    match s.writers i with
    | .failed f g => some (s.goTo i (if s.connected then .failedUp f g else .gives .fail))
    | .failedUp f g => some ({ s with connected := false }.goTo i (.aborts f g))
    | .aborts _ _ => some ({ s with abortReads := true }.goTo i (.gives .fail))
    | _ => none
  | .give =>
    match s.writers i with
    | .gives r => some ({ s with holder := none }.goTo i (.idle (some r)))
    | _ => none

inductive DialOutcome
  | noMem
  | refused
  | opened

inductive SupAction
  | connect
  | bump
  | reset (lockOk haveAddr : Bool)
  | dial (r : DialOutcome)
  | fallback (r : DialOutcome)
  | giveUp
  | loginWrite (b : Bytes)
  | login (ok : Bool)
  | setUp
  | close
  | drop
  | take (got : Bool)
  | cut
  | destroy
  | give

def afterDial (byAddr : Bool) : AfterClose := if byAddr then .byName else .down

def AfterClose.pc : AfterClose → DerpSupPc
  | .byName => .dial false
  | .down => .down

/-- `esp_tls_init` and the dial; `refused` is where a refusal leads. -/
def DerpWorld.dialed (s : DerpWorld ι) (byAddr : Bool) (refused : DerpSupPc) :
    DialOutcome → DerpWorld ι
  | .noMem => { s with tls := none, sup := .closing (afterDial byAddr) }
  | .refused =>
    { s with tls := some s.conns.length, conns := s.conns ++ [.opened s.gen], sup := refused }
  | .opened =>
    { s with
      tls := some s.conns.length
      conns := s.conns ++ [.opened s.gen]
      sup := .login byAddr }

def supStep (cfg : DerpConfig) (s : DerpWorld ι) : SupAction → Option (DerpWorld ι)
  | .connect =>
    match s.sup with
    | .down => some { s with connected := false, sup := .bump }
    | _ => none
  | .bump =>
    match s.sup with
    | .bump => some { s with gen := (s.gen + 1) % 2 ^ 32, sup := .reset }
    | _ => none
  | .reset lockOk haveAddr =>
    match s.sup with
    | .reset =>
      some { s with
        tls := none
        abortReads := false
        lockMade := s.lockMade || lockOk
        sup := if s.lockMade || lockOk then .dial haveAddr else .down }
    | _ => none
  | .dial r =>
    match s.sup with
    | .dial byAddr => some (s.dialed byAddr (.refused byAddr) r)
    | _ => none
  | .fallback r =>
    match s.sup with
    | .refused byAddr =>
      some ({ s with conns := s.onConn fun c => { c with destroyed := true } }.dialed byAddr
        (.closing (afterDial byAddr)) r)
    | _ => none
  | .giveUp =>
    match s.sup with
    | .refused byAddr => some { s with sup := .closing (afterDial byAddr) }
    | _ => none
  | .loginWrite b =>
    match s.sup with
    | .login _ => some { s with conns := s.onConn fun c => c.write b }
    | _ => none
  | .login ok =>
    match s.sup with
    | .login byAddr =>
      if ok then some { s with conns := s.onConn fun c => { c with loggedIn := true }, sup := .setUp }
      else some { s with sup := .closing (afterDial byAddr) }
    | _ => none
  | .setUp =>
    match s.sup with
    | .setUp => some { s with connected := true, sup := .up }
    | _ => none
  | .close =>
    match s.sup with
    | .up | .down => some { s with sup := .closing .down }
    | _ => none
  | .drop =>
    match s.sup with
    | .closing next =>
      some { s with connected := false, sup := if s.lockMade then .grace next else next.pc }
    | _ => none
  | .take got =>
    match s.sup with
    | .grace next =>
      if !got then some { s with sup := .cut next (derpWlWaited .begin cfg.graceMs cfg.fedMaxMs) }
      else if s.holder = none then some { s with holder := some none, sup := .destroy next }
      else none
    | .slice next w =>
      if !got then some { s with sup := .slice next (derpWlWaited w cfg.sliceMs cfg.fedMaxMs) }
      else if s.holder = none then some { s with holder := some none, sup := .destroy next }
      else none
    | _ => none
  | .cut =>
    match s.sup with
    | .cut next w => some { s with sup := .slice next w }
    | _ => none
  | .destroy =>
    match s.sup with
    | .destroy next =>
      some { s with
        conns := s.onConn fun c => { c with destroyed := true }
        tls := none
        sup := .gives next }
    | _ => none
  | .give =>
    match s.sup with
    | .gives next => some { s with holder := none, sup := next.pc }
    | _ => none

inductive DerpAction (ι : Type)
  | writer (i : ι) (a : WriterAction)
  | sup (a : SupAction)

def derpStep (cfg : DerpConfig) (s : DerpWorld ι) : DerpAction ι → Option (DerpWorld ι)
  | .writer i a => writerStep cfg s i a
  | .sup a => supStep cfg s a

abbrev DerpRun (ι : Type) [DecidableEq ι] (cfg : DerpConfig) :=
  StepSystem.Execution (fun s : DerpWorld ι => s = .init) (derpStep cfg)

end TinyLink
