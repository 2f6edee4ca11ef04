import TinyLink.Library.Execution
import TinyLink.TlsRtc

/-!
# TLS session resumption

Embedding of `tls_resume.c`, and the system it is part of: the DERP and the control task, each with its
slot, over any sequence of boots. What `tls_resume_take` and `tls_resume_keep` do under `s_rtc_lock` is
one step, and so is each exchange of a slot. `esp_timer` restarts at every boot; the RTC timer restarts
at cold ones only.
-/

namespace TinyLink

def tlsResumeMaxAgeS : ℕ := 24 * 3600

def tlsResumeHostMax : ℕ := 64

def maxAgeUs : ℕ := tlsResumeMaxAgeS * 1000000

/-- The sessions of mbedTLS: save (`none`: it fails) and load; `resumable` if there is a ticket or a
session ID. -/
structure TlsStack where
  Session : Type
  Secret : Type
  sessionEq : DecidableEq Session
  secretEq : DecidableEq Secret
  master : Session → Secret
  resumable : Session → Bool
  save : Session → Option Bytes
  load : Bytes → Option Session

instance (S : TlsStack) : DecidableEq S.Session := S.sessionEq

instance (S : TlsStack) : DecidableEq S.Secret := S.secretEq

/-- A session that loads is the one that was saved. -/
def TlsStack.Faithful (S : TlsStack) : Prop :=
  ∀ s b s', S.save s = some b → S.load b = some s' → s' = s

variable (S : TlsStack)

structure ResumeEntry where
  sess : S.Session
  bornUs : ℤ
  port : ℕ
  host : CStr
deriving DecidableEq

/-- `s_rtc`, `s_rtc_tried` and `s_rtc_swept`. -/
structure RtcStore where
  recs : List TlsRtcRec
  tried : List Bool
  swept : Bool
deriving DecidableEq

/-- What the code reads: `rtc_warm_boot`, `rtc_now_us` and `esp_timer_get_time`. -/
structure Clocks where
  warm : Bool
  rtcUs : ℕ
  espUs : ℕ
deriving DecidableEq

def rtcSweepLocked (c : Clocks) (m : RtcStore) : RtcStore :=
  if m.swept then m
  else { m with swept := true, recs := (tlsRtcSweep m.recs c.warm c.rtcUs maxAgeUs).1 }

def RtcStore.clear (m : RtcStore) (i : ℕ) : RtcStore := { m with recs := m.recs.set i tlsRtcClear }

/-- `rtc_restore`; `alloc` if both allocations succeed. -/
def rtcRestore (c : Clocks) (alloc : Bool) (host : CStr) (port : ℕ) (m : RtcStore) :
    Option (ResumeEntry S) × RtcStore :=
  let m := rtcSweepLocked c m
  let i := tlsRtcFind m.recs host port
  match m.recs[i]? with
  | none => (none, m)
  | some r =>
    if m.tried.getD i false then (none, m)
    else
      let m := { m with tried := m.tried.set i true }
      match tlsRtcUsable r host port c.rtcUs maxAgeUs with
      | none => (none, m.clear i)
      | some age =>
        if !alloc then (none, m)
        else
          match S.load (r.sess.take r.len) with
          | none => (none, m.clear i)
          | some s => (some ⟨s, (c.espUs : ℤ) - age, port, cstr r.host⟩, m)

def rtcDrop (c : Clocks) (host : CStr) (port : ℕ) (m : RtcStore) : RtcStore :=
  let m := rtcSweepLocked c m
  m.clear (tlsRtcFind m.recs host port)

/-- The record `mbedtls_ssl_session_save` and `tls_rtc_seal` leave in the place of `r`. -/
def sealSession (c : Clocks) (e : ResumeEntry S) (ageUs : ℕ) (r : TlsRtcRec) : TlsRtcRec :=
  match S.save e.sess with
  | none => tlsRtcClear
  | some b =>
    if tlsRtcSessMax < b.length then tlsRtcClear
    else
      let r := { r with magic := 0, sess := b ++ r.sess.drop b.length }
      (tlsRtcSeal r e.host e.port (c.rtcUs - ageUs) c.rtcUs b.length).1

def rtcSave (c : Clocks) (e : ResumeEntry S) (m : RtcStore) : RtcStore :=
  let m := rtcSweepLocked c m
  let m := { m with recs := (tlsRtcSweep m.recs true c.rtcUs maxAgeUs).1 }
  let ageUs : ℤ := c.espUs - e.bornUs
  if ageUs < 0 || (c.rtcUs : ℤ) < ageUs then m.clear (tlsRtcFind m.recs e.host e.port)
  else
    let i := tlsRtcPick m.recs e.host e.port
    { m with recs := m.recs.modify i (sealSession S c e ageUs.toNat) }

/-- The end of `tls_resume_take`: `e` if it may be offered to `host:port`. -/
def takeCheck (c : Clocks) (host : CStr) (port : ℕ) (e : Option (ResumeEntry S)) (m : RtcStore) :
    Option (ResumeEntry S) × RtcStore :=
  match e with
  | none => (none, m)
  | some e =>
    let ageUs : ℤ := c.espUs - e.bornUs
    if e.port ≠ port || e.host ≠ host || (maxAgeUs : ℤ) < ageUs then
      (none, if e.port = port && e.host = host then rtcDrop c host port m else m)
    else (some e, m)

inductive ResumeResult
  | none
  | full
  | resumed
deriving DecidableEq

inductive KeepStep
  /-- no session: it frees `taken` and drops the record -/
  | drop
  /-- no memory for the entry -/
  | giveUp
  /-- the entry for `rtc_save` and the slot -/
  | save (e : ResumeEntry S) (result : ResumeResult)

/-- The beginning of `tls_resume_keep`. `tls` is the session of the connect, `exported` if
`esp_tls_get_client_session` can copy it, `alloc` if an entry can be allocated. -/
def keepBegin (c : Clocks) (exported alloc : Bool) (taken : Option (ResumeEntry S))
    (tls : Option S.Session) (host : CStr) (port : ℕ) : KeepStep S :=
  let s := if host.1.length < tlsResumeHostMax && exported then tls else none
  match s.filter S.resumable with
  | none => .drop
  | some s =>
    match taken with
    | none => if !alloc then .giveUp else .save ⟨s, c.espUs, port, host⟩ .full
    | some t =>
      if S.master t.sess = S.master s then .save ⟨s, t.bornUs, port, host⟩ .resumed
      else .save ⟨s, c.espUs, port, host⟩ .full

inductive ResumeTask
  | derp
  | control
deriving DecidableEq

def ResumeTask.other : ResumeTask → ResumeTask
  | .derp => .control
  | .control => .derp

inductive ResumePc
  | idle
  /-- in `tls_resume_take`, behind the exchange of the slot and `rtc_restore` -/
  | checking (host : CStr) (port : ℕ) (e : Option (ResumeEntry S))
  | connecting (host : CStr) (port : ℕ) (taken : Option (ResumeEntry S))
  /-- before `tls_resume_keep` -/
  | connected (host : CStr) (port : ℕ) (taken : Option (ResumeEntry S)) (tls : Option S.Session)
  /-- before `rtc_save` -/
  | saving (e : ResumeEntry S)
  /-- before the exchange of the slot at the end of `tls_resume_keep` -/
  | storing (e : ResumeEntry S)
deriving DecidableEq

structure ResumeSide where
  slot : Option (ResumeEntry S)
  pc : ResumePc S

/-- `nowUs` is real time; `used` are the master secrets derived so far. -/
structure ResumeWorld where
  nowUs : ℕ
  clocks : Clocks
  store : RtcStore
  side : ResumeTask → ResumeSide S
  used : List S.Secret

inductive Handshake
  | failed
  | full (s : S.Session)
  | resumed (s : S.Session)

inductive ResumeAction
  | pass (us : ℕ)
  /-- a reset and the boot behind it. A cold one finds any bytes in RTC memory and the RTC timer at
  any time. -/
  | boot (warm : Bool) (mem : List TlsRtcRec) (rtcUs : ℕ)
  | take (t : ResumeTask) (host : CStr) (port : ℕ) (alloc : Bool)
  | check (t : ResumeTask)
  | connect (t : ResumeTask) (h : Handshake S)
  | keep (t : ResumeTask) (exported alloc : Bool)
  | save (t : ResumeTask)
  | store (t : ResumeTask)

variable {S}

def ResumeWorld.setSide (w : ResumeWorld S) (t : ResumeTask) (x : ResumeSide S) : ResumeWorld S :=
  { w with side := fun u => if u = t then x else w.side u }

/-- A boot with `mem` in RTC memory: RAM is empty, and `tls_resume_boot` has run. -/
def ResumeWorld.booted (w : ResumeWorld S) (warm : Bool) (mem : List TlsRtcRec) (rtcUs : ℕ) :
    ResumeWorld S :=
  let c : Clocks := ⟨warm, rtcUs, 0⟩
  { w with
    clocks := c
    store := rtcSweepLocked c ⟨mem, mem.map fun _ => false, false⟩
    side := fun _ => ⟨none, .idle⟩ }

/-- A full handshake derives a new master secret, and one that resumes has that of the session it
was offered. -/
def connectStep (w : ResumeWorld S) (t : ResumeTask) (host : CStr) (port : ℕ)
    (taken : Option (ResumeEntry S)) : Handshake S → Option (ResumeWorld S)
  | .failed => some (w.setSide t ⟨(w.side t).slot, .connected host port taken none⟩)
  | .full s =>
    if S.master s ∈ w.used then none
    else
      some { w.setSide t ⟨(w.side t).slot, .connected host port taken (some s)⟩ with
        used := S.master s :: w.used }
  | .resumed s =>
    match taken with
    | none => none
    | some e =>
      if S.master s = S.master e.sess then
        some (w.setSide t ⟨(w.side t).slot, .connected host port taken (some s)⟩)
      else none

def resumeStep (w : ResumeWorld S) : ResumeAction S → Option (ResumeWorld S)
  | .pass us =>
    some { w with
      nowUs := w.nowUs + us
      clocks := { w.clocks with rtcUs := w.clocks.rtcUs + us, espUs := w.clocks.espUs + us } }
  | .boot true _ _ => some (w.booted true w.store.recs w.clocks.rtcUs)
  | .boot false mem rtcUs => some (w.booted false mem rtcUs)
  | .take t host port alloc =>
    match (w.side t).pc with
    | .idle =>
      match (w.side t).slot with
      | some e => some (w.setSide t ⟨none, .checking host port (some e)⟩)
      | none =>
        let (e, m) := rtcRestore S w.clocks alloc host port w.store
        some { w.setSide t ⟨none, .checking host port e⟩ with store := m }
    | _ => none
  | .check t =>
    match (w.side t).pc with
    | .checking host port e =>
      let (e, m) := takeCheck S w.clocks host port e w.store
      some { w.setSide t ⟨(w.side t).slot, .connecting host port e⟩ with store := m }
    | _ => none
  | .connect t h =>
    match (w.side t).pc with
    | .connecting host port taken => connectStep w t host port taken h
    | _ => none
  | .keep t exported alloc =>
    match (w.side t).pc with
    | .connected host port taken tls =>
      match keepBegin S w.clocks exported alloc taken tls host port with
      | .drop =>
        some { w.setSide t ⟨(w.side t).slot, .idle⟩ with
          store := rtcDrop w.clocks host port w.store }
      | .giveUp => some (w.setSide t ⟨(w.side t).slot, .idle⟩)
      | .save e _ => some (w.setSide t ⟨(w.side t).slot, .saving e⟩)
    | _ => none
  | .save t =>
    match (w.side t).pc with
    | .saving e =>
      some { w.setSide t ⟨(w.side t).slot, .storing e⟩ with store := rtcSave S w.clocks e w.store }
    | _ => none
  | .store t =>
    match (w.side t).pc with
    | .storing e => some (w.setSide t ⟨some e, .idle⟩)
    | _ => none

def ResumeWorld.Starts (w : ResumeWorld S) : Prop :=
  ∃ nowUs c m sides mem rtcUs,
    w = ResumeWorld.booted ⟨nowUs, c, m, sides, []⟩ false mem rtcUs

def ResumePc.entries : ResumePc S → List (ResumeEntry S)
  | .idle => []
  | .checking _ _ e | .connecting _ _ e | .connected _ _ e _ => e.toList
  | .saving e | .storing e => [e]

def ResumePc.tls : ResumePc S → Option S.Session
  | .connected _ _ _ tls => tls
  | _ => none

def ResumeSide.entries (x : ResumeSide S) : List (ResumeEntry S) := x.slot.toList ++ x.pc.entries

/-- The master secrets a task holds, in its slot or for the connect under way. -/
def ResumeSide.secrets (x : ResumeSide S) : List S.Secret :=
  x.entries.map (fun e => S.master e.sess) ++ x.pc.tls.toList.map S.master

abbrev ResumeRun (S : TlsStack) :=
  StepSystem.Execution (ResumeWorld.Starts (S := S)) (resumeStep (S := S))

namespace ResumeRun

variable (E : ResumeRun S)

def pc (i : ℕ) (t : ResumeTask) : ResumePc S := ((E.state i).side t).pc

/-- `tls_resume_take` returns `e` for a connect to `host:port`. -/
def ReturnsAt (i : ℕ) (t : ResumeTask) (host : CStr) (port : ℕ) (e : ResumeEntry S) : Prop :=
  i < E.length ∧ E.act i = .check t ∧ E.pc (i + 1) t = .connecting host port (some e)

/-- A full handshake with `host:port` derives the master secret of `s`. -/
def DerivesAt (i : ℕ) (t : ResumeTask) (host : CStr) (port : ℕ) (s : S.Session) : Prop :=
  i < E.length ∧ (∃ taken, E.pc i t = .connecting host port taken) ∧ E.act i = .connect t (.full s)

/-- The `tls_resume_keep` at `k` is that of the connect that ended at `j` with the session `s`. -/
def KeepsAt (j k : ℕ) (t : ResumeTask) (host : CStr) (port : ℕ) (s : S.Session) : Prop :=
  j < k ∧ k < E.length ∧
    (∀ l, j < l → l ≤ k → ∃ taken, E.pc l t = .connected host port taken (some s)) ∧
    ∃ exported alloc, E.act k = .keep t exported alloc

/-- A `tls_resume_keep` reports that the connect failed for which `e` was taken. -/
def FailsAt (i : ℕ) (t : ResumeTask) (host : CStr) (port : ℕ) (e : ResumeEntry S) : Prop :=
  i < E.length ∧ E.pc i t = .connected host port (some e) none ∧
    ∃ exported alloc, E.act i = .keep t exported alloc

end ResumeRun

end TinyLink
