import TinyLink.H2Send
import TinyLink.Library.History

/-!
# What a server sees of an HTTP/2 session

The server's view of the log: the frames it was sent, the DATA among them, and what it had granted.
A DATA frame is allowed if the server's windows and frame size, as announced before it was sent,
have room for it.
-/

namespace TinyLink
open History

@[simp] def H2Event.frames : H2Event → List OutFrame
  | .send fs => fs
  | .txSend fs => fs
  | _ => []

def sentFrames (log : List H2Event) : List OutFrame := log.flatMap H2Event.frames

def OutFrame.dataOn (sid : ℕ) : OutFrame → Option (UInt8 × Bytes)
  | .frame .data flags s payload => if s = sid then some (flags, payload) else none
  | _ => none

def dataFrames (sid : ℕ) (fs : List OutFrame) : List (UInt8 × Bytes) :=
  fs.filterMap (OutFrame.dataOn sid)

def payloads (ds : List (UInt8 × Bytes)) : Bytes := ds.flatMap Prod.snd

def OutFrame.dataSize : OutFrame → ℕ
  | .frame .data _ _ payload => payload.length
  | _ => 0

def sentBytes (fs : List OutFrame) : ℕ := (fs.map OutFrame.dataSize).sum

def sentOn (sid : ℕ) (fs : List OutFrame) : ℕ := (payloads (dataFrames sid fs)).length

@[simp] def H2Event.grant (sid : ℕ) : H2Event → ℕ
  | .note (.windowUpdate s inc) => if s = sid then inc else 0
  | _ => 0

/-- The sum of the WINDOW_UPDATEs for `sid`; 0 is the connection. -/
def updates (sid : ℕ) (log : List H2Event) : ℕ := (log.map (H2Event.grant sid)).sum

@[simp] def H2Event.settingAfter (what : H2Setting) (v : ℕ) : H2Event → ℕ
  | .note (.setting w u) => if w = what then u else v
  | _ => v

def lastSetting (what : H2Setting) (default : ℕ) (log : List H2Event) : ℕ :=
  log.foldl (H2Event.settingAfter what) default

def grantedConn (log : List H2Event) : ℕ := 65535 + updates 0 log

def grantedStream (sid : ℕ) (log : List H2Event) : ℕ :=
  lastSetting .initialWindowSize 65535 log + updates sid log

/-- A frame sent after `before`, which is in the same record, and the log `past`. -/
def FrameAllowed (past : List H2Event) (before : List OutFrame) (f : OutFrame) : Prop :=
  match f with
  | .frame .data _ sid payload =>
    sentBytes (sentFrames past ++ before ++ [f]) ≤ grantedConn past ∧
      (payload ≠ [] → sentOn sid (sentFrames past ++ before ++ [f]) ≤ grantedStream sid past) ∧
      payload.length ≤ lastSetting .maxFrameSize 16384 past
  | _ => True

def RecordAllowed (past : List H2Event) (fs : List OutFrame) : Prop := Each (FrameAllowed past) fs

/-- Every frame was allowed when it was sent. -/
def FlowRespected (log : List H2Event) : Prop :=
  Each (fun past e => RecordAllowed past e.frames) log

/-- The DATA frames of a stream carry its body in order; END_STREAM is on the frame that completes
it and on no other. -/
def CarriesBody (body : Bytes) (ds : List (UInt8 × Bytes)) : Prop :=
  payloads ds <+: body ∧
    Each (fun before d => (∀ c ∈ before, hasFlag c.1 h2FEndStream = false) ∧
      (hasFlag d.1 h2FEndStream = true ↔ payloads (before ++ [d]) = body)) ds

def OutFrame.isGoaway : OutFrame → Bool
  | .frame .goaway _ _ _ => true
  | _ => false

@[simp] def H2Event.isSend : H2Event → Bool
  | .send _ => true
  | .txSend _ => true
  | _ => false

def H2Event.failed (io : H2Io) (past : List H2Event) : H2Event → Bool
  | .send _ => !io.send past
  | .txSend _ => !io.txSend past
  | _ => false

/-- A failed send, or one with a GOAWAY. -/
def H2Event.isLastWord (io : H2Io) (past : List H2Event) (e : H2Event) : Bool :=
  e.failed io past || e.frames.any OutFrame.isGoaway

/-- The last word of the session was said. -/
def Over (io : H2Io) (log : List H2Event) : Prop :=
  ¬ Each (fun past e => e.isLastWord io past = false) log

def wireBytes (log : List H2Event) : Bytes := (sentFrames log).flatMap OutFrame.encode

/-- A frame with all of the payload that its header announces. -/
def WholeFrame (b : Bytes) : Prop :=
  h2FrameHdrLen ≤ b.length ∧ b.length = h2FrameHdrLen + getBe (b.take 3)

end TinyLink
