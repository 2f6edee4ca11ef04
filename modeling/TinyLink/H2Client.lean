import TinyLink.H2Response
import TinyLink.H2Send

/-!
# The HTTP/2 client

Embedding of `h2_client.c`: the hooks that bind the engine to a connection, and the loop of one
request with the side request that may ride with it. What the record layer and the clock answer is an
input of the loop.
-/

namespace TinyLink
open StepSystem

inductive EspErr where
  | ok
  | fail
  | invalidState
  | invalidSize
deriving DecidableEq

/-- What the client does not decide itself: the answers to the engine, and the seconds that a
Retry-After value stands for. -/
structure H2Env where
  io : H2Io
  retryAfter : HpackField → ℕ

structure H2SideResult where
  status : ℕ
  streamError : ℕ
  expired : Bool
  goaway : Bool
  retryAfterPresent : Bool
  retryAfterS : ℕ
deriving DecidableEq

structure H2Side where
  armed : Bool
  detached : Bool
  expired : Bool
  retryAfterPresent : Bool
  retryAfterS : ℕ
deriving DecidableEq

def H2Side.zero : H2Side := ⟨false, false, false, false, 0⟩

/-- The HTTP/2 part of `ts2021_conn_t`. `rx` are the bytes not parsed yet, `streaming` is a stream
callback, `results` are the calls of the side request's callback. -/
structure H2Conn where
  h2 : H2Core
  goaway : Bool
  rx : Bytes
  status : ℕ
  streamId : Option ℕ
  streamError : ℕ
  retryAfterPresent : Bool
  retryAfterS : ℕ
  streaming : Bool
  deadline : Bool
  respWait : Bool
  repoll : Bool
  oneStream : Bool
  side : Option H2Side
  results : List H2SideResult

/-- `h2_io_on_status`: the final response of a streaming request ends the deadline of the
connection. -/
def h2IoOnStatus (c : H2Conn) (status : ℕ) : H2Conn :=
  let c := { c with status := status, retryAfterPresent := false, retryAfterS := 0 }
  if status < 200 || !c.streaming then c
  else
    let waits := c.side.any fun s => s.armed && !s.detached
    let off := c.respWait || waits
    let c := { c with
      side := c.side.map fun s => if s.armed && !s.detached then { s with detached := true } else s }
    if off && c.deadline then { c with deadline := false, respWait := false, repoll := true } else c

def h2IoOnSideStatus (c : H2Conn) : H2Conn :=
  { c with side := c.side.map fun s => { s with retryAfterPresent := false, retryAfterS := 0 } }

def H2Env.retryAfterS (env : H2Env) (f : HpackField) : ℕ :=
  if f.flags.valueCut then 0 else env.retryAfter f

def h2IoOnHeader (env : H2Env) (c : H2Conn) (f : HpackField) : H2Conn :=
  if nameIs f "retry-after" then
    { c with retryAfterPresent := f.valueTotal > 0, retryAfterS := env.retryAfterS f }
  else c

def h2IoOnSideHeader (env : H2Env) (c : H2Conn) (f : HpackField) : H2Conn :=
  if nameIs f "retry-after" then
    { c with side := c.side.map fun s =>
        { s with retryAfterPresent := f.valueTotal > 0, retryAfterS := env.retryAfterS f } }
  else c

def H2Conn.hear (env : H2Env) (c : H2Conn) : H2Event → H2Conn
  | .onStatus _ status => h2IoOnStatus c status
  | .onHeader _ f => h2IoOnHeader env c f
  | .onSideStatus _ _ => h2IoOnSideStatus c
  | .onSideHeader _ f => h2IoOnSideHeader env c f
  | .onGoaway _ _ => { c with goaway := true }
  | _ => c

def H2Conn.call (env : H2Env) (c : H2Conn) (f : H2Core → H2Res) : H2Conn × H2Rc :=
  let r := f c.h2
  ((r.1.log.drop c.h2.log.length).foldl (H2Conn.hear env) { c with h2 := r.1 }, r.2)

/-- What a turn of the loop meets: the record read, and the answers to the calls it may make. -/
structure H2Turn where
  record : Option Bytes
  pollOk : Bool
  late : Bool
  rxReady : Bool
  deadlineOk : Bool

abbrev H2Leave := H2Conn × EspErr

def H2Leave.andThen (r : H2Leave) (f : H2Conn → H2Leave) : H2Leave :=
  if r.2 = .ok then f r.1 else r

section Drive
variable (env : H2Env)

/-- A request of the client: `lb` is the Ts-Lb value at that time. -/
structure H2Post where
  path : Bytes
  authority : Bytes
  lb : Bytes
  body : Bytes
  side : Option Bytes
  streaming : Bool
  deadlineOk : Bool
  turns : List H2Turn

def H2Post.fields (p : H2Post) (len : ℕ) : List H2Field :=
  [⟨asciiBytes ":method", asciiBytes "POST"⟩,
    ⟨asciiBytes ":scheme", asciiBytes "https"⟩,
    ⟨asciiBytes ":path", p.path⟩,
    ⟨asciiBytes ":authority", p.authority⟩,
    ⟨asciiBytes "content-type", asciiBytes "application/json"⟩,
    ⟨asciiBytes "content-length", asciiBytes (Nat.repr len)⟩] ++
  if p.lb = [] then [] else [⟨asciiBytes "ts-lb", p.lb⟩]

def H2Post.req (p : H2Post) : H2Req := ⟨p.fields p.body.length, p.body⟩

def H2Conn.settle (c : H2Conn) : H2Conn :=
  { c with streaming := false, deadline := false, respWait := false, repoll := false, side := none }

end Drive

end TinyLink
