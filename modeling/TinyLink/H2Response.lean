import TinyLink.H2Core

/-!
# What the log says about responses

The response heads received on a stream, the body delivered for it and whether the server ended it,
read from the log of hook calls and received frames.
-/

namespace TinyLink

/-- The stream that a report about a response is for. -/
@[simp] def H2Event.about : H2Event → Option ℕ
  | .onStatus sid _ => some sid
  | .onSideStatus sid _ => some sid
  | .onHeader sid _ => some sid
  | .onSideHeader sid _ => some sid
  | .onData sid _ => some sid
  | .note (.accepted sid _) => some sid
  | .note (.field sid _) => some sid
  | .note (.head sid _) => some sid
  | _ => none

def H2Event.bytesOn (sid : ℕ) : H2Event → Bytes
  | .onData s p => if s = sid then p else []
  | _ => []

def delivered (sid : ℕ) (log : List H2Event) : Bytes := log.flatMap (H2Event.bytesOn sid)

/-- A frame by which the server ends stream `sid`. -/
def H2Event.endsStream (sid : ℕ) : H2Event → Bool
  | .note (.frame .data flags s) => s = sid && hasFlag flags h2FEndStream
  | .note (.frame .headers flags s) => s = sid && hasFlag flags h2FEndStream
  | _ => false

def Ended (sid : ℕ) (log : List H2Event) : Prop := ∃ e ∈ log, e.endsStream sid = true

instance (sid : ℕ) (log : List H2Event) : Decidable (Ended sid log) :=
  inferInstanceAs (Decidable (∃ e ∈ log, _))

/-- Stream `s` carried a complete response. A 304 declares the length of a body it does not have. -/
structure CompleteResponse (log : List H2Event) (s : H2Stream) : Prop where
  accepted : ∃ st, st / 100 ≠ 1 ∧ .note (.accepted s.id st) ∈ log
  ended : Ended s.id log
  length : s.contentLength < 0 ∨ s.contentLength = s.recvLen
  declared : ∀ f, .onHeader s.id f ∈ log → nameIs f "content-length" = true →
    parseUint f = s.recvLen ∨ (s.status = 304 ∧ s.recvLen = 0)
  received : s.stop = false → (delivered s.id log).length = s.recvLen

/-- What came of the header blocks of a stream: a field, or the end of a response head, with
END_STREAM or without. -/
inductive HeadPart where
  | field (f : HpackField)
  | whole (endStream : Bool)
deriving DecidableEq

def H2Event.part (sid : ℕ) : H2Event → Option HeadPart
  | .note (.field s f) => if s = sid then some (.field f) else none
  | .note (.head s e) => if s = sid then some (.whole e) else none
  | _ => none

/-- What came of the header blocks of stream `sid` while it was open. -/
def headParts (sid : ℕ) (log : List H2Event) : List HeadPart := log.filterMap (H2Event.part sid)

/-- A `:status` field of three digits; 101 is not for HTTP/2. -/
structure StatusField (st : ℕ) (f : HpackField) : Prop where
  clean : f.flags.nameBad = false ∧ f.flags.nameUpper = false ∧ f.flags.valueBad = false
  name : nameIs f ":status" = true
  digits : f.valueTotal = 3 ∧ parseUint f = st
  known : st ≠ 101

/-- A regular field of a response with status `st`. -/
structure RegularField (st : ℕ) (f : HpackField) : Prop where
  clean : f.flags.nameBad = false ∧ f.flags.nameUpper = false ∧ f.flags.valueBad = false
  regular : f.name.head? ≠ some 0x3a
  connection : isConnField f = false
  te : nameIs f "te" = true → valueIeq f "trailers" = true
  length : nameIs f "content-length" = true → st / 100 ≠ 1 ∧
    if st = 204 then valueIeq f "0" = true else 0 ≤ parseUint f

/-- The fields of a well-formed response head with status `st`. -/
inductive ResponseHead (st : ℕ) : List HpackField → Prop where
  | fields (f : HpackField) (fs : List HpackField) (hf : StatusField st f)
      (hfs : ∀ g ∈ fs, RegularField st g)
      (hone : (fs.filter fun g => nameIs g "content-length").length ≤ 1) : ResponseHead st (f :: fs)

/-- Well-formed 1xx heads, if any, and then a well-formed final one, each of them whole. -/
inductive FinallyAnswered : List HeadPart → Prop where
  | informational {st fs rest} (hst : st / 100 = 1) (hh : ResponseHead st fs)
      (hrest : FinallyAnswered rest) : FinallyAnswered (fs.map .field ++ .whole false :: rest)
  | final {st fs} (endStream rest) (hst : 200 ≤ st) (hh : ResponseHead st fs) :
      FinallyAnswered (fs.map .field ++ .whole endStream :: rest)

/-- Nothing of a response came on stream `sid`, or a final one did. -/
def Answered (sid : ℕ) (log : List H2Event) : Prop :=
  headParts sid log = [] ∨ FinallyAnswered (headParts sid log)

end TinyLink
