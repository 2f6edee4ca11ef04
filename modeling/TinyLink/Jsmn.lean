import Mathlib.Data.Int.Notation
import Mathlib.Logic.Function.Iterate
import TinyLink.Crypto

/-!
# The JSON tokenizer

Embedding of `jsmn.h` (not strict, no parent links) and of `jsmn_skip.h`. The token table is a function
on indices: it is never cleared, so a parse starts with the tokens that earlier ones left in it. A text
is read as the list of its remaining bytes; `skip` counts those that a string or a primitive has taken.
-/

namespace TinyLink

inductive JsmnType
  | undefined
  | object
  | array
  | string
  | primitive
deriving DecidableEq

structure JsmnTok where
  type : JsmnType
  start : ℤ
  stop : ℤ
  size : ℤ
deriving DecidableEq

abbrev JsmnTable := ℕ → JsmnTok

inductive JsmnError
  | noMem
  | inval
  | part
deriving DecidableEq

/-- `jsmn_parser`, with the running count of `jsmn_parse` and the table. -/
structure JsmnParser where
  pos : ℕ
  toknext : ℕ
  toksuper : Option ℕ
  count : ℕ
  toks : JsmnTable

def jsmnInit (toks : JsmnTable) : JsmnParser := ⟨0, 0, none, 0, toks⟩

def isOpenTok (t : JsmnTok) : Bool := t.start ≠ -1 && t.stop = -1

def lastTok (toks : JsmnTable) (p : JsmnTok → Bool) : ℕ → Option ℕ
  | 0 => none
  | n + 1 => if p (toks n) then some n else lastTok toks p n

namespace JsmnParser
variable (p : JsmnParser)

def setTok (i : ℕ) (t : JsmnTok) : JsmnParser := { p with toks := Function.update p.toks i t }

/-- `tokens[parser->toksuper].size++`. -/
def growSuper : JsmnParser :=
  match p.toksuper with
  | none => p
  | some i => p.setTok i { p.toks i with size := (p.toks i).size + 1 }

/-- `jsmn_alloc_token` and `jsmn_fill_token`. -/
def addTok (numTokens : ℕ) (t : JsmnTok) : Option JsmnParser :=
  if p.toknext ≥ numTokens then none
  else some { p.setTok p.toknext t with toknext := p.toknext + 1 }

def openTok (numTokens : ℕ) (type : JsmnType) : Option JsmnParser :=
  (p.addTok numTokens ⟨type, p.pos, -1, 0⟩).map fun q =>
    { q.growSuper with toksuper := some p.toknext, count := p.count + 1 }

def closeTok (type : JsmnType) : Option JsmnParser :=
  match lastTok p.toks isOpenTok p.toknext with
  | none => none
  | some i =>
    if (p.toks i).type ≠ type then none
    else
      let q := p.setTok i { p.toks i with stop := p.pos + 1 }
      some { q with toksuper := lastTok q.toks isOpenTok (i + 1) }

def comma : JsmnParser :=
  match p.toksuper with
  | none => p
  | some i =>
    if (p.toks i).type = .array || (p.toks i).type = .object then p
    else
      let isOuter t := (t.type = .array || t.type = .object) && isOpenTok t
      { p with toksuper := (lastTok p.toks isOuter p.toknext).or p.toksuper }

def leafTok (numTokens : ℕ) (type : JsmnType) (start stop : ℕ) : Option JsmnParser :=
  (p.addTok numTokens ⟨type, start, stop, 0⟩).map fun q =>
    { q.growSuper with count := p.count + 1 }

end JsmnParser

/-- `jsmn_parse_primitive`: the number of bytes up to the delimiter. -/
def primitiveLen : Bytes → Option ℕ
  | [] => some 0
  | c :: cs =>
    if c = 0 || [58, 9, 13, 10, 32, 44, 93, 125].contains c then some 0
    else if c < 32 || c ≥ 127 then none
    else (primitiveLen cs).map (· + 1)

def isHex (c : UInt8) : Bool :=
  (48 ≤ c && c ≤ 57) || (65 ≤ c && c ≤ 70) || (97 ≤ c && c ≤ 102)

/-- `jsmn_parse_string` behind the opening quote. `hex` digits of a `\u` escape are still to come.
-/
def stringLen : ℕ → Bytes → Except JsmnError ℕ
  | _, [] => .error .part
  | hex + 1, c :: cs =>
    if c = 0 then .error .part
    else if isHex c then (stringLen hex cs).map (· + 1)
    else .error .inval
  | 0, 34 :: _ => .ok 0
  | 0, 92 :: [] => .error .part
  | 0, 92 :: d :: cs =>
    if [34, 47, 92, 98, 102, 114, 110, 116].contains d then (stringLen 0 cs).map (· + 2)
    else if d = 117 then (stringLen 4 cs).map (· + 2)
    else .error .inval
  | 0, c :: cs => if c = 0 then .error .part else (stringLen 0 cs).map (· + 1)

/-- What one byte of the loop of `jsmn_parse` does, and how many bytes behind it are taken with it. -/
def jsmnByte (numTokens : ℕ) (p : JsmnParser) (c : UInt8) (cs : Bytes) :
    Except JsmnError (JsmnParser × ℕ) :=
  if c = 123 then (p.openTok numTokens .object).elim (.error .noMem) fun q => .ok (q, 0)
  else if c = 91 then (p.openTok numTokens .array).elim (.error .noMem) fun q => .ok (q, 0)
  else if c = 125 then (p.closeTok .object).elim (.error .inval) fun q => .ok (q, 0)
  else if c = 93 then (p.closeTok .array).elim (.error .inval) fun q => .ok (q, 0)
  else if c = 34 then
    match stringLen 0 cs with
    | .error e => .error e
    | .ok n =>
      (p.leafTok numTokens .string (p.pos + 1) (p.pos + 1 + n)).elim (.error .noMem) fun q =>
        .ok (q, n + 1)
  else if c = 9 || c = 13 || c = 10 || c = 32 then .ok (p, 0)
  else if c = 58 then
    .ok ({ p with toksuper := if p.toknext = 0 then none else some (p.toknext - 1) }, 0)
  else if c = 44 then .ok (p.comma, 0)
  else
    match primitiveLen (c :: cs) with
    | none => .error .inval
    | some n =>
      (p.leafTok numTokens .primitive p.pos (p.pos + n)).elim (.error .noMem) fun q =>
        .ok (q, n - 1)

/-- The loop of `jsmn_parse`; on an error the table keeps what was written. -/
def jsmnLoop (numTokens : ℕ) : ℕ → Bytes → JsmnParser → Except JsmnError ℕ × JsmnTable
  | _, [], p => finish p
  | skip + 1, _ :: cs, p => jsmnLoop numTokens skip cs { p with pos := p.pos + 1 }
  | 0, c :: cs, p =>
    if c = 0 then finish p
    else
      match jsmnByte numTokens p c cs with
      | .error e => (.error e, p.toks)
      | .ok (q, skip) => jsmnLoop numTokens skip cs { q with pos := q.pos + 1 }
where
  finish (p : JsmnParser) : Except JsmnError ℕ × JsmnTable :=
    if (lastTok p.toks isOpenTok p.toknext).isSome then (.error .part, p.toks)
    else (.ok p.count, p.toks)

def jsmnParse (numTokens : ℕ) (js : Bytes) (toks : JsmnTable) : Except JsmnError ℕ × JsmnTable :=
  jsmnLoop numTokens 0 js (jsmnInit toks)

def jsmnSkipMaxDepth : ℕ := 64

/-- `jsmn_skip_d`, with the levels that may still be entered. -/
def jsmnSkipD (toks : JsmnTable) : ℕ → ℕ → ℕ
  | 0, i => i + 1
  | levels + 1, i =>
    match (toks i).type with
    | .object => (fun j => jsmnSkipD toks levels (j + 1))^[(toks i).size.toNat] (i + 1)
    | .array => (jsmnSkipD toks levels)^[(toks i).size.toNat] (i + 1)
    | _ => i + 1

def jsmnSkip (toks : JsmnTable) (i : ℕ) : ℕ := jsmnSkipD toks (jsmnSkipMaxDepth + 1) i

section
variable {ε : Type} (entry : JsmnTok → ε) (next : ε → Option (ε × Bool)) (toks : JsmnTable) (ntok : ℕ)

/-- A value at token `i` in `jsmn_tree_ok`: the answer, or the next token and the open containers. -/
def jsmnTreeVisit (i : ℕ) (left : List ε) : Except Bool (ℕ × List ε) :=
  if i ≥ ntok || left.length > jsmnSkipMaxDepth then .error false
  else
    let t := toks i
    if t.type = .object || t.type = .array then
      if t.size < 0 then .error false else .ok (i + 1, entry t :: left)
    else if left = [] then .error true
    else .ok (i + 1, left)

/-- One round of the loop of `jsmn_tree_ok`. `next` takes a value from an entry of `left` that has one, and
says whether the container is an object. -/
def jsmnTreeRound (i : ℕ) : List ε → Except Bool (ℕ × List ε)
  | [] => jsmnTreeVisit entry toks ntok i []
  | l :: left =>
    match next l with
    | none => if left = [] then .error true else .ok (i, left)
    | some (l, isObj) => jsmnTreeVisit entry toks ntok (if isObj then i + 1 else i) (l :: left)

def jsmnTreeLoop : ℕ → ℕ → List ε → Bool
  | 0, _, _ => false
  | fuel + 1, i, left =>
    match jsmnTreeRound entry next toks ntok i left with
    | .error b => b
    | .ok (i, left) => jsmnTreeLoop fuel i left

end

/-- An open container as a pair: the values still to visit and whether it is an object. -/
def pairEntry (t : JsmnTok) : ℕ × Bool := (t.size.toNat, t.type = .object)

def pairNext : ℕ × Bool → Option ((ℕ × Bool) × Bool)
  | (0, _) => none
  | (n + 1, isObj) => some ((n, isObj), isObj)

/-- `jsmn_tree_ok`. Each round takes a token or closes a container that was one. -/
def jsmnTreeOk (toks : JsmnTable) (ntok : ℕ) : Bool :=
  jsmnTreeLoop pairEntry pairNext toks ntok (2 * ntok + 2) 0 []

/-- An entry of `left` as it is stored: an `int` with the values still to visit and the kind. -/
def jsmnLeft (t : JsmnTok) : ℤ := Int.bmod (2 * t.size + if t.type = .object then 1 else 0) (2 ^ 32)

def jsmnLeftNext (l : ℤ) : Option (ℤ × Bool) := if l < 2 then none else some (l - 2, (l - 2) % 2 = 1)

/-- `jsmn_tree_ok` on the stack as it is stored. -/
def jsmnTreeOkPacked (toks : JsmnTable) (ntok : ℕ) : Bool :=
  jsmnTreeLoop jsmnLeft jsmnLeftNext toks ntok (2 * ntok + 2) 0 []

end TinyLink
