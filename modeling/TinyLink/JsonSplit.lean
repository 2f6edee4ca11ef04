import TinyLink.Crypto

/-!
# The shallow JSON splitter

Embedding of `jsmn_split.h`: the extent of a value in a whole text and the scanner that follows a value
one byte at a time. A position in a text is the list of the bytes behind it, and a function that returns
the index past something returns the number of bytes up to there.
-/

namespace TinyLink

def tlJsplitMaxDepth : ℕ := 64

def tlJsplitIsWs (c : UInt8) : Bool := c = 32 || c = 9 || c = 10 || c = 13

def tlJsplitWs (js : Bytes) : Bytes := js.dropWhile tlJsplitIsWs

/-- The loop of `tl_jsplit_string` behind the opening quote: the bytes up to and with the closing one. -/
def stringEnd : Bytes → Option ℕ
  | [] => none
  | 92 :: [] => none
  | 92 :: _ :: js => (stringEnd js).map (· + 2)
  | 34 :: _ => some 1
  | _ :: js => (stringEnd js).map (· + 1)

def tlJsplitString : Bytes → Option ℕ
  | 34 :: js => (stringEnd js).map (· + 1)
  | _ => none

def isOpening (c : UInt8) : Bool := c = 123 || c = 91
def isClosing (c : UInt8) : Bool := c = 125 || c = 93

/-- Why `tl_jsplit_value` returns 0: the text ends too early, or there is no value, as it is nested too
deep or a scalar of length 0. -/
inductive ValueFail
  | unterminated
  | noValue
deriving DecidableEq

/-- The loop of `tl_jsplit_value` over a container: `skip` bytes of a string are still to be passed. -/
def containerEnd : ℕ → ℕ → Bytes → Except ValueFail ℕ
  | _, _, [] => .error .unterminated
  | skip + 1, depth, _ :: js => (containerEnd skip depth js).map (· + 1)
  | 0, depth, c :: js =>
    if c = 34 then
      match tlJsplitString (c :: js) with
      | none => .error .unterminated
      | some n => (containerEnd (n - 1) depth js).map (· + 1)
    else if isOpening c then
      if depth + 1 > tlJsplitMaxDepth then .error .noValue
      else (containerEnd 0 (depth + 1) js).map (· + 1)
    else if isClosing c then
      if depth = 1 then .ok 1
      else if depth = 0 then .error .noValue
      else (containerEnd 0 (depth - 1) js).map (· + 1)
    else (containerEnd 0 depth js).map (· + 1)

def isScalarEnd (c : UInt8) : Bool := c = 44 || isClosing c || tlJsplitIsWs c

/-- `tl_jsplit_value` at the first byte of a value. -/
def tlJsplitValue : Bytes → Except ValueFail ℕ
  | [] => .error .unterminated
  | c :: js =>
    if c = 34 then (tlJsplitString (c :: js)).elim (.error .unterminated) .ok
    else if isOpening c then containerEnd 0 0 (c :: js)
    else
      let n := ((c :: js).takeWhile fun c => !isScalarEnd c).length
      if n > 0 then .ok n else .error .noValue

inductive ScanMode
  | text
  | str
  | esc
  | scalar
deriving DecidableEq

structure JsplitScan where
  depth : ℕ
  mode : ScanMode
deriving DecidableEq

/-- `TL_JSCAN_MORE` with the new state, `TL_JSCAN_END`, `TL_JSCAN_END_BEFORE` and `TL_JSCAN_ERR`. -/
inductive ScanResult
  | more (s : JsplitScan)
  | done
  | doneBefore
  | err
deriving DecidableEq

def tlJsplitScanBegin (c : UInt8) : ScanResult :=
  if c = 34 then .more ⟨0, .str⟩
  else if isOpening c then .more ⟨1, .text⟩
  else if c = 44 || isClosing c then .err
  else .more ⟨0, .scalar⟩

def tlJsplitScanByte (s : JsplitScan) (c : UInt8) : ScanResult :=
  match s.mode with
  | .scalar => if isScalarEnd c then .doneBefore else .more s
  | .esc => .more { s with mode := .str }
  | .str =>
    if c = 92 then .more { s with mode := .esc }
    else if c = 34 then if s.depth = 0 then .done else .more { s with mode := .text }
    else .more s
  | .text =>
    if c = 34 then .more { s with mode := .str }
    else if isOpening c then
      if s.depth + 1 > tlJsplitMaxDepth then .err else .more { s with depth := s.depth + 1 }
    else if isClosing c then
      if s.depth = 1 then .done else .more { s with depth := s.depth - 1 }
    else .more s

/-- What feeding the rest of a text to the scanner comes to; `unterminated` if it is not done. -/
def scanBytes (s : JsplitScan) : Bytes → Except ValueFail ℕ
  | [] => .error .unterminated
  | c :: js =>
    match tlJsplitScanByte s c with
    | .more s' => (scanBytes s' js).map (· + 1)
    | .done => .ok 1
    | .doneBefore => .ok 0
    | .err => .error .noValue

def scanValue : Bytes → Except ValueFail ℕ
  | [] => .error .unterminated
  | c :: js =>
    match tlJsplitScanBegin c with
    | .more s => (scanBytes s js).map (· + 1)
    | _ => .error .noValue

end TinyLink
