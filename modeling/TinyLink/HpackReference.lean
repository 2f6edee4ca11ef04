import TinyLink.Hpack

/-!
# HPACK as RFC 7541 has it

A reference decoder for whole header blocks, written from the RFC and not from `hpack.c`: it has
no limits, captures nothing and keeps its dynamic table as a list of entries, newest first.
`hpackStatic` is its Appendix A.
-/

namespace TinyLink

/-- The bytes after a full prefix; the next one counts from `2 ^ m` on. -/
def rfcIntTail : ℕ → Bytes → Option (ℕ × Bytes)
  | _, [] => none
  | m, b :: bs =>
    if b &&& 128 ≠ 0 then
      (rfcIntTail (m + 7) bs).map fun r => ((b &&& 127).toNat * 2 ^ m + r.1, r.2)
    else some ((b &&& 127).toNat * 2 ^ m, bs)

def rfcInt (n : ℕ) : Bytes → Option (ℕ × Bytes)
  | [] => none
  | b :: bs =>
    let i := b.toNat % 2 ^ n
    if i < 2 ^ n - 1 then some (i, bs) else (rfcIntTail 0 bs).map fun r => (i + r.1, r.2)

/-- Appendix B: the length and the code of the symbols 0 to 255 and of EOS. -/
def rfcHuffCode : List (ℕ × ℕ) :=
  [(13, 0x1ff8), (23, 0x7fffd8), (28, 0xfffffe2), (28, 0xfffffe3), (28, 0xfffffe4),
   (28, 0xfffffe5), (28, 0xfffffe6), (28, 0xfffffe7), (28, 0xfffffe8), (24, 0xffffea),
   (30, 0x3ffffffc), (28, 0xfffffe9), (28, 0xfffffea), (30, 0x3ffffffd), (28, 0xfffffeb),
   (28, 0xfffffec), (28, 0xfffffed), (28, 0xfffffee), (28, 0xfffffef), (28, 0xffffff0),
   (28, 0xffffff1), (28, 0xffffff2), (30, 0x3ffffffe), (28, 0xffffff3), (28, 0xffffff4),
   (28, 0xffffff5), (28, 0xffffff6), (28, 0xffffff7), (28, 0xffffff8), (28, 0xffffff9),
   (28, 0xffffffa), (28, 0xffffffb), (6, 0x14), (10, 0x3f8), (10, 0x3f9), (12, 0xffa),
   (13, 0x1ff9), (6, 0x15), (8, 0xf8), (11, 0x7fa), (10, 0x3fa), (10, 0x3fb), (8, 0xf9),
   (11, 0x7fb), (8, 0xfa), (6, 0x16), (6, 0x17), (6, 0x18), (5, 0x0), (5, 0x1), (5, 0x2),
   (6, 0x19), (6, 0x1a), (6, 0x1b), (6, 0x1c), (6, 0x1d), (6, 0x1e), (6, 0x1f), (7, 0x5c),
   (8, 0xfb), (15, 0x7ffc), (6, 0x20), (12, 0xffb), (10, 0x3fc), (13, 0x1ffa), (6, 0x21),
   (7, 0x5d), (7, 0x5e), (7, 0x5f), (7, 0x60), (7, 0x61), (7, 0x62), (7, 0x63), (7, 0x64),
   (7, 0x65), (7, 0x66), (7, 0x67), (7, 0x68), (7, 0x69), (7, 0x6a), (7, 0x6b), (7, 0x6c),
   (7, 0x6d), (7, 0x6e), (7, 0x6f), (7, 0x70), (7, 0x71), (7, 0x72), (8, 0xfc), (7, 0x73),
   (8, 0xfd), (13, 0x1ffb), (19, 0x7fff0), (13, 0x1ffc), (14, 0x3ffc), (6, 0x22), (15, 0x7ffd),
   (5, 0x3), (6, 0x23), (5, 0x4), (6, 0x24), (5, 0x5), (6, 0x25), (6, 0x26), (6, 0x27), (5, 0x6),
   (7, 0x74), (7, 0x75), (6, 0x28), (6, 0x29), (6, 0x2a), (5, 0x7), (6, 0x2b), (7, 0x76),
   (6, 0x2c), (5, 0x8), (5, 0x9), (6, 0x2d), (7, 0x77), (7, 0x78), (7, 0x79), (7, 0x7a),
   (7, 0x7b), (15, 0x7ffe), (11, 0x7fc), (14, 0x3ffd), (13, 0x1ffd), (28, 0xffffffc),
   (20, 0xfffe6), (22, 0x3fffd2), (20, 0xfffe7), (20, 0xfffe8), (22, 0x3fffd3), (22, 0x3fffd4),
   (22, 0x3fffd5), (23, 0x7fffd9), (22, 0x3fffd6), (23, 0x7fffda), (23, 0x7fffdb), (23, 0x7fffdc),
   (23, 0x7fffdd), (23, 0x7fffde), (24, 0xffffeb), (23, 0x7fffdf), (24, 0xffffec), (24, 0xffffed),
   (22, 0x3fffd7), (23, 0x7fffe0), (24, 0xffffee), (23, 0x7fffe1), (23, 0x7fffe2), (23, 0x7fffe3),
   (23, 0x7fffe4), (21, 0x1fffdc), (22, 0x3fffd8), (23, 0x7fffe5), (22, 0x3fffd9), (23, 0x7fffe6),
   (23, 0x7fffe7), (24, 0xffffef), (22, 0x3fffda), (21, 0x1fffdd), (20, 0xfffe9), (22, 0x3fffdb),
   (22, 0x3fffdc), (23, 0x7fffe8), (23, 0x7fffe9), (21, 0x1fffde), (23, 0x7fffea), (22, 0x3fffdd),
   (22, 0x3fffde), (24, 0xfffff0), (21, 0x1fffdf), (22, 0x3fffdf), (23, 0x7fffeb), (23, 0x7fffec),
   (21, 0x1fffe0), (21, 0x1fffe1), (22, 0x3fffe0), (21, 0x1fffe2), (23, 0x7fffed), (22, 0x3fffe1),
   (23, 0x7fffee), (23, 0x7fffef), (20, 0xfffea), (22, 0x3fffe2), (22, 0x3fffe3), (22, 0x3fffe4),
   (23, 0x7ffff0), (22, 0x3fffe5), (22, 0x3fffe6), (23, 0x7ffff1), (26, 0x3ffffe0),
   (26, 0x3ffffe1), (20, 0xfffeb), (19, 0x7fff1), (22, 0x3fffe7), (23, 0x7ffff2), (22, 0x3fffe8),
   (25, 0x1ffffec), (26, 0x3ffffe2), (26, 0x3ffffe3), (26, 0x3ffffe4), (27, 0x7ffffde),
   (27, 0x7ffffdf), (26, 0x3ffffe5), (24, 0xfffff1), (25, 0x1ffffed), (19, 0x7fff2),
   (21, 0x1fffe3), (26, 0x3ffffe6), (27, 0x7ffffe0), (27, 0x7ffffe1), (26, 0x3ffffe7),
   (27, 0x7ffffe2), (24, 0xfffff2), (21, 0x1fffe4), (21, 0x1fffe5), (26, 0x3ffffe8),
   (26, 0x3ffffe9), (28, 0xffffffd), (27, 0x7ffffe3), (27, 0x7ffffe4), (27, 0x7ffffe5),
   (20, 0xfffec), (24, 0xfffff3), (20, 0xfffed), (21, 0x1fffe6), (22, 0x3fffe9), (21, 0x1fffe7),
   (21, 0x1fffe8), (23, 0x7ffff3), (22, 0x3fffea), (22, 0x3fffeb), (25, 0x1ffffee),
   (25, 0x1ffffef), (24, 0xfffff4), (24, 0xfffff5), (26, 0x3ffffea), (23, 0x7ffff4),
   (26, 0x3ffffeb), (27, 0x7ffffe6), (26, 0x3ffffec), (26, 0x3ffffed), (27, 0x7ffffe7),
   (27, 0x7ffffe8), (27, 0x7ffffe9), (27, 0x7ffffea), (27, 0x7ffffeb), (28, 0xffffffe),
   (27, 0x7ffffec), (27, 0x7ffffed), (27, 0x7ffffee), (27, 0x7ffffef), (27, 0x7fffff0),
   (26, 0x3ffffee), (30, 0x3fffffff)]

def msbBits : ℕ → ℕ → List Bool
  | 0, _ => []
  | k + 1, v => v.testBit k :: msbBits k v

def rfcCodeBits (sym : ℕ) : List Bool :=
  match rfcHuffCode[sym]? with
  | some (len, code) => msbBits len code
  | none => []

def rfcEos : ℕ := 256

def rfcSymbol (bits : List Bool) : Option ℕ :=
  (List.range 257).find? fun sym => (rfcCodeBits sym).isPrefixOf bits

/-- The bits of a coded string: codes other than EOS, then at most 7 ones. `fuel` bounds the
codes. -/
def rfcHuffman : ℕ → List Bool → Option Bytes
  | 0, _ => none
  | fuel + 1, bits =>
    match rfcSymbol bits with
    | some sym =>
      if sym = rfcEos then none
      else (rfcHuffman fuel (bits.drop (rfcCodeBits sym).length)).map (UInt8.ofNat sym :: ·)
    | none => if bits.length ≤ 7 ∧ bits.all id then some [] else none

def bitsOf (bs : Bytes) : List Bool := bs.flatMap fun b => msbBits 8 b.toNat

def rfcHuffmanDecode (bs : Bytes) : Option Bytes := rfcHuffman ((bitsOf bs).length + 1) (bitsOf bs)

/-- `counts` says how many codes each length from `len` on has; those of one length follow each
other from `first` on. -/
def canonicalCodes : ℕ → ℕ → List UInt32 → List (List Bool)
  | _, _, [] => []
  | len, first, cnt :: counts =>
    (List.range cnt.toNat).map (fun i => msbBits len (first + i)) ++
      canonicalCodes (len + 1) ((first + cnt.toNat) * 2) counts

/-- The code words of `k_huff_count`, in the order of `k_huff_sym`; EOS is the last. -/
def huffCodes : List (List Bool) := canonicalCodes 5 0 kHuffCount

def huffCode (c : UInt8) : List Bool := huffCodes.getD (kHuffSym.idxOf c) []

/-- The codes of the characters of `w`, then fewer than 8 one bits. -/
def HuffCoded (bs w : Bytes) : Prop :=
  ∃ pad, bitsOf bs = w.flatMap huffCode ++ pad ∧ pad.length < 8 ∧ pad.all id = true

def rfcString : Bytes → Option (Bytes × Bytes)
  | [] => none
  | b :: bs => do
    let (len, rest) ← rfcInt 7 (b :: bs)
    guard (len ≤ rest.length)
    let s ← if b &&& 128 ≠ 0 then rfcHuffmanDecode (rest.take len) else some (rest.take len)
    return (s, rest.drop len)

def HpackEntry.rfcSize (e : HpackEntry) : ℕ := e.name.length + e.value.length + 32

def rfcKeep : ℕ → List HpackEntry → List HpackEntry
  | _, [] => []
  | n, e :: es => if e.rfcSize ≤ n then e :: rfcKeep (n - e.rfcSize) es else []

structure RfcTable where
  entries : List HpackEntry
  limit : ℕ

/-- An entry larger than the table leaves it empty. -/
def RfcTable.insert (t : RfcTable) (e : HpackEntry) : RfcTable :=
  { t with
    entries :=
      if e.rfcSize ≤ t.limit then e :: rfcKeep (t.limit - e.rfcSize) t.entries else [] }

def RfcTable.resize (t : RfcTable) (n : ℕ) : RfcTable := ⟨rfcKeep n t.entries, n⟩

/-- One address space: the static table from 1 on, the dynamic one behind it. -/
def RfcTable.lookup (t : RfcTable) (idx : ℕ) : Option HpackEntry :=
  if idx = 0 then none else (hpackStatic ++ t.entries)[idx - 1]?

structure RfcField where
  name : Bytes
  value : Bytes
  never : Bool

/-- `start` while no field of the block was decoded; `rest` is the input to come. -/
structure RfcState where
  table : RfcTable
  start : Bool
  rest : Bytes

def rfcName (t : RfcTable) (n : ℕ) (xs : Bytes) : Option (Bytes × Bytes) := do
  let (idx, rest) ← rfcInt n xs
  if idx = 0 then rfcString rest else (t.lookup idx).map fun e => (e.name, rest)

def rfcLiteral (t : RfcTable) (n : ℕ) (xs : Bytes) : Option (HpackEntry × Bytes) := do
  let (name, rest) ← rfcName t n xs
  let (value, rest) ← rfcString rest
  return (⟨name, value⟩, rest)

/-- The field of the next representation, none for a size update; `none` is a decoding error or the
end. -/
def rfcStep (maxSize : ℕ) (s : RfcState) : Option (Option RfcField × RfcState) :=
  match s.rest with
  | [] => none
  | b :: bs =>
    if 128 ≤ b then do
      let (idx, rest) ← rfcInt 7 (b :: bs)
      let e ← s.table.lookup idx
      return (some ⟨e.name, e.value, false⟩, ⟨s.table, false, rest⟩)
    else if 64 ≤ b then do
      let (e, rest) ← rfcLiteral s.table 6 (b :: bs)
      return (some ⟨e.name, e.value, false⟩, ⟨s.table.insert e, false, rest⟩)
    else if 32 ≤ b then do
      guard (s.start = true)
      let (n, rest) ← rfcInt 5 (b :: bs)
      guard (n ≤ maxSize)
      return (none, ⟨s.table.resize n, true, rest⟩)
    else do
      let (e, rest) ← rfcLiteral s.table 4 (b :: bs)
      return (some ⟨e.name, e.value, 16 ≤ b⟩, ⟨s.table, false, rest⟩)

/-- The fields of the next `n` representations, and the state behind them. -/
def rfcRun (maxSize : ℕ) : ℕ → RfcState → Option (List RfcField × RfcState)
  | 0, s => some ([], s)
  | n + 1, s => do
    let (f, s) ← rfcStep maxSize s
    let (fs, s) ← rfcRun maxSize n s
    return (f.toList ++ fs, s)

/-- The fields of a sequence of whole blocks, and the table behind them. -/
inductive RfcBlocks (maxSize : ℕ) : RfcTable → List Bytes → List RfcField → RfcTable → Prop where
  | nil (t : RfcTable) : RfcBlocks maxSize t [] [] t
  | cons {t t' : RfcTable} {b : Bytes} {bs : List Bytes} {fs fs' : List RfcField} {n : ℕ}
      {s : RfcState} (run : rfcRun maxSize n ⟨t, true, b⟩ = some (fs, s)) (whole : s.rest = [])
      (rest : RfcBlocks maxSize s.table bs fs' t') : RfcBlocks maxSize t (b :: bs) (fs ++ fs') t'

/-- An integer above `2 ^ 31 - 1`, or of more than five bytes behind its prefix. -/
def LongInt (n : ℕ) (xs : Bytes) : Prop :=
  ∃ v rest, rfcInt n xs = some (v, rest) ∧ (2 ^ 31 ≤ v ∨ rest.length + 6 < xs.length)

def LongString (xs : Bytes) : Prop :=
  LongInt 7 xs ∨ ∃ v rest, rfcInt 7 xs = some (v, rest) ∧ hpackMaxString < v

/-- The bits of the first byte that belong to its integer. -/
def rfcPrefix (b : UInt8) : ℕ := if 128 ≤ b then 7 else if 64 ≤ b then 6 else if 32 ≤ b then 5 else 4

/-- The representation `b :: bs` meets a documented limit of the decoder. -/
inductive HitsLimit (t : RfcTable) (b : UInt8) (bs : Bytes) : Prop where
  | int (h : LongInt (rfcPrefix b) (b :: bs))
  | name {rest : Bytes} (hlit : b < 32 ∨ 64 ≤ b ∧ b < 128)
      (hint : rfcInt (rfcPrefix b) (b :: bs) = some (0, rest)) (h : LongString rest)
  | value {name rest : Bytes} (hlit : b < 32 ∨ 64 ≤ b ∧ b < 128)
      (hname : rfcName t (rfcPrefix b) (b :: bs) = some (name, rest)) (h : LongString rest)
  | capture {e : HpackEntry} {rest : Bytes} (hincr : 64 ≤ b ∧ b < 128)
      (hlit : rfcLiteral t 6 (b :: bs) = some (e, rest)) (hfits : e.rfcSize ≤ t.limit)
      (h : hpackNameCap < e.name.length ∨ hpackValueCap < e.value.length)

def isUpper (c : UInt8) : Bool := 0x41 ≤ c && c ≤ 0x5a

def isBlank (c : UInt8) : Bool := c = 0x20 || c = 0x09

def plainName (name : Bytes) : Bytes := if name.head? = some 0x3a then name.tail else name

/-- The captures, the true lengths, and the flags of `hpack_field_t` read off the whole strings. -/
def RfcField.report (f : RfcField) : HpackField :=
  { name := f.name.take hpackNameCap
    value := f.value.take hpackValueCap
    nameTotal := f.name.length
    valueTotal := f.value.length
    flags :=
      { nameCut := hpackNameCap < f.name.length
        valueCut := hpackValueCap < f.value.length
        nameBad := (plainName f.name).isEmpty ||
          (plainName f.name).any fun c => !isUpper c && !nameCharOk c
        nameUpper := f.name.any isUpper
        valueBad := f.value.any (!valueCharOk ·) || f.value.head?.any isBlank ||
          f.value.getLast?.any isBlank
        neverIndex := f.never } }

end TinyLink
