import TinyLink.Crypto

/-!
# HPACK

Embedding of `hpack.c`: the static table, the streaming decoder with its dynamic table and its
canonical Huffman code, and the encoder. The decoder is generic in its table and in the state its
callback works on. The scratch fields of the field in progress are a record of their own.
-/

namespace TinyLink

def hpackNameCap : ℕ := 32
def hpackValueCap : ℕ := 64
def hpackMaxString : ℕ := 65536
def hpackStaticLen : ℕ := 61

structure HpackEntry where
  name : Bytes
  value : Bytes

def HpackEntry.ofAscii (name value : String) : HpackEntry := ⟨asciiBytes name, asciiBytes value⟩

/-- `k_static`, from index 1 on. -/
def hpackStatic : List HpackEntry :=
  [.ofAscii ":authority" "", .ofAscii ":method" "GET", .ofAscii ":method" "POST",
    .ofAscii ":path" "/", .ofAscii ":path" "/index.html", .ofAscii ":scheme" "http",
    .ofAscii ":scheme" "https", .ofAscii ":status" "200", .ofAscii ":status" "204",
    .ofAscii ":status" "206", .ofAscii ":status" "304", .ofAscii ":status" "400",
    .ofAscii ":status" "404", .ofAscii ":status" "500", .ofAscii "accept-charset" "",
    .ofAscii "accept-encoding" "gzip, deflate", .ofAscii "accept-language" "",
    .ofAscii "accept-ranges" "", .ofAscii "accept" "", .ofAscii "access-control-allow-origin" "",
    .ofAscii "age" "", .ofAscii "allow" "", .ofAscii "authorization" "",
    .ofAscii "cache-control" "", .ofAscii "content-disposition" "",
    .ofAscii "content-encoding" "", .ofAscii "content-language" "", .ofAscii "content-length" "",
    .ofAscii "content-location" "", .ofAscii "content-range" "", .ofAscii "content-type" "",
    .ofAscii "cookie" "", .ofAscii "date" "", .ofAscii "etag" "", .ofAscii "expect" "",
    .ofAscii "expires" "", .ofAscii "from" "", .ofAscii "host" "", .ofAscii "if-match" "",
    .ofAscii "if-modified-since" "", .ofAscii "if-none-match" "", .ofAscii "if-range" "",
    .ofAscii "if-unmodified-since" "", .ofAscii "last-modified" "", .ofAscii "link" "",
    .ofAscii "location" "", .ofAscii "max-forwards" "", .ofAscii "proxy-authenticate" "",
    .ofAscii "proxy-authorization" "", .ofAscii "range" "", .ofAscii "referer" "",
    .ofAscii "refresh" "", .ofAscii "retry-after" "", .ofAscii "server" "",
    .ofAscii "set-cookie" "", .ofAscii "strict-transport-security" "",
    .ofAscii "transfer-encoding" "", .ofAscii "user-agent" "", .ofAscii "vary" "",
    .ofAscii "via" "", .ofAscii "www-authenticate" ""]

/-- Codes of each length from 5 to 30 bits. -/
def kHuffCount : List UInt32 :=
  [10, 26, 32, 6, 0, 5, 3, 2, 6, 2, 3, 0, 0, 0, 3, 8, 13, 26, 29, 12, 4, 15, 19, 29, 0, 4]

/-- The symbols in code order; EOS would follow at index 256. -/
def kHuffSym : List UInt8 :=
  [0x30, 0x31, 0x32, 0x61, 0x63, 0x65, 0x69, 0x6f, 0x73, 0x74, 0x20, 0x25, 0x2d, 0x2e, 0x2f, 0x33,
   0x34, 0x35, 0x36, 0x37, 0x38, 0x39, 0x3d, 0x41, 0x5f, 0x62, 0x64, 0x66, 0x67, 0x68, 0x6c, 0x6d,
   0x6e, 0x70, 0x72, 0x75, 0x3a, 0x42, 0x43, 0x44, 0x45, 0x46, 0x47, 0x48, 0x49, 0x4a, 0x4b, 0x4c,
   0x4d, 0x4e, 0x4f, 0x50, 0x51, 0x52, 0x53, 0x54, 0x55, 0x56, 0x57, 0x59, 0x6a, 0x6b, 0x71, 0x76,
   0x77, 0x78, 0x79, 0x7a, 0x26, 0x2a, 0x2c, 0x3b, 0x58, 0x5a, 0x21, 0x22, 0x28, 0x29, 0x3f, 0x27,
   0x2b, 0x7c, 0x23, 0x3e, 0x00, 0x24, 0x40, 0x5b, 0x5d, 0x7e, 0x5e, 0x7d, 0x3c, 0x60, 0x7b, 0x5c,
   0xc3, 0xd0, 0x80, 0x82, 0x83, 0xa2, 0xb8, 0xc2, 0xe0, 0xe2, 0x99, 0xa1, 0xa7, 0xac, 0xb0, 0xb1,
   0xb3, 0xd1, 0xd8, 0xd9, 0xe3, 0xe5, 0xe6, 0x81, 0x84, 0x85, 0x86, 0x88, 0x92, 0x9a, 0x9c, 0xa0,
   0xa3, 0xa4, 0xa9, 0xaa, 0xad, 0xb2, 0xb5, 0xb9, 0xba, 0xbb, 0xbd, 0xbe, 0xc4, 0xc6, 0xe4, 0xe8,
   0xe9, 0x01, 0x87, 0x89, 0x8a, 0x8b, 0x8c, 0x8d, 0x8f, 0x93, 0x95, 0x96, 0x97, 0x98, 0x9b, 0x9d,
   0x9e, 0xa5, 0xa6, 0xa8, 0xae, 0xaf, 0xb4, 0xb6, 0xb7, 0xbc, 0xbf, 0xc5, 0xe7, 0xef, 0x09, 0x8e,
   0x90, 0x91, 0x94, 0x9f, 0xab, 0xce, 0xd7, 0xe1, 0xec, 0xed, 0xc7, 0xcf, 0xea, 0xeb, 0xc0, 0xc1,
   0xc8, 0xc9, 0xca, 0xcd, 0xd2, 0xd5, 0xda, 0xdb, 0xee, 0xf0, 0xf2, 0xf3, 0xff, 0xcb, 0xcc, 0xd3,
   0xd4, 0xd6, 0xdd, 0xde, 0xdf, 0xf1, 0xf4, 0xf5, 0xf6, 0xf7, 0xf8, 0xfa, 0xfb, 0xfc, 0xfd, 0xfe,
   0x02, 0x03, 0x04, 0x05, 0x06, 0x07, 0x08, 0x0b, 0x0c, 0x0e, 0x0f, 0x10, 0x11, 0x12, 0x13, 0x14,
   0x15, 0x17, 0x18, 0x19, 0x1a, 0x1b, 0x1c, 0x1d, 0x1e, 0x1f, 0x7f, 0xdc, 0xf9, 0x0a, 0x0d, 0x16]

structure HpackFlags where
  nameCut : Bool
  valueCut : Bool
  nameBad : Bool
  nameUpper : Bool
  valueBad : Bool
  neverIndex : Bool
deriving DecidableEq

def HpackFlags.none : HpackFlags := ⟨false, false, false, false, false, false⟩

/-- `name` and `value` are the captures, `nameTotal` and `valueTotal` the decoded lengths. -/
structure HpackField where
  name : Bytes
  value : Bytes
  nameTotal : ℕ
  valueTotal : ℕ
  flags : HpackFlags
deriving DecidableEq

inductive HpackRc where
  | ok
  | err
  | unsupported
  | cb
deriving DecidableEq

inductive HpackRep where
  | indexed
  | incr
  | noidx
  | never
deriving DecidableEq

/-- The representation of the field in progress and its flags so far. -/
structure HpackLit where
  rep : HpackRep
  fflags : HpackFlags
deriving DecidableEq

/-- A name in progress (`str_which` 0); `total` is `str_total`. -/
structure HpackName extends HpackLit where
  total : ℕ
  name : Bytes
deriving DecidableEq

/-- A value in progress (`str_which` 1), behind its name. -/
structure HpackValue extends HpackLit where
  nameTotal : ℕ
  name : Bytes
  total : ℕ
  value : Bytes
  lastVbyte : UInt8
deriving DecidableEq

inductive HpackStr where
  | name (n : HpackName)
  | value (v : HpackValue)
deriving DecidableEq

/-- The canonical Huffman decoder: the length of the code, its bits so far, the first code and
symbol index of that length. -/
structure HpackHuff where
  hlen : ℕ
  hcode : UInt32
  hfirst : UInt32
  hindex : UInt32
deriving DecidableEq

inductive HpackIntFor where
  | indexed (lit : HpackLit)
  | name (lit : HpackLit)
  | size
  | strlen (s : HpackStr) (huff : Bool)
deriving DecidableEq

/-- `huff` is the Huffman state of a coded string, `none` for a raw one. -/
inductive HpackSt where
  | first
  | int (what : HpackIntFor) (val shift : ℕ)
  | strHdr (s : HpackStr)
  | str (s : HpackStr) (huff : Option HpackHuff) (left : ℕ)
deriving DecidableEq

/-- What the decoder does with its table: an entry by its index, static ones first; the bytes of
storage in use; `dyn_evict_to`; a field stored as the newest entry. -/
class HpackTable (τ : Type) where
  entry? : τ → ℕ → Option HpackEntry
  used : τ → ℕ
  evictTo : τ → ℕ → τ
  push : τ → HpackValue → τ

structure HpackDec (τ : Type) where
  tab : τ
  tabCap : ℕ
  maxSize : ℕ
  sizeLimit : ℕ
  st : HpackSt
  blockStart : Bool

structure HpackRes (τ σ : Type) where
  dec : HpackDec τ
  ctx : σ
  rc : HpackRc

def hpackStaticNameIndex (name : Bytes) : ℕ :=
  match hpackStatic.findIdx? (·.name = name) with
  | some i => i + 1
  | none => 0

/-- `size`: the table size of RFC 7541. -/
def hpackTabSize (tab : List HpackEntry) : ℕ :=
  (tab.map fun e => 32 + e.name.length + e.value.length).sum

/-- `used`: the bytes of storage in use. -/
def hpackTabUsed (tab : List HpackEntry) : ℕ :=
  (tab.map fun e => 4 + e.name.length + e.value.length).sum

/-- `dyn_evict_to`; `fuel` bounds the entries to drop. -/
def dynEvictLoop (limit : ℕ) : ℕ → List HpackEntry → List HpackEntry
  | 0, tab => tab
  | fuel + 1, tab =>
    if tab.length > 0 && hpackTabSize tab > limit then dynEvictLoop limit fuel tab.dropLast
    else tab

/-- The dynamic table as a list, newest first. -/
instance : HpackTable (List HpackEntry) where
  entry? tab idx :=
    if idx = 0 then none
    else if idx ≤ hpackStaticLen then hpackStatic[idx - 1]?
    else tab[idx - hpackStaticLen - 1]?
  used := hpackTabUsed
  evictTo tab limit := dynEvictLoop limit tab.length tab
  push tab v := ⟨v.name, v.value⟩ :: tab

abbrev HpackListDec := HpackDec (List HpackEntry)
abbrev HpackListRes := HpackRes (List HpackEntry)

section Table
variable {τ : Type} [HpackTable τ]

def HpackDec.dynEvictTo (d : HpackDec τ) (limit : ℕ) : HpackDec τ :=
  { d with tab := HpackTable.evictTo d.tab limit }

def HpackDec.dynInsert (d : HpackDec τ) (v : HpackValue) : HpackDec τ × HpackRc :=
  let esz := 32 + v.nameTotal + v.total
  if esz > d.sizeLimit then (d.dynEvictTo 0, .ok)
  else if v.fflags.nameCut || v.fflags.valueCut then (d, .unsupported)
  else
    let d := d.dynEvictTo (d.sizeLimit - esz)
    if HpackTable.used d.tab + (4 + v.nameTotal + v.total) > d.tabCap then (d, .unsupported)
    else ({ d with tab := HpackTable.push d.tab v }, .ok)

end Table

def nameCharOk (c : UInt8) : Bool :=
  (0x61 ≤ c && c ≤ 0x7a) || (0x30 ≤ c && c ≤ 0x39) ||
    (asciiBytes "!#$%&'*+-.^_`|~").contains c

def valueCharOk (c : UInt8) : Bool := c = 0x09 || (0x20 ≤ c && c ≠ 0x7f)

def HpackName.putChar (n : HpackName) (c : UInt8) : HpackName :=
  let pos := n.total
  let n := { n with total := n.total + 1 }
  let n :=
    if n.name.length < hpackNameCap then { n with name := n.name ++ [c] }
    else { n with fflags := { n.fflags with nameCut := true } }
  if 0x41 ≤ c && c ≤ 0x5a then { n with fflags := { n.fflags with nameUpper := true } }
  else if !(pos = 0 && c = 0x3a) && !nameCharOk c then
    { n with fflags := { n.fflags with nameBad := true } }
  else n

def HpackValue.putChar (v : HpackValue) (c : UInt8) : HpackValue :=
  let pos := v.total
  let v := { v with total := v.total + 1 }
  let v :=
    if v.value.length < hpackValueCap then { v with value := v.value ++ [c] }
    else { v with fflags := { v.fflags with valueCut := true } }
  let v :=
    if !valueCharOk c || (pos = 0 && (c = 0x20 || c = 0x09)) then
      { v with fflags := { v.fflags with valueBad := true } }
    else v
  { v with lastVbyte := c }

def HpackStr.putChar (s : HpackStr) (c : UInt8) : HpackStr :=
  match s with
  | .name n => .name (n.putChar c)
  | .value v => .value (v.putChar c)

def HpackLit.beginName (lit : HpackLit) : HpackName := { lit with total := 0, name := [] }

def HpackName.beginValue (n : HpackName) : HpackValue :=
  -- an empty name or a lone ':' is no field name
  let bad := n.total = 0 || (n.total = 1 && n.name.head? = some 0x3a)
  { rep := n.rep
    fflags := if bad then { n.fflags with nameBad := true } else n.fflags
    nameTotal := n.total
    name := n.name
    total := 0
    value := []
    lastVbyte := 0 }

section Decoder
variable {τ σ : Type} [HpackTable τ] (fn : σ → HpackField → σ × Bool)

/-- `fn` answers `false` to stop. -/
def HpackDec.emit (d : HpackDec τ) (ctx : σ) (v : HpackValue) : HpackRes τ σ :=
  let fflags :=
    if v.total > 0 && (v.lastVbyte = 0x20 || v.lastVbyte = 0x09) then
      { v.fflags with valueBad := true }
    else v.fflags
  let ins := if v.rep = .incr then d.dynInsert { v with fflags := fflags } else (d, .ok)
  if ins.2 ≠ .ok then ⟨ins.1, ctx, ins.2⟩
  else
    let r := fn ctx ⟨v.name, v.value, v.nameTotal, v.total, fflags⟩
    ⟨{ ins.1 with st := .first }, r.1, if r.2 then .ok else .cb⟩

/-- `table_field`: an entry copied into the field in progress. -/
def HpackDec.tableField (d : HpackDec τ) (lit : HpackLit) (idx : ℕ) (withValue : Bool) :
    Option HpackValue :=
  (HpackTable.entry? d.tab idx).map fun e =>
    let v := (e.name.foldl HpackName.putChar lit.beginName).beginValue
    if withValue then e.value.foldl HpackValue.putChar v else v

def HpackHuff.reset : HpackHuff := ⟨1, 0, 0, 0⟩

def HpackHuff.padOk (u : HpackHuff) : Bool :=
  let plen := u.hlen - 1
  plen ≤ 7 && u.hcode >>> 1 = (1 <<< UInt32.ofNat plen) - 1

def HpackDec.strDone (d : HpackDec τ) (ctx : σ) (s : HpackStr) (huff : Option HpackHuff) :
    HpackRes τ σ :=
  if huff.any (!·.padOk) then ⟨d, ctx, .err⟩
  else
    match s with
    | .name n => ⟨{ d with st := .strHdr (.value n.beginValue) }, ctx, .ok⟩
    | .value v => d.emit fn ctx v

/-- One bit of `huff_byte`; `none` is a coding error. -/
def huffBit (su : HpackStr × HpackHuff) (bit : UInt32) : Option (HpackStr × HpackHuff) :=
  let (s, u) := su
  let code := u.hcode ||| bit
  let cnt := if u.hlen ≥ 5 then kHuffCount.getD (u.hlen - 5) 0 else 0
  if code - u.hfirst < cnt then
    let si := u.hindex + (code - u.hfirst)
    if si ≥ 256 then none else some (s.putChar (kHuffSym.getD si.toNat 0), .reset)
  else if u.hlen ≥ 30 then none
  else some (s, ⟨u.hlen + 1, code <<< 1, (u.hfirst + cnt) <<< 1, u.hindex + cnt⟩)

def huffByte (su : HpackStr × HpackHuff) (b : UInt8) : Option (HpackStr × HpackHuff) :=
  [7, 6, 5, 4, 3, 2, 1, 0].foldlM
    (fun su (i : UInt8) => huffBit su ((b >>> i) &&& 1).toUInt32) su

/-- The bytes of a string literal: through the Huffman decoder or as they are. -/
def strBytes (s : HpackStr) (huff : Option HpackHuff) (bs : Bytes) :
    Option (HpackStr × Option HpackHuff) :=
  match huff with
  | some u => (bs.foldlM huffByte (s, u)).map fun su => (su.1, some su.2)
  | none => some (bs.foldl HpackStr.putChar s, none)

def HpackDec.intDone (d : HpackDec τ) (ctx : σ) (what : HpackIntFor) (v : ℕ) : HpackRes τ σ :=
  let d := { d with st := .first }
  match what with
  | .indexed lit =>
    match d.tableField lit v true with
    | none => ⟨d, ctx, .err⟩
    | some fld => d.emit fn ctx fld
  | .size =>
    if v > d.maxSize then ⟨d, ctx, .err⟩
    else ⟨({ d with sizeLimit := v }).dynEvictTo v, ctx, .ok⟩
  | .name lit =>
    if v = 0 then ⟨{ d with st := .strHdr (.name lit.beginName) }, ctx, .ok⟩
    else
      match d.tableField lit v false with
      | none => ⟨d, ctx, .err⟩
      | some fld => ⟨{ d with st := .strHdr (.value fld) }, ctx, .ok⟩
  | .strlen s coded =>
    let huff := if coded then some HpackHuff.reset else none
    if v > hpackMaxString then ⟨d, ctx, .err⟩
    else if v = 0 then d.strDone fn ctx s huff
    else ⟨{ d with st := .str s huff v }, ctx, .ok⟩

def HpackDec.intStart (d : HpackDec τ) (ctx : σ) (what : HpackIntFor) (v mask : ℕ) : HpackRes τ σ :=
  if v < mask then d.intDone fn ctx what v
  else ⟨{ d with st := .int what mask 0 }, ctx, .ok⟩

def hpackDecInit (tabCap maxSize : ℕ) : HpackListDec := ⟨[], tabCap, maxSize, maxSize, .first, true⟩

def hpackDecBegin (d : HpackDec τ) : HpackDec τ := { d with st := .first, blockStart := true }

def hpackDecEnd (d : HpackDec τ) : HpackRc := if d.st = .first then .ok else .err

def HpackDec.firstByte (d : HpackDec τ) (ctx : σ) (b : UInt8) : HpackRes τ σ :=
  if b &&& 0xe0 = 0x20 then
    if !d.blockStart then ⟨d, ctx, .err⟩
    else d.intStart fn ctx .size (b &&& 0x1f).toNat 0x1f
  else
    let d := { d with blockStart := false }
    if b &&& 0x80 ≠ 0 then d.intStart fn ctx (.indexed ⟨.indexed, .none⟩) (b &&& 0x7f).toNat 0x7f
    else if b &&& 0x40 ≠ 0 then d.intStart fn ctx (.name ⟨.incr, .none⟩) (b &&& 0x3f).toNat 0x3f
    else if b &&& 0x10 ≠ 0 then
      d.intStart fn ctx (.name ⟨.never, { HpackFlags.none with neverIndex := true }⟩)
        (b &&& 0x0f).toNat 0x0f
    else d.intStart fn ctx (.name ⟨.noidx, .none⟩) (b &&& 0x0f).toNat 0x0f

def HpackDec.intByte (d : HpackDec τ) (ctx : σ) (what : HpackIntFor) (val shift : ℕ) (b : UInt8) :
    HpackRes τ σ :=
  let v := val + (b &&& 0x7f).toNat <<< shift
  if v > 0x7fffffff then ⟨d, ctx, .err⟩
  else if b &&& 0x80 ≠ 0 then
    if shift + 7 > 28 then ⟨d, ctx, .err⟩
    else ⟨{ d with st := .int what v (shift + 7) }, ctx, .ok⟩
  else d.intDone fn ctx what v

def HpackDec.strChunk (d : HpackDec τ) (ctx : σ) (s : HpackStr) (huff : Option HpackHuff)
    (left : ℕ) (bs : Bytes) : HpackRes τ σ :=
  match strBytes s huff bs with
  | none => ⟨d, ctx, .err⟩
  | some (s, huff) =>
    if left - bs.length = 0 then d.strDone fn ctx s huff
    else ⟨{ d with st := .str s huff (left - bs.length) }, ctx, .ok⟩

/-- One pass of the loop of `hpack_dec_feed` over `b :: rest`, and the input it leaves. -/
def HpackDec.pass (d : HpackDec τ) (ctx : σ) (b : UInt8) (rest : Bytes) : HpackRes τ σ × Bytes :=
  match d.st with
  | .first => (d.firstByte fn ctx b, rest)
  | .int what val shift => (d.intByte fn ctx what val shift b, rest)
  | .strHdr s => (d.intStart fn ctx (.strlen s (b &&& 0x80 ≠ 0)) (b &&& 0x7f).toNat 0x7f, rest)
  | .str s huff left =>
    (d.strChunk fn ctx s huff left ((b :: rest).take left), (b :: rest).drop left)

def hpackFeedLoop : ℕ → HpackDec τ → σ → Bytes → HpackRes τ σ
  | 0, d, ctx, _ => ⟨d, ctx, .ok⟩
  | _ + 1, d, ctx, [] => ⟨d, ctx, .ok⟩
  | fuel + 1, d, ctx, b :: rest =>
    let r := d.pass fn ctx b rest
    if r.1.rc = .ok then hpackFeedLoop fuel r.1.dec r.1.ctx r.2 else r.1

/-- `hpack_dec_feed`; every pass takes at least one byte (`str` has bytes left to come). -/
def hpackDecFeed (d : HpackDec τ) (ctx : σ) (input : Bytes) : HpackRes τ σ :=
  hpackFeedLoop fn input.length d ctx input

/-- A block in pieces between `hpack_dec_begin` and `hpack_dec_end`, up to the first error. -/
def HpackDec.feedChunks (d : HpackDec τ) (ctx : σ) : List Bytes → HpackRes τ σ
  | [] => ⟨d, ctx, .ok⟩
  | xs :: chunks =>
    let r := hpackDecFeed fn d ctx xs
    if r.rc = .ok then r.dec.feedChunks r.ctx chunks else r

def HpackDec.block (d : HpackDec τ) (ctx : σ) (chunks : List Bytes) : HpackRes τ σ :=
  let r := (hpackDecBegin d).feedChunks fn ctx chunks
  if r.rc = .ok ∧ r.dec.st ≠ .first then { r with rc := .err } else r

def HpackDec.blocks (d : HpackDec τ) (ctx : σ) : List (List Bytes) → HpackRes τ σ
  | [] => ⟨d, ctx, .ok⟩
  | chunks :: rest =>
    let r := d.block fn ctx chunks
    if r.rc = .ok then r.dec.blocks r.ctx rest else r

end Decoder

/-- The bytes after a full prefix, least significant first; five hold a `uint32_t`. -/
def hpackIntTail : ℕ → ℕ → Bytes
  | 0, _ => []
  | k + 1, v =>
    if v ≥ 0x80 then UInt8.ofNat (0x80 ||| (v &&& 0x7f)) :: hpackIntTail k (v >>> 7)
    else [UInt8.ofNat v]

/-- `none` where the source returns 0: `cap` is too small. -/
def hpackPutInt (cap : ℕ) (first : UInt8) (bits v : ℕ) : Option Bytes :=
  let max := 2 ^ bits - 1
  let out :=
    if v < max then [first ||| UInt8.ofNat v]
    else (first ||| UInt8.ofNat max) :: hpackIntTail 5 (v - max)
  if out.length ≤ cap then some out else none

def hpackPutString (cap : ℕ) (s : Bytes) : Option Bytes :=
  (hpackPutInt cap 0x00 7 (s.length % 2 ^ 32)).bind fun h =>
    if h.length + s.length > cap then none else some (h ++ s)

def hpackPutField (cap : ℕ) (name value : Bytes) : Option Bytes :=
  let idx := hpackStaticNameIndex name
  let head :=
    if idx ≠ 0 then hpackPutInt cap 0x00 4 idx
    else if cap < 1 then none
    else (hpackPutString (cap - 1) name).map (0x00 :: ·)
  head.bind fun h => (hpackPutString (cap - h.length) value).map (h ++ ·)

end TinyLink
