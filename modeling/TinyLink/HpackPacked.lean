import TinyLink.Hpack

/-!
# HPACK in memory

`hpack_dec_t` with its dynamic table as the caller's bytes: entries packed newest first in
`tab[0..used)`, each `BE16 name_len || BE16 value_len || name || value`. Then the encoder with every
byte it stores behind `out`, also where it gives up.
-/

namespace TinyLink

/-- `k_static`: length-prefixed names and values, from index 1 on. -/
def kStatic : Bytes := List.flatMap asciiBytes
  ["\x0a:authority\x00", "\x07:method\x03GET", "\x07:method\x04POST", "\x05:path\x01/",
   "\x05:path\x0b/index.html", "\x07:scheme\x04http", "\x07:scheme\x05https",
   "\x07:status\x03200", "\x07:status\x03204", "\x07:status\x03206", "\x07:status\x03304",
   "\x07:status\x03400", "\x07:status\x03404", "\x07:status\x03500", "\x0eaccept-charset\x00",
   "\x0faccept-encoding\x0dgzip, deflate", "\x0faccept-language\x00", "\x0daccept-ranges\x00",
   "\x06accept\x00", "\x1baccess-control-allow-origin\x00", "\x03age\x00", "\x05allow\x00",
   "\x0dauthorization\x00", "\x0dcache-control\x00", "\x13content-disposition\x00",
   "\x10content-encoding\x00", "\x10content-language\x00", "\x0econtent-length\x00",
   "\x10content-location\x00", "\x0dcontent-range\x00", "\x0ccontent-type\x00", "\x06cookie\x00",
   "\x04date\x00", "\x04etag\x00", "\x06expect\x00", "\x07expires\x00", "\x04from\x00",
   "\x04host\x00", "\x08if-match\x00", "\x11if-modified-since\x00", "\x0dif-none-match\x00",
   "\x08if-range\x00", "\x13if-unmodified-since\x00", "\x0dlast-modified\x00", "\x04link\x00",
   "\x08location\x00", "\x0cmax-forwards\x00", "\x12proxy-authenticate\x00",
   "\x13proxy-authorization\x00", "\x05range\x00", "\x07referer\x00", "\x07refresh\x00",
   "\x0bretry-after\x00", "\x06server\x00", "\x0aset-cookie\x00",
   "\x19strict-transport-security\x00", "\x11transfer-encoding\x00", "\x0auser-agent\x00",
   "\x04vary\x00", "\x03via\x00", "\x10www-authenticate\x00"]

/-- The two strings of a `k_static` entry skipped `i` times, from `p` on. -/
def staticWalk : ℕ → ℕ → ℕ
  | 0, p => p
  | i + 1, p =>
    let p := p + 1 + (kStatic.getD p 0).toNat
    staticWalk i (p + 1 + (kStatic.getD p 0).toNat)

def staticEntry (idx : ℕ) : ℕ := staticWalk (idx - 1) 0

def be16 (tab : Bytes) (p : ℕ) : ℕ := (tab.getD p 0).toNat * 256 + (tab.getD (p + 1) 0).toNat

def bytesAt (mem : Bytes) (p n : ℕ) : Bytes := (mem.drop p).take n

def writeAt (mem : Bytes) (p : ℕ) (bs : Bytes) : Bytes :=
  mem.take p ++ bs ++ mem.drop (p + bs.length)

/-- The caller's storage. `size` and `used` are `uint32_t`, `count` is a `uint16_t`. -/
structure HpackStore where
  bytes : Bytes
  size : ℕ
  used : ℕ
  count : ℕ

def dynEntry (tab : Bytes) : ℕ → ℕ → ℕ
  | 0, p => p
  | j + 1, p => dynEntry tab j (p + (4 + be16 tab p + be16 tab (p + 2)))

def HpackStore.dropOldest (s : HpackStore) : HpackStore :=
  let e := dynEntry s.bytes (s.count - 1) 0
  let n := be16 s.bytes e
  let v := be16 s.bytes (e + 2)
  { s with
    size := (s.size + 2 ^ 32 - (32 + n + v)) % 2 ^ 32
    used := (s.used + 2 ^ 32 - (4 + n + v)) % 2 ^ 32
    count := s.count - 1 }

def HpackStore.evictLoop (limit : ℕ) : ℕ → HpackStore → HpackStore
  | 0, s => s
  | fuel + 1, s =>
    if s.count > 0 && s.size > limit then HpackStore.evictLoop limit fuel s.dropOldest else s

/-- The end of `dyn_insert`: the entries are moved up and the field is written in front of them. -/
def HpackStore.push (s : HpackStore) (f : HpackValue) : HpackStore :=
  let n := f.nameTotal
  let v := f.total
  let eb := 4 + n + v
  let tab := writeAt s.bytes eb (s.bytes.take s.used)
  let tab := writeAt tab 0 [UInt8.ofNat (n >>> 8), UInt8.ofNat n, UInt8.ofNat (v >>> 8),
    UInt8.ofNat v]
  let tab := writeAt tab 4 (f.name.take n)
  let tab := writeAt tab (4 + n) (f.value.take v)
  { bytes := tab
    used := (s.used + eb) % 2 ^ 32
    size := (s.size + (32 + n + v)) % 2 ^ 32
    count := (s.count + 1) % 2 ^ 16 }

def HpackStore.entry? (s : HpackStore) (idx : ℕ) : Option HpackEntry :=
  if idx = 0 then none
  else if idx ≤ hpackStaticLen then
    let e := staticEntry idx
    let nl := (kStatic.getD e 0).toNat
    let vl := (kStatic.getD (e + 1 + nl) 0).toNat
    some ⟨bytesAt kStatic (e + 1) nl, bytesAt kStatic (e + 2 + nl) vl⟩
  else
    let j := idx - hpackStaticLen - 1
    if j ≥ s.count then none
    else
      let e := dynEntry s.bytes j 0
      let nl := be16 s.bytes e
      let vl := be16 s.bytes (e + 2)
      some ⟨bytesAt s.bytes (e + 4) nl, bytesAt s.bytes (e + 4 + nl) vl⟩

instance : HpackTable HpackStore where
  entry? := HpackStore.entry?
  used := HpackStore.used
  evictTo s limit := HpackStore.evictLoop limit s.count s
  push := HpackStore.push

def HpackStore.stored (s : HpackStore) : List HpackEntry :=
  (List.range s.count).filterMap fun j => s.entry? (hpackStaticLen + 1 + j)

abbrev HpackMem := HpackDec HpackStore

/-- `hpack_dec_init` on the storage `tab` of `tab_cap` bytes; no storage is `[]`. -/
def HpackMem.init (tab : Bytes) (maxSize : ℕ) : HpackMem :=
  ⟨⟨tab, 0, 0, 0⟩, tab.length, maxSize, maxSize, .first, true⟩

def memCopy (mem : ℕ → UInt8) (pos : ℕ) (bs : Bytes) : ℕ → UInt8 :=
  fun j => if pos ≤ j ∧ j < pos + bs.length then bs.getD (j - pos) 0 else mem j

/-- The loop of `hpack_put_int` with `n` bytes stored; `fuel` bounds the groups of 7 bits. -/
def hpackPutIntLoop (out cap : ℕ) : ℕ → (ℕ → UInt8) → ℕ → ℕ → (ℕ → UInt8) × ℕ
  | 0, mem, _, _ => (mem, 0)
  | fuel + 1, mem, n, v =>
    if v ≥ 0x80 then
      if n ≥ cap then (mem, 0)
      else hpackPutIntLoop out cap fuel
        (memCopy mem (out + n) [UInt8.ofNat (0x80 ||| (v &&& 0x7f))]) (n + 1) (v >>> 7)
    else if n ≥ cap then (mem, 0)
    else (memCopy mem (out + n) [UInt8.ofNat v], n + 1)

def hpackPutIntAt (mem : ℕ → UInt8) (out cap : ℕ) (first : UInt8) (bits v : ℕ) :
    (ℕ → UInt8) × ℕ :=
  let max := 2 ^ bits - 1
  if cap = 0 then (mem, 0)
  else if v < max then (memCopy mem out [first ||| UInt8.ofNat v], 1)
  else hpackPutIntLoop out cap 5 (memCopy mem out [first ||| UInt8.ofNat max]) 1 (v - max)

def putStringAt (mem : ℕ → UInt8) (out cap : ℕ) (s : Bytes) : (ℕ → UInt8) × ℕ :=
  let h := hpackPutIntAt mem out cap 0x00 7 (s.length % 2 ^ 32)
  if h.2 = 0 ∨ h.2 + s.length > cap then (h.1, 0)
  else (memCopy h.1 (out + h.2) s, h.2 + s.length)

def hpackPutFieldAt (mem : ℕ → UInt8) (out cap : ℕ) (name value : Bytes) : (ℕ → UInt8) × ℕ :=
  let idx := hpackStaticNameIndex name
  let n :=
    if idx ≠ 0 then hpackPutIntAt mem out cap 0x00 4 idx
    else if cap < 1 then (mem, 0)
    else
      let s := putStringAt (memCopy mem out [0x00]) (out + 1) (cap - 1) name
      (s.1, if s.2 ≠ 0 then 1 + s.2 else 0)
  if n.2 = 0 then n
  else
    let v := putStringAt n.1 (out + n.2) (cap - n.2) value
    (v.1, if v.2 ≠ 0 then n.2 + v.2 else 0)

end TinyLink
