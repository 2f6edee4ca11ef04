import TinyLink.Crypto
import TinyLink.Library.ByteOrder

/-!
# TLS session records in RTC memory

Embedding of `tls_rtc.h`. A record holds a serialized TLS session for one `host:port`, with the times
of its master secret and of its last write on the RTC timer. After a power-on its bytes are anything.
-/

namespace TinyLink
open ByteOrder

def tlsRtcMagic : ℕ := 0x544C5302
def tlsRtcHostMax : ℕ := 64
def tlsRtcSessMax : ℕ := 480

/-- A C string: its bytes before the terminating NUL. -/
abbrev CStr := { s : Bytes // (0 : UInt8) ∉ s }

def cstr (b : Bytes) : CStr :=
  ⟨b.takeWhile (· != 0), fun h => absurd (List.all_eq_true.mp List.all_takeWhile 0 h) (by decide)⟩

def strncmpEq (a b : CStr) (n : ℕ) : Bool := a.1.take n == b.1.take n

/-- `tls_rtc_rec_t`; `host` has 64 bytes and `sess` 480. -/
structure TlsRtcRec where
  magic : ℕ
  len : ℕ
  port : ℕ
  bornRtcUs : ℕ
  savedRtcUs : ℕ
  host : Bytes
  sess : Bytes
  check : ℕ
deriving DecidableEq

def tlsRtcFnv (h : ℕ) (bs : Bytes) : ℕ :=
  bs.foldl (fun h b => (h ^^^ b.toNat) * 16777619 % 2 ^ 32) h

def tlsRtcCheck (r : TlsRtcRec) : ℕ :=
  let h := 2166136261
  let h := tlsRtcFnv h (leBytes 4 r.magic)
  let h := tlsRtcFnv h (leBytes 2 r.len)
  let h := tlsRtcFnv h (leBytes 2 r.port)
  let h := tlsRtcFnv h (leBytes 8 r.bornRtcUs)
  let h := tlsRtcFnv h (leBytes 8 r.savedRtcUs)
  let h := tlsRtcFnv h r.host
  tlsRtcFnv h (r.sess.take (if r.len ≤ tlsRtcSessMax then r.len else tlsRtcSessMax))

def tlsRtcClear : TlsRtcRec where
  magic := 0
  len := 0
  port := 0
  bornRtcUs := 0
  savedRtcUs := 0
  host := List.replicate tlsRtcHostMax 0
  sess := List.replicate tlsRtcSessMax 0
  check := 0

def tlsRtcValid (r : TlsRtcRec) : Bool :=
  r.magic = tlsRtcMagic && 0 < r.len && r.len ≤ tlsRtcSessMax &&
    (r.host.take tlsRtcHostMax).contains 0 && r.check = tlsRtcCheck r

/-- `tls_rtc_seal`: the record and whether it was filled. -/
def tlsRtcSeal (r : TlsRtcRec) (host : CStr) (port bornRtcUs nowRtcUs len : ℕ) :
    TlsRtcRec × Bool :=
  let hl := min host.1.length tlsRtcHostMax
  if tlsRtcHostMax ≤ hl || len = 0 || tlsRtcSessMax < len || nowRtcUs < bornRtcUs then
    (tlsRtcClear, false)
  else
    let r := { r with
      sess := r.sess.take len ++ List.replicate (tlsRtcSessMax - len) 0
      host := host.1.take hl ++ List.replicate (tlsRtcHostMax - hl) 0
      len := len
      port := port
      bornRtcUs := bornRtcUs
      savedRtcUs := nowRtcUs
      magic := tlsRtcMagic }
    ({ r with check := tlsRtcCheck r }, true)

def tlsRtcFresh (r : TlsRtcRec) (nowRtcUs maxAgeUs : ℕ) : Option ℕ :=
  if !tlsRtcValid r then none
  else if nowRtcUs < r.savedRtcUs || nowRtcUs < r.bornRtcUs then none
  else
    let age := nowRtcUs - r.bornRtcUs
    if maxAgeUs < age then none else some age

/-- The record is for `host:port`, as the functions below test it. -/
def tlsRtcFor (r : TlsRtcRec) (host : CStr) (port : ℕ) : Bool :=
  r.port = port && strncmpEq (cstr r.host) host tlsRtcHostMax

def tlsRtcUsable (r : TlsRtcRec) (host : CStr) (port nowRtcUs maxAgeUs : ℕ) : Option ℕ :=
  if !tlsRtcValid r || !tlsRtcFor r host port then none
  else tlsRtcFresh r nowRtcUs maxAgeUs

/-- `tls_rtc_sweep`: the records, and how many valid ones were zeroed. -/
def tlsRtcSweep (recs : List TlsRtcRec) (warm : Bool) (nowRtcUs maxAgeUs : ℕ) :
    List TlsRtcRec × ℕ :=
  let keep (r : TlsRtcRec) : Bool :=
    tlsRtcValid r && warm && (tlsRtcFresh r nowRtcUs maxAgeUs).isSome
  (recs.map fun r => if keep r then r else tlsRtcClear,
    recs.countP fun r => tlsRtcValid r && !keep r)

/-- The loop of `tls_rtc_pick` from record `i` on. -/
def tlsRtcPickLoop (recs : List TlsRtcRec) (host : CStr) (port : ℕ) (i spare oldest : ℕ) :
    List TlsRtcRec → ℕ
  | [] => if spare ≠ recs.length then spare else oldest
  | r :: rs =>
    if !tlsRtcValid r then
      tlsRtcPickLoop recs host port (i + 1) (if spare = recs.length then i else spare) oldest rs
    else if tlsRtcFor r host port then i
    else
      let o := recs.getD oldest tlsRtcClear
      tlsRtcPickLoop recs host port (i + 1) spare
        (if r.bornRtcUs < o.bornRtcUs || !tlsRtcValid o then i else oldest) rs

def tlsRtcPick (recs : List TlsRtcRec) (host : CStr) (port : ℕ) : ℕ :=
  tlsRtcPickLoop recs host port 0 recs.length 0 recs

/-- `tls_rtc_find`: the record that holds `host:port`, or the number of records. -/
def tlsRtcFind (recs : List TlsRtcRec) (host : CStr) (port : ℕ) : ℕ :=
  recs.findIdx fun r => tlsRtcValid r && tlsRtcFor r host port

end TinyLink
