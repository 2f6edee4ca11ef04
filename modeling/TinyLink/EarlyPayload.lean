import TinyLink.Ts2021

/-!
# The early payload

Embedding of `recv_record`, `keep_http2_start` and `consume_early_payload` of `ts2021_client.c` over
the records that are still to come, and of what `feed_pending` and the read loop of `h2_client.c`
then hand to HTTP/2. The ring is its bytes, with the window in it.
-/

namespace TinyLink

def ts2021MaxMessage : ℕ := 4096
def earlyPayloadHdrLen : ℕ := 9
def earlyPayloadMagicLen : ℕ := 5
def earlyPayloadMagic : Bytes := [0xff, 0xff, 0xff, 0x54, 0x53]

/-- A transport record no longer than `read_record_frame` accepts, in plaintext. -/
structure Ts2021Record where
  plain : Bytes
  tag : Bytes
  tagLen : tag.length = noiseTagLen
  fits : plain.length + noiseTagLen ≤ ts2021MaxMessage

/-- `h2_rx`, `h2_rx_off` and `h2_rx_len`. -/
structure H2Rx where
  buf : Bytes
  off : ℕ
  len : ℕ

def H2Rx.window (c : H2Rx) : Bytes := (c.buf.drop c.off).take (c.len - c.off)

/-- A record opened in place; its tag stays behind the plaintext. -/
def H2Rx.open (c : H2Rx) (r : Ts2021Record) : H2Rx :=
  ⟨r.plain ++ r.tag ++ c.buf.drop (r.plain.length + noiseTagLen), 0, r.plain.length⟩

/-- `recv_record`; it fails where no record follows. -/
def recvRecord (c : H2Rx) : List Ts2021Record → Option (H2Rx × List Ts2021Record)
  | [] => none
  | r :: rs => some (c.open r, rs)

def keepHttp2Start (c : H2Rx) (off len matched : ℕ) : H2Rx :=
  let moved := c.buf.take matched ++ (c.buf.drop off).take (len - off) ++
    c.buf.drop (matched + (len - off))
  ⟨earlyPayloadMagic.take matched ++ moved.drop matched, 0, matched + (len - off)⟩

/-- The second loop of `consume_early_payload`; `fuel` bounds its rounds. -/
def skipEarlyPayload : ℕ → H2Rx → ℕ → ℕ → ℕ → List Ts2021Record →
    Option (H2Rx × List Ts2021Record)
  | 0, _, _, _, _, _ => none
  | fuel + 1, c, recOff, recLen, toSkip, rs =>
    if toSkip > 0 then
      if recOff = recLen then
        (recvRecord c rs).bind fun r => skipEarlyPayload fuel r.1 0 r.1.len toSkip r.2
      else
        let avail := recLen - recOff
        if avail ≤ toSkip then skipEarlyPayload fuel c recLen recLen (toSkip - avail) rs
        else skipEarlyPayload fuel c (recOff + toSkip) recLen 0 rs
    else some (⟨c.buf, recOff, recLen⟩, rs)

def earlyPayloadLen (hdr : Bytes) : ℕ :=
  (hdr.getD 5 0).toNat * 2 ^ 24 + (hdr.getD 6 0).toNat * 2 ^ 16 + (hdr.getD 7 0).toNat * 2 ^ 8 +
    (hdr.getD 8 0).toNat

def readEarlyHeader : ℕ → H2Rx → ℕ → ℕ → Bytes → List Ts2021Record →
    Option (H2Rx × List Ts2021Record)
  | 0, _, _, _, _, _ => none
  | fuel + 1, c, recOff, recLen, hdr, rs =>
    if hdr.length < earlyPayloadHdrLen then
      if recOff = recLen then
        (recvRecord c rs).bind fun r => readEarlyHeader fuel r.1 0 r.1.len hdr r.2
      else
        let b := c.buf.getD recOff 0
        if hdr.length < earlyPayloadMagicLen && b ≠ earlyPayloadMagic.getD hdr.length 0 then
          some (keepHttp2Start c recOff recLen hdr.length, rs)
        else readEarlyHeader fuel c (recOff + 1) recLen (hdr ++ [b]) rs
    else
      let epLen := earlyPayloadLen hdr
      if epLen > 64 * 1024 then none else skipEarlyPayload fuel c recOff recLen epLen rs

def plaintexts (rs : List Ts2021Record) : Bytes := rs.flatMap Ts2021Record.plain

/-- The ring and the records left, or `none` where the connect fails. -/
def consumeEarlyPayload (c : H2Rx) (rs : List Ts2021Record) :
    Option (H2Rx × List Ts2021Record) :=
  readEarlyHeader ((plaintexts rs).length + rs.length + 2) c 0 0 [] rs

/-- What HTTP/2 is fed: the window, then the window of every later record. -/
def http2Input (c : H2Rx) : List Ts2021Record → Bytes
  | [] => c.window
  | r :: rs => c.window ++ http2Input (c.open r) rs

end TinyLink
