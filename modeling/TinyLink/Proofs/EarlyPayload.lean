import TinyLink.EarlyPayload

/-!
# The start of HTTP/2

However the plaintext is divided into records, HTTP/2 is fed the bytes behind the early payload, or
all of them where the stream differs from the magic.
-/

namespace TinyLink.Proofs
open ByteOrder

variable {hdr u : Bytes} {c : H2Rx} {rs : List Ts2021Record} {len off : ℕ}

/-- What is left of a stream; `none` where it ends before that is known, or its payload is too
long. -/
def withoutEarlyPayload (s : Bytes) : Option Bytes :=
  if earlyPayloadMagic <+: s then
    if s.length < 9 ∨ 64 * 1024 < earlyPayloadLen s ∨ s.length < 9 + earlyPayloadLen s then none
    else some (s.drop (9 + earlyPayloadLen s))
  else if s <+: earlyPayloadMagic then none
  else some s

def MagicSoFar (hdr : Bytes) : Prop := hdr.take 5 = earlyPayloadMagic.take hdr.length

section
variable (h : MagicSoFar hdr)
include h

lemma MagicSoFar.of_lt (hlt : hdr.length < 5) :
    hdr = earlyPayloadMagic.take hdr.length := by
  rwa [MagicSoFar, List.take_of_length_le (Nat.le_of_lt hlt)] at h

lemma MagicSoFar.of_ge (hge : 5 ≤ hdr.length) : earlyPayloadMagic <+: hdr := by
  rw [MagicSoFar, List.take_of_length_le (show earlyPayloadMagic.length ≤ hdr.length from hge)] at h
  exact h ▸ List.take_prefix 5 hdr

lemma MagicSoFar.concat {b : UInt8}
    (hb : hdr.length < 5 → b = earlyPayloadMagic.getD hdr.length 0) : MagicSoFar (hdr ++ [b]) := by
  unfold MagicSoFar at h ⊢
  rw [List.length_append]
  by_cases hlt : hdr.length < 5
  · have hlen : hdr.length < earlyPayloadMagic.length := hlt
    rw [List.take_of_length_le (by simp; omega), List.length_singleton,
      List.take_succ_eq_append_getElem hlen]
    rw [List.take_of_length_le (by omega)] at h
    rw [← h, hb hlt, List.getD_eq_getElem?_getD, List.getElem?_eq_getElem hlen, Option.getD_some]
  · rw [List.take_append_of_le_length (by omega), h,
      List.take_of_length_le (show 5 ≤ hdr.length by omega),
      List.take_of_length_le (show 5 ≤ _ by simp; omega)]

lemma withoutEarlyPayload_short (hlt : hdr.length < 9) :
    withoutEarlyPayload hdr = none := by
  unfold withoutEarlyPayload
  by_cases h5 : hdr.length < 5
  · have hno : ¬ earlyPayloadMagic <+: hdr := fun hp => Nat.not_le.mpr h5 hp.length_le
    rw [if_neg hno, if_pos (h.of_lt h5 ▸ List.take_prefix _ _)]
  · rw [if_pos (h.of_ge (Nat.not_lt.mp h5)), if_pos (.inl hlt)]

end

lemma withoutEarlyPayload_differs (hlt : hdr.length < 5)
    {b : UInt8} (hb : b ≠ earlyPayloadMagic.getD hdr.length 0) (s : Bytes) :
    withoutEarlyPayload (hdr ++ b :: s) = some (hdr ++ b :: s) := by
  have hlen : hdr.length < earlyPayloadMagic.length := hlt
  have hmagic : earlyPayloadMagic[hdr.length]? ≠ some b := by
    intro hat
    rw [List.getD_eq_getElem?_getD, hat] at hb
    exact hb rfl
  unfold withoutEarlyPayload
  rw [if_neg, if_neg]
  · rintro ⟨t, ht⟩
    refine hmagic ?_
    rw [← ht]
    simp
  · rintro ⟨t, ht⟩
    refine hmagic ?_
    have hleft : (earlyPayloadMagic ++ t)[hdr.length]? = earlyPayloadMagic[hdr.length]? :=
      List.getElem?_append_left hlen
    rw [← hleft, ht]
    simp

lemma withoutEarlyPayload_header (h : MagicSoFar hdr) (hlen : hdr.length = 9)
    (s : Bytes) : withoutEarlyPayload (hdr ++ s) = if 64 * 1024 < earlyPayloadLen hdr then none
      else if s.length < earlyPayloadLen hdr then none
      else some (s.drop (earlyPayloadLen hdr)) := by
  have hat (k : ℕ) (hk : k < 9) : (hdr ++ s).getD k 0 = hdr.getD k 0 := by
    rw [List.getD_eq_getElem?_getD, List.getD_eq_getElem?_getD,
      List.getElem?_append_left (by omega)]
  have hn : earlyPayloadLen (hdr ++ s) = earlyPayloadLen hdr := by
    simp only [earlyPayloadLen, hat 5 (by decide), hat 6 (by decide), hat 7 (by decide),
      hat 8 (by decide)]
  unfold withoutEarlyPayload
  rw [if_pos ((h.of_ge (by omega)).trans (List.prefix_append hdr s)), hn, List.length_append, hlen]
  by_cases hbig : 64 * 1024 < earlyPayloadLen hdr
  · rw [if_pos (.inr (.inl hbig)), if_pos hbig]
  · rw [if_neg hbig]
    by_cases hshort : s.length < earlyPayloadLen hdr
    · rw [if_pos (by omega), if_pos hshort]
    · rw [if_neg (by omega), if_neg hshort, ← hlen, List.drop_append,
        List.drop_eq_nil_of_le (by omega), Nat.add_sub_cancel_left, List.nil_append]

lemma plaintexts_cons (r : Ts2021Record) (rs : List Ts2021Record) :
    plaintexts (r :: rs) = r.plain ++ plaintexts rs := List.flatMap_cons

lemma http2Input_eq (c : H2Rx) (rs : List Ts2021Record) :
    http2Input c rs = c.window ++ plaintexts rs := by
  induction rs generalizing c with
  | nil => exact (List.append_nil _).symm
  | cons r rs ih =>
    have hopen : (c.open r).window = r.plain := by
      simp [H2Rx.window, H2Rx.open, List.append_assoc]
    rw [http2Input, ih, hopen, plaintexts_cons]

/-- The ring holds a record of which `off` bytes were read; `u` is what is still to be read. -/
structure Reading (c : H2Rx) (off len : ℕ) (rs : List Ts2021Record) (u : Bytes) : Prop where
  ring : c.buf.length = ts2021MaxMessage
  off_le : off ≤ len
  len_le : len + noiseTagLen ≤ ts2021MaxMessage
  unread : u = (c.buf.drop off).take (len - off) ++ plaintexts rs

lemma Reading.next {r : Ts2021Record}
    (h : Reading c off off (r :: rs) u) : Reading (c.open r) 0 (c.open r).len rs u := by
  refine ⟨?_, Nat.zero_le _, r.fits, ?_⟩
  · have hring := h.ring
    have hfits := r.fits
    simp only [H2Rx.open, List.length_append, List.length_drop, r.tagLen]
    omega
  · rw [h.unread, Nat.sub_self, List.take_zero, List.nil_append, plaintexts_cons]
    simp [H2Rx.open, List.append_assoc]

lemma Reading.drop {n : ℕ} (h : Reading c off len rs u) (hn : off + n ≤ len) :
    Reading c (off + n) len rs (u.drop n) ∧ n ≤ u.length := by
  have hring := h.ring
  have hlen := h.len_le
  have htake : ((c.buf.drop off).take (len - off)).length = len - off := by
    rw [List.length_take, List.length_drop]
    omega
  refine ⟨⟨h.ring, hn, h.len_le, ?_⟩, ?_⟩
  · rw [h.unread, List.drop_append_of_le_length (by omega), List.drop_take, List.drop_drop]
    congr 2
    omega
  · rw [h.unread, List.length_append]
    omega

lemma Reading.head
    (h : Reading c off len rs u) (hlt : off < len) : u = c.buf.getD off 0 :: u.drop 1 := by
  have hring := h.ring
  have hlen := h.len_le
  have hbuf : off < c.buf.length := by omega
  obtain ⟨k, hk⟩ : ∃ k, len - off = k + 1 := ⟨len - off - 1, by omega⟩
  rw [h.unread, hk, List.drop_eq_getElem_cons hbuf, List.take_succ_cons, List.cons_append,
    List.drop_one, List.tail_cons, List.getD_eq_getElem?_getD, List.getElem?_eq_getElem hbuf,
    Option.getD_some]

/-- The outcome `o` feeds HTTP/2 the bytes `s`, or fails where `s` is `none`. -/
def Feeds (o : Option (H2Rx × List Ts2021Record)) (s : Option Bytes) : Prop :=
  o.map (fun r => http2Input r.1 r.2) = s ∧
    ∀ c later, o = some (c, later) →
      c.buf.length = ts2021MaxMessage ∧ c.off ≤ c.len ∧ c.len ≤ ts2021MaxMessage

lemma feeds_some {later : List Ts2021Record} {s : Bytes}
    (hs : http2Input c later = s) (hring : c.buf.length = ts2021MaxMessage)
    (hwin : c.off ≤ c.len ∧ c.len ≤ ts2021MaxMessage) : Feeds (some (c, later)) (some s) := by
  refine ⟨congrArg some hs, ?_⟩
  rintro c' later' ⟨⟩
  exact ⟨hring, hwin⟩

lemma feeds_none : Feeds none none := ⟨rfl, by rintro c later ⟨⟩⟩

lemma skipEarlyPayload_feeds (fuel : ℕ) : ∀ {c : H2Rx} {off len n : ℕ} {rs : List Ts2021Record}
    {u : Bytes}, Reading c off len rs u → u.length + rs.length < fuel →
    Feeds (skipEarlyPayload fuel c off len n rs)
      (if u.length < n then none else some (u.drop n)) := by
  induction fuel with
  | zero => exact fun _ hf => absurd hf (Nat.not_lt_zero _)
  | succ fuel ih =>
    intro c off len n rs u h hf
    rw [skipEarlyPayload]
    by_cases hn : n > 0
    · rw [if_pos hn]
      by_cases hoff : off = len
      · subst hoff
        rw [if_pos rfl]
        cases rs with
        | nil =>
          have hu : u = [] := by simpa [plaintexts] using h.unread
          rw [hu, List.length_nil, if_pos hn]
          exact feeds_none
        | cons r rs =>
          have hf' : u.length + rs.length < fuel := Nat.lt_of_succ_lt_succ hf
          exact ih h.next hf'
      · rw [if_neg hoff]
        have hlt : off < len := Nat.lt_of_le_of_ne h.off_le hoff
        by_cases havail : len - off ≤ n
        · obtain ⟨hdrop, hle⟩ := h.drop (show off + (len - off) ≤ len by omega)
          rw [Nat.add_sub_cancel' h.off_le] at hdrop
          have hrest := ih (n := n - (len - off)) hdrop (by rw [List.length_drop]; omega)
          have hiff : u.length - (len - off) < n - (len - off) ↔ u.length < n := by omega
          rw [List.length_drop, List.drop_drop, Nat.add_sub_cancel' havail] at hrest
          simp only [hiff] at hrest
          rwa [if_pos havail]
        · obtain ⟨hdrop, hle⟩ := h.drop (show off + n ≤ len by omega)
          have hrest := ih (n := 0) hdrop (by rw [List.length_drop]; omega)
          rw [if_neg havail, if_neg (Nat.not_lt.mpr hle)]
          rwa [if_neg (Nat.not_lt_zero _), List.drop_zero] at hrest
    · rw [if_neg hn, if_neg (by omega), Nat.le_zero.mp (Nat.not_lt.mp hn), List.drop_zero]
      refine feeds_some ?_ h.ring ⟨h.off_le, Nat.le_of_add_right_le h.len_le⟩
      rw [http2Input_eq, h.unread]
      rfl

lemma keepHttp2Start_feeds
    (h : Reading c off len rs u) (hm : MagicSoFar hdr) (hlt : hdr.length < 5) :
    Feeds (some (keepHttp2Start c off len hdr.length, rs)) (some (hdr ++ u)) := by
  have hring := h.ring
  have hlen := h.len_le
  have htag : noiseTagLen = 16 := rfl
  have hmoved : ((c.buf.drop off).take (len - off)).length = len - off := by
    rw [List.length_take, List.length_drop]
    omega
  have hfront : (c.buf.take hdr.length).length = hdr.length := by
    rw [List.length_take]
    omega
  have hbuf : (keepHttp2Start c off len hdr.length).buf =
      hdr ++ (c.buf.drop off).take (len - off) ++ c.buf.drop (hdr.length + (len - off)) := by
    simp only [keepHttp2Start, ← hm.of_lt hlt, List.append_assoc]
    rw [List.drop_append_of_le_length (Nat.le_of_eq hfront.symm),
      List.drop_eq_nil_of_le (Nat.le_of_eq hfront), List.nil_append]
  refine feeds_some ?_ ?_ ⟨Nat.zero_le _, ?_⟩
  · have hfits : (hdr ++ (c.buf.drop off).take (len - off)).length = hdr.length + (len - off) := by
      rw [List.length_append, hmoved]
    rw [http2Input_eq, H2Rx.window, hbuf, h.unread, ← List.append_assoc]
    congr 1
    exact List.take_left' hfits
  · rw [hbuf, List.length_append, List.length_append, hmoved, List.length_drop]
    omega
  · change hdr.length + (len - off) ≤ ts2021MaxMessage
    omega

lemma readEarlyHeader_feeds (fuel : ℕ) : ∀ {c : H2Rx} {off len : ℕ} {rs : List Ts2021Record}
    {hdr u : Bytes}, Reading c off len rs u → MagicSoFar hdr → hdr.length ≤ 9 →
    u.length + rs.length + 1 < fuel →
    Feeds (readEarlyHeader fuel c off len hdr rs) (withoutEarlyPayload (hdr ++ u)) := by
  induction fuel with
  | zero => exact fun _ _ _ hf => absurd hf (Nat.not_lt_zero _)
  | succ fuel ih =>
    intro c off len rs hdr u h hm hle hf
    rw [readEarlyHeader]
    by_cases hhdr : hdr.length < earlyPayloadHdrLen
    · rw [if_pos hhdr]
      by_cases hoff : off = len
      · subst hoff
        rw [if_pos rfl]
        cases rs with
        | nil =>
          have hu : u = [] := by simpa [plaintexts] using h.unread
          rw [hu, List.append_nil, withoutEarlyPayload_short hm hhdr]
          exact feeds_none
        | cons r rs =>
          have hf' : u.length + rs.length + 1 < fuel := Nat.lt_of_succ_lt_succ hf
          exact ih h.next hm hle hf'
      · rw [if_neg hoff]
        have hlt : off < len := Nat.lt_of_le_of_ne h.off_le hoff
        have hhead := h.head hlt
        by_cases hb : (decide (hdr.length < earlyPayloadMagicLen) &&
            decide (c.buf.getD off 0 ≠ earlyPayloadMagic.getD hdr.length 0)) = true
        · rw [if_pos hb]
          rw [Bool.and_eq_true, decide_eq_true_eq, decide_eq_true_eq] at hb
          have hkeep := keepHttp2Start_feeds h hm hb.1
          rw [hhead] at hkeep ⊢
          rwa [withoutEarlyPayload_differs hb.1 hb.2]
        · rw [if_neg hb]
          obtain ⟨hdrop, hpos⟩ := h.drop (show off + 1 ≤ len from hlt)
          have hm' : MagicSoFar (hdr ++ [c.buf.getD off 0]) :=
            hm.concat fun h5 => by simpa [earlyPayloadMagicLen, h5] using hb
          have hrest := ih hdrop hm' (by rw [List.length_append]; exact hhdr)
            (by rw [List.length_drop]; omega)
          rwa [List.append_assoc, List.singleton_append, ← hhead] at hrest
    · have h9 : hdr.length = 9 := Nat.le_antisymm hle (Nat.not_lt.mp hhdr)
      rw [if_neg hhdr, withoutEarlyPayload_header hm h9]
      dsimp only
      split
      · exact feeds_none
      · exact skipEarlyPayload_feeds fuel h (by omega)

lemma consumeEarlyPayload_feeds (hc : c.buf.length = ts2021MaxMessage) (rs : List Ts2021Record) :
    Feeds (consumeEarlyPayload c rs) (withoutEarlyPayload (plaintexts rs)) := by
  have hread : Reading c 0 0 rs (plaintexts rs) := ⟨hc, Nat.le_refl 0, by decide, by simp⟩
  exact readEarlyHeader_feeds _ hread rfl (by decide) (Nat.lt_succ_self _)

lemma earlyPayloadLen_magic {n : ℕ} (hn : n < 2 ^ 32) :
    earlyPayloadLen (earlyPayloadMagic ++ beBytes 4 n) = n := by
  have hbyte (m : ℕ) : (UInt8.ofNat (m % 256)).toNat = m % 256 :=
    UInt8.toNat_ofNat_of_lt' (Nat.mod_lt m (by decide))
  change (UInt8.ofNat ((n >>> 24) % 256)).toNat * 2 ^ 24 +
    (UInt8.ofNat ((n >>> 16) % 256)).toNat * 2 ^ 16 +
    (UInt8.ofNat ((n >>> 8) % 256)).toNat * 2 ^ 8 + (UInt8.ofNat ((n >>> 0) % 256)).toNat = n
  simp only [hbyte, Nat.shiftRight_eq_div_pow]
  omega

lemma Feeds.some_of {o : Option (H2Rx × List Ts2021Record)} {s : Bytes} (h : Feeds o (some s)) :
    ∃ c later, o = some (c, later) ∧ http2Input c later = s := by
  obtain ⟨⟨c, later⟩, ho, hs⟩ := Option.map_eq_some_iff.mp h.1
  exact ⟨c, later, ho, hs⟩

/-- HTTP/2 is fed what follows the early payload, all of the stream where it differs from the magic,
and nothing where it ends inside the magic. -/
theorem early_payload_removed {c : H2Rx} (hc : c.buf.length = ts2021MaxMessage)
    (rs : List Ts2021Record) : (∀ payload rest, payload.length ≤ 64 * 1024 →
      plaintexts rs = earlyPayloadMagic ++ beBytes 4 payload.length ++ (payload ++ rest) →
      ∃ c' later, consumeEarlyPayload c rs = some (c', later) ∧ http2Input c' later = rest) ∧
    (¬ earlyPayloadMagic <+: plaintexts rs → ¬ plaintexts rs <+: earlyPayloadMagic →
      ∃ c' later, consumeEarlyPayload c rs = some (c', later) ∧
        http2Input c' later = plaintexts rs) ∧
    (plaintexts rs <+: earlyPayloadMagic → consumeEarlyPayload c rs = none) ∧
    ∀ c' later, consumeEarlyPayload c rs = some (c', later) →
      c'.off ≤ c'.len ∧ c'.len ≤ c'.buf.length ∧ c'.buf.length = ts2021MaxMessage := by
  have hfeeds := consumeEarlyPayload_feeds hc rs
  refine ⟨fun payload rest hn hs => ?_, fun hno hpre => ?_, fun hpre => ?_, fun c' later ho => ?_⟩
  · have hlen := earlyPayloadLen_magic (Nat.lt_of_le_of_lt hn (by decide : 64 * 1024 < 2 ^ 32))
    have hmagic : MagicSoFar (earlyPayloadMagic ++ beBytes 4 payload.length) := rfl
    rw [hs, withoutEarlyPayload_header hmagic rfl, hlen, if_neg (Nat.not_lt.mpr hn),
      if_neg (by simp), List.drop_left] at hfeeds
    exact hfeeds.some_of
  · rw [withoutEarlyPayload, if_neg hno, if_neg hpre] at hfeeds
    exact hfeeds.some_of
  · have hle : (plaintexts rs).length ≤ 5 := hpre.length_le
    have hnone : withoutEarlyPayload (plaintexts rs) = none := by
      unfold withoutEarlyPayload
      by_cases hmagic : earlyPayloadMagic <+: plaintexts rs
      · rw [if_pos hmagic, if_pos (.inl (by omega))]
      · rw [if_neg hmagic, if_pos hpre]
    exact Option.map_eq_none_iff.mp (hfeeds.1.trans hnone)
  · obtain ⟨hring, hoff, hlen⟩ := hfeeds.2 c' later ho
    exact ⟨hoff, hring ▸ hlen, hring⟩

section Sample

def idleRing : H2Rx := ⟨List.replicate ts2021MaxMessage 0, 0, 0⟩

def sealedRecord (plain : Bytes) (h : plain.length ≤ 16) : Ts2021Record :=
  ⟨plain, List.replicate noiseTagLen 0, rfl, Nat.le_trans (Nat.add_le_add_right h _) (by decide)⟩

def cutPayload : List Ts2021Record :=
  [sealedRecord [0xff, 0xff] (by decide), sealedRecord [] (by decide),
    sealedRecord [0xff, 0x54, 0x53, 0x00, 0x00] (by decide),
    sealedRecord [0x00, 0x02, 0x7b] (by decide), sealedRecord [0x7d, 0x68, 0x32] (by decide)]

theorem cut_payload_removed : ∃ c later, consumeEarlyPayload idleRing cutPayload = some (c, later) ∧
      http2Input c later = asciiBytes "h2" :=
  (early_payload_removed List.length_replicate cutPayload).1 [0x7b, 0x7d] (asciiBytes "h2")
    (by decide) rfl

theorem cut_magic_fails : ¬ earlyPayloadMagic <+: plaintexts [sealedRecord [0xff] (by decide)] ∧
      consumeEarlyPayload idleRing [sealedRecord [0xff] (by decide)] = none :=
  ⟨by decide, rfl⟩

end Sample

end TinyLink.Proofs
