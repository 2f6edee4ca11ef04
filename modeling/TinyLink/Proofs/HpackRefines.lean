import Mathlib.Data.Option.Basic
import TinyLink.Proofs.HpackChunks
import TinyLink.Proofs.HpackFields
import TinyLink.Proofs.HpackHuffman

/-!
# The HPACK decoder refines RFC 7541

The two agree representation by representation, up to the documented limits.
-/

namespace TinyLink.Proofs

section Decoder
variable {σ : Type} {fn : σ → HpackField → σ × Bool} {d : HpackListDec} {ctx : σ}
    {rest xs : Bytes} {r r' : HpackListRes σ} {s : HpackStr} {b : UInt8} {n : ℕ}
variable {α β : Type} {p : Option α} {limit : Prop} {Q : α → Prop}

lemma SameRes.of_eq (h : r = r') : SameRes r r' := .inl h

lemma Stuck.congr (h : SameRes r r') (hs : Stuck d ctx r') : Stuck d ctx r := by
  rcases h with rfl | ⟨hne, _, hctx, _⟩
  · exact hs
  · exact .of_rc (hctx.trans hs.1) hne

/-- The decoder does with what the reference reads what `Q` says, or it is stuck, where the reference
reads nothing or a limit is met. -/
def Reads (d : HpackListDec) (ctx : σ) (r : HpackListRes σ) (p : Option α) (limit : Prop) (Q : α → Prop) :
    Prop :=
  (∃ a, p = some a ∧ Q a) ∨ (Stuck d ctx r ∧ (p = none ∨ limit))

lemma Reads.stuck (hs : Stuck d ctx r) (h : ∀ a, p = some a → limit) : Reads d ctx r p limit Q := by
  cases p with
  | none => exact .inr ⟨hs, .inl rfl⟩
  | some a => exact .inr ⟨hs, .inr (h a rfl)⟩

lemma Reads.bind {f : α → Option β} {Q' : β → Prop} (h : Reads d ctx r p limit Q)
    (hf : ∀ a, p = some a → Q a → Reads d ctx r (f a) limit Q') :
    Reads d ctx r (p.bind f) limit Q' := by
  rcases h with ⟨a, rfl, ha⟩ | ⟨hs, rfl | hl⟩
  · exact hf a rfl ha
  · exact .inr ⟨hs, .inl rfl⟩
  · exact .inr ⟨hs, .inr hl⟩

lemma Reads.map {f : α → β} {limit' : Prop} {Q' : β → Prop} (h : Reads d ctx r p limit Q)
    (hl : limit → limit') (hf : ∀ a, p = some a → Q a → Q' (f a)) :
    Reads d ctx r (p.map f) limit' Q' := by
  rcases h with ⟨a, rfl, ha⟩ | ⟨hs, rfl | h⟩
  · exact .inl ⟨f a, rfl, hf a rfl ha⟩
  · exact .inr ⟨hs, .inl rfl⟩
  · exact .inr ⟨hs, .inr (hl h)⟩

lemma Reads.congr {limit' : Prop} {Q' : α → Prop} (h : Reads d ctx r' p limit Q) (hr : SameRes r r')
    (hl : limit → limit') (hQ : ∀ a, Q a → Q' a) : Reads d ctx r p limit' Q' := by
  rcases h with ⟨a, ha, hq⟩ | ⟨hs, hwhy⟩
  · exact .inl ⟨a, ha, hQ a hq⟩
  · exact .inr ⟨hs.congr hr, hwhy.imp_right hl⟩

lemma of_byte {q : UInt8 → Prop} (h : ∀ n < 256, q (UInt8.ofNat n)) (b : UInt8) : q b := by
  have hb := h b.toNat b.toNat_lt
  rwa [UInt8.ofNat_toNat] at hb

lemma byte_indexed : ∀ b : UInt8, 128 ≤ b → ¬ b &&& 0xe0 = 0x20 ∧ b &&& 0x80 ≠ 0 :=
  of_byte (by decide +kernel)

lemma byte_incremental : ∀ b : UInt8, 64 ≤ b → b < 128 →
    ¬ b &&& 0xe0 = 0x20 ∧ ¬ b &&& 0x80 ≠ 0 ∧ b &&& 0x40 ≠ 0 :=
  of_byte (by decide +kernel)

lemma byte_size : ∀ b : UInt8, 32 ≤ b → b < 64 → b &&& 0xe0 = 0x20 := of_byte (by decide +kernel)

lemma byte_plain : ∀ b : UInt8, b < 32 → ¬ b &&& 0xe0 = 0x20 ∧ ¬ b &&& 0x80 ≠ 0 ∧
    ¬ b &&& 0x40 ≠ 0 ∧ (b &&& 0x10 ≠ 0 ↔ 16 ≤ b) :=
  of_byte (by decide +kernel)

lemma byte_mask {mask : UInt8} (n : ℕ) (h : mask.toNat = 2 ^ n - 1) (b : UInt8) :
    (b &&& mask).toNat = b.toNat % 2 ^ n := by
  rw [UInt8.toNat_and, h, Nat.and_two_pow_sub_one_eq_mod]

lemma rfcIntTail_length {m v : ℕ} (h : rfcIntTail m xs = some (v, rest)) :
    rest.length < xs.length := by
  induction xs generalizing m v with
  | nil => cases h
  | cons _ _ ih =>
    rw [rfcIntTail] at h
    split at h
    · obtain ⟨r, hr, heq⟩ := Option.map_eq_some_iff.mp h
      obtain rfl : r.2 = rest := congrArg Prod.snd heq
      have hlt := ih hr
      rw [List.length_cons]
      omega
    · cases h
      exact Nat.lt_succ_self _

lemma rfcInt_length {v : ℕ} (h : rfcInt n xs = some (v, rest)) : rest.length < xs.length := by
  cases xs with
  | nil => cases h
  | cons =>
    simp only [rfcInt] at h
    rw [List.length_cons]
    split at h
    · cases h
      exact Nat.lt_succ_self _
    · obtain ⟨r, hr, heq⟩ := Option.map_eq_some_iff.mp h
      obtain rfl : r.2 = rest := congrArg Prod.snd heq
      have hlt := rfcIntTail_length hr
      omega

lemma feed_intTail (what : HpackIntFor) : ∀ (xs : Bytes) (d : HpackListDec) (m val : ℕ), m ≤ 4 →
    d.st = .int what val (7 * m) → Reads d ctx (hpackDecFeed fn d ctx xs) (rfcIntTail (7 * m) xs)
      (∃ v rest, rfcIntTail (7 * m) xs = some (v, rest) ∧
        (2 ^ 31 ≤ val + v ∨ rest.length + 5 < xs.length + m))
      fun i => hpackDecFeed fn d ctx xs = resume fn (d.intDone fn ctx what (val + i.1)) i.2 := by
  intro xs
  induction xs with
  | nil =>
    intro d m val _ hst
    refine .stuck ⟨rfl, fun _ => ⟨?_, rfl, rfl⟩⟩ nofun
    rw [hpackDecFeed_nil, hst]
    rintro ⟨⟩
  | cons b bs ih =>
    intro d m val hm hst
    have hleft : LeftOk d := fun s u n h => by rw [hst] at h; cases h
    have hpass : d.pass fn ctx b bs = (d.intByte fn ctx what val (7 * m) b, bs) := by
      rw [HpackDec.pass, hst]
    rw [hpackDecFeed_cons hleft, hpass]
    obtain ⟨v, hv⟩ : ∃ v, (b &&& 127).toNat * 2 ^ (7 * m) = v := ⟨_, rfl⟩
    have hshift : (b &&& 0x7f).toNat <<< (7 * m) = v := by rw [Nat.shiftLeft_eq, hv]
    simp only [HpackDec.intByte, hshift, rfcIntTail, hv]
    by_cases hbig : val + v > 0x7fffffff
    · -- above the limit already; what follows only adds to it
      rw [if_pos hbig]
      refine .stuck (.of_rc rfl (by rintro ⟨⟩)) fun i hi => ⟨i.1, i.2, hi, .inl ?_⟩
      split at hi
      · obtain ⟨j, _, rfl⟩ := Option.map_eq_some_iff.mp hi
        omega
      · cases hi
        omega
    · rw [if_neg hbig]
      by_cases hc : b &&& 128 ≠ 0
      · simp only [if_pos hc]
        by_cases hm4 : 7 * m + 7 > 28
        · rw [if_pos hm4]
          refine .stuck (.of_rc rfl (by rintro ⟨⟩)) fun i hi => ⟨i.1, i.2, hi, .inr ?_⟩
          obtain ⟨j, hj, rfl⟩ := Option.map_eq_some_iff.mp hi
          have hlt := rfcIntTail_length hj
          rw [List.length_cons]
          dsimp only
          omega
        · rw [if_neg hm4]
          refine (ih { d with st := .int what (val + v) (7 * m + 7) } (m + 1) (val + v) (by omega)
            rfl).map ?_ fun i _ hfeed => ?_
          · rintro ⟨w, rest, htail, hlong⟩
            refine ⟨v + w, rest, congrArg (Option.map _) htail, ?_⟩
            rw [List.length_cons]
            omega
          · rw [← Nat.add_assoc]
            exact hfeed
      · simp only [if_neg hc]
        exact .inl ⟨(v, bs), rfl, rfl⟩

/-- A prefixed integer is that of the RFC, or it breaks off or is too long. -/
lemma resume_intStart (d : HpackListDec) (ctx : σ) (what : HpackIntFor) (n : ℕ) (b : UInt8)
    (bs : Bytes) (hr : r = resume fn (d.intStart fn ctx what (b.toNat % 2 ^ n) (2 ^ n - 1)) bs) :
    Reads d ctx r (rfcInt n (b :: bs)) (LongInt n (b :: bs))
      fun i => r = resume fn (d.intDone fn ctx what i.1) i.2 := by
  subst hr
  simp only [HpackDec.intStart, rfcInt, LongInt]
  by_cases hlt : b.toNat % 2 ^ n < 2 ^ n - 1
  · simp only [if_pos hlt]
    exact .inl ⟨_, rfl, rfl⟩
  · have hmask : b.toNat % 2 ^ n = 2 ^ n - 1 := by
      omega
    simp only [if_neg hlt]
    rw [hmask]
    refine (feed_intTail what bs { d with st := .int what (2 ^ n - 1) 0 } 0 (2 ^ n - 1)
      (Nat.zero_le 4) rfl).map ?_ fun i _ hfeed => hfeed
    rintro ⟨w, rest, htail, hlong⟩
    refine ⟨_, rest, congrArg (Option.map _) htail, ?_⟩
    rw [List.length_cons]
    omega

lemma rfcString_cons (b : UInt8) (bs : Bytes) : rfcString (b :: bs) =
    (rfcInt 7 (b :: bs)).bind fun r => (if r.1 ≤ r.2.length then
      plainString (b &&& 128 ≠ 0) (r.2.take r.1) else none).map fun str => (str, r.2.drop r.1) := by
  simp only [rfcString, Option.bind_eq_bind]
  cases rfcInt 7 (b :: bs) with
  | none => rfl
  | some r =>
    simp only [Option.bind_some, plainString, decide_eq_true_eq]
    by_cases hlen : r.1 ≤ r.2.length
    · by_cases hc : b &&& 128 ≠ 0
      · simp only [guard, if_pos hlen, if_pos hc]
        cases rfcHuffmanDecode (r.2.take r.1) <;> rfl
      · simp only [guard, if_pos hlen, if_neg hc]
        rfl
    · simp only [guard, if_neg hlen]
      rfl

lemma rfcString_length {str : Bytes} (h : rfcString xs = some (str, rest)) :
    rest.length < xs.length := by
  cases xs with
  | nil => cases h
  | cons b bs =>
    rw [rfcString_cons] at h
    obtain ⟨r, hint, h⟩ := Option.bind_eq_some_iff.mp h
    obtain ⟨str', _, heq⟩ := Option.map_eq_some_iff.mp h
    obtain rfl : r.2.drop r.1 = rest := congrArg Prod.snd heq
    have hlt : r.2.length < (b :: bs).length := rfcInt_length hint
    rw [List.length_drop]
    omega

def huffOf (coded : Bool) : Option HpackHuff := if coded then some .reset else none

lemma strDone_of_pad {d : HpackListDec} {u : Option HpackHuff}
    (h : u.any (!·.padOk) = false) : d.strDone fn ctx s u = d.strDone fn ctx s none := by
  simp only [HpackDec.strDone, h, Option.any_none]

lemma feed_strBytes {coded : Bool} (hn : 0 < n)
    (hst : d.st = .str s (huffOf coded) n) (xs : Bytes) : Reads d ctx (hpackDecFeed fn d ctx xs)
      (if n ≤ xs.length then plainString coded (xs.take n) else none) limit
      fun str => SameRes (hpackDecFeed fn d ctx xs)
        (resume fn (d.strDone fn ctx (str.foldl HpackStr.putChar s) none) (xs.drop n)) := by
  cases xs with
  | nil =>
    rw [List.length_nil, if_neg (Nat.not_le.mpr hn)]
    refine .stuck ⟨rfl, fun _ => ⟨?_, rfl, rfl⟩⟩ nofun
    rw [hpackDecFeed_nil, hst]
    rintro ⟨⟩
  | cons c cs =>
    have hleft : LeftOk d := by
      intro s' u' n' h
      rw [hst] at h
      cases h
      exact hn
    have hpass : d.pass fn ctx c cs = (d.strChunk fn ctx s (huffOf coded) n ((c :: cs).take n),
        (c :: cs).drop n) := by
      rw [HpackDec.pass, hst]
    have hwhole := strBytes_whole s coded ((c :: cs).take n)
    rw [hpackDecFeed_cons hleft, hpass]
    generalize hxs : c :: cs = xs at hwhole
    unfold HpackDec.strChunk
    rw [List.length_take]
    change (strBytes s (huffOf coded) (xs.take n)).bind _ = _ at hwhole
    cases hbytes : strBytes s (huffOf coded) (xs.take n) with
    | none =>
      rw [hbytes, Option.bind_none, eq_comm, Option.map_eq_none_iff] at hwhole
      rw [hwhole, ite_self]
      exact .stuck (.of_rc rfl (by rintro ⟨⟩)) nofun
    | some r =>
      obtain ⟨s', u'⟩ := r
      rw [hbytes, Option.bind_some] at hwhole
      dsimp only at hwhole ⊢
      by_cases hlen : n ≤ xs.length
      · rw [if_pos (by omega), if_pos hlen]
        cases hpad : u'.any (!·.padOk) with
        | true =>
          rw [hpad, if_pos rfl, eq_comm, Option.map_eq_none_iff] at hwhole
          have herr : d.strDone fn ctx s' u' = ⟨d, ctx, .err⟩ := by
            simp only [HpackDec.strDone, hpad, if_true]
          rw [herr, hwhole]
          exact .stuck (.of_rc rfl (by rintro ⟨⟩)) nofun
        | false =>
          rw [hpad, if_neg (by simp), eq_comm] at hwhole
          obtain ⟨str, hstr, hput⟩ := Option.map_eq_some_iff.mp hwhole
          rw [strDone_of_pad hpad, ← hput]
          exact .inl ⟨str, hstr, .rfl⟩
      · rw [if_neg (by omega), if_neg hlen, List.drop_of_length_le (by omega)]
        exact .stuck ⟨rfl, fun _ => ⟨(by rintro ⟨⟩), rfl, rfl⟩⟩ nofun

lemma plainString_nil (coded : Bool) : plainString coded [] = some [] := by
  cases coded <;> decide +kernel

lemma strDone_empty (d : HpackListDec) (ctx : σ) (s : HpackStr) (coded : Bool) :
    SameRes (({ d with st := .first } : HpackListDec).strDone fn ctx s (huffOf coded))
      (d.strDone fn ctx s none) := by
  have hpad : (huffOf coded).any (!·.padOk) = false := by cases coded <;> decide
  rw [strDone_of_pad hpad]
  exact strDone_withSt d .first ctx s none

lemma feed_string (hst : d.st = .strHdr s) (xs : Bytes) :
    Reads d ctx (hpackDecFeed fn d ctx xs) (rfcString xs) (LongString xs)
      fun str => SameRes (hpackDecFeed fn d ctx xs)
        (resume fn (d.strDone fn ctx (str.1.foldl HpackStr.putChar s) none) str.2) := by
  cases xs with
  | nil =>
    refine .stuck ⟨rfl, fun _ => ⟨?_, rfl, rfl⟩⟩ nofun
    rw [hpackDecFeed_nil, hst]
    rintro ⟨⟩
  | cons b bs =>
    have hleft : LeftOk d := fun s u n h => by rw [hst] at h; cases h
    have hpass : d.pass fn ctx b bs = (d.intStart fn ctx (.strlen s (b &&& 0x80 ≠ 0))
        (b.toNat % 2 ^ 7) (2 ^ 7 - 1), bs) := by
      rw [HpackDec.pass, hst, ← byte_mask 7 (rfl : (0x7f : UInt8).toNat = _)]
      rfl
    rw [hpackDecFeed_cons hleft, hpass, rfcString_cons]
    refine ((resume_intStart d ctx (.strlen s (b &&& 0x80 ≠ 0)) 7 b bs rfl).congr .rfl .inl
      fun _ h => h).bind fun i hint hfeed => ?_
    rw [hfeed]
    obtain ⟨v, rest⟩ := i
    simp only [HpackDec.intDone]
    by_cases hbig : v > hpackMaxString
    · rw [if_pos hbig]
      exact .stuck (.of_rc rfl (by rintro ⟨⟩)) fun _ _ => .inr ⟨v, rest, hint, hbig⟩
    rw [if_neg hbig]
    by_cases hzero : v = 0
    · subst hzero
      left
      refine ⟨([], rest), ?_, ?_⟩
      · rw [if_pos (Nat.zero_le _), List.take_zero, List.drop_zero, plainString_nil]
        rfl
      · rw [if_pos rfl]
        exact (strDone_empty d ctx s _).resume rest
    · rw [if_neg hzero]
      refine (feed_strBytes (d := { d with st := .str s (huffOf (b &&& 0x80 ≠ 0)) v })
        (Nat.pos_of_ne_zero hzero) rfl rest).map id fun str _ hsame => hsame.trans ?_
      exact (strDone_withSt d _ ctx _ none).resume _

lemma foldl_putChar_strName (n : HpackName) (str : Bytes) :
    str.foldl HpackStr.putChar (.name n) = .name (str.foldl HpackName.putChar n) := by
  induction str generalizing n with
  | nil => rfl
  | cons c _ ih => exact ih (n.putChar c)

lemma foldl_putChar_strValue (v : HpackValue) (str : Bytes) :
    str.foldl HpackStr.putChar (.value v) = .value (str.foldl HpackValue.putChar v) := by
  induction str generalizing v with
  | nil => rfl
  | cons c _ ih => exact ih (v.putChar c)

lemma entry?_eq_lookup {t : RfcTable} (h : d.tab = t.entries) (idx : ℕ) :
    HpackTable.entry? d.tab idx = t.lookup idx := by
  have hlen : hpackStatic.length = hpackStaticLen := rfl
  unfold RfcTable.lookup
  dsimp only [HpackTable.entry?]
  split
  · rfl
  · next hidx =>
    split
    · next hle => rw [List.getElem?_append_left (by omega)]
    · next hgt =>
      rw [List.getElem?_append_right (by omega), h, hlen]
      congr 1

lemma tableField_eq {t : RfcTable} (h : d.tab = t.entries) (rep : HpackRep) (never : Bool) (idx : ℕ)
    (withValue : Bool) : d.tableField (litOf rep never) idx withValue =
      (t.lookup idx).map fun e => valuePut rep never e.name (if withValue then e.value else []) := by
  rw [HpackDec.tableField, entry?_eq_lookup h]
  congr 1
  funext e
  rw [foldl_putChar_name, namePut_beginValue]
  cases withValue with
  | false => rfl
  | true => exact foldl_putChar_value rep never e.name e.value

/-- The result is that of a decoder that has reported `f` and goes on from the state `s` of the
reference. -/
def Decodes (fn : σ → HpackField → σ × Bool) (m : ℕ) (ctx : σ) (r : HpackListRes σ)
    (f : Option RfcField) (s : RfcState) : Prop :=
  ∃ d', d'.st = .first ∧ d'.blockStart = s.start ∧ Holds m d' s.table ∧
    SameRes r (hpackDecFeed fn d' (reports fn ctx f.toList) s.rest)

variable {m : ℕ} {t : RfcTable}

lemma Decodes.congr {f : Option RfcField} {s : RfcState} (h : SameRes r r')
    (hd : Decodes fn m ctx r' f s) : Decodes fn m ctx r f s := by
  obtain ⟨d', hst, hstart, hholds, hsame⟩ := hd
  exact ⟨d', hst, hstart, hholds, h.trans hsame⟩

lemma resume_emit (hfn : ∀ ctx f, (fn ctx f).2 = true) (h : Holds m d t) (rep : HpackRep)
    (never : Bool) (name value rest : Bytes) :
    Decodes fn m ctx (resume fn (d.emit fn ctx (valuePut rep never name value)) rest)
        (some ⟨name, value, never⟩)
        ⟨if rep = .incr then t.insert ⟨name, value⟩ else t, d.blockStart, rest⟩ ∨
      (rep = .incr ∧ Overlong t ⟨name, value⟩ ∧
        Stuck d ctx (resume fn (d.emit fn ctx (valuePut rep never name value)) rest)) := by
  rcases emit_reports hfn h ctx rep never name value with
    ⟨hrep, hover, hctx, hne⟩ | ⟨d', heq, hst, hstart, hholds⟩
  · right
    rw [resume, if_neg hne]
    exact ⟨hrep, hover, .of_rc hctx hne⟩
  · left
    rw [heq]
    exact ⟨d', hst, hstart, hholds, .rfl⟩

lemma resume_name (h : Holds m d t) (rep : HpackRep) (never : Bool) (idx : ℕ) (xs : Bytes)
    (hr : r = resume fn (d.intDone fn ctx (.name (litOf rep never)) idx) xs) :
    Reads d ctx r (if idx = 0 then rfcString xs else (t.lookup idx).map fun e => (e.name, xs))
      (idx = 0 ∧ LongString xs) fun name => SameRes r (hpackDecFeed fn
        { d with st := .strHdr (.value (valuePut rep never name.1 [])) } ctx name.2) := by
  subst hr
  by_cases hidx : idx = 0
  · simp only [HpackDec.intDone, if_pos hidx]
    refine (feed_string (d := { d with st := .strHdr (.name (litOf rep never).beginName) }) rfl
      xs).congr .rfl (fun hlong => ⟨hidx, hlong⟩) fun name hsame => hsame.trans (.of_eq ?_)
    rw [foldl_putChar_strName, foldl_putChar_name, ← namePut_beginValue]
    rfl
  · have htab : ({ d with st := .first } : HpackListDec).tab = t.entries := h.tab
    simp only [HpackDec.intDone, if_neg hidx, tableField_eq htab]
    cases t.lookup idx with
    | none => exact .stuck (.of_rc rfl nofun) nofun
    | some e => exact .inl ⟨(e.name, xs), rfl, .rfl⟩

lemma rfcName_eq {idx : ℕ} (h : rfcInt n xs = some (idx, rest)) : rfcName t n xs =
      if idx = 0 then rfcString rest else (t.lookup idx).map fun e => (e.name, rest) := by
  rw [rfcName, h]
  rfl

lemma rfcName_length {name : Bytes} (h : rfcName t n xs = some (name, rest)) :
    rest.length < xs.length := by
  obtain ⟨⟨idx, rest'⟩, hint, h⟩ := Option.bind_eq_some_iff.mp h
  have hlt := rfcInt_length hint
  dsimp only at h
  split at h
  · have hstr := rfcString_length h
    omega
  · obtain ⟨e, _, heq⟩ := Option.map_eq_some_iff.mp h
    obtain rfl : rest' = rest := congrArg Prod.snd heq
    exact hlt

lemma rfcLiteral_length {e : HpackEntry}
    (h : rfcLiteral t n xs = some (e, rest)) : rest.length < xs.length := by
  obtain ⟨⟨name, rest'⟩, hname, h⟩ := Option.bind_eq_some_iff.mp h
  obtain ⟨⟨value, rest''⟩, hvalue, h⟩ := Option.bind_eq_some_iff.mp h
  obtain rfl : rest'' = rest := congrArg Prod.snd (Option.some.inj h)
  have hn := rfcName_length hname
  have hv := rfcString_length hvalue
  omega

lemma firstByte_indexed (hb : 128 ≤ b) : d.firstByte fn ctx b =
    ({ d with blockStart := false } : HpackListDec).intStart fn ctx (.indexed (litOf .indexed false))
      (b.toNat % 2 ^ 7) (2 ^ 7 - 1) := by
  obtain ⟨hsize, hidx⟩ := byte_indexed b hb
  rw [HpackDec.firstByte, if_neg hsize]
  rw [if_pos hidx, byte_mask 7 rfl]
  rfl

lemma firstByte_incremental (hb : 64 ≤ b) (hlt : b < 128) : d.firstByte fn ctx b =
    ({ d with blockStart := false } : HpackListDec).intStart fn ctx (.name (litOf .incr false))
      (b.toNat % 2 ^ 6) (2 ^ 6 - 1) := by
  obtain ⟨hsize, hidx, hincr⟩ := byte_incremental b hb hlt
  rw [HpackDec.firstByte, if_neg hsize]
  rw [if_neg hidx, if_pos hincr, byte_mask 6 rfl]
  rfl

lemma firstByte_size (hb : 32 ≤ b) (hlt : b < 64) : d.firstByte fn ctx b =
    if !d.blockStart then ⟨d, ctx, .err⟩
    else d.intStart fn ctx .size (b.toNat % 2 ^ 5) (2 ^ 5 - 1) := by
  rw [HpackDec.firstByte, if_pos (byte_size b hb hlt), byte_mask 5 rfl]
  rfl

lemma firstByte_plain (fn : σ → HpackField → σ × Bool) (d : HpackListDec) (ctx : σ)
    (hlt : b < 32) : ∃ rep, rep ≠ .incr ∧ d.firstByte fn ctx b =
    ({ d with blockStart := false } : HpackListDec).intStart fn ctx (.name (litOf rep (16 ≤ b)))
      (b.toNat % 2 ^ 4) (2 ^ 4 - 1) := by
  obtain ⟨hsize, hidx, hincr, hnev⟩ := byte_plain b hlt
  rw [HpackDec.firstByte, if_neg hsize]
  rw [if_neg hidx, if_neg hincr]
  by_cases hnever : 16 ≤ b
  · rw [if_pos (hnev.mpr hnever), byte_mask 4 rfl, decide_eq_true hnever]
    exact ⟨.never, nofun, rfl⟩
  · rw [if_neg (mt hnev.mp hnever), byte_mask 4 rfl, decide_eq_false hnever]
    exact ⟨.noidx, nofun, rfl⟩

lemma hpackDecFeed_first (hst : d.st = .first) (b : UInt8) (bs : Bytes) :
    hpackDecFeed fn d ctx (b :: bs) = resume fn (d.firstByte fn ctx b) bs := by
  have hleft : LeftOk d := fun s u n h => by rw [hst] at h; cases h
  have hpass : d.pass fn ctx b bs = (d.firstByte fn ctx b, bs) := by rw [HpackDec.pass, hst]
  rw [hpackDecFeed_cons hleft, hpass]

def StepsLike (fn : σ → HpackField → σ × Bool) (m : ℕ) (d : HpackListDec) (ctx : σ) (t : RfcTable)
    (b : UInt8) (bs : Bytes) : Prop :=
  (∃ f s, rfcStep m ⟨t, d.blockStart, b :: bs⟩ = some (f, s) ∧ s.rest.length < (b :: bs).length ∧
      Decodes fn m ctx (hpackDecFeed fn d ctx (b :: bs)) f s) ∨
    (Stuck d ctx (hpackDecFeed fn d ctx (b :: bs)) ∧
      (rfcStep m ⟨t, d.blockStart, b :: bs⟩ = none ∨ HitsLimit t b bs))

lemma StepsLike.of_reads {bs : Bytes} {f : α → Option RfcField × RfcState}
    (hstep : rfcStep m ⟨t, d.blockStart, b :: bs⟩ = p.map f)
    (h : Reads d ctx (hpackDecFeed fn d ctx (b :: bs)) p (HitsLimit t b bs) fun a =>
      (f a).2.rest.length < (b :: bs).length ∧
        Decodes fn m ctx (hpackDecFeed fn d ctx (b :: bs)) (f a).1 (f a).2) :
    StepsLike fn m d ctx t b bs := by
  unfold StepsLike
  rw [hstep]
  rcases h with ⟨a, rfl, hlt, hdec⟩ | ⟨hstuck, rfl | hlimit⟩
  · exact .inl ⟨_, _, rfl, hlt, hdec⟩
  · exact .inr ⟨hstuck, .inl rfl⟩
  · exact .inr ⟨hstuck, .inr hlimit⟩

lemma step_indexed (hfn : ∀ ctx f, (fn ctx f).2 = true) (h : Holds m d t) (hst : d.st = .first)
    (hb : 128 ≤ b) (bs : Bytes) : StepsLike fn m d ctx t b bs := by
  have hlow : rfcPrefix b = 7 := if_pos hb
  have hfeed : hpackDecFeed fn d ctx (b :: bs) = _ := hpackDecFeed_first hst b bs
  rw [firstByte_indexed hb] at hfeed
  have hfirst : Holds m { d with st := .first, blockStart := false } t := h.withSt _ _
  refine .of_reads (p := (rfcInt 7 (b :: bs)).bind fun i => (t.lookup i.1).map fun e => (e, i.2))
    (f := fun e => (some ⟨e.1.name, e.1.value, false⟩, ⟨t, false, e.2⟩)) ?_ ?_
  · simp only [rfcStep, if_pos hb, Option.bind_eq_bind, Option.map_bind]
    congr 1
    funext i
    rw [Function.comp_apply]
    cases t.lookup i.1 <;> rfl
  · refine ((resume_intStart _ ctx _ 7 b bs hfeed).congr .rfl (fun hlong => .int (hlow ▸ hlong))
      fun _ h => h).bind fun i hint hrun => ?_
    rw [hrun]
    simp only [HpackDec.intDone, tableField_eq hfirst.tab, if_true]
    cases hlook : t.lookup i.1 with
    | none => exact .stuck (.of_rc rfl nofun) nofun
    | some e =>
      rcases resume_emit hfn hfirst .indexed false e.name e.value i.2 with hdec | ⟨hrep, _⟩
      · exact .inl ⟨(e, i.2), rfl, rfcInt_length hint, hdec⟩
      · cases hrep

lemma step_size (h : Holds m d t) (hst : d.st = .first) (hb : 32 ≤ b) (hlt : b < 64)
    (bs : Bytes) : StepsLike fn m d ctx t b bs := by
  have h128 : ¬ 128 ≤ b := UInt8.not_le.mpr (UInt8.lt_trans hlt (by decide))
  have h64 : ¬ 64 ≤ b := UInt8.not_le.mpr hlt
  have hlow : rfcPrefix b = 5 := by simp only [rfcPrefix, if_neg h128, if_neg h64, if_pos hb]
  have hfeed : hpackDecFeed fn d ctx (b :: bs) = _ := hpackDecFeed_first hst b bs
  rw [firstByte_size hb hlt] at hfeed
  cases hstart : d.blockStart with
  | false =>
    rw [hstart, Bool.not_false, if_pos rfl] at hfeed
    refine .inr ⟨?_, .inl ?_⟩
    · rw [hfeed]
      exact .of_rc rfl (by rintro ⟨⟩)
    · simp [rfcStep, h128, h64, hb, hstart]
  | true =>
    rw [hstart, Bool.not_true, if_neg (by simp)] at hfeed
    refine .of_reads (p := (rfcInt 5 (b :: bs)).bind fun i => if i.1 ≤ m then some i else none)
      (f := fun i => (none, ⟨t.resize i.1, true, i.2⟩)) ?_ ?_
    · simp only [rfcStep, if_neg h128, if_neg h64, if_pos hb, Option.bind_eq_bind, hstart, guard,
        if_true, Option.map_bind]
      change (rfcInt 5 (b :: bs)).bind _ = _
      congr 1
      funext i
      by_cases hn : i.1 ≤ m <;> simp [hn]
    · refine ((resume_intStart d ctx _ 5 b bs hfeed).congr .rfl (fun hlong => .int (hlow ▸ hlong))
        fun _ h => h).bind fun i hint hrun => ?_
      rw [hrun]
      simp only [HpackDec.intDone]
      by_cases hbig : i.1 > d.maxSize
      · rw [if_pos hbig, if_neg (Nat.not_le.mpr (h.maxSize ▸ hbig))]
        exact .stuck (.of_rc rfl nofun) nofun
      · have hn : i.1 ≤ m := h.maxSize ▸ Nat.le_of_not_lt hbig
        rw [if_neg hbig, if_pos hn]
        refine .inl ⟨i, rfl, rfcInt_length hint,
          ({ d with st := .first, sizeLimit := i.1 } : HpackListDec).dynEvictTo i.1, rfl, hstart, ?_, .rfl⟩
        exact (h.withSt .first d.blockStart).resize hn

lemma step_literal (hfn : ∀ ctx f, (fn ctx f).2 = true) (h : Holds m d t) (hst : d.st = .first)
    {bs : Bytes} {rep : HpackRep} {never : Bool}
    (hlit : b < 32 ∨ 64 ≤ b ∧ b < 128) (hlow : rfcPrefix b = n)
    (hrep : rep = .incr → n = 6 ∧ 64 ≤ b ∧ b < 128)
    (hfirst : d.firstByte fn ctx b = ({ d with blockStart := false } : HpackListDec).intStart fn ctx
      (.name (litOf rep never)) (b.toNat % 2 ^ n) (2 ^ n - 1))
    (hstep : rfcStep m ⟨t, d.blockStart, b :: bs⟩ = (rfcLiteral t n (b :: bs)).map fun e =>
      (some ⟨e.1.name, e.1.value, never⟩,
        ⟨if rep = .incr then t.insert e.1 else t, false, e.2⟩)) :
    StepsLike fn m d ctx t b bs := by
  subst hlow
  have hfeed : hpackDecFeed fn d ctx (b :: bs) = _ := hpackDecFeed_first hst b bs
  rw [hfirst] at hfeed
  have hin : Holds m { d with blockStart := false } t := h.withSt d.st false
  have hname : Reads d ctx (hpackDecFeed fn d ctx (b :: bs)) (rfcName t (rfcPrefix b) (b :: bs))
      (HitsLimit t b bs) _ :=
    ((resume_intStart _ ctx _ _ b bs hfeed).congr .rfl .int fun _ h => h).bind fun i hint hrun =>
      (resume_name hin rep never i.1 i.2 hrun).congr .rfl
        (fun hlong => .name hlit (by rw [hint, ← hlong.1]) hlong.2) fun _ h => h
  refine .of_reads hstep (hname.bind fun name hn hsame => ?_)
  refine ((feed_string (d := { d with
      st := .strHdr (.value (valuePut rep never name.1 [])), blockStart := false }) rfl name.2).congr
    hsame (.value hlit hn) fun _ h => hsame.trans h).bind fun value hv hend => ?_
  have hlite : rfcLiteral t (rfcPrefix b) (b :: bs) = some (⟨name.1, value.1⟩, value.2) := by
    simp only [rfcLiteral, hn, Option.bind_eq_bind, Option.bind_some, hv]
    rfl
  rw [foldl_putChar_strValue, foldl_putChar_value] at hend
  rcases resume_emit hfn (h.withSt (.strHdr (.value (valuePut rep never name.1 []))) false) rep never
    name.1 value.1 value.2 with hdec | ⟨hincr, hover, hstuck⟩
  · exact .inl ⟨_, rfl, rfcLiteral_length hlite, hdec.congr hend⟩
  · obtain ⟨hsix, hb⟩ := hrep hincr
    rw [hsix] at hlite
    exact .stuck (Stuck.congr hend hstuck) fun _ _ => .capture hb hlite hover.1 hover.2

lemma feed_step (hfn : ∀ ctx f, (fn ctx f).2 = true) (ctx : σ) (h : Holds m d t)
    (hst : d.st = .first) (b : UInt8) (bs : Bytes) : StepsLike fn m d ctx t b bs := by
  by_cases h128 : 128 ≤ b
  · exact step_indexed hfn h hst h128 bs
  · have hlt128 : b < 128 := UInt8.not_le.mp h128
    by_cases h64 : 64 ≤ b
    · have hlow : rfcPrefix b = 6 := by simp only [rfcPrefix, if_neg h128, if_pos h64]
      refine step_literal hfn h hst (.inr ⟨h64, hlt128⟩) hlow (fun _ => ⟨rfl, h64, hlt128⟩)
        (firstByte_incremental h64 hlt128) ?_
      simp only [rfcStep, if_neg h128, if_pos h64]
      cases rfcLiteral t 6 (b :: bs) <;> rfl
    · have hlt64 : b < 64 := UInt8.not_le.mp h64
      by_cases h32 : 32 ≤ b
      · exact step_size h hst h32 hlt64 bs
      · have hlt32 : b < 32 := UInt8.not_le.mp h32
        have hlow : rfcPrefix b = 4 := by
          simp only [rfcPrefix, if_neg h128, if_neg h64, if_neg h32]
        obtain ⟨rep, hrep, hfirst⟩ := firstByte_plain fn d ctx hlt32
        refine step_literal hfn h hst (.inl hlt32) hlow (fun h => absurd h hrep) hfirst ?_
        simp only [rfcStep, if_neg h128, if_neg h64, if_neg h32, if_neg hrep]
        cases rfcLiteral t 4 (b :: bs) <;> rfl

lemma reports_append (fs fs' : List RfcField) :
    reports fn ctx (fs ++ fs') = reports fn (reports fn ctx fs) fs' := List.foldl_append

/-- The reference has decoded `fs` and is in `s`, and the decoder has reported them; the block is
complete, or it is in error or breaks off inside the next representation. -/
structure RfcFollows (fn : σ → HpackField → σ × Bool) (m : ℕ) (ctx : σ) (r : HpackListRes σ)
    (fs : List RfcField) (s : RfcState) : Prop where
  reported : r.ctx = reports fn ctx fs
  whole : s.rest = [] → r.rc = .ok ∧ r.dec.st = .first ∧ Holds m r.dec s.table
  stuck : ∀ b bs, s.rest = b :: bs → (rfcStep m s = none ∨ HitsLimit s.table b bs) ∧
    (r.rc = .ok → r.dec.st ≠ .first ∧ r.dec.tab = s.table.entries ∧ r.dec.sizeLimit = s.table.limit)

lemma RfcFollows.congr {fs : List RfcField} {s : RfcState} (h : SameRes r r')
    (hf : RfcFollows fn m ctx r' fs s) : RfcFollows fn m ctx r fs s := by
  rcases h with rfl | ⟨hne, hrc, hctx, _⟩
  · exact hf
  · refine ⟨hctx.trans hf.reported, ?_, ?_⟩
    · exact fun hs => absurd (hrc.trans (hf.whole hs).1) hne
    · exact fun b bs hs => ⟨(hf.stuck b bs hs).1, fun hok => absurd hok hne⟩

lemma feed_follows (hfn : ∀ ctx f, (fn ctx f).2 = true) : ∀ (len : ℕ) (xs : Bytes) (d : HpackListDec)
    (ctx : σ) (t : RfcTable), xs.length ≤ len → Holds m d t → d.st = .first →
    ∃ n fs s, rfcRun m n ⟨t, d.blockStart, xs⟩ = some (fs, s) ∧
      RfcFollows fn m ctx (hpackDecFeed fn d ctx xs) fs s := by
  intro len
  induction len with
  | zero =>
    intro xs d ctx t hlen h hst
    obtain rfl := List.eq_nil_of_length_eq_zero (Nat.le_zero.mp hlen)
    exact ⟨0, [], _, rfl, rfl, fun _ => ⟨rfl, hst, h⟩, nofun⟩
  | succ _ ih =>
    intro xs d ctx t hlen h hst
    cases xs with
    | nil => exact ⟨0, [], _, rfl, rfl, fun _ => ⟨rfl, hst, h⟩, nofun⟩
    | cons b bs =>
      rcases feed_step hfn ctx h hst b bs with
        ⟨f, s, hstep, hlt, d', hst', hstart, hholds, hsame⟩ | ⟨hstuck, hwhy⟩
      · obtain ⟨n, fs, s', hrun, hfol⟩ := ih s.rest d' (reports fn ctx f.toList) s.table
          (by rw [List.length_cons] at hlen hlt; omega) hholds hst'
        rw [hstart] at hrun
        refine ⟨n + 1, f.toList ++ fs, s', ?_, ?_⟩
        · rw [rfcRun, hstep]
          simp [hrun]
        · have hfol' := hfol.congr hsame
          exact ⟨by rw [hfol'.reported, reports_append], hfol'.whole, hfol'.stuck⟩
      · refine ⟨0, [], _, rfl, hstuck.1, nofun, ?_⟩
        rintro b' bs' ⟨⟩
        refine ⟨hwhy, fun hok => ?_⟩
        obtain ⟨hne, htab, hlim⟩ := hstuck.2 hok
        exact ⟨hne, htab.trans h.tab, hlim.trans h.limit⟩

end Decoder

end TinyLink.Proofs
