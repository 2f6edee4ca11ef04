import TinyLink.Proofs.HpackSession

/-!
# The HPACK encoder

A field has one encoding, whatever the capacity: the encoder stores it or gives up, within the
capacity in both cases, and the decoder reads it back.
-/

namespace TinyLink.Proofs

variable {r : (ℕ → UInt8) × ℕ} {bs xs : Bytes} {b : UInt8} {bits v : ℕ}

def encodeInt (bits v : ℕ) : Bytes :=
  if v < 2 ^ bits - 1 then [UInt8.ofNat v]
  else UInt8.ofNat (2 ^ bits - 1) :: hpackIntTail 5 (v - (2 ^ bits - 1))

def encodeString (s : Bytes) : Bytes := encodeInt 7 (s.length % 2 ^ 32) ++ s

def encodeName (name : Bytes) : Bytes :=
  encodeInt 4 (hpackStaticNameIndex name) ++
    if hpackStaticNameIndex name = 0 then encodeString name else []

def encodeField (name value : Bytes) : Bytes := encodeName name ++ encodeString value

lemma encodeInt_length_pos (bits v : ℕ) : 0 < (encodeInt bits v).length := by
  unfold encodeInt
  split <;> simp

lemma hpackIntTail_length (k v : ℕ) : (hpackIntTail k v).length ≤ k := by
  induction k generalizing v with
  | zero => exact Nat.le_refl 0
  | succ k ih =>
    rw [hpackIntTail]
    split
    · exact Nat.succ_le_succ (ih _)
    · exact Nat.succ_le_succ (Nat.zero_le k)

lemma encodeInt_length_le (bits v : ℕ) : (encodeInt bits v).length ≤ 6 := by
  unfold encodeInt
  split
  · exact Nat.le_of_ble_eq_true rfl
  · exact Nat.succ_le_succ (hpackIntTail_length 5 _)

def fitting (cap : ℕ) (bs : Bytes) : Option Bytes := if bs.length ≤ cap then some bs else none

lemma fitting_append (cap : ℕ) (xs ys : Bytes) :
    ((fitting cap xs).bind fun h => (fitting (cap - h.length) ys).map (h ++ ·)) =
      fitting cap (xs ++ ys) := by
  unfold fitting
  rw [List.length_append]
  by_cases hx : xs.length ≤ cap
  · rw [if_pos hx, Option.bind_some]
    by_cases hy : ys.length ≤ cap - xs.length
    · rw [if_pos hy, if_pos (by omega), Option.map_some]
    · rw [if_neg hy, if_neg (by omega), Option.map_none]
  · rw [if_neg hx, if_neg (by omega), Option.bind_none]

lemma hpackPutInt_eq (cap bits v : ℕ) :
    hpackPutInt cap 0x00 bits v = fitting cap (encodeInt bits v) := by
  simp only [hpackPutInt, UInt8.zero_or]
  rfl

lemma hpackPutString_eq (cap : ℕ) (s : Bytes) :
    hpackPutString cap s = fitting cap (encodeString s) := by
  rw [hpackPutString, hpackPutInt_eq, encodeString]
  unfold fitting
  rw [List.length_append]
  by_cases hint : (encodeInt 7 (s.length % 2 ^ 32)).length ≤ cap
  · simp only [if_pos hint, Option.bind_some, ← Nat.not_le, ite_not]
  · rw [if_neg hint, if_neg (by omega), Option.bind_none]

lemma hpackPutField_eq (cap : ℕ) (name value : Bytes) :
    hpackPutField cap name value = fitting cap (encodeField name value) := by
  have hname : (if hpackStaticNameIndex name ≠ 0 then
        hpackPutInt cap 0x00 4 (hpackStaticNameIndex name)
      else if cap < 1 then none else (hpackPutString (cap - 1) name).map (0x00 :: ·)) =
      fitting cap (encodeName name) := by
    unfold encodeName
    by_cases hidx : hpackStaticNameIndex name = 0
    · rw [if_neg (not_not.mpr hidx), if_pos hidx, hidx, hpackPutString_eq, ← fitting_append]
      by_cases hcap : cap < 1
      · have hnone : fitting cap (encodeInt 4 0) = none := if_neg (Nat.not_le.mpr hcap)
        rw [if_pos hcap, hnone, Option.bind_none]
      · have hsome : fitting cap (encodeInt 4 0) = some [0x00] := if_pos (Nat.not_lt.mp hcap)
        rw [if_neg hcap, hsome]
        rfl
    · rw [if_pos hidx, if_neg hidx, List.append_nil, hpackPutInt_eq]
  simp only [hpackPutField]
  rw [hname]
  simp only [hpackPutString_eq]
  exact fitting_append cap (encodeName name) (encodeString value)

section Buffer
variable {mem : ℕ → UInt8} {out cap : ℕ}

lemma memCopy_append (mem : ℕ → UInt8) (out : ℕ) (xs ys : Bytes) :
    memCopy (memCopy mem out xs) (out + xs.length) ys = memCopy mem out (xs ++ ys) := by
  funext j
  simp only [memCopy, List.length_append]
  by_cases hx : out ≤ j ∧ j < out + xs.length
  · rw [if_neg (by omega), if_pos hx, if_pos (by omega), List.getD_eq_getElem?_getD,
      List.getD_eq_getElem?_getD, List.getElem?_append_left (by omega)]
  · by_cases hy : out + xs.length ≤ j ∧ j < out + xs.length + ys.length
    · rw [if_pos hy, if_pos (by omega), List.getD_eq_getElem?_getD, List.getD_eq_getElem?_getD,
        List.getElem?_append_right (by omega), Nat.sub_sub]
    · rw [if_neg hy, if_neg hx, if_neg (by omega)]

lemma memCopy_frame (hx : xs.length ≤ cap) {j : ℕ} (hj : j < out ∨ out + cap ≤ j) :
    memCopy mem out xs j = mem j :=
  if_neg (by omega)

/-- `r` stores `bs` behind `out`, or returns 0 because it is longer than `cap`; no byte outside
`out[0..cap)` changes. -/
structure Puts (mem : ℕ → UInt8) (out cap : ℕ) (bs : Bytes) (r : (ℕ → UInt8) × ℕ) : Prop where
  fits : bs.length ≤ cap → r = (memCopy mem out bs, bs.length)
  short : cap < bs.length → r.2 = 0
  frame : ∀ j, j < out ∨ out + cap ≤ j → r.1 j = mem j

lemma Puts.of_fits (h : bs.length ≤ cap)
    (hr : r = (memCopy mem out bs, bs.length)) : Puts mem out cap bs r := by
  subst hr
  exact ⟨fun _ => rfl, fun hlt => absurd h (Nat.not_le.mpr hlt), fun _ => memCopy_frame h⟩

lemma Puts.of_short (hlt : cap < bs.length) (hx : xs.length ≤ cap) :
    Puts mem out cap bs (memCopy mem out xs, 0) :=
  ⟨fun h => absurd h (Nat.not_le.mpr hlt), fun _ => rfl, fun _ => memCopy_frame hx⟩

lemma hpackPutIntLoop_last {k : ℕ} (hv : ¬ v ≥ 0x80) (hx : xs.length ≤ cap) :
    Puts mem out cap (xs ++ hpackIntTail (k + 1) v)
      (hpackPutIntLoop out cap (k + 1) (memCopy mem out xs) xs.length v) := by
  rw [hpackIntTail, hpackPutIntLoop, if_neg hv, if_neg hv, memCopy_append]
  by_cases hn : xs.length ≥ cap
  · rw [if_pos hn]
    exact Puts.of_short (by simp; omega) hx
  · rw [if_neg hn]
    exact Puts.of_fits (by simp; omega) (by rw [List.length_append]; rfl)

lemma hpackPutIntLoop_puts (k v : ℕ) (xs : Bytes) (hx : xs.length ≤ cap)
    (hv : v < 2 ^ (7 * (k + 1))) : Puts mem out cap (xs ++ hpackIntTail (k + 1) v)
      (hpackPutIntLoop out cap (k + 1) (memCopy mem out xs) xs.length v) := by
  induction k generalizing v xs with
  | zero => exact hpackPutIntLoop_last (Nat.not_le.mpr hv) hx
  | succ k ih =>
    by_cases hge : v ≥ 0x80
    · rw [hpackIntTail, hpackPutIntLoop, if_pos hge, if_pos hge, memCopy_append]
      by_cases hn : xs.length ≥ cap
      · rw [if_pos hn]
        exact Puts.of_short (by simp; omega) hx
      · rw [if_neg hn]
        have hshift : v >>> 7 < 2 ^ (7 * (k + 1)) := by
          rw [Nat.shiftRight_eq_div_pow]
          refine Nat.div_lt_of_lt_mul ?_
          rwa [← Nat.pow_add, Nat.add_comm]
        have h := ih (v >>> 7) (xs ++ [UInt8.ofNat (0x80 ||| (v &&& 0x7f))]) (by simp; omega) hshift
        rw [List.append_assoc, List.length_append] at h
        exact h
    · exact hpackPutIntLoop_last hge hx

lemma hpackPutIntAt_puts (bits : ℕ) (hv : v < 2 ^ 32) :
    Puts mem out cap (encodeInt bits v) (hpackPutIntAt mem out cap 0x00 bits v) := by
  unfold hpackPutIntAt encodeInt
  simp only [UInt8.zero_or]
  by_cases hcap : cap = 0
  · rw [if_pos hcap]
    refine ⟨?_, fun _ => rfl, fun _ _ => rfl⟩
    split <;> simp [hcap]
  · rw [if_neg hcap]
    by_cases hlt : v < 2 ^ bits - 1
    · rw [if_pos hlt, if_pos hlt]
      exact Puts.of_fits (Nat.one_le_iff_ne_zero.mpr hcap) rfl
    · rw [if_neg hlt, if_neg hlt]
      exact hpackPutIntLoop_puts 4 (v - (2 ^ bits - 1)) [UInt8.ofNat (2 ^ bits - 1)]
        (Nat.one_le_iff_ne_zero.mpr hcap) (by omega)

lemma Puts.ret_eq_zero (h : Puts mem out cap bs r)
    (hpos : 0 < bs.length) : r.2 = 0 ↔ cap < bs.length := by
  refine ⟨fun h0 => Nat.not_le.mp fun hle => ?_, h.short⟩
  rw [h.fits hle] at h0
  exact Nat.ne_of_gt hpos h0

lemma putStringAt_puts (s : Bytes) :
    Puts mem out cap (encodeString s) (putStringAt mem out cap s) := by
  have hint : Puts mem out cap _ _ :=
    hpackPutIntAt_puts 7 (Nat.mod_lt s.length (by decide : 0 < 2 ^ 32))
  have hzero := hint.ret_eq_zero (encodeInt_length_pos 7 _)
  have hlen : (encodeString s).length =
      (encodeInt 7 (s.length % 2 ^ 32)).length + s.length := List.length_append
  unfold putStringAt
  by_cases hcap : cap < (encodeInt 7 (s.length % 2 ^ 32)).length
  · rw [if_pos (.inl (hzero.mpr hcap))]
    exact ⟨fun _ => by omega, fun _ => rfl, hint.frame⟩
  · rw [hint.fits (Nat.not_lt.mp hcap)]
    by_cases hs : (encodeInt 7 (s.length % 2 ^ 32)).length + s.length > cap
    · rw [if_pos (.inr hs)]
      exact Puts.of_short (hlen ▸ hs) (Nat.not_lt.mp hcap)
    · rw [if_neg (not_or.mpr ⟨Nat.ne_of_gt (encodeInt_length_pos 7 _), hs⟩), memCopy_append]
      exact Puts.of_fits (by omega) (by rw [hlen]; rfl)

lemma Puts.append {s : Bytes} (h : Puts mem out cap xs r) (hpos : 0 < xs.length) :
    Puts mem out cap (xs ++ encodeString s) (if r.2 = 0 then r
        else ((putStringAt r.1 (out + r.2) (cap - r.2) s).1,
          if (putStringAt r.1 (out + r.2) (cap - r.2) s).2 ≠ 0 then
            r.2 + (putStringAt r.1 (out + r.2) (cap - r.2) s).2 else 0)) := by
  have hlen : (xs ++ encodeString s).length = xs.length + (encodeString s).length :=
    List.length_append
  by_cases hcap : cap < xs.length
  · rw [if_pos (h.short hcap)]
    exact ⟨fun _ => by omega, fun _ => h.short hcap, h.frame⟩
  · have hle := Nat.not_lt.mp hcap
    rw [h.fits hle]
    have hs : Puts (memCopy mem out xs) (out + xs.length) (cap - xs.length) _ _ :=
      putStringAt_puts s
    rw [if_neg (Nat.ne_of_gt hpos)]
    by_cases hfit : (encodeString s).length ≤ cap - xs.length
    · have hspos : (encodeString s).length ≠ 0 := by
        have := encodeInt_length_pos 7 (s.length % 2 ^ 32)
        rw [encodeString, List.length_append]
        omega
      rw [hs.fits hfit, if_pos hspos, memCopy_append]
      exact Puts.of_fits (by omega) (by rw [hlen])
    · rw [if_neg (not_not.mpr (hs.short (Nat.not_le.mp hfit)))]
      refine ⟨fun _ => by omega, fun _ => rfl, fun j hj => ?_⟩
      exact (hs.frame j (by omega)).trans (memCopy_frame hle hj)

lemma hpackStaticNameIndex_lt (name : Bytes) : hpackStaticNameIndex name < 62 := by
  unfold hpackStaticNameIndex
  split
  · next i hi =>
    have := (List.findIdx?_eq_some_iff_getElem.mp hi).1
    change i < 61 at this
    omega
  · decide

lemma encodeName_length_pos (name : Bytes) : 0 < (encodeName name).length := by
  have hpos := encodeInt_length_pos 4 (hpackStaticNameIndex name)
  rw [encodeName, List.length_append]
  omega

lemma hpackPutFieldAt_puts (name value : Bytes) :
    Puts mem out cap (encodeField name value) (hpackPutFieldAt mem out cap name value) := by
  refine Puts.append ?_ (encodeName_length_pos name)
  unfold encodeName
  by_cases hidx : hpackStaticNameIndex name = 0
  · rw [if_neg (not_not.mpr hidx), if_pos hidx, hidx]
    by_cases hcap : cap < 1
    · rw [if_pos hcap]
      refine ⟨fun hle => ?_, fun _ => rfl, fun _ _ => rfl⟩
      rw [List.length_append] at hle
      have hone : (encodeInt 4 0).length = 1 := rfl
      omega
    · rw [if_neg hcap]
      have hzero : Puts mem out cap (encodeInt 4 0) (memCopy mem out [0x00], 1) :=
        Puts.of_fits (Nat.not_lt.mp hcap) rfl
      exact hzero.append Nat.one_pos
  · rw [if_pos hidx, if_neg hidx, List.append_nil]
    exact hpackPutIntAt_puts 4 (Nat.lt_trans (hpackStaticNameIndex_lt name) (by decide))

end Buffer

section Reference
variable {t : RfcTable} {m : ℕ}

lemma ofNat_group (h : v < 128) :
    UInt8.ofNat v &&& 128 = 0 ∧ (UInt8.ofNat v &&& 127).toNat = v := by
  revert v
  decide

lemma ofNat_more (h : v < 128) :
    UInt8.ofNat (0x80 ||| v) &&& 128 ≠ 0 ∧ (UInt8.ofNat (0x80 ||| v) &&& 127).toNat = v := by
  revert v
  decide

lemma rfcIntTail_hpackIntTail (k j v : ℕ) (rest : Bytes) (hv : v < 2 ^ (7 * (k + 1))) :
    rfcIntTail j (hpackIntTail (k + 1) v ++ rest) = some (v * 2 ^ j, rest) := by
  have hlast (k v : ℕ) (j : ℕ) (h : v < 128) :
      rfcIntTail j (hpackIntTail (k + 1) v ++ rest) = some (v * 2 ^ j, rest) := by
    rw [hpackIntTail, if_neg (Nat.not_le.mpr h), List.singleton_append, rfcIntTail,
      if_neg (not_not.mpr (ofNat_group h).1), (ofNat_group h).2]
  induction k generalizing j v with
  | zero => exact hlast 0 v j hv
  | succ k ih =>
    by_cases hge : v ≥ 0x80
    · have hlow : v &&& 0x7f = v % 128 := Nat.and_two_pow_sub_one_eq_mod v 7
      have hmod : v % 128 < 128 := Nat.mod_lt v (by decide)
      have hshift : v >>> 7 = v / 128 := Nat.shiftRight_eq_div_pow v 7
      have hdiv : v / 128 < 2 ^ (7 * (k + 1)) := by
        refine Nat.div_lt_of_lt_mul ?_
        rwa [← Nat.pow_add 2 7, Nat.add_comm]
      rw [hpackIntTail, if_pos hge, List.cons_append, rfcIntTail, hlow,
        if_pos (ofNat_more hmod).1, (ofNat_more hmod).2, hshift, ih (j + 7) (v / 128) hdiv,
        Option.map_some]
      have hval : v % 128 * 2 ^ j + v / 128 * 2 ^ (j + 7) = v * 2 ^ j := by
        rw [Nat.pow_add, Nat.mul_comm (2 ^ j), ← Nat.mul_assoc, ← Nat.add_mul,
          Nat.mul_comm (v / 128), Nat.mod_add_div]
      rw [hval]
    · exact hlast (k + 1) v j (Nat.not_le.mp hge)

section
variable (hbits : 2 ^ bits ≤ 128)
include hbits

lemma toNat_ofNat_low (hv : v < 2 ^ bits) : (UInt8.ofNat v).toNat = v :=
  UInt8.toNat_ofNat_of_lt' (Nat.lt_of_lt_of_le hv (Nat.le_trans hbits (by decide)))

lemma encodeInt_cons (v : ℕ) :
    ∃ b bs, encodeInt bits v = b :: bs ∧ b.toNat < 2 ^ bits := by
  have hpos : 0 < 2 ^ bits := Nat.two_pow_pos bits
  unfold encodeInt
  split
  · exact ⟨_, _, rfl, by rw [toNat_ofNat_low hbits (by omega)]; omega⟩
  · exact ⟨_, _, rfl, by rw [toNat_ofNat_low hbits (by omega)]; omega⟩

lemma rfcInt_encodeInt (hv : v < 2 ^ 32) (rest : Bytes) :
    rfcInt bits (encodeInt bits v ++ rest) = some (v, rest) := by
  have hpos : 0 < 2 ^ bits := Nat.two_pow_pos bits
  unfold encodeInt
  by_cases hlt : v < 2 ^ bits - 1
  · have hb : (UInt8.ofNat v).toNat % 2 ^ bits = v := by
      rw [toNat_ofNat_low hbits (by omega), Nat.mod_eq_of_lt (by omega)]
    simp only [if_pos hlt, List.singleton_append, rfcInt, hb]
  · have hb : (UInt8.ofNat (2 ^ bits - 1)).toNat % 2 ^ bits = 2 ^ bits - 1 := by
      rw [toNat_ofNat_low hbits (by omega), Nat.mod_eq_of_lt (by omega)]
    simp only [if_neg hlt, List.cons_append, rfcInt, hb]
    rw [if_neg (Nat.lt_irrefl _), rfcIntTail_hpackIntTail 4 0 _ rest (by omega), Option.map_some,
      Nat.pow_zero, Nat.mul_one, Nat.add_sub_cancel' (Nat.not_lt.mp hlt)]

lemma not_longInt_encodeInt (hv : v < 2 ^ 31)
    (rest : Bytes) : ¬ LongInt bits (encodeInt bits v ++ rest) := by
  rintro ⟨v', rest', hint, hlong⟩
  rw [rfcInt_encodeInt hbits (by omega)] at hint
  cases hint
  have hlen := encodeInt_length_le bits v
  rw [List.length_append] at hlong
  omega

end

lemma rfcString_encodeString {s : Bytes} (hs : s.length ≤ hpackMaxString) (rest : Bytes) :
    rfcString (encodeString s ++ rest) = some (s, rest) ∧
      ¬ LongString (encodeString s ++ rest) := by
  have hmax : hpackMaxString < 2 ^ 31 := by decide
  have hlen : s.length % 2 ^ 32 = s.length := Nat.mod_eq_of_lt (by omega)
  have hint : rfcInt 7 (encodeInt 7 s.length ++ (s ++ rest)) = some (s.length, s ++ rest) :=
    rfcInt_encodeInt (by decide) (by omega) _
  rw [encodeString, hlen, List.append_assoc]
  constructor
  · obtain ⟨b, bs, heq, hb⟩ := encodeInt_cons (show 2 ^ 7 ≤ 128 by decide) s.length
    have hraw : b &&& 128 = 0 := by
      have h := (ofNat_group hb).1
      rwa [UInt8.ofNat_toNat] at h
    rw [heq, List.cons_append] at hint ⊢
    rw [rfcString_cons, hint, Option.bind_some, if_pos (by simp)]
    simp [plainString, hraw]
  · rintro (hlong | ⟨v, rest', hv, hlong⟩)
    · exact not_longInt_encodeInt (by decide) (by omega) _ hlong
    · rw [hint] at hv
      cases hv
      omega

lemma lookup_staticName {name : Bytes} (h : hpackStaticNameIndex name ≠ 0) :
    ∃ e, t.lookup (hpackStaticNameIndex name) = some e ∧ e.name = name := by
  unfold hpackStaticNameIndex at h ⊢
  split at h
  · next i hi =>
    obtain ⟨hlt, hname, _⟩ := List.findIdx?_eq_some_iff_getElem.mp hi
    refine ⟨hpackStatic[i], ?_, of_decide_eq_true hname⟩
    rw [RfcTable.lookup, if_neg (Nat.succ_ne_zero i), Nat.add_sub_cancel,
      List.getElem?_append_left hlt, List.getElem?_eq_getElem hlt]
  · exact absurd rfl h

/-- A field whose strings are no longer than the decoder takes. -/
def Sendable (f : Bytes × Bytes) : Prop :=
  f.1.length ≤ hpackMaxString ∧ f.2.length ≤ hpackMaxString

lemma rfcInt_encodeName (name rest : Bytes) : rfcInt 4 (encodeName name ++ rest) =
    some (hpackStaticNameIndex name,
      (if hpackStaticNameIndex name = 0 then encodeString name else []) ++ rest) := by
  have hidx := hpackStaticNameIndex_lt name
  rw [encodeName, List.append_assoc]
  exact rfcInt_encodeInt (by decide) (by omega) _

lemma rfcName_encodeName {name : Bytes} (hname : name.length ≤ hpackMaxString) (rest : Bytes) :
    rfcName t 4 (encodeName name ++ rest) = some (name, rest) := by
  rw [rfcName_eq (rfcInt_encodeName name rest)]
  by_cases hidx : hpackStaticNameIndex name = 0
  · rw [if_pos hidx, if_pos hidx]
    exact (rfcString_encodeString hname rest).1
  · obtain ⟨e, hlookup, hename⟩ := lookup_staticName (t := t) hidx
    rw [if_neg hidx, if_neg hidx, hlookup, Option.map_some, hename, List.nil_append]

lemma encodeField_cons (name value rest : Bytes) :
    ∃ b bs, encodeField name value ++ rest = b :: bs ∧ b < 16 := by
  obtain ⟨b, bs, heq, hb⟩ := encodeInt_cons (show 2 ^ 4 ≤ 128 by decide)
    (hpackStaticNameIndex name)
  rw [encodeField, encodeName, heq, List.cons_append, List.cons_append, List.cons_append]
  exact ⟨b, _, rfl, hb⟩

lemma rfcStep_field {f : Bytes × Bytes} (hf : Sendable f) (start : Bool) {rest : Bytes}
    (hbs : encodeField f.1 f.2 ++ rest = b :: bs) (hb : b < 16) :
    rfcStep m ⟨t, start, b :: bs⟩ = some (some ⟨f.1, f.2, false⟩, ⟨t, false, rest⟩) := by
  have hname : rfcName t 4 (b :: bs) = some (f.1, encodeString f.2 ++ rest) := by
    rw [← hbs, encodeField, List.append_assoc]
    exact rfcName_encodeName hf.1 _
  have hlit : rfcLiteral t 4 (b :: bs) = some (⟨f.1, f.2⟩, rest) := by
    simp [rfcLiteral, hname, (rfcString_encodeString hf.2 rest).1]
  have hlow (k : UInt8) (hk : 16 ≤ k) : ¬ k ≤ b :=
    fun h => UInt8.not_le.mpr hb (UInt8.le_trans hk h)
  simp [rfcStep, hlow 128 (by decide), hlow 64 (by decide), hlow 32 (by decide),
    hlow 16 (by decide), hlit]

lemma not_hitsLimit_field {f : Bytes × Bytes} (hf : Sendable f) {rest : Bytes}
    (hbs : encodeField f.1 f.2 ++ rest = b :: bs) (hb : b < 16) : ¬ HitsLimit t b bs := by
  have hlow (k : UInt8) (hk : 16 ≤ k) : ¬ k ≤ b :=
    fun h => UInt8.not_le.mpr hb (UInt8.le_trans hk h)
  have hbits : rfcPrefix b = 4 := by
    simp only [rfcPrefix, if_neg (hlow 128 (by decide)), if_neg (hlow 64 (by decide)),
      if_neg (hlow 32 (by decide))]
  have happ : b :: bs = encodeName f.1 ++ (encodeString f.2 ++ rest) := by
    rw [← hbs, encodeField, List.append_assoc]
  intro h
  cases h with
  | int h =>
    have hidx := hpackStaticNameIndex_lt f.1
    rw [hbits, happ, encodeName, List.append_assoc] at h
    exact not_longInt_encodeInt (by decide) (by omega) _ h
  | name hlit hint h =>
    rw [hbits, happ, rfcInt_encodeName] at hint
    injection hint with hint
    injection hint with hidx hrest
    rw [if_pos hidx] at hrest
    subst hrest
    exact (rfcString_encodeString hf.1 _).2 h
  | value hlit hname h =>
    rw [hbits, happ, rfcName_encodeName hf.1] at hname
    cases hname
    exact (rfcString_encodeString hf.2 rest).2 h
  | capture hincr => exact hlow 64 (by decide) hincr.1

end Reference

section Decoder
variable {σ : Type} {fn : σ → HpackField → σ × Bool} {m : ℕ} {d : HpackListDec} {t : RfcTable}

lemma SameRes.eq_of_ok {r r' : HpackListRes σ} (h : SameRes r r') (hok : r'.rc = .ok) : r = r' := by
  rcases h with rfl | ⟨hne, hrc, _⟩
  · rfl
  · exact absurd (hrc.trans hok) hne

lemma feed_decodes (hfn : ∀ ctx f, (fn ctx f).2 = true) (ctx : σ) (h : Holds m d t)
    (hst : d.st = .first) {f : Option RfcField} {s : RfcState}
    (hstep : rfcStep m ⟨t, d.blockStart, b :: bs⟩ = some (f, s)) (hlim : ¬ HitsLimit t b bs) :
    Decodes fn m ctx (hpackDecFeed fn d ctx (b :: bs)) f s := by
  rcases feed_step hfn ctx h hst b bs with ⟨f', s', hstep', _, hdec⟩ | ⟨_, hnone | hlimit⟩
  · rw [hstep] at hstep'
    cases hstep'
    exact hdec
  · rw [hstep] at hnone
    cases hnone
  · exact absurd hlimit hlim

/-- The result of a whole block of which the fields are `fs`. -/
def BlockRead (fn : σ → HpackField → σ × Bool) (m : ℕ) (ctx : σ) (t : RfcTable)
    (fs : List (Bytes × Bytes)) (r : HpackListRes σ) : Prop :=
  r.rc = .ok ∧ r.ctx = reports fn ctx (fs.map fun f => ⟨f.1, f.2, false⟩) ∧
    r.dec.st = .first ∧ Holds m r.dec t

lemma BlockRead.congr {ctx : σ} {fs : List (Bytes × Bytes)} {r r' : HpackListRes σ}
    (hsame : SameRes r r') (h : BlockRead fn m ctx t fs r') : BlockRead fn m ctx t fs r :=
  hsame.eq_of_ok h.1 ▸ h

lemma feed_fields (hfn : ∀ ctx f, (fn ctx f).2 = true) : ∀ (fs : List (Bytes × Bytes))
    (d : HpackListDec) (ctx : σ), (∀ f ∈ fs, Sendable f) → Holds m d t → d.st = .first →
    BlockRead fn m ctx t fs (hpackDecFeed fn d ctx (fs.flatMap fun f => encodeField f.1 f.2)) := by
  intro fs
  induction fs with
  | nil => exact fun d ctx _ h hst => ⟨rfl, rfl, hst, h⟩
  | cons f fs ih =>
    intro d ctx hfs h hst
    have hf := hfs f List.mem_cons_self
    obtain ⟨b, bs, hbs, hb⟩ :=
      encodeField_cons f.1 f.2 (fs.flatMap fun f => encodeField f.1 f.2)
    obtain ⟨d', hst', _, hholds, hsame⟩ :=
      feed_decodes hfn ctx h hst (rfcStep_field hf _ hbs hb) (not_hitsLimit_field hf hbs hb)
    have hrest := ih d' (reports fn ctx [⟨f.1, f.2, false⟩])
      (fun g hg => hfs g (List.mem_cons_of_mem f hg)) hholds hst'
    rw [List.flatMap_cons, hbs]
    exact BlockRead.congr hsame hrest

lemma rfcStep_update (rest : Bytes) : rfcStep m ⟨t, true, 0x20 :: rest⟩ =
    some (none, ⟨t.resize 0, true, rest⟩) := by
  simp [rfcStep, rfcInt, guard]

lemma not_hitsLimit_update (rest : Bytes) : ¬ HitsLimit t 0x20 rest := by
  intro h
  cases h with
  | int h =>
    obtain ⟨v, rest', hint, hlong⟩ := h
    obtain ⟨rfl, rfl⟩ : 0 = v ∧ rest = rest' := by simpa [rfcPrefix, rfcInt] using hint
    rw [List.length_cons] at hlong
    omega
  | name hlit | value hlit => exact absurd hlit (by decide)
  | capture hincr => exact absurd hincr.1 (by decide)

def blockOf (update : Bool) (fields : Bytes) : Bytes :=
  (if update then [0x20] else []) ++ fields

lemma feed_block (hfn : ∀ ctx f, (fn ctx f).2 = true) {fs : List (Bytes × Bytes)}
    (hfs : ∀ f ∈ fs, Sendable f) (h : Holds m d t) (ctx : σ) (update : Bool) :
    BlockRead fn m ctx (if update then t.resize 0 else t) fs (hpackDecFeed fn (hpackDecBegin d) ctx
      (blockOf update (fs.flatMap fun f => encodeField f.1 f.2))) := by
  cases update with
  | false => exact feed_fields hfn fs _ ctx hfs h.begin rfl
  | true =>
    obtain ⟨d', hst', _, hholds, hsame⟩ := feed_decodes hfn ctx h.begin rfl
      (rfcStep_update (fs.flatMap fun f => encodeField f.1 f.2)) (not_hitsLimit_update _)
    exact BlockRead.congr hsame (feed_fields hfn fs d' ctx hfs hholds hst')

end Decoder

structure PutCall where
  mem : ℕ → UInt8
  out : ℕ
  cap : ℕ
  field : Bytes × Bytes

def PutCall.run (c : PutCall) : (ℕ → UInt8) × ℕ :=
  hpackPutFieldAt c.mem c.out c.cap c.field.1 c.field.2

def PutCall.stored (c : PutCall) : Bytes :=
  (List.range c.run.2).map fun i => c.run.1 (c.out + i)

lemma memCopy_read (mem : ℕ → UInt8) (out : ℕ) (bs : Bytes) :
    ((List.range bs.length).map fun i => memCopy mem out bs (out + i)) = bs := by
  refine List.ext_getElem (by simp) fun i _ hi => ?_
  have hin : out ≤ out + i ∧ out + i < out + bs.length := by omega
  rw [List.getElem_map, List.getElem_range, memCopy, if_pos hin, Nat.add_sub_cancel_left,
    List.getD_eq_getElem?_getD, List.getElem?_eq_getElem hi, Option.getD_some]

lemma PutCall.puts (c : PutCall) : Puts c.mem c.out c.cap (encodeField c.field.1 c.field.2) c.run :=
  hpackPutFieldAt_puts c.field.1 c.field.2

lemma PutCall.run_eq_zero (c : PutCall) :
    c.run.2 = 0 ↔ c.cap < (encodeField c.field.1 c.field.2).length := by
  have hpos := encodeName_length_pos c.field.1
  exact c.puts.ret_eq_zero (by rw [encodeField, List.length_append]; omega)

lemma PutCall.stored_eq {c : PutCall} (h : c.run.2 ≠ 0) :
    c.stored = encodeField c.field.1 c.field.2 := by
  rw [stored, c.puts.fits (Nat.not_lt.mp (mt c.run_eq_zero.mpr h))]
  exact memCopy_read c.mem c.out _

lemma PutCall.hpackPutField_eq (c : PutCall) : hpackPutField c.cap c.field.1 c.field.2 =
    if c.run.2 = 0 then none else some c.stored := by
  rw [Proofs.hpackPutField_eq, fitting]
  by_cases h : c.run.2 = 0
  · rw [if_pos h, if_neg (Nat.not_le.mpr (c.run_eq_zero.mp h))]
  · rw [if_neg h, if_pos (Nat.not_lt.mp (mt c.run_eq_zero.mpr h)), stored_eq h]

/-- After any accepted blocks, fields that `hpack_put_field` has stored are reported in order and
leave the dynamic table as it is or empty; a call stores its field or returns 0 because it does not
fit, and changes no byte outside its capacity. -/
theorem put_fields_read_back {σ : Type} (fn : σ → HpackField → σ × Bool)
    (hfn : ∀ ctx f, (fn ctx f).2 = true) {tabCap maxSize : ℕ} (hcap : maxSize ≤ tabCap) (ctx : σ)
    (blocks : List Bytes) (R : HpackListRes σ)
    (hR : R = wholeBlocks fn (hpackDecInit tabCap maxSize) ctx blocks) (hok : R.rc = .ok)
    (calls : List PutCall) (hcalls : ∀ c ∈ calls, Sendable c.field) :
    ((∀ c ∈ calls, c.run.2 ≠ 0) → ∀ (update : Bool) (chunks : List Bytes) (r : HpackListRes σ),
      chunks.flatten = blockOf update (calls.flatMap PutCall.stored) →
      r = HpackDec.feedChunks fn (hpackDecBegin R.dec) R.ctx chunks →
      r.rc = .ok ∧ r.ctx = reports fn R.ctx (calls.map fun c => ⟨c.field.1, c.field.2, false⟩) ∧
        r.dec.tab = (if update then [] else R.dec.tab) ∧ hpackDecEnd r.dec = .ok) ∧ ∀ c ∈ calls,
      c.run.2 = (if (encodeField c.field.1 c.field.2).length ≤ c.cap then
        (encodeField c.field.1 c.field.2).length else 0) ∧
      hpackPutField c.cap c.field.1 c.field.2 = (if c.run.2 = 0 then none else some c.stored) ∧
      ∀ j, j < c.out ∨ c.out + c.cap ≤ j → c.run.1 j = c.mem j := by
  constructor
  · rintro hput update chunks r hchunks rfl
    obtain ⟨t, hholds⟩ : ∃ t, Holds maxSize R.dec t := by
      rcases wholeBlocks_follow hfn blocks ctx (holds_init hcap) with ⟨_, _, t, _, _, h⟩ | ⟨h, _⟩
      · exact ⟨t, hR ▸ h⟩
      · exact absurd (hR ▸ hok) h
    have hstored : calls.flatMap PutCall.stored =
        (calls.map PutCall.field).flatMap fun f => encodeField f.1 f.2 := by
      rw [List.flatMap_map, List.flatMap_def, List.flatMap_def,
        List.map_congr_left fun c hc => PutCall.stored_eq (hput c hc)]
    have hfs : ∀ f ∈ calls.map PutCall.field, Sendable f := by
      intro f hf
      obtain ⟨c, hc, rfl⟩ := List.mem_map.mp hf
      exact hcalls c hc
    obtain ⟨hrc, hctx, hst, htab⟩ := feed_block hfn hfs hholds R.ctx update
    have hsame : SameRes (HpackDec.feedChunks fn _ R.ctx chunks) _ :=
      feedChunks_eq chunks R.ctx (leftOk_begin R.dec)
    rw [hchunks, hstored] at hsame
    rw [hsame.eq_of_ok hrc]
    refine ⟨hrc, ?_, ?_, if_pos hst⟩
    · rw [hctx, List.map_map]
      rfl
    · rw [htab.tab]
      cases update with
      | false => exact hholds.tab.symm
      | true => exact rfcKeep_zero t.entries
  · intro c _
    refine ⟨?_, c.hpackPutField_eq, c.puts.frame⟩
    by_cases h : (encodeField c.field.1 c.field.2).length ≤ c.cap
    · rw [if_pos h, c.puts.fits h]
    · rw [if_neg h, c.puts.short (Nat.not_le.mp h)]

def twoCalls : List PutCall :=
  [⟨fun _ => 0, 0, 4, asciiBytes "content-length", asciiBytes "2"⟩,
   ⟨fun _ => 0, 4, 5, asciiBytes "x", asciiBytes "y"⟩]

theorem two_fields_read_back : (HpackDec.feedChunks collect (hpackDecBegin (hpackDecInit 0 0)) []
      [[0x20, 0x0f], [0x0d, 0x01, 0x32, 0x00, 0x01], [0x78, 0x01, 0x79]]).ctx =
      reports collect [] (twoCalls.map fun c => ⟨c.field.1, c.field.2, false⟩) :=
  ((put_fields_read_back collect (fun _ _ => rfl) (Nat.le_refl 0) [] [] _ rfl rfl twoCalls
    (by unfold Sendable; decide)).1 (by decide) true _ _ (by decide) rfl).2.1

end TinyLink.Proofs
