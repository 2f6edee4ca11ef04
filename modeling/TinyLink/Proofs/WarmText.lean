import Mathlib.Data.List.TakeWhile
import Mathlib.Tactic.IntervalCases
import TinyLink.Warm

/-!
# Addresses as text

The strict parsers of `tl_addr.h` and `tl_warm.h` read back what `snprintf` writes for an address, a
prefix and a port.
-/

namespace TinyLink.Proofs

lemma digitByte {d : ℕ} (h : d < 10) : UInt8.ofNat (Nat.digitChar d).toNat = UInt8.ofNat
    (48 + d) := by
  interval_cases d <;> rfl

variable (n : ℕ) (ip : Ipv4)

lemma decString_eq :
    decString n = (if n < 10 then [] else decString (n / 10)) ++ [UInt8.ofNat (48 + n % 10)] := by
  unfold decString
  rw [Nat.toDigits_eq_if (by decide)]
  split
  · next h => simp [digitByte h, Nat.mod_eq_of_lt h]
  · simp [digitByte (Nat.mod_lt n (by decide : 0 < 10))]

lemma isDigit_lastDigit : isDigit (UInt8.ofNat (48 + n % 10)) = true := by
  have h : ∀ d < 10, isDigit (UInt8.ofNat (48 + d)) = true := by decide
  exact h _ (Nat.mod_lt n (by decide))

lemma toNat_lastDigit : (UInt8.ofNat (48 + n % 10)).toNat - 48 = n % 10 := by
  have h : ∀ d < 10, (UInt8.ofNat (48 + d)).toNat - 48 = d := by decide
  exact h _ (Nat.mod_lt n (by decide))

lemma decString_digits : ∀ c ∈ decString n, isDigit c = true := by
  induction n using Nat.strongRecOn with
  | _ n ih =>
    intro c hc
    rw [decString_eq, List.mem_append, List.mem_singleton] at hc
    rcases hc with hc | rfl
    · split at hc
      · cases hc
      · next hn => exact ih (n / 10) (by omega) c hc
    · exact isDigit_lastDigit n

lemma decValue_concat (s : Bytes) (c : UInt8) : decValue (s ++ [c]) = decValue s * 10 +
    (c.toNat - 48) := by
  unfold decValue
  rw [List.foldl_append]
  rfl

@[simp] lemma decValue_decString : decValue (decString n) = n := by
  induction n using Nat.strongRecOn with
  | _ n ih =>
    rw [decString_eq, decValue_concat, toNat_lastDigit]
    split
    · next hn =>
      rw [Nat.mod_eq_of_lt hn]
      exact Nat.zero_add n
    · next hn =>
      rw [ih (n / 10) (by omega)]
      omega

lemma decString_ne_nil : decString n ≠ [] := by
  rw [decString_eq]
  exact List.append_ne_nil_of_right_ne_nil _ (List.cons_ne_nil _ _)

lemma decString_head {n : ℕ} (h : 0 < n) : (decString n).head? ≠ some 48 := by
  induction n using Nat.strongRecOn with
  | _ n ih =>
    rw [decString_eq]
    split
    · next hn => interval_cases n <;> decide
    · next hn =>
      rw [List.head?_append_of_ne_nil _ (decString_ne_nil _)]
      exact ih (n / 10) (by omega) (by omega)

lemma decString_length {n k : ℕ} (hk : 1 ≤ k) (h : n < 10 ^ k) : (decString n).length ≤ k := by
  induction k, hk using Nat.le_induction generalizing n with
  | base =>
    rw [decString_eq, if_pos (by simpa using h)]
    exact Nat.le_refl 1
  | succ k _ ih =>
    rw [decString_eq, List.length_append, List.length_singleton]
    split
    · exact Nat.succ_le_succ (Nat.zero_le k)
    · have hdiv : n / 10 < 10 ^ k := by
        rw [Nat.pow_succ] at h
        omega
      exact Nat.succ_le_succ (ih hdiv)

lemma decString_canonical :
    ((decString n).length > 1 && (decString n).head? = some 48) = false := by
  rcases Nat.eq_zero_or_pos n with rfl | hpos
  · decide
  · simp [decString_head hpos]

lemma tlWarmDec_decString {n max : ℕ} (hn : n ≤ max) (hmax : max < 10 ^ 5) :
    tlWarmDec (decString n) max = some n := by
  have hlen := decString_length (by decide) (Nat.lt_of_le_of_lt hn hmax)
  have hall : (decString n).all isDigit = true := List.all_eq_true.mpr (decString_digits n)
  unfold tlWarmDec
  rw [if_neg, if_neg]
  · rw [decValue_decString]
  · simp [hall, hn]
  · simp only [decString_ne_nil, decide_false, Bool.false_or, decString_canonical, Bool.or_false,
      decide_eq_true_eq]
    omega

lemma takeWhile_digits {ds rest : Bytes} (hd : ∀ c ∈ ds, isDigit c = true)
    (hr : rest.head?.any isDigit = false) : (ds ++ rest).takeWhile isDigit = ds := by
  rw [List.takeWhile_append_of_pos hd]
  cases rest with
  | nil => simp
  | cons c =>
    have hc : isDigit c = false := hr
    rw [List.takeWhile_cons_of_neg (by simp [hc]), List.append_nil]

lemma ipv4Field_decString {n : ℕ} (hn : n ≤ 255) {rest : Bytes}
    (hr : rest.head?.any isDigit = false) : ipv4Field (decString n ++ rest) = some (n, rest) := by
  have hlen : (decString n).length ≤ 3 := decString_length (by decide) (Nat.lt_of_le_of_lt hn (by decide))
  have hrest : (rest.take (3 - (decString n).length)).head?.any isDigit = false := by
    rw [List.head?_take]
    split
    · rfl
    · exact hr
  have hds : ((decString n ++ rest).take 3).takeWhile isDigit = decString n := by
    rw [List.take_append, List.take_of_length_le hlen]
    exact takeWhile_digits (decString_digits n) hrest
  unfold ipv4Field
  dsimp only
  rw [hds, List.drop_left, if_neg, if_neg]
  · rw [decValue_decString]
  · rw [hr]
    decide
  · simp only [decString_ne_nil, decide_false, Bool.false_or, decValue_decString, decString_canonical,
      Bool.or_false, decide_eq_true_eq]
    omega

lemma tlIpv4Parse_ipv4String : tlIpv4Parse (ipv4String ip) = some ip := by
  have hbyte : ∀ b : UInt8, b.toNat ≤ 255 := fun b => Nat.le_of_lt_succ b.toNat_lt
  have hdot : ∀ s : Bytes, ((46 :: s).head?.any isDigit) = false := fun s => rfl
  have hlast : (decString ip[3].toNat) = decString ip[3].toNat ++ [] := (List.append_nil _).symm
  have hvec : ip = #v[ip[0], ip[1], ip[2], ip[3]] := by
    apply Vector.ext
    intro i hi
    interval_cases i <;> rfl
  unfold tlIpv4Parse ipv4String
  simp only [List.append_assoc, List.cons_append]
  rw [ipv4Field_decString (hbyte _) (hdot _)]
  simp only [Option.bind_eq_bind, Option.bind_some, ipv4Dot]
  rw [ipv4Field_decString (hbyte _) (hdot _)]
  simp only [Option.bind_some]
  rw [ipv4Field_decString (hbyte _) (hdot _)]
  simp only [Option.bind_some]
  rw [hlast, ipv4Field_decString (hbyte _) rfl]
  simp only [Option.bind_some, if_true, UInt8.ofNat_toNat]
  rw [← hvec]

lemma mem_ipv4String {ip : Ipv4} {c : UInt8} (h : c ∈ ipv4String ip) :
    isDigit c = true ∨ c = 46 := by
  unfold ipv4String at h
  simp only [List.mem_append, List.mem_cons] at h
  rcases h with ((h | h | h) | h | h) | h | h
  · exact .inl (decString_digits _ _ h)
  · exact .inr h
  · exact .inl (decString_digits _ _ h)
  · exact .inr h
  · exact .inl (decString_digits _ _ h)
  · exact .inr h
  · exact .inl (decString_digits _ _ h)

lemma length_ipv4String : (ipv4String ip).length ≤ 15 := by
  have hbyte : ∀ b : UInt8, (decString b.toNat).length ≤ 3 := fun b =>
    decString_length (by decide) (Nat.lt_trans b.toNat_lt (by decide))
  have h0 := hbyte ip[0]
  have h1 := hbyte ip[1]
  have h2 := hbyte ip[2]
  have h3 := hbyte ip[3]
  simp only [ipv4String, List.length_append, List.length_cons]
  omega

lemma splitAtByte_append {c : UInt8} {s t : Bytes} (h : c ∉ s) :
    splitAtByte c (s ++ c :: t) = some (s, t) := by
  have hs : ∀ x ∈ s, (decide (x ≠ c)) = true := by
    intro x hx
    exact decide_eq_true (fun hxc => h (hxc ▸ hx))
  unfold splitAtByte
  rw [List.dropWhile_append_of_pos hs, List.takeWhile_append_of_pos hs,
    List.dropWhile_cons_of_neg (by simp), List.takeWhile_cons_of_neg (by simp)]
  simp

def hostNumber (ip : Ipv4) (sep : UInt8) (n : ℕ) : Bytes := ipv4String ip ++ sep :: decString n

lemma cString_hostNumber {sep : UInt8} (hsep : sep ≠ 0) (n : ℕ) :
    cString (hostNumber ip sep n) = hostNumber ip sep n := by
  have hdigit : ∀ c : UInt8, isDigit c = true → c ≠ 0 := by
    rintro c hc rfl
    exact absurd hc (by decide)
  have hall : ∀ c ∈ hostNumber ip sep n, decide (c ≠ 0) = true := by
    intro c hc
    apply decide_eq_true
    rcases List.mem_append.mp hc with hc | hc
    · rcases mem_ipv4String hc with h | rfl
      · exact hdigit c h
      · decide
    · rcases List.mem_cons.mp hc with rfl | hc
      · exact hsep
      · exact hdigit c (decString_digits n c hc)
  exact List.takeWhile_eq_self_iff.mpr hall

lemma splitAtByte_hostNumber {sep : UInt8} (hd : isDigit sep = false) (hdot : sep ≠ 46)
    (n : ℕ) : splitAtByte sep (hostNumber ip sep n) = some (ipv4String ip, decString n) := by
  apply splitAtByte_append
  intro hmem
  rcases mem_ipv4String hmem with h | h
  · rw [hd] at h
    cases h
  · exact hdot h

lemma length_hostNumber (sep : UInt8) {n : ℕ} (hn : n < 10 ^ 5) :
    (hostNumber ip sep n).length ≤ 21 := by
  have hip := length_ipv4String ip
  have hdec := decString_length (by decide) hn
  simp only [hostNumber, List.length_append, List.length_cons]
  omega

structure CidrOk (c : WarmCidr) : Prop where
  usable : tlIpv4Usable c.ip = true
  bits : c.bits ≤ 32

structure EpOk (e : WarmEp) : Prop where
  usable : tlIpv4Usable e.ip = true
  port : e.port ≠ 0

lemma tlWarmCidrParse_str {c : WarmCidr} (h : CidrOk c) : tlWarmCidrParse
    (tlWarmCidrStr c) = some c := by
  have hbits : c.bits.toNat ≤ 32 := UInt8.le_iff_toNat_le.mp h.bits
  have hlen := length_hostNumber c.ip 47 (Nat.lt_of_le_of_lt hbits (by decide))
  have hshort : ¬ (hostNumber c.ip 47 c.bits.toNat).length ≥ tlCidrStrlen := by
    change ¬ 24 ≤ _
    omega
  change tlWarmCidrParse (hostNumber c.ip 47 c.bits.toNat) = some c
  unfold tlWarmCidrParse
  simp only [cString_hostNumber c.ip (by decide : (47 : UInt8) ≠ 0), hshort, if_false,
    splitAtByte_hostNumber c.ip (by decide : isDigit 47 = false) (by decide),
    tlIpv4Parse_ipv4String, h.usable, tlWarmDec_decString hbits (by decide), Option.bind_eq_bind,
    Option.bind_some, Bool.not_true, Bool.false_eq_true, UInt8.ofNat_toNat]

lemma tlWarmEpParse_str {e : WarmEp} (h : EpOk e) : tlWarmEpParse (tlWarmEpStr e) = some e := by
  have hport : e.port.toNat ≤ 65535 := Nat.le_of_lt_succ e.port.toNat_lt
  have hne : e.port.toNat ≠ 0 := fun h0 => h.port (UInt16.toNat_inj.mp h0)
  have hlen := length_hostNumber e.ip 58 (Nat.lt_of_le_of_lt hport (by decide))
  have hshort : ¬ (hostNumber e.ip 58 e.port.toNat).length ≥ tlEndpointStrlen := by
    change ¬ 32 ≤ _
    omega
  change tlWarmEpParse (hostNumber e.ip 58 e.port.toNat) = some e
  unfold tlWarmEpParse
  simp only [cString_hostNumber e.ip (by decide : (58 : UInt8) ≠ 0), hshort, if_false,
    splitAtByte_hostNumber e.ip (by decide : isDigit 58 = false) (by decide),
    tlIpv4Parse_ipv4String, h.usable, tlWarmDec_decString hport (by decide), hne,
    Option.bind_eq_bind, Option.bind_some, Bool.not_true, Bool.false_eq_true, UInt16.ofNat_toNat]

variable {s : Bytes}

lemma tlWarmDec_le {max n : ℕ} (h : tlWarmDec s max = some n) : n ≤ max := by
  unfold tlWarmDec at h
  split_ifs at h with _ hle
  injection h with h
  subst h
  simp only [Bool.or_eq_true, decide_eq_true_eq, not_or, not_lt] at hle
  exact hle.2

lemma tlWarmCidrParse_ok {c : WarmCidr} (h : tlWarmCidrParse s = some c) :
    CidrOk c := by
  unfold tlWarmCidrParse at h
  dsimp only at h
  split_ifs at h
  simp only [Option.bind_eq_bind, Option.bind_eq_some_iff] at h
  obtain ⟨⟨host, bits⟩, -, ip, -, h⟩ := h
  split_ifs at h with husable
  obtain ⟨p, hp, h⟩ := Option.bind_eq_some_iff.mp h
  injection h with h
  subst h
  have hle := tlWarmDec_le hp
  refine ⟨by simpa using husable, ?_⟩
  rw [UInt8.le_iff_toNat_le, UInt8.toNat_ofNat', Nat.mod_eq_of_lt (by omega)]
  exact hle

lemma tlWarmEpParse_ok {e : WarmEp} (h : tlWarmEpParse s = some e) : EpOk e := by
  unfold tlWarmEpParse at h
  dsimp only at h
  split_ifs at h
  simp only [Option.bind_eq_bind, Option.bind_eq_some_iff] at h
  obtain ⟨⟨host, port⟩, -, ip, -, h⟩ := h
  split_ifs at h with husable
  obtain ⟨p, hp, h⟩ := Option.bind_eq_some_iff.mp h
  split_ifs at h with hp0
  injection h with h
  subst h
  have hle := tlWarmDec_le hp
  refine ⟨by simpa using husable, fun h0 => hp0 ?_⟩
  have hz := congrArg UInt16.toNat h0
  rw [UInt16.toNat_ofNat', Nat.mod_eq_of_lt (by omega)] at hz
  exact hz

end TinyLink.Proofs
