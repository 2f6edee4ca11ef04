import Mathlib.Data.List.Lex
import Mathlib.Tactic.NormNum

/-!
# Integers as byte strings

Little-endian and big-endian encodings of natural numbers with a fixed number of
bytes, the value of a little-endian string, and the comparison of big-endian strings
in byte order (`memcmp` order, the lexicographic order of lists).
-/

namespace ByteOrder

def leBytes : ℕ → ℕ → List UInt8
  | 0, _ => []
  | k + 1, n => UInt8.ofNat (n % 256) :: leBytes k (n / 256)

def leNat : List UInt8 → ℕ
  | [] => 0
  | b :: bs => b.toNat + 256 * leNat bs

def beBytes (k n : ℕ) : List UInt8 :=
  (List.range k).map (fun i => UInt8.ofNat ((n >>> (8 * (k - 1 - i))) % 256))

@[simp] lemma length_leBytes (k n : ℕ) : (leBytes k n).length = k := by
  induction k generalizing n with
  | zero => rfl
  | succ k ih => simp [leBytes, ih]

theorem leNat_leBytes (k n : ℕ) : leNat (leBytes k n) = n % 256 ^ k := by
  induction k generalizing n with
  | zero => simp [leBytes, leNat, Nat.mod_one]
  | succ k ih =>
    have hb : (UInt8.ofNat (n % 256)).toNat = n % 256 := by
      rw [UInt8.toNat_ofNat']
      exact Nat.mod_eq_of_lt (Nat.mod_lt _ (by norm_num))
    rw [leBytes, leNat, hb, ih, pow_succ, Nat.mul_comm (256 ^ k) 256, Nat.mod_mul]

lemma leBytes_leNat (l : List UInt8) : leBytes l.length (leNat l) = l := by
  induction l with
  | nil => rfl
  | cons b l ih =>
    have hb : b.toNat < 256 := b.toNat_lt
    have hmod : (b.toNat + 256 * leNat l) % 256 = b.toNat := by omega
    have hdiv : (b.toNat + 256 * leNat l) / 256 = leNat l := by omega
    rw [List.length_cons, leNat, leBytes, hmod, hdiv, ih, UInt8.ofNat_toNat]

lemma leBytes_inj {k m n : ℕ} (hm : m < 256 ^ k) (hn : n < 256 ^ k)
    (h : leBytes k m = leBytes k n) : m = n := by
  have hv := congrArg leNat h
  rwa [leNat_leBytes, leNat_leBytes, Nat.mod_eq_of_lt hm, Nat.mod_eq_of_lt hn] at hv

@[simp] lemma length_beBytes (k n : ℕ) : (beBytes k n).length = k := by simp [beBytes]

lemma beBytes_succ (k n : ℕ) :
    beBytes (k + 1) n = UInt8.ofNat ((n / 256 ^ k) % 256) :: beBytes k n := by
  unfold beBytes
  rw [List.range_succ_eq_map, List.map_cons, List.map_map]
  congr 1
  · rw [Nat.shiftRight_eq_div_pow, show 8 * (k + 1 - 1 - 0) = 8 * k by omega, pow_mul]
    rfl
  · apply List.map_congr_left
    intro i _
    simp only [Function.comp]
    congr 4
    omega

/-- The low digits do not see the high ones. -/
lemma beBytes_mod_of_le {j k : ℕ} (n : ℕ) (hj : j ≤ k) : beBytes j (n % 256 ^ k) = beBytes j n := by
  induction j with
  | zero => rfl
  | succ j ih =>
    have hk : 256 ^ k = 256 ^ j * (256 * 256 ^ (k - (j + 1))) := by
      rw [← Nat.mul_assoc, ← pow_succ, ← pow_add]
      congr 1
      omega
    have hdigit : n % 256 ^ k / 256 ^ j % 256 = n / 256 ^ j % 256 := by
      rw [hk, Nat.mod_mul_right_div_self, Nat.mod_mul_right_mod]
    rw [beBytes_succ, beBytes_succ, ih (by omega), hdigit]

/-- Numeric order is byte order: a smaller value comes first whatever follows the
two encodings. -/
theorem beBytes_append_lt {k m n : ℕ} (hn : n < 256 ^ k) (h : m < n) (x y : List UInt8) :
    beBytes k m ++ x < beBytes k n ++ y := by
  induction k generalizing m n with
  | zero => omega
  | succ k ih =>
    have hpos : 0 < 256 ^ k := Nat.pow_pos (by norm_num)
    have hm : m < 256 ^ (k + 1) := h.trans hn
    rw [pow_succ] at hm hn
    have hdm : m / 256 ^ k < 256 := Nat.div_lt_of_lt_mul hm
    have hdn : n / 256 ^ k < 256 := Nat.div_lt_of_lt_mul hn
    rw [beBytes_succ, beBytes_succ, Nat.mod_eq_of_lt hdm, Nat.mod_eq_of_lt hdn, List.cons_append,
      List.cons_append, List.cons_lt_cons_iff]
    rcases Nat.lt_or_eq_of_le (Nat.div_le_div_right (c := 256 ^ k) h.le) with hlt | heq
    · left
      rw [UInt8.lt_iff_toNat_lt, UInt8.toNat_ofNat', UInt8.toNat_ofNat', Nat.mod_eq_of_lt hdm,
        Nat.mod_eq_of_lt hdn]
      exact hlt
    · right
      refine ⟨by rw [heq], ?_⟩
      rw [← beBytes_mod_of_le m le_rfl, ← beBytes_mod_of_le n le_rfl]
      apply ih (Nat.mod_lt _ hpos)
      have h1 := Nat.div_add_mod m (256 ^ k)
      have h2 := Nat.div_add_mod n (256 ^ k)
      rw [heq] at h1
      omega

end ByteOrder
