import TinyLink.JsonSplit
import Mathlib.Data.List.TakeWhile

/-!
# The byte scanner and the text scanner

Inside a container `tl_jsplit_value` jumps over a string where the scanner passes it byte by byte.
-/

namespace TinyLink.Proofs

variable {ε : Type}

lemma map_add_map_add (r : Except ε ℕ) (m n : ℕ) :
    (r.map (· + m)).map (· + n) = r.map (· + (m + n)) := by
  cases r with
  | error => rfl
  | ok k => exact congrArg Except.ok (Nat.add_assoc k m n)

lemma map_add_zero (r : Except ε ℕ) : r.map (· + 0) = r := by
  cases r <;> rfl

lemma scanBytes_str (d : ℕ) (js : Bytes) : scanBytes ⟨d, .str⟩ js =
    (stringEnd js).elim (.error .unterminated) fun n =>
      if d = 0 then .ok n else (scanBytes ⟨d, .text⟩ (js.drop n)).map (· + n) := by
  have hlater (k : ℕ) (pre js : Bytes) (hk : pre.length = k) :
      (((stringEnd js).elim (.error .unterminated) fun n => if d = 0 then .ok n
        else (scanBytes ⟨d, .text⟩ (js.drop n)).map (· + n)) : Except ValueFail ℕ).map (· + k) =
      ((stringEnd js).map (· + k)).elim (.error .unterminated) fun n =>
        if d = 0 then .ok n else (scanBytes ⟨d, .text⟩ ((pre ++ js).drop n)).map (· + n) := by
    cases stringEnd js with
    | none => rfl
    | some n =>
      have hdrop : (pre ++ js).drop (n + k) = js.drop n := by
        rw [← hk, Nat.add_comm, List.drop_length_add_append]
      simp only [Option.map_some, Option.elim_some, hdrop]
      split
      · rfl
      · exact map_add_map_add ..
  fun_induction stringEnd js with
  | case1 => rfl
  | case2 => rfl
  | case3 c js ih =>
    simp only [scanBytes, tlJsplitScanByte, if_true, ih]
    rw [map_add_map_add]
    exact hlater 2 [92, c] js rfl
  | case4 js =>
    by_cases hd : d = 0 <;> simp [scanBytes, tlJsplitScanByte, hd]
  | case5 c js hlast hesc hquote ih =>
    have hback : c ≠ 92 := by
      rintro rfl
      cases js with
      | nil => exact hlast rfl rfl
      | cons c js => exact hesc c js rfl rfl
    simp only [scanBytes, tlJsplitScanByte, if_neg hback, if_neg hquote, ih]
    exact hlater 1 [c] js rfl

lemma stringEnd_le {js : Bytes} {n : ℕ} (h : stringEnd js = some n) : n ≤ js.length := by
  fun_induction stringEnd js generalizing n with
  | case1 | case2 => cases h
  | case3 c js ih | case5 c js _ _ _ ih =>
    obtain ⟨m, hm, rfl⟩ := Option.map_eq_some_iff.mp h
    have := ih hm
    simp only [List.length_cons]
    omega
  | case4 =>
    cases h
    simp

lemma scanBytes_container {skip depth : ℕ} (js : Bytes) (hd : 1 ≤ depth)
    (hmax : depth ≤ tlJsplitMaxDepth) (hskip : skip ≤ js.length) :
    (scanBytes ⟨depth, .text⟩ (js.drop skip)).map (· + skip) =
      containerEnd skip depth js := by
  fun_induction containerEnd skip depth js with
  | case1 =>
    obtain rfl : _ = 0 := Nat.le_zero.mp hskip
    rfl
  | case2 skip depth c js ih =>
    rw [← ih hd hmax (Nat.le_of_succ_le_succ hskip), map_add_map_add]
    rfl
  | case3 depth js hstr =>
    have hnone : stringEnd js = none := Option.map_eq_none_iff.mp hstr
    simp [scanBytes, tlJsplitScanByte, scanBytes_str, hnone, Except.map]
  | case4 depth js n hstr ih =>
    obtain ⟨m, hm, rfl⟩ := Option.map_eq_some_iff.mp hstr
    have hstep := ih hd hmax (stringEnd_le hm)
    rw [← hstep, List.drop_zero, map_add_zero, scanBytes]
    simp only [tlJsplitScanByte, if_true, scanBytes_str, hm, Option.elim_some, Nat.add_sub_cancel]
    rw [if_neg (by omega)]
  | case5 depth c js hq ho hdeep =>
    simp [scanBytes, tlJsplitScanByte, hq, ho, hdeep, Except.map]
  | case6 depth c js hq ho hdeep ih =>
    have hstep := ih (by omega) (Nat.not_lt.mp hdeep) (Nat.zero_le _)
    rw [List.drop_zero, map_add_zero] at hstep
    simp only [List.drop_zero, map_add_zero, scanBytes, tlJsplitScanByte, if_neg hq, if_pos ho,
      if_neg hdeep, hstep]
  | case7 c js hq ho hc => simp [scanBytes, tlJsplitScanByte, hq, ho, hc, Except.map]
  | case8 => cases hd
  | case9 depth c js hq ho hc hone hzero ih =>
    have hstep := ih (by omega) (by omega) (Nat.zero_le _)
    rw [List.drop_zero, map_add_zero] at hstep
    simp only [List.drop_zero, map_add_zero, scanBytes, tlJsplitScanByte, if_neg hq, if_neg ho,
      if_pos hc, if_neg hone, hstep]
  | case10 depth c js hq ho hc ih =>
    have hstep := ih hd hmax (Nat.zero_le _)
    rw [List.drop_zero, map_add_zero] at hstep
    simp only [List.drop_zero, map_add_zero, scanBytes, tlJsplitScanByte, if_neg hq, if_neg ho,
      if_neg hc, hstep]

lemma scanBytes_scalar (d : ℕ) (js : Bytes) : scanBytes ⟨d, .scalar⟩ js =
    if js.all fun c => !isScalarEnd c then .error .unterminated
    else .ok (js.takeWhile fun c => !isScalarEnd c).length := by
  induction js with
  | nil => rfl
  | cons c js ih =>
    cases hc : isScalarEnd c with
    | true => simp [scanBytes, tlJsplitScanByte, hc]
    | false =>
      simp only [scanBytes, tlJsplitScanByte, hc, Bool.false_eq_true, if_false, ih, List.all_cons,
        Bool.not_false, Bool.true_and, List.takeWhile_cons, if_true, List.length_cons]
      split <;> rfl

/-- A scalar with no delimiter behind it. -/
def runsToEnd : Bytes → Bool
  | [] => false
  | c :: js => c ≠ 34 && !isOpening c && (c :: js).all fun c => !isScalarEnd c

lemma tlJsplitValue_scalar {c : UInt8} {js : Bytes} (hq : c ≠ 34) (ho : isOpening c = false) :
    tlJsplitValue (c :: js) = if isScalarEnd c then .error .noValue
      else .ok ((c :: js).takeWhile fun c => !isScalarEnd c).length := by
  rw [tlJsplitValue, if_neg hq, if_neg (by simp [ho])]
  cases hend : isScalarEnd c <;> simp [hend]

lemma tlJsplitValue_of_runsToEnd {v : Bytes} (h : runsToEnd v) :
    tlJsplitValue v = .ok v.length := by
  cases v with
  | nil => cases h
  | cons c js =>
    simp only [runsToEnd, Bool.and_eq_true, decide_eq_true_eq, Bool.not_eq_true'] at h
    obtain ⟨⟨hq, ho⟩, hall⟩ := h
    have hend : isScalarEnd c = false := by simpa using List.all_eq_true.mp hall c List.mem_cons_self
    rw [tlJsplitValue_scalar hq ho, hend, if_neg Bool.false_ne_true,
      List.takeWhile_eq_self_iff.mpr (List.all_eq_true.mp hall)]

lemma scanValue_eq {v : Bytes} (hws : ∀ c ∈ v.head?, tlJsplitIsWs c = false) : scanValue v =
    if runsToEnd v then .error .unterminated else tlJsplitValue v := by
  cases v with
  | nil => rfl
  | cons c js =>
    by_cases hq : c = 34
    · subst hq
      simp only [scanValue, tlJsplitScanBegin, if_true, scanBytes_str, runsToEnd, tlJsplitValue,
        tlJsplitString, ne_eq, not_true_eq_false, decide_false, Bool.false_and, Bool.false_eq_true,
        if_false]
      cases stringEnd js <;> rfl
    have hends : (c = 44 || isClosing c) = isScalarEnd c := by simp [isScalarEnd, hws c rfl]
    simp only [scanValue, tlJsplitScanBegin, hq, if_false, hends, runsToEnd, ne_eq,
      not_false_eq_true, decide_true, Bool.true_and]
    cases ho : isOpening c with
    | true =>
      have hstep := scanBytes_container js le_rfl (by decide) (Nat.zero_le _)
      rw [List.drop_zero, map_add_zero] at hstep
      simp only [if_true, hstep, tlJsplitValue, containerEnd, hq, ho, if_false, Bool.not_true,
        Bool.false_and, Bool.false_eq_true]
      rw [if_neg (by decide)]
    | false =>
      rw [tlJsplitValue_scalar hq ho]
      cases hend : isScalarEnd c with
      | true => simp [hend]
      | false =>
        simp only [Bool.false_eq_true, if_false, scanBytes_scalar, List.all_cons, hend, Bool.not_false,
          Bool.true_and, List.takeWhile_cons, if_true, List.length_cons]
        split <;> rfl

/-- The byte scanner ends a value where `tl_jsplit_value` does, fails where that fails for the depth or for
an empty scalar, and is left open where the value is not terminated or a scalar that runs to the end. -/
theorem byte_scanner_agrees (js : Bytes) (pos : ℕ) :
    let v := tlJsplitWs (js.drop pos)
    (∀ n, scanValue v = .ok n ↔ tlJsplitValue v = .ok n ∧ runsToEnd v = false) ∧
    (scanValue v = .error .noValue ↔ tlJsplitValue v = .error .noValue) ∧
    (scanValue v = .error .unterminated ↔ tlJsplitValue v = .error .unterminated ∨
      runsToEnd v = true ∧ tlJsplitValue v = .ok v.length) := by
  intro v
  have hws : ∀ c ∈ v.head?, tlJsplitIsWs c = false := by
    intro c hc
    have hhead := List.head?_dropWhile_not tlJsplitIsWs (js.drop pos)
    rw [show (js.drop pos).dropWhile tlJsplitIsWs = v from rfl, hc] at hhead
    exact hhead
  rw [scanValue_eq hws]
  cases hrun : runsToEnd v with
  | true => simp [tlJsplitValue_of_runsToEnd hrun]
  | false =>
    cases tlJsplitValue v with
    | ok n => simp
    | error e => simp

end TinyLink.Proofs
