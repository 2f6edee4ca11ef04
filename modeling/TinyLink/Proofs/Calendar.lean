import TinyLink.Calendar
import Mathlib.Tactic.IntervalCases

/-!
# Calendar arithmetic

`tl_days_from_civil` counts days, so both timestamp parsers return Unix seconds.
-/

namespace TinyLink.Proofs

def leapDay (y : ℕ) : ℕ := if isLeap y then 1 else 0

/-- The days of the years before `z`, if years begin in March. -/
def marchDays (z : ℤ) : ℤ := 365 * z + z / 4 - z / 100 + z / 400

lemma marchDays_eq (y : ℕ) : marchDays y = marchDays (y - 1) + 365 + leapDay y := by
  unfold marchDays leapDay
  split_ifs with hl <;>
    simp only [isLeap, Bool.and_eq_true, Bool.or_eq_true, decide_eq_true_eq] at hl <;> omega

lemma yearDays_eq (y : ℕ) : yearDays y = marchDays (y - 1) - 719162 := by
  induction y with
  | zero => rfl
  | succ y ih =>
    have hyear := marchDays_eq y
    rw [yearDays, ih, Nat.cast_succ, add_sub_cancel_right, hyear, leapDay]
    split_ifs <;> omega

lemma months_sum (y : ℕ) {m : ℕ} (hm : 1 ≤ m ∧ m ≤ 12) :
    ((List.range (m - 1)).map fun k => monthLength y (k + 1)).sum = if m ≤ 2 then 31 * (m - 1)
      else (153 * (m - 3) + 2) / 5 + 59 + leapDay y := by
  obtain ⟨hlow, hhigh⟩ := hm
  interval_cases m <;> cases hl : isLeap y <;>
    simp [List.range, List.range.loop, monthLength, leapDay, hl]

lemma era_eq (z : ℤ) : (if z ≥ 0 then z else z - 399).tdiv 400 = z / 400 := by
  split_ifs with hz
  · exact Int.tdiv_eq_ediv_of_nonneg hz
  · rw [← neg_sub, Int.neg_tdiv, Int.tdiv_eq_ediv_of_nonneg (by omega)]
    omega

lemma era_days (z : ℤ) (n : ℕ) : z / 400 * 146097 + (((z - z / 400 * 400).toNat * 365 +
    (z - z / 400 * 400).toNat / 4 - (z - z / 400 * 400).toNat / 100 + n : ℕ) : ℤ) =
      marchDays z + n := by
  unfold marchDays
  omega

lemma tlDaysFromCivil_eq (c : CivilDate) : tlDaysFromCivil c.year c.month c.day = c.unixDay := by
  obtain ⟨y, m, d, hm, hd, -⟩ := c
  have hyear := marchDays_eq y
  simp only [CivilDate.unixDay, yearDays_eq, months_sum y hm, tlDaysFromCivil, era_eq, era_days]
  split_ifs <;> omega

lemma unixDay_next (c : CivilDate) : c.next.unixDay = c.unixDay + 1 := by
  obtain ⟨y, m, d, hm, hd, hd'⟩ := c
  have hsum := months_sum y hm
  unfold CivilDate.next
  split_ifs with hday hlast
  · simp only [CivilDate.unixDay]
    omega
  · have hnext : ((List.range m).map fun k => monthLength y (k + 1)).sum =
        ((List.range (m - 1)).map fun k => monthLength y (k + 1)).sum + monthLength y m := by
      obtain ⟨n, rfl⟩ := Nat.exists_eq_add_of_le' hm.1
      simp [List.range_succ]
    simp only [CivilDate.unixDay, Nat.add_sub_cancel, hnext] at hday ⊢
    omega
  · have h12 : m = 12 := by
      have := hm.2
      simp only [not_lt] at hlast
      omega
    subst h12
    simp only [CivilDate.unixDay, yearDays, hsum, leapDay] at hday ⊢
    simp [monthLength] at hday hd' ⊢
    split_ifs <;> omega

section Texts
variable {n : ℕ} (t : DigitText n)

@[simp] lemma tlDateDigits_append (rest : Bytes) :
    tlDateDigits n (t.text ++ rest) = some (t.val, rest) := by
  obtain ⟨s, rfl, hs⟩ := t
  simpa [tlDateDigits] using hs

@[simp] lemma tlDateDigits_text : tlDateDigits n t.text = some (t.val, []) := by
  simpa using tlDateDigits_append t []

@[simp] lemma tlDateLit_cons (c : UInt8) (s : Bytes) : tlDateLit [c] (c :: s) = some s := by
  simp [tlDateLit]

lemma zone_read (z : ZoneText) : rfc3339Offset z.text = some z.seconds := by
  cases z with
  | utc lower => cases lower <;> rfl
  | offset west hour minute ok =>
    cases west <;> simp [ZoneText.text, ZoneText.seconds, rfc3339Offset, ok]

lemma fraction_read (f : Option (Σ n, DigitText (n + 1))) (z : ZoneText) :
    rfc3339Fraction ((f.elim [] fun f => 46 :: f.2.text) ++ z.text) = some z.text := by
  obtain ⟨c, s, hz, hc, hdot⟩ : ∃ c s, z.text = c :: s ∧ isDigit c = false ∧ c ≠ 46 := by
    cases z with
    | utc lower => cases lower <;> exact ⟨_, _, rfl, rfl, by decide⟩
    | offset west => cases west <;> exact ⟨_, _, rfl, rfl, by decide⟩
  rw [hz]
  cases f with
  | none => simp [rfc3339Fraction, hdot]
  | some f =>
    obtain ⟨n, s, hlen, hs⟩ := f
    have hall : ∀ d ∈ s, isDigit d = true := by simpa using hs
    simp [rfc3339Fraction, List.takeWhile_append_of_pos hall, List.dropWhile_append_of_pos hall, hc]
    rintro rfl
    cases hlen

end Texts

lemma dateFields_ok (c : CivilDate) (k : ClockText) :
    tlDateFieldsOk c.month c.day k.hour.val k.minute.val k.second.val = true := by
  have hlen : monthLength c.year c.month ≤ 31 := by
    unfold monthLength
    split_ifs <;> decide
  simp [tlDateFieldsOk, c.month_ok, c.day_ok.1, c.day_ok.2.trans hlen, k.ok]

lemma rfc3339_read (t : Rfc3339Text) : tlParseRfc3339 t.text = some t.instant := by
  have hfields := dateFields_ok t.date t.clock
  have hdays := tlDaysFromCivil_eq t.date
  simp only [Rfc3339Text.date] at hfields hdays
  have hlower (s : Bytes) : tlDateLit [84, 116] ((if t.lower then 116 else 84) :: s) = some s := by
    cases t.lower <;> rfl
  simp only [tlParseRfc3339, Rfc3339Text.text, ClockText.text, List.append_assoc, List.cons_append,
    tlDateDigits_append, tlDateLit_cons, hlower, fraction_read, zone_read, Option.bind_eq_bind,
    Option.bind_some, hfields, Bool.not_true, Bool.false_eq_true, if_false, hdays]
  rfl

lemma imf_names : (∀ k : Fin 7, (imfDays.getD k []).length = 3 ∧
      imfDays.contains (imfDays.getD k []) = true) ∧
    ∀ k : Fin 12, (imfMonths.getD k []).length = 3 ∧
      imfMonths.findIdx? (· = imfMonths.getD k []) = some k.val := by
  decide

lemma imf_read (t : ImfText) : tlParseImfFixdate t.text = some t.instant := by
  have hfields := dateFields_ok t.date t.clock
  have hdays := tlDaysFromCivil_eq t.date
  simp only [ImfText.date] at hfields hdays
  have hlen : t.text.length = 29 := by
    simp only [ImfText.text, ClockText.text, List.length_append, List.length_cons, imf_names,
      DigitText.length_ok]
    rfl
  obtain ⟨hday, hname⟩ := imf_names.1 t.dayName
  obtain ⟨hmonth, hfind⟩ := imf_names.2 t.month
  rw [tlParseImfFixdate, hlen, ImfText.text]
  generalize imfDays.getD t.dayName [] = a at hday hname
  generalize imfMonths.getD t.month [] = b at hmonth hfind
  have hdrop (s : Bytes) : (a ++ s).drop 5 = s.drop 2 := by
    rw [← List.drop_drop (i := 2), List.drop_left' hday]
  simp only [List.append_assoc, List.cons_append, List.nil_append, List.take_left' hday,
    List.drop_left' hday, hdrop, hname, List.drop_succ_cons, List.drop_zero, List.take_succ_cons,
    List.take_zero, tlDateDigits_append, tlDateLit_cons, Option.bind_eq_bind, Option.bind_some,
    List.take_left' hmonth, List.drop_left' hmonth, hfind, ClockText.text, hfields, hdays]
  simp only [ImfText.instant, ImfText.date, ClockText.seconds]
  simp [asciiBytes]

/-- Each day has the number behind that of the day before, from 1970-01-01 on, and every timestamp
is read as its Unix second, whatever its offset. -/
theorem calendar_exact :
    (∀ c : CivilDate, tlDaysFromCivil c.next.year c.next.month c.next.day =
      tlDaysFromCivil c.year c.month c.day + 1) ∧
    tlDaysFromCivil 1970 1 1 = 0 ∧
    (∀ t : Rfc3339Text, tlParseRfc3339 t.text = some t.instant) ∧
    (∀ t : ImfText, tlParseImfFixdate t.text = some t.instant) ∧
    ∀ t u : Rfc3339Text, tlParseRfc3339 t.text = tlParseRfc3339 u.text ↔ t.instant = u.instant := by
  refine ⟨fun c => ?_, by decide, rfc3339_read, imf_read, fun t u => ?_⟩
  · rw [tlDaysFromCivil_eq, tlDaysFromCivil_eq, unixDay_next]
  · rw [rfc3339_read, rfc3339_read, Option.some.injEq]

end TinyLink.Proofs
