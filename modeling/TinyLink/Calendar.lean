import TinyLink.MapElements

/-!
# Dates and their texts

The proleptic Gregorian calendar, the RFC 3339 timestamps and the IMF-fixdates over it, and the
embedding of `tl_parse_imf_fixdate`.
-/

namespace TinyLink

def isLeap (y : ℕ) : Bool := y % 4 = 0 && (y % 100 ≠ 0 || y % 400 = 0)

def monthLength (y m : ℕ) : ℕ :=
  if m = 2 then if isLeap y then 29 else 28
  else if m = 4 ∨ m = 6 ∨ m = 9 ∨ m = 11 then 30 else 31

lemma monthLength_pos (y m : ℕ) : 1 ≤ monthLength y m := by
  unfold monthLength
  split_ifs <;> decide

structure CivilDate where
  year : ℕ
  month : ℕ
  day : ℕ
  month_ok : 1 ≤ month ∧ month ≤ 12
  day_ok : 1 ≤ day ∧ day ≤ monthLength year month

def CivilDate.next (c : CivilDate) : CivilDate :=
  if h : c.day < monthLength c.year c.month then
    ⟨c.year, c.month, c.day + 1, c.month_ok, Nat.succ_pos _, h⟩
  else if hm : c.month < 12 then
    ⟨c.year, c.month + 1, 1, ⟨Nat.succ_pos _, hm⟩, le_rfl, monthLength_pos _ _⟩
  else ⟨c.year + 1, 1, 1, by decide, le_rfl, monthLength_pos _ _⟩

/-- The days from 1970-01-01 to the beginning of a year. -/
def yearDays : ℕ → ℤ
  | 0 => -719528
  | y + 1 => yearDays y + if isLeap y then 366 else 365

def CivilDate.unixDay (c : CivilDate) : ℤ :=
  yearDays c.year + ((List.range (c.month - 1)).map fun k => monthLength c.year (k + 1)).sum +
    (c.day - 1)

/-- `n` decimal digits. -/
structure DigitText (n : ℕ) where
  text : Bytes
  length_ok : text.length = n
  digits : text.all isDigit = true

abbrev DigitText.val {n : ℕ} (t : DigitText n) : ℕ := decValue t.text

structure ClockText where
  hour : DigitText 2
  minute : DigitText 2
  second : DigitText 2
  ok : hour.val ≤ 23 ∧ minute.val ≤ 59 ∧ second.val ≤ 60

def ClockText.text (t : ClockText) : Bytes :=
  t.hour.text ++ 58 :: t.minute.text ++ 58 :: t.second.text

def ClockText.seconds (t : ClockText) : ℤ :=
  t.hour.val * 3600 + t.minute.val * 60 + t.second.val

inductive ZoneText
  | utc (lower : Bool)
  | offset (west : Bool) (hour minute : DigitText 2) (ok : hour.val ≤ 23 ∧ minute.val ≤ 59)

def ZoneText.text : ZoneText → Bytes
  | utc lower => [if lower then 122 else 90]
  | offset west hour minute _ => (if west then 45 else 43) :: hour.text ++ 58 :: minute.text

def ZoneText.seconds : ZoneText → ℤ
  | utc _ => 0
  | offset west hour minute _ => (if west then -1 else 1) * (hour.val * 3600 + minute.val * 60)

structure Rfc3339Text where
  year : DigitText 4
  month : DigitText 2
  day : DigitText 2
  month_ok : 1 ≤ month.val ∧ month.val ≤ 12
  day_ok : 1 ≤ day.val ∧ day.val ≤ monthLength year.val month.val
  lower : Bool
  clock : ClockText
  fraction : Option (Σ n, DigitText (n + 1))
  zone : ZoneText

def Rfc3339Text.date (t : Rfc3339Text) : CivilDate :=
  ⟨t.year.val, t.month.val, t.day.val, t.month_ok, t.day_ok⟩

def Rfc3339Text.text (t : Rfc3339Text) : Bytes :=
  t.year.text ++ 45 :: t.month.text ++ 45 :: t.day.text ++ (if t.lower then 116 else 84) ::
    t.clock.text ++ (t.fraction.elim [] fun f => 46 :: f.2.text) ++ t.zone.text

/-- The Unix second, without the fraction. -/
def Rfc3339Text.instant (t : Rfc3339Text) : ℤ :=
  t.date.unixDay * 86400 + t.clock.seconds - t.zone.seconds

def imfDays : List Bytes := ["Mon", "Tue", "Wed", "Thu", "Fri", "Sat", "Sun"].map asciiBytes

def imfMonths : List Bytes := ["Jan", "Feb", "Mar", "Apr", "May", "Jun", "Jul", "Aug", "Sep", "Oct",
  "Nov", "Dec"].map asciiBytes

def tlParseImfFixdate (s : Bytes) : Option ℤ := do
  if s.length ≠ 29 || !imfDays.contains (s.take 3) || (s.drop 3).take 2 ≠ [44, 32] then none
  else
    let (d, s) ← tlDateDigits 2 (s.drop 5)
    let s ← tlDateLit [32] s
    let k ← imfMonths.findIdx? (· = s.take 3)
    let (y, s) ← tlDateDigits 4 (← tlDateLit [32] (s.drop 3))
    let (h, s) ← tlDateDigits 2 (← tlDateLit [32] s)
    let (mi, s) ← tlDateDigits 2 (← tlDateLit [58] s)
    let (se, s) ← tlDateDigits 2 (← tlDateLit [58] s)
    if s.take 4 ≠ asciiBytes " GMT" || !tlDateFieldsOk (k + 1) d h mi se then none
    else some (tlDaysFromCivil y (k + 1) d * 86400 + ((h * 3600 + mi * 60 + se : ℕ) : ℤ))

/-- `dayName` need not be that of the date. -/
structure ImfText where
  dayName : Fin 7
  day : DigitText 2
  month : Fin 12
  year : DigitText 4
  day_ok : 1 ≤ day.val ∧ day.val ≤ monthLength year.val (month + 1)
  clock : ClockText

def ImfText.date (t : ImfText) : CivilDate :=
  ⟨t.year.val, t.month + 1, t.day.val, by omega, t.day_ok⟩

def ImfText.text (t : ImfText) : Bytes :=
  imfDays.getD t.dayName [] ++ [44, 32] ++ t.day.text ++ 32 :: imfMonths.getD t.month [] ++
    32 :: t.year.text ++ 32 :: t.clock.text ++ asciiBytes " GMT"

def ImfText.instant (t : ImfText) : ℤ := t.date.unixDay * 86400 + t.clock.seconds

end TinyLink
