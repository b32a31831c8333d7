import Mathlib.Data.List.TakeWhile
import Mathlib.Tactic

/-! Instants as RFC 3339 text: the calendar, a writer for UTC, and a reader for any offset. An
instant is a number of seconds since 1970 and nanoseconds; from 10^9 on these are a leap second. -/
namespace Rfc3339

/-! Years run from March, so that a leap day is the last day of its year. -/

/-- The days of `y` years of 400 and fewer: a leap day in every fourth, but not in
every hundredth. -/
def daysBefore (y : Int) : Int := 365 * y + y / 4 - y / 100

def daysFromCivil (year month day : Int) : Int :=
  let y := if month ≤ 2 then year - 1 else year
  y / 400 * 146097 + daysBefore (y % 400) + (153 * ((month + 9) % 12) + 2) / 5 + day - 719469

/-- The year within 400 that a day falls in, and the day of that year. -/
def yearOfDay (day : Int) : Int × Int :=
  let century := min (day / 36524) 3
  let four := (day - century * 36524) / 1461
  let rest := day - century * 36524 - four * 1461
  let one := min (rest / 365) 3
  (100 * century + 4 * four + one, rest - one * 365)

def civilFromDays (days : Int) : Int × Int × Int :=
  let z := days + 719468
  let (y, day) := yearOfDay (z % 146097)
  let m := (5 * day + 2) / 153
  (z / 146097 * 400 + y + (if m < 10 then 0 else 1), if m < 10 then m + 3 else m - 9,
    day - (153 * m + 2) / 5 + 1)

theorem yearOfDay_parts {day : Int} (nonneg : 0 ≤ day) (bound : day < 146097) :
    let century := min (day / 36524) 3
    let four := (day - century * 36524) / 1461
    let one := min ((day - century * 36524 - four * 1461) / 365) 3
    (0 ≤ century ∧ century ≤ 3) ∧ (0 ≤ four ∧ four ≤ 24) ∧ (0 ≤ one ∧ one ≤ 3) ∧
      0 ≤ day - century * 36524 - four * 1461 - one * 365 ∧
      day - century * 36524 - four * 1461 - one * 365 < 366 := by
  intro century four one
  have inCentury : 0 ≤ century ∧ century ≤ 3 ∧ 0 ≤ day - century * 36524 ∧
      day - century * 36524 ≤ 36524 := by omega
  have inFour : 0 ≤ four ∧ four ≤ 24 ∧ 0 ≤ day - century * 36524 - four * 1461 ∧
      day - century * 36524 - four * 1461 ≤ 1460 := by omega
  omega

theorem yearOfDay_spec {day : Int} (nonneg : 0 ≤ day) (bound : day < 146097) :
    let (y, d) := yearOfDay day
    0 ≤ y ∧ y < 400 ∧ 0 ≤ d ∧ d < 366 ∧ daysBefore y + d = day := by
  have parts := yearOfDay_parts nonneg bound
  simp only [yearOfDay, daysBefore] at parts ⊢
  generalize min (day / 36524) 3 = century at parts
  generalize (day - century * 36524) / 1461 = four at parts
  generalize min ((day - century * 36524 - four * 1461) / 365) 3 = one at parts
  have leapDays : (100 * century + 4 * four + one) / 4 = 25 * century + four := by omega
  have centuries : (100 * century + 4 * four + one) / 100 = century := by omega
  rw [leapDays, centuries]
  omega

/-- The parts of a date, and that they lead back to its day. -/
theorem civilFromDays_spec (days : Int) :
    let (year, month, day) := civilFromDays days
    1 ≤ month ∧ month ≤ 12 ∧ 1 ≤ day ∧ day ≤ 31 ∧ daysFromCivil year month day = days := by
  have nonneg : 0 ≤ (days + 719468) % 146097 := Int.emod_nonneg _ (by decide)
  have bound : (days + 719468) % 146097 < 146097 := Int.emod_lt_of_pos _ (by decide)
  have split := yearOfDay_spec nonneg bound
  simp only [civilFromDays]
  generalize yearOfDay ((days + 719468) % 146097) = parts at split
  obtain ⟨y, day⟩ := parts
  obtain ⟨y_nonneg, y_bound, d_nonneg, d_bound, total⟩ := split
  have months : 0 ≤ (5 * day + 2) / 153 ∧ (5 * day + 2) / 153 < 12 := by omega
  have started : (153 * ((5 * day + 2) / 153) + 2) / 5 ≤ day ∧
      day < (153 * ((5 * day + 2) / 153) + 2) / 5 + 31 := by omega
  generalize (5 * day + 2) / 153 = m at months started
  refine ⟨by omega, by omega, by omega, by omega, ?_⟩
  have inYear : (if (if m < 10 then m + 3 else m - 9) ≤ 2 then
      (days + 719468) / 146097 * 400 + y + (if m < 10 then 0 else 1) - 1
      else (days + 719468) / 146097 * 400 + y + (if m < 10 then 0 else 1)) =
      (days + 719468) / 146097 * 400 + y := by split_ifs <;> omega
  have inMarch : ((if m < 10 then m + 3 else m - 9) + 9) % 12 = m := by split_ifs <;> omega
  have era : ((days + 719468) / 146097 * 400 + y) / 400 = (days + 719468) / 146097 := by omega
  have rest : ((days + 719468) / 146097 * 400 + y) % 400 = y := by omega
  simp only [daysFromCivil, inYear, inMarch, era, rest]
  omega

theorem civilFromDays_four_digits (days : Int) :
    (0 ≤ (civilFromDays days).1 ∧ (civilFromDays days).1 ≤ 9999) ↔ -719528 ≤ days ∧
    days ≤ 2932896 := by
  have split := yearOfDay_spec (Int.emod_nonneg (days + 719468) (by decide : (146097 : Int) ≠ 0))
    (Int.emod_lt_of_pos (days + 719468) (by decide : (0 : Int) < 146097))
  simp only [civilFromDays]
  generalize yearOfDay ((days + 719468) % 146097) = parts at split
  obtain ⟨y, day⟩ := parts
  obtain ⟨y_nonneg, y_bound, d_nonneg, d_bound, total⟩ := split
  -- January and February of the last year are those from day 306 on
  have last : (y = 399 ∧ 306 ≤ day) ↔ 146037 ≤ (days + 719468) % 146097 := by
    rw [← total]
    unfold daysBefore
    omega
  have march : (5 * day + 2) / 153 < 10 ↔ day < 306 := by omega
  simp only [march]
  split_ifs <;> omega

/-! Texts of a fixed number of digits. -/

def digit (n : Nat) : Char := .ofNat (48 + n)

def digitValue (c : Char) : Option Nat := if c.isDigit then some (c.toNat - 48) else none

def writeDigits : Nat → Nat → List Char
  | 0, _ => []
  | k + 1, n => digit (n / 10 ^ k % 10) :: writeDigits k n

/-- The value of the next `k` digits behind those already read, and what follows them. -/
def readDigits : Nat → Nat → List Char → Option (Nat × List Char)
  | 0, value, cs => some (value, cs)
  | _ + 1, _, [] => none
  | k + 1, value, c :: cs => do
    let d ← digitValue c
    readDigits k (value * 10 + d) cs

theorem digit_isDigit {n : Nat} (small : n < 10) : (digit n).isDigit = true := by
  interval_cases n <;> rfl

theorem digitValue_digit {n : Nat} (small : n < 10) : digitValue (digit n) = some n := by
  interval_cases n <;> rfl

theorem readDigits_write (k n value : Nat) (rest : List Char) :
    readDigits k value (writeDigits k n ++ rest) = some (value * 10 ^ k + n % 10 ^ k, rest) := by
  induction k generalizing value with
  | zero => simp [readDigits, writeDigits, Nat.mod_one]
  | succ k ih =>
      have small : n / 10 ^ k % 10 < 10 := Nat.mod_lt _ (by decide)
      have total : (value * 10 + n / 10 ^ k % 10) * 10 ^ k + n % 10 ^ k =
          value * 10 ^ (k + 1) + n % 10 ^ (k + 1) := by
        rw [Nat.mod_pow_succ, pow_succ]
        ring
      simp only [writeDigits, List.cons_append, readDigits, digitValue_digit small,
        Option.bind_eq_bind, Option.bind_some, ih, total]

theorem writeDigits_length (k n : Nat) : (writeDigits k n).length = k := by
  induction k with
  | zero => rfl
  | succ k ih => rw [writeDigits, List.length_cons, ih]

theorem writeDigits_isDigit (k n : Nat) : ∀ c ∈ writeDigits k n, c.isDigit = true := by
  induction k with
  | zero => simp [writeDigits]
  | succ k ih =>
      simp only [writeDigits, List.mem_cons, forall_eq_or_imp]
      exact ⟨digit_isDigit (Nat.mod_lt _ (by decide)), ih⟩

theorem readDigits_exact {k n : Nat} (small : n < 10 ^ k) (rest : List Char) :
    readDigits k 0 (writeDigits k n ++ rest) = some (n, rest) := by
  rw [readDigits_write, Nat.mod_eq_of_lt small, Nat.zero_mul, Nat.zero_add]

/-! The text of an instant. -/

/-- Years beyond four digits are written with a sign. -/
def writeYear (year : Int) : List Char :=
  if 0 ≤ year ∧ year ≤ 9999 then writeDigits 4 year.toNat
  else (if year < 0 then '-' else '+') :: List.leftpad 4 '0' year.natAbs.repr.toList

/-- No fraction of a second, or as few groups of three digits as it takes. -/
def writeFraction (nanos : Nat) : List Char :=
  if nanos = 0 then []
  else if nanos % 1000000 = 0 then '.' :: writeDigits 3 (nanos / 1000000)
  else if nanos % 1000 = 0 then '.' :: writeDigits 6 (nanos / 1000)
  else '.' :: writeDigits 9 nanos

def writeDate (days : Int) : List Char :=
  let (year, month, day) := civilFromDays days
  writeYear year ++ '-' :: (writeDigits 2 month.toNat ++ '-' :: writeDigits 2 day.toNat)

/-- A leap second is second 60 of its minute. -/
def writeTime (clock nanos : Nat) : List Char :=
  writeDigits 2 (clock / 3600) ++ ':' :: (writeDigits 2 (clock / 60 % 60) ++
    ':' :: (writeDigits 2 (clock % 60 + nanos / 1000000000) ++ writeFraction (nanos % 1000000000)))

def write (seconds : Int) (nanos : Nat) : List Char :=
  writeDate (seconds / 86400) ++ 'T' :: (writeTime (seconds % 86400).toNat nanos ++ "+00:00".toList)

def expect (c : Char) : List Char → Option (List Char)
  | [] => none
  | first :: cs => if first = c then some cs else none

def readSeparator : List Char → Option (List Char)
  | [] => none
  | c :: cs => if c = 'T' ∨ c = 't' ∨ c = ' ' then some cs else none

/-- Nine digits of a fraction count; more are skipped. -/
def readFraction : List Char → Option (Nat × List Char)
  | '.' :: cs =>
    let digits := cs.takeWhile Char.isDigit
    if digits = [] then none
    else (readDigits (min 9 digits.length) 0 digits).map fun (value, _) =>
      (value * 10 ^ (9 - digits.length), cs.dropWhile Char.isDigit)
  | cs => some (0, cs)

def readOffset : List Char → Option Int
  | [] => none
  | [c] => if c = 'Z' ∨ c = 'z' then some 0 else none
  | sign :: cs => do
    let (hours, cs) ← readDigits 2 0 cs
    let cs ← expect ':' cs
    let (minutes, cs) ← readDigits 2 0 cs
    guard (cs = [] ∧ hours < 24 ∧ minutes < 60)
    if sign = '+' then some (hours * 3600 + minutes * 60 : Int)
    else if sign = '-' ∨ sign = '\u2212' then some (-(hours * 3600 + minutes * 60 : Int))
    else none

/-- A date that does not exist is not that of its day. -/
def readDate (cs : List Char) : Option (Int × List Char) := do
  let (year, cs) ← readDigits 4 0 cs
  let cs ← expect '-' cs
  let (month, cs) ← readDigits 2 0 cs
  let cs ← expect '-' cs
  let (day, cs) ← readDigits 2 0 cs
  let days := daysFromCivil year month day
  guard (civilFromDays days = ((year : Int), (month : Int), (day : Int)))
  return (days, cs)

def readTime (cs : List Char) : Option (Nat × Nat × List Char) := do
  let (hour, cs) ← readDigits 2 0 cs
  let cs ← expect ':' cs
  let (minute, cs) ← readDigits 2 0 cs
  let cs ← expect ':' cs
  let (second, cs) ← readDigits 2 0 cs
  let (nanos, cs) ← readFraction cs
  guard (hour < 24 ∧ minute < 60 ∧ second ≤ 60)
  return (hour * 3600 + minute * 60 + min second 59,
    if second = 60 then nanos + 1000000000 else nanos, cs)

def read (cs : List Char) : Option (Int × Nat) := do
  let (days, cs) ← readDate cs
  let cs ← readSeparator cs
  let (clock, nanos, cs) ← readTime cs
  let offset ← readOffset cs
  return (days * 86400 + clock - offset, nanos)

theorem readFraction_digits {k n : Nat} (positive : 0 < k) (nine : k ≤ 9) (small : n < 10 ^ k)
    {c : Char} (notDigit : c.isDigit = false) (rest : List Char) :
    readFraction ('.' :: (writeDigits k n ++ c :: rest)) = some (n * 10 ^ (9 - k), c :: rest) := by
  have all := writeDigits_isDigit k n
  have taken : (writeDigits k n ++ c :: rest).takeWhile Char.isDigit = writeDigits k n := by
    rw [List.takeWhile_append_of_pos all]
    simp [notDigit]
  have left : (writeDigits k n ++ c :: rest).dropWhile Char.isDigit = c :: rest := by
    rw [List.dropWhile_append_of_pos all]
    simp [notDigit]
  have some_digit : writeDigits k n ≠ [] := by
    rw [← List.length_pos_iff, writeDigits_length]
    exact positive
  have value := readDigits_exact small []
  rw [List.append_nil] at value
  simp only [readFraction, taken, left, some_digit, if_false, writeDigits_length,
    Nat.min_eq_right nine, value, Option.map_some]

theorem readFraction_write {nanos : Nat} (small : nanos < 1000000000) {c : Char}
    (notDigit : c.isDigit = false) (notPoint : c ≠ '.') (rest : List Char) :
    readFraction (writeFraction nanos ++ c :: rest) = some (nanos, c :: rest) := by
  unfold writeFraction
  split_ifs with zero millis micros
  · subst zero
    unfold readFraction
    split
    · rename_i same
      rw [List.nil_append] at same
      injection same with same
      exact absurd same notPoint
    · rfl
  · rw [List.cons_append, readFraction_digits (by decide) (by decide) (by omega) notDigit]
    congr 2
    omega
  · rw [List.cons_append, readFraction_digits (by decide) (by decide) (by omega) notDigit]
    congr 2
    omega
  · rw [List.cons_append, readFraction_digits (by decide) (by decide) (by omega) notDigit]
    congr 2
    omega

theorem readDate_write {days : Int} (years : -719528 ≤ days ∧ days ≤ 2932896) (rest : List Char) :
    readDate (writeDate days ++ rest) = some (days, rest) := by
  have civil := civilFromDays_spec days
  have four := (civilFromDays_four_digits days).mpr years
  unfold writeDate
  generalize parts : civilFromDays days = date at civil four
  obtain ⟨year, month, day⟩ := date
  obtain ⟨month_pos, month_le, day_pos, day_le, back⟩ := civil
  have year_nat : ((year.toNat : Nat) : Int) = year := Int.toNat_of_nonneg four.1
  have month_nat : ((month.toNat : Nat) : Int) = month := Int.toNat_of_nonneg (by omega)
  have day_nat : ((day.toNat : Nat) : Int) = day := Int.toNat_of_nonneg (by omega)
  have year_read := fun rest => readDigits_exact (show year.toNat < 10 ^ 4 by omega) rest
  have month_read := fun rest => readDigits_exact (show month.toNat < 10 ^ 2 by omega) rest
  have day_read := fun rest => readDigits_exact (show day.toNat < 10 ^ 2 by omega) rest
  simp only [writeYear, if_pos four, readDate, List.append_assoc, List.cons_append,
    year_read, month_read, day_read, expect, if_true, Option.bind_eq_bind, Option.bind_some,
    year_nat, month_nat, day_nat, back, parts, guard_true, Option.pure_def]

theorem readTime_write {clock nanos : Nat} (day : clock < 86400)
    (fraction : nanos < 1000000000 ∨ nanos < 2000000000 ∧ clock % 60 = 59) {c : Char}
    (notDigit : c.isDigit = false) (notPoint : c ≠ '.') (rest : List Char) :
    readTime (writeTime clock nanos ++ c :: rest) = some (clock, nanos, c :: rest) := by
  have hour_read := fun rest => readDigits_exact (show clock / 3600 < 10 ^ 2 by omega) rest
  have minute_read := fun rest => readDigits_exact (show clock / 60 % 60 < 10 ^ 2 by omega) rest
  have second_read := fun rest =>
    readDigits_exact (show clock % 60 + nanos / 1000000000 < 10 ^ 2 by omega) rest
  have fraction_read := readFraction_write (Nat.mod_lt nanos (by decide : 0 < 1000000000)) notDigit
    notPoint rest
  have ranges : clock / 3600 < 24 ∧ clock / 60 % 60 < 60 ∧
      clock % 60 + nanos / 1000000000 ≤ 60 := by
    omega
  have sum : clock / 3600 * 3600 + clock / 60 % 60 * 60 + min (clock % 60 + nanos / 1000000000) 59 =
      clock := by omega
  have nanosBack : (if clock % 60 + nanos / 1000000000 = 60 then nanos % 1000000000 + 1000000000
      else nanos % 1000000000) = nanos := by
    split_ifs <;> omega
  simp only [writeTime, readTime, List.append_assoc, List.cons_append, hour_read,
    minute_read, second_read, expect, if_true, Option.bind_eq_bind, Option.bind_some, fraction_read,
    ranges, and_self, guard_true, sum, nanosBack, Option.pure_def]

/-- An instant of the years 0 to 9999 is read back as it was written. -/
theorem read_write {seconds : Int} {nanos : Nat}
    (years : -62167219200 ≤ seconds ∧ seconds ≤ 253402300799)
    (fraction : nanos < 1000000000 ∨ nanos < 2000000000 ∧ seconds % 60 = 59) :
    read (write seconds nanos) = some (seconds, nanos) := by
  have clock := Int.toNat_of_nonneg (Int.emod_nonneg seconds (by decide : (86400 : Int) ≠ 0))
  have clock_bound := Int.emod_lt_of_pos seconds (by decide : (0 : Int) < 86400)
  have time : ∀ rest, readTime (writeTime (seconds % 86400).toNat nanos ++ '+' :: rest) =
      some ((seconds % 86400).toNat, nanos, '+' :: rest) :=
    readTime_write (by omega) (by omega) rfl (by decide)
  have offset : readOffset ('+' :: "00:00".toList) = some 0 := by decide
  have tail : "+00:00".toList = '+' :: "00:00".toList := rfl
  simp only [write, read, tail,
    readDate_write (show -719528 ≤ seconds / 86400 ∧ seconds / 86400 ≤ 2932896
    by omega), readSeparator, true_or, if_true, time, offset, Option.bind_eq_bind, Option.bind_some,
    Option.pure_def, clock]
  congr 2
  omega

/-- An instant of any other year is written with a sign, and not read. -/
theorem read_write_signed {seconds : Int} (nanos : Nat)
    (years : ¬ (-62167219200 ≤ seconds ∧ seconds ≤ 253402300799)) :
    read (write seconds nanos) = none := by
  have other : ¬ (0 ≤ (civilFromDays (seconds / 86400)).1 ∧
      (civilFromDays (seconds / 86400)).1 ≤ 9999) := by
    rw [civilFromDays_four_digits]
    omega
  simp only [write, writeDate, writeYear, if_neg other, List.cons_append, read, readDate]
  split_ifs <;> rfl

end Rfc3339
