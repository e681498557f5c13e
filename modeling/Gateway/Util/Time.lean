import Mathlib.Data.List.Basic

/-!
The UTC buckets that usage is sharded and rolled up by.

A date is the number of milliseconds since the epoch; the calendar is the
proleptic Gregorian one, counted in eras of four hundred years from the first
of March of the year zero.
-/

namespace Gateway

structure UtcFields where
  year : Int
  month : Nat
  day : Nat
  hour : Nat
deriving DecidableEq, Repr

def dayMs : Int := 86400000

def utcFields (date : Int) : UtcFields :=
  let shifted := date / dayMs + 719468
  let era := shifted / 146097
  let dayOfEra := (shifted % 146097).toNat
  let yearOfEra := (dayOfEra - dayOfEra / 1460 + dayOfEra / 36524 - dayOfEra / 146096) / 365
  let dayOfYear := dayOfEra - (365 * yearOfEra + yearOfEra / 4 - yearOfEra / 100)
  let marchMonth := (5 * dayOfYear + 2) / 153
  let month := if marchMonth < 10 then marchMonth + 3 else marchMonth - 9
  { year := yearOfEra + era * 400 + if month ≤ 2 then 1 else 0
    month := month
    day := dayOfYear - (153 * marchMonth + 2) / 5 + 1
    hour := ((date % dayMs) / 3600000).toNat }

/-- `padStart(width, "0")` -/
def padStart (width : Nat) (digits : List Char) : List Char :=
  List.replicate (width - digits.length) '0' ++ digits

def decimal (n : Nat) : List Char := (toString n).toList

theorem length_padStart (width : Nat) (digits : List Char) :
    width ≤ (padStart width digits).length := by
  simp only [padStart, List.length_append, List.length_replicate]
  omega

theorem decimal_eq (n : Nat) : decimal n = Nat.toDigits 10 n := by
  rw [decimal, Nat.toString_eq_ofList_toDigits, String.toList_ofList]

/-- Padding leaves the number that the digits are of. -/
theorem padStart_inj {width n m : Nat}
    (same : padStart width (decimal n) = padStart width (decimal m)) : n = m := by
  have value (k : Nat) : Nat.ofDigitChars 10 (padStart width (decimal k)) 0 = k := by
    rw [padStart, decimal_eq, Nat.ofDigitChars_append, Nat.ofDigitChars_replicate_zero,
      Nat.mul_zero, Nat.ofDigitChars_ten_toDigits]
  have values := congrArg (fun ds => Nat.ofDigitChars 10 ds 0) same
  rw [value, value] at values
  exact values

theorem isDigit_padStart {width n : Nat} {c : Char} (mem : c ∈ padStart width (decimal n)) :
    c.isDigit = true := by
  rw [padStart, decimal_eq] at mem
  rcases List.mem_append.mp mem with zero | digit
  · rw [List.eq_of_mem_replicate zero]
    rfl
  · exact Nat.isDigit_of_mem_toDigits (by decide) (by decide) digit

/-- The `YYYYMM` bucket that names a monthly collection. -/
def monthBucket (date : Int) : String :=
  let f := utcFields date
  toString f.year ++ String.ofList (padStart 2 (decimal f.month))

/-- The date of `toISOString`: four digits of year, or a sign and six. -/
def isoDate (f : UtcFields) : List Char :=
  (if 0 ≤ f.year ∧ f.year ≤ 9999 then padStart 4 (decimal f.year.toNat)
    else (if f.year < 0 then '-' else '+') :: padStart 6 (decimal f.year.natAbs)) ++
    '-' :: padStart 2 (decimal f.month) ++ '-' :: padStart 2 (decimal f.day) ++
    'T' :: padStart 2 (decimal f.hour)

/-- `toISOString()` -/
def isoText (date : Int) : String :=
  String.ofList (isoDate (utcFields date) ++
    ':' :: padStart 2 (decimal (date / 60000 % 60).toNat) ++
    ':' :: padStart 2 (decimal (date / 1000 % 60).toNat) ++
    '.' :: padStart 3 (decimal (date % 1000).toNat) ++ ['Z'])

/-- The first thirteen characters of the ISO form: the hour, for the years
that are written with four digits. -/
def hourBucket (date : Int) : String := String.ofList ((isoDate (utcFields date)).take 13)

theorem length_hourBucket (date : Int) : (hourBucket date).toList.length = 13 := by
  have year := length_padStart 4 (decimal (utcFields date).year.toNat)
  have longYear := length_padStart 6 (decimal (utcFields date).year.natAbs)
  have month := length_padStart 2 (decimal (utcFields date).month)
  have day := length_padStart 2 (decimal (utcFields date).day)
  have hour := length_padStart 2 (decimal (utcFields date).hour)
  have long : 13 ≤ (isoDate (utcFields date)).length := by
    simp only [isoDate, List.length_append, List.length_cons]
    split
    · omega
    · simp only [List.length_cons]
      omega
  rw [hourBucket, String.toList_ofList, List.length_take, Nat.min_eq_left long]

/-- The year is written with four digits. -/
def FourDigitYear (date : Int) : Prop :=
  1000 ≤ (utcFields date).year ∧ (utcFields date).year ≤ 9999

instance (date : Int) : Decidable (FourDigitYear date) := inferInstanceAs (Decidable (_ ∧ _))

theorem length_year {year : Int} (le : year ≤ 9999) :
    (padStart 4 (decimal year.toNat)).length = 4 := by
  have digits := (Nat.length_toDigits_le_iff (n := year.toNat) (k := 4) (b := 10) (by decide)
    (by decide)).mpr (by omega)
  rw [← decimal_eq] at digits
  rw [padStart, List.length_append, List.length_replicate]
  omega

theorem padStart_year {year : Int} (low : 1000 ≤ year) (high : year ≤ 9999) :
    (toString year).toList = padStart 4 (decimal year.toNat) := by
  have text : toString year = toString year.toNat := by
    obtain ⟨n, rfl⟩ := Int.eq_ofNat_of_zero_le (Int.le_trans (by decide) low)
    rfl
  have long : ¬(decimal year.toNat).length ≤ 3 := by
    rw [decimal_eq, Nat.length_toDigits_le_iff (by decide) (by decide)]
    omega
  have none_added : 4 - (decimal year.toNat).length = 0 := by omega
  rw [text, padStart, none_added, List.replicate_zero, List.nil_append]
  rfl

/-- A month's bucket goes on with a digit after the year. -/
theorem monthBucket_cut {date : Int} (four : FourDigitYear date) :
    ∃ digit rest, digit.isDigit = true ∧ (monthBucket date).toList =
      padStart 4 (decimal (utcFields date).year.toNat) ++ digit :: rest := by
  have two := length_padStart 2 (decimal (utcFields date).month)
  cases month : padStart 2 (decimal (utcFields date).month) with
  | nil =>
      rw [month] at two
      cases two
  | cons digit rest =>
      have mem : digit ∈ padStart 2 (decimal (utcFields date).month) := by
        rw [month]
        exact List.mem_cons_self
      refine ⟨digit, rest, isDigit_padStart mem, ?_⟩
      rw [monthBucket, String.toList_append, String.toList_ofList, month,
        padStart_year four.1 four.2]

/-- An hour's bucket goes on with a dash after the year. -/
theorem hourBucket_cut (date : Int) (low : 0 ≤ (utcFields date).year)
    (high : (utcFields date).year ≤ 9999) : ∃ rest, (hourBucket date).toList =
      padStart 4 (decimal (utcFields date).year.toNat) ++ '-' :: rest := by
  have four := length_year high
  rw [hourBucket, String.toList_ofList, isoDate, if_pos ⟨low, high⟩]
  simp only [List.append_assoc, List.cons_append]
  rw [List.take_append, four, List.take_of_length_le (by omega)]
  exact ⟨_, rfl⟩

theorem hourBucket_signed {date : Int}
    (long : ¬(0 ≤ (utcFields date).year ∧ (utcFields date).year ≤ 9999)) :
    ∃ sign rest, sign.isDigit = false ∧ (hourBucket date).toList = sign :: rest := by
  rw [hourBucket, String.toList_ofList, isoDate, if_neg long]
  simp only [List.cons_append, List.take_succ_cons]
  refine ⟨_, _, ?_, rfl⟩
  split <;> rfl

/-- The four digits of a year start the hours of that year and no others. -/
theorem year_prefix_iff {date hour : Int} (four : FourDigitYear date) :
    (monthBucket date).toList.take 4 <+: (hourBucket hour).toList ↔
      (utcFields hour).year = (utcFields date).year := by
  obtain ⟨digit, rest, -, month⟩ := monthBucket_cut four
  have length := length_year four.2
  rw [month, List.take_append_of_le_length (by omega), List.take_of_length_le (by omega)]
  constructor
  · rintro ⟨tail, bucket⟩
    by_cases short : 0 ≤ (utcFields hour).year ∧ (utcFields hour).year ≤ 9999
    · obtain ⟨more, cut⟩ := hourBucket_cut hour short.1 short.2
      rw [cut] at bucket
      have same := padStart_inj
        (List.append_inj_left bucket (length.trans (length_year short.2).symm))
      have low := four.1
      omega
    · obtain ⟨sign, more, noDigit, cut⟩ := hourBucket_signed short
      rw [cut] at bucket
      cases digits : padStart 4 (decimal (utcFields date).year.toNat) with
      | nil =>
          rw [digits] at length
          cases length
      | cons first others =>
          rw [digits, List.cons_append] at bucket
          have isDigit : first.isDigit = true :=
            isDigit_padStart (by rw [digits]; exact List.mem_cons_self)
          rw [(List.cons.inj bucket).1, noDigit] at isDigit
          cases isDigit
  · intro same
    obtain ⟨more, cut⟩ := hourBucket_cut hour (by rw [same]; have := four.1; omega)
      (by rw [same]; exact four.2)
    rw [cut, same]
    exact List.prefix_append _ _

/-- No hour starts with the first six characters of a month's bucket. -/
theorem not_month_prefix {date hour : Int} (four : FourDigitYear date) :
    ¬(monthBucket date).toList.take 6 <+: (hourBucket hour).toList := by
  intro starts
  obtain ⟨digit, rest, isDigit, month⟩ := monthBucket_cut four
  have year : (utcFields hour).year = (utcFields date).year :=
    (year_prefix_iff four).mp ((List.take_prefix_take_left (by decide)).trans starts)
  obtain ⟨more, cut⟩ := hourBucket_cut hour (by rw [year]; have := four.1; omega)
    (by rw [year]; exact four.2)
  have length := length_year four.2
  rw [cut, year, month, List.take_append, length, List.take_of_length_le (by omega),
    List.prefix_append_right_inj, List.take_succ_cons, List.cons_prefix_cons] at starts
  rw [starts.1] at isDigit
  cases isDigit

example : monthBucket 1788220799999 = "202608" := by decide

example : hourBucket 1788220799999 = "2026-08-31T23" := by decide

end Gateway
