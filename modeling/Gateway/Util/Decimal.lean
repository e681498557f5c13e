import Gateway.Util.JsonPrefix
import Mathlib.Data.Nat.Prime.Basic
import Mathlib.Data.List.TakeWhile
import Mathlib.Tactic.FieldSimp
import Mathlib.Tactic.Linarith
import Mathlib.Tactic.IntervalCases

/-!
Decimal numbers as text.

A number of the language is a fraction over a power of ten below the bound where it
overflows. Its text is exact, so reading it gives the number back; the text may
be followed by anything that does not go on with the number.
-/

namespace Gateway

/-- A fraction over a power of ten. -/
def IsDecimal (q : ℚ) : Prop := ∃ places, q.den ∣ 10 ^ places

/-- No digit, point or exponent comes next. -/
def Stops (cs : List Char) : Prop :=
  ∀ c ∈ cs.head?, c.isDigit = false ∧ c ≠ '.' ∧ c ≠ 'e' ∧ c ≠ 'E'

section Digits

def AreDigits (ds : List Char) : Prop := ∀ c ∈ ds, c.isDigit = true

theorem areDigits_toDigits (n : Nat) : AreDigits (Nat.toDigits 10 n) := fun _ mem =>
  Nat.isDigit_of_mem_toDigits (by decide) (by decide) mem

theorem areDigits_zeros (n : Nat) : AreDigits (zeros n) := by
  intro c mem
  rw [List.eq_of_mem_replicate mem]
  rfl

theorem takeDigits_append {ds : List Char} (digits : AreDigits ds) {ext : List Char}
    (ends : ∀ c ∈ ext.head?, c.isDigit = false) (value count : Nat) :
    takeDigits value count (ds ++ ext) =
      (Nat.ofDigitChars 10 ds value, count + ds.length, ext) := by
  induction ds generalizing value count with
  | nil =>
      cases ext with
      | nil => rfl
      | cons c ext =>
          have := ends c rfl
          simp [takeDigits, this]
  | cons d ds ih =>
      obtain ⟨digit, rest⟩ := List.forall_mem_cons.mp digits
      rw [List.cons_append, takeDigits, if_pos digit, ih rest, Nat.ofDigitChars_cons,
        List.length_cons, Nat.add_right_comm, Nat.add_assoc]

theorem head_toDigits {n : Nat} (positive : 0 < n) : (Nat.toDigits 10 n).head? ≠ some '0' := by
  induction n using Nat.strongRecOn with
  | ind n ih =>
      by_cases small : n < 10
      · rw [Nat.toDigits_of_lt_base small]
        interval_cases n <;> decide
      · rw [Nat.toDigits_of_base_le (by decide) (by omega),
          List.head?_append_of_ne_nil _ Nat.toDigits_ne_nil]
        exact ih (n / 10) (by omega) (by omega)

end Digits

section Places

/-- A divisor of a power of ten divides the power of its own binary logarithm. -/
theorem dvd_ten_pow_log2 {den : Nat} (k : Nat) (divides : den ∣ 10 ^ k) :
    den ∣ 10 ^ Nat.log2 den := by
  induction den using Nat.strongRecOn with
  | ind den ih =>
      by_cases one : den = 1
      · subst one
        exact one_dvd _
      · have positive : 0 < den := Nat.pos_of_dvd_of_pos divides (by positivity)
        obtain ⟨p, prime, p_dvd⟩ := Nat.exists_prime_and_dvd one
        have p_ten : p ∣ 10 := prime.dvd_of_dvd_pow (p_dvd.trans divides)
        have two_le := prime.two_le
        obtain ⟨rest, rfl⟩ := p_dvd
        have rest_positive : 0 < rest := Nat.pos_of_mul_pos_left positive
        have smaller : rest < p * rest := by nlinarith
        have rest_dvd := ih rest smaller ((Dvd.intro_left p rfl).trans divides)
        have log_lt : Nat.log2 rest + 1 ≤ Nat.log2 (p * rest) := by
          rw [Nat.le_log2 (by omega), Nat.pow_succ]
          have := Nat.log2_self_le (n := rest) (by omega)
          nlinarith
        calc p * rest ∣ 10 * 10 ^ Nat.log2 rest := Nat.mul_dvd_mul p_ten rest_dvd
          _ = 10 ^ (Nat.log2 rest + 1) := by rw [Nat.pow_succ, Nat.mul_comm]
          _ ∣ 10 ^ Nat.log2 (p * rest) := Nat.pow_dvd_pow 10 log_lt

theorem decimalPlaces_spec {den : Nat} (fuel places : Nat)
    (found : ∃ p, places ≤ p ∧ p < places + fuel ∧ den ∣ 10 ^ p) :
    ∃ p, decimalPlaces den fuel places = some p ∧ den ∣ 10 ^ p := by
  induction fuel generalizing places with
  | zero =>
      obtain ⟨p, le, lt, -⟩ := found
      omega
  | succ fuel ih =>
      rw [decimalPlaces]
      by_cases here : 10 ^ places % den = 0
      · exact ⟨places, if_pos here, Nat.dvd_of_mod_eq_zero here⟩
      · rw [if_neg here]
        obtain ⟨p, le, lt, divides⟩ := found
        have other : p ≠ places := by
          rintro rfl
          exact here (Nat.mod_eq_zero_of_dvd divides)
        exact ih (places + 1) ⟨p, by omega, by omega, divides⟩

theorem decimalPlaces_of_isDecimal {q : ℚ} (decimal : IsDecimal q) :
    ∃ p, decimalPlaces q.den (Nat.log2 q.den + 1) 0 = some p ∧ q.den ∣ 10 ^ p := by
  obtain ⟨k, divides⟩ := decimal
  exact decimalPlaces_spec _ 0
    ⟨Nat.log2 q.den, Nat.zero_le _, by omega, dvd_ten_pow_log2 k divides⟩

end Places

section Significand

variable {m : Nat} (places : Nat)

theorem toDigits_split (m : Nat) : ∃ n,
    Nat.toDigits 10 m = (significand m places).1 ++ zeros n ∧
      (significand m places).2 = (significand m places).1.length + n - places := by
  have stripped :=
    List.takeWhile_append_dropWhile (p := (· == '0')) (l := (Nat.toDigits 10 m).reverse)
  have trailing : (Nat.toDigits 10 m).reverse.takeWhile (· == '0') =
      zeros ((Nat.toDigits 10 m).reverse.takeWhile (· == '0')).length :=
    List.eq_replicate_of_mem fun c mem => by simpa using List.mem_takeWhile_imp mem
  have digits := congrArg List.reverse stripped
  rw [List.reverse_append, List.reverse_reverse, trailing, zeros, List.reverse_replicate] at digits
  refine ⟨_, digits.symm, ?_⟩
  have lengths := congrArg List.length digits
  rw [List.length_append, List.length_replicate] at lengths
  simp only [significand]
  omega

/-- The digits without trailing zeros and the position of the point give the number. -/
theorem significand_spec (positive : 0 < m) :
    AreDigits (significand m places).1 ∧ (significand m places).1 ≠ [] ∧
      (significand m places).1.head? ≠ some '0' ∧
      (Nat.ofDigitChars 10 (significand m places).1 0 : ℚ) *
          10 ^ ((significand m places).2 - (significand m places).1.length) =
        m / 10 ^ places := by
  obtain ⟨n, digits, point⟩ := toDigits_split places m
  have head := head_toDigits positive
  have all := areDigits_toDigits m
  have value := @Nat.ofDigitChars_ten_toDigits m
  rw [digits] at head all value
  have nonempty : (significand m places).1 ≠ [] := by
    intro empty
    rw [empty, List.nil_append, zeros, Nat.ofDigitChars_replicate_zero] at value
    omega
  refine ⟨fun c mem => all c (List.mem_append_left _ mem), nonempty, ?_, ?_⟩
  · rwa [List.head?_append_of_ne_nil _ nonempty] at head
  · rw [Nat.ofDigitChars_append, zeros, Nat.ofDigitChars_replicate_zero] at value
    have exponent : (significand m places).2 - (significand m places).1.length =
        (n : Int) - places := by omega
    have cast : (m : ℚ) = 10 ^ n * Nat.ofDigitChars 10 (significand m places).1 0 := by
      exact_mod_cast value.symm
    rw [exponent, zpow_sub₀ (by norm_num), zpow_natCast, zpow_natCast, cast]
    ring

end Significand

section Text

/-- The fraction of a text, with its point. -/
def fractionText (digits : List Char) : List Char := if digits = [] then [] else '.' :: digits

def exponentPart (e : Option Int) : List Char := e.elim [] exponentText

variable {ext : List Char}

theorem readFraction_text {digits : List Char} (are : AreDigits digits)
    (ends : ∀ c ∈ ext.head?, c.isDigit = false ∧ c ≠ '.') (whole : Nat) :
    readFraction whole (fractionText digits ++ ext) =
      some (Nat.ofDigitChars 10 digits whole, digits.length, ext) := by
  by_cases none : digits = []
  · subst none
    cases ext with
    | nil => rfl
    | cons c ext =>
        have := (ends c rfl).2
        simp [fractionText, readFraction, this]
  · have counted : digits.length ≠ 0 := by simpa using none
    simp only [fractionText, if_neg none, List.cons_append, readFraction,
      takeDigits_append are (fun c mem => (ends c mem).1), Nat.zero_add, if_neg counted]

theorem readExponentPart_text (e : Option Int) (stops : Stops ext) :
    readExponentPart (exponentPart e ++ ext) = some (e.getD 0, ext) := by
  cases e with
  | none =>
      cases ext with
      | nil => rfl
      | cons c ext =>
          obtain ⟨-, -, lower, upper⟩ := stops c rfl
          simp [exponentPart, readExponentPart, lower, upper]
  | some e =>
      have counted : (Nat.toDigits 10 e.natAbs).length ≠ 0 := by simp
      have digits := takeDigits_append (areDigits_toDigits e.natAbs)
        (fun c mem => (stops c mem).1) 0 0
      rw [Nat.ofDigitChars_ten_toDigits, Nat.zero_add] at digits
      by_cases negative : e < 0
      · simp only [exponentPart, Option.elim_some, exponentText, if_pos negative, List.cons_append,
          readExponentPart, takeSign, digits, if_neg counted, Option.getD_some]
        simp [abs_of_neg negative]
      · simp only [exponentPart, Option.elim_some, exponentText, if_neg negative, List.cons_append,
          readExponentPart, takeSign, digits, if_neg counted, Option.getD_some]
        simp [abs_of_nonneg (not_lt.mp negative)]

theorem exponent_stops (e : Option Int) (stops : Stops ext) :
    ∀ c ∈ (exponentPart e ++ ext).head?, c.isDigit = false ∧ c ≠ '.' := by
  cases e with
  | none => exact fun c mem => ⟨(stops c mem).1, (stops c mem).2.1⟩
  | some e =>
      intro c mem
      cases Option.some.inj mem
      decide

/-- A number given by its whole digits, its fraction and its exponent. -/
theorem readUnsigned_text (negative : Bool) (whole fraction : List Char) (e : Option Int)
    (whole_digits : AreDigits whole) (nonempty : whole ≠ [])
    (lead : whole.head? = some '0' → whole.length = 1) (fraction_digits : AreDigits fraction)
    (stops : Stops ext) :
    readUnsigned negative (whole ++ (fractionText fraction ++ (exponentPart e ++ ext))) =
      some (ofMagnitude negative ((Nat.ofDigitChars 10 (whole ++ fraction) 0 : ℚ) *
        10 ^ (e.getD 0 - fraction.length)), ext) := by
  have ends := exponent_stops e stops
  have point : ∀ c ∈ (fractionText fraction ++ (exponentPart e ++ ext)).head?, c.isDigit = false := by
    by_cases none : fraction = []
    · simpa [fractionText, none] using fun c mem => (ends c mem).1
    · rw [fractionText, if_neg none]
      intro c mem
      cases Option.some.inj mem
      rfl
  have counted : ¬(whole.length = 0 ∨
      (whole ++ (fractionText fraction ++ (exponentPart e ++ ext))).head? = some '0' ∧
        1 < whole.length) := by
    rintro (empty | ⟨zero, many⟩)
    · exact nonempty (List.length_eq_zero_iff.mp empty)
    · rw [List.head?_append_of_ne_nil _ nonempty] at zero
      have := lead zero
      omega
  simp only [readUnsigned, takeDigits_append whole_digits point, Nat.zero_add, if_neg counted,
    readFraction_text fraction_digits ends, readExponentPart_text e stops, Nat.ofDigitChars_append]

theorem AreDigits.append {xs ys : List Char} (first : AreDigits xs) (second : AreDigits ys) :
    AreDigits (xs ++ ys) := fun c mem =>
  (List.mem_append.mp mem).elim (first c) (second c)

/-- The text of a positive number, in whichever of the forms it is written. -/
theorem readUnsigned_positiveText (negative : Bool) {digits : List Char} (are : AreDigits digits)
    (nonempty : digits ≠ []) (lead : digits.head? ≠ some '0') (point : Int) (stops : Stops ext) :
    readUnsigned negative (positiveText digits point ++ ext) =
      some (ofMagnitude negative
        ((Nat.ofDigitChars 10 digits 0 : ℚ) * 10 ^ (point - digits.length)), ext) := by
  have none_digits : AreDigits [] := by simp [AreDigits]
  rw [positiveText.eq_def]
  split
  · next whole =>
      obtain ⟨n, rfl⟩ := Int.le.dest whole.1
      have count : ((digits.length : Int) + n).toNat - digits.length = n := by omega
      have read := readUnsigned_text negative (digits ++ zeros n) [] none
        (are.append (areDigits_zeros n)) (by simp [nonempty])
        (fun zero => absurd (List.head?_append_of_ne_nil _ nonempty ▸ zero) lead) none_digits stops
      rw [List.append_nil, Nat.ofDigitChars_append, zeros, Nat.ofDigitChars_replicate_zero] at read
      rw [count, add_sub_cancel_left]
      simpa [fractionText, exponentPart, zeros, mul_comm] using read
  · split
    · next whole inside =>
        obtain ⟨n, rfl⟩ := Int.eq_ofNat_of_zero_le inside.1.le
        have shorter : n < digits.length := by omega
        have some_fraction : digits.drop n ≠ [] := by
          rw [ne_eq, List.drop_eq_nil_iff]
          omega
        have read := readUnsigned_text negative (digits.take n) (digits.drop n) none
          (fun c mem => are c (List.mem_of_mem_take mem)) (by simp [nonempty]; omega)
          (fun zero => absurd (by simpa [List.head?_take, show n ≠ 0 by omega] using zero) lead)
          (fun c mem => are c (List.mem_of_mem_drop mem)) stops
        rw [List.take_append_drop, fractionText, if_neg some_fraction, List.length_drop] at read
        have exponent : (n : Int) - digits.length = 0 - (digits.length - n : Nat) := by omega
        rw [exponent]
        simpa [exponentPart] using read
    · split
      · next small =>
          obtain ⟨n, rfl⟩ : ∃ n : Nat, point = -n := ⟨(-point).toNat, by omega⟩
          have read := readUnsigned_text negative ['0'] (zeros n ++ digits) none (by simp [AreDigits])
            (by simp) (by simp) ((areDigits_zeros n).append are) stops
          have value : Nat.ofDigitChars 10 (['0'] ++ (zeros n ++ digits)) 0 =
              Nat.ofDigitChars 10 digits 0 := by
            rw [← List.append_assoc, Nat.ofDigitChars_append,
              show ['0'] ++ zeros n = List.replicate (n + 1) '0' from rfl,
              Nat.ofDigitChars_replicate_zero, Nat.mul_zero]
          have exponent : (-n : Int) - digits.length = 0 - (n + digits.length : Nat) := by omega
          rw [value, fractionText, if_neg (by simp [nonempty]), List.length_append, zeros,
            List.length_replicate] at read
          rw [exponent]
          simpa [exponentPart, zeros] using read
      · cases digits with
        | nil => exact absurd rfl nonempty
        | cons d rest =>
            obtain ⟨digit, rest_digits⟩ := List.forall_mem_cons.mp are
            have read := readUnsigned_text negative [d] rest (some (point - 1))
              (by simpa [AreDigits] using digit) (by simp) (by simp) rest_digits stops
            have exponent : point - (d :: rest).length = point - 1 - rest.length := by
              rw [List.length_cons]
              omega
            rw [exponent]
            cases rest <;> simpa [fractionText, exponentPart] using read

end Text

section Number

variable {q : ℚ} {ext : List Char}

/-- A number that is written and read without loss. -/
structure IsNumber (q : ℚ) : Prop where
  decimal : IsDecimal q
  bounded : |q| < overflowBound

theorem ofMagnitude_abs (bounded : |q| < overflowBound) :
    ofMagnitude (decide (q < 0)) |q| = .finite q := by
  rw [ofMagnitude, if_neg (not_le.mpr bounded)]
  by_cases negative : q < 0
  · simp [negative, abs_of_neg]
  · simp [negative, abs_of_nonneg (not_lt.mp negative)]

/-- The digits that are written have the magnitude of the number. -/
theorem magnitude_eq {places : Nat} (divides : q.den ∣ 10 ^ places) :
    ((q.num.natAbs * (10 ^ places / q.den) : Nat) : ℚ) / 10 ^ places = |q| := by
  obtain ⟨t, split⟩ := divides
  have den : (q.den : ℚ) ≠ 0 := by exact_mod_cast q.den_nz
  have t_ne : (t : ℚ) ≠ 0 := by
    rintro zero
    have : t = 0 := by exact_mod_cast zero
    rw [this, Nat.mul_zero] at split
    exact absurd split (by positivity)
  have power : (10 : ℚ) ^ places = q.den * t := by exact_mod_cast split
  rw [split, Nat.mul_div_cancel_left t q.pos, power, Rat.abs_def, Rat.divInt_eq_div]
  push_cast
  field_simp
  rw [Nat.cast_natAbs, Int.cast_abs]

theorem readNumber_unsigned {text : List Char} {n : JsNumber}
    (h : readUnsigned false (text ++ ext) = some (n, ext)) :
    readNumber (text ++ ext) = some (n, ext) ∧
      ∃ c rest, text = c :: rest ∧ c.isDigit = true := by
  obtain ⟨p, split, ⟨c, rest, rfl, digit⟩, -⟩ := readUnsigned_takes h
  rw [List.append_cancel_right split] at h ⊢
  refine ⟨?_, c, rest, rfl, digit⟩
  have unsigned : c ≠ '-' := by
    rintro rfl
    exact absurd digit (by decide)
  rw [List.cons_append] at h ⊢
  rw [readNumber.eq_def]
  split
  · next minus =>
      cases minus
      exact absurd rfl unsigned
  · exact h

theorem numberText_reads (number : IsNumber q) (stops : Stops ext) :
    readNumber (numberText q ++ ext) = some (.finite q, ext) ∧
      ∃ c rest, numberText q = c :: rest ∧ (c.isDigit = true ∨ c = '-' ∧ q < 0) := by
  rw [numberText]
  split
  · next zero =>
      subst zero
      have read := readUnsigned_text false ['0'] [] none (by simp [AreDigits]) (by simp) (by simp)
        (by simp [AreDigits]) stops
      have zero : ofMagnitude false 0 = .finite 0 := by simpa using ofMagnitude_abs number.bounded
      have text : readUnsigned false (['0'] ++ ext) = some (.finite 0, ext) := by
        simpa [fractionText, exponentPart, Nat.ofDigitChars, zero] using read
      obtain ⟨again, c, rest, same, digit⟩ := readNumber_unsigned text
      exact ⟨again, c, rest, same, .inl digit⟩
  · next nonzero =>
      obtain ⟨places, found, divides⟩ := decimalPlaces_of_isDecimal number.decimal
      have positive : 0 < q.num.natAbs * (10 ^ places / q.den) := by
        refine Nat.mul_pos (Int.natAbs_pos.mpr (Rat.num_ne_zero.mpr nonzero)) ?_
        exact Nat.div_pos (Nat.le_of_dvd (by positivity) divides) q.pos
      obtain ⟨are, nonempty, lead, value⟩ := significand_spec places positive
      rw [magnitude_eq divides] at value
      have read (negative : Bool) := readUnsigned_positiveText negative are nonempty lead
        (significand (q.num.natAbs * (10 ^ places / q.den)) places).2 stops
      simp only [value] at read
      simp only [found]
      have magnitude := ofMagnitude_abs number.bounded
      by_cases negative : q < 0
      · have minus := read true
        rw [decide_eq_true negative] at magnitude
        rw [magnitude] at minus
        rw [if_pos negative]
        exact ⟨minus, '-', _, rfl, .inr ⟨rfl, negative⟩⟩
      · have plain := read false
        rw [decide_eq_false negative] at magnitude
        rw [magnitude] at plain
        rw [if_neg negative]
        obtain ⟨again, c, rest, same, digit⟩ := readNumber_unsigned plain
        exact ⟨again, c, rest, same, .inl digit⟩

end Number

section Read

theorem isDecimal_mul {p q : ℚ} (hp : IsDecimal p) (hq : IsDecimal q) : IsDecimal (p * q) := by
  obtain ⟨m, p_dvd⟩ := hp
  obtain ⟨n, q_dvd⟩ := hq
  exact ⟨m + n, (Rat.mul_den_dvd p q).trans (by rw [pow_add]; exact Nat.mul_dvd_mul p_dvd q_dvd)⟩

theorem isDecimal_natCast (n : Nat) : IsDecimal (n : ℚ) := ⟨0, by simp⟩

theorem isDecimal_zpow (e : Int) : IsDecimal ((10 : ℚ) ^ e) := by
  cases e with
  | ofNat n =>
      have cast : (10 : ℚ) ^ Int.ofNat n = (10 ^ n : Nat) := by push_cast; exact zpow_natCast 10 n
      rw [cast]
      exact isDecimal_natCast _
  | negSucc n =>
      refine ⟨n + 1, ?_⟩
      have inverse : (10 : ℚ) ^ Int.negSucc n = ((10 ^ (n + 1) : Nat) : ℚ)⁻¹ := by
        rw [zpow_negSucc]
        push_cast
        rfl
      rw [inverse, Rat.inv_natCast_den]
      split <;> simp

theorem isNumber_of_magnitude {negative : Bool} {magnitude q : ℚ} (decimal : IsDecimal magnitude)
    (nonneg : 0 ≤ magnitude) (h : ofMagnitude negative magnitude = .finite q) : IsNumber q := by
  rw [ofMagnitude] at h
  split at h
  · cases negative <;> exact nomatch h
  · next bounded =>
      cases negative with
      | false =>
          cases h
          exact ⟨decimal, by simpa [abs_of_nonneg nonneg] using bounded⟩
      | true =>
          cases h
          obtain ⟨n, divides⟩ := decimal
          exact ⟨⟨n, by simpa using divides⟩, by simpa [abs_of_nonneg nonneg] using bounded⟩

theorem readUnsigned_isNumber {negative : Bool} {cs rest : List Char} {q : ℚ}
    (h : readUnsigned negative cs = some (.finite q, rest)) : IsNumber q := by
  simp only [readUnsigned] at h
  split at h
  · cases h
  · split at h
    · cases h
    · split at h
      · cases h
      · obtain ⟨finite, -⟩ := Prod.mk.inj (Option.some.inj h)
        exact isNumber_of_magnitude (isDecimal_mul (isDecimal_natCast _) (isDecimal_zpow _))
          (mul_nonneg (Nat.cast_nonneg _) (zpow_nonneg (by norm_num) _)) finite

theorem readNumber_isNumber {cs rest : List Char} {q : ℚ}
    (h : readNumber cs = some (.finite q, rest)) : IsNumber q := by
  rw [readNumber.eq_def] at h
  split at h <;> exact readUnsigned_isNumber h

end Read

end Gateway
