import Gateway.Util.Decimal

/-!
`Number(String(n))` for natural numbers.

The text of a natural number is a number of the JSON grammar, and `Number` reads
such a text as the parser of JSON does.
-/

namespace Gateway

/-- The characters a decimal number is written with. -/
def isNumberChar (c : Char) : Bool := c.isDigit || c == '.' || c == 'e' || c == '+' || c == '-'

theorem isNumberChar_of_isDigit {c : Char} (h : c.isDigit = true) : isNumberChar c = true := by
  simp [isNumberChar, h]

theorem isNumberChar_range {c : Char} (h : isNumberChar c = true) :
    0x2B ≤ c.toNat ∧ c.toNat ≤ 0x65 := by
  simp only [isNumberChar, Bool.or_eq_true, beq_iff_eq] at h
  rcases h with (((digit | rfl) | rfl) | rfl) | rfl
  · have bounds := Char.isDigit_iff_toNat.mp digit
    have zero : '0'.toNat = 48 := rfl
    have nine : '9'.toNat = 57 := rfl
    omega
  all_goals decide

theorem not_isJsSpace {c : Char} (h : isNumberChar c = true) : isJsSpace c = false := by
  have range := isNumberChar_range h
  simp only [Char.toNat] at range
  simp only [isJsSpace, Bool.or_eq_false_iff, Bool.and_eq_false_iff, decide_eq_false_iff_not,
    beq_eq_false_iff_ne]
  omega

theorem jsTrim_of_isNumberChar {cs : List Char} (number : ∀ c ∈ cs, isNumberChar c = true) :
    (jsTrim (String.ofList cs)).toList = cs := by
  have kept {ds : List Char} (h : ∀ c ∈ ds, isNumberChar c = true) : ds.dropWhile isJsSpace = ds := by
    cases ds with
    | nil => rfl
    | cons d ds => rw [List.dropWhile_cons_of_neg (by simp [not_isJsSpace (h d List.mem_cons_self)])]
  rw [jsTrim, String.toList_ofList, String.toList_ofList, kept number,
    kept (fun c mem => number c (List.mem_reverse.mp mem)), List.reverse_reverse]

theorem takeSign_of_isDigit {c : Char} {cs : List Char} (digit : c.isDigit = true) :
    takeSign (c :: cs) = (false, c :: cs) := by
  unfold takeSign
  split
  · next minus => cases minus; exact absurd digit (by decide)
  · next plus => cases plus; exact absurd digit (by decide)
  · rfl

theorem readExponent_of_part {cs : List Char} {e : Int} (h : readExponentPart cs = some (e, [])) :
    readExponent cs = some e := by
  cases cs with
  | nil => cases h; rfl
  | cons c cs =>
      rw [readExponentPart] at h
      rw [readExponent]
      split
      · next exponent =>
          rw [if_pos exponent] at h
          rcases taken : takeSign cs with ⟨negative, digits⟩
          rcases run : takeDigits 0 0 digits with ⟨value, count, rest⟩
          simp only [taken, run] at h ⊢
          split at h
          · cases h
          · next counted =>
              obtain ⟨rfl, rfl⟩ := Prod.mk.inj (Option.some.inj h)
              rw [if_neg (by simpa using counted)]
      · next other =>
          rw [if_neg other] at h
          cases h

/-- `Number` reads a text that is a number of the JSON grammar as its parser does. -/
theorem readDecimal_of_readUnsigned {c : Char} {cs : List Char} {n : JsNumber}
    (digit : c.isDigit = true) (h : readUnsigned false (c :: cs) = some (n, [])) :
    readDecimal (c :: cs) = n := by
  have finite : ¬c :: cs = "Infinity".toList := by
    intro infinite
    cases infinite
    exact absurd digit (by decide)
  rw [readUnsigned] at h
  rw [readDecimal, takeSign_of_isDigit digit]
  rcases whole : takeDigits 0 0 (c :: cs) with ⟨value, count, rest⟩
  simp only [whole, if_neg finite] at h ⊢
  split at h
  · cases h
  · next counted =>
      split at h
      · cases h
      · next places read =>
          split at h
          · cases h
          · next exponent text =>
              obtain ⟨rfl, rfl⟩ := Prod.mk.inj (Option.some.inj h)
              have some_digits : count ≠ 0 := fun zero => counted (.inl zero)
              by_cases point : rest.head? = some '.'
              · obtain ⟨digits, rfl⟩ := List.head?_eq_some_iff.mp point
                rw [readFraction] at read
                rcases run : takeDigits value 0 digits with ⟨fraction, places, rest⟩
                simp only [run] at read ⊢
                split at read
                · cases read
                · obtain ⟨rfl, same⟩ := Prod.mk.inj (Option.some.inj read)
                  obtain ⟨rfl, rfl⟩ := Prod.mk.inj same
                  simp only [readExponent_of_part text]
                  rw [if_neg (by omega)]
              · have plain (digits : List Char) : rest = '.' :: digits → False := by
                  rintro rfl
                  exact point rfl
                rw [readFraction] at read
                · obtain ⟨rfl, same⟩ := Prod.mk.inj (Option.some.inj read)
                  obtain ⟨rfl, rfl⟩ := Prod.mk.inj same
                  simp only [readExponent_of_part text]
                  rw [if_neg (by omega)]
                · exact plain

theorem stringToNumber_of_readNumber {c : Char} {cs : List Char} {n : JsNumber}
    (digit : c.isDigit = true) (number : ∀ d ∈ c :: cs, isNumberChar d = true)
    (h : readNumber (c :: cs) = some (n, [])) :
    stringToNumber (String.ofList (c :: cs)) = n := by
  have unsigned : readUnsigned false (c :: cs) = some (n, []) := by
    rw [readNumber.eq_def] at h
    split at h
    · next minus => cases minus; exact absurd digit (by decide)
    · exact h
  have decimal := readDecimal_of_readUnsigned digit unsigned
  have radix (d : Char) (mem : d ∈ c :: cs) (other : isNumberChar d = false) : False := by
    simp [number d mem] at other
  rw [stringToNumber, jsTrim_of_isNumberChar number]
  split
  · next empty => cases empty
  all_goals first
    | exact decimal
    | (next text => cases text; exact (radix _ (.tail _ (.head _)) (by decide)).elim)

section Natural

theorem isNumberChar_positiveText {digits : List Char} {point : Int}
    (are : AreDigits digits) : ∀ c ∈ positiveText digits point, isNumberChar c = true := by
  have digit {c : Char} (mem : c ∈ digits) := isNumberChar_of_isDigit (are c mem)
  have zero {n : Nat} {c : Char} (mem : c ∈ zeros n) : isNumberChar c = true :=
    isNumberChar_of_isDigit (areDigits_zeros n c mem)
  have exponent {e : Int} {c : Char} (mem : c ∈ exponentText e) : isNumberChar c = true := by
    rw [exponentText, List.mem_cons, List.mem_cons] at mem
    rcases mem with rfl | rfl | mem
    · rfl
    · split <;> rfl
    · exact isNumberChar_of_isDigit (areDigits_toDigits _ c mem)
  intro c mem
  rw [positiveText.eq_def] at mem
  split at mem
  · exact (List.mem_append.mp mem).elim digit zero
  · split at mem
    · rcases List.mem_append.mp mem with mem | mem
      · exact digit (List.mem_of_mem_take mem)
      · exact (List.mem_cons.mp mem).elim (· ▸ rfl) fun mem => digit (List.mem_of_mem_drop mem)
    · split at mem
      · simp only [List.mem_cons, List.mem_append] at mem
        rcases mem with rfl | rfl | mem | mem
        · rfl
        · rfl
        · exact zero mem
        · exact digit mem
      · split at mem
        · cases mem
        · exact (List.mem_cons.mp mem).elim (fun same => digit (same ▸ List.mem_cons_self)) exponent
        · simp only [List.mem_cons, List.mem_append] at mem
          rcases mem with rfl | rfl | mem | mem
          · exact digit List.mem_cons_self
          · rfl
          · exact digit (List.mem_cons_of_mem _ mem)
          · exact exponent mem

theorem isNumberChar_numberText (n : Nat) : ∀ c ∈ numberText n, isNumberChar c = true := by
  intro c mem
  rw [numberText] at mem
  split at mem
  · rw [List.mem_singleton.mp mem]
    rfl
  · next positive =>
      obtain ⟨places, found, divides⟩ := decimalPlaces_of_isDecimal (isDecimal_natCast n)
      simp only [found, if_neg (not_lt.mpr (Nat.cast_nonneg (α := ℚ) n)), List.nil_append] at mem
      refine isNumberChar_positiveText (significand_spec places ?_).1 c mem
      exact Nat.mul_pos (Int.natAbs_pos.mpr (Rat.num_ne_zero.mpr positive))
        (Nat.div_pos (Nat.le_of_dvd (by positivity) divides) (Rat.pos _))

/-- `Number(String(n)) = n` below the bound where numbers overflow. -/
theorem stringToNumber_numberText {n : Nat} (bounded : (n : ℚ) < overflowBound) :
    stringToNumber (String.ofList (numberText n)) = .finite n := by
  have number : IsNumber (n : ℚ) := ⟨isDecimal_natCast n, by rwa [Nat.abs_cast]⟩
  obtain ⟨read, c, rest, text, sign⟩ := @numberText_reads n [] number (by simp [Stops])
  have digit := sign.resolve_right fun minus => not_lt.mpr (Nat.cast_nonneg n) minus.2
  have chars := isNumberChar_numberText n
  rw [List.append_nil, text] at read
  rw [text] at chars ⊢
  exact stringToNumber_of_readNumber digit chars read

end Natural

end Gateway
