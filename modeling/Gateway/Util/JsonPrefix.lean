import Gateway.Util.JsonText
import Mathlib.Data.List.TakeWhile

/-!
The part of a text that a reader takes.

What is read is told from a prefix of the text. The rest decides nothing, except
that a number goes on for as long as digits follow, so there the first character
of the rest has to stay.
-/

namespace Gateway

/-- The reader takes a prefix, and takes it from every text that goes on alike. -/
def Takes {α : Type*} (read : List Char → Option (α × List Char)) (cs : List Char) (a : α)
    (rest : List Char) : Prop :=
  ∃ p, cs = p ++ rest ∧ ∀ ext, ext.head? = rest.head? → read (p ++ ext) = some (a, ext)

/-- The reader takes a prefix, whatever follows. -/
def TakesAny {α : Type*} (read : List Char → Option (α × List Char)) (cs : List Char) (a : α)
    (rest : List Char) : Prop :=
  ∃ p, cs = p ++ rest ∧ ∀ ext, read (p ++ ext) = some (a, ext)

theorem head?_append_congr {α : Type*} (p : List α) {r ext : List α} (same : ext.head? = r.head?) :
    (p ++ ext).head? = (p ++ r).head? := by
  cases p with
  | nil => exact same
  | cons c p => rfl

section Digits

/-- The digits taken, and that none follows. -/
theorem takeDigits_takes {value count : Nat} {cs : List Char} {v n : Nat} {rest : List Char}
    (h : takeDigits value count cs = (v, n, rest)) :
    ∃ p, cs = p ++ rest ∧ (n = count + p.length ∧ ∀ c ∈ p, c.isDigit = true) ∧
      ∀ ext, ext.head? = rest.head? → takeDigits value count (p ++ ext) = (v, n, ext) := by
  induction cs generalizing value count with
  | nil =>
      cases h
      refine ⟨[], rfl, ⟨rfl, by simp⟩, fun ext same => ?_⟩
      rw [List.head?_eq_none_iff.mp same]
      rfl
  | cons c cs ih =>
      rw [takeDigits] at h
      split at h
      · next digit =>
          obtain ⟨p, rfl, ⟨length, digits⟩, again⟩ := ih h
          refine ⟨c :: p, rfl, ⟨by rw [length, List.length_cons]; omega, ?_⟩, fun ext same => ?_⟩
          · exact List.forall_mem_cons.mpr ⟨digit, digits⟩
          rw [List.cons_append, takeDigits, if_pos digit]
          exact again ext same
      · next other =>
          cases h
          refine ⟨[], rfl, ⟨rfl, by simp⟩, fun ext same => ?_⟩
          cases ext with
          | nil => exact nomatch same
          | cons d ext =>
              cases Option.some.inj same
              rw [List.nil_append, takeDigits, if_neg other]

theorem readFraction_takes {whole : Nat} {cs : List Char} {v n : Nat} {rest : List Char}
    (h : readFraction whole cs = some (v, n, rest)) :
    ∃ p, cs = p ++ rest ∧
      ∀ ext, ext.head? = rest.head? → readFraction whole (p ++ ext) = some (v, n, ext) := by
  rw [readFraction.eq_def] at h
  split at h
  · next cs =>
      rcases digits : takeDigits whole 0 cs with ⟨value, count, after⟩
      simp only [digits] at h
      split at h
      · exact nomatch h
      · next counted =>
          cases h
          obtain ⟨p, rfl, -, again⟩ := takeDigits_takes digits
          refine ⟨'.' :: p, rfl, fun ext same => ?_⟩
          simp only [List.cons_append, readFraction, again ext same]
          exact if_neg counted
  · next no_point =>
      cases h
      refine ⟨[], rfl, fun ext same => ?_⟩
      rw [List.nil_append, readFraction.eq_def]
      split
      · cases cs with
        | nil => exact nomatch same
        | cons c cs =>
            cases Option.some.inj same
            exact absurd rfl (no_point cs)
      · rfl

theorem takeSign_suffix (cs : List Char) : ∃ sign, cs = sign ++ (takeSign cs).2 := by
  rw [takeSign.eq_def]
  split
  · exact ⟨['-'], rfl⟩
  · exact ⟨['+'], rfl⟩
  · exact ⟨[], rfl⟩

theorem takeSign_append {p : List Char} (nonempty : p ≠ []) (ext : List Char) :
    takeSign (p ++ ext) = ((takeSign p).1, (takeSign p).2 ++ ext) := by
  obtain ⟨c, p, rfl⟩ := List.exists_cons_of_ne_nil nonempty
  by_cases minus : c = '-'
  · subst minus
    rfl
  · by_cases plus : c = '+'
    · subst plus
      rfl
    · simp [takeSign, minus, plus]

theorem readExponentPart_takes {cs : List Char} {e : Int} {rest : List Char}
    (h : readExponentPart cs = some (e, rest)) : Takes readExponentPart cs e rest := by
  rw [readExponentPart.eq_def] at h
  split at h
  · next c cs =>
      split at h
      · next exponent =>
          rcases signed : takeSign cs with ⟨negative, digits⟩
          rcases taken : takeDigits 0 0 digits with ⟨value, count, after⟩
          simp only [signed, taken] at h
          split at h
          · exact nomatch h
          · next counted =>
              cases h
              obtain ⟨sign, split⟩ := takeSign_suffix cs
              rw [signed] at split
              obtain ⟨p, rfl, ⟨length, -⟩, again⟩ := takeDigits_takes taken
              have nonempty : sign ++ p ≠ [] := by
                intro empty
                have := (List.append_eq_nil_iff.mp empty).2
                simp [this] at length
                exact counted length
              have sign_p := takeSign_append nonempty rest
              rw [List.append_assoc, ← split, signed, Prod.mk.injEq] at sign_p
              have same_p := List.append_cancel_right sign_p.2
              refine ⟨c :: (sign ++ p), by rw [split, List.cons_append, List.append_assoc],
                fun ext same => ?_⟩
              rw [List.cons_append, readExponentPart, if_pos exponent, takeSign_append nonempty ext,
                ← sign_p.1, ← same_p]
              simp only [again ext same]
              exact if_neg counted
      · next other =>
          cases h
          refine ⟨[], rfl, fun ext same => ?_⟩
          cases ext with
          | nil => exact nomatch same
          | cons d ext =>
              cases Option.some.inj same
              rw [List.nil_append, readExponentPart, if_neg other]
  · cases h
    refine ⟨[], rfl, fun ext same => ?_⟩
    rw [List.head?_eq_none_iff.mp same]
    rfl

theorem readUnsigned_takes {negative : Bool} {cs : List Char} {n : JsNumber} {rest : List Char}
    (h : readUnsigned negative cs = some (n, rest)) :
    ∃ p, cs = p ++ rest ∧ (∃ c p', p = c :: p' ∧ c.isDigit = true) ∧
      ∀ ext, ext.head? = rest.head? → readUnsigned negative (p ++ ext) = some (n, ext) := by
  rcases whole : takeDigits 0 0 cs with ⟨value, count, after⟩
  simp only [readUnsigned, whole] at h
  split at h
  · exact nomatch h
  · next counted =>
      split at h
      · exact nomatch h
      · next fraction =>
          split at h
          · exact nomatch h
          · next exponent =>
              cases h
              obtain ⟨digits, rfl, ⟨length, are_digits⟩, digits_again⟩ := takeDigits_takes whole
              obtain ⟨point, rfl, point_again⟩ := readFraction_takes fraction
              obtain ⟨power, rfl, power_again⟩ := readExponentPart_takes exponent
              cases digits with
              | nil => exact absurd (.inl (by simpa using length)) counted
              | cons c digits =>
                  refine ⟨c :: digits ++ point ++ power, by simp,
                    ⟨c, digits ++ point ++ power, by simp, are_digits c List.mem_cons_self⟩,
                    fun ext same => ?_⟩
                  have tail := head?_append_congr power same
                  have digits_read := digits_again _ (head?_append_congr point tail)
                  simp only [List.append_assoc, readUnsigned, digits_read, point_again _ tail,
                    power_again ext same]
                  exact if_neg counted

theorem readNumber_takes {cs : List Char} {n : JsNumber} {rest : List Char}
    (h : readNumber cs = some (n, rest)) :
    ∃ p, cs = p ++ rest ∧ (∃ c p', p = c :: p' ∧ (c.isDigit = true ∨ c = '-')) ∧
      ∀ ext, ext.head? = rest.head? → readNumber (p ++ ext) = some (n, ext) := by
  rw [readNumber.eq_def] at h
  split at h
  · next cs =>
      obtain ⟨p, rfl, -, again⟩ := readUnsigned_takes h
      exact ⟨'-' :: p, rfl, ⟨'-', p, rfl, .inr rfl⟩, again⟩
  · obtain ⟨p, rfl, ⟨c, p', rfl, digit⟩, again⟩ := readUnsigned_takes h
    refine ⟨c :: p', rfl, ⟨c, p', rfl, .inl digit⟩, fun ext same => ?_⟩
    have unsigned : c ≠ '-' := by
      rintro rfl
      exact absurd digit (by decide)
    rw [List.cons_append, readNumber.eq_def]
    split
    · next minus =>
        cases minus
        exact absurd rfl unsigned
    · exact again ext same

end Digits

section Text

variable {α β : Type*}

/-- A reader that hands the rest of the text on after some characters. -/
theorem TakesAny.map {read : List Char → Option (α × List Char)}
    {next : List Char → Option (β × List Char)} (first : List Char) (f : β → α)
    (hands_on : ∀ cs, read (first ++ cs) = (next cs).map fun x => (f x.1, x.2))
    {cs : List Char} (ih : ∀ b rest, next cs = some (b, rest) → TakesAny next cs b rest)
    {a : α} {rest : List Char} (h : read (first ++ cs) = some (a, rest)) :
    TakesAny read (first ++ cs) a rest := by
  rw [hands_on] at h
  obtain ⟨⟨b, rest⟩, found, pair⟩ := Option.map_eq_some_iff.mp h
  cases pair
  obtain ⟨p, rfl, again⟩ := ih b _ found
  refine ⟨first ++ p, by rw [List.append_assoc], fun ext => ?_⟩
  rw [List.append_assoc, hands_on, again, Option.map_some]

theorem readString_takes {high : Option Nat} {cs s rest : List Char}
    (h : readString high cs = some (s, rest)) : TakesAny (readString high) cs s rest := by
  induction high, cs using readString.induct generalizing s rest with
  | case1 high => cases h
  | case2 high a b c d cs bad => simp [readString, bad] at h
  | case3 a b c d cs unit is_unit held low ih =>
      exact TakesAny.map ['\\', 'u', a, b, c, d] (pairChar held unit :: ·)
        (fun _ => by simp [readString, is_unit, low]) (fun _ _ => ih) h
  | case4 a b c d cs unit is_unit held not_low high ih =>
      exact TakesAny.map ['\\', 'u', a, b, c, d] (unitChar held :: ·)
        (fun _ => by simp [readString, is_unit, not_low, high]) (fun _ _ => ih) h
  | case5 a b c d cs unit is_unit held not_low not_high ih =>
      exact TakesAny.map ['\\', 'u', a, b, c, d] (unitChar held :: unitChar unit :: ·)
        (fun _ => by simp [readString, is_unit, not_low, not_high]) (fun _ _ => ih) h
  | case6 a b c d cs unit is_unit high ih =>
      exact TakesAny.map ['\\', 'u', a, b, c, d] id
        (fun _ => by simp [readString, is_unit, high]) (fun _ _ => ih) h
  | case7 a b c d cs unit is_unit not_high ih =>
      exact TakesAny.map ['\\', 'u', a, b, c, d] (unitChar unit :: ·)
        (fun _ => by simp [readString, is_unit, not_high]) (fun _ _ => ih) h
  | case8 high c cs simple bad =>
      rw [readString, bad] at h
      · cases h
      · exact simple
  | case9 high c cs simple e is_escape ih =>
      exact TakesAny.map ['\\', c] ((high.map unitChar).toList ++ e :: ·)
        (readString_escaped is_escape) (fun _ _ => ih) h
  | case10 high cs _ _ =>
      have closed (ext : List Char) :
          readString high ('"' :: ext) = some ((high.map unitChar).toList, ext) := by
        rw [readString, if_pos rfl] <;> simp
      rw [closed] at h
      cases h
      exact ⟨['"'], rfl, closed⟩
  | case11 high c cs no_unit no_escape inside bad =>
      rw [readString, if_neg inside, if_pos bad] at h
      · cases h
      · exact no_unit
      · exact no_escape
  | case12 high c cs _ _ inside plain ih =>
      exact TakesAny.map [c] ((high.map unitChar).toList ++ c :: ·)
        (readString_plain plain inside) (fun _ _ => ih) h

end Text

section Space

theorem skipSpace_append {space : List Char} (spaces : ∀ c ∈ space, isJsonSpace c = true)
    (cs : List Char) : skipSpace (space ++ cs) = skipSpace cs :=
  List.dropWhile_append_of_pos spaces

theorem skipSpace_cons {c : Char} (solid : isJsonSpace c = false) (cs : List Char) :
    skipSpace (c :: cs) = c :: cs :=
  List.dropWhile_cons_of_neg (by simp [solid])

theorem skipSpace_split (cs : List Char) :
    ∃ space, cs = space ++ skipSpace cs ∧ ∀ c ∈ space, isJsonSpace c = true :=
  ⟨cs.takeWhile isJsonSpace, (List.takeWhile_append_dropWhile ..).symm,
    fun _ mem => List.mem_takeWhile_imp mem⟩

theorem skipSpace_head {cs rest : List Char} {c : Char} (h : skipSpace cs = c :: rest) :
    isJsonSpace c = false := by
  have := List.head?_dropWhile_not isJsonSpace cs
  rw [← skipSpace, h] at this
  simpa using this

/-- The space before a character can be skipped again, whatever follows. -/
theorem skipSpace_takes {cs rest : List Char} {c : Char} (h : skipSpace cs = c :: rest) :
    ∃ space, cs = space ++ c :: rest ∧ ∀ ext, skipSpace (space ++ c :: ext) = c :: ext := by
  obtain ⟨space, split, spaces⟩ := skipSpace_split cs
  rw [h] at split
  exact ⟨space, split, fun ext => by
    rw [skipSpace_append spaces, skipSpace_cons (skipSpace_head h)]⟩

end Space

section Value

variable {fuel : Nat} {cs rest : List Char} {c : Char}

/-- A value is taken, with calls for twice the characters at most; if it is a number,
only from a text that goes on alike. -/
def ValueTaken (cs : List Char) (value : Json) (rest : List Char) : Prop :=
  ∃ p, cs = p ++ rest ∧ 0 < p.length ∧ ∀ fuel ext, 2 * p.length ≤ fuel + 1 →
    ((∃ n, value = .num n) → ext.head? = rest.head?) → readValue fuel (p ++ ext) = some (value, ext)

/-- What ends with its bracket is taken, whatever follows. -/
def ListTaken {α : Type*} (read : Nat → List Char → Option (α × List Char)) (last : Char)
    (cs : List Char) (a : α) (rest : List Char) : Prop :=
  ∃ p, cs = p ++ last :: rest ∧
    ∀ fuel ext, 2 * p.length + 1 ≤ fuel → read fuel (p ++ last :: ext) = some (a, ext)

variable {value : Json} {items : List Json} {entries : List (String × Json)}

theorem ListTaken.of_cons {α : Type*} {read : Nat → List Char → Option (α × List Char)} {a : α}
    {last : Char} (other : c ≠ last) (taken : ListTaken read last (c :: cs) a rest) :
    ∃ p, cs = p ++ last :: rest ∧
      ∀ fuel ext, 2 * p.length + 3 ≤ fuel → read fuel (c :: (p ++ last :: ext)) = some (a, ext) := by
  obtain ⟨p, split, again⟩ := taken
  cases p with
  | nil => exact absurd (List.cons.inj split).1 other
  | cons d p =>
      obtain ⟨rfl, tail⟩ := List.cons.inj split
      exact ⟨p, tail, fun fuel ext enough => again fuel ext (by rw [List.length_cons]; omega)⟩

theorem ListTaken.toValue {last : Char} (taken : ListTaken readValue last cs value rest) :
    ValueTaken cs value rest := by
  obtain ⟨p, split, again⟩ := taken
  refine ⟨p ++ [last], by simp [split], by simp, fun fuel ext enough _ => ?_⟩
  rw [List.length_append, List.length_singleton] at enough
  simpa using again fuel ext (by omega)

theorem listTaken_of_any {α : Type*} {read : Nat → List Char → Option (α × List Char)} {a : α}
    {last : Char} (p : List Char) {cs : List Char} (split : cs = p ++ last :: rest)
    (again : ∀ fuel ext, 2 * p.length ≤ fuel → read (fuel + 1) (p ++ last :: ext) = some (a, ext)) :
    ListTaken read last cs a rest := by
  refine ⟨p, split, fun fuel ext enough => ?_⟩
  obtain ⟨fuel, rfl⟩ := Nat.exists_eq_add_of_le' (Nat.le_of_add_left_le enough)
  exact again fuel ext (by omega)

section Step

variable (items_taken : ∀ {cs items rest}, readItems fuel cs = some (items, rest) →
    ListTaken readItems ']' cs items rest)
  (fields_taken : ∀ {cs entries rest}, readFields fuel cs = some (entries, rest) →
    ListTaken readFields '}' cs entries rest)

theorem valueTaken_of_any (p : List Char) {cs : List Char} (split : cs = p ++ rest)
    (nonempty : 0 < p.length)
    (again : ∀ fuel ext, readValue (fuel + 1) (p ++ ext) = some (value, ext)) :
    ValueTaken cs value rest := by
  refine ⟨p, split, nonempty, fun fuel ext enough _ => ?_⟩
  obtain ⟨fuel, rfl⟩ := Nat.exists_eq_add_of_le' (show 1 ≤ fuel by omega)
  exact again fuel ext

include fields_taken in
theorem object_taken {inner : List Char} (opened : skipSpace cs = '{' :: inner)
    (h : readValue (fuel + 1) cs = some (value, rest)) :
    ListTaken readValue '}' cs value rest := by
  obtain ⟨space, rfl, skip⟩ := skipSpace_takes opened
  cases first : skipSpace inner with
  | nil =>
      rw [readValue, opened] at h
      simp [first, readFields_nil] at h
  | cons c after =>
      obtain ⟨gap, rfl, skip_gap⟩ := skipSpace_takes first
      by_cases closed : c = '}'
      · subst closed
        rw [readValue_emptyObject opened first] at h
        cases h
        refine listTaken_of_any (space ++ '{' :: gap) (by simp) fun fuel ext _ => ?_
        have opened : skipSpace (space ++ '{' :: gap ++ '}' :: ext) = '{' :: (gap ++ '}' :: ext) := by
          simpa using skip (gap ++ '}' :: ext)
        exact readValue_emptyObject opened (skip_gap ext)
      · rw [readValue_object opened first closed] at h
        obtain ⟨⟨entries, rest⟩, found, pair⟩ := Option.map_eq_some_iff.mp h
        cases pair
        obtain ⟨p, rfl, again⟩ := (fields_taken found).of_cons closed
        refine listTaken_of_any (space ++ '{' :: (gap ++ c :: p)) (by simp) fun fuel ext enough => ?_
        have opened : skipSpace (space ++ '{' :: (gap ++ c :: p) ++ '}' :: ext) =
            '{' :: (gap ++ c :: (p ++ '}' :: ext)) := by
          simpa using skip (gap ++ c :: (p ++ '}' :: ext))
        rw [readValue_object opened (skip_gap (p ++ '}' :: ext)) closed,
          again fuel ext (by simp at enough; omega), Option.map_some]

include items_taken in
theorem array_taken {inner : List Char} (opened : skipSpace cs = '[' :: inner)
    (h : readValue (fuel + 1) cs = some (value, rest)) :
    ListTaken readValue ']' cs value rest := by
  obtain ⟨space, rfl, skip⟩ := skipSpace_takes opened
  cases first : skipSpace inner with
  | nil =>
      rw [readValue, opened] at h
      simp [first, readItems_nil] at h
  | cons c after =>
      obtain ⟨gap, rfl, skip_gap⟩ := skipSpace_takes first
      by_cases closed : c = ']'
      · subst closed
        rw [readValue_emptyArray opened first] at h
        cases h
        refine listTaken_of_any (space ++ '[' :: gap) (by simp) fun fuel ext _ => ?_
        have opened : skipSpace (space ++ '[' :: gap ++ ']' :: ext) = '[' :: (gap ++ ']' :: ext) := by
          simpa using skip (gap ++ ']' :: ext)
        exact readValue_emptyArray opened (skip_gap ext)
      · rw [readValue_array opened first closed] at h
        obtain ⟨⟨items, rest⟩, found, pair⟩ := Option.map_eq_some_iff.mp h
        cases pair
        obtain ⟨p, rfl, again⟩ := (items_taken found).of_cons closed
        refine listTaken_of_any (space ++ '[' :: (gap ++ c :: p)) (by simp) fun fuel ext enough => ?_
        have opened : skipSpace (space ++ '[' :: (gap ++ c :: p) ++ ']' :: ext) =
            '[' :: (gap ++ c :: (p ++ ']' :: ext)) := by
          simpa using skip (gap ++ c :: (p ++ ']' :: ext))
        rw [readValue_array opened (skip_gap (p ++ ']' :: ext)) closed,
          again fuel ext (by simp at enough; omega), Option.map_some]

theorem string_taken {inner : List Char} (opened : skipSpace cs = '"' :: inner)
    (h : readValue (fuel + 1) cs = some (value, rest)) : ValueTaken cs value rest := by
  obtain ⟨space, rfl, skip⟩ := skipSpace_takes opened
  rw [readValue_string opened] at h
  obtain ⟨⟨s, rest⟩, found, pair⟩ := Option.map_eq_some_iff.mp h
  cases pair
  obtain ⟨p, rfl, again⟩ := readString_takes found
  refine valueTaken_of_any (space ++ '"' :: p) (by simp) (by simp) fun fuel ext => ?_
  have opened : skipSpace (space ++ '"' :: p ++ ext) = '"' :: (p ++ ext) := by
    simpa using skip (p ++ ext)
  rw [readValue_string opened, again, Option.map_some]

theorem number_taken {n : JsNumber} {c : Char} {inner : List Char}
    (first : skipSpace cs = c :: inner) (found : readNumber (c :: inner) = some (n, rest)) :
    ValueTaken cs (.num n) rest := by
  obtain ⟨space, rfl, skip⟩ := skipSpace_takes first
  obtain ⟨p, split, ⟨d, p', rfl, number⟩, again⟩ := readNumber_takes found
  obtain ⟨rfl, rfl⟩ := List.cons.inj split
  refine ⟨space ++ c :: p', by simp, by simp, fun fuel ext enough same => ?_⟩
  obtain ⟨fuel, rfl⟩ := Nat.exists_eq_add_of_le' (show 1 ≤ fuel by simp at enough; omega)
  have first : skipSpace (space ++ c :: p' ++ ext) = c :: (p' ++ ext) := by
    simpa using skip (p' ++ ext)
  rw [readValue_number first number, ← List.cons_append, again ext (same ⟨n, rfl⟩), Option.map_some]

/-- A literal name. -/
theorem literal_taken {c : Char} {w : List Char} (first : skipSpace cs = c :: w ++ rest)
    (reads : ∀ fuel cs ext, skipSpace cs = c :: w ++ ext →
      readValue (fuel + 1) cs = some (value, ext)) :
    ValueTaken cs value rest := by
  obtain ⟨space, rfl, skip⟩ := skipSpace_takes first
  refine valueTaken_of_any (space ++ c :: w) (by simp) (by simp) fun fuel ext => ?_
  exact reads fuel _ ext (by simpa using skip (w ++ ext))

include items_taken fields_taken in
theorem readValue_taken_step (h : readValue (fuel + 1) cs = some (value, rest)) :
    ValueTaken cs value rest := by
  have reads := h
  rw [readValue] at h
  split at h
  · next opened => exact (object_taken fields_taken opened reads).toValue
  · next opened => exact (array_taken items_taken opened reads).toValue
  · next opened => exact string_taken opened reads
  · next literal =>
      cases h
      exact literal_taken (w := ['r', 'u', 'e']) literal fun fuel cs ext is => by
        simp [readValue, is]
  · next literal =>
      cases h
      exact literal_taken (w := ['a', 'l', 's', 'e']) literal fun fuel cs ext is => by
        simp [readValue, is]
  · next literal =>
      cases h
      exact literal_taken (w := ['u', 'l', 'l']) literal fun fuel cs ext is => by
        simp [readValue, is]
  · obtain ⟨⟨n, rest⟩, found, pair⟩ := Option.map_eq_some_iff.mp h
    cases pair
    obtain ⟨p, split, ⟨c, p', rfl, -⟩, -⟩ := readNumber_takes found
    rw [List.cons_append] at split
    rw [split] at found
    exact number_taken split found

variable (value_taken : ∀ {cs value rest}, readValue fuel cs = some (value, rest) →
    ValueTaken cs value rest)

include value_taken items_taken in
theorem readItems_taken_step (h : readItems (fuel + 1) cs = some (items, rest)) :
    ListTaken readItems ']' cs items rest := by
  rw [readItems] at h
  cases head : readValue fuel cs with
  | none => simp [head] at h
  | some found =>
      obtain ⟨item, after⟩ := found
      obtain ⟨p, rfl, nonempty, again⟩ := value_taken head
      simp only [head] at h
      split at h
      · next tail next =>
          obtain ⟨space, rfl, skip⟩ := skipSpace_takes next
          obtain ⟨⟨items, rest⟩, found, pair⟩ := Option.map_eq_some_iff.mp h
          cases pair
          obtain ⟨q, rfl, more_again⟩ := items_taken found
          refine listTaken_of_any (p ++ (space ++ ',' :: q)) (by simp) fun fuel ext enough => ?_
          simp only [List.length_append, List.length_cons] at enough
          have item_read := again fuel (space ++ ',' :: (q ++ ']' :: ext)) (by omega)
            (fun _ => head?_append_congr space rfl)
          simp only [List.append_assoc, List.cons_append, readItems, item_read, skip,
            more_again fuel ext (by omega), Option.map_some]
      · next last =>
          obtain ⟨space, rfl, skip⟩ := skipSpace_takes last
          cases h
          refine listTaken_of_any (p ++ space) (by simp) fun fuel ext enough => ?_
          rw [List.length_append] at enough
          have item_read := again fuel (space ++ ']' :: ext) (by omega)
            (fun _ => head?_append_congr space rfl)
          simp only [List.append_assoc, readItems, item_read, skip]
      · exact nomatch h

include value_taken fields_taken in
theorem readFields_taken_step (h : readFields (fuel + 1) cs = some (entries, rest)) :
    ListTaken readFields '}' cs entries rest := by
  rw [readFields] at h
  split at h
  · next inner opened =>
      obtain ⟨space, rfl, skip⟩ := skipSpace_takes opened
      cases named : readString none inner with
      | none => simp [named] at h
      | some found =>
          obtain ⟨key, after⟩ := found
          obtain ⟨k, rfl, key_again⟩ := readString_takes named
          simp only [named] at h
          split at h
          · next body colon =>
              obtain ⟨gap, rfl, skip_gap⟩ := skipSpace_takes colon
              cases head : readValue fuel body with
              | none => simp [head] at h
              | some found =>
                  obtain ⟨value, after⟩ := found
                  obtain ⟨p, rfl, nonempty, again⟩ := value_taken head
                  simp only [head] at h
                  split at h
                  · next next =>
                      obtain ⟨end_gap, rfl, skip_end⟩ := skipSpace_takes next
                      obtain ⟨⟨entries, rest⟩, found, pair⟩ := Option.map_eq_some_iff.mp h
                      cases pair
                      obtain ⟨q, rfl, more_again⟩ := fields_taken found
                      refine listTaken_of_any
                        (space ++ '"' :: (k ++ (gap ++ ':' :: (p ++ (end_gap ++ ',' :: q)))))
                        (by simp) fun fuel ext enough => ?_
                      simp only [List.length_append, List.length_cons] at enough
                      have value_read := again fuel (end_gap ++ ',' :: (q ++ '}' :: ext)) (by omega)
                        (fun _ => head?_append_congr end_gap rfl)
                      simp only [List.append_assoc, List.cons_append, readFields, skip, key_again,
                        skip_gap, value_read, skip_end, more_again fuel ext (by omega),
                        Option.map_some]
                  · next last =>
                      obtain ⟨end_gap, rfl, skip_end⟩ := skipSpace_takes last
                      cases h
                      refine listTaken_of_any
                        (space ++ '"' :: (k ++ (gap ++ ':' :: (p ++ end_gap))))
                        (by simp) fun fuel ext enough => ?_
                      simp only [List.length_append, List.length_cons] at enough
                      have value_read := again fuel (end_gap ++ '}' :: ext) (by omega)
                        (fun _ => head?_append_congr end_gap rfl)
                      simp only [List.append_assoc, List.cons_append, readFields, skip, key_again,
                        skip_gap, value_read, skip_end]
                  · exact nomatch h
          · exact nomatch h
  · exact nomatch h

end Step

/-- By induction on the fuel, for values, items and fields at once. -/
theorem all_taken (fuel : Nat) :
    (∀ {cs value rest}, readValue fuel cs = some (value, rest) → ValueTaken cs value rest) ∧
    (∀ {cs items rest}, readItems fuel cs = some (items, rest) →
      ListTaken readItems ']' cs items rest) ∧
    (∀ {cs entries rest}, readFields fuel cs = some (entries, rest) →
      ListTaken readFields '}' cs entries rest) := by
  induction fuel with
  | zero =>
      refine ⟨fun h => ?_, fun h => ?_, fun h => ?_⟩
      · rw [readValue] at h
        cases h
      · rw [readItems] at h
        cases h
      · rw [readFields] at h
        cases h
  | succ fuel ih =>
      obtain ⟨values, items, fields⟩ := ih
      exact ⟨readValue_taken_step items fields, readItems_taken_step items values,
        readFields_taken_step fields values⟩

theorem readValue_taken (h : readValue fuel cs = some (value, rest)) :
    ValueTaken cs value rest :=
  (all_taken fuel).1 h

/-- Whether the value is an object shows in its first character. -/
theorem readValue_head (h : readValue fuel cs = some (value, rest)) :
    ∃ c inner, skipSpace cs = c :: inner ∧ (c = '{' ↔ ∃ fields, value = .obj fields) := by
  cases fuel with
  | zero =>
      rw [readValue] at h
      cases h
  | succ fuel =>
      rw [readValue] at h
      split at h
      · next opened =>
          refine ⟨'{', _, opened, iff_of_true rfl ?_⟩
          split at h
          · cases h
            exact ⟨_, rfl⟩
          · obtain ⟨_, -, pair⟩ := Option.map_eq_some_iff.mp h
            cases pair
            exact ⟨_, rfl⟩
      · next opened =>
          refine ⟨'[', _, opened, iff_of_false (by decide) ?_⟩
          split at h
          · cases h
            simp
          · obtain ⟨_, -, pair⟩ := Option.map_eq_some_iff.mp h
            cases pair
            simp
      · next opened =>
          obtain ⟨_, -, pair⟩ := Option.map_eq_some_iff.mp h
          cases pair
          exact ⟨'"', _, opened, iff_of_false (by decide) (by simp)⟩
      · next opened =>
          cases h
          exact ⟨'t', _, opened, iff_of_false (by decide) (by simp)⟩
      · next opened =>
          cases h
          exact ⟨'f', _, opened, iff_of_false (by decide) (by simp)⟩
      · next opened =>
          cases h
          exact ⟨'n', _, opened, iff_of_false (by decide) (by simp)⟩
      · obtain ⟨⟨n, rest⟩, found, pair⟩ := Option.map_eq_some_iff.mp h
        cases pair
        obtain ⟨p, split, ⟨c, p', rfl, number⟩, -⟩ := readNumber_takes found
        refine ⟨c, p' ++ rest, split, iff_of_false ?_ (by simp)⟩
        rintro rfl
        exact absurd number (by decide)

theorem readValue_object_taken {fields : Record}
    (h : readValue fuel cs = some (.obj fields, rest)) :
    ListTaken readValue '}' cs (.obj fields) rest := by
  obtain ⟨c, inner, opened, object⟩ := readValue_head h
  cases object.mpr ⟨fields, rfl⟩
  cases fuel with
  | zero =>
      rw [readValue] at h
      cases h
  | succ fuel => exact object_taken (all_taken fuel).2.2 opened h

end Value

section Parse

def AllSpace (cs : List Char) : Prop := ∀ c ∈ cs, isJsonSpace c = true

instance (cs : List Char) : Decidable (AllSpace cs) :=
  inferInstanceAs (Decidable (∀ c ∈ cs, isJsonSpace c = true))

theorem skipSpace_isEmpty (cs : List Char) : (skipSpace cs).isEmpty = true ↔ AllSpace cs := by
  rw [List.isEmpty_iff, skipSpace, List.dropWhile_eq_nil_iff]
  rfl

theorem jsonParse_eq_some {text : String} {value : Json} :
    jsonParse text = some value ↔
      ∃ rest, readValue (2 * text.toList.length + 2) text.toList = some (value, rest) ∧
        AllSpace rest := by
  rw [jsonParse]
  cases readValue (2 * text.toList.length + 2) text.toList with
  | none => simp
  | some found =>
      obtain ⟨found, rest⟩ := found
      by_cases spaces : AllSpace rest
      · simp [(skipSpace_isEmpty rest).mpr spaces, spaces, and_comm, eq_comm]
      · simp [mt (skipSpace_isEmpty rest).mp spaces]
        grind

theorem AllSpace.right {xs ys : List Char} (all : AllSpace (xs ++ ys)) : AllSpace ys :=
  fun c mem => all c (List.mem_append_right xs mem)

theorem AllSpace.left {xs ys : List Char} (all : AllSpace (xs ++ ys)) : AllSpace xs :=
  fun c mem => all c (List.mem_append_left ys mem)

/-- Space at the end of an object's text can be left away. -/
theorem jsonParse_trim {first later : String} {fields : Record}
    (whole : jsonParse (first ++ later) = some (.obj fields)) (spaces : AllSpace later.toList) :
    jsonParse first = some (.obj fields) := by
  obtain ⟨rest, read, rest_spaces⟩ := jsonParse_eq_some.mp whole
  obtain ⟨p, split, again⟩ := readValue_object_taken read
  rw [String.toList_append] at split
  have bracket : ¬AllSpace ('}' :: rest) := fun all =>
    absurd (all '}' List.mem_cons_self) (by decide)
  rcases List.append_eq_append_iff.mp split with ⟨mid, -, later_eq⟩ | ⟨mid, first_eq, rest_eq⟩
  · exact absurd (AllSpace.right (later_eq ▸ spaces)) bracket
  · cases mid with
    | nil => exact absurd (rest_eq ▸ spaces) bracket
    | cons c mid =>
        obtain ⟨rfl, rfl⟩ := List.cons.inj rest_eq
        refine jsonParse_eq_some.mpr ⟨mid, ?_, rest_spaces.left⟩
        rw [first_eq]
        exact again _ mid (by rw [List.length_append]; omega)

/-- Of an object's text, a part from the beginning reads as a value only where
nothing but space is left. -/
theorem jsonParse_early {first later : String} {fields : Record} {value : Json}
    (whole : jsonParse (first ++ later) = some (.obj fields)) (early : jsonParse first = some value) :
    AllSpace later.toList := by
  obtain ⟨rest, read, rest_spaces⟩ := jsonParse_eq_some.mp whole
  obtain ⟨rest', read', -⟩ := jsonParse_eq_some.mp early
  -- both begin with the same character, so the part is an object as well
  obtain ⟨c, inner, opened, is_object⟩ := readValue_head read
  obtain ⟨c', inner', opened', is_object'⟩ := readValue_head read'
  obtain ⟨space, split, skip⟩ := skipSpace_takes opened'
  rw [String.toList_append, split, List.append_assoc, List.cons_append, skip] at opened
  obtain ⟨rfl, -⟩ := List.cons.inj opened
  obtain ⟨fields', rfl⟩ := is_object'.mp (is_object.mpr ⟨fields, rfl⟩)
  obtain ⟨p, first_eq, again⟩ := readValue_object_taken read'
  have text : (first ++ later).toList = p ++ '}' :: (rest' ++ later.toList) := by
    rw [String.toList_append, first_eq, List.append_assoc, List.cons_append]
  rw [text, again _ _ (by rw [List.length_append]; omega)] at read
  cases read
  exact rest_spaces.right

end Parse

end Gateway
