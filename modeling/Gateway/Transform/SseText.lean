import Gateway.Transform.SseRoundTrip
import Gateway.Util.JsonRoundTrip

/-!
JSON as the data of an event.

The text of a value is on one line and begins and ends with something else than space, so it is
framed, read and trimmed without a change.
-/

namespace Gateway

namespace Units

/-- The characters that units stand for; half a pair alone stands for none. -/
def characters : Units → Option (List Char)
  | [] => some []
  | [u] => if isHigh u || isLow u then none else some [Char.ofNat u.toNat]
  | u :: v :: rest =>
      if isHigh u then
        if isLow v then (characters rest).map (pairChar u.toNat v.toNat :: ·) else none
      else if isLow u then none
      else (characters (v :: rest)).map (Char.ofNat u.toNat :: ·)

def text (s : Units) : Option String := (characters s).map String.ofList

theorem characters_cons {u : UInt16} (alone : isHigh u = false ∧ isLow u = false) (rest : Units) :
    characters (u :: rest) = (characters rest).map (Char.ofNat u.toNat :: ·) := by
  cases rest with
  | nil => simp [characters, alone.1, alone.2]
  | cons v rest => rw [characters, alone.1, alone.2]; rfl

theorem characters_ofChar (c : Char) (rest : Units) :
    characters (ofChar c ++ rest) = (characters rest).map (c :: ·) := by
  have range := toNat_of_char c
  rw [ofChar]
  split
  · next small =>
      have unit : (UInt16.ofNat c.toNat).toNat = c.toNat := by
        rw [UInt16.toNat_ofNat', Nat.mod_eq_of_lt small]
      rw [List.singleton_append, characters_cons, unit, Char.ofNat_toNat]
      rw [isHigh, isLow, unit, isHighSurrogate, isLowSurrogate, decide_eq_false_iff_not,
        decide_eq_false_iff_not]
      omega
  · next large =>
      have high : (UInt16.ofNat (0xD800 + (c.toNat - 0x10000) / 0x400)).toNat =
          0xD800 + (c.toNat - 0x10000) / 0x400 := by
        rw [UInt16.toNat_ofNat', Nat.mod_eq_of_lt (by omega)]
      have low : (UInt16.ofNat (0xDC00 + (c.toNat - 0x10000) % 0x400)).toNat =
          0xDC00 + (c.toNat - 0x10000) % 0x400 := by
        rw [UInt16.toNat_ofNat', Nat.mod_eq_of_lt (by omega)]
      have pair : pairChar (0xD800 + (c.toNat - 0x10000) / 0x400)
          (0xDC00 + (c.toNat - 0x10000) % 0x400) = c := by
        rw [pairChar, show 0x10000 + (0xD800 + (c.toNat - 0x10000) / 0x400 - 0xD800) * 0x400 +
          (0xDC00 + (c.toNat - 0x10000) % 0x400 - 0xDC00) = c.toNat by omega, Char.ofNat_toNat]
      rw [List.cons_append, List.singleton_append, characters, if_pos, if_pos, high, low, pair]
      · rw [isLow, low, isLowSurrogate, decide_eq_true_eq]
        omega
      · rw [isHigh, high, isHighSurrogate, decide_eq_true_eq]
        omega

theorem text_ofString (s : String) : text (ofString s) = some s := by
  have chars (cs : List Char) : characters (cs.flatMap ofChar) = some cs := by
    induction cs with
    | nil => rfl
    | cons c cs ih => rw [List.flatMap_cons, characters_ofChar, ih, Option.map_some]
  rw [text, ofString, chars, Option.map_some, String.ofList_toList]

end Units

section Written

/-- A character that is neither a line terminator nor another control. -/
def Visible (c : Char) : Prop := 32 ≤ c.toNat

theorem visible_escapeChar (c : Char) : ∀ d ∈ escapeChar c, Visible d := by
  have digit {n : Nat} (small : n < 16) : Visible (hexDigit n) := by
    have all : ∀ n < 16, 32 ≤ (hexDigit n).toNat := by decide
    exact all n small
  rw [escapeChar]
  split
  · simp [Visible]
  · split
    · simp [Visible]
    · iterate 5 (split; · simp [Visible])
      split
      · next control =>
          have high : Visible (hexDigit (c.toNat / 16)) := digit (by omega)
          have low : Visible (hexDigit (c.toNat % 16)) := digit (by omega)
          simp [Visible] at high low ⊢
          exact ⟨high, low⟩
      · next high =>
          simp only [List.forall_mem_singleton]
          exact not_lt.mp high

theorem visible_quote (s : String) : ∀ c ∈ quote s, Visible c := by
  intro c mem
  rcases List.mem_cons.mp mem with rfl | mem
  · exact (by decide : 32 ≤ '"'.toNat)
  · rcases List.mem_append.mp mem with mem | mem
    · obtain ⟨d, -, escaped⟩ := List.mem_flatMap.mp mem
      exact visible_escapeChar d c escaped
    · exact List.mem_singleton.mp mem ▸ (by decide : 32 ≤ '"'.toNat)

theorem areDigits_significand (m places : Nat) : AreDigits (significand m places).1 := by
  intro c mem
  have kept := List.mem_reverse.mp mem
  exact areDigits_toDigits m c (List.mem_reverse.mp ((List.dropWhile_sublist _).mem kept))

/-- The characters of a number are those of a number, or of `null`. -/
theorem isNumberChar_text (q : ℚ) :
    (∀ c ∈ numberText q, isNumberChar c = true) ∨ numberText q = "null".toList := by
  rw [numberText]
  split
  · exact .inl fun c mem => List.mem_singleton.mp mem ▸ rfl
  · split
    · exact .inr rfl
    · next places found =>
        refine .inl fun c mem => ?_
        rcases List.mem_append.mp mem with mem | mem
        · split at mem
          · exact List.mem_singleton.mp mem ▸ rfl
          · cases mem
        · exact isNumberChar_positiveText (areDigits_significand _ places) c mem

theorem visible_numberText (q : ℚ) : ∀ c ∈ numberText q, Visible c := by
  rcases isNumberChar_text q with number | null
  · intro c mem
    have range := isNumberChar_range (number c mem)
    exact le_trans (by omega) range.1
  · rw [null]
    simp [Visible]

theorem visible_bracketed {opening closing : Char} {cs : List Char} (first : Visible opening)
    (inner : ∀ c ∈ cs, Visible c) (last : Visible closing) :
    ∀ c ∈ opening :: (cs ++ [closing]), Visible c := by
  intro c mem
  rcases List.mem_cons.mp mem with rfl | mem
  · exact first
  · rcases List.mem_append.mp mem with mem | mem
    · exact inner c mem
    · exact List.mem_singleton.mp mem ▸ last

mutual

theorem visible_valueText : (value : Json) → ∀ c ∈ valueText value, Visible c
  | .null | .bool true | .bool false => by simp [valueText, Visible]
  | .num (.finite q) => visible_numberText q
  | .num .nan | .num .infinity | .num .negInfinity => by simp [valueText, Visible]
  | .str s => visible_quote s
  | .arr items => visible_bracketed (by simp [Visible]) (visible_itemsText items) (by simp [Visible])
  | .obj fields => visible_bracketed (by simp [Visible]) (visible_fieldsText fields) (by simp [Visible])

theorem visible_itemsText : (items : List Json) → ∀ c ∈ itemsText items, Visible c
  | [] => List.forall_mem_nil _
  | [item] => visible_valueText item
  | item :: next :: rest => by
      rw [itemsText_cons]
      simp only [List.forall_mem_append, List.forall_mem_cons]
      exact ⟨visible_valueText item, by simp [Visible], visible_itemsText (next :: rest)⟩

theorem visible_fieldsText : (fields : List (String × Json)) → ∀ c ∈ fieldsText fields, Visible c
  | [] => List.forall_mem_nil _
  | [(key, value)] => by
      rw [fieldsText]
      simp only [List.forall_mem_append, List.forall_mem_cons]
      exact ⟨visible_quote key, by simp [Visible], visible_valueText value⟩
  | (key, value) :: (name, other) :: rest => by
      rw [fieldsText_cons]
      simp only [List.forall_mem_append, List.forall_mem_cons]
      exact ⟨visible_quote key, by simp [Visible], visible_valueText value, by simp [Visible],
        visible_fieldsText ((name, other) :: rest)⟩

end

theorem jsTrim_of_ends {first last : Char} {inner : List Char} (opens : isJsSpace first = false)
    (closes : isJsSpace last = false) :
    jsTrim (String.ofList (first :: (inner ++ [last]))) =
      String.ofList (first :: (inner ++ [last])) := by
  have back : (first :: (inner ++ [last])).reverse = last :: (inner.reverse ++ [first]) := by simp
  rw [jsTrim, String.toList_ofList, List.dropWhile_cons_of_neg (by simp [opens]), back,
    List.dropWhile_cons_of_neg (by simp [closes]), ← back, List.reverse_reverse]

theorem jsTrim_of_solid {cs : List Char} (solid : ∀ c ∈ cs, isJsSpace c = false) :
    jsTrim (String.ofList cs) = String.ofList cs := by
  have kept {list : List Char} (solid : ∀ c ∈ list, isJsSpace c = false) :
      list.dropWhile isJsSpace = list := by
    cases list with
    | nil => rfl
    | cons c rest => exact List.dropWhile_cons_of_neg (by simp [solid c List.mem_cons_self])
  rw [jsTrim, String.toList_ofList, kept solid,
    kept fun c mem => solid c (List.mem_reverse.mp mem), List.reverse_reverse]

/-- The text of a value neither begins nor ends with space. -/
theorem jsTrim_jsonStringify (value : Json) :
    jsTrim (jsonStringify value) = jsonStringify value := by
  have null : ∀ c ∈ "null".toList, isJsSpace c = false := by simp [isJsSpace]
  cases value with
  | null => exact jsTrim_of_solid null
  | bool b => cases b <;> exact jsTrim_of_solid (by simp [valueText, isJsSpace])
  | num n =>
      cases n with
      | finite q =>
          refine jsTrim_of_solid fun c mem => ?_
          rcases isNumberChar_text q with number | written
          · exact not_isJsSpace (number c mem)
          · exact null c (written ▸ mem)
      | _ => exact jsTrim_of_solid null
  | str s => exact jsTrim_of_ends (by decide) (by decide)
  | arr items => exact jsTrim_of_ends (by decide) (by decide)
  | obj fields => exact jsTrim_of_ends (by decide) (by decide)

mutual

theorem clean_of_lasting : (value : Json) → value.Lasting → value.Clean
  | .null, _ | .bool _, _ | .num _, _ | .str _, _ => trivial
  | .arr items, lasting => itemsClean_of_lasting items lasting
  | .obj fields, lasting => fieldsClean_of_lasting fields lasting

theorem itemsClean_of_lasting : (items : List Json) → Json.ItemsLasting items →
    Json.ItemsClean items
  | [], _ => trivial
  | item :: rest, lasting =>
      ⟨clean_of_lasting item lasting.1, itemsClean_of_lasting rest lasting.2⟩

theorem fieldsClean_of_lasting : (fields : List (String × Json)) → Json.FieldsLasting fields →
    Json.FieldsClean fields
  | [], _ => trivial
  | (_, value) :: rest, lasting =>
      ⟨lasting.1, clean_of_lasting value lasting.2.1, fieldsClean_of_lasting rest lasting.2.2⟩

end

end Written

namespace Sse

theorem normalise_of_no_cr {s : Units} (free : ∀ u ∈ s, u ≠ cr) : normalise s = s := by
  fun_induction normalise s with
  | case1 => rfl
  | case2 u => rw [if_neg (free u List.mem_cons_self)]
  | case3 u v rest both ih => exact absurd both.1 (free u List.mem_cons_self)
  | case4 u v rest both ih =>
      rw [if_neg (free u List.mem_cons_self), ih fun x mem => free x (List.mem_cons_of_mem u mem)]

theorem units_of_visible {s : String} (visible : ∀ c ∈ s.toList, Visible c) :
    ∀ u ∈ Units.ofString s, u ≠ cr := by
  have apart {n : Nat} (other : n ≠ 13) (small : n < 0x10000) : cr ≠ UInt16.ofNat n := fun same => by
    have value := congrArg UInt16.toNat same
    rw [UInt16.toNat_ofNat', Nat.mod_eq_of_lt small] at value
    exact other value.symm
  intro u mem
  obtain ⟨c, listed, unit⟩ := List.mem_flatMap.mp mem
  have seen : 32 ≤ c.toNat := visible c listed
  have range := Units.toNat_of_char c
  rintro rfl
  rw [Units.ofChar] at unit
  split at unit
  · next small => exact apart (by omega) small (List.mem_singleton.mp unit)
  · simp only [List.mem_cons, List.not_mem_nil, or_false] at unit
    rcases unit with same | same
    · exact apart (by omega) (by omega) same
    · exact apart (by omega) (by omega) same

/-- The text of a value arrives as it was sent. -/
theorem normalise_json (value : Json) :
    normalise (Units.ofString (jsonStringify value)) = Units.ofString (jsonStringify value) := by
  refine normalise_of_no_cr (units_of_visible fun c mem => visible_valueText value c ?_)
  rwa [jsonStringify, String.toList_ofList] at mem

end Sse

end Gateway
