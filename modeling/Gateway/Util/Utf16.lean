import Gateway.Util.JsonText

/-!
Strings of the language as they are: lists of UTF-16 code units, in which half a
surrogate pair may stand alone.

Streams are cut between any two units, so the framing of a stream is modelled on
these and not on characters.
-/

namespace Gateway

abbrev Units := List UInt16

namespace Units

def ofChar (c : Char) : Units :=
  let n := c.toNat
  if n < 0x10000 then [UInt16.ofNat n]
  else [UInt16.ofNat (0xD800 + (n - 0x10000) / 0x400), UInt16.ofNat (0xDC00 + (n - 0x10000) % 0x400)]

def ofString (s : String) : Units := s.toList.flatMap ofChar

theorem toNat_of_char (c : Char) :
    c.toNat < 0x110000 ∧ ¬(0xD800 ≤ c.toNat ∧ c.toNat < 0xE000) := by
  have valid := c.valid
  unfold UInt32.isValidChar Nat.isValidChar at valid
  have same : c.toNat = c.val.toNat := rfl
  omega

/-- The units at the start of a text tell its first character. -/
theorem ofChar_append_inj {c d : Char} {xs ys : Units} (same : ofChar c ++ xs = ofChar d ++ ys) :
    c = d ∧ xs = ys := by
  have of_c := toNat_of_char c
  have of_d := toNat_of_char d
  simp only [ofChar] at same
  split at same <;> split at same
  all_goals
    simp only [List.cons_append, List.nil_append, List.cons.injEq, ← UInt16.toNat_inj,
      UInt16.toNat_ofNat'] at same
  · refine ⟨Char.toNat_inj.mp ?_, same.2⟩
    omega
  · omega
  · omega
  · refine ⟨Char.toNat_inj.mp ?_, same.2.2⟩
    omega

theorem ofChar_ne_nil (c : Char) : ofChar c ≠ [] := by
  rw [ofChar]
  split
  · exact List.cons_ne_nil _ _
  · exact List.cons_ne_nil _ _

theorem ofString_inj {s t : String} (same : ofString s = ofString t) : s = t := by
  have chars : ∀ cs ds : List Char, cs.flatMap ofChar = ds.flatMap ofChar → cs = ds := by
    intro cs
    induction cs with
    | nil =>
        intro ds same
        cases ds with
        | nil => rfl
        | cons d ds =>
            rw [List.flatMap_cons] at same
            exact absurd (List.append_eq_nil_iff.mp same.symm).1 (ofChar_ne_nil d)
    | cons c cs ih =>
        intro ds same
        cases ds with
        | nil =>
            rw [List.flatMap_cons] at same
            exact absurd (List.append_eq_nil_iff.mp same).1 (ofChar_ne_nil c)
        | cons d ds =>
            rw [List.flatMap_cons, List.flatMap_cons] at same
            obtain ⟨head, tail⟩ := ofChar_append_inj same
            rw [head, ih ds tail]
  exact String.toList_inj.mp (chars s.toList t.toList same)

/-- The characters of a string without surrogates; a surrogate becomes a control
character. -/
def toText (s : Units) : String := String.ofList (s.map fun u => Char.ofNat u.toNat)

def isHigh (u : UInt16) : Bool := isHighSurrogate u.toNat

def isLow (u : UInt16) : Bool := isLowSurrogate u.toNat

/-- The bytes of a unit on its own; half a pair counts as the replacement character. -/
def unitBytes (u : UInt16) : Nat :=
  if u.toNat < 0x80 then 1 else if u.toNat < 0x800 then 2 else 3

/-- `Buffer.byteLength(s, "utf8")` -/
def byteLength : Units → Nat
  | [] => 0
  | [u] => unitBytes u
  | u :: v :: rest =>
      if isHigh u && isLow v then 4 + byteLength rest else unitBytes u + byteLength (v :: rest)

@[simp]
theorem byteLength_nil : byteLength [] = 0 := rfl

theorem unitBytes_le (u : UInt16) : unitBytes u ≤ 3 := by
  unfold unitBytes
  split
  · omega
  · split <;> omega

/-- A cut can only lose bytes, also inside a pair. -/
theorem byteLength_le_append (s t : Units) : byteLength s ≤ byteLength (s ++ t) := by
  induction s using byteLength.induct with
  | case1 => exact Nat.zero_le _
  | case2 u =>
      cases t with
      | nil => exact Nat.le_refl _
      | cons v t =>
          have := unitBytes_le u
          simp only [List.singleton_append, byteLength]
          split <;> omega
  | case3 u v rest pair ih =>
      simp only [List.cons_append, byteLength, if_pos pair]
      omega
  | case4 u v rest pair ih =>
      simp only [List.cons_append, byteLength, if_neg pair] at ih ⊢
      omega

theorem surrogate_bytes {u : UInt16} (h : isHigh u = true ∨ isLow u = true) : unitBytes u = 3 := by
  simp only [isHigh, isHighSurrogate, isLow, isLowSurrogate, decide_eq_true_eq] at h
  rw [unitBytes, if_neg (by omega), if_neg (by omega)]

theorem not_high_of_low {u : UInt16} (low : isLow u = true) : isHigh u = false := by
  simp only [isLow, isLowSurrogate, decide_eq_true_eq] at low
  simp only [isHigh, isHighSurrogate, decide_eq_false_iff_not]
  omega

theorem byteLength_low {u : UInt16} (low : isLow u = true) (s : Units) :
    byteLength (u :: s) = 3 + byteLength s := by
  have three := surrogate_bytes (.inr low)
  cases s with
  | nil => exact three
  | cons v rest =>
      rw [byteLength.eq_def]
      simp only [not_high_of_low low, Bool.false_and, Bool.false_eq_true, if_false, three]

/-- A unit adds its own bytes, or completes a pair. -/
theorem byteLength_cons (u : UInt16) (s : Units) :
    byteLength (u :: s) = unitBytes u + byteLength s ∨
      byteLength (u :: s) + 2 = unitBytes u + byteLength s ∧ unitBytes u = 3 := by
  cases s with
  | nil => exact .inl rfl
  | cons v rest =>
      by_cases pair : (isHigh u && isLow v) = true
      · obtain ⟨high, low⟩ := Bool.and_eq_true_iff.mp pair
        have three := surrogate_bytes (.inl high)
        rw [byteLength_low low, three, byteLength, if_pos pair]
        omega
      · rw [byteLength, if_neg pair]
        exact .inl rfl

theorem byteLength_le_cons (u : UInt16) (s : Units) : byteLength s ≤ byteLength (u :: s) := by
  have := byteLength_cons u s
  omega

theorem byteLength_suffix_le {s t : Units} (h : s <:+ t) : byteLength s ≤ byteLength t := by
  obtain ⟨front, rfl⟩ := h
  induction front with
  | nil => exact Nat.le_refl _
  | cons u front ih => exact ih.trans (byteLength_le_cons u _)

/-- Two texts put together have no more bytes than the two: halves of a pair may meet. -/
theorem byteLength_append_le (s t : Units) :
    byteLength (s ++ t) ≤ byteLength s + byteLength t := by
  induction s using byteLength.induct with
  | case1 => exact (Nat.zero_add _).ge
  | case2 u =>
      have joined := byteLength_cons u t
      rw [List.singleton_append, byteLength]
      omega
  | case3 u v rest pair ih =>
      simp only [List.cons_append, byteLength, if_pos pair]
      omega
  | case4 u v rest pair ih =>
      simp only [List.cons_append, byteLength, if_neg pair] at ih ⊢
      omega

end Units

end Gateway
