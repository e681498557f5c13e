import Gateway.Upstream.HostLiteral

/-!
Texts whose host the guard and the parser read alike.

A plain text begins with its scheme, two slashes and an authority of letters, digits
and a few marks, and the last label of its host is written out. In such a text the
guard finds every host that the parser reads as a number.
-/

namespace Gateway.Upstream

section Labels

theorem splitOn_map {f : Char → Char} {mark : Char} (marks : ∀ c, f c = mark ↔ c = mark)
    (text : List Char) : (text.map f).splitOn mark = (text.splitOn mark).map (List.map f) := by
  induction text with
  | nil => rfl
  | cons c text ih =>
      have head (parts : List (List Char)) :
          (parts.map (List.map f)).modifyHead (f c :: ·) =
            (parts.modifyHead (c :: ·)).map (List.map f) := by
        cases parts with
        | nil => rfl
        | cons part parts => rfl
      rw [List.map_cons, List.splitOn_cons_eq_if_modifyHead, List.splitOn_cons_eq_if_modifyHead, ih]
      by_cases here : c = mark
      · rw [if_pos (beq_iff_eq.mpr here), if_pos (beq_iff_eq.mpr ((marks c).mpr here))]
        rfl
      · rw [if_neg (by rwa [beq_iff_eq, marks]), if_neg (by rwa [beq_iff_eq])]
        exact head _

/-- What holds of a character and its lower case, as far as ASCII has it. -/
theorem of_toLower {P : Char → Char → Prop} (same : ∀ c, c.toLower = c → P c c)
    (ascii : ∀ n : Fin 128, P (Char.ofNat n) (Char.ofNat n).toLower) (c : Char) :
    P c c.toLower := by
  by_cases small : c.toNat < 128
  · have char : Char.ofNat c.toNat = c := Char.ofNat_toNat c
    have here := ascii ⟨c.toNat, small⟩
    dsimp only at here
    rwa [char] at here
  · have unchanged : c.toLower = c := by
      unfold Char.toLower
      refine dif_neg fun both => small ?_
      have high : c.val.toNat ≤ 'Z'.val.toNat := UInt32.le_iff_toNat_le.mp both.2
      exact Nat.lt_of_le_of_lt high (by decide)
    rw [unchanged]
    exact same c unchanged

theorem isDigit_of_toLower (c : Char) : c.toLower.isDigit = true → c.isDigit = true :=
  @of_toLower (fun c d => d.isDigit = true → c.isDigit = true) (fun _ _ digit => digit)
    (by decide +kernel) c

theorem isHex_of_toLower (c : Char) : IsHex c.toLower → IsHex c :=
  @of_toLower (fun c d => IsHex d → IsHex c) (fun _ _ hex => hex) (by decide +kernel) c

theorem toLower_toLower (c : Char) : c.toLower.toLower = c.toLower :=
  @of_toLower (fun _ d => d.toLower = d) (fun _ same => same) (by decide +kernel) c

theorem toLower_eq_point (c : Char) : c.toLower = '.' ↔ c = '.' :=
  @of_toLower (fun c d => d = '.' ↔ c = '.') (fun _ _ => Iff.rfl) (by decide +kernel) c

theorem isDigit_of_value {c : Char} {d : Nat} (value : hexValue c = some d) (small : d < 10) :
    c.isDigit = true := by
  rw [hexValue] at value
  split at value
  · next digit => exact digit
  · split at value
    · rw [← Option.some.inj value] at small
      omega
    · split at value
      · rw [← Option.some.inj value] at small
        omega
      · cases value

theorem isDigit_of_values {text : List Char} {values : List Nat} {radix : Nat}
    (read : text.mapM hexValue = some values) (small : values.all (· < radix) = true)
    (ten : radix ≤ 10) : ∀ c ∈ text, c.isDigit = true := by
  induction text generalizing values with
  | nil => exact fun c mem => absurd mem List.not_mem_nil
  | cons c text ih =>
      obtain ⟨d, rest, first, later, rfl⟩ := mapM_cons_eq_some.mp read
      rw [List.all_cons, Bool.and_eq_true, decide_eq_true_eq] at small
      exact List.forall_mem_cons.mpr
        ⟨isDigit_of_value first (Nat.lt_of_lt_of_le small.1 ten), ih later small.2⟩

theorem isHex_of_values {text : List Char} {values : List Nat}
    (read : text.mapM hexValue = some values) : ∀ c ∈ text, IsHex c := by
  induction text generalizing values with
  | nil => exact fun c mem => absurd mem List.not_mem_nil
  | cons c text ih =>
      obtain ⟨d, rest, first, later, rfl⟩ := mapM_cons_eq_some.mp read
      exact List.forall_mem_cons.mpr ⟨Option.isSome_iff_exists.mpr ⟨d, first⟩, ih later⟩

/-- Decimal digits have their values, and no letter marks a radix before them. -/
theorem mapM_digits {label : List Char} (digits : ∀ c ∈ label, c.isDigit = true) :
    label.mapM hexValue = some (label.map fun c => c.toNat - '0'.toNat) := by
  induction label with
  | nil => rfl
  | cons c label ih =>
      obtain ⟨first, rest⟩ := List.forall_mem_cons.mp digits
      have value : hexValue c = some (c.toNat - '0'.toNat) := if_pos first
      exact mapM_cons_eq_some.mpr ⟨_, _, value, ih rest, rfl⟩

theorem not_hex_marked {label : List Char} (digits : ∀ c ∈ label, c.isDigit = true) :
    (label.take 2).map Char.toLower ≠ ['0', 'x'] := by
  intro marked
  have letter : 'x' ∈ (label.take 2).map Char.toLower := by
    rw [marked]
    exact List.mem_cons_of_mem _ List.mem_cons_self
  obtain ⟨c, mem, lower⟩ := List.mem_map.mp letter
  have digit := digits c (List.mem_of_mem_take mem)
  rw [toLower_digit_or_point (.inl digit)] at lower
  rw [lower] at digit
  cases digit

/-- A plain decimal label is the text of its value. -/
theorem plainLabel_value {label : List Char} (plain : isPlainV4Label label = true) :
    (∀ c ∈ label, c.isDigit = true) ∧ Nat.toDigits 10 (decimalValue label) = label ∧
      parseIpv4Number label = some (decimalValue label) := by
  have shape : (∀ c ∈ label, c.isDigit = true) ∧ label ≠ [] ∧
      (1 < label.length → label.head? ≠ some '0') := by
    simp only [isPlainV4Label, Bool.or_eq_true, Bool.and_eq_true, decide_eq_true_eq,
      List.all_eq_true] at plain
    rcases plain with rfl | ⟨⟨⟨nonempty, -⟩, digits⟩, head⟩
    · exact ⟨List.forall_mem_singleton.mpr rfl, List.cons_ne_nil _ _,
        fun longer => absurd longer (by decide)⟩
    · exact ⟨digits, nonempty, fun _ => head⟩
  obtain ⟨digits, nonempty, head⟩ := shape
  have small (c : Char) (mem : c ∈ label) : c.toNat - '0'.toNat < 10 :=
    (digitChar_of_isDigit (digits c mem)).1
  refine ⟨digits, toDigits_decimalValue digits nonempty head, ?_⟩
  rw [parseIpv4Number, if_neg (not_hex_marked digits), if_neg fun both => head both.1 both.2]
  dsimp only
  rw [if_neg nonempty, mapM_digits digits]
  dsimp only
  rw [if_pos (by simpa using small), List.foldl_map]
  rfl

/-- The digits of a number, after the mark of its radix. -/
theorem parseIpv4Number_eq_some {part : List Char} {n : Nat}
    (read : parseIpv4Number part = some n) :
    ∃ radix digits values,
      ((part.take 2).map Char.toLower = ['0', 'x'] ∧ radix = 16 ∧ digits = part.drop 2 ∨
        (radix ≤ 10 ∧ part.head? = some '0') ∧ digits = part.drop 1 ∨
        radix ≤ 10 ∧ digits = part) ∧
      digits.mapM hexValue = some values ∧ values.all (· < radix) = true := by
  rw [parseIpv4Number] at read
  split at read
  next radix digits cut =>
    have found : ∃ values, digits.mapM hexValue = some values ∧
        values.all (· < radix) = true := by
      split at read
      · cases read
      · split at read
        · cases read
        · next values given =>
            split at read
            · next small => exact ⟨values, given, small⟩
            · cases read
    obtain ⟨values, given, small⟩ := found
    refine ⟨radix, digits, values, ?_, given, small⟩
    split at cut
    · next marked =>
        obtain ⟨rfl, rfl⟩ := Prod.mk.inj cut
        exact .inl ⟨marked, rfl, rfl⟩
    · split at cut
      · next octal =>
          obtain ⟨rfl, rfl⟩ := Prod.mk.inj cut
          exact .inr (.inl ⟨⟨by decide, octal.2⟩, rfl⟩)
      · obtain ⟨rfl, rfl⟩ := Prod.mk.inj cut
        exact .inr (.inr ⟨Nat.le_refl 10, rfl⟩)

/-- A label that the parser reads as a number is numeric for the guard, but for a bare `0x`. -/
theorem numeric_of_number {label : List Char} (nonempty : label ≠ [])
    (bare : label.map Char.toLower ≠ ['0', 'x'])
    (number : ((label.map Char.toLower).all Char.isDigit ||
      (parseIpv4Number (label.map Char.toLower)).isSome) = true) :
    isNumericLabel label = true := by
  have of_digits (digits : ∀ c ∈ label.map Char.toLower, c.isDigit = true) :
      isNumericLabel label = true := by
    have all : label.all Char.isDigit = true := List.all_eq_true.mpr fun c mem =>
      isDigit_of_toLower c (digits _ (List.mem_map_of_mem mem))
    rw [isNumericLabel, decide_eq_true nonempty, all]
    rfl
  rcases Bool.or_eq_true_iff.mp number with digits | parsed
  · exact of_digits (List.all_eq_true.mp digits)
  · obtain ⟨n, read⟩ := Option.isSome_iff_exists.mp parsed
    obtain ⟨radix, digits, values, cut, given, small⟩ := parseIpv4Number_eq_some read
    rcases cut with ⟨marked, -, rfl⟩ | ⟨eight, rfl⟩ | ⟨ten, rfl⟩
    · have hex : (label.take 2).map Char.toLower = ['0', 'x'] := by
        rw [← List.map_take, List.map_map] at marked
        rw [← marked]
        exact List.map_congr_left fun c _ => (toLower_toLower c).symm
      have length : 2 < label.length := by
        have two := congrArg List.length hex
        rw [List.length_map, List.length_take] at two
        by_contra short
        refine bare ?_
        rwa [List.take_of_length_le (Nat.le_of_not_lt short)] at hex
      have rest : (label.drop 2).all fun c => (hexValue c).isSome := by
        refine List.all_eq_true.mpr fun c mem => isHex_of_toLower c (isHex_of_values given _ ?_)
        rw [← List.map_drop]
        exact List.mem_map_of_mem mem
      rw [isNumericLabel, hex, rest, decide_eq_true length]
      simp
    · have digits := isDigit_of_values given small eight.1
      refine of_digits ?_
      cases lower : label.map Char.toLower with
      | nil => exact fun c mem => absurd mem List.not_mem_nil
      | cons c rest =>
          rw [lower] at eight digits
          obtain rfl : c = '0' := Option.some.inj eight.2
          exact List.forall_mem_cons.mpr ⟨rfl, digits⟩
    · exact of_digits (isDigit_of_values given small ten)

theorem ipv4Bytes_of_parts {a b c d : Nat} (ha : a ≤ 255) (hb : b ≤ 255) (hc : c ≤ 255)
    (hd : d ≤ 255) :
    ipv4Bytes (d + (a * 256 ^ 3 + (b * 256 ^ 2 + (c * 256 ^ 1 + 0)))) = [a, b, c, d] := by
  simp only [ipv4Bytes, List.cons.injEq, and_true]
  omega

theorem mapM_plain {labels : List (List Char)}
    (plain : ∀ label ∈ labels, isPlainV4Label label = true) :
    labels.mapM parseIpv4Number = some (labels.map decimalValue) := by
  induction labels with
  | nil => rfl
  | cons label labels ih =>
      obtain ⟨first, rest⟩ := List.forall_mem_cons.mp plain
      exact mapM_cons_eq_some.mpr ⟨_, _, (plainLabel_value first).2.2, ih rest, rfl⟩

/-- Four plain labels that are read as an address are its dotted quad. -/
theorem serialize_of_plain {text : List Char} {n : Nat} (four : (text.splitOn '.').length = 4)
    (plain : ∀ label ∈ text.splitOn '.', isPlainV4Label label = true)
    (parsed : parseIpv4Host text = some n) : text = serializeIpv4 n := by
  have whole : ['.'].intercalate (text.splitOn '.') = text := List.intercalate_splitOn '.'
  have ended : (text.splitOn '.').getLast? ≠ some [] := by
    intro last
    exact absurd (plain [] (List.mem_of_getLast? last)) (by decide)
  have parts : hostParts text = text.splitOn '.' := if_neg fun both => ended both.1
  rw [parseIpv4Host, parts, mapM_plain plain] at parsed
  dsimp only at parsed
  generalize text.splitOn '.' = labels at four plain whole parsed
  obtain ⟨first, second, third, last, rfl⟩ := List.length_eq_four.mp four
  simp only [List.forall_mem_cons] at plain
  obtain ⟨ha, hb, hc, hd, -⟩ := plain
  rw [four, if_neg (Nat.lt_irrefl 4)] at parsed
  split at parsed
  · cases parsed
  · next small =>
      split at parsed
      · cases parsed
      · next fits =>
          have bounds : decimalValue first ≤ 255 ∧ decimalValue second ≤ 255 ∧
              decimalValue third ≤ 255 := by simpa using small
          have total : n = decimalValue last + (decimalValue first * 256 ^ 3 +
              (decimalValue second * 256 ^ 2 + (decimalValue third * 256 ^ 1 + 0))) :=
            (Option.some.inj parsed).symm
          have byte : decimalValue last ≤ 255 := Nat.le_of_lt_succ (Nat.lt_of_not_le fits)
          rw [← whole, total, serializeIpv4,
            ipv4Bytes_of_parts bounds.1 bounds.2.1 bounds.2.2 byte, List.map_cons, List.map_cons,
            List.map_cons, List.map_singleton, (plainLabel_value ha).2.1,
            (plainLabel_value hb).2.1, (plainLabel_value hc).2.1, (plainLabel_value hd).2.1]

end Labels

section Plain

/-- Letters, digits, and the marks that stand in a plain authority. -/
def isPlainChar (c : Char) : Bool := c.isAlphanum || "+-._~:@".toList.contains c

/-- The host that the guard finds in an authority. -/
def foundHost (authority : List Char) : List Char := beforeLast ':' (afterLast '@' authority)

structure PlainlyWritten (raw : String) (authority : List Char) : Prop where
  found : matchAuthority raw.toList = some authority
  nonempty : authority ≠ []
  plain : ∀ c ∈ authority, isPlainChar c = true
  /-- the host ends in no point -/
  ended : ((foundHost authority).splitOn '.').getLastD [] ≠ []
  bare : (((foundHost authority).splitOn '.').getLastD []).map Char.toLower ≠ ['0', 'x']

/-- The tables map a plain text to its lower case, if they map it. -/
def Lowers (tables : UrlTables) : Prop :=
  ∀ text ascii, (∀ c ∈ text, isPlainChar c = true) → tables.domainToAscii text = some ascii →
    ascii = text.map Char.toLower

theorem isPlainChar_spec {c : Char} (plain : isPlainChar c = true) :
    isC0OrSpace c = false ∧ isTabOrNewline c = false ∧ endsAuthority c = false ∧ c ≠ '[' ∧
      c ≠ ']' := by
  have all : ∀ n : Fin 128, isPlainChar (Char.ofNat n) = true →
      isC0OrSpace (Char.ofNat n) = false ∧ isTabOrNewline (Char.ofNat n) = false ∧
        endsAuthority (Char.ofNat n) = false ∧ Char.ofNat n ≠ '[' ∧ Char.ofNat n ≠ ']' := by
    decide +kernel
  have small : c.toNat < 128 := by
    rcases Bool.or_eq_true_iff.mp plain with letter | mark
    · exact small_of_isAlphanum letter
    · have marks : "+-._~:@".toList.all (·.toNat < 128) = true := by decide +kernel
      exact of_decide_eq_true (List.all_eq_true.mp marks c (List.contains_iff_mem.mp mark))
  have char : Char.ofNat c.toNat = c := Char.ofNat_toNat c
  have here := all ⟨c.toNat, small⟩
  dsimp only at here
  rw [char] at here
  exact here plain

variable {raw : String} {authority : List Char}

/-- Controls and spaces are stripped behind a plain authority only. -/
theorem strip_behind {body : List Char} {a z : Char} (first : body.head? = some a)
    (last : body.getLast? = some z) (solid_first : isC0OrSpace a = false)
    (solid_last : isC0OrSpace z = false) (tail : List Char) :
    strip (body ++ tail) = body ++ (tail.reverse.dropWhile isC0OrSpace).reverse := by
  have front : (body ++ tail).dropWhile isC0OrSpace = body ++ tail := by
    cases body with
    | nil => cases first
    | cons c body =>
        obtain rfl := Option.some.inj first
        exact List.dropWhile_cons_of_neg (by simp [solid_first])
  have back : body.reverse.dropWhile isC0OrSpace = body.reverse := by
    rw [← List.head?_reverse] at last
    cases reversed : body.reverse with
    | nil => rfl
    | cons c body =>
        rw [reversed] at last
        obtain rfl := Option.some.inj last
        exact List.dropWhile_cons_of_neg (by simp [solid_last])
  rw [strip, front, List.reverse_append, List.dropWhile_append]
  split
  · next empty =>
      rw [back, List.reverse_reverse, List.isEmpty_iff.mp empty, List.reverse_nil, List.append_nil]
  · rw [List.reverse_append, List.reverse_reverse]

theorem isPlainChar_of_scheme {c : Char} (scheme : isSchemeChar c = true) :
    isPlainChar c = true := by
  simp only [isSchemeChar, Bool.or_eq_true, beq_iff_eq] at scheme
  rcases scheme with ((letter | rfl) | rfl) | rfl
  · exact Bool.or_eq_true_iff.mpr (.inl letter)
  · decide +kernel
  · decide +kernel
  · decide +kernel

theorem matchAuthority_eq_some {text authority : List Char}
    (found : matchAuthority text = some authority) :
    ∃ scheme tail, text = scheme ++ ':' :: '/' :: '/' :: (authority ++ tail) ∧
      scheme.head?.any Char.isAlpha = true ∧ (∀ c ∈ scheme, isSchemeChar c = true) ∧
      tail.head?.all endsAuthority = true := by
  rw [matchAuthority] at found
  split at found
  · next scheme rest cut =>
      obtain ⟨whole, are, letter⟩ := cutScheme_iff.mp cut
      refine ⟨scheme, rest.dropWhile fun c => !"/?#".toList.contains c, ?_, letter, are, ?_⟩
      · rw [← Option.some.inj found, List.takeWhile_append_dropWhile]
        exact whole
      · have first := List.head?_dropWhile_not (fun c => !"/?#".toList.contains c) rest
        cases after : (rest.dropWhile fun c => !"/?#".toList.contains c).head? with
        | none => rfl
        | some c =>
            rw [after] at first
            have mark : (!"/?#".toList.contains c) = false := first
            rw [Bool.not_eq_false'] at mark
            have marks : "/?#".toList.all endsAuthority = true := by decide
            exact List.all_eq_true.mp marks c (List.contains_iff_mem.mp mark)
  · cases found

/-- The authority that the guard finds is the written one. -/
theorem PlainlyWritten.authority_eq (h : PlainlyWritten raw authority) :
    writtenAuthority raw = authority := by
  obtain ⟨scheme, tail, whole, letter, are, stops⟩ := matchAuthority_eq_some h.found
  obtain ⟨first, head⟩ : ∃ c, scheme.head? = some c :=
    Option.isSome_iff_exists.mp (Option.isSome_of_any letter)
  obtain ⟨last, ends⟩ : ∃ c, authority.getLast? = some c :=
    ⟨_, List.getLast?_eq_some_getLast h.nonempty⟩
  have solid_first := (isPlainChar_spec
    (isPlainChar_of_scheme (are first (List.mem_of_head? head)))).1
  have solid_last := (isPlainChar_spec (h.plain last (List.mem_of_getLast? ends))).1
  have body_head : (scheme ++ ':' :: '/' :: '/' :: authority).head? = some first := by
    rw [List.head?_append, head]
    rfl
  have body_last : (scheme ++ ':' :: '/' :: '/' :: authority).getLast? = some last := by
    rw [List.getLast?_append_of_ne_nil _ (List.cons_ne_nil _ _), List.getLast?_cons,
      List.getLast?_cons, List.getLast?_cons, ends]
    rfl
  have stripped := strip_behind body_head body_last solid_first solid_last tail
  have begins : (tail.reverse.dropWhile isC0OrSpace).reverse <+: tail := by
    have back := List.reverse_prefix.mpr (List.dropWhile_suffix (l := tail.reverse) isC0OrSpace)
    rwa [List.reverse_reverse] at back
  generalize (tail.reverse.dropWhile isC0OrSpace).reverse = behind at stripped begins
  have stops_behind : behind.head?.all (!!endsAuthority ·) = true := by
    cases behind with
    | nil => rfl
    | cons c behind =>
        obtain ⟨rest, rfl⟩ := begins
        rw [List.head?_cons, Option.all_some, Bool.not_not]
        exact stops
  have goes (c : Char) (mem : c ∈ authority) : (!endsAuthority c) = true := by
    rw [(isPlainChar_spec (h.plain c mem)).2.2.1]
    rfl
  have opens : (authority ++ behind).dropWhile (fun c => isTabOrNewline c || isSlash c) =
      authority ++ behind := by
    cases authority with
    | nil => exact absurd rfl h.nonempty
    | cons c authority =>
        obtain ⟨-, blank, ends, -⟩ := isPlainChar_spec (h.plain c List.mem_cons_self)
        rw [endsAuthority, Bool.or_eq_false_iff, Bool.or_eq_false_iff] at ends
        exact List.dropWhile_cons_of_neg (by simp [blank, ends.1.1])
  have absent : ':' ∉ scheme := fun mem => absurd (are ':' mem) (by decide)
  simp only [List.append_assoc, List.cons_append, ← whole] at stripped
  rw [writtenAuthority, stripped, dropWhile_scheme absent]
  exact (congrArg (List.takeWhile (!endsAuthority ·)) opens).trans
    (takeWhile_stops goes stops_behind)

/-- Without brackets the port stands after the first colon. -/
theorem cutPort_plain {text : List Char} (opened : '[' ∉ text) :
    cutPort false text =
      (text.takeWhile (· ≠ ':'),
        if ':' ∈ text then some ((text.dropWhile (· ≠ ':')).tail) else none) := by
  induction text with
  | nil => rfl
  | cons c text ih =>
      rw [List.mem_cons, not_or] at opened
      rw [cutPort]
      by_cases colon : c = ':'
      · subst colon
        rw [if_pos ⟨rfl, rfl⟩, if_pos List.mem_cons_self]
        rfl
      · have inside : (if c = '[' then true else if c = ']' then false else false) = false := by
          rw [if_neg fun same => opened.1 same.symm, ite_self]
        have same : ':' ∈ c :: text ↔ ':' ∈ text := by
          rw [List.mem_cons, or_iff_right fun here => colon here.symm]
        rw [if_neg fun both => colon both.1, inside]
        dsimp only
        rw [ih opened.2, List.takeWhile_cons_of_pos (by simpa using colon),
          List.dropWhile_cons_of_pos (by simpa using colon)]
        simp only [same]

theorem afterLast_subset (mark : Char) (text : List Char) : afterLast mark text ⊆ text := by
  intro c mem
  have inside := (List.takeWhile_prefix _).subset (List.mem_reverse.mp mem)
  exact List.mem_reverse.mp inside

/-- Where the port is digits, the host stands before the only colon. -/
theorem beforeLast_eq {text : List Char}
    (digits : ∀ c ∈ (text.dropWhile (· ≠ ':')).tail, c.isDigit = true) :
    beforeLast ':' text = text.takeWhile (· ≠ ':') := by
  have whole := List.takeWhile_append_dropWhile (p := fun c => decide (c ≠ ':')) (l := text)
  have before : ∀ c ∈ text.takeWhile (· ≠ ':'), decide (c ≠ ':') = true := fun c mem =>
    List.mem_takeWhile_imp (p := fun c => decide (c ≠ ':')) mem
  cases cut : text.dropWhile (· ≠ ':') with
  | nil =>
      rw [cut, List.append_nil] at whole
      have absent : ':' ∉ text := fun mem => by
        rw [← whole] at mem
        exact absurd (before ':' mem) (by decide)
      rw [beforeLast, if_neg (by rwa [List.contains_iff_mem]), whole]
  | cons c port =>
      have first := List.head?_dropWhile_not (fun c => decide (c ≠ ':')) text
      rw [cut] at first digits whole
      obtain rfl : c = ':' := by simpa using first
      have after : ∀ d ∈ port.reverse, decide (d ≠ ':') = true := fun d mem =>
        decide_eq_true fun same => absurd (digits d (List.mem_reverse.mp mem))
          (same ▸ (by decide : ':'.isDigit ≠ true))
      have colon : ':' ∈ text := whole ▸ List.mem_append_right _ List.mem_cons_self
      rw [beforeLast, if_pos (List.contains_iff_mem.mpr colon)]
      generalize text.takeWhile (· ≠ ':') = front at whole
      rw [← whole, List.reverse_append, List.reverse_cons, List.append_assoc,
        List.dropWhile_append_of_pos after, List.singleton_append,
        List.dropWhile_cons_of_neg (by simp), List.tail_cons, List.reverse_reverse]

theorem parsePort_digits {scheme text : List Char} {port : Option Nat}
    (parsed : parsePort scheme text = some port) : ∀ c ∈ text, c.isDigit = true := by
  rw [parsePort] at parsed
  split at parsed
  · next empty =>
      rw [empty]
      exact fun c mem => absurd mem List.not_mem_nil
  · split at parsed
    · cases parsed
    · next proper =>
        rw [not_or, Bool.not_eq_false, List.all_eq_true] at proper
        exact proper.1

theorem parseHost_ipv4 {tables : UrlTables} {text : List Char} {n : Nat}
    (plain : text.head? ≠ some '[') (parsed : parseHost tables text = some (.ipv4 n)) :
    ∃ ascii, tables.domainToAscii text = some ascii ∧ endsInNumber ascii = true ∧
      parseIpv4Host ascii = some n := by
  rw [parseHost, if_neg plain] at parsed
  split at parsed
  · cases parsed
  · next ascii mapped =>
      split at parsed
      · cases parsed
      · split at parsed
        · next number =>
            obtain ⟨m, address, same⟩ := Option.map_eq_some_iff.mp parsed
            exact ⟨ascii, mapped, number, (Host.ipv4.inj same) ▸ address⟩
        · cases parsed

/-- The last label of a text whose lower case ends in a number is numeric for the guard. -/
theorem numeric_last {text : List Char} (ended : (text.splitOn '.').getLastD [] ≠ [])
    (bare : ((text.splitOn '.').getLastD []).map Char.toLower ≠ ['0', 'x'])
    (number : endsInNumber (text.map Char.toLower) = true) :
    isNumericLabel ((text.splitOn '.').getLastD []) = true := by
  refine numeric_of_number ended bare ?_
  have split := splitOn_map toLower_eq_point text
  obtain ⟨last, there⟩ : ∃ last, (text.splitOn '.').getLast? = some last :=
    ⟨_, List.getLast?_eq_some_getLast (List.splitOn_ne_nil '.' text)⟩
  rw [List.getLastD_eq_getLast?, there, Option.getD_some] at ended ⊢
  have last_lower : ((text.map Char.toLower).splitOn '.').getLast? =
      some (last.map Char.toLower) := by
    rw [split, List.getLast?_map, there]
    rfl
  have nonempty : last.map Char.toLower ≠ [] := fun empty => ended (List.map_eq_nil_iff.mp empty)
  have parts : hostParts (text.map Char.toLower) = (text.map Char.toLower).splitOn '.' := by
    refine if_neg fun both => nonempty ?_
    rw [last_lower] at both
    exact Option.some.inj both.1
  rw [endsInNumber, parts, last_lower] at number
  cases whole : last.map Char.toLower with
  | nil => exact absurd whole nonempty
  | cons c rest =>
      rw [whole] at number
      exact number

/-- Plain labels have no letters. -/
theorem map_toLower_plain {text : List Char}
    (plain : ∀ label ∈ text.splitOn '.', isPlainV4Label label = true) :
    text.map Char.toLower = text := by
  have same : (text.splitOn '.').map (List.map Char.toLower) = (text.splitOn '.').map id := by
    refine List.map_congr_left fun label mem => ?_
    have digits := (plainLabel_value (plain label mem)).1
    exact (List.map_congr_left fun c here => toLower_digit_or_point (.inl (digits c here))).trans
      (List.map_id label)
  have split := splitOn_map toLower_eq_point text
  rw [same, List.map_id] at split
  have whole := congrArg (['.'].intercalate ·) split
  rwa [List.intercalate_splitOn, List.intercalate_splitOn] at whole

theorem bracket_not_plain : ¬ isPlainChar '[' = true := by decide +kernel

/-- A host that ends in a number is unambiguous with four plain labels only. -/
theorem plain_of_unambiguous (found : matchAuthority raw.toList = some authority)
    (plain : (afterLast '@' authority).head? ≠ some '[') (nonempty : foundHost authority ≠ [])
    (numeric : isNumericLabel (((foundHost authority).splitOn '.').getLastD []) = true)
    (unambiguous : hasAmbiguousHostEncoding raw = false) :
    ((foundHost authority).splitOn '.').length = 4 ∧
      ∀ label ∈ (foundHost authority).splitOn '.', isPlainV4Label label = true := by
  rw [foundHost] at nonempty numeric ⊢
  rw [hasAmbiguousHostEncoding, found] at unambiguous
  dsimp only at unambiguous
  rw [if_neg plain, if_neg nonempty, numeric, if_neg Bool.noConfusion] at unambiguous
  split at unambiguous
  · next both => exact ⟨both.1, List.all_eq_true.mp both.2⟩
  · cases unambiguous

/-- In a plain text nothing is overlooked. -/
theorem PlainlyWritten.not_overlooked {tables : UrlTables} (lowers : Lowers tables)
    (h : PlainlyWritten raw authority) (url : Url) (n : Nat) : ¬ Overlooked tables raw url n := by
  intro overlooked
  obtain ⟨scheme, rest, cut, -, special⟩ :=
    parseUrl_with_host overlooked.parsed overlooked.address
  obtain ⟨-, found, port⟩ := parseSpecial_eq_some special
  have solid_authority : solid authority = authority := List.filter_eq_self.mpr fun c mem => by
    simp [(isPlainChar_spec (h.plain c mem)).2.1]
  have plain : ∀ c ∈ afterLast '@' authority, isPlainChar c = true := fun c mem =>
    h.plain c (afterLast_subset '@' authority mem)
  have opened : '[' ∉ afterLast '@' authority := fun mem =>
    absurd (plain '[' mem) bracket_not_plain
  rw [authority_is_written cut, h.authority_eq, solid_authority, cutPort_plain opened] at found port
  dsimp only at found port
  have written : writtenHost raw = (afterLast '@' authority).takeWhile (· ≠ ':') := by
    rw [writtenHost, h.authority_eq, cutPort_plain opened]
  have host : foundHost authority = writtenHost raw := by
    refine (beforeLast_eq ?_).trans written.symm
    by_cases colon : ':' ∈ afterLast '@' authority
    · rw [if_pos colon] at port
      exact parsePort_digits port
    · have none_left : (afterLast '@' authority).dropWhile (· ≠ ':') = [] := by
        rw [List.dropWhile_eq_nil_iff]
        exact fun c mem => decide_eq_true fun same => colon (same ▸ mem)
      rw [none_left]
      exact fun c mem => absurd mem List.not_mem_nil
  have plain_host : ∀ c ∈ writtenHost raw, isPlainChar c = true := fun c mem =>
    plain c ((List.takeWhile_prefix _).subset (written ▸ mem))
  have unbracketed : (writtenHost raw).head? ≠ some '[' := fun first =>
    absurd (plain_host '[' (List.mem_of_head? first)) bracket_not_plain
  rw [← written, overlooked.address] at found
  obtain ⟨ascii, mapped, number, address⟩ := parseHost_ipv4 unbracketed found
  rw [lowers _ _ plain_host mapped] at number address
  have ended := h.ended
  have bare := h.bare
  rw [host] at ended bare
  have numeric := numeric_last ended bare number
  rw [← host] at numeric
  have nonempty : foundHost authority ≠ [] := by
    intro empty
    rw [← host, empty] at ended
    exact ended rfl
  have unbracketed' : (afterLast '@' authority).head? ≠ some '[' := fun first =>
    opened (List.mem_of_head? first)
  obtain ⟨four, labels⟩ :=
    plain_of_unambiguous h.found unbracketed' nonempty numeric overlooked.unambiguous
  rw [host] at four labels
  rw [map_toLower_plain labels] at address
  exact overlooked.rewritten (serialize_of_plain four labels address)

end Plain

end Gateway.Upstream
