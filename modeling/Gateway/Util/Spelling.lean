import Gateway.Util.Leaves

/-!
How the strings of a text are spelled.

A string is read character by character, each with its spelling: the character
itself or an escape sequence. What is read of a text as values is what is spelled
there, with every spelling taken for its character.
-/

namespace Gateway

/-- A character of a string, with how it is spelled. -/
structure Spelled where
  raw : List Char
  char : Char

namespace Spelled

def plain (c : Char) : Spelled := ⟨[c], c⟩

/-- Spelled by an escape sequence. -/
def IsEscape (s : Spelled) : Prop := s.raw ≠ [s.char]

end Spelled

/-- A high surrogate that no low one follows. -/
def loneSurrogate (high : Option (Nat × List Char)) : List Spelled :=
  (high.map fun (unit, raw) => ⟨raw, unitChar unit⟩).toList

/-- `readString` with the spellings kept. -/
def readSpelled : (high : Option (Nat × List Char)) → List Char →
    Option (List Spelled × List Char)
  | _, [] => none
  | high, '\\' :: 'u' :: a :: b :: c :: d :: rest =>
      match hexUnit a b c d with
      | none => none
      | some unit =>
          match high with
          | some (held, raw) =>
              if isLowSurrogate unit then
                (readSpelled none rest).map fun (s, r) =>
                  (⟨raw ++ ['\\', 'u', a, b, c, d], pairChar held unit⟩ :: s, r)
              else if isHighSurrogate unit then
                (readSpelled (some (unit, ['\\', 'u', a, b, c, d])) rest).map fun (s, r) =>
                  (⟨raw, unitChar held⟩ :: s, r)
              else
                (readSpelled none rest).map fun (s, r) =>
                  (⟨raw, unitChar held⟩ :: ⟨['\\', 'u', a, b, c, d], unitChar unit⟩ :: s, r)
          | none =>
              if isHighSurrogate unit then
                readSpelled (some (unit, ['\\', 'u', a, b, c, d])) rest
              else
                (readSpelled none rest).map fun (s, r) =>
                  (⟨['\\', 'u', a, b, c, d], unitChar unit⟩ :: s, r)
  | high, '\\' :: c :: rest =>
      match escaped c with
      | none => none
      | some e =>
          (readSpelled none rest).map fun (s, r) =>
            (loneSurrogate high ++ ⟨['\\', c], e⟩ :: s, r)
  | high, c :: rest =>
      if c = '"' then some (loneSurrogate high, rest)
      else if c = '\\' ∨ c.toNat < 32 then none
      else (readSpelled none rest).map fun (s, r) => (loneSurrogate high ++ .plain c :: s, r)

section Spelling

variable {high : Option (Nat × List Char)} {cs rest : List Char} {s : List Spelled}

theorem readSpelled_plain {c : Char} (plain : ¬(c = '\\' ∨ c.toNat < 32)) (inside : c ≠ '"')
    (cs : List Char) :
    readSpelled high (c :: cs) =
      (readSpelled none cs).map fun x => (loneSurrogate high ++ .plain c :: x.1, x.2) := by
  rw [readSpelled, if_neg inside, if_neg plain]
  · rintro _ _ _ _ _ rfl
    exact absurd (.inl rfl) plain
  · rintro _ _ rfl
    exact absurd (.inl rfl) plain

theorem readSpelled_escaped {c e : Char} (is_escape : escaped c = some e) (cs : List Char) :
    readSpelled high ('\\' :: c :: cs) =
      (readSpelled none cs).map fun x => (loneSurrogate high ++ ⟨['\\', c], e⟩ :: x.1, x.2) := by
  rw [readSpelled]
  · simp only [is_escape]
  · rintro _ _ _ _ _ rfl
    exact absurd is_escape (by simp [escaped])

theorem readSpelled_quote (high : Option (Nat × List Char)) (cs : List Char) :
    readSpelled high ('"' :: cs) = some (loneSurrogate high, cs) := by
  rw [readSpelled, if_pos rfl] <;> simp

theorem chars_loneSurrogate (high : Option (Nat × List Char)) :
    (loneSurrogate high).map Spelled.char = ((high.map Prod.fst).map unitChar).toList := by
  cases high <;> rfl

/-- A string is read as its spellings are. -/
theorem readString_eq (high : Option (Nat × List Char)) (cs : List Char) :
    readString (high.map Prod.fst) cs =
      (readSpelled high cs).map fun x => (x.1.map Spelled.char, x.2) := by
  induction high, cs using readSpelled.induct with
  | case1 high => rw [readString, readSpelled, Option.map_none]
  | case2 high a b c d rest bad => simp [readString, readSpelled, bad]
  | case3 a b c d rest unit is_unit held heldRaw low ih =>
      rw [Option.map_none] at ih
      simp [readString, readSpelled, is_unit, low, ih, Option.map_map, Function.comp_def]
  | case4 a b c d rest unit is_unit held heldRaw not_low high ih =>
      rw [Option.map_some] at ih
      simp [readString, readSpelled, is_unit, not_low, high, ih, Option.map_map, Function.comp_def]
  | case5 a b c d rest unit is_unit held heldRaw not_low not_high ih =>
      rw [Option.map_none] at ih
      simp [readString, readSpelled, is_unit, not_low, not_high, ih, Option.map_map,
        Function.comp_def]
  | case6 a b c d rest unit is_unit high ih =>
      rw [Option.map_some] at ih
      simp [readString, readSpelled, is_unit, high, ih]
  | case7 a b c d rest unit is_unit not_high ih =>
      rw [Option.map_none] at ih
      simp [readString, readSpelled, is_unit, not_high, ih, Option.map_map, Function.comp_def]
  | case8 high c rest no_unit bad =>
      rw [readString, readSpelled]
      · simp only [bad, Option.map_none]
      · exact no_unit
      · exact no_unit
  | case9 high c rest no_unit e is_escape ih =>
      rw [Option.map_none] at ih
      rw [readString_escaped is_escape, readSpelled_escaped is_escape, ih, Option.map_map,
        Option.map_map]
      simp [Function.comp_def, chars_loneSurrogate]
  | case10 high rest _ _ =>
      rw [readSpelled_quote, Option.map_some, chars_loneSurrogate, readString, if_pos rfl] <;> simp
  | case11 high c rest no_unit no_escape inside bad =>
      rw [readString, readSpelled, if_neg inside, if_neg inside, if_pos bad, if_pos bad,
        Option.map_none] <;> assumption
  | case12 high c rest no_unit no_escape inside plain ih =>
      rw [Option.map_none] at ih
      rw [readString_plain plain inside, readSpelled_plain plain inside, ih, Option.map_map,
        Option.map_map]
      simp [Function.comp_def, chars_loneSurrogate, Spelled.plain]

def heldRaw (high : Option (Nat × List Char)) : List Char := (high.map Prod.snd).getD []

theorem raw_loneSurrogate (high : Option (Nat × List Char)) :
    (loneSurrogate high).flatMap Spelled.raw = heldRaw high := by
  cases high <;> simp [loneSurrogate, heldRaw]

/-- What is spelled is the text up to the closing quotation mark, whatever follows it. -/
def SpelledOut (high : Option (Nat × List Char)) (cs : List Char) (s : List Spelled)
    (rest : List Char) : Prop :=
  ∃ body, cs = body ++ '"' :: rest ∧ heldRaw high ++ body = s.flatMap Spelled.raw ∧
    ∀ later, readSpelled high (body ++ '"' :: later) = some (s, later)

/-- A step of the reader puts its spellings in front. -/
theorem SpelledOut.step (front : List Char) (first : List Spelled)
    {next : Option (Nat × List Char)} (hands_on : ∀ cs, readSpelled high (front ++ cs) =
      (readSpelled next cs).map fun x => (first ++ x.1, x.2))
    (raw : heldRaw high ++ front = first.flatMap Spelled.raw ++ heldRaw next)
    (ih : ∀ s rest, readSpelled next cs = some (s, rest) → SpelledOut next cs s rest)
    (h : readSpelled high (front ++ cs) = some (s, rest)) :
    SpelledOut high (front ++ cs) s rest := by
  rw [hands_on] at h
  obtain ⟨⟨t, rest⟩, found, pair⟩ := Option.map_eq_some_iff.mp h
  cases pair
  obtain ⟨body, rfl, spelled, again⟩ := ih t _ found
  refine ⟨front ++ body, by rw [List.append_assoc], ?_, fun later => ?_⟩
  · rw [← List.append_assoc, raw, List.append_assoc, spelled, List.flatMap_append]
  · rw [List.append_assoc, hands_on, again, Option.map_some]

theorem readSpelled_takes (h : readSpelled high cs = some (s, rest)) :
    SpelledOut high cs s rest := by
  induction high, cs using readSpelled.induct generalizing s rest with
  | case1 high => cases h
  | case2 high a b c d cs bad => simp [readSpelled, bad] at h
  | case3 a b c d cs unit is_unit held raw low ih =>
      exact .step ['\\', 'u', a, b, c, d] [⟨raw ++ ['\\', 'u', a, b, c, d], pairChar held unit⟩]
        (fun _ => by simp [readSpelled, is_unit, low]) (by simp [heldRaw]) (fun _ _ => ih) h
  | case4 a b c d cs unit is_unit held raw not_low high ih =>
      exact .step ['\\', 'u', a, b, c, d] [⟨raw, unitChar held⟩]
        (fun _ => by simp [readSpelled, is_unit, not_low, high]) (by simp [heldRaw])
        (fun _ _ => ih) h
  | case5 a b c d cs unit is_unit held raw not_low not_high ih =>
      exact .step ['\\', 'u', a, b, c, d]
        [⟨raw, unitChar held⟩, ⟨['\\', 'u', a, b, c, d], unitChar unit⟩]
        (fun _ => by simp [readSpelled, is_unit, not_low, not_high]) (by simp [heldRaw])
        (fun _ _ => ih) h
  | case6 a b c d cs unit is_unit high ih =>
      exact .step ['\\', 'u', a, b, c, d] []
        (fun _ => by simp [readSpelled, is_unit, high]) (by simp [heldRaw])
        (fun _ _ => ih) h
  | case7 a b c d cs unit is_unit not_high ih =>
      exact .step ['\\', 'u', a, b, c, d] [⟨['\\', 'u', a, b, c, d], unitChar unit⟩]
        (fun _ => by simp [readSpelled, is_unit, not_high]) (by simp [heldRaw]) (fun _ _ => ih) h
  | case8 high c cs no_unit bad =>
      rw [readSpelled, bad] at h
      · cases h
      · exact no_unit
  | case9 high c cs no_unit e is_escape ih =>
      exact .step ['\\', c] (loneSurrogate high ++ [⟨['\\', c], e⟩])
        (fun _ => by simp [readSpelled_escaped is_escape])
        (by simp [raw_loneSurrogate, heldRaw]) (fun _ _ => ih) h
  | case10 high cs _ _ =>
      rw [readSpelled_quote] at h
      cases h
      refine ⟨[], rfl, ?_, fun later => readSpelled_quote high later⟩
      rw [raw_loneSurrogate, List.append_nil]
  | case11 high c cs no_unit no_escape inside bad =>
      rw [readSpelled, if_neg inside, if_pos bad] at h
      · cases h
      · exact no_unit
      · exact no_escape
  | case12 high c cs no_unit no_escape inside plain ih =>
      exact .step [c] (loneSurrogate high ++ [.plain c])
        (fun _ => by simp [readSpelled_plain plain inside])
        (by simp [raw_loneSurrogate, heldRaw, Spelled.plain]) (fun _ _ => ih) h

end Spelling

/-- How a literal spells its string; what is no literal spells itself. -/
def spelling (literal : String) : List Spelled :=
  match readSpelled none (literal.toList ++ ['"']) with
  | some (s, []) => s
  | _ => literal.toList.map .plain

def unescape (literal : String) : String := String.ofList ((spelling literal).map Spelled.char)

theorem spelling_of_read {cs rest : List Char} {s : List Spelled}
    (h : readSpelled none cs = some (s, rest)) :
    spelling (String.ofList (s.flatMap Spelled.raw)) = s := by
  obtain ⟨body, -, raw, again⟩ := readSpelled_takes h
  have literal : body = s.flatMap Spelled.raw := raw
  rw [spelling, String.toList_ofList, ← literal, again]

/-- The characters that spell a string are those of its literal. -/
theorem raw_spelling (literal : String) :
    (spelling literal).flatMap Spelled.raw = literal.toList := by
  have plain : (literal.toList.map Spelled.plain).flatMap Spelled.raw = literal.toList := by
    simp [List.flatMap_map, Spelled.plain]
  rw [spelling]
  split
  · next s read =>
      obtain ⟨body, whole, raw, -⟩ := readSpelled_takes read
      have literal_eq := List.append_cancel_right (whole : literal.toList ++ ['"'] = body ++ ['"'])
      rw [literal_eq, ← raw]
      rfl
  · exact plain

theorem unescape_eq_empty {literal : String} : unescape literal = "" ↔ literal = "" := by
  rw [unescape]
  constructor
  · intro nothing
    have none_spelled : spelling literal = [] := by
      rw [← String.toList_inj, String.toList_ofList] at nothing
      exact List.map_eq_nil_iff.mp nothing
    have raw := raw_spelling literal
    rw [none_spelled] at raw
    exact String.toList_inj.mp raw.symm
  · rintro rfl
    rfl

namespace Json

mutual

/-- A copy with every string rewritten, under the same keys. -/
def mapStrings (f : String → String) : Json → Json
  | .str text => .str (f text)
  | .arr items => .arr (mapStringsItems f items)
  | .obj fields => .obj (mapStringsFields f fields)
  | value => value

def mapStringsItems (f : String → String) : List Json → List Json
  | [] => []
  | item :: rest => mapStrings f item :: mapStringsItems f rest

def mapStringsFields (f : String → String) : List (String × Json) → List (String × Json)
  | [] => []
  | (key, value) :: rest => (key, mapStrings f value) :: mapStringsFields f rest

end

variable {f : String → String}

theorem mapStringsItems_eq (items : List Json) :
    mapStringsItems f items = items.map (mapStrings f) := by
  induction items with
  | nil => rfl
  | cons item rest ih => rw [mapStringsItems, ih, List.map_cons]

theorem mapStringsFields_eq (fields : Record) :
    mapStringsFields f fields = fields.map fun entry => (entry.1, mapStrings f entry.2) := by
  induction fields with
  | nil => rfl
  | cons entry rest ih => rw [mapStringsFields, ih, List.map_cons]

theorem field_mapStrings (fields : Record) (key : String) :
    Record.field (mapStringsFields f fields) key =
      (Record.field fields key).map (mapStrings f) := by
  induction fields with
  | nil => rfl
  | cons entry rest ih =>
      obtain ⟨name, value⟩ := entry
      rw [mapStringsFields, Record.field_cons, Record.field_cons]
      split
      · rfl
      · exact ih

theorem set_mapStrings (fields : Record) (key : String) (value : Json) :
    Record.set (mapStringsFields f fields) key (mapStrings f value) =
      mapStringsFields f (Record.set fields key value) := by
  have has : Record.has (mapStringsFields f fields) key = Record.has fields key := by
    rw [Record.has, Record.has, field_mapStrings, Option.isSome_map]
  rw [Record.set, Record.set, has]
  split
  · rw [mapStringsFields_eq, mapStringsFields_eq, List.map_map, List.map_map]
    refine List.map_congr_left fun entry _ => ?_
    by_cases same : entry.1 = key <;> simp [same]
  · rw [mapStringsFields_eq, mapStringsFields_eq, List.map_append]
    rfl

theorem collect_mapStrings (entries : Record) :
    collect (mapStringsFields f entries) = mapStringsFields f (collect entries) := by
  have run (kept : Record) :
      (mapStringsFields f entries).foldl (fun r entry => Record.set r entry.1 entry.2)
          (mapStringsFields f kept) =
        mapStringsFields f (entries.foldl (fun r entry => Record.set r entry.1 entry.2) kept) := by
    induction entries generalizing kept with
    | nil => rfl
    | cons entry rest ih =>
        rw [mapStringsFields, List.foldl_cons, List.foldl_cons, set_mapStrings, ih]
  exact run []

end Json

mutual

/-- `readValue` with the literals of the strings in the place of what they spell. -/
def readSpelledValue : (fuel : Nat) → List Char → Option (Json × List Char)
  | 0, _ => none
  | fuel + 1, cs =>
      match skipSpace cs with
      | [] => none
      | c :: inner =>
          if c = '{' then
            match skipSpace inner with
            | [] => none
            | d :: rest =>
                if d = '}' then some (.obj [], rest)
                else
                  (readSpelledFields fuel (d :: rest)).map fun (entries, rest) =>
                    (.obj (collect entries), rest)
          else if c = '[' then
            match skipSpace inner with
            | [] => none
            | d :: rest =>
                if d = ']' then some (.arr [], rest)
                else (readSpelledItems fuel (d :: rest)).map fun (items, rest) => (.arr items, rest)
          else if c = '"' then
            (readSpelled none inner).map fun (s, rest) =>
              (.str (String.ofList (s.flatMap Spelled.raw)), rest)
          else readValue (fuel + 1) (c :: inner)

def readSpelledItems : (fuel : Nat) → List Char → Option (List Json × List Char)
  | 0, _ => none
  | fuel + 1, cs =>
      match readSpelledValue fuel cs with
      | none => none
      | some (item, rest) =>
          match skipSpace rest with
          | [] => none
          | c :: rest =>
              if c = ',' then
                (readSpelledItems fuel rest).map fun (items, rest) => (item :: items, rest)
              else if c = ']' then some ([item], rest)
              else none

def readSpelledFields : (fuel : Nat) → List Char → Option (List (String × Json) × List Char)
  | 0, _ => none
  | fuel + 1, cs =>
      match skipSpace cs with
      | [] => none
      | c :: inner =>
          if c = '"' then
            match readString none inner with
            | none => none
            | some (key, rest) =>
                match skipSpace rest with
                | [] => none
                | d :: rest =>
                    if d = ':' then
                      match readSpelledValue fuel rest with
                      | none => none
                      | some (value, rest) =>
                          match skipSpace rest with
                          | [] => none
                          | e :: rest =>
                              if e = ',' then
                                (readSpelledFields fuel rest).map fun (entries, rest) =>
                                  ((String.ofList key, value) :: entries, rest)
                              else if e = '}' then some ([(String.ofList key, value)], rest)
                              else none
                    else none
          else none

end

/-- The value of a text, with its literals. -/
def spelledParse (text : String) : Option Json :=
  match readSpelledValue (2 * text.toList.length + 2) text.toList with
  | some (value, rest) => if (skipSpace rest).isEmpty then some value else none
  | none => none

section Simulation

variable {fuel : Nat} {cs rest more : List Char} {c : Char}

theorem readItems_missing (missing : readValue fuel cs = none) :
    readItems (fuel + 1) cs = none := by
  simp only [readItems, missing]

theorem readItems_found {item : Json} (found : readValue fuel cs = some (item, rest))
    (after : skipSpace rest = c :: more) :
    readItems (fuel + 1) cs =
      if c = ',' then (readItems fuel more).map fun x => (item :: x.1, x.2)
      else if c = ']' then some ([item], more)
      else none := by
  simp only [readItems, found, after]
  by_cases comma : c = ','
  · subst comma
    rfl
  · by_cases bracket : c = ']'
    · subst bracket
      rfl
    · rw [if_neg comma, if_neg bracket]
      split
      · next same => exact absurd (List.cons.inj same).1 comma
      · next same => exact absurd (List.cons.inj same).1 bracket
      · rfl

theorem readItems_cut {item : Json} (found : readValue fuel cs = some (item, rest))
    (after : skipSpace rest = []) : readItems (fuel + 1) cs = none := by
  simp only [readItems, found, after]

theorem readFields_found {key : List Char} {value : Json} {inner named : List Char}
    (opened : skipSpace cs = '"' :: inner) (name : readString none inner = some (key, rest))
    (colon : skipSpace rest = ':' :: named) {after : List Char}
    (found : readValue fuel named = some (value, after)) (next : skipSpace after = c :: more) :
    readFields (fuel + 1) cs =
      if c = ',' then
        (readFields fuel more).map fun x => ((String.ofList key, value) :: x.1, x.2)
      else if c = '}' then some ([(String.ofList key, value)], more)
      else none := by
  simp only [readFields, opened, name, colon, found, next]
  by_cases comma : c = ','
  · subst comma
    rfl
  · by_cases brace : c = '}'
    · subst brace
      rfl
    · rw [if_neg comma, if_neg brace]
      split
      · next same => exact absurd (List.cons.inj same).1 comma
      · next same => exact absurd (List.cons.inj same).1 brace
      · rfl

theorem readFields_unnamed {inner : List Char} (first : skipSpace cs = c :: inner)
    (unquoted : c ≠ '"') : readFields (fuel + 1) cs = none := by
  simp only [readFields, first]
  split
  · next same => exact absurd (List.cons.inj same).1 unquoted
  · rfl

theorem readFields_separated {key inner named : List Char} (opened : skipSpace cs = '"' :: inner)
    (name : readString none inner = some (key, rest)) (after : skipSpace rest = c :: named)
    (other : c ≠ ':') : readFields (fuel + 1) cs = none := by
  simp only [readFields, opened, name, after]
  split
  · next same => exact absurd (List.cons.inj same).1 other
  · rfl

theorem skipSpace_first (first : skipSpace cs = c :: more) :
    skipSpace (c :: more) = c :: more := by
  rw [← first]
  exact List.dropWhile_idempotent _ _

/-- Space in front of a value is passed over. -/
theorem readValue_skip (first : skipSpace cs = c :: more) :
    readValue (fuel + 1) cs = readValue (fuel + 1) (c :: more) := by
  simp only [readValue, first, skipSpace_first first]

/-- What does not begin with a bracket or a quotation mark holds no string. -/
theorem readValue_atom {value : Json} (other : c ≠ '{' ∧ c ≠ '[' ∧ c ≠ '"')
    (first : skipSpace cs = c :: more) (h : readValue (fuel + 1) cs = some (value, rest)) :
    value = .null ∨ (∃ b, value = .bool b) ∨ ∃ n, value = .num n := by
  rw [readValue, first] at h
  split at h
  · next same => exact absurd (List.cons.inj same).1 other.1
  · next same => exact absurd (List.cons.inj same).1 other.2.1
  · next same => exact absurd (List.cons.inj same).1 other.2.2
  · cases h
    exact .inr (.inl ⟨true, rfl⟩)
  · cases h
    exact .inr (.inl ⟨false, rfl⟩)
  · cases h
    exact .inl rfl
  · obtain ⟨⟨n, after⟩, -, pair⟩ := Option.map_eq_some_iff.mp h
    cases pair
    exact .inr (.inr ⟨n, rfl⟩)

theorem readValue_space (blank : skipSpace cs = []) : readValue (fuel + 1) cs = none := by
  simp only [readValue, blank]
  rfl

/-- The fields of an object from the first value on. -/
theorem fields_of_value {key inner named : List Char} (opened : skipSpace cs = '"' :: inner)
    (name : readString none inner = some (key, rest)) (colon : skipSpace rest = ':' :: named)
    (value_eq : readValue fuel named =
      (readSpelledValue fuel named).map fun x => (x.1.mapStrings unescape, x.2))
    (fields_eq : ∀ cs, readFields fuel cs =
      (readSpelledFields fuel cs).map fun x => (Json.mapStringsFields unescape x.1, x.2)) :
    readFields (fuel + 1) cs =
      (readSpelledFields (fuel + 1) cs).map fun x =>
        (Json.mapStringsFields unescape x.1, x.2) := by
  cases read : readSpelledValue fuel named with
  | none =>
      have missing : readValue fuel named = none := by rw [value_eq, read]; rfl
      simp only [readFields, readSpelledFields, opened, name, colon, missing, read, if_true,
        Option.map_none]
  | some x =>
      obtain ⟨value, after⟩ := x
      have found : readValue fuel named = some (value.mapStrings unescape, after) := by
        rw [value_eq, read]
        rfl
      cases next : skipSpace after with
      | nil =>
          simp only [readFields, readSpelledFields, opened, name, colon, found, read, next, if_true,
            Option.map_none]
      | cons e more =>
          rw [readFields_found opened name colon found next, fields_eq]
          simp only [readSpelledFields, opened, name, colon, read, next, if_true]
          split
          · simp only [Option.map_map, Function.comp_def, Json.mapStringsFields]
          · split <;> rfl

/-- A text is read as its spellings are. -/
theorem read_eq_spelled (fuel : Nat) :
    (∀ cs, readValue fuel cs =
      (readSpelledValue fuel cs).map fun x => (x.1.mapStrings unescape, x.2)) ∧
    (∀ cs, readItems fuel cs =
      (readSpelledItems fuel cs).map fun x => (Json.mapStringsItems unescape x.1, x.2)) ∧
    ∀ cs, readFields fuel cs =
      (readSpelledFields fuel cs).map fun x => (Json.mapStringsFields unescape x.1, x.2) := by
  induction fuel with
  | zero => exact ⟨fun _ => rfl, fun _ => rfl, fun _ => rfl⟩
  | succ fuel ih =>
      obtain ⟨value_eq, items_eq, fields_eq⟩ := ih
      refine ⟨fun cs => ?_, fun cs => ?_, fun cs => ?_⟩
      · cases first : skipSpace cs with
        | nil =>
            rw [readValue_space first]
            simp only [readSpelledValue, first, Option.map_none]
        | cons c inner =>
            simp only [readSpelledValue, first]
            by_cases brace : c = '{'
            · subst brace
              rw [if_pos rfl]
              cases second : skipSpace inner with
              | nil =>
                  simp only [readValue, first, second, readFields_nil, Option.map_none]
              | cons d more =>
                  by_cases closed : d = '}'
                  · subst closed
                    rw [readValue_emptyObject first second]
                    rfl
                  · rw [readValue_object first second closed, fields_eq]
                    simp only [if_neg closed, Option.map_map, Function.comp_def,
                      Json.collect_mapStrings, Json.mapStrings]
            · rw [if_neg brace]
              by_cases bracket : c = '['
              · subst bracket
                rw [if_pos rfl]
                cases second : skipSpace inner with
                | nil =>
                    simp only [readValue, first, second, readItems_nil, Option.map_none]
                | cons d more =>
                    by_cases closed : d = ']'
                    · subst closed
                      rw [readValue_emptyArray first second]
                      rfl
                    · rw [readValue_array first second closed, items_eq]
                      simp only [if_neg closed, Option.map_map, Function.comp_def, Json.mapStrings]
              · rw [if_neg bracket]
                by_cases quoted : c = '"'
                · subst quoted
                  rw [if_pos rfl, readValue_string first, ← Option.map_none, readString_eq]
                  cases read : readSpelled none inner with
                  | none => rfl
                  | some x =>
                      obtain ⟨s, rest⟩ := x
                      simp only [Option.map_some, Json.mapStrings, unescape, spelling_of_read read]
                · rw [if_neg quoted, readValue_skip first]
                  cases read : readValue (fuel + 1) (c :: inner) with
                  | none => rfl
                  | some x =>
                      obtain ⟨value, rest⟩ := x
                      rcases readValue_atom ⟨brace, bracket, quoted⟩ (skipSpace_first first)
                        read with
                        rfl | ⟨b, rfl⟩ | ⟨n, rfl⟩ <;> rfl
      · cases read : readSpelledValue fuel cs with
        | none =>
            rw [readItems_missing (by rw [value_eq, read]; rfl)]
            simp only [readSpelledItems, read, Option.map_none]
        | some x =>
            obtain ⟨item, rest⟩ := x
            have found : readValue fuel cs = some (item.mapStrings unescape, rest) := by
              rw [value_eq, read]
              rfl
            cases after : skipSpace rest with
            | nil =>
                rw [readItems_cut found after]
                simp only [readSpelledItems, read, after, Option.map_none]
            | cons c more =>
                rw [readItems_found found after, items_eq]
                simp only [readSpelledItems, read, after]
                split
                · simp only [Option.map_map, Function.comp_def, Json.mapStringsItems]
                · split <;> rfl
      · cases first : skipSpace cs with
        | nil => simp only [readFields, readSpelledFields, first, Option.map_none]
        | cons c inner =>
            by_cases quoted : c = '"'
            · subst quoted
              cases name : readString none inner with
              | none =>
                  simp only [readFields, readSpelledFields, first, name, if_true, Option.map_none]
              | some x =>
                  obtain ⟨key, rest⟩ := x
                  cases colon : skipSpace rest with
                  | nil =>
                      simp only [readFields, readSpelledFields, first, name, colon, if_true,
                        Option.map_none]
                  | cons d named =>
                      by_cases is_colon : d = ':'
                      · subst is_colon
                        exact fields_of_value first name colon (value_eq named) fields_eq
                      · rw [readFields_separated first name colon is_colon]
                        simp only [readSpelledFields, first, name, colon, if_true,
                          if_neg is_colon, Option.map_none]
            · rw [readFields_unnamed first quoted]
              simp only [readSpelledFields, first, if_neg quoted, Option.map_none]

/-- The value of a text is the value of its literals, with every literal read. -/
theorem jsonParse_eq_spelled (text : String) :
    jsonParse text = (spelledParse text).map (Json.mapStrings unescape) := by
  rw [jsonParse, spelledParse, (read_eq_spelled _).1]
  cases readSpelledValue (2 * text.toList.length + 2) text.toList with
  | none => rfl
  | some x =>
      obtain ⟨value, rest⟩ := x
      simp only [Option.map_some]
      split <;> rfl

end Simulation

section Literals

/-- A literal that a text holds, with the quotation mark behind it. -/
def InText (cs : List Char) (literal : String) : Prop :=
  ∃ before after, cs = before ++ literal.toList ++ '"' :: after

variable {fuel : Nat} {cs inner rest : List Char} {literal : String}

theorem InText.of_suffix (within : InText inner literal) (ends : inner <:+ cs) :
    InText cs literal := by
  obtain ⟨before, after, rfl⟩ := within
  obtain ⟨front, rfl⟩ := ends
  exact ⟨front ++ before, after, by simp⟩

theorem suffix_of_skipSpace {c : Char} (first : skipSpace cs = c :: inner) : inner <:+ cs := by
  have ends : skipSpace cs <:+ cs := List.dropWhile_suffix _
  rw [first] at ends
  exact (List.suffix_cons c inner).trans ends

theorem suffix_of_readSpelledValue {value : Json}
    (h : readSpelledValue fuel cs = some (value, rest)) : rest <:+ cs := by
  have read := (read_eq_spelled fuel).1 cs
  rw [h] at read
  obtain ⟨p, split, -⟩ := readValue_taken read
  exact ⟨p, split.symm⟩

theorem inText_of_readSpelled {s : List Spelled} (h : readSpelled none inner = some (s, rest)) :
    InText inner (String.ofList (s.flatMap Spelled.raw)) := by
  obtain ⟨body, rfl, raw, -⟩ := readSpelled_takes h
  refine ⟨[], rest, ?_⟩
  rw [String.toList_ofList, ← raw]
  rfl

/-- The strings of the value of a text are literals of the text. -/
theorem literals_read (fuel : Nat) :
    (∀ cs value rest, readSpelledValue fuel cs = some (value, rest) →
      ∀ literal, .str literal ∈ value.leaves → InText cs literal) ∧
    (∀ cs items rest, readSpelledItems fuel cs = some (items, rest) →
      ∀ literal, .str literal ∈ Json.itemLeaves items → InText cs literal) ∧
    ∀ cs entries rest, readSpelledFields fuel cs = some (entries, rest) →
      ∀ literal, .str literal ∈ Json.fieldLeaves entries → InText cs literal := by
  induction fuel with
  | zero =>
      refine ⟨fun _ _ _ h => ?_, fun _ _ _ h => ?_, fun _ _ _ h => ?_⟩
      · cases h
      · cases h
      · cases h
  | succ fuel ih =>
      obtain ⟨of_value, of_items, of_fields⟩ := ih
      refine ⟨fun cs value rest h literal mem => ?_, fun cs items rest h literal mem => ?_,
        fun cs entries rest h literal mem => ?_⟩
      · cases first : skipSpace cs with
        | nil => simp only [readSpelledValue, first, reduceCtorEq] at h
        | cons c inner =>
            have ends := suffix_of_skipSpace first
            simp only [readSpelledValue, first] at h
            by_cases brace : c = '{'
            · rw [if_pos brace] at h
              cases second : skipSpace inner with
              | nil => simp only [second, reduceCtorEq] at h
              | cons d more =>
                  simp only [second] at h
                  have from_second : d :: more <:+ cs :=
                    (second ▸ List.dropWhile_suffix _ : d :: more <:+ inner).trans ends
                  split at h
                  · cases h
                    cases mem
                  · obtain ⟨⟨entries, after⟩, read, pair⟩ := Option.map_eq_some_iff.mp h
                    cases pair
                    obtain ⟨entry, kept, within⟩ := Json.mem_fieldLeaves.mp mem
                    exact (of_fields _ _ _ read literal (Json.mem_fieldLeaves.mpr
                      ⟨entry, mem_collect kept, within⟩)).of_suffix from_second
            · rw [if_neg brace] at h
              by_cases bracket : c = '['
              · rw [if_pos bracket] at h
                cases second : skipSpace inner with
                | nil => simp only [second, reduceCtorEq] at h
                | cons d more =>
                    simp only [second] at h
                    have from_second : d :: more <:+ cs :=
                      (second ▸ List.dropWhile_suffix _ : d :: more <:+ inner).trans ends
                    split at h
                    · cases h
                      cases mem
                    · obtain ⟨⟨items, after⟩, read, pair⟩ := Option.map_eq_some_iff.mp h
                      cases pair
                      exact (of_items _ _ _ read literal mem).of_suffix from_second
              · rw [if_neg bracket] at h
                by_cases quoted : c = '"'
                · rw [if_pos quoted] at h
                  obtain ⟨⟨s, after⟩, read, pair⟩ := Option.map_eq_some_iff.mp h
                  cases pair
                  cases List.mem_singleton.mp mem
                  exact (inText_of_readSpelled read).of_suffix ends
                · rw [if_neg quoted] at h
                  rcases readValue_atom ⟨brace, bracket, quoted⟩ (skipSpace_first first) h with
                    rfl | ⟨b, rfl⟩ | ⟨n, rfl⟩ <;> cases List.mem_singleton.mp mem
      · cases read : readSpelledValue fuel cs with
        | none => simp only [readSpelledItems, read, reduceCtorEq] at h
        | some x =>
            obtain ⟨item, after⟩ := x
            have here : ∀ literal, .str literal ∈ item.leaves → InText cs literal :=
              of_value _ _ _ read
            cases next : skipSpace after with
            | nil => simp only [readSpelledItems, read, next, reduceCtorEq] at h
            | cons c more =>
                have ends : more <:+ cs :=
                  (suffix_of_skipSpace next).trans (suffix_of_readSpelledValue read)
                simp only [readSpelledItems, read, next] at h
                split at h
                · obtain ⟨⟨others, rest'⟩, later, pair⟩ := Option.map_eq_some_iff.mp h
                  cases pair
                  rcases List.mem_append.mp mem with first | behind
                  · exact here literal first
                  · exact (of_items _ _ _ later literal behind).of_suffix ends
                · split at h
                  · cases h
                    rw [Json.itemLeaves, Json.itemLeaves, List.append_nil] at mem
                    exact here literal mem
                  · cases h
      · cases first : skipSpace cs with
        | nil => simp only [readSpelledFields, first, reduceCtorEq] at h
        | cons c inner =>
            simp only [readSpelledFields, first] at h
            split at h
            · cases name : readString none inner with
              | none => simp only [name, reduceCtorEq] at h
              | some x =>
                  obtain ⟨key, rest'⟩ := x
                  simp only [name] at h
                  cases colon : skipSpace rest' with
                  | nil => simp only [colon, reduceCtorEq] at h
                  | cons d named =>
                      have ends : named <:+ cs := by
                        obtain ⟨p, split_name, -⟩ := readString_takes name
                        have after_name : rest' <:+ inner := ⟨p, split_name.symm⟩
                        exact ((suffix_of_skipSpace colon).trans after_name).trans
                          (suffix_of_skipSpace first)
                      simp only [colon] at h
                      split at h
                      · cases read : readSpelledValue fuel named with
                        | none => simp only [read, reduceCtorEq] at h
                        | some x =>
                            obtain ⟨value, after⟩ := x
                            have here : ∀ literal, .str literal ∈ value.leaves →
                                InText cs literal := fun literal there =>
                              (of_value _ _ _ read literal there).of_suffix ends
                            simp only [read] at h
                            cases next : skipSpace after with
                            | nil => simp only [next, reduceCtorEq] at h
                            | cons e more =>
                                have behind : more <:+ cs := ((suffix_of_skipSpace next).trans
                                  (suffix_of_readSpelledValue read)).trans ends
                                simp only [next] at h
                                split at h
                                · obtain ⟨⟨others, rest'⟩, later, pair⟩ :=
                                    Option.map_eq_some_iff.mp h
                                  cases pair
                                  rcases List.mem_append.mp mem with first | others
                                  · exact here literal first
                                  · exact (of_fields _ _ _ later literal others).of_suffix behind
                                · split at h
                                  · cases h
                                    rw [Json.fieldLeaves, Json.fieldLeaves, List.append_nil] at mem
                                    exact here literal mem
                                  · cases h
                      · cases h
            · cases h

theorem inText_of_spelledParse {text : String} {value : Json}
    (h : spelledParse text = some value) (mem : .str literal ∈ value.leaves) :
    InText text.toList literal := by
  rw [spelledParse] at h
  cases read : readSpelledValue (2 * text.toList.length + 2) text.toList with
  | none => simp only [read, reduceCtorEq] at h
  | some x =>
      obtain ⟨found, rest⟩ := x
      simp only [read] at h
      split at h
      · cases h
        exact (literals_read _).1 _ _ _ read literal mem
      · cases h

end Literals

end Gateway
