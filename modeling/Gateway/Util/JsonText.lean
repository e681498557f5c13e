import Gateway.Util.Json

/-!
The text of a JSON value: `JSON.stringify` and `JSON.parse`.

Numbers are read and written exactly. The keys of an object stay in the order of
the text, and a key that is repeated keeps its first place and its last value.
An escape of half a surrogate pair is read as the replacement character.
-/

namespace Gateway

section Write

/-- The least number of decimal places that writes a fraction over `den` exactly;
a number of the language always has one. -/
def decimalPlaces (den : Nat) : (fuel places : Nat) → Option Nat
  | 0, _ => none
  | fuel + 1, places =>
      if 10 ^ places % den = 0 then some places else decimalPlaces den fuel (places + 1)

/-- The digits of a positive number and the position of its decimal point:
`0.digits * 10 ^ point`, without trailing zeros. -/
def significand (m places : Nat) : List Char × Int :=
  let digits := Nat.toDigits 10 m
  let kept := (digits.reverse.dropWhile (· == '0')).reverse
  (kept, digits.length - places)

def zeros (n : Nat) : List Char := List.replicate n '0'

def exponentText (e : Int) : List Char :=
  'e' :: (if e < 0 then '-' else '+') :: Nat.toDigits 10 e.natAbs

/-- The text of a positive number with these digits. -/
def positiveText (digits : List Char) (point : Int) : List Char :=
  if digits.length ≤ point ∧ point ≤ 21 then digits ++ zeros (point.toNat - digits.length)
  else if 0 < point ∧ point ≤ 21 then digits.take point.toNat ++ '.' :: digits.drop point.toNat
  else if -6 < point ∧ point ≤ 0 then '0' :: '.' :: (zeros (-point).toNat ++ digits)
  else
    match digits with
    | [] => []
    | [d] => d :: exponentText (point - 1)
    | d :: rest => d :: '.' :: (rest ++ exponentText (point - 1))

def numberText (q : ℚ) : List Char :=
  if q = 0 then ['0']
  else
    match decimalPlaces q.den (Nat.log2 q.den + 1) 0 with
    | none => "null".toList
    | some places =>
        let m := q.num.natAbs * (10 ^ places / q.den)
        let (digits, point) := significand m places
        (if q < 0 then ['-'] else []) ++ positiveText digits point

def hexDigit (n : Nat) : Char := Nat.digitChar n

/-- A character of a string, escaped where the grammar asks for it. -/
def escapeChar (c : Char) : List Char :=
  if c = '"' then ['\\', '"']
  else if c = '\\' then ['\\', '\\']
  else if c.toNat = 8 then ['\\', 'b']
  else if c.toNat = 9 then ['\\', 't']
  else if c.toNat = 10 then ['\\', 'n']
  else if c.toNat = 12 then ['\\', 'f']
  else if c.toNat = 13 then ['\\', 'r']
  else if c.toNat < 32 then ['\\', 'u', '0', '0', hexDigit (c.toNat / 16), hexDigit (c.toNat % 16)]
  else [c]

def quote (s : String) : List Char := '"' :: (s.toList.flatMap escapeChar ++ ['"'])

mutual

def valueText : Json → List Char
  | .null => "null".toList
  | .bool true => "true".toList
  | .bool false => "false".toList
  | .num (.finite q) => numberText q
  | .num _ => "null".toList
  | .str s => quote s
  | .arr items => '[' :: (itemsText items ++ [']'])
  | .obj fields => '{' :: (fieldsText fields ++ ['}'])

def itemsText : List Json → List Char
  | [] => []
  | [item] => valueText item
  | item :: rest => valueText item ++ ',' :: itemsText rest

def fieldsText : List (String × Json) → List Char
  | [] => []
  | [(key, value)] => quote key ++ ':' :: valueText value
  | (key, value) :: rest => quote key ++ ':' :: (valueText value ++ ',' :: fieldsText rest)

end

/-- `JSON.stringify(value)` -/
def jsonStringify (value : Json) : String := String.ofList (valueText value)

end Write

section Read

def isJsonSpace (c : Char) : Bool := c == ' ' || c == '\t' || c == '\n' || c == '\r'

def skipSpace (cs : List Char) : List Char := cs.dropWhile isJsonSpace

def readExponentPart : List Char → Option (Int × List Char)
  | c :: cs =>
      if c = 'e' ∨ c = 'E' then
        let (negative, digits) := takeSign cs
        let (value, count, rest) := takeDigits 0 0 digits
        if count = 0 then none else some (if negative then -value else value, rest)
      else some (0, c :: cs)
  | [] => some (0, [])

/-- The digits after a decimal point, with how many there are. -/
def readFraction (whole : Nat) : List Char → Option (Nat × Nat × List Char)
  | '.' :: cs =>
      let (value, count, rest) := takeDigits whole 0 cs
      if count = 0 then none else some (value, count, rest)
  | cs => some (whole, 0, cs)

def readUnsigned (negative : Bool) (cs : List Char) : Option (JsNumber × List Char) :=
  let (whole, count, rest) := takeDigits 0 0 cs
  if count = 0 ∨ (cs.head? = some '0' ∧ 1 < count) then none
  else
    match readFraction whole rest with
    | none => none
    | some (value, places, rest) =>
        match readExponentPart rest with
        | none => none
        | some (exponent, rest) =>
            some (ofMagnitude negative (value * (10 : ℚ) ^ (exponent - places)), rest)

def readNumber : List Char → Option (JsNumber × List Char)
  | '-' :: cs => readUnsigned true cs
  | cs => readUnsigned false cs

def hexValue (c : Char) : Option Nat :=
  if c.isDigit then some (c.toNat - '0'.toNat)
  else if 'a' ≤ c ∧ c ≤ 'f' then some (c.toNat - 'a'.toNat + 10)
  else if 'A' ≤ c ∧ c ≤ 'F' then some (c.toNat - 'A'.toNat + 10)
  else none

def hexUnit (a b c d : Char) : Option Nat :=
  match hexValue a, hexValue b, hexValue c, hexValue d with
  | some a, some b, some c, some d => some (((a * 16 + b) * 16 + c) * 16 + d)
  | _, _, _, _ => none

/-- The character of a code unit; half a surrogate pair is no character. -/
def unitChar (n : Nat) : Char := if n.isValidChar then Char.ofNat n else Char.ofNat 0xFFFD

def pairChar (high low : Nat) : Char :=
  Char.ofNat (0x10000 + (high - 0xD800) * 0x400 + (low - 0xDC00))

def isHighSurrogate (n : Nat) : Bool := decide (0xD800 ≤ n ∧ n < 0xDC00)

def isLowSurrogate (n : Nat) : Bool := decide (0xDC00 ≤ n ∧ n < 0xE000)

/-- A simple escape. -/
def escaped : Char → Option Char
  | '"' => some '"'
  | '\\' => some '\\'
  | '/' => some '/'
  | 'b' => some (Char.ofNat 8)
  | 'f' => some (Char.ofNat 12)
  | 'n' => some '\n'
  | 'r' => some '\r'
  | 't' => some '\t'
  | _ => none

/-- The rest of a string after its opening quote. A high surrogate is held until
the next unit is read. -/
def readString : (high : Option Nat) → List Char → Option (List Char × List Char)
  | _, [] => none
  | high, '\\' :: 'u' :: a :: b :: c :: d :: rest =>
      match hexUnit a b c d with
      | none => none
      | some unit =>
          match high with
          | some h =>
              if isLowSurrogate unit then
                (readString none rest).map fun (s, r) => (pairChar h unit :: s, r)
              else if isHighSurrogate unit then
                (readString (some unit) rest).map fun (s, r) => (unitChar h :: s, r)
              else (readString none rest).map fun (s, r) => (unitChar h :: unitChar unit :: s, r)
          | none =>
              if isHighSurrogate unit then readString (some unit) rest
              else (readString none rest).map fun (s, r) => (unitChar unit :: s, r)
  | high, '\\' :: c :: rest =>
      match escaped c with
      | none => none
      | some e =>
          (readString none rest).map fun (s, r) => ((high.map unitChar).toList ++ e :: s, r)
  | high, c :: rest =>
      if c = '"' then some ((high.map unitChar).toList, rest)
      else if c = '\\' ∨ c.toNat < 32 then none
      else (readString none rest).map fun (s, r) => ((high.map unitChar).toList ++ c :: s, r)

/-- The fields of an object literal as an object. -/
def collect (entries : List (String × Json)) : Record :=
  entries.foldl (fun r entry => Record.set r entry.1 entry.2) []

mutual

/-- One value; `fuel` bounds the calls. -/
def readValue : (fuel : Nat) → List Char → Option (Json × List Char)
  | 0, _ => none
  | fuel + 1, cs =>
      match skipSpace cs with
      | '{' :: cs =>
          match skipSpace cs with
          | '}' :: rest => some (.obj [], rest)
          | cs => (readFields fuel cs).map fun (entries, rest) => (.obj (collect entries), rest)
      | '[' :: cs =>
          match skipSpace cs with
          | ']' :: rest => some (.arr [], rest)
          | cs => (readItems fuel cs).map fun (items, rest) => (.arr items, rest)
      | '"' :: cs => (readString none cs).map fun (s, rest) => (.str (String.ofList s), rest)
      | 't' :: 'r' :: 'u' :: 'e' :: rest => some (.bool true, rest)
      | 'f' :: 'a' :: 'l' :: 's' :: 'e' :: rest => some (.bool false, rest)
      | 'n' :: 'u' :: 'l' :: 'l' :: rest => some (.null, rest)
      | cs => (readNumber cs).map fun (n, rest) => (.num n, rest)

/-- The items of an array, of which there is at least one, with the bracket that closes it. -/
def readItems : (fuel : Nat) → List Char → Option (List Json × List Char)
  | 0, _ => none
  | fuel + 1, cs =>
      match readValue fuel cs with
      | none => none
      | some (item, rest) =>
          match skipSpace rest with
          | ',' :: rest => (readItems fuel rest).map fun (items, rest) => (item :: items, rest)
          | ']' :: rest => some ([item], rest)
          | _ => none

/-- The fields of an object, likewise. -/
def readFields : (fuel : Nat) → List Char → Option (List (String × Json) × List Char)
  | 0, _ => none
  | fuel + 1, cs =>
      match skipSpace cs with
      | '"' :: cs =>
          match readString none cs with
          | none => none
          | some (key, rest) =>
              match skipSpace rest with
              | ':' :: rest =>
                  match readValue fuel rest with
                  | none => none
                  | some (value, rest) =>
                      match skipSpace rest with
                      | ',' :: rest =>
                          (readFields fuel rest).map fun (entries, rest) =>
                            ((String.ofList key, value) :: entries, rest)
                      | '}' :: rest => some ([(String.ofList key, value)], rest)
                      | _ => none
              | _ => none
      | _ => none

end

/-- `JSON.parse(text)`; `none` is a syntax error. -/
def jsonParse (text : String) : Option Json :=
  match readValue (2 * text.toList.length + 2) text.toList with
  | some (value, rest) => if (skipSpace rest).isEmpty then some value else none
  | none => none

end Read

theorem jsonParse_empty : jsonParse "" = none := rfl

section Reading

variable {fuel : Nat} {cs rest : List Char} {c : Char}

theorem readString_plain {high : Option Nat} {c : Char} (plain : ¬(c = '\\' ∨ c.toNat < 32))
    (inside : c ≠ '"') (cs : List Char) :
    readString high (c :: cs) =
      (readString none cs).map fun x => ((high.map unitChar).toList ++ c :: x.1, x.2) := by
  rw [readString, if_neg inside, if_neg plain]
  · rintro _ _ _ _ _ rfl
    exact absurd (.inl rfl) plain
  · rintro _ _ rfl
    exact absurd (.inl rfl) plain

theorem readString_escaped {high : Option Nat} {c e : Char} (is_escape : escaped c = some e)
    (cs : List Char) :
    readString high ('\\' :: c :: cs) =
      (readString none cs).map fun x => ((high.map unitChar).toList ++ e :: x.1, x.2) := by
  rw [readString]
  · simp only [is_escape]
  · rintro _ _ _ _ _ rfl
    exact absurd is_escape (by simp [escaped])

theorem readValue_emptyObject (opened : skipSpace cs = '{' :: rest) {after : List Char}
    (closed : skipSpace rest = '}' :: after) :
    readValue (fuel + 1) cs = some (.obj [], after) := by
  simp only [readValue, opened, closed]

theorem readValue_object (opened : skipSpace cs = '{' :: rest) {after : List Char}
    (first : skipSpace rest = c :: after) (more : c ≠ '}') :
    readValue (fuel + 1) cs =
      (readFields fuel (c :: after)).map fun x => (.obj (collect x.1), x.2) := by
  rw [readValue, opened]
  simp only [first]
  split
  · next closed =>
      cases closed
      exact absurd rfl more
  · rfl

theorem readValue_emptyArray (opened : skipSpace cs = '[' :: rest) {after : List Char}
    (closed : skipSpace rest = ']' :: after) :
    readValue (fuel + 1) cs = some (.arr [], after) := by
  simp only [readValue, opened, closed]

theorem readValue_array (opened : skipSpace cs = '[' :: rest) {after : List Char}
    (first : skipSpace rest = c :: after) (more : c ≠ ']') :
    readValue (fuel + 1) cs = (readItems fuel (c :: after)).map fun x => (.arr x.1, x.2) := by
  rw [readValue, opened]
  simp only [first]
  split
  · next closed =>
      cases closed
      exact absurd rfl more
  · rfl

theorem readValue_string (opened : skipSpace cs = '"' :: rest) :
    readValue (fuel + 1) cs =
      (readString none rest).map fun x => (.str (String.ofList x.1), x.2) := by
  simp only [readValue, opened]

theorem readValue_number (first : skipSpace cs = c :: rest) (number : c.isDigit = true ∨ c = '-') :
    readValue (fuel + 1) cs = (readNumber (c :: rest)).map fun x => (.num x.1, x.2) := by
  have other (d : Char) (is_c : c = d) : d.isDigit = true ∨ d = '-' := is_c ▸ number
  rw [readValue, first]
  split
  case h_7 => rfl
  all_goals
    next same =>
      cases same
      exact absurd (other _ rfl) (by decide)

theorem readItems_nil (fuel : Nat) : readItems fuel [] = none := by
  cases fuel with
  | zero => rfl
  | succ fuel => cases fuel <;> rfl

theorem readFields_nil (fuel : Nat) : readFields fuel [] = none := by
  cases fuel <;> rfl

end Reading

end Gateway
