import Gateway.Util.Number
import Gateway.Util.Text
import Mathlib.Algebra.Order.Floor.Ring
import Mathlib.Data.Rat.Cast.Order

/-!
Parsed JSON and the accessors the gateway reads it with.

A field that is missing is `none`, as `undefined` is told apart from `null` in
the source. An object has each key once.
-/

namespace Gateway

inductive Json where
  | null
  | bool (value : Bool)
  | num (value : JsNumber)
  | str (value : String)
  | arr (items : List Json)
  | obj (fields : List (String × Json))

/-- The fields of a plain object. -/
abbrev Record := List (String × Json)

namespace Record

def field (r : Record) (key : String) : Option Json := List.lookup key r

/-- `key in r` -/
def has (r : Record) (key : String) : Bool := (r.field key).isSome

/-- Assignment of a field, in place when it is there. -/
def set (r : Record) (key : String) (value : Json) : Record :=
  if r.has key then r.map (fun entry => if entry.1 = key then (key, value) else entry)
  else r ++ [(key, value)]

@[simp]
theorem field_nil (key : String) : Record.field [] key = none := rfl

theorem field_cons (name key : String) (value : Json) (rest : Record) :
    Record.field ((name, value) :: rest) key =
      if key = name then some value else Record.field rest key := by
  by_cases same : key = name
  · subst same
    simp [field]
  · have other : (key == name) = false := beq_eq_false_iff_ne.mpr same
    simp only [field, List.lookup_cons, other, same, if_false]

theorem field_append (r s : Record) (key : String) :
    Record.field (r ++ s) key = (r.field key).or (s.field key) :=
  List.lookup_append

end Record

def asRecord : Option Json → Record
  | some (.obj fields) => fields
  | _ => []

def asArray : Option Json → List Json
  | some (.arr items) => items
  | _ => []

def asString : Option Json → String
  | some (.str value) => value
  | _ => ""

def asNumber : Option Json → ℚ
  | some (.num (.finite value)) => value
  | _ => 0

@[simp]
theorem asRecord_obj (fields : Record) : asRecord (some (.obj fields)) = fields := rfl

@[simp]
theorem asArray_arr (items : List Json) : asArray (some (.arr items)) = items := rfl

@[simp]
theorem asString_str (value : String) : asString (some (.str value)) = value := rfl

@[simp]
theorem asString_null : asString (some .null) = "" := rfl

namespace Json

def ofNat (n : Nat) : Json := .num (.finite n)

def ofRat (q : ℚ) : Json := .num (.finite q)

end Json

@[simp]
theorem asNumber_none : asNumber none = 0 := rfl

@[simp]
theorem asNumber_ofRat (q : ℚ) : asNumber (some (.ofRat q)) = q := rfl

@[simp]
theorem asNumber_ofNat (n : Nat) : asNumber (some (.ofNat n)) = n := rfl

section Number

/-- A run of decimal digits: its value, how many there are, and what follows. -/
def takeDigits (value count : Nat) : List Char → Nat × Nat × List Char
  | [] => (value, count, [])
  | c :: cs =>
      if c.isDigit then takeDigits (10 * value + (c.toNat - '0'.toNat)) (count + 1) cs
      else (value, count, c :: cs)

def takeSign : List Char → Bool × List Char
  | '-' :: cs => (true, cs)
  | '+' :: cs => (false, cs)
  | cs => (false, cs)

/-- The exponent part, which has to reach the end of the text. -/
def readExponent : List Char → Option Int
  | [] => some 0
  | c :: cs =>
      if c = 'e' ∨ c = 'E' then
        let (negative, digits) := takeSign cs
        let (value, count, rest) := takeDigits 0 0 digits
        if count = 0 ∨ rest ≠ [] then none
        else some (if negative then -value else value)
      else none

/-- Values from here on are rounded to infinity. -/
def overflowBound : ℚ := 2 ^ 1024 - 2 ^ 970

def ofMagnitude (negative : Bool) (magnitude : ℚ) : JsNumber :=
  if overflowBound ≤ magnitude then (if negative then .negInfinity else .infinity)
  else .finite (if negative then -magnitude else magnitude)

def readDecimal (text : List Char) : JsNumber :=
  let (negative, unsigned) := takeSign text
  if unsigned = "Infinity".toList then (if negative then .negInfinity else .infinity)
  else
    let (whole, wholeCount, rest) := takeDigits 0 0 unsigned
    let (value, fractionCount, rest) :=
      match rest with
      | '.' :: rest => takeDigits whole 0 rest
      | _ => (whole, 0, rest)
    if wholeCount + fractionCount = 0 then .nan
    else
      match readExponent rest with
      | none => .nan
      | some exponent => ofMagnitude negative (value * (10 : ℚ) ^ (exponent - fractionCount))

def digitValue (c : Char) : Nat :=
  if c.isDigit then c.toNat - '0'.toNat
  else if 'a' ≤ c ∧ c ≤ 'z' then c.toNat - 'a'.toNat + 10
  else if 'A' ≤ c ∧ c ≤ 'Z' then c.toNat - 'A'.toNat + 10
  else 36

def readRadix (base : Nat) (digits : List Char) : JsNumber :=
  if digits.isEmpty ∨ digits.any (fun c => decide (base ≤ digitValue c)) then .nan
  else ofMagnitude false (digits.foldl (fun value c => base * value + digitValue c) 0 : Nat)

/-- `Number(text)`; digits beyond the precision of a double are kept. -/
def stringToNumber (text : String) : JsNumber :=
  match (jsTrim text).toList with
  | [] => .finite 0
  | '0' :: 'x' :: digits | '0' :: 'X' :: digits => readRadix 16 digits
  | '0' :: 'o' :: digits | '0' :: 'O' :: digits => readRadix 8 digits
  | '0' :: 'b' :: digits | '0' :: 'B' :: digits => readRadix 2 digits
  | digits => readDecimal digits

/-- `Number` of an array reads its elements joined by commas. -/
def arrayToNumber : List Json → JsNumber
  | [] | [.null] => .finite 0
  | [.num value] => value
  | [.str text] => stringToNumber text
  | [.arr items] => arrayToNumber items
  | _ => .nan

/-- `Number(value)` -/
def toNumber : Option Json → JsNumber
  | none => .nan
  | some .null => .finite 0
  | some (.bool value) => .finite (if value then 1 else 0)
  | some (.num value) => value
  | some (.str text) => stringToNumber text
  | some (.arr items) => arrayToNumber items
  | some (.obj _) => .nan

end Number

example : stringToNumber " 1.5e1 " = .finite 15 := by decide +kernel

end Gateway
