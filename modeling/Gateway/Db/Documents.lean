import Gateway.Util.JsonText
import Gateway.Util.Leaves
import Gateway.Util.Time
import Gateway.Util.Utf16

/-!
Documents of the store in the process, and how values in them are read, written and
compared.

A value is copied wherever it enters or leaves the store, so it is modelled by what
it is and not by where it lies. A path leads through objects by their own fields and
through arrays by positions; an array has no other entries.
-/

namespace Gateway.Memory

inductive Value where
  | undefined
  | null
  | bool (b : Bool)
  | num (n : JsNumber)
  | str (s : String)
  | date (ms : Int)
  | arr (items : List Value)
  | obj (fields : List (String × Value))

abbrev Fields := List (String × Value)

/-- What the store is given by the platform: regular expressions (none for a pattern that
does not parse), the text of a date and the random part of a generated id. -/
structure Host where
  regexTest : (pattern text : String) → Option Bool
  dateText : Int → String
  uuid : Nat → String

def plainHost : Host := ⟨fun _ _ => some false, fun _ => "", fun _ => ""⟩

/-- What an operation throws. -/
inductive StoreError where
  | duplicateKey (key : String)
  | error (message : String)
  | typeError
  | syntaxError
deriving DecidableEq, Repr

namespace Value

def isUndefined : Value → Bool
  | .undefined => true
  | _ => false

/-- `value === null || value === undefined` -/
def isNullish : Value → Bool
  | .undefined | .null => true
  | _ => false

/-- `Boolean(value)` -/
def truthy : Value → Bool
  | .undefined | .null | .bool false | .num .nan => false
  | .num (.finite q) => decide (q ≠ 0)
  | .str s => decide (s ≠ "")
  | _ => true

/-- `typeof value === "object" && value !== null` -/
def isObject : Value → Bool
  | .date _ | .arr _ | .obj _ => true
  | _ => false

/-- The fields of an object that is neither an array nor a date. -/
def plainFields : Value → Option Fields
  | .obj fields => some fields
  | _ => none

def items : Value → Option (List Value)
  | .arr items => some items
  | _ => none

/-- `String(value)` -/
def toText (host : Host) : Value → String
  | .undefined => "undefined"
  | .null => "null"
  | .bool b => if b then "true" else "false"
  | .num n => Json.numberString n
  | .str s => s
  | .date ms => host.dateText ms
  | .arr items => String.intercalate "," (itemTexts items)
  | .obj _ => "[object Object]"
where
  itemTexts : List Value → List String
    | [] => []
    | item :: rest => (if item.isNullish then "" else toText host item) :: itemTexts rest

/-- `Number(value)` -/
def toNumber (host : Host) : Value → JsNumber
  | .undefined => .nan
  | .null => .finite 0
  | .bool b => .finite (if b then 1 else 0)
  | .num n => n
  | .date ms => .ofInt ms
  | value => stringToNumber (value.toText host)

mutual

/-- The JSON form of a value; an undefined one has none. -/
def toJson : Value → Option Json
  | .undefined => none
  | .null => some .null
  | .bool b => some (.bool b)
  | .num n => some (.num n)
  | .str s => some (.str s)
  | .date ms => some (.str (isoText ms))
  | .arr items => some (.arr (itemsToJson items))
  | .obj fields => some (.obj (fieldsToJson fields))

def itemsToJson : List Value → List Json
  | [] => []
  | item :: rest => (toJson item).getD .null :: itemsToJson rest

def fieldsToJson : List (String × Value) → List (String × Json)
  | [] => []
  | (key, value) :: rest =>
      (toJson value).elim (fieldsToJson rest) fun json => (key, json) :: fieldsToJson rest

end

/-- `JSON.stringify(value)` of an object. -/
def stringify (value : Value) : String := jsonStringify (value.toJson.getD .null)

/-- `a === b` of values that are no objects; two objects are two values. -/
def strictEquals : Value → Value → Bool
  | .undefined, .undefined | .null, .null => true
  | .bool a, .bool b => a == b
  | .num (.finite p), .num (.finite q) => decide (p = q)
  | .num .infinity, .num .infinity | .num .negInfinity, .num .negInfinity => true
  | .str s, .str t => s == t
  | _, _ => false

end Value

section Paths

/-- `path.split(".")` -/
def splitPath (path : String) : List String := (path.toList.splitOn '.').map String.ofList

def Fields.field (fields : Fields) (key : String) : Value := (fields.lookup key).getD .undefined

def Fields.assign (fields : Fields) (key : String) (value : Value) : Fields :=
  match fields with
  | [] => [(key, value)]
  | (name, old) :: rest =>
      if name = key then (key, value) :: rest else (name, old) :: Fields.assign rest key value

/-- `Number(part)` as a position, if it is one. -/
def numericIndex (part : String) : Option Nat :=
  match stringToNumber part with
  | .finite q => if q.den = 1 ∧ 0 ≤ q then some q.num.toNat else none
  | _ => none

/-- A part that is the name of a position of an array. -/
def arrayIndex (part : String) : Option Nat :=
  (numericIndex part).filter fun n => part.toList = Nat.toDigits 10 n

def getParts : List String → Value → Value
  | [], current => current
  | part :: rest, .arr items =>
      getParts rest ((numericIndex part).elim .undefined fun n => items.getD n .undefined)
  | part :: rest, .obj fields => getParts rest (Fields.field fields part)
  | _ :: _, _ => .undefined

def getPath (doc : Fields) (path : String) : Value := getParts (splitPath path) (.obj doc)

/-- `current[part]` of an object. -/
def member (part : String) : Value → Value
  | .obj fields => Fields.field fields part
  | .arr items => (arrayIndex part).elim .undefined fun n => items.getD n .undefined
  | _ => .undefined

/-- The array with a value at a position; what lies between is undefined. -/
def setItem (items : List Value) (n : Nat) (value : Value) : List Value :=
  if n < items.length then items.set n value
  else items ++ List.replicate (n - items.length) .undefined ++ [value]

/-- `current[part] = value` of an object. -/
def assignMember (part : String) (value : Value) : Value → Value
  | .obj fields => .obj (Fields.assign fields part value)
  | .arr items => .arr ((arrayIndex part).elim items fun n => setItem items n value)
  | current => current

/-- `delete current[part]` of an object. -/
def deleteMember (part : String) : Value → Value
  | .obj fields => .obj (fields.filter fun field => field.1 ≠ part)
  | .arr items => .arr ((arrayIndex part).elim items fun n => items.set n .undefined)
  | current => current

def protectedParts : List String := ["__proto__", "constructor", "prototype"]

def setParts (value : Value) : List String → Value → Value
  | [], current => current
  | [last], current =>
      if protectedParts.contains last then current else assignMember last value current
  | part :: next :: rest, current =>
      if protectedParts.contains part then current
      else
        let inner := if (member part current).isObject then member part current else .obj []
        assignMember part (setParts value (next :: rest) inner) current

def setPath (doc : Fields) (path : String) (value : Value) : Fields :=
  (setParts value (splitPath path) (.obj doc)).plainFields.getD doc

def unsetParts : List String → Value → Value
  | [], current => current
  | [last], current => deleteMember last current
  | part :: next :: rest, current =>
      if (member part current).isObject then
        assignMember part (unsetParts (next :: rest) (member part current)) current
      else current

def unsetPath (doc : Fields) (path : String) : Fields :=
  (unsetParts (splitPath path) (.obj doc)).plainFields.getD doc

end Paths

section Comparison

/-- The sign of `a - b`; none where the difference is no number. -/
def compareNumbers : JsNumber → JsNumber → Option Ordering
  | .finite p, .finite q => some (if p < q then .lt else if q < p then .gt else .eq)
  | .nan, _ | _, .nan | .infinity, .infinity | .negInfinity, .negInfinity => none
  | .infinity, _ | _, .negInfinity => some .gt
  | .negInfinity, _ | _, .infinity => some .lt

def textLess (s t : String) : Bool := decide (Units.ofString s < Units.ofString t)

/-- A date as the number it is compared by. -/
def undated : Value → Value
  | .date ms => .num (.ofInt ms)
  | value => value

/-- The sign of `compare(a, b)`. -/
def compare (host : Host) (a b : Value) : Option Ordering :=
  match undated a, undated b with
  | .num p, .num q => compareNumbers p q
  | .str s, .str t => some (if textLess s t then .lt else if textLess t s then .gt else .eq)
  | av, bv =>
      if av.strictEquals bv then some .eq
      else some (if textLess (av.toText host) (bv.toText host) then .lt else .gt)

/-- What is left of `valueEquals` where neither value is an array or both are dates. -/
def plainEquals (a b : Value) : Bool :=
  if a.isObject && b.isObject then a.stringify == b.stringify else a.strictEquals b

mutual

def valueEquals : Value → Value → Bool
  | .date s, .date t => s == t
  | .date s, .str t => isoText s == t
  | .arr items, .arr items' => everyEquals items items'
  | .arr items, b => someEquals items b
  | a, b => plainEquals a b

/-- Arrays of one length, equal item by item. -/
def everyEquals : List Value → List Value → Bool
  | [], [] => true
  | item :: rest, item' :: rest' => valueEquals item item' && everyEquals rest rest'
  | _, _ => false

def someEquals : List Value → Value → Bool
  | [], _ => false
  | item :: rest, b => valueEquals item b || someEquals rest b

end

end Comparison

end Gateway.Memory
