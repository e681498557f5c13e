import Gateway.Db.Documents

/-!
Filters and updates.

A filter is read one entry after the other and stops at the first that does not
hold, so an operator the store does not know is only refused where it is reached.
An update is applied to a copy, and what it has done when it throws is lost with it.
-/

namespace Gateway.Memory

/-- `Object.entries(value)` -/
def entriesOf : Value → Except StoreError Fields
  | .obj fields => .ok fields
  | .arr items => .ok (items.mapIdx fun n item => (toString n, item))
  | .str s => .ok (s.toList.mapIdx fun n c => (toString n, .str (String.singleton c)))
  | .undefined | .null => .error .typeError
  | _ => .ok []

def isOperator (key : String) : Bool := key.toList.head? == some '$'

section Matching

variable (host : Host)

/-- The value and the operand in the order that the operator asks for. -/
def ordered (actual expected : Value) (test : Ordering → Bool) : Bool :=
  !actual.isNullish && ((compare host actual expected).elim false test)

/-- `Array.isArray(actual) ? actual.some(a => valueEquals(a, item)) : valueEquals(actual, item)` -/
def holdsItem (actual item : Value) : Bool :=
  match actual with
  | .arr items => items.any fun a => valueEquals a item
  | actual => valueEquals actual item

def inList (actual expected : Value) : Bool :=
  expected.items.elim false fun items => items.any (holdsItem actual)

/-- `matchOperator` for the operators other than `$not`. -/
def matchOperator (actual : Value) (op : String) (expected : Value) : Except StoreError Bool :=
  match op with
  | "$eq" => .ok (valueEquals actual expected)
  | "$ne" => .ok (!valueEquals actual expected)
  | "$gt" => .ok (ordered host actual expected (· == .gt))
  | "$gte" => .ok (ordered host actual expected (· != .lt))
  | "$lt" => .ok (ordered host actual expected (· == .lt))
  | "$lte" => .ok (ordered host actual expected (· != .gt))
  | "$in" => .ok (inList actual expected)
  | "$nin" => .ok (!inList actual expected)
  | "$exists" => .ok (actual.isUndefined != expected.truthy)
  | "$regex" =>
      match actual with
      | .str text =>
          ((host.regexTest (expected.toText host) text).map .ok).getD (.error .syntaxError)
      | _ => .ok false
  | "$all" =>
      .ok ((expected.items.bind fun wanted => actual.items.map fun items =>
        wanted.all fun item => items.any fun a => valueEquals a item).getD false)
  | "$size" =>
      .ok (actual.items.elim false fun items =>
        (Value.num (.ofInt items.length)).strictEquals (.num (expected.toNumber host)))
  | op => .error (.error ("memory store: unsupported query operator " ++ op))

mutual

def matchCondition (actual : Value) : Value → Except StoreError Bool
  | .obj entries =>
      if !entries.isEmpty && entries.all fun entry => isOperator entry.1 then
        everyOperator actual entries
      else .ok (valueEquals actual (.obj entries))
  | condition => .ok (valueEquals actual condition)

/-- `entries.every(([op, expected]) => matchOperator(actual, op, expected))` -/
def everyOperator (actual : Value) : List (String × Value) → Except StoreError Bool
  | [] => .ok true
  | (op, expected) :: rest =>
      let result :=
        if op = "$not" then (matchCondition actual expected).map (!·)
        else matchOperator host actual op expected
      result.bind fun holds => if holds then everyOperator actual rest else .ok false

end

/-- The entries of a filter that are conditions on paths. -/
def matchPaths (doc : Fields) : List (String × Value) → Except StoreError Bool
  | [] => .ok true
  | (key, condition) :: rest =>
      (matchCondition host (getPath doc key) condition).bind fun holds =>
        if holds then matchPaths doc rest else .ok false

mutual

def matchesFilter (doc : Fields) : List (String × Value) → Except StoreError Bool
  | [] => .ok true
  | (key, condition) :: rest =>
      let result :=
        if key = "$and" then (matchAll doc condition)
        else if key = "$or" then matchAny doc condition
        else if key = "$nor" then (matchAny doc condition).map (!·)
        else if key = "$expr" then .error (.error "memory store: $expr is not supported")
        else matchCondition host (getPath doc key) condition
      result.bind fun holds => if holds then matchesFilter doc rest else .ok false

/-- `condition.every(sub => matchesFilter(doc, sub))` -/
def matchAll (doc : Fields) : Value → Except StoreError Bool
  | .arr subs => matchAllOf doc subs
  | _ => .error .typeError

/-- `condition.some(sub => matchesFilter(doc, sub))` -/
def matchAny (doc : Fields) : Value → Except StoreError Bool
  | .arr subs => matchAnyOf doc subs
  | _ => .error .typeError

def matchAllOf (doc : Fields) : List Value → Except StoreError Bool
  | [] => .ok true
  | sub :: rest => (matchSub doc sub).bind fun holds =>
      if holds then matchAllOf doc rest else .ok false

def matchAnyOf (doc : Fields) : List Value → Except StoreError Bool
  | [] => .ok false
  | sub :: rest => (matchSub doc sub).bind fun holds =>
      if holds then .ok true else matchAnyOf doc rest

/-- A filter inside another; the entries of what is no object have no combinators. -/
def matchSub (doc : Fields) : Value → Except StoreError Bool
  | .obj fields => matchesFilter doc fields
  | sub => (entriesOf sub).bind (matchPaths host doc)

end

end Matching

section Updating

variable (host : Host)

/-- `typeof current === "number" ? current : 0` -/
def numberOr0 : Value → JsNumber
  | .num n => n
  | _ => .finite 0

/-- The integer that a position of `slice` is rounded to, within the bounds of the array. -/
def sliceIndex (length : Nat) : JsNumber → Int
  | .finite q => if q < 0 then ⌈q⌉ else ⌊q⌋
  | .infinity => length
  | .negInfinity => -length
  | .nan => 0

/-- `arr.slice(n)` of a negative number of items, `arr.slice(0, n)` of another. -/
def sliceItems (items : List Value) (n : JsNumber) : List Value :=
  let index := sliceIndex items.length n
  let negative := match n with
    | .finite q => decide (q < 0)
    | .negInfinity => true
    | _ => false
  if negative then
    if index = 0 then items else items.drop (items.length - index.natAbs)
  else items.take index.toNat

def itemsOr (current : Value) : List Value := current.items.getD []

/-- The items of `$each`, if the value is an object with such an array. -/
def eachOf (value : Value) : Option (List Value) :=
  value.plainFields.bind fun spec => (Fields.field spec "$each").items

/-- What `$push` puts in the place of the current value. -/
def pushed (current value : Value) : Value :=
  match eachOf value with
  | some each =>
      let grown := itemsOr current ++ each
      match (value.plainFields.map fun spec => Fields.field spec "$slice") with
      | some (.num n) => .arr (sliceItems grown n)
      | _ => .arr grown
  | none => .arr (itemsOr current ++ [value])

def addedToSet (current value : Value) : Value :=
  .arr (((eachOf value).getD [value]).foldl (fun items item =>
    if items.any fun a => valueEquals a item then items else items ++ [item]) (itemsOr current))

/-- The items that a condition does not match; the first condition that throws ends it. -/
def pulled (condition : Value) : List Value → Except StoreError (List Value)
  | [] => .ok []
  | item :: rest =>
      (matchCondition host item condition).bind fun holds =>
        (pulled condition rest).map fun kept => if holds then kept else item :: kept

/-- One entry of an operator: the path and its operand. -/
def updateField (now : Int) (isInsert : Bool) (op : String) (doc : Fields) (path : String)
    (value : Value) : Except StoreError Fields :=
  let current := getPath doc path
  match op with
  | "$set" => .ok (setPath doc path value)
  | "$setOnInsert" => .ok (if isInsert then setPath doc path value else doc)
  | "$unset" => .ok (unsetPath doc path)
  | "$inc" => .ok (setPath doc path (.num ((numberOr0 current).add (value.toNumber host))))
  | "$min" =>
      .ok (if current.isUndefined || compare host value current == some .lt
        then setPath doc path value else doc)
  | "$max" =>
      .ok (if current.isUndefined || compare host value current == some .gt
        then setPath doc path value else doc)
  | "$currentDate" => .ok (setPath doc path (.date now))
  | "$push" => .ok (setPath doc path (pushed current value))
  | "$addToSet" => .ok (setPath doc path (addedToSet current value))
  | "$pull" =>
      match current with
      | .arr items => (pulled host value items).map fun kept => setPath doc path (.arr kept)
      | _ => .ok doc
  | op => .error (.error ("memory store: unsupported update operator " ++ op))

def updateOperators : List String :=
  ["$set", "$setOnInsert", "$unset", "$inc", "$min", "$max", "$currentDate", "$push", "$addToSet",
    "$pull"]

/-- One operator of an update. The fields of `$setOnInsert` are not looked at in another
update than an insert. -/
def applyOperator (now : Int) (isInsert : Bool) (doc : Fields) (op : String) (payload : Value) :
    Except StoreError Fields :=
  if !isOperator op then .error (.error "memory store: replacement updates are not supported")
  else if !updateOperators.contains op then
    .error (.error ("memory store: unsupported update operator " ++ op))
  else if op = "$setOnInsert" && !isInsert then .ok doc
  else
    (entriesOf payload).bind fun fields =>
      fields.foldlM (fun doc field => updateField host now isInsert op doc field.1 field.2) doc

def applyUpdate (now : Int) (doc : Fields) (update : Fields) (isInsert : Bool) :
    Except StoreError Fields :=
  update.foldlM (fun doc entry => applyOperator host now isInsert doc entry.1 entry.2) doc

/-- The part of a condition that a new document takes its field from. -/
def seedValue : Value → Option Value
  | .obj entries =>
      if entries.all fun entry => isOperator entry.1 then entries.lookup "$eq"
      else some (.obj entries)
  | value => some value

def seedFromFilter (filter : Fields) : Fields :=
  filter.foldl (fun out entry =>
    if isOperator entry.1 then out
    else (seedValue entry.2).elim out fun value => setPath out entry.1 value) []

end Updating

end Gateway.Memory
