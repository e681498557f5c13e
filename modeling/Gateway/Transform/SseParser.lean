import Gateway.Http.Errors
import Gateway.Util.Utf16

/-!
Server-sent event framing: the serialiser and the incremental parser.

A chunk may end anywhere, so the parser keeps the text of an unfinished line and
the fields of an unfinished event between calls. What is thrown discards the
events of the call it happens in and leaves the state where it was reached.
-/

namespace Gateway.Sse

/-- An event as the parser emits it. -/
structure Event where
  event : Option Units
  data : Units
  id : Option Units
  retry : Option ℚ
  comment : Option Units
deriving DecidableEq

def cr : UInt16 := 0x0D

def lf : UInt16 := 0x0A

def space : UInt16 := 0x20

def colon : UInt16 := 0x3A

def isBreak (u : UInt16) : Bool := u == cr || u == lf

section Serialise

/-- `value.replace(/[\r\n]+/g, " ")` -/
def oneLine : Units → Units
  | [] => []
  | [u] => if isBreak u then [space] else [u]
  | u :: v :: rest =>
      if isBreak u then
        if isBreak v then oneLine (v :: rest) else space :: oneLine (v :: rest)
      else u :: oneLine (v :: rest)

/-- `value.split(/\r\n|\n|\r/)` -/
def splitLines : Units → List Units
  | [] => [[]]
  | [u] => if isBreak u then [[], []] else [[u]]
  | u :: v :: rest =>
      if u = cr ∧ v = lf then [] :: splitLines rest
      else if isBreak u then [] :: splitLines (v :: rest)
      else (splitLines (v :: rest)).modifyHead (u :: ·)

/-- What `formatSse` is given; a field that is missing is not written. -/
structure Draft where
  event : Option Units
  data : Option Units
  id : Option Units
  retry : Option JsNumber
  comment : Option Units
deriving DecidableEq

/-- `name: value` as a line of the frame. -/
def fieldLine (name : String) (value : Units) : Units :=
  Units.ofString (name ++ ": ") ++ value ++ [lf]

/-- A field that is left out when it is missing or empty. -/
def optionalField (name : String) : Option Units → Units
  | some value => if value = [] then [] else fieldLine name (oneLine value)
  | none => []

/-- `Math.max(0, Math.floor(retry))` in decimal, when it is finite. -/
def retryField : Option JsNumber → Units
  | some (.finite q) =>
      fieldLine "retry" (Units.ofString (String.ofList (numberText (max 0 ⌊q⌋ : Int))))
  | _ => []

def formatSse (event : Draft) : Units :=
  event.comment.elim [] (fun text => fieldLine "" (oneLine text)) ++
    optionalField "id" event.id ++ optionalField "event" event.event ++
    retryField event.retry ++
    event.data.elim [] (fun data => (splitLines data).flatMap (fieldLine "data")) ++ [lf]

end Serialise

section Parse

/-- The fields of the event that is being read, apart from the text of its last
line. -/
structure Fields where
  dataLines : List Units
  eventName : Option Units
  lastId : Option Units
  retry : Option ℚ
  pending : Bool
  eventBytes : Nat
deriving DecidableEq

def Fields.initial : Fields := ⟨[], none, none, none, false, 0⟩

/-- `dataLines.join("\n")` -/
def joinLines (lines : List Units) : Units := List.intercalate [lf] lines

def dispatch (s : Fields) : List Event × Fields :=
  if s.pending then
    ([⟨s.eventName, joinLines s.dataLines, s.lastId, s.retry, none⟩],
      { Fields.initial with lastId := s.lastId })
  else ([], s)

/-- `value.replace(/^ /, "")` -/
def dropSpace : Units → Units
  | u :: rest => if u = space then rest else u :: rest
  | [] => []

/-- The name and the value of a line; a line without a colon has an empty value. -/
def fieldOf (line : Units) : Units × Units :=
  (line.takeWhile (· ≠ colon), dropSpace (line.dropWhile (· ≠ colon)).tail)

def lineTooLong (maxLineBytes : Nat) : GatewayError :=
  payloadTooLarge ("upstream sent an SSE line over " ++ toString maxLineBytes ++ " bytes")

def eventTooLong (maxLineBytes : Nat) : GatewayError :=
  payloadTooLarge ("upstream SSE event exceeded " ++ toString maxLineBytes ++ " bytes")

def setData (maxLineBytes : Nat) (value : Units) (s : Fields) :
    Except GatewayError (List Event) × Fields :=
  let eventBytes := s.eventBytes + (Units.byteLength value + 1)
  if maxLineBytes < eventBytes then
    (.error (eventTooLong maxLineBytes), { s with eventBytes := eventBytes })
  else
    (.ok [], { s with
      eventBytes := eventBytes, dataLines := s.dataLines ++ [value], pending := true })

/-- A NUL in the id is required to be ignored. -/
def setId (value : Units) (s : Fields) : Fields :=
  { s with lastId := if 0 ∈ value then s.lastId else some value, pending := true }

/-- `Number.isInteger(parsed) && parsed >= 0` -/
def readRetry (value : Units) : Option ℚ :=
  match stringToNumber value.toText with
  | .finite q => if q.den = 1 ∧ 0 ≤ q then some q else none
  | _ => none

def setRetry (value : Units) (s : Fields) : Fields :=
  { s with retry := (readRetry value).or s.retry, pending := true }

def commentEvent (line : Units) : Event := ⟨none, [], none, none, some (dropSpace line.tail)⟩

/-- An unknown field is ignored. -/
def setField (maxLineBytes : Nat) (field value : Units) (s : Fields) :
    Except GatewayError (List Event) × Fields :=
  if field = Units.ofString "data" then setData maxLineBytes value s
  else if field = Units.ofString "event" then
    (.ok [], { s with eventName := some value, pending := true })
  else if field = Units.ofString "id" then (.ok [], setId value s)
  else if field = Units.ofString "retry" then (.ok [], setRetry value s)
  else (.ok [], s)

def handleLine (maxLineBytes : Nat) (line : Units) (s : Fields) :
    Except GatewayError (List Event) × Fields :=
  if maxLineBytes < Units.byteLength line then (.error (lineTooLong maxLineBytes), s)
  else if line = [] then
    let (events, s) := dispatch s
    (.ok events, s)
  else if line.head? = some colon then (.ok [commentEvent line], s)
  else setField maxLineBytes (fieldOf line).1 (fieldOf line).2 s

/-- The first line of the buffer that is terminated, with what follows it. A
trailing CR may be the first half of CRLF in the next chunk. -/
def nextLine : Units → Option (Units × Units)
  | [] => none
  | [u] => if u = lf then some ([], []) else none
  | u :: v :: rest =>
      if u = cr ∧ v = lf then some ([], rest)
      else if isBreak u then some ([], v :: rest)
      else (nextLine (v :: rest)).map fun (line, after) => (u :: line, after)

theorem nextLine_shortens {buffer line rest : Units} (h : nextLine buffer = some (line, rest)) :
    rest.length < buffer.length := by
  fun_induction nextLine buffer generalizing line with
  | case1 => exact nomatch h
  | case2 => grind
  | case3 => exact nomatch h
  | case4 => grind
  | case5 => grind
  | case6 u v after both other ih =>
      obtain ⟨⟨inner, tail⟩, found, same⟩ := Option.map_eq_some_iff.mp h
      cases same
      have := ih found
      simp only [List.length_cons] at this ⊢
      omega

structure Parser where
  buffer : Units
  fields : Fields
deriving DecidableEq

/-- `createSseParser` -/
def Parser.initial : Parser := ⟨[], .initial⟩

/-- The loop over the lines that are terminated. -/
def readLines (maxLineBytes : Nat) (buffer : Units) (s : Fields) :
    Except GatewayError (List Event) × Parser :=
  match _h : nextLine buffer with
  | none => (.ok [], ⟨buffer, s⟩)
  | some (line, rest) =>
      match handleLine maxLineBytes line s with
      | (.error e, s) => (.error e, ⟨rest, s⟩)
      | (.ok events, s) =>
          let (later, p) := readLines maxLineBytes rest s
          (later.map (events ++ ·), p)
termination_by buffer.length
decreasing_by exact nextLine_shortens _h

/-- `buffer.replace(/\r$/, "")` -/
def dropCr (buffer : Units) : Units :=
  if buffer.getLast? = some cr then buffer.dropLast else buffer

def push (maxLineBytes : Nat) (p : Parser) (chunk : Units) :
    Except GatewayError (List Event) × Parser :=
  match readLines maxLineBytes (p.buffer ++ chunk) p.fields with
  | (.error e, p) => (.error e, p)
  | (.ok out, p) =>
      if maxLineBytes < Units.byteLength (dropCr p.buffer) then
        (.error (lineTooLong maxLineBytes), { p with buffer := [] })
      else (.ok out, p)

/-- The unterminated tail is read as a line, and what it leaves is emitted. -/
def flush (maxLineBytes : Nat) (p : Parser) : Except GatewayError (List Event) × Parser :=
  if p.buffer = [] then
    let (events, s) := dispatch p.fields
    (.ok events, ⟨[], s⟩)
  else
    match handleLine maxLineBytes (dropCr p.buffer) p.fields with
    | (.error e, s) => (.error e, ⟨[], s⟩)
    | (.ok out, s) =>
        let (events, s) := dispatch s
        (.ok (out ++ events), ⟨[], s⟩)

/-- The chunks of a stream one after the other, then the end of the stream. -/
def parseChunks (maxLineBytes : Nat) (p : Parser) : List Units → Except GatewayError (List Event)
  | [] => (flush maxLineBytes p).1
  | chunk :: chunks =>
      match push maxLineBytes p chunk with
      | (.error e, _) => .error e
      | (.ok events, p) => (parseChunks maxLineBytes p chunks).map (events ++ ·)

end Parse

end Gateway.Sse
