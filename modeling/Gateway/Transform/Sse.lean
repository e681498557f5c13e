import Gateway.Util.Json

/-!
Events of an upstream stream and the chunks they are translated into.

The data of an event is taken as the translators tell it apart, after framing,
redaction and the bounded parse. Every translator emits chunks in the OpenAI
shape, and the framer of the client writes the completion text of a chunk.
-/

namespace Gateway

inductive Dialect where
  | openai
  | anthropic
  | gemini
deriving DecidableEq, Repr

/-- The sentinel, a JSON value, or data that does not parse. -/
inductive SseData where
  | done
  | json (value : Json)
  | unparsed

structure SseEvent where
  event : Option String
  data : SseData

def parseSseData : SseData → Option Json
  | .json value => some value
  | _ => none

/-- `data.trim() === SSE_DONE` -/
def isDoneSentinel : SseData → Bool
  | .done => true
  | _ => false

/-- The parsed data when it is a plain object. -/
def plainObject : SseData → Option Record
  | .json (.obj fields) => some fields
  | _ => none

/-- What a translator is created with, and the values it draws from outside:
the clock, random ids and the serialisation of arguments. -/
structure StreamOptions where
  model : String
  id : String
  created : Nat
  suppressUsageFrame : Bool
  randomId : Nat → String
  stringify : Json → String

/-- A chunk in the OpenAI shape. -/
def chunk (options : StreamOptions) (delta : Record) (finishReason : Option String) : Record :=
  [("id", .str options.id), ("object", .str "chat.completion.chunk"),
    ("created", .ofNat options.created), ("model", .str options.model),
    ("choices", .arr [.obj [("index", .ofNat 0), ("delta", .obj delta),
      ("finish_reason", finishReason.elim .null .str)]])]

/-- The text a client sees of a chunk: the content of the first choice. -/
def completionText (c : Record) : String :=
  let choice := asRecord (asArray (c.field "choices")).head?
  asString ((asRecord (choice.field "delta")).field "content")

/-- The last value that any event of a stream reports. -/
def lastReport {α : Type*} (report : SseEvent → Option α) (events : List SseEvent) : Option α :=
  events.reverse.findSome? report

section Reports

variable {α : Type*} {report : SseEvent → Option α}

@[simp]
theorem lastReport_nil : lastReport report [] = none := rfl

theorem lastReport_append (events later : List SseEvent) :
    lastReport report (events ++ later) =
      (lastReport report later).or (lastReport report events) := by
  simp only [lastReport, List.reverse_append, List.findSome?_append]

theorem lastReport_cons (event : SseEvent) (later : List SseEvent) :
    lastReport report (event :: later) = (lastReport report later).or (report event) := by
  have single : lastReport report [event] = report event := by
    simp only [lastReport, List.reverse_singleton, List.findSome?_cons, List.findSome?_nil]
    cases report event <;> rfl
  rw [← List.singleton_append, lastReport_append, single]

theorem lastReport_quiet {events : List SseEvent} (quiet : ∀ e ∈ events, report e = none) :
    lastReport report events = none := by
  simpa [lastReport] using quiet

theorem exists_of_lastReport {events : List SseEvent} {value : α}
    (h : lastReport report events = some value) : ∃ e ∈ events, report e = some value := by
  obtain ⟨e, mem, reported⟩ := List.exists_of_findSome?_eq_some h
  exact ⟨e, List.mem_reverse.mp mem, reported⟩

/-- A fold whose state is set by reports and kept by all other events. -/
theorem foldl_report {σ : Type*} (next : σ → SseEvent → σ) (view : σ → α)
    (spec : ∀ s e, view (next s e) = (report e).getD (view s)) (s : σ)
    (events : List SseEvent) :
    view (events.foldl next s) = (lastReport report events).getD (view s) := by
  induction events generalizing s with
  | nil => rfl
  | cons event events ih =>
      rw [List.foldl_cons, ih, spec, lastReport_cons]
      cases lastReport report events <;> simp

end Reports

end Gateway
