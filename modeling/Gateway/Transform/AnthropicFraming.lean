import Gateway.Transform.ClientResponses
import Gateway.Transform.Framing
import Gateway.Transform.SseRoundTrip
import Mathlib.Data.List.Sort

/-!
The frames that an Anthropic client is written.

Content blocks are opened where something arrives for them, in the order of
arrival, and closed together at the end, newest first. A client is a reader that
knows which blocks are open; it takes every stream that the framer writes.
-/

namespace Gateway.AnthropicFramer

inductive Frame where
  | messageStart (id model : String)
  | blockStart (index : Nat) (contentBlock : Record)
  | textDelta (index : Nat) (text : String)
  | inputJsonDelta (index : Nat) (partialJson : String)
  | blockStop (index : Nat)
  | messageDelta (stopReason : String) (outputTokens : ℚ)
  | messageStop

namespace Frame

def event : Frame → String
  | .messageStart .. => "message_start"
  | .blockStart .. => "content_block_start"
  | .textDelta .. | .inputJsonDelta .. => "content_block_delta"
  | .blockStop _ => "content_block_stop"
  | .messageDelta .. => "message_delta"
  | .messageStop => "message_stop"

def payload : Frame → Record
  | .messageStart id model =>
      [("message", .obj [("id", .str id), ("type", .str "message"), ("role", .str "assistant"),
        ("model", .str model), ("content", .arr []), ("stop_reason", .null),
        ("stop_sequence", .null),
        ("usage", .obj [("input_tokens", .ofNat 0), ("output_tokens", .ofNat 0)])])]
  | .blockStart index contentBlock =>
      [("index", .ofNat index), ("content_block", .obj contentBlock)]
  | .textDelta index text =>
      [("index", .ofNat index),
        ("delta", .obj [("type", .str "text_delta"), ("text", .str text)])]
  | .inputJsonDelta index partialJson =>
      [("index", .ofNat index),
        ("delta", .obj [("type", .str "input_json_delta"), ("partial_json", .str partialJson)])]
  | .blockStop index => [("index", .ofNat index)]
  | .messageDelta stopReason outputTokens =>
      [("delta", .obj [("stop_reason", .str stopReason), ("stop_sequence", .null)]),
        ("usage", .obj [("output_tokens", .ofRat outputTokens)])]
  | .messageStop => []

/-- `formatSse({ event, data: JSON.stringify({ type: event, ...payload }) })` -/
def message (f : Frame) : Sse.Message :=
  ⟨some (Units.ofString f.event),
    Units.ofString (jsonStringify (.obj (("type", .str f.event) :: f.payload))), none⟩

def opens : Frame → Option Nat
  | .blockStart index _ => some index
  | _ => none

def writes : Frame → Option Nat
  | .textDelta index _ | .inputJsonDelta index _ => some index
  | _ => none

def stops : Frame → Option Nat
  | .blockStop index => some index
  | _ => none

/-- What the frame adds to the text of the message. -/
def text : Frame → String
  | .textDelta _ text => text
  | _ => ""

/-- What the frame adds to the input of a block. -/
def inputOf (index : Nat) : Frame → String
  | .inputJsonDelta i partialJson => if i = index then partialJson else ""
  | _ => ""

end Frame

/-- What the socket is written. -/
def written (frames : List Frame) : Units := Sse.wire (frames.map Frame.message)

/-- What the framer keeps; `drawn` is how many random ids it has drawn. -/
structure State where
  openToolBlocks : List (ℚ × Nat)
  nextIndex : Nat
  textIndex : Option Nat
  stopReason : String
  closed : Bool
  drawn : Nat

def State.initial : State := ⟨[], 0, none, "end_turn", false, 0⟩

structure Options where
  model : String
  id : Option String
  randomHex : Nat → String

def start (options : Options) : List Frame :=
  [.messageStart (options.id.getD ("msg_" ++ options.randomHex 0)) options.model]

def textFrames (content : String) (s : State) : List Frame × State :=
  if content = "" then ([], s)
  else
    match s.textIndex with
    | some index => ([.textDelta index content], s)
    | none =>
        ([.blockStart s.nextIndex [("type", .str "text"), ("text", .str "")],
            .textDelta s.nextIndex content],
          { s with textIndex := some s.nextIndex, nextIndex := s.nextIndex + 1 })

def inputFrames (index : Nat) (partialJson : String) : List Frame :=
  if partialJson = "" then [] else [.inputJsonDelta index partialJson]

/-- `asString(call.id) || toolu_…`, and how many ids are drawn then. -/
def toolBlockId (options : Options) (s : State) (call : Record) : String × Nat :=
  if asString (call.field "id") = "" then ("toolu_" ++ options.randomHex (s.drawn + 1), s.drawn + 1)
  else (asString (call.field "id"), s.drawn)

def callFrames (options : Options) (call : Record) (s : State) : List Frame × State :=
  match s.openToolBlocks.lookup (indexOf call) with
  | some index => (inputFrames index (argumentsIn call), s)
  | none =>
      let (id, drawn) := toolBlockId options s call
      (.blockStart s.nextIndex [("type", .str "tool_use"), ("id", .str id),
          ("name", .str (nameOf call)), ("input", .obj [])] ::
          inputFrames s.nextIndex (argumentsIn call),
        { s with
          openToolBlocks := s.openToolBlocks ++ [(indexOf call, s.nextIndex)]
          nextIndex := s.nextIndex + 1
          drawn })

def callsFrames (options : Options) : List Record → State → List Frame × State
  | [], s => ([], s)
  | call :: calls, s =>
      let (first, s) := callFrames options call s
      let (rest, s) := callsFrames options calls s
      (first ++ rest, s)

def chunk (options : Options) (c : Record) (s : State) : List Frame × State :=
  let delta := readDelta c
  let (text, s) := textFrames delta.content s
  let (calls, s) := callsFrames options delta.toolCalls s
  (text ++ calls,
    if delta.finishReason = "" then s
    else { s with stopReason := stopReasonFromOpenai (some (.str delta.finishReason)) })

/-- The blocks that were opened, newest first. -/
def openIndexes (s : State) : List Nat :=
  (s.openToolBlocks.map Prod.snd ++ s.textIndex.toList).insertionSort (· ≥ ·)

def finish (usage : Option Record) (s : State) : List Frame × State :=
  if s.closed then ([], s)
  else
    ((openIndexes s).map .blockStop ++
        [.messageDelta s.stopReason (asNumber (usage.bind (·.field "completion_tokens"))),
          .messageStop],
      { s with closed := true })

def chunks (options : Options) : List Record → State → List Frame × State
  | [], s => ([], s)
  | c :: rest, s =>
      let (first, s) := chunk options c s
      let (later, s) := chunks options rest s
      (first ++ later, s)

/-- A stream from its start to its end, and what the framer keeps then. -/
def stream (options : Options) (input : List Record) (usage : Option Record) :
    List Frame × State :=
  let (body, s) := chunks options input .initial
  let (closing, s) := finish usage s
  (start options ++ body ++ closing, s)

/-- Where a client is in a message. -/
inductive Phase where
  | awaiting
  | inside
  | closing
  | ended
deriving DecidableEq, Repr

/-- What a client knows of the blocks: how many were opened, and which were stopped. -/
structure Reader where
  phase : Phase
  opened : Nat
  stopped : List Nat
deriving DecidableEq, Repr

namespace Reader

def initial : Reader := ⟨.awaiting, 0, []⟩

/-- A block that is open and not yet stopped. -/
def IsOpen (r : Reader) (index : Nat) : Prop := index < r.opened ∧ index ∉ r.stopped

instance (r : Reader) (index : Nat) : Decidable (r.IsOpen index) :=
  inferInstanceAs (Decidable (index < r.opened ∧ index ∉ r.stopped))

/-- A frame that is in place; blocks are opened in turn, and all stopped before the message is. -/
def accept (r : Reader) : Frame → Option Reader
  | .messageStart .. => if r.phase = .awaiting then some { r with phase := .inside } else none
  | .blockStart index _ =>
      if r.phase = .inside ∧ index = r.opened then some { r with opened := r.opened + 1 } else none
  | .textDelta index _ | .inputJsonDelta index _ =>
      if r.phase = .inside ∧ r.IsOpen index then some r else none
  | .blockStop index =>
      if r.phase = .inside ∧ r.IsOpen index then some { r with stopped := r.stopped ++ [index] }
      else none
  | .messageDelta .. =>
      if r.phase = .inside ∧ ∀ index < r.opened, index ∈ r.stopped then
        some { r with phase := .closing }
      else none
  | .messageStop => if r.phase = .closing then some { r with phase := .ended } else none

def read : Reader → List Frame → Option Reader
  | r, [] => some r
  | r, f :: frames => (r.accept f).bind fun next => next.read frames

theorem read_append (r : Reader) (frames later : List Frame) :
    r.read (frames ++ later) = (r.read frames).bind fun next => next.read later := by
  induction frames generalizing r with
  | nil => rfl
  | cons f frames ih =>
      rw [List.cons_append, read, read]
      cases r.accept f with
      | none => rfl
      | some next => exact ih next

end Reader

/-- Well-formed frames: blocks are opened in turn, only blocks that are open are written or stopped,
and behind the last of them, when all are stopped, the message ends. -/
structure WellFramed (frames : List Frame) : Prop where
  opens : ∃ n, frames.filterMap Frame.opens = List.range n
  writes : ∀ before f after, frames = before ++ f :: after → ∀ index, f.writes = some index →
    index ∈ before.filterMap Frame.opens ∧ index ∉ before.filterMap Frame.stops
  stops : ∀ before f after, frames = before ++ f :: after → ∀ index, f.stops = some index →
    index ∈ before.filterMap Frame.opens ∧ index ∉ before.filterMap Frame.stops
  ends : ∃ id model body stopReason outputTokens,
    frames = .messageStart id model ::
      (body ++ [.messageDelta stopReason outputTokens, .messageStop]) ∧
    (∀ f ∈ body, (f.opens.or (f.writes.or f.stops)).isSome) ∧
    ∀ index ∈ body.filterMap Frame.opens, index ∈ body.filterMap Frame.stops

section Read

variable {r r' : Reader} {frames : List Frame}

theorem read_cons {f : Frame} (h : r.read (f :: frames) = some r') :
    ∃ next, r.accept f = some next ∧ next.read frames = some r' :=
  Option.bind_eq_some_iff.mp h

/-- What one frame changes. -/
theorem accept_spec {f : Frame} (h : r.accept f = some r') :
    ((f.opens = some r.opened ∧ r'.opened = r.opened + 1) ∨
        (f.opens = none ∧ r'.opened = r.opened)) ∧
      r'.stopped = r.stopped ++ f.stops.toList ∧
      ∀ index, f.writes = some index ∨ f.stops = some index → r.IsOpen index := by
  cases f with
  | messageStart id model =>
      obtain ⟨-, same⟩ := Option.ite_none_right_eq_some.mp h
      cases same
      exact ⟨.inr ⟨rfl, rfl⟩, by simp [Frame.stops], by simp [Frame.writes, Frame.stops]⟩
  | blockStart index contentBlock =>
      obtain ⟨⟨-, rfl⟩, same⟩ := Option.ite_none_right_eq_some.mp h
      cases same
      exact ⟨.inl ⟨rfl, rfl⟩, by simp [Frame.stops], by simp [Frame.writes, Frame.stops]⟩
  | textDelta index text =>
      obtain ⟨⟨-, isOpen⟩, same⟩ := Option.ite_none_right_eq_some.mp h
      cases same
      exact ⟨.inr ⟨rfl, rfl⟩, by simp [Frame.stops], by simpa [Frame.writes, Frame.stops]⟩
  | inputJsonDelta index partialJson =>
      obtain ⟨⟨-, isOpen⟩, same⟩ := Option.ite_none_right_eq_some.mp h
      cases same
      exact ⟨.inr ⟨rfl, rfl⟩, by simp [Frame.stops], by simpa [Frame.writes, Frame.stops]⟩
  | blockStop index =>
      obtain ⟨⟨-, isOpen⟩, same⟩ := Option.ite_none_right_eq_some.mp h
      cases same
      exact ⟨.inr ⟨rfl, rfl⟩, rfl, by simpa [Frame.writes, Frame.stops]⟩
  | messageDelta stopReason outputTokens =>
      obtain ⟨-, same⟩ := Option.ite_none_right_eq_some.mp h
      cases same
      exact ⟨.inr ⟨rfl, rfl⟩, by simp [Frame.stops], by simp [Frame.writes, Frame.stops]⟩
  | messageStop =>
      obtain ⟨-, same⟩ := Option.ite_none_right_eq_some.mp h
      cases same
      exact ⟨.inr ⟨rfl, rfl⟩, by simp [Frame.stops], by simp [Frame.writes, Frame.stops]⟩

/-- A reader counts what was opened, and remembers what was stopped. -/
theorem read_spec (h : r.read frames = some r') :
    List.range r.opened ++ frames.filterMap Frame.opens = List.range r'.opened ∧
      r'.stopped = r.stopped ++ frames.filterMap Frame.stops := by
  induction frames generalizing r with
  | nil =>
      cases h
      simp
  | cons f frames ih =>
      obtain ⟨next, accepted, rest⟩ := read_cons h
      obtain ⟨opens, stopped, -⟩ := accept_spec accepted
      obtain ⟨ranged, later⟩ := ih rest
      constructor
      · rw [← ranged]
        rcases opens with ⟨opens, one_more⟩ | ⟨opens, same⟩
        · rw [List.filterMap_cons_some opens, one_more, List.range_succ, List.append_assoc]
          rfl
        · rw [List.filterMap_cons_none opens, same]
      · rw [later, stopped, List.append_assoc]
        cases stops : f.stops with
        | none => rw [List.filterMap_cons_none stops]; rfl
        | some index => rw [List.filterMap_cons_some stops]; rfl

theorem read_split {before after : List Frame} {f : Frame}
    (h : Reader.initial.read (before ++ f :: after) = some r') :
    ∀ index, f.writes = some index ∨ f.stops = some index →
      index ∈ before.filterMap Frame.opens ∧ index ∉ before.filterMap Frame.stops := by
  intro index touches
  rw [Reader.read_append] at h
  obtain ⟨mid, first, rest⟩ := Option.bind_eq_some_iff.mp h
  obtain ⟨next, accepted, -⟩ := read_cons rest
  obtain ⟨opened, stopped⟩ := read_spec first
  obtain ⟨below, running⟩ := (accept_spec accepted).2.2 index touches
  have none_before : List.range Reader.initial.opened = [] := rfl
  have none_stopped : Reader.initial.stopped = [] := rfl
  rw [none_before, List.nil_append] at opened
  rw [none_stopped, List.nil_append] at stopped
  exact ⟨opened ▸ List.mem_range.mpr below, stopped ▸ running⟩

/-- Nothing is read behind the end of a message. -/
theorem read_ended (ended : r.phase = .ended) (h : r.read frames = some r') : frames = [] := by
  cases frames with
  | nil => rfl
  | cons f frames =>
      obtain ⟨next, accepted, -⟩ := read_cons h
      cases f <;> simp [Reader.accept, ended] at accepted

theorem read_closing (closing : r.phase = .closing) (h : r.read frames = some r')
    (ended : r'.phase = .ended) : frames = [.messageStop] := by
  cases frames with
  | nil =>
      cases h
      rw [closing] at ended
      cases ended
  | cons f frames =>
      obtain ⟨next, accepted, rest⟩ := read_cons h
      cases f with
      | messageStop =>
          obtain ⟨-, same⟩ := Option.ite_none_right_eq_some.mp accepted
          cases same
          rw [read_ended rfl rest]
      | _ => simp [Reader.accept, closing] at accepted

/-- From inside a message to its end: frames of blocks until all are stopped, and two more. -/
theorem read_inside (inside : r.phase = .inside) (h : r.read frames = some r')
    (ended : r'.phase = .ended) :
    ∃ body stopReason outputTokens, ∃ mid : Reader,
      frames = body ++ [.messageDelta stopReason outputTokens, .messageStop] ∧
      (∀ f ∈ body, (f.opens.or (f.writes.or f.stops)).isSome) ∧
      r.read body = some mid ∧ ∀ index < mid.opened, index ∈ mid.stopped := by
  induction frames generalizing r with
  | nil =>
      cases h
      rw [inside] at ended
      cases ended
  | cons f frames ih =>
      obtain ⟨next, accepted, rest⟩ := read_cons h
      -- A frame of a block leaves the reader inside the message.
      have within (still : next.phase = .inside)
          (ofBlock : (f.opens.or (f.writes.or f.stops)).isSome) :
          ∃ body stopReason outputTokens, ∃ mid : Reader,
            f :: frames = body ++ [.messageDelta stopReason outputTokens, .messageStop] ∧
            (∀ f ∈ body, (f.opens.or (f.writes.or f.stops)).isSome) ∧
            r.read body = some mid ∧ ∀ index < mid.opened, index ∈ mid.stopped := by
        obtain ⟨body, stopReason, outputTokens, mid, rfl, blocks, readBody, all⟩ := ih still rest
        refine ⟨f :: body, stopReason, outputTokens, mid, rfl,
          List.forall_mem_cons.mpr ⟨ofBlock, blocks⟩, ?_, all⟩
        rw [Reader.read, accepted]
        exact readBody
      cases f with
      | messageStart id model =>
          obtain ⟨await, -⟩ := Option.ite_none_right_eq_some.mp accepted
          rw [inside] at await
          cases await
      | blockStart index contentBlock =>
          obtain ⟨-, same⟩ := Option.ite_none_right_eq_some.mp accepted
          exact within (by rw [← Option.some.inj same]; exact inside) rfl
      | textDelta index text =>
          obtain ⟨-, same⟩ := Option.ite_none_right_eq_some.mp accepted
          exact within (by rw [← Option.some.inj same]; exact inside) rfl
      | inputJsonDelta index partialJson =>
          obtain ⟨-, same⟩ := Option.ite_none_right_eq_some.mp accepted
          exact within (by rw [← Option.some.inj same]; exact inside) rfl
      | blockStop index =>
          obtain ⟨-, same⟩ := Option.ite_none_right_eq_some.mp accepted
          exact within (by rw [← Option.some.inj same]; exact inside) rfl
      | messageDelta stopReason outputTokens =>
          obtain ⟨⟨-, all⟩, same⟩ := Option.ite_none_right_eq_some.mp accepted
          have closing : next.phase = .closing := by rw [← Option.some.inj same]
          rw [read_closing closing rest ended]
          exact ⟨[], stopReason, outputTokens, r, rfl, by simp, rfl, all⟩
      | messageStop =>
          obtain ⟨closing, -⟩ := Option.ite_none_right_eq_some.mp accepted
          rw [inside] at closing
          cases closing

/-- What a reader takes to the end is well formed. -/
theorem wellFramed_of_read (h : Reader.initial.read frames = some r') (ended : r'.phase = .ended) :
    WellFramed frames := by
  obtain ⟨opened, -⟩ := read_spec h
  refine ⟨⟨_, opened⟩, ?_, ?_, ?_⟩
  · intro before f after split index writes
    exact read_split (split ▸ h) index (.inl writes)
  · intro before f after split index stops
    exact read_split (split ▸ h) index (.inr stops)
  · cases frames with
    | nil =>
        cases h
        cases ended
    | cons f frames =>
        obtain ⟨next, accepted, rest⟩ := read_cons h
        cases f with
        | messageStart id model =>
            have begun : some (⟨.inside, 0, []⟩ : Reader) = some next := accepted
            cases begun
            obtain ⟨body, stopReason, outputTokens, mid, rfl, blocks, readBody, all⟩ :=
              read_inside rfl rest ended
            obtain ⟨opens, stops⟩ := read_spec readBody
            refine ⟨id, model, body, stopReason, outputTokens, rfl, blocks, fun index mem => ?_⟩
            rw [List.range_zero, List.nil_append] at opens
            rw [List.nil_append] at stops
            rw [opens, List.mem_range] at mem
            exact stops ▸ all index mem
        | blockStart => simp [Reader.accept, Reader.initial] at accepted
        | textDelta => simp [Reader.accept, Reader.initial] at accepted
        | inputJsonDelta => simp [Reader.accept, Reader.initial] at accepted
        | blockStop => simp [Reader.accept, Reader.initial] at accepted
        | messageDelta => simp [Reader.accept, Reader.initial] at accepted
        | messageStop => simp [Reader.accept, Reader.initial] at accepted

end Read

section Writes

variable {r r' : Reader} {frames : List Frame}

theorem read_opened_le (h : r.read frames = some r') : r.opened ≤ r'.opened := by
  have lengths := congrArg List.length (read_spec h).1
  rw [List.length_append, List.length_range, List.length_range] at lengths
  omega

theorem read_writes (h : r.read frames = some r') {f : Frame} (mem : f ∈ frames) {index : Nat}
    (writes : f.writes = some index) : index < r'.opened := by
  induction frames generalizing r with
  | nil => cases mem
  | cons g frames ih =>
      obtain ⟨next, accepted, rest⟩ := read_cons h
      cases mem with
      | head =>
          obtain ⟨opens, -, touches⟩ := accept_spec accepted
          have below := (touches index (.inl writes)).1
          have kept := read_opened_le rest
          omega
      | tail _ mem => exact ih rest mem

theorem inputOf_eq_empty {f : Frame} {index : Nat} (other : f.writes ≠ some index) :
    f.inputOf index = "" := by
  cases f with
  | inputJsonDelta i partialJson =>
      have apart : i ≠ index := fun same => other (congrArg some same)
      exact if_neg apart
  | _ => rfl

theorem argumentsUnder_append (index : ℚ) (fragments later : List Record) :
    argumentsUnder index (fragments ++ later) =
      argumentsUnder index fragments ++ argumentsUnder index later := by
  induction fragments with
  | nil => rw [List.nil_append, argumentsUnder, String.empty_append]
  | cons fragment rest ih =>
      rw [List.cons_append, argumentsUnder, ih, argumentsUnder, String.append_assoc]

theorem argumentsUnder_missing {index : ℚ} {fragments : List Record}
    (missing : ∀ f ∈ fragments, indexOf f ≠ index) : argumentsUnder index fragments = "" := by
  induction fragments with
  | nil => rfl
  | cons fragment rest ih =>
      obtain ⟨other, missing⟩ := List.forall_mem_cons.mp missing
      rw [argumentsUnder, if_neg other, ih missing, String.empty_append]

end Writes

def textOf (frames : List Frame) : String := String.join (frames.map Frame.text)

def inputOf (index : Nat) (frames : List Frame) : String :=
  String.join (frames.map (Frame.inputOf index))

theorem textOf_append (frames later : List Frame) :
    textOf (frames ++ later) = textOf frames ++ textOf later := by
  rw [textOf, List.map_append, String.join_append, textOf, textOf]

theorem inputOf_append (index : Nat) (frames later : List Frame) :
    inputOf index (frames ++ later) = inputOf index frames ++ inputOf index later := by
  rw [inputOf, List.map_append, String.join_append, inputOf, inputOf]

/-- What the framer has written so far, and what it knows of it. -/
structure Tracks (content : String) (fragments : List Record) (body : List Frame) (s : State) :
    Prop where
  taken : Reader.read ⟨.inside, 0, []⟩ body = some ⟨.inside, s.nextIndex, []⟩
  unclosed : s.closed = false
  keys : (s.openToolBlocks.map Prod.fst).Nodup
  blocks : (s.openToolBlocks.map Prod.snd ++ s.textIndex.toList).Perm (List.range s.nextIndex)
  text : textOf body = content
  known : ∀ index, index ∈ s.openToolBlocks.map Prod.fst ↔ ∃ f ∈ fragments, indexOf f = index
  inputs : ∀ entry ∈ s.openToolBlocks, inputOf entry.2 body = argumentsUnder entry.1 fragments
  quiet : ∀ block ∉ s.openToolBlocks.map Prod.snd, inputOf block body = ""

section Steps

variable {content : String} {fragments : List Record} {body : List Frame} {s : State}

theorem Tracks.below (tracks : Tracks content fragments body s) {entry : ℚ × Nat}
    (mem : entry ∈ s.openToolBlocks) : entry.2 < s.nextIndex :=
  List.mem_range.mp (tracks.blocks.mem_iff.mp (List.mem_append_left _ (List.mem_map_of_mem mem)))

theorem tracks_text (tracks : Tracks content fragments body s) (added : String) :
    Tracks (content ++ added) fragments (body ++ (textFrames added s).1)
      (textFrames added s).2 := by
  rw [textFrames]
  by_cases nothing : added = ""
  · rw [if_pos nothing, nothing, String.append_empty, List.append_nil]
    exact tracks
  · rw [if_neg nothing]
    cases given : s.textIndex with
    | some index =>
        have below : index < s.nextIndex := List.mem_range.mp (tracks.blocks.mem_iff.mp
          (List.mem_append_right _ (by rw [given]; exact List.mem_singleton_self index)))
        have open' : (⟨.inside, s.nextIndex, []⟩ : Reader).IsOpen index := ⟨below, by simp⟩
        refine { tracks with
          taken := ?_, text := ?_, inputs := fun entry mem => ?_, quiet := fun block other => ?_ }
        · rw [Reader.read_append, tracks.taken]
          simp [Reader.read, Reader.accept, open']
        · rw [textOf_append, tracks.text]
          rfl
        · rw [inputOf_append, tracks.inputs entry mem]
          exact String.append_empty
        · rw [inputOf_append, tracks.quiet block other]
          rfl
    | none =>
        have blocks := tracks.blocks
        rw [given, Option.toList_none, List.append_nil] at blocks
        refine { tracks with
          taken := ?_, blocks := ?_, text := ?_, inputs := fun entry mem => ?_,
          quiet := fun block other => ?_ }
        · rw [Reader.read_append, tracks.taken]
          simp [Reader.read, Reader.accept, Reader.IsOpen]
        · rw [List.range_succ]
          exact blocks.append_right [s.nextIndex]
        · rw [textOf_append, tracks.text]
          rfl
        · rw [inputOf_append, tracks.inputs entry mem]
          exact String.append_empty
        · rw [inputOf_append, tracks.quiet block other]
          rfl

theorem inputOf_eq_nothing {index : Nat} {frames : List Frame}
    (nothing : ∀ f ∈ frames, f.inputOf index = "") : inputOf index frames = "" := by
  induction frames with
  | nil => rfl
  | cons f frames ih =>
      obtain ⟨first, nothing⟩ := List.forall_mem_cons.mp nothing
      rw [inputOf, List.map_cons, String.join_cons, first, String.empty_append]
      exact ih nothing

theorem inputOf_inputFrames (index i : Nat) (partialJson : String) :
    inputOf index (inputFrames i partialJson) = if i = index then partialJson else "" := by
  rw [inputFrames]
  by_cases nothing : partialJson = ""
  · rw [if_pos nothing, nothing, ite_self]
    rfl
  · rw [if_neg nothing, inputOf, List.map_singleton, String.join_cons, String.join_nil,
      String.append_empty]
    rfl

theorem textOf_inputFrames (i : Nat) (partialJson : String) :
    textOf (inputFrames i partialJson) = "" := by
  rw [inputFrames]
  split <;> rfl

theorem read_inputFrames {r : Reader} {i : Nat} (inside : r.phase = .inside) (isOpen : r.IsOpen i)
    (partialJson : String) : r.read (inputFrames i partialJson) = some r := by
  rw [inputFrames]
  split
  · rfl
  · simp [Reader.read, Reader.accept, inside, isOpen]

/-- The block of a call that has one gets what the fragment adds. -/
theorem tracks_known (tracks : Tracks content fragments body s) {call : Record} {i : Nat}
    (mem : (indexOf call, i) ∈ s.openToolBlocks) :
    Tracks content (fragments ++ [call]) (body ++ inputFrames i (argumentsIn call)) s := by
  have isOpen : (⟨.inside, s.nextIndex, []⟩ : Reader).IsOpen i := ⟨tracks.below mem, by simp⟩
  refine { tracks with
    taken := ?_, text := ?_, known := fun index => ?_, inputs := fun entry mem' => ?_,
    quiet := fun block other => ?_ }
  · rw [Reader.read_append, tracks.taken, Option.bind_some, read_inputFrames rfl isOpen]
  · rw [textOf_append, tracks.text, textOf_inputFrames, String.append_empty]
  · rw [tracks.known]
    constructor
    · rintro ⟨f, hf, same⟩
      exact ⟨f, List.mem_append_left _ hf, same⟩
    · rintro ⟨f, hf, same⟩
      rcases List.mem_append.mp hf with hf | hf
      · exact ⟨f, hf, same⟩
      · rw [List.mem_singleton.mp hf] at same
        exact (tracks.known index).mp (same ▸ List.mem_map_of_mem mem)
  · rw [inputOf_append, tracks.inputs entry mem', argumentsUnder_append, inputOf_inputFrames,
      argumentsUnder, argumentsUnder, String.append_empty]
    have distinct : (s.openToolBlocks.map Prod.snd).Nodup :=
      (List.nodup_append.mp (tracks.blocks.nodup_iff.mpr List.nodup_range)).1
    have same_entry : i = entry.2 ↔ indexOf call = entry.1 := by
      constructor
      · intro same
        exact congrArg Prod.fst (List.inj_on_of_nodup_map distinct mem mem' same)
      · intro same
        exact congrArg Prod.snd (List.inj_on_of_nodup_map tracks.keys mem mem' same)
    by_cases same : indexOf call = entry.1
    · rw [if_pos same, if_pos (same_entry.mpr same)]
    · rw [if_neg same, if_neg fun h => same (same_entry.mp h)]
  · have apart : i ≠ block := fun same => other (same ▸ List.mem_map_of_mem mem)
    rw [inputOf_append, tracks.quiet block other, inputOf_inputFrames, if_neg apart]
    rfl

/-- A call that has no block is given the next one. -/
theorem tracks_new (tracks : Tracks content fragments body s) {call : Record}
    (fresh : indexOf call ∉ s.openToolBlocks.map Prod.fst) (contentBlock : Record) (drawn : Nat) :
    Tracks content (fragments ++ [call])
      (body ++ .blockStart s.nextIndex contentBlock :: inputFrames s.nextIndex (argumentsIn call))
      { s with
        openToolBlocks := s.openToolBlocks ++ [(indexOf call, s.nextIndex)]
        nextIndex := s.nextIndex + 1
        drawn } := by
  have unwritten : inputOf s.nextIndex body = "" := by
    have none_written : ∀ f ∈ body, f.inputOf s.nextIndex = "" := fun f mem =>
      inputOf_eq_empty fun writes => absurd (read_writes tracks.taken mem writes) (Nat.lt_irrefl _)
    exact inputOf_eq_nothing none_written
  have unseen : argumentsUnder (indexOf call) fragments = "" :=
    argumentsUnder_missing fun f hf same => fresh ((tracks.known _).mpr ⟨f, hf, same⟩)
  have added (index : Nat) : inputOf index (.blockStart s.nextIndex contentBlock ::
      inputFrames s.nextIndex (argumentsIn call)) =
        if s.nextIndex = index then argumentsIn call else "" := by
    rw [← inputOf_inputFrames, inputOf, List.map_cons, String.join_cons]
    exact String.empty_append
  refine ⟨?_, tracks.unclosed, ?_, ?_, ?_, fun index => ?_, fun entry mem => ?_,
    fun block other => ?_⟩
  · have begun :
        (⟨.inside, s.nextIndex, []⟩ : Reader).accept (.blockStart s.nextIndex contentBlock) =
        some ⟨.inside, s.nextIndex + 1, []⟩ := if_pos ⟨rfl, rfl⟩
    rw [Reader.read_append, tracks.taken, Option.bind_some, Reader.read, begun, Option.bind_some]
    exact read_inputFrames rfl ⟨Nat.lt_succ_self _, by simp⟩ _
  · rw [List.map_append]
    exact List.nodup_append.mpr ⟨tracks.keys, List.nodup_singleton _, fun a ha b hb => by
      rintro rfl
      rw [List.mem_singleton.mp hb] at ha
      exact fresh ha⟩
  · rw [List.map_append, List.range_succ, List.append_assoc]
    refine (List.perm_append_comm.append_left _).trans ?_
    rw [← List.append_assoc]
    exact tracks.blocks.append_right [s.nextIndex]
  · have quiet : textOf (.blockStart s.nextIndex contentBlock ::
        inputFrames s.nextIndex (argumentsIn call)) = "" := by
      rw [textOf, List.map_cons, String.join_cons]
      exact (String.empty_append).trans (textOf_inputFrames _ _)
    rw [textOf_append, tracks.text, quiet, String.append_empty]
  · rw [List.map_append, List.mem_append, tracks.known]
    constructor
    · rintro (⟨f, hf, same⟩ | last)
      · exact ⟨f, List.mem_append_left _ hf, same⟩
      · exact ⟨call, by simp, (List.mem_singleton.mp last).symm⟩
    · rintro ⟨f, hf, same⟩
      rcases List.mem_append.mp hf with hf | hf
      · exact .inl ⟨f, hf, same⟩
      · rw [List.mem_singleton.mp hf] at same
        exact .inr (List.mem_singleton.mpr same.symm)
  · rw [inputOf_append, added, argumentsUnder_append, argumentsUnder, argumentsUnder,
      String.append_empty]
    rcases List.mem_append.mp mem with mem | mem
    · have below := tracks.below mem
      have other : indexOf call ≠ entry.1 := fun same => fresh (same ▸ List.mem_map_of_mem mem)
      rw [tracks.inputs entry mem, if_neg (by omega), if_neg other]
    · obtain rfl := List.mem_singleton.mp mem
      rw [if_pos rfl, if_pos rfl, unwritten, unseen]
  · rw [List.map_append, List.mem_append, not_or] at other
    have apart : s.nextIndex ≠ block := fun same => other.2 (List.mem_singleton.mpr same.symm)
    rw [inputOf_append, tracks.quiet block other.1, added, if_neg apart]
    rfl

theorem tracks_call (options : Options) (tracks : Tracks content fragments body s) (call : Record) :
    Tracks content (fragments ++ [call]) (body ++ (callFrames options call s).1)
      (callFrames options call s).2 := by
  rw [callFrames]
  cases found : s.openToolBlocks.lookup (indexOf call) with
  | some i =>
      obtain ⟨before, after, split, -⟩ := List.lookup_eq_some_iff.mp found
      exact tracks_known tracks (by rw [split]; simp)
  | none =>
      have fresh : indexOf call ∉ s.openToolBlocks.map Prod.fst := by
        intro mem
        obtain ⟨entry, hentry, same⟩ := List.mem_map.mp mem
        have other := List.lookup_eq_none_iff.mp found entry hentry
        rw [same, bne_self_eq_false] at other
        cases other
      exact tracks_new tracks fresh _ _

theorem tracks_calls (options : Options) (tracks : Tracks content fragments body s)
    (calls : List Record) :
    Tracks content (fragments ++ calls) (body ++ (callsFrames options calls s).1)
      (callsFrames options calls s).2 := by
  induction calls generalizing fragments body s with
  | nil =>
      rw [List.append_nil]
      exact (List.append_nil body).symm ▸ tracks
  | cons call calls ih =>
      have rest := ih (tracks_call options tracks call)
      rw [List.append_assoc, List.append_assoc] at rest
      exact rest

theorem tracks_chunk (options : Options) (tracks : Tracks content fragments body s) (c : Record) :
    Tracks (content ++ (readDelta c).content) (fragments ++ (readDelta c).toolCalls)
      (body ++ (chunk options c s).1) (chunk options c s).2 := by
  have written := tracks_calls options (tracks_text tracks (readDelta c).content)
    (readDelta c).toolCalls
  rw [List.append_assoc] at written
  rw [chunk]
  dsimp only
  split
  · exact written
  · exact { written with }

theorem tracks_chunks (options : Options) (tracks : Tracks content fragments body s)
    (input : List Record) :
    Tracks (content ++ String.join (input.map fun c => (readDelta c).content))
      (fragments ++ fragmentsOf input) (body ++ (chunks options input s).1)
      (chunks options input s).2 := by
  induction input generalizing content fragments body s with
  | nil =>
      rw [List.map_nil, String.join_nil, String.append_empty]
      exact (List.append_nil body).symm ▸ (List.append_nil fragments).symm ▸ tracks
  | cons c rest ih =>
      have later := ih (tracks_chunk options tracks c)
      rw [String.append_assoc, List.append_assoc, List.append_assoc] at later
      rw [List.map_cons, String.join_cons, fragmentsOf_cons]
      exact later

theorem tracks_initial : Tracks "" [] [] .initial :=
  ⟨rfl, rfl, List.nodup_nil, List.Perm.refl _, rfl, by simp [State.initial],
    by simp [State.initial], fun _ _ => rfl⟩

/-- The blocks are stopped in any order, each once. -/
theorem read_stops (opened : Nat) (stopped indexes : List Nat)
    (distinct : (stopped ++ indexes).Nodup)
    (below : ∀ index ∈ indexes, index < opened) :
    Reader.read ⟨.inside, opened, stopped⟩ (indexes.map .blockStop) =
      some ⟨.inside, opened, stopped ++ indexes⟩ := by
  induction indexes generalizing stopped with
  | nil => rw [List.append_nil]; rfl
  | cons index indexes ih =>
      obtain ⟨first, below⟩ := List.forall_mem_cons.mp below
      have fresh : index ∉ stopped := fun mem =>
        (List.nodup_append.mp distinct).2.2 index mem index List.mem_cons_self rfl
      have accepted : (⟨.inside, opened, stopped⟩ : Reader).accept (.blockStop index) =
          some ⟨.inside, opened, stopped ++ [index]⟩ := if_pos ⟨rfl, first, fresh⟩
      rw [List.map_cons, Reader.read, accepted, Option.bind_some, ih _ (by simpa using distinct) below,
        List.append_assoc]
      rfl

/-- The closing frames write nothing into the message. -/
theorem finish_quiet (usage : Option Record) (s : State) :
    textOf (finish usage s).1 = "" ∧ ∀ index, inputOf index (finish usage s).1 = "" := by
  have stops (indexes : List Nat) : textOf (indexes.map .blockStop) = "" ∧
      ∀ index, inputOf index (indexes.map .blockStop) = "" := by
    induction indexes with
    | nil => exact ⟨rfl, fun _ => rfl⟩
    | cons i indexes ih =>
        refine ⟨?_, fun index => ?_⟩
        · rw [textOf, List.map_cons, List.map_cons, String.join_cons]
          exact String.empty_append.trans ih.1
        · rw [inputOf, List.map_cons, List.map_cons, String.join_cons]
          exact String.empty_append.trans (ih.2 index)
  rw [finish]
  split
  · exact ⟨rfl, fun _ => rfl⟩
  · refine ⟨?_, fun index => ?_⟩
    · rw [textOf_append, (stops _).1]
      rfl
    · rw [inputOf_append, (stops _).2]
      rfl

theorem openIndexes_perm (tracks : Tracks content fragments body s) :
    (openIndexes s).Perm (List.range s.nextIndex) :=
  (List.perm_insertionSort _ _).trans tracks.blocks

/-- The closing frames end the message of a reader that has followed. -/
theorem read_finish (tracks : Tracks content fragments body s) (usage : Option Record) :
    Reader.read ⟨.inside, 0, []⟩ (body ++ (finish usage s).1) =
      some ⟨.ended, s.nextIndex, openIndexes s⟩ := by
  have perm := openIndexes_perm tracks
  have stops := read_stops s.nextIndex [] (openIndexes s) (perm.nodup_iff.mpr List.nodup_range)
    fun index mem => List.mem_range.mp (perm.mem_iff.mp mem)
  have all : ∀ index < s.nextIndex, index ∈ openIndexes s :=
    fun index below => perm.mem_iff.mpr (List.mem_range.mpr below)
  have closing (stopReason : String) (tokens : ℚ) :
      Reader.read ⟨.inside, s.nextIndex, openIndexes s⟩
        [.messageDelta stopReason tokens, .messageStop] =
          some ⟨.ended, s.nextIndex, openIndexes s⟩ := by
    have accepted : (⟨.inside, s.nextIndex, openIndexes s⟩ : Reader).accept
        (.messageDelta stopReason tokens) = some ⟨.closing, s.nextIndex, openIndexes s⟩ :=
      if_pos ⟨rfl, all⟩
    rw [Reader.read, accepted]
    rfl
  rw [finish, tracks.unclosed, if_neg Bool.false_ne_true, Reader.read_append, tracks.taken,
    Option.bind_some, Reader.read_append, stops, Option.bind_some]
  exact closing _ _

end Steps

/-- What the frames carry of the chunks: the whole text, and for each index of a call a block of its
own, with the whole of its arguments. -/
structure Carries (input : List Record) (frames : List Frame) : Prop where
  text : textOf frames = String.join (input.map fun c => (readDelta c).content)
  calls : ∃ blocks : List (ℚ × Nat), (blocks.map Prod.fst).Nodup ∧ (blocks.map Prod.snd).Nodup ∧
    (∀ index, index ∈ blocks.map Prod.fst ↔ ∃ f ∈ fragmentsOf input, indexOf f = index) ∧
    (∀ entry ∈ blocks, entry.2 ∈ frames.filterMap Frame.opens) ∧
    (∀ entry ∈ blocks, inputOf entry.2 frames = argumentsUnder entry.1 (fragmentsOf input)) ∧
    ∀ block, block ∉ blocks.map Prod.snd → inputOf block frames = ""

/-- What a reader was told to the end carries what the framer has tracked. -/
theorem Tracks.carries {input : List Record} {body : List Frame} {s : State}
    (tracks : Tracks (String.join (input.map fun c => (readDelta c).content)) (fragmentsOf input)
      body s) (options : Options) (usage : Option Record) :
    Carries input (start options ++ body ++ (finish usage s).1) := by
  have opens : (start options ++ body ++ (finish usage s).1).filterMap Frame.opens =
      List.range s.nextIndex := by
    have ended := (read_spec (read_finish tracks usage)).1
    rw [List.append_assoc]
    exact ended
  have whole (index : Nat) :
      inputOf index (start options ++ body ++ (finish usage s).1) = inputOf index body := by
    rw [inputOf_append, (finish_quiet usage s).2, String.append_empty, inputOf_append]
    exact String.empty_append
  refine ⟨?_, s.openToolBlocks, tracks.keys,
    (List.nodup_append.mp (tracks.blocks.nodup_iff.mpr List.nodup_range)).1, tracks.known,
    fun entry mem => ?_, fun entry mem => ?_, fun block other => ?_⟩
  · rw [textOf_append, (finish_quiet usage s).1, String.append_empty, textOf_append, tracks.text]
    exact String.empty_append
  · rw [opens]
    exact List.mem_range.mpr (tracks.below mem)
  · rw [whole, tracks.inputs entry mem]
  · rw [whole, tracks.quiet block other]

end Gateway.AnthropicFramer
