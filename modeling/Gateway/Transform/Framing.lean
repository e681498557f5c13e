import Gateway.Transform.Assembly
import Gateway.Transform.GeminiAgreement
import Gateway.Util.JsonRoundTrip

/-!
The frames that a Gemini client is written.

A frame is a whole response object. A tool call becomes a part with the first
fragment, which has its name; what the client puts together from the same
chunks also has the arguments that come after it.
-/

namespace Gateway

def finishReasonToGemini (reason : String) : String :=
  match reason with
  | "length" => "MAX_TOKENS"
  | "content_filter" => "SAFETY"
  | _ => "STOP"

structure Delta where
  content : String
  reasoning : String
  toolCalls : List Record
  finishReason : String

def readDelta (c : Record) : Delta :=
  let choice := asRecord (asArray (c.field "choices")).head?
  let delta := asRecord (choice.field "delta")
  ⟨asString (delta.field "content"), asString (delta.field "reasoning_content"),
    (asArray (delta.field "tool_calls")).map fun call => asRecord (some call),
    asString (choice.field "finish_reason")⟩

/-- `JSON.parse(arguments || "{}")`, and an empty object where that throws. -/
def framedArguments (text : String) : Json :=
  (jsonParse (if text = "" then "{}" else text)).getD (.obj [])

def nameOf (fragment : Record) : String := (ToolCall.ofRecord fragment).name

def argumentsIn (fragment : Record) : String := (ToolCall.ofRecord fragment).arguments

/-- The part of a fragment; one without a name has none. -/
def framedCall (fragment : Record) : Option Json :=
  if nameOf fragment = "" then none
  else
    some (.obj [("functionCall", .obj [("name", .str (nameOf fragment)),
      ("args", framedArguments (argumentsIn fragment))])])

namespace GeminiFramer

def deltaParts (delta : Delta) : List Json :=
  (if delta.reasoning = "" then []
    else [.obj [("text", .str delta.reasoning), ("thought", .bool true)]]) ++
  (if delta.content = "" then [] else [.obj [("text", .str delta.content)]]) ++
  delta.toolCalls.filterMap framedCall

/-- The payload of the frame for a chunk, if it has one; the state is whether a
frame with a finish reason has been written. -/
def chunk (sawFinish : Bool) (c : Record) : Option Record × Bool :=
  let delta := readDelta c
  let parts := deltaParts delta
  if parts.isEmpty ∧ delta.finishReason = "" then (none, sawFinish)
  else
    let finish := if delta.finishReason = "" then none
      else some (.str (finishReasonToGemini delta.finishReason))
    (some [("candidates", .arr [.obj ([("content", .obj [("role", .str "model"),
        ("parts", .arr parts)]), ("index", .ofNat 0)] ++ optional "finishReason" finish)])],
      sawFinish || decide (delta.finishReason ≠ ""))

def usageMetadata (usage : Record) : Record :=
  let reasoning :=
    asNumber ((asRecord (usage.field "completion_tokens_details")).field "reasoning_tokens")
  let completion := asNumber (usage.field "completion_tokens")
  [("promptTokenCount", .ofRat (asNumber (usage.field "prompt_tokens"))),
    ("candidatesTokenCount", .ofRat (max 0 (completion - reasoning))),
    ("thoughtsTokenCount", .ofRat reasoning),
    ("totalTokenCount", .ofRat (asNumber (usage.field "total_tokens"))),
    ("cachedContentTokenCount", .ofRat
      (asNumber ((asRecord (usage.field "prompt_tokens_details")).field "cached_tokens")))]

/-- The closing frame, if there is anything left to say. -/
def finish (sawFinish : Bool) (usage : Option Record) : Option Record :=
  let candidates := if sawFinish then none
    else some (.arr [.obj [("content", .obj [("role", .str "model"), ("parts", .arr [])]),
      ("finishReason", .str "STOP"), ("index", .ofNat 0)]])
  let payload := optional "candidates" candidates ++
    optional "usageMetadata" (usage.map fun usage => .obj (usageMetadata usage))
  if payload.isEmpty then none else some payload

/-- The frames of a stream of chunks and the closing one. -/
def frames (usage : Option Record) : (sawFinish : Bool) → List Record → List Record
  | sawFinish, [] => (finish sawFinish usage).toList
  | sawFinish, c :: rest =>
      (chunk sawFinish c).1.toList ++ frames usage (chunk sawFinish c).2 rest

end GeminiFramer

/-- The calls in the frames: the name and the arguments of each. -/
def framedCalls (frames : List Record) : List (String × Json) :=
  ((frames.flatMap candidateParts).filterMap partCall).map fun call =>
    (asString ((asRecord (some call)).field "name"),
      ((asRecord (some call)).field "args").getD .null)

section Fragments

def fragmentsOf (chunks : List Record) : List Record :=
  chunks.flatMap fun c => (readDelta c).toolCalls

theorem fragmentsOf_cons (c : Record) (rest : List Record) :
    fragmentsOf (c :: rest) = (readDelta c).toolCalls ++ fragmentsOf rest := List.flatMap_cons

def indexOf (fragment : Record) : ℚ := asNumber (fragment.field "index")

/-- The argument text under an index, of all fragments in order. -/
def argumentsUnder (index : ℚ) : List Record → String
  | [] => ""
  | fragment :: rest =>
      (if indexOf fragment = index then argumentsIn fragment else "") ++ argumentsUnder index rest

/-- The arguments that a text stands for; no text stands for none. -/
def argumentsOf (text : String) : Record :=
  match jsonParse text with
  | some (.obj fields) => fields
  | _ => []

/-- The calls that begin in some fragments, each with the arguments up to its end. -/
def begunCalls : List Record → List (ℚ × ToolCall)
  | [] => []
  | fragment :: rest =>
      if nameOf fragment = "" then begunCalls rest
      else
        (indexOf fragment, { ToolCall.ofRecord fragment with
          arguments := argumentsIn fragment ++ argumentsUnder (indexOf fragment) rest }) ::
          begunCalls rest

/-- A fragment has a name just when none of the same index came before it. -/
def NamedFirst : (known : List ℚ) → List Record → Prop
  | _, [] => True
  | known, fragment :: rest =>
      (nameOf fragment ≠ "" ↔ indexOf fragment ∉ known) ∧ NamedFirst (indexOf fragment :: known) rest

instance decidableNamedFirst : (known : List ℚ) → (fragments : List Record) →
    Decidable (NamedFirst known fragments)
  | _, [] => inferInstanceAs (Decidable True)
  | known, fragment :: rest =>
      have := decidableNamedFirst (indexOf fragment :: known) rest
      inferInstanceAs (Decidable (_ ∧ _))

theorem NamedFirst.congr {known known' : List ℚ} {fragments : List Record}
    (named : NamedFirst known fragments) (same : ∀ i, i ∈ known ↔ i ∈ known') :
    NamedFirst known' fragments := by
  induction fragments generalizing known known' with
  | nil => trivial
  | cons fragment rest ih =>
      refine ⟨by rw [← same]; exact named.1, ih named.2 fun i => ?_⟩
      rw [List.mem_cons, List.mem_cons, same]

/-- The text that the fragments add to the calls that are kept. -/
def extendAll (fragments : List Record) (entry : ℚ × ToolCall) : ℚ × ToolCall :=
  (entry.1, { entry.2 with arguments := entry.2.arguments ++ argumentsUnder entry.1 fragments })

theorem extendAll_extend (fragment : Record) (rest : List Record) (entry : ℚ × ToolCall) :
    extendAll rest (Assembled.extend (indexOf fragment) (ToolCall.ofRecord fragment) entry) =
      extendAll (fragment :: rest) entry := by
  obtain ⟨index, call⟩ := entry
  by_cases same : index = indexOf fragment
  · simp [extendAll, Assembled.extend, argumentsUnder, same, argumentsIn, String.append_assoc]
  · simp [extendAll, Assembled.extend, argumentsUnder, same, Ne.symm same]

/-- Each fragment goes to its call, so every call gets all of its text. -/
theorem foldl_addFragment (fragments : List Record) (kept : List (ℚ × ToolCall))
    (named : NamedFirst (kept.map Prod.fst) fragments) :
    (fragments.map Json.obj).foldl Assembled.addFragment kept =
      kept.map (extendAll fragments) ++ begunCalls fragments := by
  induction fragments generalizing kept with
  | nil =>
      have same : extendAll [] = id := by
        funext entry
        simp [extendAll, argumentsUnder]
      simp [same, begunCalls]
  | cons fragment rest ih =>
      rw [List.map_cons, List.foldl_cons, begunCalls]
      by_cases old : indexOf fragment ∈ kept.map Prod.fst
      · have unnamed : nameOf fragment = "" := not_not.mp (mt named.1.mp (not_not.mpr old))
        have keys : (kept.map (Assembled.extend (indexOf fragment)
            (ToolCall.ofRecord fragment))).map Prod.fst = kept.map Prod.fst := by
          rw [List.map_map]
          refine List.map_congr_left fun entry _ => ?_
          by_cases same : entry.1 = indexOf fragment <;> simp [Assembled.extend, same]
        have tail : NamedFirst ((kept.map (Assembled.extend (indexOf fragment)
            (ToolCall.ofRecord fragment))).map Prod.fst) rest :=
          named.2.congr fun i => by rw [keys]; grind
        have run := ih _ tail
        rw [List.map_map] at run
        rw [Assembled.addFragment_known old, if_pos unnamed]
        refine run.trans ?_
        simp only [Function.comp_def, extendAll_extend]
      · have given : nameOf fragment ≠ "" := named.1.mpr old
        rw [Assembled.addFragment_new old, if_neg given, ih _ (named.2.congr fun i => by simp [or_comm]; rfl)]
        have others : kept.map (extendAll rest) = kept.map (extendAll (fragment :: rest)) := by
          refine List.map_congr_left fun entry mem => ?_
          have other : indexOf fragment ≠ entry.1 := fun same =>
            old (same ▸ List.mem_map_of_mem mem)
          simp [extendAll, argumentsUnder, other]
        rw [List.map_append, others, List.append_assoc]
        rfl

theorem toolCalls_ofChunks (chunks : List Record) (m : Assembled) :
    (chunks.foldl Assembled.add m).toolCalls =
      ((fragmentsOf chunks).map Json.obj).foldl Assembled.addFragment m.toolCalls := by
  induction chunks generalizing m with
  | nil => rfl
  | cons c rest ih =>
      have first : (m.add c).toolCalls =
          ((readDelta c).toolCalls.map Json.obj).foldl Assembled.addFragment m.toolCalls := by
        simp only [Assembled.add, readDelta, List.map_map, List.foldl_map, Function.comp_def]
        rfl
      rw [List.foldl_cons, ih, first, fragmentsOf_cons, List.map_append, List.foldl_append]

/-- The calls a client puts together are those that begin in the stream. -/
theorem toolCalls_message {chunks : List Record} (named : NamedFirst [] (fragmentsOf chunks)) :
    (Assembled.ofChunks chunks).message.toolCalls =
      (begunCalls (fragmentsOf chunks)).map Prod.snd :=
  congrArg (List.map Prod.snd)
    ((toolCalls_ofChunks chunks Assembled.empty).trans (foldl_addFragment _ [] named))

end Fragments

section Framed

/-- The call that a fragment is framed as. -/
def framedAs (fragment : Record) : Option (String × Json) :=
  if nameOf fragment = "" then none
  else some (nameOf fragment, framedArguments (argumentsIn fragment))

def callOf (part : Json) : Option (String × Json) :=
  (partCall part).map fun call => (asString ((asRecord (some call)).field "name"),
    ((asRecord (some call)).field "args").getD .null)

theorem framedCall_callOf (fragment : Record) :
    (framedCall fragment).bind callOf = framedAs fragment := by
  by_cases unnamed : nameOf fragment = ""
  · rw [framedCall, framedAs, if_pos unnamed, if_pos unnamed, Option.bind_none]
  · rw [framedCall, framedAs, if_neg unnamed, if_neg unnamed, Option.bind_some]
    simp [callOf, partCall, Record.field_cons]

theorem callOf_deltaParts (delta : Delta) :
    (GeminiFramer.deltaParts delta).filterMap callOf = delta.toolCalls.filterMap framedAs := by
  have thought : (if delta.reasoning = "" then []
      else [Json.obj [("text", .str delta.reasoning), ("thought", .bool true)]]).filterMap callOf =
        [] := by
    split <;> simp [callOf, partCall, Record.field_cons]
  have text : (if delta.content = "" then [] else [Json.obj [("text", .str delta.content)]]).filterMap
      callOf = [] := by
    split <;> simp [callOf, partCall, Record.field_cons]
  rw [GeminiFramer.deltaParts, List.filterMap_append, List.filterMap_append, thought, text,
    List.filterMap_filterMap]
  simp only [framedCall_callOf, List.nil_append]

theorem framedCalls_append (xs ys : List Record) :
    framedCalls (xs ++ ys) = framedCalls xs ++ framedCalls ys := by
  simp [framedCalls]

theorem framedCalls_chunk (sawFinish : Bool) (c : Record) :
    framedCalls (GeminiFramer.chunk sawFinish c).1.toList =
      (readDelta c).toolCalls.filterMap framedAs := by
  have calls (frames : List Record) :
      framedCalls frames = (frames.flatMap candidateParts).filterMap callOf := by
    rw [framedCalls, List.map_filterMap]
    rfl
  rw [calls, ← callOf_deltaParts]
  simp only [GeminiFramer.chunk]
  split
  · next silent =>
      rw [List.isEmpty_iff.mp silent.1]
      rfl
  · simp [candidateParts, candidateOf, Record.field_cons]

theorem framedCalls_finish (sawFinish : Bool) (usage : Option Record) :
    framedCalls (GeminiFramer.finish sawFinish usage).toList = [] := by
  cases sawFinish <;> cases usage <;>
    simp [GeminiFramer.finish, framedCalls, candidateParts, candidateOf, optional, asRecord, asArray,
      Record.field_cons]

/-- The frames have a call for every fragment with a name. -/
theorem framedCalls_frames (usage : Option Record) (sawFinish : Bool) (chunks : List Record) :
    framedCalls (GeminiFramer.frames usage sawFinish chunks) =
      (fragmentsOf chunks).filterMap framedAs := by
  induction chunks generalizing sawFinish with
  | nil => exact framedCalls_finish sawFinish usage
  | cons c rest ih =>
      rw [GeminiFramer.frames, framedCalls_append, framedCalls_chunk, ih, fragmentsOf_cons,
        List.filterMap_append]

end Framed

section Complete

/-- A text of arguments: none at all, or an object. -/
def ReadsAsArguments (text : String) : Prop :=
  text = "" ∨ ∃ fields, jsonParse text = some (.obj fields)

/-- A stream of chunks in which every call is named by its first fragment, and
every whole argument text is that of an object. -/
structure WellFragmented (chunks : List Record) : Prop where
  named : NamedFirst [] (fragmentsOf chunks)
  arguments : ∀ call ∈ (Assembled.ofChunks chunks).message.toolCalls,
    ReadsAsArguments call.arguments

/-- The frames have the calls with the names and the arguments that a client puts together. -/
def CallsComplete (chunks frames : List Record) : Prop :=
  framedCalls frames = (Assembled.ofChunks chunks).message.toolCalls.map fun call =>
    (call.name, .obj (argumentsOf call.arguments))

/-- Every call has no arguments, or has all of them but space in its first fragment. -/
def ArgumentsAtOnce (chunks : List Record) : Prop :=
  ∀ before fragment after, fragmentsOf chunks = before ++ fragment :: after →
    nameOf fragment ≠ "" →
    argumentsOf (argumentsIn fragment ++ argumentsUnder (indexOf fragment) after) = [] ∨
      AllSpace (argumentsUnder (indexOf fragment) after).toList

theorem not_allSpace_of_parse {text : String} {value : Json} (parsed : jsonParse text = some value) :
    ¬AllSpace text.toList := by
  intro spaces
  obtain ⟨rest, read, -⟩ := jsonParse_eq_some.mp parsed
  obtain ⟨c, inner, opened, -⟩ := readValue_head read
  rw [List.isEmpty_iff.mp ((skipSpace_isEmpty _).mpr spaces)] at opened
  exact nomatch opened

/-- What is framed of the first part of an argument text. -/
theorem framedArguments_eq_iff {first later : String} (whole : ReadsAsArguments (first ++ later)) :
    framedArguments first = .obj (argumentsOf (first ++ later)) ↔
      argumentsOf (first ++ later) = [] ∨ AllSpace later.toList := by
  have empty : framedArguments "" = .obj [] := rfl
  by_cases nothing : first ++ later = ""
  · obtain ⟨rfl, rfl⟩ := String.append_eq_empty_iff.mp nothing
    exact iff_of_true empty (.inl rfl)
  obtain ⟨fields, parsed⟩ := whole.resolve_left nothing
  have is_fields : argumentsOf (first ++ later) = fields := by rw [argumentsOf, parsed]
  rw [is_fields]
  by_cases unread : first = ""
  · subst unread
    rw [String.empty_append] at parsed
    rw [empty, Json.obj.injEq, eq_comm]
    exact (or_iff_left (not_allSpace_of_parse parsed)).symm
  · rw [framedArguments, if_neg unread]
    cases early : jsonParse first with
    | none =>
        have cut : ¬AllSpace later.toList := fun spaces =>
          absurd (jsonParse_trim parsed spaces) (by simp [early])
        simp [cut, eq_comm]
    | some value =>
        have spaces := jsonParse_early parsed early
        rw [jsonParse_trim parsed spaces] at early
        cases early
        simp [spaces]

theorem forall_split_cons {α : Type*} (x : α) (xs : List α) (p : α → List α → Prop) :
    (∀ before y after, x :: xs = before ++ y :: after → p y after) ↔
      p x xs ∧ ∀ before y after, xs = before ++ y :: after → p y after := by
  constructor
  · intro all
    exact ⟨all [] x xs rfl, fun before y after split =>
      all (x :: before) y after (congrArg (List.cons x) split)⟩
  · rintro ⟨first, rest⟩ before y after split
    cases before with
    | nil =>
        cases split
        exact first
    | cons z before => exact rest before y after (List.cons.inj split).2

theorem filterMap_framedAs_eq_iff {fragments : List Record}
    (arguments : ∀ call ∈ begunCalls fragments, ReadsAsArguments call.2.arguments) :
    fragments.filterMap framedAs = (begunCalls fragments).map (fun entry =>
        (entry.2.name, .obj (argumentsOf entry.2.arguments))) ↔
      ∀ before fragment after, fragments = before ++ fragment :: after → nameOf fragment ≠ "" →
        argumentsOf (argumentsIn fragment ++ argumentsUnder (indexOf fragment) after) = [] ∨
          AllSpace (argumentsUnder (indexOf fragment) after).toList := by
  induction fragments with
  | nil => simp [begunCalls]
  | cons fragment rest ih =>
      rw [forall_split_cons fragment rest fun fragment after => nameOf fragment ≠ "" →
        argumentsOf (argumentsIn fragment ++ argumentsUnder (indexOf fragment) after) = [] ∨
          AllSpace (argumentsUnder (indexOf fragment) after).toList]
      rw [begunCalls] at arguments ⊢
      by_cases unnamed : nameOf fragment = ""
      · rw [if_pos unnamed] at arguments ⊢
        have none : framedAs fragment = none := if_pos unnamed
        rw [List.filterMap_cons_none none, ih arguments]
        simp [unnamed]
      · rw [if_neg unnamed] at arguments ⊢
        have framed : framedAs fragment =
            some (nameOf fragment, framedArguments (argumentsIn fragment)) := if_neg unnamed
        obtain ⟨whole, later⟩ := List.forall_mem_cons.mp arguments
        rw [List.filterMap_cons_some framed, List.map_cons, List.cons.injEq, ih later, Prod.mk.injEq]
        have first := framedArguments_eq_iff whole
        simp only [nameOf, true_and, first]
        exact and_congr_left fun _ => ⟨fun holds _ => holds, fun holds => holds unnamed⟩

/-- Every call is framed with all of its arguments just where no fragment after
its first one adds any. -/
theorem gemini_frames_complete_iff {chunks : List Record} (fragmented : WellFragmented chunks)
    (usage : Option Record) :
    CallsComplete chunks (GeminiFramer.frames usage false chunks) ↔ ArgumentsAtOnce chunks := by
  have arguments := fragmented.arguments
  rw [toolCalls_message fragmented.named] at arguments
  rw [CallsComplete, framedCalls_frames, toolCalls_message fragmented.named, List.map_map]
  exact filterMap_framedAs_eq_iff fun call mem => arguments call.2 (List.mem_map_of_mem mem)

/-- A chunk with one fragment of the first call. -/
def fragmentChunk (named : Record) (arguments : String) : Record :=
  Gateway.chunk someOptions [("tool_calls", .arr [.obj [("index", .ofNat 0),
    ("function", .obj (named ++ [("arguments", .str arguments)]))]])] none

def romeText : String := "\x7b\"city\":\"Rome\"\x7d"

theorem jsonParse_romeText : jsonParse romeText = some (.obj [("city", .str "Rome")]) := by
  have text : romeText = jsonStringify (.obj [("city", .str "Rome")]) := by decide +kernel
  have carried : (Json.obj [("city", .str "Rome")]).Carried := ⟨by decide, trivial, trivial⟩
  rw [text, jsonParse_jsonStringify carried]
  rfl

def wholeCall : List Record := [fragmentChunk [("name", .str "weather")] romeText]

def splitCall : List Record :=
  [fragmentChunk [("name", .str "weather")] "", fragmentChunk [] romeText]

theorem wellFragmented_of_call {chunks : List Record} (named : NamedFirst [] (fragmentsOf chunks))
    (call : (Assembled.ofChunks chunks).message.toolCalls = [⟨"", "weather", romeText⟩]) :
    WellFragmented chunks := by
  refine ⟨named, fun other mem => ?_⟩
  rw [call, List.mem_singleton] at mem
  rw [mem]
  exact .inr ⟨_, jsonParse_romeText⟩

theorem gemini_frames_complete_at_once :
    CallsComplete wholeCall (GeminiFramer.frames none false wholeCall) := by
  refine (gemini_frames_complete_iff
    (wellFragmented_of_call (by decide +kernel) (by decide +kernel)) none).mpr ?_
  intro before fragment after split _
  have alone : after = [] := by
    have lengths := congrArg List.length split
    have one : (fragmentsOf wholeCall).length = 1 := rfl
    rw [one, List.length_append, List.length_cons] at lengths
    exact List.length_eq_zero_iff.mp (by omega)
  rw [alone]
  exact .inr (by simp [argumentsUnder, AllSpace])

theorem argumentsOf_romeText : argumentsOf romeText = [("city", .str "Rome")] := by
  simp only [argumentsOf, jsonParse_romeText]

/-- The arguments come after the name, as both translators send them. -/
theorem later_arguments_lost :
    WellFragmented splitCall ∧ ¬CallsComplete splitCall (GeminiFramer.frames none false splitCall) := by
  refine ⟨wellFragmented_of_call (by decide +kernel) (by decide +kernel), fun complete => ?_⟩
  have framed : framedCalls (GeminiFramer.frames none false splitCall) = [("weather", .obj [])] := rfl
  have called : (Assembled.ofChunks splitCall).message.toolCalls = [⟨"", "weather", romeText⟩] := by
    decide +kernel
  rw [CallsComplete, framed, called, List.map_singleton, argumentsOf_romeText] at complete
  simp at complete

end Complete

end Gateway
