import Gateway.Lib.Fallible
import Gateway.Transform.Assembly

/-!
A Gemini response that is streamed against the same response in one piece.

The parts may be split over frames in any way. Text, reasoning and calls come out
the same; the finish reason is told from the frame it is in, and a call that
came in an earlier frame does not count there.
-/

namespace Gateway

open Fallible

def candidateOf (payload : Record) : Record :=
  asRecord (asArray (payload.field "candidates")).head?

def candidateParts (payload : Record) : List Json :=
  asArray ((asRecord ((candidateOf payload).field "content")).field "parts")

def candidateReason (payload : Record) : String :=
  asString ((candidateOf payload).field "finishReason")

def callsFunction (payload : Record) : Bool := (candidateParts payload).any fun raw =>
  (partCall raw).isSome

/-- A frame as the bounded parse hands it to the translator. -/
def frameEvent (frame : Record) : SseEvent := ⟨none, .json (.obj (Json.cloneFields frame))⟩

/-- The parts of the single candidate distributed over frames, of which at most
one has the finish reason. -/
structure SplitsInto (response : Record) (frames : List Record) : Prop where
  single : ∃ candidate, asArray (response.field "candidates") = [candidate]
  parts : frames.flatMap candidateParts = candidateParts response
  reason : (frames.map candidateReason).filter (· ≠ "") =
    [candidateReason response].filter (· ≠ "")

section Clone

variable (payload : Record)

theorem candidateOf_clone :
    candidateOf (Json.cloneFields payload) = Json.cloneFields (candidateOf payload) := by
  rw [candidateOf, field_cloneFields payload (by decide), asArray_clone, List.head?_map,
    asRecord_clone, candidateOf]

theorem candidateParts_clone :
    candidateParts (Json.cloneFields payload) =
      (candidateParts payload).map Json.cloneSanitized := by
  rw [candidateParts, candidateOf_clone, field_cloneFields _ (by decide), asRecord_clone,
    field_cloneFields _ (by decide), asArray_clone, candidateParts]

theorem candidateReason_clone :
    candidateReason (Json.cloneFields payload) = candidateReason payload := by
  rw [candidateReason, candidateOf_clone, field_cloneFields _ (by decide), asString_clone,
    candidateReason]

theorem callsFunction_clone : callsFunction (Json.cloneFields payload) = callsFunction payload := by
  have kept : "functionCall" ∉ forbiddenKeys := by decide
  simp [callsFunction, candidateParts_clone, List.any_map, Function.comp_def, partCall,
    field_cloneSanitized _ kept]

end Clone

section Text

theorem textOf_append (xs ys : List Json) : textOf (xs ++ ys) = textOf xs ++ textOf ys := by
  induction xs with
  | nil => simp [textOf]
  | cons raw rest ih => simp [textOf, ih, String.append_assoc]

theorem reasoningOf_append (xs ys : List Json) :
    reasoningOf (xs ++ ys) = reasoningOf xs ++ reasoningOf ys := by
  induction xs with
  | nil => simp [reasoningOf]
  | cons raw rest ih => simp [reasoningOf, ih, String.append_assoc]

end Text

section Frames

variable (options : StreamOptions)

/-- A call as a client keeps it. -/
def indexedCall (index : Nat) (functionCall : Json) : ℚ × ToolCall :=
  (index, ToolCall.ofRecord (geminiToolCall options index functionCall))

def indexedCalls (first : Nat) (raws : List Json) : List (ℚ × ToolCall) :=
  (raws.filterMap partCall).mapIdx fun i => indexedCall options (first + i)

theorem indexedCalls_append (first : Nat) (xs ys : List Json) :
    indexedCalls options first (xs ++ ys) = indexedCalls options first xs ++
      indexedCalls options (first + (xs.filterMap partCall).length) ys := by
  simp [indexedCalls, List.filterMap_append, List.mapIdx_append, Nat.add_assoc,
    Nat.add_comm (xs.filterMap partCall).length]

theorem below_append {count : Nat} {toolCalls : List (ℚ × ToolCall)} (below : Below count toolCalls)
    (raws : List Json) :
    Below (count + (raws.filterMap partCall).length)
      (toolCalls ++ indexedCalls options count raws) := by
  intro index mem
  rw [List.map_append, List.mem_append] at mem
  rcases mem with kept | added
  · have := below index kept
    push_cast
    have : (0 : ℚ) ≤ ((raws.filterMap partCall).length : ℚ) := Nat.cast_nonneg _
    linarith
  · obtain ⟨entry, mem, rfl⟩ := List.mem_map.mp added
    obtain ⟨i, lt, rfl⟩ := List.mem_mapIdx.mp mem
    have := Nat.add_lt_add_left lt count
    simp only [indexedCall]
    exact_mod_cast this

def callChunk (index : Nat) (functionCall : Json) : Record :=
  chunk options [("tool_calls", .arr [.obj (geminiToolCall options index functionCall ++
    [("index", .ofNat index)])])] none

/-- A whole call under the next index is kept as it is. -/
theorem add_callChunk (m : Assembled) (index : Nat) (functionCall : Json)
    (below : Below index m.toolCalls) :
    m.add (callChunk options index functionCall) =
      { m with toolCalls := m.toolCalls ++ [indexedCall options index functionCall] } := by
  have number : asNumber (Record.field (geminiToolCall options index functionCall ++
      [("index", .ofNat index)]) "index") = index := by
    simp [geminiToolCall, Record.field_cons]
  have fresh : asNumber (Record.field (geminiToolCall options index functionCall ++
      [("index", .ofNat index)]) "index") ∉ m.toolCalls.map Prod.fst := by
    rw [number]
    exact fun mem => absurd (below _ mem) (lt_irrefl _)
  have call : ToolCall.ofRecord (geminiToolCall options index functionCall ++
      [("index", .ofNat index)]) =
        ToolCall.ofRecord (geminiToolCall options index functionCall) := by
    simp [ToolCall.ofRecord, geminiToolCall, Record.field_cons]
  rw [callChunk, Assembled.add_chunk]
  simp [Record.field_cons, Assembled.addFragment_new fresh, number, call, indexedCall, asString]

theorem below_indexedCall {m : Assembled} {index : Nat} (below : Below index m.toolCalls)
    (functionCall : Json) :
    Below (index + 1) (m.toolCalls ++ [indexedCall options index functionCall]) := by
  simpa [indexedCalls, partCall, Record.field_cons] using
    below_append options below [.obj [("functionCall", functionCall)]]

theorem foldl_callChunk (first : Nat) (calls : List Json) (m : Assembled)
    (below : Below first m.toolCalls) :
    (calls.mapIdx fun i => callChunk options (first + i)).foldl Assembled.add m =
      { m with
        toolCalls := m.toolCalls ++ calls.mapIdx fun i => indexedCall options (first + i) } := by
  induction calls generalizing first m with
  | nil => simp
  | cons call rest ih =>
      have rest := ih (first + 1)
        { m with toolCalls := m.toolCalls ++ [indexedCall options first call] }
        (below_indexedCall options below call)
      simp only [Nat.add_assoc, Nat.add_comm 1] at rest
      rw [List.mapIdx_cons, List.foldl_cons, Nat.add_zero, add_callChunk options m first call below,
        rest, List.mapIdx_cons, List.append_assoc]
      rfl

theorem toolChunks_eq (first : Nat) (calls : List Json) :
    (calls.mapIdx fun i => geminiToolCall options (first + i)).mapIdx
      (GeminiStream.toolChunk options first) =
      calls.mapIdx fun i => callChunk options (first + i) := by
  rw [List.mapIdx_mapIdx]
  rfl

/-- The reason that a payload ends the message with, if any. -/
def endReason (payload : Record) : Option String :=
  finishReasonFromGemini (some (.str (candidateReason payload))) (callsFunction payload)

theorem callsFunction_eq (payload : Record) :
    callsFunction payload = !((candidateParts payload).filterMap partCall).isEmpty := by
  rw [callsFunction, Bool.eq_iff_iff]
  simp [List.filterMap_eq_nil_iff, Option.isSome_iff_ne_none]

theorem foldl_reasoningChunk (text : String) (m : Assembled) :
    (if text = "" then [] else [chunk options [("reasoning_content", .str text)] none]).foldl
      Assembled.add m = { m with reasoning := m.reasoning ++ text } := by
  by_cases silent : text = "" <;> simp [silent, Record.field_cons, asString, asArray]

theorem foldl_textChunk (text : String) (m : Assembled) :
    (if text = "" then [] else [chunk options [("content", .str text)] none]).foldl
      Assembled.add m = { m with text := m.text ++ text } := by
  by_cases silent : text = "" <;> simp [silent, Record.field_cons, asString, asArray]

theorem foldl_reasonChunk (reason : Option String) (m : Assembled) :
    (reason.elim [] fun reason => [chunk options [] (some reason)]).foldl Assembled.add m =
      { m with finishReason := reason.or m.finishReason } := by
  cases reason <;> simp [asString, asArray]

theorem foldl_contentChunks (first : Nat) (raws : List Json) (reason : Option String) (m : Assembled)
    (below : Below first m.toolCalls) :
    (GeminiStream.contentChunks options first
      ⟨textOf raws, reasoningOf raws,
        (raws.filterMap partCall).mapIdx fun i => geminiToolCall options (first + i)⟩
      reason).foldl Assembled.add m =
      ⟨m.text ++ textOf raws, m.reasoning ++ reasoningOf raws,
        m.toolCalls ++ indexedCalls options first raws, reason.or m.finishReason⟩ := by
  rw [GeminiStream.contentChunks, List.foldl_append, List.foldl_append, List.foldl_append,
    foldl_reasoningChunk, foldl_textChunk, toolChunks_eq, foldl_callChunk, foldl_reasonChunk]
  · rfl
  · exact below

/-- One frame adds its parts, and sets the reason if it has one. -/
theorem foldl_add_handle (s : GeminiStream) (payload : Record) (m : Assembled)
    (below : Below s.toolCount m.toolCalls) :
    (s.handle options ⟨none, .json (.obj payload)⟩).1.foldl Assembled.add m =
      ⟨m.text ++ textOf (candidateParts payload), m.reasoning ++ reasoningOf (candidateParts payload),
        m.toolCalls ++ indexedCalls options s.toolCount (candidateParts payload),
        (endReason payload).or m.finishReason⟩ := by
  by_cases empty : payload = []
  · subst empty
    simp [GeminiStream.handle, parseSseData, candidateParts, candidateOf, candidateReason, endReason,
      asRecord, asArray, asString, textOf, reasoningOf, indexedCalls, finishReasonFromGemini]
  · have opened : (if s.sentRole = true then []
        else [chunk options [("role", .str "assistant"), ("content", .str "")] none]).foldl
          Assembled.add m = m := by
      split <;> simp [Record.field_cons, asString, asArray]
    have called (f : Nat → Json → Record) (calls : List Json) :
        (calls.mapIdx f).isEmpty = calls.isEmpty := by
      rw [Bool.eq_iff_iff]
      simp
    have content := foldl_contentChunks options s.toolCount (candidateParts payload)
      (endReason payload) m below
    rw [endReason, callsFunction_eq] at content ⊢
    simp only [GeminiStream.handle, parseSseData, asRecord_obj, List.isEmpty_iff, empty, if_false,
      List.foldl_append, opened, fromGeminiParts_eq, called]
    exact content

theorem toolCount_handle (s : GeminiStream) (payload : Record) :
    (s.handle options ⟨none, .json (.obj payload)⟩).2.toolCount =
      s.toolCount + ((candidateParts payload).filterMap partCall).length := by
  by_cases empty : payload = []
  · subst empty
    rfl
  · simp only [GeminiStream.handle, parseSseData, asRecord_obj, List.isEmpty_iff, empty, if_false,
      fromGeminiParts_eq, List.length_mapIdx]
    rfl

theorem translated_frames (frames : List Record) (s : GeminiStream) (m : Assembled)
    (below : Below s.toolCount m.toolCalls) :
    (translated (GeminiStream.handle options)
      s (frames.map fun payload => ⟨none, .json (.obj payload)⟩)).foldl Assembled.add m =
      ⟨m.text ++ textOf (frames.flatMap candidateParts),
        m.reasoning ++ reasoningOf (frames.flatMap candidateParts),
        m.toolCalls ++ indexedCalls options s.toolCount (frames.flatMap candidateParts),
        ((frames.filterMap endReason).getLast?).or m.finishReason⟩ := by
  induction frames generalizing s m with
  | nil => simp [translated, textOf, reasoningOf, indexedCalls]
  | cons payload rest ih =>
      have below' := below_append options below (candidateParts payload)
      rw [List.map_cons, translated, List.foldl_append, foldl_add_handle options s payload m below,
        ih _ _ (by rw [toolCount_handle]; exact below'), toolCount_handle]
      simp only [List.flatMap_cons, textOf_append, reasoningOf_append, indexedCalls_append,
        String.append_assoc, List.append_assoc]
      cases ended : endReason payload with
      | none => simp [ended]
      | some reason =>
          cases later : (rest.filterMap endReason).getLast? with
          | none => simp [ended, List.getLast?_eq_none_iff.mp later]
          | some last => simp [ended, List.getLast?_cons, later]

end Frames

section Reason

theorem finishReasonFromGemini_some {reason : String} (given : reason ≠ "") (hasToolCall : Bool) :
    ∃ finish, finishReasonFromGemini (some (.str reason)) hasToolCall = some finish := by
  simp only [finishReasonFromGemini, asString_str]
  split
  · exact absurd rfl given
  all_goals exact ⟨_, rfl⟩

/-- Only the ordinary end is told apart by whether there was a call. -/
theorem finishReasonFromGemini_inj {reason : String} (b c : Bool) :
    finishReasonFromGemini (some (.str reason)) b = finishReasonFromGemini (some (.str reason)) c ↔
      (reason = "STOP" → b = c) := by
  by_cases stop : reason = "STOP"
  · subst stop
    cases b <;> cases c <;> decide
  · simp only [finishReasonFromGemini, asString_str, stop, false_implies, iff_true]
    split <;> first | rfl | contradiction

theorem endReason_none {payload : Record} (silent : candidateReason payload = "") :
    endReason payload = none := by
  rw [endReason, silent]
  rfl

theorem endReason_clone (payload : Record) :
    endReason (Json.cloneFields payload) = endReason payload := by
  rw [endReason, candidateReason_clone, callsFunction_clone, endReason]

/-- Only the frames that have a reason decide which one the stream ends with. -/
theorem filterMap_endReason (frames : List Record) :
    frames.filterMap endReason =
      (frames.filter fun frame => candidateReason frame ≠ "").filterMap endReason := by
  rw [List.filterMap_filter]
  refine List.filterMap_congr fun frame _ => ?_
  by_cases silent : candidateReason frame = ""
  · simp [silent, endReason_none silent]
  · simp [silent]

theorem SplitsInto.carrier {response : Record} {frames : List Record}
    (splits : SplitsInto response frames) (given : candidateReason response ≠ "") :
    ∃ frame, (frames.filter fun frame => candidateReason frame ≠ "") = [frame] ∧
      candidateReason frame = candidateReason response := by
  have reason := splits.reason
  rw [List.filter_map, List.filter_cons_of_pos (by simpa using given), List.filter_nil] at reason
  obtain ⟨frame, carriers, same⟩ := List.map_eq_singleton_iff.mp reason
  exact ⟨frame, carriers, same⟩

theorem SplitsInto.silent {response : Record} {frames : List Record}
    (splits : SplitsInto response frames) (missing : candidateReason response = "") :
    frames.filterMap endReason = [] := by
  have reason := splits.reason
  rw [List.filter_map, List.filter_cons_of_neg (by simpa using missing), List.filter_nil] at reason
  have none_carries : frames.filter (fun frame => candidateReason frame ≠ "") = [] :=
    List.map_eq_nil_iff.mp reason
  rw [filterMap_endReason, none_carries, List.filterMap_nil]

theorem SplitsInto.callsFunction_of {response : Record} {frames : List Record}
    (splits : SplitsInto response frames) {frame : Record} (mem : frame ∈ frames)
    (calls : callsFunction frame = true) : callsFunction response = true := by
  obtain ⟨raw, of_frame, call⟩ := List.any_eq_true.mp calls
  rw [callsFunction, ← splits.parts, List.any_eq_true]
  exact ⟨raw, List.mem_flatMap.mpr ⟨frame, mem, of_frame⟩, call⟩

end Reason

section Agreement

/-- The response says why it ended, and if it ended in the ordinary way after a
call, the frame that says so has one. -/
structure EndsWithCalls (response : Record) (frames : List Record) : Prop where
  given : candidateReason response ≠ ""
  together : candidateReason response = "STOP" → callsFunction response = true →
    ∃ frame ∈ frames, candidateReason frame ≠ "" ∧ callsFunction frame = true

/-- Calls compared without their ids, which are drawn. -/
def SameCall (a b : ToolCall) : Prop := a.name = b.name ∧ a.arguments = b.arguments

variable (limits : JsonLimits) (options : StreamOptions) (draw : Nat → String)

def streamedGemini (frames : List Record) : AssistantMessage :=
  (Assembled.ofChunks (translated (GeminiStream.handle options) GeminiStream.initial
    (frames.map frameEvent))).message

theorem streamedGemini_eq {response : Record} {frames : List Record}
    (splits : SplitsInto response frames) :
    streamedGemini options frames =
      ⟨textOf (candidateParts (Json.cloneFields response)),
        reasoningOf (candidateParts (Json.cloneFields response)),
        (indexedCalls options 0 (candidateParts (Json.cloneFields response))).map Prod.snd,
        (frames.filterMap endReason).getLast?⟩ := by
  have run := translated_frames options (frames.map Json.cloneFields) GeminiStream.initial
    Assembled.empty (by simp [Below, Assembled.empty])
  have parts : (frames.map Json.cloneFields).flatMap candidateParts =
      candidateParts (Json.cloneFields response) := by
    simp only [List.flatMap_map, candidateParts_clone, ← splits.parts, List.map_flatMap]
  have reasons : (frames.map Json.cloneFields).filterMap endReason = frames.filterMap endReason := by
    simp only [List.filterMap_map, Function.comp_def, endReason_clone]
  rw [List.map_map, parts, reasons] at run
  rw [streamedGemini, Assembled.ofChunks]
  exact (congrArg Assembled.message run).trans (by
    simp [Assembled.message, Assembled.empty, GeminiStream.initial])

theorem bufferedGemini_eq {response out : Record} {frames : List Record} {requestedModel : String}
    (splits : SplitsInto response frames)
    (h : geminiToOpenaiResponse limits { options with randomId := draw } response requestedModel =
      .ok out) :
    messageOfResponse out =
      ⟨textOf (candidateParts (Json.cloneFields response)),
        reasoningOf (candidateParts (Json.cloneFields response)),
        (indexedCalls { options with randomId := draw } 0
          (candidateParts (Json.cloneFields response))).map Prod.snd,
        some ((endReason response).getD "stop")⟩ := by
  obtain ⟨input, sanitized, h⟩ := bind_ok h
  cases h
  obtain ⟨-, rfl⟩ := sanitizeParsed_ok sanitized
  obtain ⟨candidate, single⟩ := splits.single
  have candidates : asArray (Record.field (Json.cloneFields response) "candidates") =
      [candidate.cloneSanitized] := by
    rw [field_cloneFields response (by decide), asArray_clone, single, List.map_singleton]
  have only : candidateOf (Json.cloneFields response) =
      asRecord (some candidate.cloneSanitized) := by
    rw [candidateOf, candidates, List.head?_cons]
  have calls : ((candidateParts (Json.cloneFields response)).filterMap partCall).isEmpty =
      !callsFunction response := by
    rw [← callsFunction_clone, callsFunction_eq, Bool.not_not]
  have isEmpty_mapIdx (f : Nat → Json → Record) (raws : List Json) :
      (raws.mapIdx f).isEmpty = raws.isEmpty := by
    rw [Bool.eq_iff_iff]
    simp
  rw [candidates, List.isEmpty_cons, if_neg Bool.false_ne_true, geminiChoices,
    messageOfResponse_chatCompletion, ← only, fromGeminiParts_eq]
  rw [← candidateParts, isEmpty_mapIdx, calls, Bool.not_not]
  have reason : finishReasonFromGemini
      ((candidateOf (Json.cloneFields response)).field "finishReason") (callsFunction response) =
        endReason response := by
    rw [← endReason_clone, endReason, callsFunction_clone]
    rfl
  have kept (raws : List Json) :
      (raws.mapIdx fun i => geminiToolCall { options with randomId := draw } (0 + i)).map
        ToolCall.ofRecord =
      (raws.mapIdx fun i => indexedCall { options with randomId := draw } (0 + i)).map Prod.snd :=
    List.ext_getElem (by simp) (by simp [indexedCall])
  rw [reason, kept, indexedCalls]

/-- A streamed message is the buffered one exactly where its finish reason can be
told from the frame that carries it. -/
theorem gemini_stream_agrees_iff {response out : Record} {frames : List Record}
    {requestedModel : String} (splits : SplitsInto response frames)
    (h : geminiToOpenaiResponse limits { options with randomId := draw } response requestedModel =
      .ok out) :
    AgreeUpTo SameCall (streamedGemini options frames) (messageOfResponse out) ↔
      EndsWithCalls response frames := by
  have calls : List.Forall₂ SameCall
      ((indexedCalls options 0 (candidateParts (Json.cloneFields response))).map Prod.snd)
      ((indexedCalls { options with randomId := draw } 0
        (candidateParts (Json.cloneFields response))).map Prod.snd) := by
    refine List.forall₂_iff_get.mpr ⟨by simp [indexedCalls], fun i lt lt' => ?_⟩
    simp [indexedCalls, indexedCall, geminiToolCall, SameCall, ToolCall.ofRecord, Record.field_cons]
  have reason : AgreeUpTo SameCall (streamedGemini options frames) (messageOfResponse out) ↔
      (frames.filterMap endReason).getLast? = some ((endReason response).getD "stop") := by
    rw [streamedGemini_eq options splits, bufferedGemini_eq limits options draw splits h]
    exact ⟨fun agree => agree.finishReason, fun same => ⟨rfl, rfl, calls, same⟩⟩
  rw [reason]
  by_cases given : candidateReason response = ""
  · rw [splits.silent given]
    exact ⟨fun none => absurd none (by simp), fun ends => absurd given ends.given⟩
  · obtain ⟨frame, carriers, same⟩ := splits.carrier given
    have carries : frame ∈ frames ∧ candidateReason frame ≠ "" := by
      have mem : frame ∈ frames.filter fun frame => candidateReason frame ≠ "" := by
        rw [carriers]
        exact List.mem_singleton.mpr rfl
      simpa using mem
    obtain ⟨finish, ended⟩ := finishReasonFromGemini_some given (callsFunction frame)
    obtain ⟨whole, whole_ended⟩ := finishReasonFromGemini_some given (callsFunction response)
    have inj := @finishReasonFromGemini_inj (candidateReason response) (callsFunction frame)
      (callsFunction response)
    have frame_reason : endReason frame = some finish := by rw [endReason, same, ended]
    have whole_reason : endReason response = some whole := by rw [endReason, whole_ended]
    rw [ended, whole_ended] at inj
    rw [filterMap_endReason, carriers, List.filterMap_cons, frame_reason, whole_reason,
      List.filterMap_nil]
    simp only [List.getLast?_singleton, Option.getD_some]
    rw [inj]
    constructor
    · intro same
      exact ⟨given, fun stop calls => ⟨frame, carries.1, carries.2, (same stop).trans calls⟩⟩
    · intro ends stop
      cases calls : callsFunction response with
      | true =>
          obtain ⟨other, mem, carries', called⟩ := ends.together stop calls
          have is_frame : other ∈ frames.filter fun frame => candidateReason frame ≠ "" := by
            simpa using ⟨mem, carries'⟩
          rw [carriers, List.mem_singleton] at is_frame
          rw [← is_frame, called]
      | false =>
          cases called : callsFunction frame with
          | false => rfl
          | true => exact absurd (splits.callsFunction_of carries.1 called) (by simp [calls])

end Agreement

section Frames

def someOptions : StreamOptions := ⟨"m", "chatcmpl-0", 0, false, fun _ => "0", jsonStringify⟩

/-- A frame of one candidate. -/
def geminiFrame (parts : List Json) (finish : Record) : Record :=
  [("candidates", .arr [.obj ([("content", .obj [("parts", .arr parts)])] ++ finish)])]

def callPart : Json := .obj [("functionCall", .obj [("name", .str "weather")])]

def stopField : Record := [("finishReason", .str "STOP")]

theorem gemini_stream_agrees_one_frame : ∃ out,
    geminiToOpenaiResponse ⟨64, 1000⟩ someOptions (geminiFrame [callPart] stopField) "" = .ok out ∧
      AgreeUpTo SameCall (streamedGemini someOptions [geminiFrame [callPart] stopField])
        (messageOfResponse out) :=
  ⟨_, rfl, (gemini_stream_agrees_iff ⟨64, 1000⟩ someOptions (fun _ => "0")
    ⟨⟨_, rfl⟩, rfl, rfl⟩ rfl).mpr
      ⟨by decide, fun _ _ => ⟨_, List.mem_singleton.mpr rfl, by decide, rfl⟩⟩⟩

/-- A call in one frame and the end in the next: the end is taken for a plain one. -/
theorem later_stop_disagrees :
    SplitsInto (geminiFrame [callPart] stopField)
        [geminiFrame [callPart] [], geminiFrame [] stopField] ∧
      ∃ out, geminiToOpenaiResponse ⟨64, 1000⟩ someOptions (geminiFrame [callPart] stopField) "" =
          .ok out ∧
        ¬AgreeUpTo SameCall
          (streamedGemini someOptions [geminiFrame [callPart] [], geminiFrame [] stopField])
          (messageOfResponse out) :=
  ⟨⟨⟨_, rfl⟩, rfl, rfl⟩, _, rfl, fun agree => absurd agree.finishReason (by decide +kernel)⟩

end Frames

end Gateway
