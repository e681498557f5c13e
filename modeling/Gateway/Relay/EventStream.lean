import Gateway.Http.Redact
import Gateway.Relay.Disclosure
import Gateway.Transform.Openai
import Gateway.Transform.SseText
import Gateway.Util.JsonBounds

/-!
The text of a streamed response, from an upstream and to a client that both speak the OpenAI shape.

The body of the upstream is read event by event. The credential is taken out of the data, a chunk
gets the name of the model that the client asked for, and the frame that reports nothing but usage
is kept back when the client did not ask for it.
-/

namespace Gateway

open Sse

section Errors

def ErrorCode.text : ErrorCode → String
  | .invalidApiKey => "invalid_api_key"
  | .ipNotAllowed => "ip_not_allowed"
  | .insufficientPermissions => "insufficient_permissions"
  | .insufficientQuota => "insufficient_quota"
  | .rateLimitExceeded => "rate_limit_exceeded"
  | .tpmLimitExceeded => "tpm_limit_exceeded"
  | .concurrencyLimit => "concurrency_limit"
  | .payloadTooLarge => "payload_too_large"
  | .invalidRequest => "invalid_request"
  | .noChannelAvailable => "no_channel_available"
  | .upstreamError => "upstream_error"
  | .upstreamTimeout => "upstream_timeout"
  | .upstreamUnreachable => "upstream_unreachable"
  | .malformedUpstreamBody => "malformed_upstream_body"
  | .ssrfBlocked => "ssrf_blocked"
  | .internalError => "internal_error"
  | .notFound => "not_found"
  | .serviceUnavailable => "service_unavailable"
  | .configurationError => "configuration_error"

def ErrorKind.text : ErrorKind → String
  | .invalidRequestError => "invalid_request_error"
  | .authenticationError => "authentication_error"
  | .permissionError => "permission_error"
  | .notFoundError => "not_found_error"
  | .rateLimitError => "rate_limit_error"
  | .insufficientQuota => "insufficient_quota"
  | .apiError => "api_error"
  | .overloadedError => "overloaded_error"

/-- The body of an error for a client of the OpenAI shape. -/
def errorBody (error : GatewayError) : Record :=
  [("error", .obj [("message", .str (redact error.message)), ("type", .str error.kind.text),
    ("param", error.param.elim .null .str), ("code", .str error.code.text)])]

end Errors

section Frames

def SSE_DONE : String := "[DONE]"

/-- `formatSse({ data })` -/
def dataFrame (text : String) : Units :=
  formatSse ⟨none, some (Units.ofString text), none, none, none⟩

def chunkFrame (chunk : Record) : Units := dataFrame (jsonStringify (.obj chunk))

def sseDone : Units := dataFrame SSE_DONE

def errorSseChunk (error : GatewayError) : Units :=
  Units.ofString ("data: " ++ jsonStringify (.obj (errorBody error)) ++ "\n\n")

def textMessage (text : String) : Message := ⟨none, Units.ofString text, none⟩

/-- The event that a text arrives as. -/
def dataEvent (text : String) : Event := ⟨none, Units.ofString text, none, none, none⟩

end Frames

/-- What the relay of a stream is created with. -/
structure EventRelay where
  maxLineBytes : Nat
  json : JsonConfig
  secret : String
  options : StreamOptions

namespace EventRelay

variable (relay : EventRelay)

section Relay

def limits : JsonLimits := JsonParseOptions.limits relay.json {}

/-- The data without the credential, or as it is where it is no JSON or exceeds a limit. -/
def redactData (text : String) : String :=
  match jsonParse text with
  | none => text
  | some value =>
      match redactProviderValue relay.limits value relay.secret with
      | .error _ => text
      | .ok clean => jsonStringify clean

/-- The data as the translator tells it apart. -/
def readData (text : String) : SseData :=
  let trimmed := jsTrim text
  if trimmed = SSE_DONE then .done
  else if trimmed = "" then .unparsed
  else
    match safeJsonParse relay.json {} trimmed with
    | .ok value => .json value
    | .error _ => .unparsed

def dataOf (event : Event) : SseData :=
  event.data.text.elim .unparsed fun text => relay.readData (relay.redactData text)

def endsStream (event : Event) : Bool := event.data.text.any fun text => jsTrim text == SSE_DONE

/-- The chunks of the events up to the sentinel, and whether it was among them. -/
def handleEvents (s : OpenaiStream) : List Event → List Record × OpenaiStream × Bool
  | [] => ([], s, false)
  | event :: events =>
      let (chunks, s) := OpenaiStream.handle relay.options s ⟨none, relay.dataOf event⟩
      if endsStream event then (chunks, s, true)
      else
        let (later, s, ended) := handleEvents s events
        (chunks ++ later, s, ended)

/-- The frames that are written for the chunks of a body, which ends or is interrupted. -/
def relayed (interrupted : Option GatewayError) (p : Parser) (s : OpenaiStream) :
    List Units → List Units × OpenaiStream
  | [] =>
      match interrupted with
      | some error => ([errorSseChunk error, sseDone], s)
      | none =>
          match (flush relay.maxLineBytes p).1 with
          | .error error => ([errorSseChunk error, sseDone], s)
          | .ok events =>
              let (chunks, s, _) := relay.handleEvents s events
              (chunks.map chunkFrame ++ [sseDone], s)
  | chunk :: rest =>
      match push relay.maxLineBytes p chunk with
      | (.error error, _) => ([errorSseChunk error, sseDone], s)
      | (.ok events, p) =>
          match relay.handleEvents s events with
          | (chunks, s, true) => (chunks.map chunkFrame ++ [sseDone], s)
          | (chunks, s, false) =>
              let (later, s) := relayed interrupted p s rest
              (chunks.map chunkFrame ++ later, s)

end Relay

section Whole

theorem handleEvents_cons (s : OpenaiStream) (event : Event) (events : List Event) :
    relay.handleEvents s (event :: events) =
      if endsStream event then
        ((OpenaiStream.handle relay.options s ⟨none, relay.dataOf event⟩).1,
          (OpenaiStream.handle relay.options s ⟨none, relay.dataOf event⟩).2, true)
      else
        ((OpenaiStream.handle relay.options s ⟨none, relay.dataOf event⟩).1 ++
            (relay.handleEvents (OpenaiStream.handle relay.options s
              ⟨none, relay.dataOf event⟩).2 events).1,
          (relay.handleEvents (OpenaiStream.handle relay.options s
            ⟨none, relay.dataOf event⟩).2 events).2) := rfl

theorem handleEvents_append (s : OpenaiStream) (events later : List Event) :
    relay.handleEvents s (events ++ later) =
      if (relay.handleEvents s events).2.2 = true then relay.handleEvents s events
      else
        ((relay.handleEvents s events).1 ++
            (relay.handleEvents (relay.handleEvents s events).2.1 later).1,
          (relay.handleEvents (relay.handleEvents s events).2.1 later).2) := by
  induction events generalizing s with
  | nil => rfl
  | cons event events ih =>
      rw [List.cons_append, handleEvents_cons, handleEvents_cons]
      by_cases ends : endsStream event = true
      · rw [if_pos ends, if_pos ends, if_pos rfl]
      · rw [if_neg ends, if_neg ends, ih]
        split
        · rfl
        · rw [List.append_assoc]

/-- A body that is read without an error is relayed as if it came in one piece. -/
theorem relayed_of_read {chunks : List Units} {p : Parser} {events : List Event}
    (read : parseChunks relay.maxLineBytes p chunks = .ok events) (s : OpenaiStream) :
    relay.relayed none p s chunks =
      ((relay.handleEvents s events).1.map chunkFrame ++ [sseDone],
        (relay.handleEvents s events).2.1) := by
  induction chunks generalizing p s events with
  | nil =>
      rw [parseChunks] at read
      rw [relayed, read]
  | cons chunk chunks ih =>
      rw [parseChunks] at read
      rw [relayed]
      cases pushed : push relay.maxLineBytes p chunk with
      | mk outcome p' =>
          rw [pushed] at read
          cases outcome with
          | error error => cases read
          | ok first =>
              dsimp only at read ⊢
              cases rest : parseChunks relay.maxLineBytes p' chunks with
              | error error =>
                  rw [rest] at read
                  cases read
              | ok later =>
                  rw [rest] at read
                  cases read
                  rw [handleEvents_append]
                  cases handled : relay.handleEvents s first with
                  | mk written state =>
                      obtain ⟨state, ended⟩ := state
                      cases ended with
                      | true => rw [if_pos rfl]
                      | false =>
                          rw [if_neg Bool.false_ne_true]
                          dsimp only
                          rw [ih rest, List.map_append, List.append_assoc]

end Whole

section Intact

/-- A chunk that the gateway has no reason to change: its text stands for it, it is within the
limits, and the credential is nowhere in it. -/
structure Deliverable (c : Record) : Prop where
  carried : (Json.obj c).Carried
  lasting : (Json.obj c).Lasting
  within : (Json.obj c).assertLimits relay.limits = .ok ()
  short : (jsonStringify (.obj c)).utf8ByteSize ≤ relay.json.maxRequestBodyBytes
  texts : ∀ text, .str text ∈ (Json.obj c).leaves → ¬ Includes text relay.secret
  keys : ∀ key ∈ (Json.obj c).keys, ¬ Includes key relay.secret

/-- The chunk as the client is to see it. -/
def renamed (c : Record) : Record := c.set "model" (.str relay.options.model)

/-- The frame with the usage and nothing else stays with the gateway when it asked for it. -/
def shown (c : Record) : Bool :=
  !((asArray (c.field "choices")).isEmpty && c.has "usage" && relay.options.suppressUsageFrame)

/-- The usage that was reported last. -/
def lastUsage (sent : List Record) : Record :=
  sent.foldl (fun usage c =>
    (OpenaiStream.reportedUsage c).elim usage fun raw => usageFromOpenai (some raw))
    (usageFromOpenai none)

variable {relay}

theorem Deliverable.written {c : Record} (deliverable : relay.Deliverable c) :
    (Json.obj c).cloneSanitized = .obj c ∧ jsonParse (jsonStringify (.obj c)) = some (.obj c) := by
  have copied : (Json.obj c).cloneSanitized = .obj c :=
    (clone_eq_iff _).mpr (clean_of_lasting _ deliverable.lasting)
  have read := (jsonParse_clone_iff deliverable.carried).mpr deliverable.lasting
  rw [copied] at read
  exact ⟨copied, read⟩

theorem Deliverable.redactData {c : Record} (deliverable : relay.Deliverable c) :
    relay.redactData (jsonStringify (.obj c)) = jsonStringify (.obj c) := by
  obtain ⟨copied, read⟩ := deliverable.written
  have kept : redactProviderValue relay.limits (.obj c) relay.secret = .ok (.obj c) := by
    rw [redactProviderValue, sanitizeValue, deliverable.within, Except.map, Except.map, copied]
    split
    · rfl
    · exact congrArg Except.ok (redactWalk_harmless deliverable.carried.keysOnce deliverable.texts
        deliverable.keys)
  rw [EventRelay.redactData, read]
  dsimp only
  rw [kept]

theorem stringify_object_ne (c : Record) {text : String} (other : text.toList.head? ≠ some '{') :
    jsonStringify (.obj c) ≠ text := by
  rintro rfl
  refine other ?_
  rw [jsonStringify, String.toList_ofList]
  rfl

theorem Deliverable.readData {c : Record} (deliverable : relay.Deliverable c) :
    relay.readData (jsonStringify (.obj c)) = .json (.obj c) := by
  obtain ⟨copied, read⟩ := deliverable.written
  have not_done : jsonStringify (.obj c) ≠ SSE_DONE := stringify_object_ne c (by decide)
  have not_empty : jsonStringify (.obj c) ≠ "" := stringify_object_ne c (by decide)
  have parsed : safeJsonParse relay.json {} (jsonStringify (.obj c)) = .ok (.obj c) := by
    have bounded : ¬({} : JsonParseOptions).maxBytes.getD relay.json.maxRequestBodyBytes <
        (jsonStringify (.obj c)).utf8ByteSize := not_lt.mpr deliverable.short
    rw [safeJsonParse, if_neg bounded, read]
    dsimp only
    have within : (Json.obj c).assertLimits (JsonParseOptions.limits relay.json {}) = .ok () :=
      deliverable.within
    rw [assertJsonLimits, within]
    exact congrArg Except.ok copied
  rw [EventRelay.readData, jsTrim_jsonStringify, if_neg not_done, if_neg not_empty, parsed]

theorem Deliverable.dataOf {c : Record} (deliverable : relay.Deliverable c) :
    relay.dataOf (dataEvent (jsonStringify (.obj c))) = .json (.obj c) := by
  rw [EventRelay.dataOf, dataEvent, Units.text_ofString, Option.elim, deliverable.redactData,
    deliverable.readData]

theorem goes_on (c : Record) : endsStream (dataEvent (jsonStringify (.obj c))) = false := by
  rw [endsStream, dataEvent, Units.text_ofString, Option.any_some, jsTrim_jsonStringify,
    beq_eq_false_iff_ne]
  exact stringify_object_ne c (by decide)

/-- A chunk is forwarded under the model's own name, and its usage is kept. -/
theorem Deliverable.handle {c : Record} (deliverable : relay.Deliverable c) (s : OpenaiStream) :
    (OpenaiStream.handle relay.options s
        ⟨none, relay.dataOf (dataEvent (jsonStringify (.obj c)))⟩).1 =
        (if relay.shown c then [relay.renamed c] else []) ∧
      (OpenaiStream.handle relay.options s
        ⟨none, relay.dataOf (dataEvent (jsonStringify (.obj c)))⟩).2.usageSoFar =
        (OpenaiStream.reportedUsage c).elim s.usageSoFar fun raw => usageFromOpenai (some raw) := by
  rw [OpenaiStream.usageSoFar_handle, deliverable.dataOf]
  have choices : (relay.renamed c).field "choices" = c.field "choices" :=
    field_set_ne _ (by decide)
  refine ⟨?_, ?_⟩
  · simp only [OpenaiStream.handle, plainObject]
    change (if (asArray ((relay.renamed c).field "choices")).isEmpty && c.has "usage" &&
      relay.options.suppressUsageFrame then _ else _ : List Record × OpenaiStream).1 = _
    rw [choices, shown]
    cases (asArray (c.field "choices")).isEmpty && c.has "usage" &&
      relay.options.suppressUsageFrame <;> rfl
  · rw [OpenaiStream.report, plainObject, Option.bind_some]
    cases OpenaiStream.reportedUsage c <;> rfl

theorem handleEvents_sent {sent : List Record} (deliverable : ∀ c ∈ sent, relay.Deliverable c)
    (s : OpenaiStream) :
    (relay.handleEvents s (sent.map fun c => dataEvent (jsonStringify (.obj c)))).1 =
        (sent.filter relay.shown).map relay.renamed ∧
      (relay.handleEvents s (sent.map fun c => dataEvent (jsonStringify (.obj c)))).2.2 = false ∧
      (relay.handleEvents s
          (sent.map fun c => dataEvent (jsonStringify (.obj c)))).2.1.usageSoFar =
        sent.foldl (fun usage c =>
          (OpenaiStream.reportedUsage c).elim usage fun raw => usageFromOpenai (some raw))
          s.usageSoFar := by
  induction sent generalizing s with
  | nil => exact ⟨rfl, rfl, rfl⟩
  | cons c sent ih =>
      obtain ⟨here, rest⟩ := List.forall_mem_cons.mp deliverable
      obtain ⟨chunks, usage⟩ := here.handle s
      obtain ⟨later, open_still, reported⟩ := ih rest
        (OpenaiStream.handle relay.options s
          ⟨none, relay.dataOf (dataEvent (jsonStringify (.obj c)))⟩).2
      rw [List.map_cons, handleEvents_cons, goes_on, if_neg Bool.false_ne_true]
      refine ⟨?_, open_still, ?_⟩
      · rw [chunks, later, List.filter_cons]
        split
        · rw [List.map_cons, List.singleton_append]
        · rw [List.nil_append]
      · rw [List.foldl_cons, ← usage]
        exact reported

/-- The sentinel forwards nothing. -/
theorem handleEvents_done (s : OpenaiStream) (events : List Event) :
    relay.handleEvents s (dataEvent SSE_DONE :: events) = ([], { s with finished := true }, true) := by
  have quiet : relay.dataOf (dataEvent SSE_DONE) = .done := by
    rw [EventRelay.dataOf, dataEvent, Units.text_ofString, Option.elim, EventRelay.redactData,
      show jsonParse SSE_DONE = none by decide +kernel]
    dsimp only
    rw [EventRelay.readData, show jsTrim SSE_DONE = SSE_DONE by decide +kernel]
    exact if_pos rfl
  have ends : endsStream (dataEvent SSE_DONE) = true := by
    rw [endsStream, dataEvent, Units.text_ofString, Option.any_some,
      show jsTrim SSE_DONE = SSE_DONE by decide +kernel]
    exact beq_self_eq_true _
  rw [handleEvents_cons, if_pos ends, quiet]
  rfl

theorem received_textMessage {text : String} (visible : ∀ c ∈ text.toList, Visible c) :
    (textMessage text).received = dataEvent text := by
  rw [Message.received, textMessage, normalise_of_no_cr (units_of_visible visible)]
  rfl

theorem received_chunk (c : Record) :
    (textMessage (jsonStringify (.obj c))).received = dataEvent (jsonStringify (.obj c)) :=
  received_textMessage fun d mem => visible_valueText (.obj c) d (by
    rwa [jsonStringify, String.toList_ofList] at mem)

theorem received_done : (textMessage SSE_DONE).received = dataEvent SSE_DONE := by
  have visible : SSE_DONE.toList.all (fun c => decide (32 ≤ c.toNat)) = true := by decide +kernel
  exact received_textMessage fun c mem =>
    show 32 ≤ c.toNat from of_decide_eq_true (List.all_eq_true.mp visible c mem)

/-- A channel that serves the model under a name of its own; the client asked for no usage. -/
def sampleRelay : EventRelay where
  maxLineBytes := 200
  json := ⟨1024, 8, 64⟩
  secret := "sk-1"
  options := ⟨"gpt", "", 0, true, fun _ => "", jsonStringify⟩

def sampleSent : List Record :=
  [[("model", .str "deployment"),
      ("choices", .arr [.obj [("delta", .obj [("content", .str "a\nb")])]])],
    [("model", .str "deployment"), ("choices", .arr []),
      ("usage", .obj [("prompt_tokens", .ofNat 3)])]]

def sampleBody : List Units :=
  let text := wire ((sampleSent.map fun c => textMessage (jsonStringify (.obj c))) ++
    [textMessage SSE_DONE])
  [text.take 20, text.drop 20]

theorem sampleSent_deliverable : ∀ c ∈ sampleSent, sampleRelay.Deliverable c := by
  have three : IsNumber (3 : ℚ) := ⟨isDecimal_natCast 3, by decide +kernel⟩
  refine List.forall_mem_cons.mpr ⟨?_, List.forall_mem_singleton.mpr ?_⟩
  · refine ⟨by simp [Json.Carried, Json.FieldsCarried, Json.ItemsCarried],
      by simp [Json.Lasting, Json.FieldsLasting, Json.ItemsLasting, forbiddenKeys], rfl,
      by decide +kernel, fun text mem => ?_, by decide +kernel⟩
    simp only [Json.leaves, Json.fieldLeaves, Json.itemLeaves, List.append_nil, List.cons_append,
      List.nil_append, List.mem_cons, List.not_mem_nil, Json.str.injEq, or_false] at mem
    rcases mem with rfl | rfl <;> decide
  · refine ⟨by simp [Json.Carried, Json.FieldsCarried, Json.ItemsCarried, Json.ofNat, three],
      by simp [Json.Lasting, Json.FieldsLasting, Json.ItemsLasting, forbiddenKeys, Json.ofNat], rfl,
      by decide +kernel, fun text mem => ?_, by decide +kernel⟩
    simp only [Json.leaves, Json.fieldLeaves, Json.itemLeaves, Json.ofNat, List.append_nil,
      List.cons_append, List.nil_append, List.mem_cons, List.not_mem_nil, Json.str.injEq, or_false,
      reduceCtorEq] at mem
    subst mem
    decide

end Intact

end EventRelay

end Gateway
