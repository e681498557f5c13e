import Gateway.Relay.EventStream

/-!
The credential of a provider in the events of a stream.

The data of an event is parsed, loses the credential and is written again, and the translator reads
what was written. What it forwards holds the credential nowhere, unless the data is JSON for the
translator alone, which trims characters that are no space in JSON.
-/

namespace Gateway

open Sse

namespace Json

section Copies

variable {key : String → String} {leaf : Json → Json}

mutual

/-- A copy with the keys and the leaves rewritten can be carried when its leaves can. -/
theorem carried_rebuild (plain : ∀ value, value.Carried → (leaf value).Carried) :
    (value : Json) → value.Carried → (rebuild key leaf value).Carried
  | .arr items => carried_rebuildItems plain items
  | .obj fields => fun carried => carried_collect (carried_rebuildFields plain fields carried.2)
  | .null => plain .null
  | .bool b => plain (.bool b)
  | .num n => plain (.num n)
  | .str s => plain (.str s)

theorem carried_rebuildItems (plain : ∀ value, value.Carried → (leaf value).Carried) :
    (items : List Json) → ItemsCarried items → ItemsCarried (rebuildItems key leaf items)
  | [] => id
  | item :: rest => fun carried =>
      ⟨carried_rebuild plain item carried.1, carried_rebuildItems plain rest carried.2⟩

theorem carried_rebuildFields (plain : ∀ value, value.Carried → (leaf value).Carried) :
    (fields : List (String × Json)) → FieldsCarried fields →
      FieldsCarried (rebuildFields key leaf fields)
  | [] => id
  | (_, value) :: rest => fun carried =>
      ⟨carried_rebuild plain value carried.1, carried_rebuildFields plain rest carried.2⟩

end

mutual

/-- What is written has no texts of its own. -/
theorem texts_written : (value : Json) → ∀ text, .str text ∈ value.written.leaves →
    .str text ∈ value.leaves
  | .arr items => itemTexts_written items
  | .obj fields => fieldTexts_written fields
  | .num n => by cases n <;> simp [written, leaves]
  | .null | .bool _ | .str _ => fun _ mem => mem

theorem itemTexts_written : (items : List Json) →
    ∀ text, .str text ∈ itemLeaves (writtenItems items) → .str text ∈ itemLeaves items
  | [] => fun _ mem => mem
  | item :: rest => by
      intro text mem
      rw [writtenItems, itemLeaves] at mem
      rw [itemLeaves]
      exact List.mem_append.mpr ((List.mem_append.mp mem).imp (texts_written item text)
        (itemTexts_written rest text))

theorem fieldTexts_written : (fields : List (String × Json)) →
    ∀ text, .str text ∈ fieldLeaves (writtenFields fields) → .str text ∈ fieldLeaves fields
  | [] => fun _ mem => mem
  | (_, value) :: rest => by
      intro text mem
      rw [writtenFields, fieldLeaves] at mem
      rw [fieldLeaves]
      exact List.mem_append.mpr ((List.mem_append.mp mem).imp (texts_written value text)
        (fieldTexts_written rest text))

end

mutual

theorem keys_written : (value : Json) → value.written.keys = value.keys
  | .arr items => itemKeys_written items
  | .obj fields => fieldKeys_written fields
  | .num n => by cases n <;> rfl
  | .null | .bool _ | .str _ => rfl

theorem itemKeys_written : (items : List Json) → itemKeys (writtenItems items) = itemKeys items
  | [] => rfl
  | item :: rest => by
      rw [writtenItems, itemKeys, itemKeys, keys_written item, itemKeys_written rest]

theorem fieldKeys_written : (fields : List (String × Json)) →
    fieldKeys (writtenFields fields) = fieldKeys fields
  | [] => rfl
  | (_, value) :: rest => by
      rw [writtenFields, fieldKeys, fieldKeys, keys_written value, fieldKeys_written rest]

end

end Copies

/-- The credential is in no text and in no key. -/
structure Withholds (secret : String) (value : Json) : Prop where
  texts : ∀ text, .str text ∈ value.leaves → ¬ Includes text secret
  keys : ∀ key ∈ value.keys, ¬ Includes key secret

namespace Withholds

variable {secret : String} {value : Json}

theorem redactWalk (replaceable : Replaceable secret) (value : Json) :
    (redactWalk secret value).Withholds secret :=
  ⟨(redactWalk_complete replaceable value).1, (redactWalk_complete replaceable value).2⟩

theorem written (withholds : value.Withholds secret) : value.written.Withholds secret :=
  ⟨fun text mem => withholds.texts text (texts_written value text mem),
    fun key mem => withholds.keys key (keys_written value ▸ mem)⟩

theorem cloneSanitized (withholds : value.Withholds secret) :
    value.cloneSanitized.Withholds secret :=
  ⟨fun text mem => withholds.texts text (leaves_cloneSanitized value mem),
    fun key mem => withholds.keys key (keys_cloneSanitized value mem)⟩

end Withholds

end Json

theorem redactProviderValue_cases {limits : JsonLimits} {value : Json} {secret : String}
    (nonempty : secret ≠ "") :
    (value.assertLimits limits = .ok () ∧
        redactProviderValue limits value secret = .ok (redactWalk secret value.cloneSanitized)) ∨
      (value.assertLimits limits ≠ .ok () ∧
        ∃ limit, redactProviderValue limits value secret = .error limit) := by
  rw [redactProviderValue, sanitizeValue]
  cases value.assertLimits limits with
  | ok _ => exact .inl ⟨rfl, congrArg Except.ok (if_neg nonempty)⟩
  | error limit => exact .inr ⟨by simp, limit, rfl⟩

namespace EventRelay

variable {relay : EventRelay}

/-- The space around the data is space in JSON too. -/
def PlainlySpaced (event : Event) : Prop :=
  ∀ text, event.data.text = some text → jsonParse (jsTrim text) = jsonParse text

/-- The credential is nowhere in the chunk but where the gateway itself put the model's name. -/
structure Withheld (relay : EventRelay) (chunk : Record) : Prop where
  texts : ∀ text, .str text ∈ (Json.obj chunk).leaves → Includes text relay.secret →
    text = relay.options.model
  keys : ∀ key ∈ (Json.obj chunk).keys, Includes key relay.secret → key = "model"

/-- The events that the parser hands over before the body ends or is refused. -/
def readEvents (maxLineBytes : Nat) (p : Parser) : List Units → List Event
  | [] =>
      match (flush maxLineBytes p).1 with
      | .error _ => []
      | .ok events => events
  | chunk :: rest =>
      match push maxLineBytes p chunk with
      | (.error _, _) => []
      | (.ok events, p) => events ++ readEvents maxLineBytes p rest

theorem readData_json {text : String} {value : Json} (read : relay.readData text = .json value) :
    ∃ parsed, jsonParse (jsTrim text) = some parsed ∧
      parsed.assertLimits relay.limits = .ok () ∧ value = parsed.cloneSanitized := by
  simp only [readData] at read
  split at read
  · cases read
  · split at read
    · cases read
    · split at read
      · next result parsed =>
          cases read
          obtain ⟨-, value, found, within, copied⟩ := (safeJsonParse_ok_iff _ _ _ _).mp parsed
          exact ⟨value, found, (Json.assertLimits_ok_iff _ value).mpr
            ((assertJsonLimits_ok_iff _ _ value).mp within), copied⟩
      · cases read

/-- What the translator reads has lost the credential. -/
theorem readData_withholds (replaceable : Replaceable relay.secret) {text : String}
    (plain : jsonParse (jsTrim text) = jsonParse text) {value : Json}
    (read : relay.readData (relay.redactData text) = .json value) :
    value.Withholds relay.secret := by
  obtain ⟨parsed, found, within, rfl⟩ := readData_json read
  refine Json.Withholds.cloneSanitized ?_
  rw [redactData] at found
  cases first : jsonParse text with
  | none =>
      rw [first] at found
      dsimp only at found
      rw [plain, first] at found
      cases found
  | some original =>
      rw [first] at found
      dsimp only at found
      rcases redactProviderValue_cases replaceable.nonempty with ⟨-, redacted⟩ | ⟨refused, limit, same⟩
      · rw [redacted] at found
        dsimp only at found
        have carried : (redactWalk relay.secret original.cloneSanitized).Carried :=
          Json.carried_rebuild (fun value carried => by cases value <;> exact carried) _
            (carried_clone original (carried_of_parse first))
        rw [jsTrim_jsonStringify, jsonParse_jsonStringify carried] at found
        cases found
        exact (Json.Withholds.redactWalk replaceable _).written
      · -- Data that exceeds a limit stays as it is, and the translator refuses it for the same limit.
        rw [same] at found
        dsimp only at found
        rw [plain, first] at found
        cases found
        exact absurd within refused

/-- Only the name of the model is put into a chunk. -/
theorem handle_withheld {s : OpenaiStream} {data : SseData}
    (withholds : ∀ value, data = .json value → value.Withholds relay.secret) :
    ∀ chunk ∈ (OpenaiStream.handle relay.options s ⟨none, data⟩).1, relay.Withheld chunk := by
  have renamed {payload : Record} (here : (Json.obj payload).Withholds relay.secret) :
      relay.Withheld (payload.set "model" (.str relay.options.model)) := by
    refine ⟨fun text mem included => ?_, fun key mem included => ?_⟩
    · rw [Json.leaves] at mem
      obtain ⟨entry, set, within⟩ := Json.mem_fieldLeaves.mp mem
      rcases mem_set set with old | rfl
      · exact absurd included (here.texts text (Json.mem_fieldLeaves.mpr ⟨entry, old, within⟩))
      · exact Json.str.inj (List.mem_singleton.mp within)
    · rw [Json.keys] at mem
      obtain ⟨entry, set, within⟩ := Json.mem_fieldKeys.mp mem
      rcases mem_set set with old | rfl
      · exact absurd included (here.keys key (Json.mem_fieldKeys.mpr ⟨entry, old, within⟩))
      · exact within.resolve_right List.not_mem_nil
  intro chunk mem
  cases data with
  | done => cases mem
  | unparsed => cases mem
  | json value =>
      cases value with
      | obj payload =>
          simp only [OpenaiStream.handle, plainObject] at mem
          split at mem
          · cases mem
          · rw [List.mem_singleton.mp mem]
            exact renamed (withholds _ rfl)
      | _ => cases mem

theorem dataOf_withholds (replaceable : Replaceable relay.secret) {event : Event}
    (plain : PlainlySpaced event) {value : Json} (read : relay.dataOf event = .json value) :
    value.Withholds relay.secret := by
  rw [dataOf] at read
  cases decoded : event.data.text with
  | none =>
      rw [decoded] at read
      cases read
  | some text =>
      rw [decoded, Option.elim_some] at read
      exact readData_withholds replaceable (plain text decoded) read

theorem handleEvents_withheld (replaceable : Replaceable relay.secret) {events : List Event}
    (plain : ∀ event ∈ events, PlainlySpaced event) (s : OpenaiStream) :
    ∀ chunk ∈ (relay.handleEvents s events).1, relay.Withheld chunk := by
  induction events generalizing s with
  | nil => exact List.forall_mem_nil _
  | cons event events ih =>
      have here := plain event List.mem_cons_self
      have rest := fun other mem => plain other (List.mem_cons_of_mem event mem)
      have first : ∀ chunk ∈ (OpenaiStream.handle relay.options s ⟨none, relay.dataOf event⟩).1,
          relay.Withheld chunk :=
        handle_withheld fun _ read => dataOf_withholds replaceable here read
      rw [handleEvents_cons]
      by_cases ends : endsStream event = true
      · rw [if_pos ends]
        exact first
      · rw [if_neg ends]
        have later := ih rest
          (OpenaiStream.handle relay.options s ⟨none, relay.dataOf event⟩).2
        exact List.forall_mem_append.mpr ⟨first, later⟩

/-- Data that the gateway does not take for JSON keeps the credential, and the translator parses it
once it is trimmed. -/
example : (sampleRelay.readData (sampleRelay.redactData
    ("\u00a0" ++ jsonStringify (.obj [("key", .str "sk-1")])))
      matches .json (.obj [("key", .str "sk-1")])) = true := by decide +kernel

theorem readEvents_of_read {maxLineBytes : Nat} {p : Parser} {body : List Units}
    {events : List Event} (read : parseChunks maxLineBytes p body = .ok events) :
    readEvents maxLineBytes p body = events := by
  induction body generalizing p events with
  | nil =>
      rw [parseChunks] at read
      rw [readEvents, read]
  | cons chunk rest ih =>
      rw [parseChunks] at read
      rw [readEvents]
      cases pushed : push maxLineBytes p chunk with
      | mk outcome p' =>
          rw [pushed] at read
          cases outcome with
          | error error => cases read
          | ok first =>
              dsimp only at read ⊢
              cases later : parseChunks maxLineBytes p' rest with
              | error error =>
                  rw [later] at read
                  cases read
              | ok events =>
                  rw [later] at read
                  cases read
                  rw [ih later]

theorem plainlySpaced_json (value : Json) : PlainlySpaced (dataEvent (jsonStringify value)) := by
  intro text same
  rw [dataEvent, Units.text_ofString] at same
  cases same
  rw [jsTrim_jsonStringify]

/-- An error that repeats the credential, in two pieces. -/
def echoed : Record := [("error", .str "invalid key sk-1")]

def echoBody : List Units :=
  let text := wire [textMessage (jsonStringify (.obj echoed))]
  [text.take 30, text.drop 30]

end EventRelay

end Gateway
