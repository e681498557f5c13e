import Gateway.Http.Redact
import Gateway.Util.Spelling

/-!
The error a failed provider call is reported with.

The credential is taken out of the raw text of the body, and the message is read
of the text as JSON. An escape sequence in the message is therefore a spelling that
the removal does not see, and what it spells is reported.
-/

namespace Gateway

def normalizeUpstreamStatus (status : Nat) : Nat :=
  if status = 401 ∨ status = 403 then 502
  else if status < 400 then 502
  else if 599 < status then 502
  else status

/-- The first of two texts that is not empty. -/
def orText (first second : String) : String := if first = "" then second else first

/-- `error`, `error.message`, `message` or the message of the first item, whichever is text. -/
def upstreamMessage (parsed : Json) : String :=
  let err := (asRecord (some parsed)).field "error"
  let first := asRecord (asArray (some parsed)).head?
  orText (orText (orText (asString err) (asString ((asRecord err).field "message")))
      (asString ((asRecord (some parsed)).field "message")))
    (asString ((asRecord (first.field "error")).field "message"))

/-- What is said of a body without a message. -/
def statusText (status : Nat) : String := "upstream returned HTTP " ++ toString status

/-- The part of a body that is read. -/
def trimmedBody (bodyText : String) : String := String.ofList (jsSlice 8192 bodyText.toList)

/-- The message of an error: cut, and redacted as that of every `GatewayError` is. -/
def errorMessage (message : String) : String :=
  redact (String.ofList (jsTake 1000 message.toList))

def fromUpstream (status : Nat) (bodyText : String) : GatewayError :=
  let message := ((jsonParse (trimmedBody bodyText)).map upstreamMessage).getD ""
  ⟨.upstreamError, normalizeUpstreamStatus status,
    errorMessage (if message = "" then statusText status else message),
    kindForStatus (normalizeUpstreamStatus status), none, isRetryableStatus status, some status⟩

section Spelled

/-- The literal that the message of a body is read of; empty where there is none. -/
def messageLiteral (bodyText : String) : String :=
  ((spelledParse (trimmedBody bodyText)).map upstreamMessage).getD ""

/-- The spellings that make up the first units of a string. -/
def firstSpelled (n : Nat) (s : List Spelled) : List Spelled :=
  s.take (jsTake n (s.map Spelled.char)).length

/-- What the patterns leave of a spelled string. -/
def redactSpelled (s : List Spelled) : List Spelled :=
  PATTERNS.foldl (fun text shape =>
    (shape.comap Spelled.char).replace (jsWidth ∘ Spelled.char) (REDACTION.toList.map Spelled.plain)
      text) s

/-- In what the patterns leave of the literal's beginning, the credential is spelled with the help
of an escape sequence. -/
def HidesInEscapes (literal secret : String) : Prop :=
  ∃ run, run <:+: redactSpelled (firstSpelled 1000 (spelling literal)) ∧
    run.map Spelled.char = secret.toList ∧ ∃ s ∈ run, s.IsEscape

/-- The credential has no way into the message. -/
def Concealed (status : Nat) (bodyText secret : String) : Prop :=
  if messageLiteral bodyText = "" then ¬ Includes (errorMessage (statusText status)) secret
  else ¬ HidesInEscapes (messageLiteral bodyText) secret

end Spelled

section Messages

variable {f : String → String}

theorem asString_mapStrings (nothing : f "" = "") (value : Option Json) :
    asString (value.map (Json.mapStrings f)) = f (asString value) := by
  cases value with
  | none => exact nothing.symm
  | some value =>
      cases value with
      | str text => rfl
      | _ => exact nothing.symm

theorem asRecord_mapStrings (value : Option Json) :
    asRecord (value.map (Json.mapStrings f)) = Json.mapStringsFields f (asRecord value) := by
  cases value with
  | none => rfl
  | some value => cases value <;> rfl

theorem asArray_mapStrings (value : Option Json) :
    asArray (value.map (Json.mapStrings f)) = (asArray value).map (Json.mapStrings f) := by
  cases value with
  | none => rfl
  | some value =>
      cases value with
      | arr items => exact Json.mapStringsItems_eq items
      | _ => rfl

/-- The message of a value whose strings are rewritten. -/
theorem upstreamMessage_mapStrings (empty : ∀ text, f text = "" ↔ text = "") (parsed : Json) :
    upstreamMessage (parsed.mapStrings f) = f (upstreamMessage parsed) := by
  have nothing : f "" = "" := (empty "").mpr rfl
  have whole := asRecord_mapStrings (f := f) (some parsed)
  have items := asArray_mapStrings (f := f) (some parsed)
  rw [Option.map_some] at whole items
  have either (a b : String) : orText (f a) (f b) = f (orText a b) := by
    simp only [orText, empty]
    split <;> rfl
  simp only [upstreamMessage, whole, items, List.head?_map, Json.field_mapStrings,
    asRecord_mapStrings, asString_mapStrings nothing, either]

theorem eq_str_of_asString {value : Option Json} (text : asString value ≠ "") :
    value = some (.str (asString value)) := by
  cases value with
  | none => exact absurd rfl text
  | some value =>
      cases value with
      | str text => rfl
      | _ => exact absurd rfl text

theorem leaves_of_field {value inner : Json} {key : String}
    (found : (asRecord (some value)).field key = some inner) : inner.leaves ⊆ value.leaves := by
  cases value with
  | obj fields =>
      intro leaf mem
      exact Json.mem_fieldLeaves.mpr ⟨_, Record.mem_of_field found, mem⟩
  | _ => cases found

theorem field_of_asRecord {value : Option Json} {key : String} {inner : Json}
    (found : (asRecord value).field key = some inner) :
    ∃ outer, value = some outer ∧ inner.leaves ⊆ outer.leaves := by
  cases value with
  | none => cases found
  | some outer => exact ⟨outer, rfl, leaves_of_field found⟩

theorem mem_leaves_of_field {value : Option Json} {key : String}
    (text : asString ((asRecord value).field key) ≠ "") :
    ∃ outer, value = some outer ∧ .str (asString ((asRecord value).field key)) ∈ outer.leaves := by
  obtain ⟨outer, here, within⟩ := field_of_asRecord (eq_str_of_asString text)
  exact ⟨outer, here, within (List.mem_singleton_self _)⟩

theorem orText_cases {first second : String} (text : orText first second ≠ "") :
    (first ≠ "" ∧ orText first second = first) ∨ (second ≠ "" ∧ orText first second = second) := by
  rw [orText] at text ⊢
  by_cases nothing : first = ""
  · rw [if_pos nothing] at text ⊢
    exact .inr ⟨text, rfl⟩
  · rw [if_neg nothing]
    exact .inl ⟨nothing, rfl⟩

/-- The message is one of the strings of the body. -/
theorem upstreamMessage_mem {parsed : Json} (text : upstreamMessage parsed ≠ "") :
    .str (upstreamMessage parsed) ∈ parsed.leaves := by
  rw [upstreamMessage] at text ⊢
  rcases orText_cases text with ⟨text, same⟩ | ⟨text, same⟩
  · rw [same]
    rcases orText_cases text with ⟨text, same⟩ | ⟨text, same⟩
    · rw [same]
      rcases orText_cases text with ⟨text, same⟩ | ⟨text, same⟩
      · rw [same]
        exact leaves_of_field (eq_str_of_asString text) (List.mem_singleton_self _)
      · rw [same]
        obtain ⟨err, found, mem⟩ := mem_leaves_of_field text
        exact leaves_of_field found mem
    · rw [same]
      obtain ⟨outer, here, mem⟩ := mem_leaves_of_field text
      cases here
      exact mem
  · rw [same]
    obtain ⟨nested, found, mem⟩ := mem_leaves_of_field text
    obtain ⟨item, first, within⟩ := field_of_asRecord found
    cases parsed with
    | arr items =>
        cases items with
        | nil => cases first
        | cons head rest =>
            cases first
            exact List.mem_append_left _ (within mem)
    | _ => cases first

end Messages

section Redacted

variable {secret : String}

theorem map_firstSpelled (n : Nat) (s : List Spelled) :
    (firstSpelled n s).map Spelled.char = jsTake n (s.map Spelled.char) := by
  rw [firstSpelled, List.map_take]
  exact (List.prefix_iff_eq_take.mp (jsTake_begins n _)).symm

theorem map_redactSpelled (s : List Spelled) :
    (redactSpelled s).map Spelled.char =
      PATTERNS.foldl (fun text shape => shape.replace jsWidth REDACTION.toList text)
        (s.map Spelled.char) := by
  have word : (REDACTION.toList.map Spelled.plain).map Spelled.char = REDACTION.toList := by
    rw [List.map_map]
    exact List.map_id _
  rw [redactSpelled]
  induction PATTERNS generalizing s with
  | nil => rfl
  | cons shape shapes ih =>
      rw [List.foldl_cons, List.foldl_cons, ih, Shape.replace, Shape.map_replaceFrom, word]
      rfl

theorem jsLength_ofList (cs : List Char) : jsLength (String.ofList cs) = (cs.map jsWidth).sum := by
  rw [jsLength, String.toList_ofList]
  rfl

/-- A short text is not cut before it is redacted. -/
theorem toList_redact {cs : List Char} (short : (cs.map jsWidth).sum ≤ MAX_REDACT_INPUT) :
    (redact (String.ofList cs)).toList =
      PATTERNS.foldl (fun text shape => shape.replace jsWidth REDACTION.toList text) cs := by
  rw [redact]
  split
  · next nothing =>
      have empty : cs = [] := by
        rw [← String.toList_inj, String.toList_ofList] at nothing
        exact nothing
      rw [empty]
      rfl
  · rw [if_neg (by rw [jsLength_ofList]; omega), String.toList_ofList, String.toList_ofList]

/-- Spellings that the patterns leave side by side stood side by side. -/
theorem infix_of_infix_redactSpelled {run : List Spelled} {s : List Spelled}
    (replaceable : Replaceable secret) (reads : run.map Spelled.char = secret.toList)
    (left : run <:+: redactSpelled s) : run <:+: s := by
  have foreign (c : Char) (other : c ∉ secret.toList) : Spelled.plain c ∉ run := fun mem =>
    other (reads ▸ List.mem_map_of_mem mem)
  have inner : ¬ run <:+: "redacted".toList.map Spelled.plain := by
    intro inside
    have chars := inside.map Spelled.char
    rw [reads, List.map_map] at chars
    exact replaceable.word (by rwa [show (Spelled.char ∘ Spelled.plain) = id from rfl,
      List.map_id] at chars)
  by_contra absent
  revert left
  rw [redactSpelled]
  induction PATTERNS generalizing s with
  | nil => exact absent
  | cons shape shapes ih =>
      refine ih ?_
      exact Shape.not_infix_replaceFrom (foreign '[' replaceable.opening)
        (foreign ']' replaceable.closing) inner 0 [] absent

/-- The message that is read is what its literal spells. -/
theorem upstreamMessage_read (bodyText : String) :
    ((jsonParse (trimmedBody bodyText)).map upstreamMessage).getD "" =
      unescape (messageLiteral bodyText) := by
  rw [jsonParse_eq_spelled, messageLiteral, Option.map_map]
  cases spelledParse (trimmedBody bodyText) with
  | none => rfl
  | some parsed => exact upstreamMessage_mapStrings (fun _ => unescape_eq_empty) parsed

theorem message_fromUpstream (status : Nat) (bodyText : String) :
    (fromUpstream status bodyText).message = errorMessage (if messageLiteral bodyText = "" then
      statusText status else unescape (messageLiteral bodyText)) := by
  simp only [fromUpstream, upstreamMessage_read, unescape_eq_empty]

theorem toList_errorMessage_unescape (literal : String) :
    (errorMessage (unescape literal)).toList =
      (redactSpelled (firstSpelled 1000 (spelling literal))).map Spelled.char := by
  have short := width_jsTake 1000 (unescape literal).toList
  have limit : 1000 ≤ MAX_REDACT_INPUT := by decide
  rw [errorMessage, toList_redact (short.trans limit), map_redactSpelled, map_firstSpelled,
    unescape, String.toList_ofList]

theorem exists_run_of_infix_map {α β : Type*} {f : α → β} {xs : List α} {ys : List β}
    (within : ys <:+: xs.map f) : ∃ run, run <:+: xs ∧ run.map f = ys := by
  obtain ⟨before, after, whole⟩ := within
  obtain ⟨front, behind, rfl, front_eq, -⟩ := List.map_eq_append_iff.mp whole.symm
  obtain ⟨first, run, rfl, -, reads⟩ := List.map_eq_append_iff.mp front_eq
  exact ⟨run, ⟨first, behind, rfl⟩, reads⟩

/-- A literal of a sanitized body does not hold the credential as it is. -/
theorem not_infix_literal (replaceable : Replaceable secret) (body : String) {literal : String}
    (within : InText (trimmedBody (sanitizeProviderError body secret)).toList literal) :
    ¬ secret.toList <:+: literal.toList := by
  obtain ⟨before, after, whole⟩ := within
  have free := freeBefore_sanitizeProviderError replaceable body
  have trimmed : FreeBefore secret.toList '"'
      (trimmedBody (sanitizeProviderError body secret)).toList := by
    rw [trimmedBody, String.toList_ofList]
    obtain ⟨part, begins, kept | kept⟩ :=
      jsSlice_cases 8192 (sanitizeProviderError body secret).toList
    · rw [kept]
      exact free.of_begins begins
    · rw [kept]
      exact (free.of_begins begins).append (by decide)
  intro occurs
  exact trimmed (before ++ literal.toList) after (by rw [whole, List.append_assoc])
    (occurs.trans (List.suffix_append before _).isInfix)

/-- The message that is read of a body holds the credential only where escapes spell it. -/
theorem includes_errorMessage_iff (replaceable : Replaceable secret) {literal : String}
    (absent : ¬ secret.toList <:+: literal.toList) :
    Includes (errorMessage (unescape literal)) secret ↔ HidesInEscapes literal secret := by
  rw [Includes, toList_errorMessage_unescape]
  constructor
  · intro within
    obtain ⟨run, left, reads⟩ := exists_run_of_infix_map within
    refine ⟨run, left, reads, ?_⟩
    by_contra plain
    have raw : run.flatMap Spelled.raw = secret.toList := by
      rw [← reads, List.map_eq_flatMap]
      refine List.flatMap_congr fun s mem => ?_
      by_contra escape
      exact plain ⟨s, mem, escape⟩
    have stood := infix_of_infix_redactSpelled replaceable reads left
    have first : firstSpelled 1000 (spelling literal) <:+: spelling literal :=
      (List.take_prefix _ _).isInfix
    obtain ⟨before, after, whole⟩ := stood.trans first
    refine absent ⟨before.flatMap Spelled.raw, after.flatMap Spelled.raw, ?_⟩
    rw [← raw, ← raw_spelling literal, ← whole, List.flatMap_append, List.flatMap_append]
  · rintro ⟨run, left, reads, -⟩
    rw [← reads]
    exact left.map Spelled.char

end Redacted

/-- A reported error leaves the credential out exactly when no escape sequences of its message
spell it, or, where the body has no message, when the text about the status does not hold it. -/
theorem reported_error_conceals_iff (status : Nat) (body secret : String)
    (replaceable : Replaceable secret) :
    ¬ Includes (fromUpstream status (sanitizeProviderError body secret)).message secret ↔
      Concealed status (sanitizeProviderError body secret) secret := by
  rw [message_fromUpstream, Concealed]
  by_cases nothing : messageLiteral (sanitizeProviderError body secret) = ""
  · rw [if_pos nothing, if_pos nothing]
  · rw [if_neg nothing, if_neg nothing]
    refine not_congr (includes_errorMessage_iff replaceable ?_)
    refine not_infix_literal replaceable body ?_
    cases parsed : spelledParse (trimmedBody (sanitizeProviderError body secret)) with
    | none =>
        have literal : messageLiteral (sanitizeProviderError body secret) = "" := by
          rw [messageLiteral, parsed, Option.map_none, Option.getD_none]
        exact absurd literal nothing
    | some value =>
        have literal :
            messageLiteral (sanitizeProviderError body secret) = upstreamMessage value := by
          rw [messageLiteral, parsed, Option.map_some, Option.getD_some]
        rw [literal] at nothing ⊢
        exact inText_of_spelledParse parsed (upstreamMessage_mem nothing)

/-- A message with an escape sequence that is no part of the credential. -/
theorem reported_error_conceals_tab :
    ¬ Includes (fromUpstream 401
      (sanitizeProviderError "\x7b\"error\":\"bad\\tkey-1\"\x7d" "key-1")).message "key-1" := by
  refine (reported_error_conceals_iff 401 "\x7b\"error\":\"bad\\tkey-1\"\x7d" "key-1"
    ⟨by decide, by decide, by decide⟩).mpr ?_
  have literal : messageLiteral
      (sanitizeProviderError "\x7b\"error\":\"bad\\tkey-1\"\x7d" "key-1") =
        "bad\\t[redacted]" := by decide +kernel
  rw [Concealed, literal, if_neg (by decide)]
  rintro ⟨run, left, reads, -⟩
  have within := left.map Spelled.char
  rw [reads] at within
  exact absurd within (by decide +kernel)

/-- An escape sequence in the answer spells the credential that is taken out of the text. -/
theorem escaped_credential_reported :
    ¬ ∀ (status : Nat) (body secret : String), Replaceable secret →
      ¬ Includes (fromUpstream status (sanitizeProviderError body secret)).message secret := by
  intro conceals
  exact conceals 401 "\x7b\"error\":\"bad key\\u002d1\"\x7d" "key-1"
    ⟨by decide, by decide, by decide⟩ (by decide +kernel)

end Gateway
