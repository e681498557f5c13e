import Gateway.Lib.Pattern
import Gateway.Util.Leaves

/-!
Secrets taken out of what a provider returns.

The exact credential is split out of a text, or out of every string and every key of
a sanitized value, and an error text then loses everything in the shape of a secret.
The word that is put in the place of either is in brackets, so it cannot complete an
occurrence with what stands around it.
-/

namespace Gateway

def REDACTION : String := "[redacted]"

/-- `text.split(secret).join(REDACTION)` -/
def splitJoin (secret text : String) : String :=
  String.ofList (Splitting.replaceAll secret.toList REDACTION.toList text.toList)

/-- `text.includes(secret)` -/
def Includes (text secret : String) : Prop := secret.toList <:+: text.toList

instance (text secret : String) : Decidable (Includes text secret) :=
  inferInstanceAs (Decidable (secret.toList <:+: text.toList))

/-- A credential that the word in its place has nothing in common with. -/
structure Replaceable (secret : String) : Prop where
  opening : '[' ∉ secret.toList
  closing : ']' ∉ secret.toList
  word : ¬ Includes "redacted" secret

/-- `sanitizeParsed` of any value. -/
def sanitizeValue (limits : JsonLimits) (value : Json) : Except Json.Limit Json :=
  (value.assertLimits limits).map fun _ => value.cloneSanitized

def redactLeaf (secret : String) : Json → Json
  | .str text => .str (splitJoin secret text)
  | value => value

/-- The inner `walk`; the fields of an object are collected by `Object.fromEntries`. -/
def redactWalk (secret : String) (value : Json) : Json :=
  value.rebuild (splitJoin secret) (redactLeaf secret)

def redactProviderValue (limits : JsonLimits) (value : Json) (secret : String) :
    Except Json.Limit Json :=
  (sanitizeValue limits value).map fun clean =>
    if secret = "" then clean else redactWalk secret clean

section Shapes

def MAX_REDACT_INPUT : Nat := 128 * 1024

/-- A fixed text, in the case it is given in. -/
def literal (text : String) : Pattern Char :=
  text.toList.foldr (fun c rest => .seq (.one (· == c)) rest) .done

/-- A fixed text in lower case, matched in either case. -/
def anyCase (text : String) : Pattern Char :=
  text.toList.foldr (fun c rest => .seq (.one fun d => d.toLower == c) rest) .done

def oneOf (chars : String) : Pattern Char := .one chars.toList.contains

def alternatives (texts : List (Pattern Char)) : Pattern Char :=
  texts.foldr .either (.one fun _ => false)

/-- `\s*` -/
def spaces : Pattern Char := .run isJsSpace 0 none

/-- A letter, a digit, or one of the characters given. -/
def alnumOr (chars : String) (c : Char) : Bool := c.isAlphanum || chars.toList.contains c

def followedBy (head : Pattern Char) (p : Char → Bool) (least most : Nat) : Pattern Char :=
  .seq head (.run p least (some most))

/-- A secret that is told by its own beginning. -/
def keyShape (gone : Pattern Char) : Shape Char := ⟨.done, gone, .done⟩

/-- A header or a field with a value; the name is kept. -/
def namedShape (name : Pattern Char) : Pattern Char :=
  .seq name (.seq spaces (.seq (oneOf ":=") spaces))

def headerValue : Pattern Char := .run (alnumOr "._~+/=-") 8 (some 400)

def PATTERNS : List (Shape Char) :=
  [keyShape (followedBy (literal "sk-ant-") (alnumOr "_-") 6 200),
    keyShape (followedBy (literal "sk-proj-") (alnumOr "_-") 6 200),
    keyShape (followedBy (literal "sk-") (alnumOr "_-") 12 200),
    keyShape (followedBy (literal "AIza") (alnumOr "_-") 20 80),
    keyShape (followedBy (literal "ya29.") (alnumOr "._-") 10 400),
    keyShape (followedBy (literal "AKIA") (fun c => c.isDigit || c.isUpper) 12 20),
    keyShape (followedBy (literal "ASIA") (fun c => c.isDigit || c.isUpper) 12 20),
    keyShape (.seq (literal "gh") (.seq (oneOf "pousr")
      (followedBy (literal "_") (alnumOr "") 20 255))),
    keyShape (.seq (literal "xox") (.seq (oneOf "baprs")
      (followedBy (literal "-") (alnumOr "-") 10 255))),
    keyShape (.seq (followedBy (literal "eyJ") (alnumOr "_-") 10 4000)
      (.seq (followedBy (literal ".") (alnumOr "_-") 10 4000)
        (followedBy (literal ".") (alnumOr "_-") 5 4000))),
    ⟨namedShape (anyCase "authorization"),
      .seq (.either (.seq (anyCase "bearer") (.run isJsSpace 1 none)) .done) headerValue, .done⟩,
    ⟨namedShape (anyCase "x-api-key"), headerValue, .done⟩,
    ⟨namedShape (anyCase "x-goog-api-key"), headerValue, .done⟩,
    ⟨namedShape (anyCase "mj-api-secret"), headerValue, .done⟩,
    ⟨.seq (oneOf "?&")
        (.seq (alternatives ([ "key", "api_key", "access_token", "token"].map anyCase))
      (literal "=")), headerValue, .done⟩,
    ⟨.seq (literal "\"") (.seq (alternatives
        [.seq (anyCase "api") (.seq (.either (literal "_") .done) (anyCase "key")),
          anyCase "apikey",
          .seq (anyCase "access") (.seq (.either (literal "_") .done) (anyCase "token")),
          anyCase "secret", anyCase "password", anyCase "authorization"])
        (.seq (literal "\"") (.seq spaces (.seq (literal ":") (.seq spaces (literal "\"")))))),
      .run (· != '"') 4 (some 400), literal "\""⟩]

def redact (input : String) : String :=
  if input = "" then input
  else
    let text := if MAX_REDACT_INPUT < jsLength input then
      jsSlice MAX_REDACT_INPUT input.toList ++ "...[truncated]".toList else input.toList
    String.ofList
      (PATTERNS.foldl (fun text shape => shape.replace jsWidth REDACTION.toList text) text)

def sanitizeProviderError (input secret : String) : String :=
  redact (if secret = "" then input else splitJoin secret input)

end Shapes

section Strings

variable {secret : String}

theorem Replaceable.nonempty (replaceable : Replaceable secret) : secret ≠ "" := by
  rintro rfl
  exact replaceable.word List.nil_infix

/-- The credential is gone, and no new one is made across the seams. -/
theorem not_includes_splitJoin (replaceable : Replaceable secret) (text : String) :
    ¬ Includes (splitJoin secret text) secret := by
  rw [Includes, splitJoin, String.toList_ofList]
  exact Splitting.not_infix_replaceAll replaceable.opening replaceable.closing replaceable.word
    text.toList

/-- A text without the credential is left as it is. -/
theorem splitJoin_of_not_includes {text : String} (absent : ¬ Includes text secret) :
    splitJoin secret text = text := by
  rw [splitJoin, Splitting.replaceAll_of_not_infix _ absent, String.ofList_toList]

/-- Replacing the shapes of secrets makes no credential before a quotation mark. -/
theorem freeBefore_patterns (replaceable : Replaceable secret) (shapes : List (Shape Char))
    {text : List Char} (free : FreeBefore secret.toList '"' text) :
    FreeBefore secret.toList '"'
      (shapes.foldl (fun text shape => shape.replace jsWidth REDACTION.toList text) text) := by
  induction shapes generalizing text with
  | nil => exact free
  | cons shape shapes ih =>
      refine ih ?_
      exact Shape.freeBefore_replaceFrom replaceable.opening replaceable.closing replaceable.word
        (by decide) 0 [] free

/-- In what an error text is redacted to, the credential stands before no quotation mark. -/
theorem freeBefore_sanitizeProviderError (replaceable : Replaceable secret) (input : String) :
    FreeBefore secret.toList '"' (sanitizeProviderError input secret).toList := by
  have gone := not_includes_splitJoin replaceable input
  rw [sanitizeProviderError, if_neg replaceable.nonempty, redact]
  split
  · exact freeBefore_of_absent gone
  · dsimp only
    rw [String.toList_ofList]
    refine freeBefore_patterns replaceable _ ?_
    split
    · obtain ⟨part, begins, kept | kept⟩ :=
        jsSlice_cases MAX_REDACT_INPUT (splitJoin secret input).toList
      · rw [kept]
        exact ((freeBefore_of_absent gone).of_begins begins).append (by decide)
      · rw [kept]
        exact (((freeBefore_of_absent gone).of_begins begins).append (by decide)).append
          (by decide)
    · exact freeBefore_of_absent gone

end Strings

section Values

variable {secret : String}

theorem keys_redactLeaf (value : Json) (plain : value.keys = []) :
    (redactLeaf secret value).keys = [] := by
  cases value with
  | str text => rfl
  | _ => exact plain

/-- A string that the walk leaves behind has been split and joined. -/
theorem mem_leaves_redactLeaf {old : Json} {text : String} (atom : old.IsLeaf)
    (made : .str text ∈ (redactLeaf secret old).leaves) :
    ∃ before, text = splitJoin secret before := by
  cases old with
  | str before => exact ⟨before, Json.str.inj (List.mem_singleton.mp made)⟩
  | null => cases List.mem_singleton.mp made
  | bool b => cases List.mem_singleton.mp made
  | num n => cases List.mem_singleton.mp made
  | arr items => exact atom.elim
  | obj fields => exact atom.elim

/-- No string and no key of a walked value holds the credential. -/
theorem redactWalk_complete (replaceable : Replaceable secret) (value : Json) :
    (∀ text, .str text ∈ (redactWalk secret value).leaves → ¬ Includes text secret) ∧
      ∀ key ∈ (redactWalk secret value).keys, ¬ Includes key secret := by
  constructor
  · intro text mem
    obtain ⟨old, within, made⟩ := Json.leaves_rebuild value _ mem
    obtain ⟨before, rfl⟩ := mem_leaves_redactLeaf (Json.isLeaf_of_mem value old within) made
    exact not_includes_splitJoin replaceable before
  · intro key mem
    obtain ⟨old, -, rfl⟩ := Json.keys_rebuild keys_redactLeaf value key mem
    exact not_includes_splitJoin replaceable old

/-- A value that nowhere holds the credential is walked without a change. -/
theorem redactWalk_harmless {value : Json} (once : value.KeysOnce)
    (leaves : ∀ text, .str text ∈ value.leaves → ¬ Includes text secret)
    (keys : ∀ key ∈ value.keys, ¬ Includes key secret) : redactWalk secret value = value := by
  refine Json.rebuild_eq_self value once (fun key mem => ?_) fun leaf mem => ?_
  · exact splitJoin_of_not_includes (keys key mem)
  · cases leaf with
    | str text => rw [redactLeaf, splitJoin_of_not_includes (leaves text mem)]
    | _ => rfl

end Values

/-- The redaction of a value within the limits is complete, and changes nothing but the forbidden
keys of a value that does not hold the credential. -/
theorem redactProviderValue_complete_harmless (limits : JsonLimits) (value : Json) (secret : String)
    (within : value.assertLimits limits = .ok ()) (once : value.KeysOnce)
    (replaceable : Replaceable secret) :
    ∃ result, redactProviderValue limits value secret = .ok result ∧
      (∀ text, .str text ∈ result.leaves → ¬ Includes text secret) ∧
      (∀ key ∈ result.keys, ¬ Includes key secret) ∧
      ((∀ text, .str text ∈ value.leaves → ¬ Includes text secret) →
        (∀ key ∈ value.keys, ¬ Includes key secret) → result = value.cloneSanitized) := by
  obtain ⟨leaves, keys⟩ := redactWalk_complete replaceable value.cloneSanitized
  refine ⟨redactWalk secret value.cloneSanitized, ?_, leaves, keys, fun texts names => ?_⟩
  · rw [redactProviderValue, sanitizeValue, within]
    exact congrArg Except.ok (if_neg replaceable.nonempty)
  · refine redactWalk_harmless (Json.keysOnce_cloneSanitized value once) (fun text mem => ?_)
      fun key mem => ?_
    · exact texts text (Json.leaves_cloneSanitized value mem)
    · exact names key (Json.keys_cloneSanitized value mem)

/-- An answer that repeats the credential as a key and within a string. -/
theorem redactProviderValue_complete_harmless_echo :
    ∃ result, redactProviderValue ⟨64, 100⟩
        (.obj [("sk-1", .arr [.str "invalid key sk-1"])]) "sk-1" = .ok result ∧
      (∀ text, .str text ∈ result.leaves → ¬ Includes text "sk-1") ∧
      ∀ key ∈ result.keys, ¬ Includes key "sk-1" := by
  obtain ⟨result, redacted, leaves, keys, -⟩ := redactProviderValue_complete_harmless ⟨64, 100⟩
    (.obj [("sk-1", .arr [.str "invalid key sk-1"])]) "sk-1" rfl
    (by simp [Json.KeysOnce, Json.ItemsKeysOnce, Json.FieldsKeysOnce])
    ⟨by decide, by decide, by decide⟩
  exact ⟨result, redacted, leaves, keys⟩

end Gateway
