import Gateway.Pricing.Ratios
import Mathlib.Algebra.Order.Field.Rat
import Mathlib.Data.List.Sort
import Mathlib.Tactic.Positivity

/-!
The built-in price catalogue.

A card is looked up by property access on an object literal, so the names that
every object inherits are found too, with a value that has no prices. The lower
case of a name is the language's; the prices rest on its ASCII part alone.
-/

namespace Gateway

/-- What a lookup finds; a price that is not there is `undefined`. -/
structure PriceCard where
  input : Option ℚ
  out : Option ℚ
  audioIn : Option ℚ
  audioOut : Option ℚ
deriving DecidableEq

section Catalog

/-- A card without audio prices. -/
def card (input out : ℚ) : PriceCard := ⟨some input, some out, none, none⟩

/-- `CATALOG` -/
def catalog : List (String × PriceCard) :=
  [("gpt-4o", ⟨some (5 / 2), some 10, some 40, some 80⟩),
    ("gpt-4o-mini", ⟨some (3 / 20), some (3 / 5), some 10, some 20⟩), ("gpt-4.1", card 2 8),
    ("gpt-4.1-mini", card (2 / 5) (8 / 5)), ("gpt-4.1-nano", card (1 / 10) (2 / 5)),
    ("gpt-4-turbo", card 10 30), ("gpt-4", card 30 60), ("gpt-3.5-turbo", card (1 / 2) (3 / 2)),
    ("gpt-5", card (5 / 4) 10), ("gpt-5-mini", card (1 / 4) 2),
    ("gpt-5-nano", card (1 / 20) (2 / 5)), ("o1", card 15 60),
    ("o1-mini", card (11 / 10) (22 / 5)), ("o3", card 2 8), ("o3-mini", card (11 / 10) (22 / 5)),
    ("o4-mini", card (11 / 10) (22 / 5)), ("claude-3-opus", card 15 75),
    ("claude-3-sonnet", card 3 15), ("claude-3-haiku", card (1 / 4) (5 / 4)),
    ("claude-3-5-sonnet", card 3 15), ("claude-3-5-haiku", card (4 / 5) 4),
    ("claude-3-7-sonnet", card 3 15), ("claude-sonnet-4", card 3 15),
    ("claude-opus-4", card 15 75), ("claude-haiku-4", card 1 5),
    ("gemini-1.5-flash", card (3 / 40) (3 / 10)), ("gemini-1.5-pro", card (5 / 4) 5),
    ("gemini-2.0-flash", card (1 / 10) (2 / 5)), ("gemini-2.5-flash", card (3 / 10) (5 / 2)),
    ("gemini-2.5-pro", card (5 / 4) 10), ("gemini-3-pro", card 2 12),
    ("deepseek-chat", card (27 / 100) (11 / 10)),
    ("deepseek-reasoner", card (11 / 20) (219 / 100)),
    ("text-embedding-3-small", card (1 / 50) 0), ("text-embedding-3-large", card (13 / 100) 0),
    ("text-embedding-ada-002", card (1 / 10) 0)]

/-- `FALLBACK_CARD` -/
def fallbackCard : PriceCard := card (5 / 2) 10

/-- `CATALOG[name]` -/
def catalogEntry (name : String) : Option PriceCard :=
  (catalog.lookup name).or (if name ∈ inheritedNames then some ⟨none, none, none, none⟩ else none)

/-- `CATALOG_KEYS`, the longest first. -/
def catalogKeys : List String :=
  (catalog.map Prod.fst).insertionSort fun a b => jsLength b ≤ jsLength a

end Catalog

section Defaults

variable (toLowerCase : String → String) (quotaPerUnit : ℚ)

/-- `normalizeModelName`, over the lower case of the language. -/
def normalizeNameWith (model : String) : String :=
  let trimmed := (toLowerCase (jsTrim model)).toList
  if trimmed.contains '/' then String.ofList ((trimmed.dropWhile (· ≠ '/')).drop 1)
  else String.ofList trimmed

def ratioFromUsdPerMillion (usd : Option ℚ) : JsNumber :=
  match usd with
  | none => .nan
  | some usd => .finite (usd * quotaPerUnit / 1000000)

def cardFor (model : String) : PriceCard :=
  let name := normalizeNameWith toLowerCase model
  match catalogEntry name with
  | some found => found
  | none =>
      match catalogKeys.find? (startsWith name) with
      | some key => (catalogEntry key).getD fallbackCard
      | none => fallbackCard

/-- `gpt-4o` is tested before `gpt-4`. -/
def cacheReadRatioFor (model : String) : ℚ :=
  let name := normalizeNameWith toLowerCase model
  if startsWith name "gpt-5" then 1 / 10
  else if startsWith name "gpt-4o" || startsWith name "o1" || startsWith name "o3" ||
      startsWith name "o4" then 1 / 2
  else if startsWith name "gpt-4" then 1 / 4
  else if startsWith name "deepseek" then 1 / 4
  else if startsWith name "claude" then 1 / 10
  else if startsWith name "gemini-3" then 1 / 10
  else 1 / 4

def usageSemanticWith (model : String) : UsageSemantic :=
  let name := normalizeNameWith toLowerCase model
  if startsWith name "claude" || startsWith name "anthropic" then .exclusive else .inclusive

/-- A resolved price as the lookups build it: what should be a number may be none. -/
structure ModelPricing where
  model : String
  modelRatio : JsNumber
  completionRatio : JsNumber
  cachedRatio : JsNumber
  cacheWrite5mRatio : JsNumber
  cacheWrite1hRatio : JsNumber
  imageRatio : JsNumber
  audioRatio : JsNumber
  audioCompletionRatio : JsNumber
  perCallQuota : JsNumber
  usageSemantic : UsageSemantic
deriving DecidableEq

/-- `card.in > 0 ? card.out / card.in : 0` -/
def completionRatioOf (found : PriceCard) : JsNumber :=
  match found.input with
  | none => .finite 0
  | some input =>
      if 0 < input then found.out.elim .nan fun out => .finite (out / input) else .finite 0

def defaultPricingFor (model : String) : ModelPricing :=
  let found := cardFor toLowerCase model
  { model := normalizeNameWith toLowerCase model
    modelRatio := ratioFromUsdPerMillion quotaPerUnit found.input
    completionRatio := completionRatioOf found
    cachedRatio := .finite (cacheReadRatioFor toLowerCase model)
    cacheWrite5mRatio := .finite (5 / 4)
    cacheWrite1hRatio := .finite 2
    imageRatio := .finite 1
    audioRatio := ratioFromUsdPerMillion quotaPerUnit (some (found.audioIn.getD 0))
    audioCompletionRatio := ratioFromUsdPerMillion quotaPerUnit (some (found.audioOut.getD 0))
    perCallQuota := .finite 0
    usageSemantic := usageSemanticWith toLowerCase model }

theorem defaultPricingFor_modelRatio (model : String) :
    (defaultPricingFor toLowerCase quotaPerUnit model).modelRatio =
      ratioFromUsdPerMillion quotaPerUnit (cardFor toLowerCase model).input := rfl

theorem defaultPricingFor_completionRatio (model : String) :
    (defaultPricingFor toLowerCase quotaPerUnit model).completionRatio =
      completionRatioOf (cardFor toLowerCase model) := rfl

end Defaults

section Families

variable {quotaPerUnit : ℚ}

theorem normalizeModelName_eq (model : String) :
    normalizeModelName model = normalizeNameWith jsToLower model := rfl

/-- The first match in a list that is sorted by size is a largest one. -/
theorem largest_of_find {α : Type*} {size : α → Nat} {p : α → Bool} {l : List α} {a : α}
    (sorted : l.Pairwise fun a b => size b ≤ size a) (found : l.find? p = some a) :
    ∀ b ∈ l, p b = true → size b ≤ size a := by
  obtain ⟨-, before, after, rfl, unmatched⟩ := List.find?_eq_some_iff_append.mp found
  intro b mem matched
  cases List.mem_append.mp mem with
  | inl early =>
      have missed := unmatched b early
      rw [matched] at missed
      cases missed
  | inr late =>
      cases List.mem_cons.mp late with
      | inl same => rw [same]
      | inr later => exact (List.pairwise_cons.mp (List.pairwise_append.mp sorted).2.1).1 b later

theorem catalogKeys_sorted : catalogKeys.Pairwise fun a b => jsLength b ≤ jsLength a := by
  have total : Std.Total fun a b : String => jsLength b ≤ jsLength a :=
    ⟨fun a b => Nat.le_total (jsLength b) (jsLength a)⟩
  have trans : IsTrans String fun a b => jsLength b ≤ jsLength a :=
    ⟨fun _ _ _ h h' => Nat.le_trans h' h⟩
  exact List.pairwise_insertionSort _ _

theorem mem_catalogKeys {key : String} :
    key ∈ catalogKeys ↔ ∃ found, (key, found) ∈ catalog := by
  rw [catalogKeys, List.mem_insertionSort]
  simp

/-- Every key of the catalogue has one card. -/
theorem catalogEntry_of_mem {key : String} {found : PriceCard} (mem : (key, found) ∈ catalog) :
    catalogEntry key = some found := by
  revert mem
  have all : ∀ entry ∈ catalog, catalogEntry entry.1 = some entry.2 := by decide +kernel
  exact all (key, found)

theorem mem_of_lookup {α β : Type*} [BEq α] [LawfulBEq α] {key : α} {value : β} {l : List (α × β)}
    (h : l.lookup key = some value) : (key, value) ∈ l := by
  induction l with
  | nil => cases h
  | cons entry l ih =>
      rw [List.lookup_cons] at h
      split at h
      · next same =>
          cases h
          rw [eq_of_beq same]
          exact List.mem_cons_self
      · exact List.mem_cons_of_mem _ (ih h)

/-- A price on the card is positive where it is charged for a prompt. -/
theorem catalog_priced :
    ∀ entry ∈ ("", fallbackCard) :: catalog, ∃ input out, entry.2.input = some input ∧
      entry.2.out = some out ∧ 0 < input ∧ 0 ≤ out := by
  have priced : ∀ entry ∈ ("", fallbackCard) :: catalog,
      (entry.2.input.any (0 < ·) && entry.2.out.any (0 ≤ ·)) = true := by decide +kernel
  intro entry mem
  obtain ⟨name, input, out, audioIn, audioOut⟩ := entry
  have here := priced _ mem
  cases input with
  | none => cases here
  | some input =>
      cases out with
      | none => simp at here
      | some out => exact ⟨input, out, rfl, rfl, by simpa using here⟩

/-- The card of the longest key that the name starts with, or the fallback. -/
def IsFamilyCard (name : String) (found : PriceCard) : Prop :=
  (∃ key, (key, found) ∈ catalog ∧ startsWith name key = true ∧
    ∀ other ∈ catalog, startsWith name other.1 = true → jsLength other.1 ≤ jsLength key) ∨
  ((∀ other ∈ catalog, startsWith name other.1 = false) ∧ found = fallbackCard)

/-- The price is the one of the family, and it is a real one. -/
def RealPrice (quotaPerUnit : ℚ) (model : String) : Prop :=
  IsFamilyCard (normalizeModelName model) (cardFor jsToLower model) ∧
    ∃ modelRatio completionRatio,
      (defaultPricingFor jsToLower quotaPerUnit model).modelRatio = .finite modelRatio ∧
      (defaultPricingFor jsToLower quotaPerUnit model).completionRatio = .finite completionRatio ∧
      0 ≤ completionRatio ∧ (0 < quotaPerUnit → 0 < modelRatio)

theorem startsWith_iff {s head : String} : startsWith s head = true ↔ head.toList <+: s.toList := by
  rw [startsWith, List.isPrefixOf_iff_prefix]

theorem jsLength_le_of_startsWith {s head : String} (h : startsWith s head = true) :
    jsLength head ≤ jsLength s := by
  obtain ⟨rest, whole⟩ := startsWith_iff.mp h
  rw [jsLength, jsLength, ← whole, List.map_append, List.sum_append]
  exact Nat.le_add_right _ _

theorem isUpper_toLower (c : Char) : c.toLower.isUpper = false := by
  unfold Char.toLower
  split
  · next upper =>
      have low : 65 ≤ c.val.toNat := UInt32.le_iff_toNat_le.mp upper.1
      have high : c.val.toNat ≤ 90 := UInt32.le_iff_toNat_le.mp upper.2
      have moved : (c.val + ('a'.val - 'A'.val)).toNat = c.val.toNat + 32 := by
        rw [UInt32.toNat_add]
        exact Nat.mod_eq_of_lt (Nat.lt_of_le_of_lt (Nat.add_le_add_right high 32) (by decide))
      unfold Char.isUpper
      rw [decide_eq_false_iff_not]
      intro still
      have bound : (c.val + ('a'.val - 'A'.val)).toNat ≤ 90 := UInt32.le_iff_toNat_le.mp still.2
      omega
  · next other => exact decide_eq_false other

theorem lowerChar_isUpper {c d : Char} (mem : d ∈ lowerChar c) : d.isUpper = false := by
  rw [lowerChar] at mem
  split at mem
  · rw [List.mem_singleton.mp mem]
    exact isUpper_toLower c
  · next lower =>
      split at mem
      · rw [List.mem_singleton.mp mem]
        rfl
      · split at mem
        · cases List.mem_cons.mp mem with
          | inl here => rw [here]; rfl
          | inr here => rw [List.mem_singleton.mp here]; rfl
        · rw [List.mem_singleton.mp mem]
          exact Bool.not_eq_true _ ▸ lower

/-- No name that was normalised has a capital letter. -/
theorem normalizeModelName_isUpper {model : String} {c : Char}
    (mem : c ∈ (normalizeModelName model).toList) : c.isUpper = false := by
  have lowered {cs : List Char} (sub : cs ⊆ (jsToLower (jsTrim model)).toList) (mem : c ∈ cs) :
      c.isUpper = false := by
    have there := sub mem
    rw [jsToLower, String.toList_ofList] at there
    obtain ⟨d, -, here⟩ := List.mem_flatMap.mp there
    exact lowerChar_isUpper here
  rw [normalizeModelName] at mem
  split at mem
  · rw [String.toList_ofList] at mem
    exact lowered (fun d h => (List.dropWhile_suffix _).subset (List.mem_of_mem_drop h)) mem
  · rw [String.toList_ofList] at mem
    exact lowered (fun d h => h) mem

/-- Of the inherited names two are written without capitals. -/
theorem inherited_normalized {model : String} (mem : normalizeModelName model ∈ inheritedNames) :
    normalizeModelName model ∈ ["constructor", "__proto__"] := by
  have capitals : ∀ name ∈ inheritedNames,
      name ∈ ["constructor", "__proto__"] ∨ name.toList.any Char.isUpper = true := by decide +kernel
  cases capitals _ mem with
  | inl named => exact named
  | inr capital =>
      obtain ⟨c, here, upper⟩ := List.any_eq_true.mp capital
      rw [normalizeModelName_isUpper here] at upper
      cases upper

/-- A name that is not inherited gets the card of its family. -/
theorem cardFor_family {model : String} (own : normalizeModelName model ∉ inheritedNames) :
    IsFamilyCard (normalizeModelName model) (cardFor jsToLower model) := by
  rw [cardFor, ← normalizeModelName_eq]
  split
  · next found entry =>
      rw [catalogEntry, if_neg own, Option.or_none] at entry
      refine .inl ⟨_, mem_of_lookup entry, startsWith_iff.mpr (List.prefix_refl _), ?_⟩
      intro other _ starts
      exact jsLength_le_of_startsWith starts
  · next missing =>
      split
      · next key search =>
          have starts := List.find?_some search
          obtain ⟨found, mem⟩ := mem_catalogKeys.mp (List.mem_of_find?_eq_some search)
          rw [catalogEntry_of_mem mem, Option.getD_some]
          refine .inl ⟨key, mem, starts, fun other other_mem other_starts => ?_⟩
          exact largest_of_find catalogKeys_sorted search other.1
            (mem_catalogKeys.mpr ⟨other.2, other_mem⟩) other_starts
      · next search =>
          refine .inr ⟨fun other mem => ?_, rfl⟩
          have unmatched := List.find?_eq_none.mp search other.1 (mem_catalogKeys.mpr ⟨other.2, mem⟩)
          simpa using unmatched

theorem real_of_family {model : String}
    (family : IsFamilyCard (normalizeModelName model) (cardFor jsToLower model)) :
    RealPrice quotaPerUnit model := by
  have priced : ∃ input out, (cardFor jsToLower model).input = some input ∧
      (cardFor jsToLower model).out = some out ∧ 0 < input ∧ 0 ≤ out := by
    cases family with
    | inl listed =>
        obtain ⟨key, mem, -⟩ := listed
        exact catalog_priced (key, cardFor jsToLower model) (List.mem_cons_of_mem _ mem)
    | inr unlisted =>
        rw [unlisted.2]
        exact catalog_priced ("", fallbackCard) List.mem_cons_self
  obtain ⟨input, out, has_input, has_out, positive, nonneg⟩ := priced
  refine ⟨family, input * quotaPerUnit / 1000000, out / input, ?_, ?_, by positivity, fun unit => ?_⟩
  · rw [defaultPricingFor_modelRatio, has_input, ratioFromUsdPerMillion]
  · rw [defaultPricingFor_completionRatio, completionRatioOf, has_input]
    simp only [has_out, if_pos positive, Option.elim_some]
  · positivity

/-- Every model has the real price of its family, but for the names of two properties that
every object inherits. -/
theorem real_price_iff (model : String) :
    RealPrice quotaPerUnit model ↔ normalizeModelName model ∉ ["constructor", "__proto__"] := by
  constructor
  · intro real inherited
    obtain ⟨-, ratio, -, finite, -⟩ := real
    have undefined : (cardFor jsToLower model).input = none := by
      rw [cardFor, ← normalizeModelName_eq]
      have entry : ∀ name ∈ ["constructor", "__proto__"],
          catalogEntry name = some ⟨none, none, none, none⟩ := by decide +kernel
      simp only [entry _ inherited]
    rw [defaultPricingFor_modelRatio, undefined, ratioFromUsdPerMillion] at finite
    cases finite
  · intro ordinary
    exact real_of_family (cardFor_family fun mem => ordinary (inherited_normalized mem))

/-- A model that is called like a property of every object has no price. -/
theorem constructor_unpriced :
    (defaultPricingFor jsToLower 500000 "Constructor").modelRatio = .nan ∧
      ¬RealPrice 500000 "Constructor" := by
  have unpriced : (defaultPricingFor jsToLower 500000 "Constructor").modelRatio = .nan := by
    decide +kernel
  refine ⟨unpriced, fun real => ?_⟩
  obtain ⟨-, ratio, -, finite, -⟩ := real
  rw [unpriced] at finite
  cases finite

example : (cardFor jsToLower "OpenAI/gpt-4o-mini-2024-07-18").input = some (3 / 20) := by
  decide +kernel

end Families

end Gateway
