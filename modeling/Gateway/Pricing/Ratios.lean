import Gateway.Util.Text
import Gateway.Usage.Measure
import Mathlib.Data.NNRat.Defs

/-!
What a model costs, as the relay reads it.

A resolved price is the merge of an override and the catalogue; the merge
refuses negative ratios, so the ratios are non-negative by their type. Arithmetic
on ratios is exact here and rounded to doubles in the source.
-/

namespace Gateway

structure ResolvedPricing where
  model : String
  modelRatio : ℚ≥0
  completionRatio : ℚ≥0
  cachedRatio : ℚ≥0
  cacheWrite5mRatio : ℚ≥0
  cacheWrite1hRatio : ℚ≥0
  imageRatio : ℚ≥0
  audioRatio : ℚ≥0
  audioCompletionRatio : ℚ≥0
  perCallQuota : ℚ≥0
  usageSemantic : UsageSemantic

def normalizeModelName (model : String) : String :=
  let trimmed := (jsToLower (jsTrim model)).toList
  if trimmed.contains '/' then String.ofList ((trimmed.dropWhile (· ≠ '/')).drop 1)
  else String.ofList trimmed

def usageSemanticFor (model : String) : UsageSemantic :=
  let name := normalizeModelName model
  if startsWith name "claude" || startsWith name "anthropic" then .exclusive else .inclusive

def webSearchUsdPer1k (model : String) : ℚ :=
  let name := normalizeModelName model
  if startsWith name "gpt-4o" || startsWith name "gpt-4.1" then 25 else 10

/-- `TOOL_USD_PER_1K` -/
def toolUsdTable : List (String × ℚ) :=
  [("web_search", 10), ("file_search", 5 / 2), ("google_search", 14), ("image_generation", 150)]

def toolUsdPer1k (model tool : String) : ℚ :=
  if tool = "web_search" then webSearchUsdPer1k model else (toolUsdTable.lookup tool).getD 0

/-- What one entry of the tool calls adds, in dollars. -/
def toolUsd (model : String) : String × JsNumber → ℚ
  | (tool, .finite count) => if count ≤ 0 then 0 else toolUsdPer1k model tool / 1000 * count
  | _ => 0

def toolSurchargeQuota (quotaPerUnit : ℚ) (model : String) (toolCalls : List (String × JsNumber)) :
    ℚ :=
  (toolCalls.map (toolUsd model)).sum * quotaPerUnit

@[simp]
theorem toolSurchargeQuota_nil (quotaPerUnit : ℚ) (model : String) :
    toolSurchargeQuota quotaPerUnit model [] = 0 := by
  simp [toolSurchargeQuota]

end Gateway
