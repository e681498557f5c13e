import Gateway.Pricing.Ratios

/-!
The quota formula.

The prompt is inclusive by the time it gets here, so subtracting the itemised
subsets leaves the tokens charged at the full price. A positive total is never
rounded down to nothing, which is the only fact about rounding the relay's
guarantees rest on.
-/

namespace Gateway

structure QuotaBreakdown where
  baseTokens : ℚ
  promptUnits : ℚ
  completionUnits : ℚ
  textQuota : ℚ
  audioQuota : ℚ
  toolQuota : ℚ
  perCallQuota : ℚ
  quota : Int

def clampNonNegative (value : ℚ) : ℚ := max value 0

/-- `Math.round` -/
def mathRound (value : ℚ) : Int := ⌊value + 1 / 2⌋

/-- `clampNonNegative(groupRatio) || 1` -/
def groupFactor (groupRatio : ℚ) : ℚ :=
  if clampNonNegative groupRatio = 0 then 1 else clampNonNegative groupRatio

/-- The integer charged for a total: a charge is not rounded to nothing. -/
def roundCharge (total : ℚ) : Int :=
  if mathRound total < 1 ∧ 0 < total then 1 else mathRound total

def computeQuota (quotaPerUnit : ℚ) (usage : NormalizedUsage) (pricing : ResolvedPricing)
    (groupRatio : ℚ) (model : String) : QuotaBreakdown :=
  let ratio : ℚ := clampNonNegative pricing.modelRatio
  let group := groupFactor groupRatio
  let baseTokens := clampNonNegative
    ((usage.promptTokens : ℚ) - usage.cachedTokens - usage.cacheWrite5mTokens -
      usage.cacheWrite1hTokens - usage.imageTokens - usage.audioPromptTokens)
  let promptUnits := baseTokens + usage.cachedTokens * pricing.cachedRatio +
    usage.cacheWrite5mTokens * pricing.cacheWrite5mRatio +
    usage.cacheWrite1hTokens * pricing.cacheWrite1hRatio +
    usage.imageTokens * pricing.imageRatio
  let completionUnits := usage.completionTokens * pricing.completionRatio
  let textQuota := (promptUnits + completionUnits) * ratio * group
  let audioQuota := (usage.audioPromptTokens * pricing.audioRatio +
    usage.audioCompletionTokens * pricing.audioCompletionRatio) * group
  let toolQuota := toolSurchargeQuota quotaPerUnit model usage.toolCalls
  let perCallQuota := clampNonNegative pricing.perCallQuota
  { baseTokens, promptUnits, completionUnits, textQuota, audioQuota, toolQuota, perCallQuota
    quota := roundCharge (textQuota + audioQuota + toolQuota + perCallQuota) }

/-- The model whose price applies is the one the client asked for. -/
def billedModelFor (requestedModel _mappedModel : String) : String := requestedModel

theorem clampNonNegative_nonneg (value : ℚ) : 0 ≤ clampNonNegative value := le_max_right value 0

theorem groupFactor_pos (groupRatio : ℚ) : 0 < groupFactor groupRatio := by
  rw [groupFactor]
  split
  · exact one_pos
  · next nonzero => exact lt_of_le_of_ne (clampNonNegative_nonneg groupRatio) (Ne.symm nonzero)

theorem roundCharge_pos_iff {total : ℚ} (nonneg : 0 ≤ total) :
    0 < roundCharge total ↔ 0 < total := by
  constructor
  · intro charged
    refine lt_of_le_of_ne nonneg ?_
    rintro rfl
    simp [roundCharge, mathRound] at charged
    norm_num at charged
  · intro positive
    rw [roundCharge]
    split
    · exact one_pos
    · next rounded =>
        have notSmall : ¬mathRound total < 1 := fun small => rounded ⟨small, positive⟩
        omega

end Gateway
