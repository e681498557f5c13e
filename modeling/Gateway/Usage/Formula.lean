import Gateway.Usage.Billing
import Mathlib.Algebra.Order.Field.Rat
import Mathlib.Tactic.Linarith
import Mathlib.Tactic.Positivity
import Mathlib.Tactic.GCongr

/-!
The quota formula in closed form.

The part of the model and of audio is scaled by the ratio of the group, and what
tools and the call itself cost is added. A ratio of zero is taken for a missing
one, so a group that is free of charge pays the full price.
-/

namespace Gateway

section Formula

variable (quotaPerUnit : ℚ) (usage : NormalizedUsage) (pricing : ResolvedPricing) (g : ℚ)
  (model : String)

/-- The prompt tokens that are priced on their own. -/
def NormalizedUsage.itemised (usage : NormalizedUsage) : Nat :=
  usage.cachedTokens + usage.cacheWrite5mTokens + usage.cacheWrite1hTokens + usage.imageTokens +
    usage.audioPromptTokens

/-- What the model and audio cost a group of ratio one. -/
def modelPart : ℚ :=
  ((usage.promptTokens - usage.itemised) + usage.cachedTokens * pricing.cachedRatio +
      usage.cacheWrite5mTokens * pricing.cacheWrite5mRatio +
      usage.cacheWrite1hTokens * pricing.cacheWrite1hRatio +
      usage.imageTokens * pricing.imageRatio + usage.completionTokens * pricing.completionRatio) *
    pricing.modelRatio +
  (usage.audioPromptTokens * pricing.audioRatio +
    usage.audioCompletionTokens * pricing.audioCompletionRatio)

/-- What does not depend on the group: tools, and a price for the call. -/
def flatPart : ℚ := toolSurchargeQuota quotaPerUnit model usage.toolCalls + pricing.perCallQuota

def totalQuota : ℚ := g * modelPart usage pricing + flatPart quotaPerUnit usage pricing model

/-- The nearest whole number, but one for a positive total below one. -/
def billedFor (total : ℚ) : Int := if 0 < total ∧ total < 1 then 1 else ⌊total + 1 / 2⌋

/-- The charge follows the formula: the model and audio scale with the group. -/
def ChargesFormula : Prop :=
  (computeQuota quotaPerUnit usage pricing g model).textQuota +
      (computeQuota quotaPerUnit usage pricing g model).audioQuota = g * modelPart usage pricing ∧
    (computeQuota quotaPerUnit usage pricing g model).quota =
      billedFor (totalQuota quotaPerUnit usage pricing g model)

end Formula

section Rounding

theorem roundCharge_eq (total : ℚ) : roundCharge total = billedFor total := by
  rw [roundCharge, billedFor, mathRound]
  by_cases positive : 0 < total
  · by_cases small : total < 1
    · rw [if_pos (show 0 < total ∧ total < 1 from ⟨positive, small⟩)]
      split
      · rfl
      · next rounded =>
          have one_le : ¬⌊total + 1 / 2⌋ < 1 := fun below => rounded ⟨below, positive⟩
          have below_two : ⌊total + 1 / 2⌋ < 2 := Int.floor_lt.mpr (by push_cast; linarith)
          omega
    · have one_le : 1 ≤ ⌊total + 1 / 2⌋ := Int.le_floor.mpr (by push_cast; linarith)
      rw [if_neg (show ¬(0 < total ∧ total < 1) from fun both => small both.2),
        if_neg (show ¬(⌊total + 1 / 2⌋ < 1 ∧ 0 < total) from fun both => by omega)]
  · rw [if_neg (show ¬(0 < total ∧ total < 1) from fun both => positive both.1),
      if_neg (show ¬(⌊total + 1 / 2⌋ < 1 ∧ 0 < total) from fun both => positive both.2)]

theorem billedFor_nonneg {total : ℚ} (nonneg : 0 ≤ total) : 0 ≤ billedFor total := by
  rw [billedFor]
  split
  · exact Int.one_nonneg
  · exact Int.floor_nonneg.mpr (by linarith)

theorem billedFor_eq_zero_iff {total : ℚ} (nonneg : 0 ≤ total) : billedFor total = 0 ↔ total = 0 := by
  constructor
  · intro free
    by_contra some_total
    have positive : 0 < total := lt_of_le_of_ne nonneg (Ne.symm some_total)
    have charged := (roundCharge_pos_iff nonneg).mpr positive
    rw [roundCharge_eq, free] at charged
    exact absurd charged (lt_irrefl 0)
  · rintro rfl
    norm_num [billedFor]

theorem billedFor_mono {total more : ℚ} (le : total ≤ more) (nonneg : 0 ≤ total) :
    billedFor total ≤ billedFor more := by
  rw [billedFor, billedFor]
  split
  · next small =>
      split
      · exact le_refl 1
      · next large =>
          have one_le : 1 ≤ more := by
            by_contra below
            exact large ⟨by linarith [small.1], by linarith⟩
          exact Int.le_floor.mpr (by push_cast; linarith)
  · next large =>
      split
      · next small =>
          have zero : total = 0 := by
            by_contra some_total
            exact large ⟨lt_of_le_of_ne nonneg (Ne.symm some_total), by linarith [small.2]⟩
          subst zero
          norm_num
      · exact Int.floor_mono (by linarith)

end Rounding

section Charge

variable {quotaPerUnit : ℚ} {usage : NormalizedUsage} {pricing : ResolvedPricing} {g : ℚ}
  {model : String}

theorem clampNonNegative_of_nonneg {q : ℚ} (nonneg : 0 ≤ q) : clampNonNegative q = q :=
  max_eq_left nonneg

theorem groupFactor_of_nonneg (nonneg : 0 ≤ g) : groupFactor g = if g = 0 then 1 else g := by
  rw [groupFactor, clampNonNegative_of_nonneg nonneg]

theorem toolUsd_nonneg (entry : String × JsNumber) : 0 ≤ toolUsd model entry := by
  obtain ⟨tool, count⟩ := entry
  cases count with
  | finite q =>
      rw [toolUsd]
      split
      · exact le_refl 0
      · next positive =>
          have price : 0 ≤ toolUsdPer1k model tool := by
            rw [toolUsdPer1k, webSearchUsdPer1k]
            split
            · split <;> norm_num
            · simp only [toolUsdTable, List.lookup_cons]
              split
              · norm_num
              · split
                · norm_num
                · split
                  · norm_num
                  · split <;> norm_num
          have count_nonneg : 0 ≤ q := (not_le.mp positive).le
          positivity
  | nan | infinity | negInfinity => exact le_refl 0

theorem flatPart_nonneg (unit : 0 ≤ quotaPerUnit) :
    0 ≤ flatPart quotaPerUnit usage pricing model := by
  have tools : 0 ≤ (usage.toolCalls.map (toolUsd model)).sum := by
    apply List.sum_nonneg
    intro usd mem
    obtain ⟨entry, -, rfl⟩ := List.mem_map.mp mem
    exact toolUsd_nonneg entry
  rw [flatPart, toolSurchargeQuota]
  positivity

theorem itemised_le_cast (fits : usage.itemised ≤ usage.promptTokens) :
    (0 : ℚ) ≤ usage.promptTokens - usage.itemised := by
  rw [sub_nonneg]
  exact_mod_cast fits

theorem modelPart_nonneg (fits : usage.itemised ≤ usage.promptTokens) :
    0 ≤ modelPart usage pricing := by
  have base := itemised_le_cast fits
  rw [modelPart]
  positivity

/-- What the code scales by the ratio of the group. -/
theorem computeQuota_scaled (fits : usage.itemised ≤ usage.promptTokens) :
    (computeQuota quotaPerUnit usage pricing g model).textQuota +
        (computeQuota quotaPerUnit usage pricing g model).audioQuota =
      groupFactor g * modelPart usage pricing := by
  have base : clampNonNegative ((usage.promptTokens : ℚ) - usage.cachedTokens -
      usage.cacheWrite5mTokens - usage.cacheWrite1hTokens - usage.imageTokens -
      usage.audioPromptTokens) = usage.promptTokens - usage.itemised := by
    have nonneg := itemised_le_cast fits
    rw [NormalizedUsage.itemised] at nonneg ⊢
    push_cast at nonneg ⊢
    rw [clampNonNegative_of_nonneg (by linarith)]
    ring
  simp only [computeQuota, base, modelPart, clampNonNegative_of_nonneg pricing.modelRatio.coe_nonneg]
  push_cast
  ring

/-- The charge is the rounded formula, with a ratio of zero taken for one. -/
theorem computeQuota_quota (fits : usage.itemised ≤ usage.promptTokens) (g_nonneg : 0 ≤ g) :
    (computeQuota quotaPerUnit usage pricing g model).quota =
      billedFor (totalQuota quotaPerUnit usage pricing (if g = 0 then 1 else g) model) := by
  have scaled := @computeQuota_scaled quotaPerUnit usage pricing g model fits
  have charged : (computeQuota quotaPerUnit usage pricing g model).quota =
      roundCharge ((computeQuota quotaPerUnit usage pricing g model).textQuota +
        (computeQuota quotaPerUnit usage pricing g model).audioQuota +
        toolSurchargeQuota quotaPerUnit model usage.toolCalls +
        clampNonNegative pricing.perCallQuota) := rfl
  rw [charged, scaled, roundCharge_eq, totalQuota, flatPart, groupFactor_of_nonneg g_nonneg,
    clampNonNegative_of_nonneg pricing.perCallQuota.coe_nonneg, add_assoc]

theorem totalQuota_nonneg (fits : usage.itemised ≤ usage.promptTokens) (g_nonneg : 0 ≤ g)
    (unit : 0 ≤ quotaPerUnit) : 0 ≤ totalQuota quotaPerUnit usage pricing g model := by
  have part := @modelPart_nonneg usage pricing fits
  have flat := @flatPart_nonneg quotaPerUnit usage pricing model unit
  rw [totalQuota]
  positivity

/-- More completion tokens and more prompt tokens at the full price. -/
def NormalizedUsage.withMore (usage : NormalizedUsage) (prompt completion : Nat) :
    NormalizedUsage :=
  { usage with
    promptTokens := usage.promptTokens + prompt
    completionTokens := usage.completionTokens + completion }

theorem totalQuota_withMore (g_nonneg : 0 ≤ g) (prompt completion : Nat) :
    totalQuota quotaPerUnit usage pricing g model ≤
      totalQuota quotaPerUnit (usage.withMore prompt completion) pricing g model := by
  have items : (usage.withMore prompt completion).itemised = usage.itemised := rfl
  have more : modelPart usage pricing ≤ modelPart (usage.withMore prompt completion) pricing := by
    rw [modelPart, modelPart, items]
    simp only [NormalizedUsage.withMore]
    gcongr <;> simp
  rw [totalQuota, totalQuota]
  have scaled := mul_le_mul_of_nonneg_left more g_nonneg
  have flat : flatPart quotaPerUnit (usage.withMore prompt completion) pricing model =
      flatPart quotaPerUnit usage pricing model := rfl
  rw [flat]
  linarith

/-- The charge follows the formula exactly where the ratio of the group is not zero or there is
nothing to scale. It is never negative, is zero only for a total of zero, and does not decrease. -/
theorem charges_formula_iff (fits : usage.itemised ≤ usage.promptTokens) (g_nonneg : 0 ≤ g)
    (unit : 0 ≤ quotaPerUnit) :
    (ChargesFormula quotaPerUnit usage pricing g model ↔ g ≠ 0 ∨ modelPart usage pricing = 0) ∧
      0 ≤ (computeQuota quotaPerUnit usage pricing g model).quota ∧
      ((computeQuota quotaPerUnit usage pricing g model).quota = 0 →
        totalQuota quotaPerUnit usage pricing g model = 0) ∧
      ∀ prompt completion, (computeQuota quotaPerUnit usage pricing g model).quota ≤
        (computeQuota quotaPerUnit (usage.withMore prompt completion) pricing g model).quota := by
  have factor_nonneg : 0 ≤ if g = 0 then 1 else g := by split <;> linarith
  have charged := @computeQuota_quota quotaPerUnit usage pricing g model fits g_nonneg
  have total_nonneg :=
    @totalQuota_nonneg quotaPerUnit usage pricing _ model fits factor_nonneg unit
  have part := @modelPart_nonneg usage pricing fits
  have flat := @flatPart_nonneg quotaPerUnit usage pricing model unit
  refine ⟨⟨fun follows => ?_, fun scales => ⟨?_, ?_⟩⟩, ?_, fun free => ?_, fun prompt completion => ?_⟩
  · have scaled := follows.1
    rw [computeQuota_scaled fits, groupFactor_of_nonneg g_nonneg] at scaled
    by_cases zero : g = 0
    · rw [if_pos zero, zero] at scaled
      exact .inr (by linarith)
    · exact .inl zero
  · rw [computeQuota_scaled fits, groupFactor_of_nonneg g_nonneg]
    cases scales with
    | inl nonzero => rw [if_neg nonzero]
    | inr nothing => rw [nothing, mul_zero, mul_zero]
  · rw [charged, totalQuota, totalQuota]
    cases scales with
    | inl nonzero => rw [if_neg nonzero]
    | inr nothing => rw [nothing, mul_zero, mul_zero]
  · rw [charged]
    exact billedFor_nonneg total_nonneg
  · rw [charged, billedFor_eq_zero_iff total_nonneg, totalQuota] at free
    rw [totalQuota]
    by_cases zero : g = 0
    · rw [if_pos zero] at free
      rw [zero]
      linarith
    · rwa [if_neg zero] at free
  · have fits' : (usage.withMore prompt completion).itemised ≤
        (usage.withMore prompt completion).promptTokens :=
      fits.trans (Nat.le_add_right _ _)
    rw [charged, computeQuota_quota fits' g_nonneg]
    exact billedFor_mono (totalQuota_withMore factor_nonneg prompt completion) total_nonneg

/-- Ten prompt tokens at a quota of one each. -/
def tenTokens : NormalizedUsage := { emptyUsage with promptTokens := 10 }

def plainPricing : ResolvedPricing := ⟨"gpt-4o", 1, 1, 1, 1, 1, 1, 0, 0, 0, .inclusive⟩

theorem charges_formula_discounted :
    (ChargesFormula 500000 tenTokens plainPricing (1 / 2) "gpt-4o" ↔
      (1 / 2 : ℚ) ≠ 0 ∨ modelPart tenTokens plainPricing = 0) ∧
    ∀ prompt completion, (computeQuota 500000 tenTokens plainPricing (1 / 2) "gpt-4o").quota ≤
      (computeQuota 500000 (tenTokens.withMore prompt completion) plainPricing (1 / 2)
        "gpt-4o").quota :=
  have formula := @charges_formula_iff 500000 tenTokens plainPricing (1 / 2) "gpt-4o" (by decide)
    (by norm_num) (by norm_num)
  ⟨formula.1, formula.2.2.2⟩

/-- A group that is to pay nothing pays the full price. -/
theorem free_group_charged :
    totalQuota 500000 tenTokens plainPricing 0 "gpt-4o" = 0 ∧
      (computeQuota 500000 tenTokens plainPricing 0 "gpt-4o").quota = 10 ∧
      ¬ChargesFormula 500000 tenTokens plainPricing 0 "gpt-4o" := by
  have free : totalQuota 500000 tenTokens plainPricing 0 "gpt-4o" = 0 := by
    rw [totalQuota, zero_mul, zero_add, flatPart]
    simp [tenTokens, plainPricing, emptyUsage]
  have charged : (computeQuota 500000 tenTokens plainPricing 0 "gpt-4o").quota = 10 := by
    decide +kernel
  refine ⟨free, charged, fun follows => ?_⟩
  have billed := follows.2
  rw [charged, free] at billed
  exact absurd billed (by decide +kernel)

end Charge

end Gateway
