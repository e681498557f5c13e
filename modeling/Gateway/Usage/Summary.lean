import Gateway.Usage.Rollups
import Mathlib.Algebra.Order.BigOperators.Group.List

/-!
The monthly totals that the console and the rollup job report.

Both read the hourly totals and pick those of a month by a prefix of their hour.
The hours are written `YYYY-MM-DDTHH` and the month `YYYYMM`, so the console's
prefix fits no hour and the job's fits a whole year.
-/

namespace Gateway

section Reports

structure ModelTotals where
  requests : Nat
  quota : Nat
deriving DecidableEq

structure TopModel where
  model : String
  requests : Nat
  quota : Nat
deriving DecidableEq

structure UsageSummary where
  bucketPrefix : String
  requests : Nat
  errors : Nat
  quota : Nat
  usd : ℚ
  promptTokens : Nat
  completionTokens : Nat
  topModels : List TopModel
deriving DecidableEq

/-- The totals of the models, in the order in which the models came up. -/
abbrev ByModel := List (String × ModelTotals)

def ByModel.set (model : String) (entry : ModelTotals) : ByModel → ByModel
  | [] => [(model, entry)]
  | (other, old) :: rest =>
      if other = model then (model, entry) :: rest else (other, old) :: ByModel.set model entry rest

def addModel (byModel : ByModel) (row : UsageRollupDoc) : ByModel :=
  let entry := (byModel.lookup row.key).getD ⟨0, 0⟩
  byModel.set row.key ⟨entry.requests + row.requests, entry.quota + row.quota⟩

def topModels (byModel : ByModel) : List TopModel :=
  ((byModel.map fun (model, entry) => TopModel.mk model entry.requests entry.quota).mergeSort
    fun left right => right.quota ≤ left.quota).take 10

/-- One row of the loop, which adds to the totals and to the models. -/
def summaryRow (bucketPrefix : String) (totals : Counters × ByModel) (row : UsageRollupDoc) :
    Counters × ByModel :=
  if (bucketPrefix.toList.take 6).isPrefixOf row.bucket.toList = false then totals
  else
    let byModel := if row.scope = .model then addModel totals.2 row else totals.2
    if row.scope ≠ .user then (totals.1, byModel) else (totals.1 + row.counters, byModel)

def quotaToUsd (quotaPerUnit : ℚ) (quota : Nat) : ℚ :=
  if 0 < quotaPerUnit then quota / quotaPerUnit else 0

def usageSummary (quotaPerUnit : ℚ) (bucketPrefix : String)
    (rollups : Collection UsageRollupDoc) : UsageSummary :=
  let rows := rollups.docs.take 5000
  let (totals, byModel) := rows.foldl (summaryRow bucketPrefix) (0, [])
  { bucketPrefix := bucketPrefix
    requests := totals.requests
    errors := totals.errors
    quota := totals.quota
    usd := quotaToUsd quotaPerUnit totals.quota
    promptTokens := totals.promptTokens
    completionTokens := totals.completionTokens
    topModels := topModels byModel }

def UsageSummary.counters (summary : UsageSummary) : Counters :=
  ⟨summary.requests, summary.errors, summary.quota, summary.promptTokens,
    summary.completionTokens⟩

/-- What draining the buffer reports. -/
structure Drained where
  flushed : Nat
  pending : Nat

structure RollupReport where
  flushed : Nat
  pending : Nat
  accounts : Nat
  requests : Nat
  errors : Nat
  quota : Nat

/-- The report at a time, over the rows that draining the buffer left. -/
def rollupUsage (drained : Drained) (now : Int) (rollups : Collection UsageRollupDoc) :
    RollupReport :=
  let rows := rollups.docs.filter fun row => row.scope = .user
  let counted := rows.filter fun row =>
    ((monthBucket now).toList.take 4).isPrefixOf row.bucket.toList
  { flushed := drained.flushed
    pending := drained.pending
    accounts := rows.length
    requests := (counted.map UsageRollupDoc.requests).sum
    errors := (counted.map UsageRollupDoc.errors).sum
    quota := (counted.map UsageRollupDoc.quota).sum }

end Reports

section Months

/-- The hour of a bucket lies in the UTC month of a date. -/
def InMonth (date : Int) (bucket : String) : Prop :=
  ∃ hour, bucket = hourBucket hour ∧ (utcFields hour).year = (utcFields date).year ∧
    (utcFields hour).month = (utcFields date).month

def InYear (date : Int) (bucket : String) : Prop :=
  ∃ hour, bucket = hourBucket hour ∧ (utcFields hour).year = (utcFields date).year

open scoped Classical in
/-- The rows of a scope in the month of a date. -/
noncomputable def monthRows (scope : RollupScope) (date : Int)
    (rollups : Collection UsageRollupDoc) : List UsageRollupDoc :=
  rollups.docs.filter fun row => decide (row.scope = scope ∧ InMonth date row.bucket)

/-- What the increments write: at least one request, under the bucket of some hour. -/
def IsRollup (row : UsageRollupDoc) : Prop :=
  1 ≤ row.requests ∧ ∃ hour, row.bucket = hourBucket hour

theorem isRollup_incrementRollup {doc : UsageLogDoc} {now : Int}
    {rollups : Collection UsageRollupDoc} (written : ∀ row ∈ rollups.docs, IsRollup row)
    (target : RollupScope × String) :
    ∀ row ∈ (incrementRollup doc now rollups target).docs, IsRollup row := by
  intro row mem
  have found := Collection.find_of_mem mem
  obtain ⟨scope, key⟩ := target
  simp only [incrementRollup] at mem found
  split at found
  · exact written row (Collection.mem_of_find found).1
  · rw [Collection.find_upsert] at found
    split at found
    · cases found
      split
      · exact ⟨Nat.le_add_left 1 _, doc.createdAt, rfl⟩
      · exact ⟨Nat.le_refl 1, doc.createdAt, rfl⟩
    · exact written row (Collection.mem_of_find found).1

theorem isRollup_incrementRollups (doc : UsageLogDoc) (now : Int)
    {rollups : Collection UsageRollupDoc} (written : ∀ row ∈ rollups.docs, IsRollup row) :
    ∀ row ∈ (incrementRollups doc now rollups).docs, IsRollup row := by
  have each (targets : List (RollupScope × String)) (c : Collection UsageRollupDoc)
      (start : ∀ row ∈ c.docs, IsRollup row) :
      ∀ row ∈ (targets.foldl (incrementRollup doc now) c).docs, IsRollup row := by
    induction targets generalizing c with
    | nil => exact start
    | cons target targets ih => exact ih _ (isRollup_incrementRollup start target)
  exact each (rollupScopes doc) rollups written

end Months

section Totals

variable {rollups : Collection UsageRollupDoc} {date now : Int}

theorem requests_sum (rows : List UsageRollupDoc) :
    (rows.map UsageRollupDoc.counters).sum.requests = (rows.map UsageRollupDoc.requests).sum := by
  induction rows with
  | nil => rfl
  | cons row rows ih =>
      rw [List.map_cons, List.sum_cons, List.map_cons, List.sum_cons, ← ih]
      rfl

theorem errors_sum (rows : List UsageRollupDoc) :
    (rows.map UsageRollupDoc.counters).sum.errors = (rows.map UsageRollupDoc.errors).sum := by
  induction rows with
  | nil => rfl
  | cons row rows ih =>
      rw [List.map_cons, List.sum_cons, List.map_cons, List.sum_cons, ← ih]
      rfl

theorem quota_sum (rows : List UsageRollupDoc) :
    (rows.map UsageRollupDoc.counters).sum.quota = (rows.map UsageRollupDoc.quota).sum := by
  induction rows with
  | nil => rfl
  | cons row rows ih =>
      rw [List.map_cons, List.sum_cons, List.map_cons, List.sum_cons, ← ih]
      rfl

/-- Of two choices from rows that all count, the wider one adds up to more unless they agree. -/
theorem all_of_sum_filter_eq {α : Type*} {wide narrow : α → Bool} {f : α → Nat} {rows : List α}
    (sub : ∀ row, narrow row = true → wide row = true) (counts : ∀ row ∈ rows, 1 ≤ f row)
    (same : ((rows.filter wide).map f).sum = ((rows.filter narrow).map f).sum) :
    ∀ row ∈ rows, wide row = true → narrow row = true := by
  induction rows with
  | nil => exact fun _ mem => absurd mem List.not_mem_nil
  | cons row rows ih =>
      obtain ⟨positive, counts⟩ := List.forall_mem_cons.mp counts
      have le : ((rows.filter narrow).map f).sum ≤ ((rows.filter wide).map f).sum :=
        ((List.monotone_filter_right rows sub).map f).sum_le_sum fun _ _ => Nat.zero_le _
      refine List.forall_mem_cons.mpr ?_
      cases isWide : wide row with
      | false =>
          have isNarrow : narrow row = false := by
            by_contra other
            rw [sub row (Bool.eq_true_of_not_eq_false other)] at isWide
            cases isWide
          rw [List.filter_cons_of_neg (by rw [isWide]; exact Bool.false_ne_true),
            List.filter_cons_of_neg (by rw [isNarrow]; exact Bool.false_ne_true)] at same
          exact ⟨fun wrong => absurd wrong Bool.false_ne_true, ih counts same⟩
      | true =>
          rw [List.filter_cons_of_pos isWide, List.map_cons, List.sum_cons] at same
          cases isNarrow : narrow row with
          | true =>
              rw [List.filter_cons_of_pos isNarrow, List.map_cons, List.sum_cons] at same
              exact ⟨fun _ => rfl, ih counts (Nat.add_left_cancel same)⟩
          | false =>
              rw [List.filter_cons_of_neg (by rw [isNarrow]; exact Bool.false_ne_true)] at same
              omega

end Totals

section Summary

variable {rollups : Collection UsageRollupDoc} {date now : Int}

theorem ByModel.set_ne_nil (model : String) (entry : ModelTotals) (byModel : ByModel) :
    byModel.set model entry ≠ [] := by
  cases byModel with
  | nil => exact List.cons_ne_nil _ _
  | cons head rest =>
      rw [ByModel.set]
      split <;> exact List.cons_ne_nil _ _

theorem foldl_addModel_eq_nil {byModel : ByModel} {rows : List UsageRollupDoc} :
    rows.foldl addModel byModel = [] ↔ byModel = [] ∧ rows = [] := by
  induction rows generalizing byModel with
  | nil => exact (and_iff_left rfl).symm
  | cons row rows ih =>
      rw [List.foldl_cons, ih]
      constructor
      · exact fun both => absurd both.1 (ByModel.set_ne_nil _ _ _)
      · exact fun both => absurd both.2 (List.cons_ne_nil _ _)

theorem topModels_eq_nil {byModel : ByModel} : topModels byModel = [] ↔ byModel = [] := by
  constructor
  · intro empty
    have length := congrArg List.length empty
    rw [topModels, List.length_take, List.length_mergeSort, List.length_map, List.length_nil] at length
    exact List.length_eq_zero_iff.mp (by omega)
  · rintro rfl
    rw [topModels, List.map_nil, List.mergeSort_nil, List.take_nil]

theorem mem_monthRows {scope : RollupScope} {row : UsageRollupDoc} :
    row ∈ monthRows scope date rollups ↔
      row ∈ rollups.docs ∧ row.scope = scope ∧ InMonth date row.bucket := by
  rw [monthRows, List.mem_filter]
  simp only [decide_eq_true_eq]

/-- The console's prefix fits no row, so it reports an empty month. -/
theorem foldl_summaryRow (four : FourDigitYear date) {rows : List UsageRollupDoc}
    (written : ∀ row ∈ rows, IsRollup row) (totals : Counters × ByModel) :
    rows.foldl (summaryRow (monthBucket date)) totals = totals := by
  induction rows with
  | nil => rfl
  | cons row rows ih =>
      obtain ⟨⟨_, hour, bucket⟩, written⟩ := List.forall_mem_cons.mp written
      have skipped : ((monthBucket date).toList.take 6).isPrefixOf row.bucket.toList = false := by
        rw [bucket, ← Bool.not_eq_true, List.isPrefixOf_iff_prefix]
        exact not_month_prefix four
      rw [List.foldl_cons, summaryRow, if_pos skipped]
      exact ih written

end Summary

section Claims

variable {rollups : Collection UsageRollupDoc} {date now : Int}

/-- The console reports the totals of the month. -/
def SummaryExact (quotaPerUnit : ℚ) (date : Int) (rollups : Collection UsageRollupDoc) : Prop :=
  (usageSummary quotaPerUnit (monthBucket date) rollups).counters =
      ((monthRows .user date rollups).map UsageRollupDoc.counters).sum ∧
    (usageSummary quotaPerUnit (monthBucket date) rollups).topModels =
      topModels ((monthRows .model date rollups).foldl addModel [])

/-- The rollup job reports the totals of the current month. -/
def RollupExact (drained : Drained) (now : Int) (rollups : Collection UsageRollupDoc) : Prop :=
  let report := rollupUsage drained now rollups
  let month := ((monthRows .user now rollups).map UsageRollupDoc.counters).sum
  report.requests = month.requests ∧ report.errors = month.errors ∧ report.quota = month.quota

theorem summaryExact_iff {quotaPerUnit : ℚ} (four : FourDigitYear date)
    (written : ∀ row ∈ rollups.docs, IsRollup row) :
    SummaryExact quotaPerUnit date rollups ↔
      ∀ row ∈ rollups.docs, InMonth date row.bucket → row.scope ≠ .user ∧ row.scope ≠ .model := by
  have empty : (rollups.docs.take 5000).foldl (summaryRow (monthBucket date)) (0, []) = (0, []) :=
    foldl_summaryRow four (fun row mem => written row (List.mem_of_mem_take mem)) _
  have counters : (usageSummary quotaPerUnit (monthBucket date) rollups).counters = 0 := by
    rw [usageSummary, empty]
    rfl
  have models : (usageSummary quotaPerUnit (monthBucket date) rollups).topModels = [] := by
    rw [usageSummary, empty]
    exact topModels_eq_nil.mpr rfl
  rw [SummaryExact, counters, models, eq_comm (a := []), topModels_eq_nil, foldl_addModel_eq_nil]
  constructor
  · rintro ⟨totals, -, noModels⟩ row mem inMonth
    refine ⟨fun user => ?_, fun model => ?_⟩
    · have requests := congrArg Counters.requests totals
      rw [requests_sum] at requests
      have part : row.requests ≤ ((monthRows .user date rollups).map UsageRollupDoc.requests).sum :=
        List.le_sum_of_mem (List.mem_map_of_mem (mem_monthRows.mpr ⟨mem, user, inMonth⟩))
      rw [← requests] at part
      have positive : 1 ≤ row.requests := (written row mem).1
      exact absurd (positive.trans part) (by decide)
    · have listed := mem_monthRows.mpr ⟨mem, model, inMonth⟩
      rw [noModels] at listed
      cases listed
  · intro none_there
    have users : monthRows .user date rollups = [] := by
      refine List.eq_nil_iff_forall_not_mem.mpr fun row listed => ?_
      obtain ⟨mem, user, inMonth⟩ := mem_monthRows.mp listed
      exact (none_there row mem inMonth).1 user
    have models : monthRows .model date rollups = [] := by
      refine List.eq_nil_iff_forall_not_mem.mpr fun row listed => ?_
      obtain ⟨mem, model, inMonth⟩ := mem_monthRows.mp listed
      exact (none_there row mem inMonth).2 model
    rw [users, models]
    exact ⟨rfl, rfl, rfl⟩

theorem rollupExact_iff {drained : Drained} (four : FourDigitYear now)
    (written : ∀ row ∈ rollups.docs, IsRollup row) :
    RollupExact drained now rollups ↔
      ∀ row ∈ rollups.docs, row.scope = .user → InYear now row.bucket → InMonth now row.bucket := by
  classical
  have year (row : UsageRollupDoc) (inYear : InYear now row.bucket) :
      ((monthBucket now).toList.take 4).isPrefixOf row.bucket.toList = true := by
    obtain ⟨hour, bucket, same⟩ := inYear
    rw [List.isPrefixOf_iff_prefix, bucket]
    exact (year_prefix_iff four).mpr same
  have sub (row : UsageRollupDoc)
      (narrow : decide (row.scope = .user ∧ InMonth now row.bucket) = true) :
      (((monthBucket now).toList.take 4).isPrefixOf row.bucket.toList &&
        decide (row.scope = .user)) = true := by
    obtain ⟨user, hour, bucket, same, -⟩ := of_decide_eq_true narrow
    rw [year row ⟨hour, bucket, same⟩, decide_eq_true user]
    rfl
  simp only [RollupExact, rollupUsage, List.filter_filter, requests_sum, errors_sum, quota_sum]
  constructor
  · rintro ⟨requests, -, -⟩ row mem user inYear
    have all := all_of_sum_filter_eq sub (fun row mem => (written row mem).1) requests row mem
    rw [year row inYear, decide_eq_true user] at all
    exact (of_decide_eq_true (all rfl)).2
  · intro inMonth
    have same : (rollups.docs.filter fun row =>
        ((monthBucket now).toList.take 4).isPrefixOf row.bucket.toList &&
          decide (row.scope = .user)) = monthRows .user now rollups := by
      refine List.filter_congr fun row mem => Bool.eq_iff_iff.mpr ⟨fun wide => ?_, sub row⟩
      obtain ⟨starts, user⟩ := Bool.and_eq_true_iff.mp wide
      obtain ⟨-, hour, bucket⟩ := written row mem
      rw [List.isPrefixOf_iff_prefix, bucket, year_prefix_iff four] at starts
      exact decide_eq_true ⟨of_decide_eq_true user,
        inMonth row mem (of_decide_eq_true user) ⟨hour, bucket, starts⟩⟩
    rw [same]
    exact ⟨rfl, rfl, rfl⟩

/-- Both reports are right just where the month has no row of a user or a model, and no user
has a row of the same year in another month. -/
theorem monthly_totals_iff (quotaPerUnit : ℚ) (drained : Drained)
    (written : ∀ row ∈ rollups.docs, IsRollup row) (month : FourDigitYear date)
    (current : FourDigitYear now) :
    SummaryExact quotaPerUnit date rollups ∧ RollupExact drained now rollups ↔
      (∀ row ∈ rollups.docs, InMonth date row.bucket →
        row.scope ≠ .user ∧ row.scope ≠ .model) ∧
      ∀ row ∈ rollups.docs, row.scope = .user → InYear now row.bucket →
        InMonth now row.bucket :=
  and_congr (summaryExact_iff month written) (rollupExact_iff current written)

/-- The totals after one request in the last millisecond of August 2026. -/
def augustRollups : Collection UsageRollupDoc :=
  incrementRollups (UsageSystem.recordedAt 5 .success 1788220799999) 1788220799999 Collection.empty

theorem isRollup_augustRollups : ∀ row ∈ augustRollups.docs, IsRollup row :=
  isRollup_incrementRollups _ _ fun _ mem => absurd mem List.not_mem_nil

theorem bucket_augustRollups :
    ∀ row ∈ augustRollups.docs, row.bucket = hourBucket 1788220799999 := by decide +kernel

theorem monthly_totals_iff_august :
    SummaryExact 500000 1798761600000 augustRollups ∧
      RollupExact ⟨1, 0⟩ 1788220799999 augustRollups := by
  refine (monthly_totals_iff 500000 ⟨1, 0⟩ isRollup_augustRollups (by decide) (by decide)).mpr
    ⟨fun row mem inMonth => ?_, fun row mem _ _ => ?_⟩
  · obtain ⟨hour, bucket, year, -⟩ := inMonth
    rw [bucket_augustRollups row mem] at bucket
    have august : FourDigitYear 1788220799999 := by decide
    have same := (year_prefix_iff august).mpr rfl
    rw [bucket, year_prefix_iff august, year] at same
    exact absurd same (by decide)
  · exact ⟨1788220799999, bucket_augustRollups row mem, rfl, rfl⟩

/-- The console reports nothing for the month of the request. -/
theorem august_reported_empty :
    ¬(SummaryExact 500000 1788220799999 augustRollups ∧
      RollupExact ⟨1, 0⟩ 1788220799999 augustRollups) := by
  rintro ⟨⟨totals, -⟩, -⟩
  have requests := congrArg Counters.requests totals
  have none_seen :
      (usageSummary 500000 (monthBucket 1788220799999) augustRollups).counters.requests = 0 := by
    decide +kernel
  have user : ∃ row ∈ augustRollups.docs, row.scope = .user ∧ row.requests = 1 := by
    decide +kernel
  obtain ⟨row, mem, scope, one⟩ := user
  have part := List.le_sum_of_mem (List.mem_map_of_mem (f := UsageRollupDoc.requests)
    (mem_monthRows.mpr ⟨mem, scope, 1788220799999, bucket_augustRollups row mem, rfl, rfl⟩))
  rw [none_seen, requests_sum] at requests
  rw [← requests, one] at part
  exact absurd part (by decide)

end Claims

end Gateway
