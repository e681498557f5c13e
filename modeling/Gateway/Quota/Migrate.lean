import Gateway.Quota.Ledger
import Gateway.Lib.Machine
import Mathlib.Logic.Function.Basic

/-!
The upgrade of balances to the ledger from a reviewed plan.

The whole plan is checked before anything is written, and every row of it is one
transaction, so a run may be cut short anywhere and another one may follow. In
between the accounts that were already upgraded are in use.
-/

namespace Gateway.Migration

section Plan

inductive AccountKind where
  | user
  | token
deriving DecidableEq, Repr

def AccountKind.text : AccountKind → String
  | .user => "user"
  | .token => "token"

/-- `null` stands for a balance that was not to be had. -/
structure BalanceRow where
  kind : String
  id : String
  remaining : Option JsNumber
  usedQuota : JsNumber
  previousMongoQuota : JsNumber

/-- `balances` is nothing where the plan has no array. -/
structure BalancePlan where
  version : JsNumber
  reviewed : Bool
  balances : Option (List BalanceRow)

inductive MigrationError where
  | thrown (message : String)
  | store
deriving DecidableEq, Repr

/-- `Number.isSafeInteger`, with the integer. -/
def safeInteger : JsNumber → Option Int
  | .finite q => if q.den = 1 ∧ isSafeInteger q.num = true then some q.num else none
  | _ => none

/-- A row that passed every check. -/
structure CheckedRow where
  kind : AccountKind
  id : String
  remaining : Int
  usedQuota : Int
  previousMongoQuota : Int
  named : id ≠ ""
  nonneg : 0 ≤ usedQuota
deriving DecidableEq

def CheckedRow.key (row : CheckedRow) : AccountKind × String := (row.kind, row.id)

/-- `["user", "token"].includes(kind)` -/
def kindOf (kind : String) : Option AccountKind :=
  if kind = "user" then some .user else if kind = "token" then some .token else none

def checkRow (row : BalanceRow) : Option CheckedRow := do
  let kind ← kindOf row.kind
  let remaining ← row.remaining.bind safeInteger
  let usedQuota ← safeInteger row.usedQuota
  let previousMongoQuota ← safeInteger row.previousMongoQuota
  if named : row.id ≠ "" then
    if nonneg : 0 ≤ usedQuota then
      some ⟨kind, row.id, remaining, usedQuota, previousMongoQuota, named, nonneg⟩
    else none
  else none

def rowKey (row : BalanceRow) : String := row.kind ++ ":" ++ row.id

def invalidRow : MigrationError := .thrown "invalid, duplicate, or unreconciled balance row"

def checkRows : List String → List BalanceRow → Except MigrationError (List CheckedRow)
  | _, [] => .ok []
  | seen, row :: rows =>
      match checkRow row with
      | none => .error invalidRow
      | some checked =>
          if rowKey row ∈ seen then .error invalidRow
          else (checkRows (rowKey row :: seen) rows).map (checked :: ·)

def checkPlan (plan : BalancePlan) : Except MigrationError (List CheckedRow) :=
  if plan.version ≠ .ofInt 2 ∨ plan.reviewed = false then
    .error (.thrown "a reviewed version-2 balance plan is required")
  else
    match plan.balances with
    | none => .error (.thrown "a reviewed version-2 balance plan is required")
    | some balances => checkRows [] balances

end Plan

section Apply

variable {α : Type}

/-- A user or a token, as far as the upgrade writes it. -/
structure Account (α : Type) where
  id : String
  quota : JsNumber
  usedQuota : JsNumber
  legacyUsedQuota : Option JsNumber
  quotaLedgerVersion : Option Nat
  updatedAt : Int
  rest : α

instance : Document (Account α) String := ⟨Account.id⟩

/-- The collections of users and of tokens. -/
abbrev AccountDb (α : Type) := AccountKind → Collection (Account α)

def AccountDb.find (db : AccountDb α) (key : AccountKind × String) : Option (Account α) :=
  (db key.1).find key.2

/-- The account is there and on the ledger. -/
def AccountDb.isMigrated (db : AccountDb α) (key : AccountKind × String) : Bool :=
  (db.find key).any fun account => isUpgraded account.quotaLedgerVersion

def setBalance (row : CheckedRow) (now : Int) : Update (Account α) where
  apply account :=
    { account with
      quota := .ofInt row.remaining
      usedQuota := .ofInt row.usedQuota
      quotaLedgerVersion := some QUOTA_LEDGER_VERSION
      legacyUsedQuota :=
        if row.kind = .user then some (.ofInt row.usedQuota) else account.legacyUsedQuota
      updatedAt := now }
  key_apply _ := rfl

/-- The body of the transaction of one row. -/
def applyRow (row : CheckedRow) (now : Int) (db : AccountDb α) :
    Except MigrationError Nat × AccountDb α :=
  match (db row.kind).find row.id with
  | none => (.error (.thrown "a planned account or key no longer exists"), db)
  | some current =>
      if isUpgraded current.quotaLedgerVersion then (.ok 0, db)
      else if current.quota ≠ .ofInt row.previousMongoQuota then
        (.error (.thrown "balance changed after export; stop traffic and re-export"), db)
      else
        (.ok 1,
          Function.update db row.kind ((db row.kind).modify row.id (setBalance row now)))

/-- Use of accounts that are on the ledger: they change and stay, the others are left alone. -/
structure Traffic (α : Type) where
  apply : AccountDb α → AccountDb α
  untouched : ∀ db key, db.isMigrated key = false → (apply db).find key = db.find key
  kept : ∀ db key, db.isMigrated key = true → (apply db).isMigrated key = true

/-- The accounts, and the run in progress: the rows it has not applied and how many it has. -/
structure MigrationState (α : Type) where
  db : AccountDb α
  run : Option (List CheckedRow × Nat)

inductive MigrationAction (α : Type) where
  | start
  | row (commit : Commit) (now : Int)
  | crash
  | traffic (traffic : Traffic α)

inductive MigrationReply where
  | running
  | idle
  | returned (applied : Nat)
  | threw (error : MigrationError)

/-- The loop goes on, or returns when no row is left. -/
def nextRow (rows : List CheckedRow) (applied : Nat) (db : AccountDb α) :
    MigrationState α × MigrationReply :=
  match rows with
  | [] => (⟨db, none⟩, .returned applied)
  | row :: rest => (⟨db, some (row :: rest, applied)⟩, .running)

/-- `applyBalancePlan` taken apart: its checks, and one transaction after the other. -/
def migrationStep (plan : BalancePlan) (s : MigrationState α) :
    MigrationAction α → MigrationState α × MigrationReply
  | .start =>
      match checkPlan plan with
      | .error error => (⟨s.db, none⟩, .threw error)
      | .ok rows => nextRow rows 0 s.db
  | .row commit now =>
      match s.run with
      | none => (s, .idle)
      | some ([], applied) => nextRow [] applied s.db
      | some (row :: rest, applied) =>
          match Transaction.atomically .store commit (applyRow row now) s.db with
          | (.error error, db) => (⟨db, none⟩, .threw error)
          | (.ok count, db) => nextRow rest (applied + count) db
  | .crash => (⟨s.db, none⟩, .idle)
  | .traffic traffic => (⟨traffic.apply s.db, s.run⟩, .idle)

end Apply

section Checks

/-- A row that an operator reconciled. -/
structure BalanceRow.Reconciled (row : BalanceRow) : Prop where
  kind : row.kind = "user" ∨ row.kind = "token"
  named : row.id ≠ ""
  remaining : ∃ n, isSafeInteger n = true ∧ row.remaining = some (.ofInt n)
  usedQuota : ∃ n, isSafeInteger n = true ∧ 0 ≤ n ∧ row.usedQuota = .ofInt n
  previous : ∃ n, isSafeInteger n = true ∧ row.previousMongoQuota = .ofInt n

/-- A reviewed plan in which every row is reconciled and no account is there twice. -/
def BalancePlan.Sound (plan : BalancePlan) : Prop :=
  plan.version = .ofInt 2 ∧ plan.reviewed = true ∧ ∃ balances, plan.balances = some balances ∧
    (∀ row ∈ balances, row.Reconciled) ∧ (balances.map fun row => (row.kind, row.id)).Nodup

theorem safeInteger_eq_some {value : JsNumber} {n : Int} :
    safeInteger value = some n ↔ isSafeInteger n = true ∧ value = .ofInt n := by
  cases value with
  | finite q =>
      rw [safeInteger, JsNumber.ofInt]
      constructor
      · intro h
        split at h
        · next whole =>
            cases h
            refine ⟨whole.2, congrArg JsNumber.finite ?_⟩
            exact (Rat.coe_int_num_of_den_eq_one whole.1).symm
        · cases h
      · rintro ⟨safe, same⟩
        cases same
        rw [if_pos ⟨Rat.den_intCast n, by rwa [Rat.num_intCast]⟩, Rat.num_intCast]
  | nan => simp [safeInteger, JsNumber.ofInt]
  | infinity => simp [safeInteger, JsNumber.ofInt]
  | negInfinity => simp [safeInteger, JsNumber.ofInt]

theorem kindOf_isSome {kind : String} :
    (∃ k, kindOf kind = some k) ↔ kind = "user" ∨ kind = "token" := by
  rw [kindOf]
  by_cases user : kind = "user"
  · simp [user]
  · by_cases token : kind = "token"
    · simp [token]
    · simp [user, token]

theorem text_of_kindOf {kind : String} {k : AccountKind} (h : kindOf kind = some k) :
    kind = k.text := by
  rw [kindOf] at h
  split at h
  · next user =>
      cases h
      exact user
  · split at h
    · next token =>
        cases h
        exact token
    · cases h

theorem checkRow_eq_some {row : BalanceRow} {checked : CheckedRow}
    (h : checkRow row = some checked) :
    row.Reconciled ∧ row.kind = checked.kind.text ∧ row.id = checked.id := by
  simp only [checkRow, Option.bind_eq_bind, Option.bind_eq_some_iff] at h
  obtain ⟨kind, kind_eq, remaining, ⟨value, remaining_eq, whole⟩, used, used_eq, previous,
    previous_eq, checks⟩ := h
  split at checks
  · next named =>
      split at checks
      · next nonneg =>
          cases checks
          obtain ⟨remaining_safe, rfl⟩ := safeInteger_eq_some.mp whole
          obtain ⟨used_safe, used_int⟩ := safeInteger_eq_some.mp used_eq
          obtain ⟨previous_safe, previous_int⟩ := safeInteger_eq_some.mp previous_eq
          refine ⟨⟨kindOf_isSome.mp ⟨kind, kind_eq⟩, named, ⟨_, remaining_safe, remaining_eq⟩,
            ⟨_, used_safe, nonneg, used_int⟩, ⟨_, previous_safe, previous_int⟩⟩, ?_, rfl⟩
          exact text_of_kindOf kind_eq
      · cases checks
  · cases checks

theorem checkRow_of_reconciled {row : BalanceRow} (reconciled : row.Reconciled) :
    ∃ checked, checkRow row = some checked := by
  obtain ⟨kind, kind_eq⟩ := kindOf_isSome.mpr reconciled.kind
  obtain ⟨remaining, remaining_safe, remaining_eq⟩ := reconciled.remaining
  obtain ⟨used, used_safe, nonneg, used_eq⟩ := reconciled.usedQuota
  obtain ⟨previous, previous_safe, previous_eq⟩ := reconciled.previous
  refine ⟨⟨kind, row.id, remaining, used, previous, reconciled.named, nonneg⟩, ?_⟩
  simp [checkRow, kind_eq, remaining_eq, used_eq, previous_eq, reconciled.named, nonneg,
    safeInteger_eq_some.mpr ⟨remaining_safe, rfl⟩, safeInteger_eq_some.mpr ⟨used_safe, rfl⟩,
    safeInteger_eq_some.mpr ⟨previous_safe, rfl⟩]

/-- Keys of reconciled rows are told apart by kind and id. -/
theorem rowKey_inj {row other : BalanceRow} (first : row.Reconciled) (second : other.Reconciled) :
    rowKey row = rowKey other ↔ (row.kind, row.id) = (other.kind, other.id) := by
  rw [rowKey, rowKey, Prod.mk.injEq]
  constructor
  · intro same
    have chars := congrArg String.toList same
    cases first.kind with
    | inl user =>
        cases second.kind with
        | inl user' =>
            rw [user, user'] at chars ⊢
            exact ⟨rfl, String.toList_injective (by simpa using chars)⟩
        | inr token =>
            rw [user, token] at chars
            simp at chars
    | inr token =>
        cases second.kind with
        | inl user =>
            rw [token, user] at chars
            simp at chars
        | inr token' =>
            rw [token, token'] at chars ⊢
            exact ⟨rfl, String.toList_injective (by simpa using chars)⟩
  · rintro ⟨kind, id⟩
    rw [kind, id]

/-- The loop of checks accepts exactly the reconciled rows without repetition. -/
theorem checkRows_isOk (seen rows : List BalanceRow) (reconciled : ∀ row ∈ seen, row.Reconciled) :
    (∃ checked, checkRows (seen.map rowKey) rows = .ok checked) ↔
      (∀ row ∈ rows, row.Reconciled) ∧ (rows.map fun row => (row.kind, row.id)).Nodup ∧
        ∀ row ∈ rows, (row.kind, row.id) ∉ seen.map fun row => (row.kind, row.id) := by
  induction rows generalizing seen with
  | nil => simp [checkRows]
  | cons row rows ih =>
      rw [checkRows]
      cases check : checkRow row with
      | none =>
          have failed : ¬row.Reconciled := by
            intro fine
            obtain ⟨checked, same⟩ := checkRow_of_reconciled fine
            rw [check] at same
            cases same
          simp [failed]
      | some checked =>
          have fine := (checkRow_eq_some check).1
          have known : rowKey row ∈ seen.map rowKey ↔
              (row.kind, row.id) ∈ seen.map fun row => (row.kind, row.id) := by
            rw [List.mem_map, List.mem_map]
            refine exists_congr fun other => and_congr_right fun mem => ?_
            exact rowKey_inj (reconciled other mem) fine
          have rest := ih (row :: seen) (by
            intro other mem
            cases mem with
            | head => exact fine
            | tail _ mem => exact reconciled other mem)
          dsimp only
          by_cases repeated : rowKey row ∈ seen.map rowKey
          · rw [if_pos repeated]
            have there := known.mp repeated
            simp only [reduceCtorEq, exists_false, false_iff, not_and]
            intro _ _ fresh
            exact fresh row List.mem_cons_self there
          · rw [if_neg repeated]
            have fresh := mt known.mpr repeated
            have mapped : (∃ all, (checkRows (rowKey row :: seen.map rowKey) rows).map
                (checked :: ·) = .ok all) ↔
                ∃ more, checkRows ((row :: seen).map rowKey) rows = .ok more := by
              rw [List.map_cons]
              cases checkRows (rowKey row :: seen.map rowKey) rows with
              | error error => simp [Except.map]
              | ok more => simp [Except.map]
            rw [mapped, rest, List.forall_mem_cons, List.map_cons, List.map_cons, List.nodup_cons,
              List.forall_mem_cons]
            simp only [List.mem_cons, not_or]
            constructor
            · rintro ⟨all, distinct, others⟩
              refine ⟨⟨fine, all⟩, ⟨?_, distinct⟩, fresh, fun other mem => (others other mem).2⟩
              intro twice
              obtain ⟨other, mem, same⟩ := List.mem_map.mp twice
              exact (others other mem).1 same
            · rintro ⟨⟨-, all⟩, ⟨once, distinct⟩, -, others⟩
              refine ⟨all, distinct, fun other mem => ⟨fun same => once ?_, others other mem⟩⟩
              exact List.mem_map.mpr ⟨other, mem, same⟩

/-- A plan passes its checks exactly if it is sound. -/
theorem checkPlan_isOk (plan : BalancePlan) : (∃ rows, checkPlan plan = .ok rows) ↔ plan.Sound := by
  rw [checkPlan, BalancePlan.Sound]
  split
  · next refused =>
      simp only [reduceCtorEq, exists_false, false_iff]
      rintro ⟨version, reviewed, -⟩
      cases refused with
      | inl other => exact other version
      | inr unread => rw [reviewed] at unread; cases unread
  · next accepted =>
      obtain ⟨version, reviewed⟩ := not_or.mp accepted
      rw [not_not] at version
      rw [Bool.not_eq_false] at reviewed
      cases listed : plan.balances with
      | none => simp
      | some balances =>
          have rows := checkRows_isOk [] balances fun row mem => absurd mem List.not_mem_nil
          simp only [List.map_nil] at rows
          simp [version, reviewed, rows]

end Checks

section Runs

variable {α : Type} {plan : BalancePlan}

/-- A row of a plan that passed every check. -/
def Planned (plan : BalancePlan) (row : CheckedRow) : Prop :=
  ∃ rows, checkPlan plan = .ok rows ∧ row ∈ rows

/-- The account of the row, not yet on the ledger and with the balance that was exported, gets
the planned values; nothing else changes. -/
def Applied (row : CheckedRow) (before after : AccountDb α) : Prop :=
  ∃ current now, before.find row.key = some current ∧
    isUpgraded current.quotaLedgerVersion = false ∧ current.quota = .ofInt row.previousMongoQuota ∧
    ∀ key, after.find key =
      if key = row.key then some ((setBalance row now).apply current) else before.find key

theorem find_update {row : CheckedRow} (now : Int) {db : AccountDb α} {current : Account α}
    (found : db.find row.key = some current) (key : AccountKind × String) :
    AccountDb.find (Function.update db row.kind ((db row.kind).modify row.id (setBalance row now)))
        key =
      if key = row.key then some ((setBalance row now).apply current) else db.find key := by
  obtain ⟨kind, id⟩ := key
  have stored : (db row.kind).find row.id = some current := found
  rw [AccountDb.find, CheckedRow.key]
  by_cases same : kind = row.kind
  · rw [same, Function.update_self, Collection.find_modify, stored, Option.map_some]
    by_cases here : id = row.id
    · rw [here, if_pos rfl, if_pos rfl]
    · rw [if_neg here, if_neg fun h => here (congrArg Prod.snd h)]
      rfl
  · rw [Function.update_of_ne same, if_neg fun h => same (congrArg Prod.fst h)]
    rfl

theorem isMigrated_of_applied {row : CheckedRow} {before after : AccountDb α}
    (applied : Applied row before after) : after.isMigrated row.key = true := by
  obtain ⟨current, now, -, -, -, values⟩ := applied
  rw [AccountDb.isMigrated, values row.key, if_pos rfl]
  rfl

theorem applyRow_ok {row : CheckedRow} {now : Int} {before after : AccountDb α} {count : Nat}
    (ok : applyRow row now before = (.ok count, after)) :
    (after = before ∨ Applied row before after) ∧ after.isMigrated row.key = true := by
  rw [applyRow] at ok
  cases found : (before row.kind).find row.id with
  | none =>
      rw [found] at ok
      cases ok
  | some current =>
      rw [found] at ok
      dsimp only at ok
      split at ok
      · next upgraded =>
          cases ok
          refine ⟨.inl rfl, ?_⟩
          change Option.any _ ((before row.kind).find row.id) = true
          rw [found]
          exact upgraded
      · next legacy =>
          split at ok
          · cases ok
          · next same =>
              cases ok
              have applied : Applied row before (Function.update before row.kind
                  ((before row.kind).modify row.id (setBalance row now))) :=
                ⟨current, now, found, Bool.not_eq_true _ ▸ legacy, not_not.mp same,
                  find_update now found⟩
              exact ⟨.inr applied, isMigrated_of_applied applied⟩

/-- What the transaction of one row does, whatever becomes of its commit. -/
theorem atomically_applyRow (row : CheckedRow) (commit : Commit) (now : Int) (db : AccountDb α) :
    ((Transaction.atomically .store commit (applyRow row now) db).2 = db ∨
        Applied row db (Transaction.atomically .store commit (applyRow row now) db).2) ∧
      ∀ count, (Transaction.atomically .store commit (applyRow row now) db).1 = .ok count →
        (Transaction.atomically .store commit (applyRow row now) db).2.isMigrated row.key =
          true := by
  cases Transaction.atomically_cases .store commit (applyRow row now) db with
  | inl undone =>
      obtain ⟨same, error, threw⟩ := undone
      refine ⟨.inl same, fun count ok => ?_⟩
      rw [threw] at ok
      cases ok
  | inr done =>
      obtain ⟨count, returned, -⟩ := done
      have spec := applyRow_ok returned
      exact ⟨spec.1, fun _ _ => spec.2⟩

theorem nextRow_db (rows : List CheckedRow) (applied : Nat) (db : AccountDb α) :
    (nextRow rows applied db).1.db = db := by
  cases rows with
  | nil => rfl
  | cons row rest => rfl

/-- The rows before those that a run still has to apply are on the ledger. -/
def Progress (plan : BalancePlan) (s : MigrationState α) : Prop :=
  ∀ rest applied, s.run = some (rest, applied) → ∃ done, checkPlan plan = .ok (done ++ rest) ∧
    ∀ row ∈ done, s.db.isMigrated row.key = true

/-- A run that returned left every planned account on the ledger. -/
def Complete (plan : BalancePlan) (next : MigrationState α × MigrationReply) : Prop :=
  ∀ applied, next.2 = .returned applied →
    ∀ row, Planned plan row → next.1.db.isMigrated row.key = true

theorem nextRow_progress (done : List CheckedRow) {rest : List CheckedRow} {applied : Nat}
    {db : AccountDb α}
    (checked : checkPlan plan = .ok (done ++ rest))
    (migrated : ∀ row ∈ done, db.isMigrated row.key = true) :
    Progress plan (nextRow rest applied db).1 ∧ Complete plan (nextRow rest applied db) := by
  cases rest with
  | nil =>
      refine ⟨fun _ _ running => (by cases running), fun _ _ row planned => ?_⟩
      obtain ⟨rows, same, mem⟩ := planned
      rw [checked, List.append_nil] at same
      cases same
      exact migrated row mem
  | cons row rest =>
      refine ⟨fun _ _ running => ?_, fun _ returned => (by cases returned)⟩
      cases running
      exact ⟨done, checked, migrated⟩

/-- What one step of the migration does to the accounts. -/
def Wrote (plan : BalancePlan) (before : AccountDb α) (action : MigrationAction α)
    (after : AccountDb α) : Prop :=
  after = before ∨ (∃ traffic, action = .traffic traffic ∧ after = traffic.apply before) ∨
    ∃ row, Planned plan row ∧ Applied row before after

theorem isMigrated_wrote {before after : AccountDb α} {action : MigrationAction α}
    (wrote : Wrote plan before action after) {key : AccountKind × String}
    (migrated : before.isMigrated key = true) : after.isMigrated key = true := by
  cases wrote with
  | inl same => rwa [same]
  | inr written =>
      cases written with
      | inl used =>
          obtain ⟨traffic, -, rfl⟩ := used
          exact traffic.kept before key migrated
      | inr planned =>
          obtain ⟨row, -, applied⟩ := planned
          by_cases same : key = row.key
          · rw [same]
            exact isMigrated_of_applied applied
          · obtain ⟨current, now, -, -, -, values⟩ := applied
            rw [AccountDb.isMigrated, values key, if_neg same]
            exact migrated

theorem migrationStep_spec (s : MigrationState α) (action : MigrationAction α)
    (progress : Progress plan s) :
    Wrote plan s.db action (migrationStep plan s action).1.db ∧
      Progress plan (migrationStep plan s action).1 ∧
      Complete plan (migrationStep plan s action) := by
  have idle (db : AccountDb α) : Progress plan ⟨db, none⟩ := fun _ _ running => by cases running
  cases action with
  | start =>
      rw [migrationStep]
      cases checked : checkPlan plan with
      | error error => exact ⟨.inl rfl, idle _, fun _ returned => by cases returned⟩
      | ok rows =>
          refine ⟨.inl (nextRow_db _ _ _), ?_⟩
          exact nextRow_progress [] checked fun row mem => absurd mem List.not_mem_nil
  | crash => exact ⟨.inl rfl, idle _, fun _ returned => by cases returned⟩
  | traffic traffic =>
      refine ⟨.inr (.inl ⟨traffic, rfl, rfl⟩), fun rest applied running => ?_,
        fun _ returned => by cases returned⟩
      obtain ⟨done, checked, migrated⟩ := progress rest applied running
      exact ⟨done, checked, fun row mem => traffic.kept _ _ (migrated row mem)⟩
  | row commit now =>
      rw [migrationStep]
      cases running : s.run with
      | none => exact ⟨.inl rfl, progress, fun _ returned => by cases returned⟩
      | some run =>
          obtain ⟨rest, applied⟩ := run
          obtain ⟨done, checked, migrated⟩ := progress rest applied running
          cases rest with
          | nil => exact ⟨.inl (nextRow_db _ _ _), nextRow_progress done checked migrated⟩
          | cons row rest =>
              have planned : Planned plan row :=
                ⟨_, checked, List.mem_append_right _ List.mem_cons_self⟩
              have spec := atomically_applyRow row commit now s.db
              dsimp only
              cases outcome : Transaction.atomically .store commit (applyRow row now) s.db with
              | mk result db =>
                  rw [outcome] at spec
                  have wrote : Wrote plan s.db (.row commit now) db := by
                    cases spec.1 with
                    | inl same => exact .inl same
                    | inr applied => exact .inr (.inr ⟨row, planned, applied⟩)
                  cases result with
                  | error error =>
                      exact ⟨wrote, idle _, fun _ returned => by cases returned⟩
                  | ok count =>
                      refine ⟨?_, ?_⟩
                      · dsimp only
                        rw [nextRow_db]
                        exact wrote
                      · apply nextRow_progress (done ++ [row])
                        · rw [checked, List.append_assoc, List.singleton_append]
                        · intro other mem
                          cases List.mem_append.mp mem with
                          | inl before => exact isMigrated_wrote wrote (migrated other before)
                          | inr last =>
                              rw [List.mem_singleton.mp last]
                              exact spec.2 count rfl

/-- The event takes the account under a key onto the ledger. -/
def sets (key : AccountKind × String)
    (e : Machine.Event (MigrationState α) (MigrationAction α) MigrationReply) : Bool :=
  !e.before.db.isMigrated key && e.after.db.isMigrated key

theorem initial_progress (db : AccountDb α) : Progress plan ⟨db, none⟩ :=
  fun _ _ running => by cases running

theorem countP_sets (db : AccountDb α) (actions : List (MigrationAction α))
    (key : AccountKind × String) :
    (Machine.trace (migrationStep plan) ⟨db, none⟩ actions).countP (sets key) =
      if db.isMigrated key = false ∧
        (Machine.run (migrationStep plan) ⟨db, none⟩ actions).db.isMigrated key = true then 1
      else 0 := by
  apply Machine.trace_countP_rise (I := Progress plan) (fun s => s.db.isMigrated key)
  · exact fun s action progress => (migrationStep_spec s action progress).2.1
  · exact fun s action progress => isMigrated_wrote (migrationStep_spec s action progress).1
  · exact initial_progress db

/-- Every step of a history, and what the history returned, as one step sees it. -/
theorem wrote_of_mem_trace {db : AccountDb α} {actions : List (MigrationAction α)}
    {e : Machine.Event (MigrationState α) (MigrationAction α) MigrationReply}
    (mem : e ∈ Machine.trace (migrationStep plan) ⟨db, none⟩ actions) :
    Wrote plan e.before.db e.action e.after.db ∧ Complete plan (e.after, e.reply) := by
  obtain ⟨stepped, before, reached⟩ := Machine.mem_trace mem
  have progress : Progress plan e.before := by
    rw [reached]
    exact Machine.run_invariant (I := Progress plan)
      (fun s action progress => (migrationStep_spec s action progress).2.1)
      (initial_progress db) before
  have spec := migrationStep_spec e.before e.action progress
  rw [stepped] at spec
  exact ⟨spec.1, spec.2.2⟩

theorem isMigrated_later {db : AccountDb α} {actions : List (MigrationAction α)}
    {e : Machine.Event (MigrationState α) (MigrationAction α) MigrationReply}
    (mem : e ∈ Machine.trace (migrationStep plan) ⟨db, none⟩ actions)
    {key : AccountKind × String} (migrated : e.after.db.isMigrated key = true) :
    (Machine.run (migrationStep plan) ⟨db, none⟩ actions).db.isMigrated key = true := by
  obtain ⟨stepped, before, reached⟩ := Machine.mem_trace mem
  have progress : Progress plan e.after := by
    have there := Machine.run_invariant (I := Progress plan)
      (fun s action progress => (migrationStep_spec s action progress).2.1)
      (initial_progress db) (before ++ [e.action])
    rw [Machine.run_append, ← reached, Machine.run_cons, stepped] at there
    exact there
  obtain ⟨post, rest⟩ := Machine.run_of_mem_trace mem
  rw [rest]
  have kept := Machine.run_invariant
    (I := fun s : MigrationState α => Progress plan s ∧ s.db.isMigrated key = true)
    (fun s action h => ⟨(migrationStep_spec s action h.1).2.1,
      isMigrated_wrote (migrationStep_spec s action h.1).1 h.2⟩) ⟨progress, migrated⟩ post
  exact kept.2

/-- Runs of the migration may be cut short after any row and follow one another, with accounts
that are on the ledger in use. Every step leaves the accounts alone or takes one of them to its
planned values, each at most once; once a run returned, exactly once; and nothing is written for a
plan that is not sound. -/
theorem balance_plan_resumable (plan : BalancePlan) (db : AccountDb α)
    (actions : List (MigrationAction α)) :
    (∀ e ∈ Machine.trace (migrationStep plan) ⟨db, none⟩ actions,
      Wrote plan e.before.db e.action e.after.db) ∧
    (∀ key, (Machine.trace (migrationStep plan) ⟨db, none⟩ actions).countP (sets key) ≤ 1) ∧
    (∀ e ∈ Machine.trace (migrationStep plan) ⟨db, none⟩ actions, ∀ applied,
      e.reply = .returned applied → ∀ row, Planned plan row → db.isMigrated row.key = false →
        (Machine.trace (migrationStep plan) ⟨db, none⟩ actions).countP (sets row.key) = 1) ∧
    (¬plan.Sound → ∀ e ∈ Machine.trace (migrationStep plan) ⟨db, none⟩ actions,
      (∀ traffic, e.action ≠ .traffic traffic) → e.after.db = e.before.db) := by
  refine ⟨fun e mem => (wrote_of_mem_trace mem).1, fun key => ?_, ?_, ?_⟩
  · rw [countP_sets]
    split
    · exact Nat.le_refl 1
    · exact Nat.zero_le 1
  · intro e mem applied returned row planned legacy
    have migrated := (wrote_of_mem_trace mem).2 applied returned row planned
    rw [countP_sets, if_pos ⟨legacy, isMigrated_later mem migrated⟩]
  · intro unsound e mem own
    cases (wrote_of_mem_trace mem).1 with
    | inl same => exact same
    | inr wrote =>
        cases wrote with
        | inl used =>
            obtain ⟨traffic, action, -⟩ := used
            exact absurd action (own traffic)
        | inr planned =>
            obtain ⟨row, ⟨rows, checked, -⟩, -⟩ := planned
            exact absurd ((checkPlan_isOk plan).mp ⟨rows, checked⟩) unsound

/-- A plan for one user and one token, and a run that stops in between. -/
def twoRows : BalancePlan :=
  ⟨.ofInt 2, true, some [⟨"user", "a", some (.ofInt 5), .ofInt 1, .ofInt 7⟩,
    ⟨"token", "a", some (.ofInt 3), .ofInt 0, .ofInt 3⟩]⟩

def twoAccounts : AccountDb Unit
  | .user => Collection.insertMany .empty [⟨"a", .ofInt 7, .ofInt 0, none, none, 0, ()⟩]
  | .token => Collection.insertMany .empty [⟨"a", .ofInt 3, .ofInt 0, none, none, 0, ()⟩]

example :
    (Machine.trace (migrationStep twoRows) ⟨twoAccounts, none⟩
      [.start, .row .unacknowledged 1, .start, .row .committed 2, .row .committed 3]).countP
        (sets (.user, "a")) = 1 := by
  decide +kernel

end Runs

end Gateway.Migration
