import Gateway.Redis.MongoRuns

/-!
The in-process twin next to the coordinator.

Both are compared with a Redis. A list that is emptied stays under its key in the
process, where Redis and the coordinator remove the key, and an index that is more
than a length before the start counts from the end once more.
-/

namespace Gateway.Redis

open Mongo

section Slices

/-- An index of `slice` that is negative after it has been counted from the end. -/
def wraps (length : Nat) (index : Int) : Bool :=
  decide (-(2 * length : Int) < index ∧ index < -(length : Int))

/-- The slice of the process starts and ends where the range of the coordinator does, or
both are empty. -/
def Clear (length : Nat) (start stop : Int) : Prop :=
  (wraps length start = false ∧ wraps length (stop + 1) = false) ∨
    (Mongo.range length start stop).2 < (Mongo.range length start stop).1 ∧
      sliceIndex length (if stop < 0 then length + stop + 1 else stop + 1) ≤
        sliceIndex length (if start < 0 then length + start else start)

instance decidableClear (length : Nat) (start stop : Int) : Decidable (Clear length start stop) :=
  inferInstanceAs (Decidable (_ ∨ _))

theorem sliceIndex_eq_min {length : Nat} {index : Int}
    (inside : ¬ (index < 0 ∧ 0 < length + index)) :
    sliceIndex length index = min index.toNat length := by
  rw [sliceIndex]
  by_cases negative : index < 0
  · rw [if_pos negative]
    omega
  · rw [if_neg negative]

theorem sliceRange_eq_range {values : List Datum} {start stop : Int}
    (clear : Clear values.length start stop) :
    sliceRange values start stop = Server.range values start stop := by
  let first := if start < 0 then values.length + start else start
  let last := if stop < 0 then values.length + stop + 1 else stop + 1
  have memory : sliceRange values start stop = (values.take (sliceIndex values.length last)).drop
      (sliceIndex values.length first) := rfl
  have server : Server.range values start stop = (values.take last.toNat).drop first.toNat := by
    have shifted : (if stop < 0 then values.length + stop else stop) + 1 = last := by
      by_cases negative : stop < 0
      · rw [if_pos negative]
        exact (if_pos negative).symm
      · rw [if_neg negative]
        exact (if_neg negative).symm
    rw [← shifted]
    rfl
  rcases clear with ⟨plain, plain'⟩ | ⟨nothing, nothing'⟩
  · have outside := of_decide_eq_false plain
    have outside' := of_decide_eq_false plain'
    have start' : sliceIndex values.length first = min first.toNat values.length :=
      sliceIndex_eq_min (by omega)
    have stop' : sliceIndex values.length last = min last.toNat values.length :=
      sliceIndex_eq_min (by omega)
    rw [memory, server, start', stop', ← List.take_eq_take_min]
    rcases Nat.le_total first.toNat values.length with le | ge
    · rw [Nat.min_eq_left le]
    · rw [Nat.min_eq_right ge, List.drop_eq_nil_of_le (List.length_take_le' _ _),
        List.drop_eq_nil_of_le (Nat.le_trans (List.length_take_le' _ _) ge)]
  · rcases range_spec values start stop with ⟨_, empty⟩ | ⟨m, n, lt, _, mongo, _⟩
    · rw [empty, memory]
      refine List.drop_eq_nil_of_le (Nat.le_trans (List.length_take_le _ _) nothing')
    · rw [mongo] at nothing
      have : (n : Int) - 1 < m := nothing
      omega

end Slices

section Entries

/-- An empty array that was left under a key. -/
def isHusk : Option Entry → Bool
  | some ⟨.list [], _⟩ => true
  | _ => false

/-- What the process holds under a key where a Redis holds `entry`. -/
def Stands (isList : Bool) (entry mem : Option Entry) : Prop :=
  if isList then
    (∀ e ∈ entry, ∃ values, e.value = .list values ∧ values ≠ []) ∧
      (mem = entry ∨ entry = none ∧ isHusk mem = true)
  else mem = entry ∧ ∀ e ∈ entry, Server.asList e.value = none

/-- The commands that are not about the key itself. -/
def isValueOp : Op → Bool
  | .expire _ | .pexpire _ | .ttl => false
  | op => !isListOp op

variable {round : Int → Int} {now later : Int} {isList : Bool} {entry mem next : Option Entry}
  {op : Op} {r : Reply}

theorem isHusk_iff : isHusk mem = true ↔ ∃ t, mem = some ⟨.list [], t⟩ := by
  constructor
  · intro husk
    match mem, husk with
    | some ⟨.list [], t⟩, _ => exact ⟨t, rfl⟩
  · rintro ⟨t, rfl⟩
    rfl

theorem live_cases (now : Int) (entry : Option Entry) :
    live now entry = entry ∨ live now entry = none := by
  cases entry with
  | none => exact .inl rfl
  | some e =>
      cases alive : e.isLive now with
      | true => exact .inl (by simp [live, Option.filter, alive])
      | false => exact .inr (by simp [live, Option.filter, alive])

theorem Stands.live (h : Stands isList entry mem) (now : Int) :
    Stands isList (live now entry) (live now mem) := by
  have fewer (e : Entry) (mem : e ∈ Redis.live now entry) : e ∈ entry :=
    (Option.filter_eq_some_iff.mp mem).1
  cases isList with
  | false =>
      obtain ⟨rfl, plain⟩ : mem = entry ∧ _ := h
      exact ⟨rfl, fun e mem => plain e (fewer e mem)⟩
  | true =>
      obtain ⟨lists, stands⟩ : (∀ e ∈ entry, _) ∧ _ := h
      refine ⟨fun e mem => lists e (fewer e mem), ?_⟩
      rcases stands with rfl | ⟨rfl, husk⟩
      · exact .inl rfl
      · rcases live_cases now mem with same | gone
        · rw [same]
          exact .inr ⟨rfl, husk⟩
        · rw [gone]
          exact .inl rfl

theorem Stands.eq_of_not_husk (h : Stands isList entry mem) (plain : isHusk mem = false) :
    mem = entry := by
  cases isList with
  | false => exact h.1
  | true =>
      rcases h.2 with same | ⟨_, husk⟩
      · exact same
      · rw [plain] at husk
        cases husk

/-- What a command on a list asks for to find the process in step with a Redis. -/
def InStep (mem : Option Entry) : Op → Prop
  | .rpush values | .lpush values => values ≠ [] ∧
      (isHusk mem = true → ∀ e ∈ mem, e.expiresAt = none)
  | .lpop (some n) => 0 ≤ n ∧ (mem.bind fun e => e.value.asList).getD [] ≠ []
  | .lrange start stop | .ltrim start stop =>
      Clear ((mem.bind fun e => e.value.asList).getD []).length start stop
  | .expire _ | .pexpire _ | .ttl => isHusk mem = false
  | _ => True

theorem stands_listEntry (values : List Datum) (expiresAt : Option Int) :
    Stands true (Server.listEntry values expiresAt) (some ⟨.list values, expiresAt⟩) := by
  cases values with
  | nil => exact ⟨fun e mem => absurd mem (Option.not_mem_none e), .inr ⟨rfl, rfl⟩⟩
  | cons v vs =>
      refine ⟨fun e mem => ⟨v :: vs, ?_, List.cons_ne_nil v vs⟩, .inl rfl⟩
      obtain rfl := Option.some.inj mem
      rfl

/-- The list that both sides hold, with its expiry where it has one. -/
theorem Stands.spelled (h : Stands true entry mem) :
    (mem = none ∧ entry = none) ∨
      ∃ values expiresAt, mem = some ⟨.list values, expiresAt⟩ ∧
        entry = Server.listEntry values expiresAt := by
  obtain ⟨lists, stands⟩ : (∀ e ∈ entry, _) ∧ _ := h
  rcases stands with rfl | ⟨rfl, husk⟩
  · cases mem with
    | none => exact .inl ⟨rfl, rfl⟩
    | some e =>
        obtain ⟨values, eq, nonempty⟩ := lists e rfl
        refine .inr ⟨values, e.expiresAt, ?_, ?_⟩
        · rw [← eq]
        · rw [Server.listEntry, if_neg nonempty, ← eq]
  · obtain ⟨t, rfl⟩ := isHusk_iff.mp husk
    exact .inr ⟨[], t, rfl, rfl⟩

/-- A list command of the process, next to the same command of a Redis. -/
theorem run_list (h : Stands true entry mem) (listOp : isListOp op = true)
    (inStep : InStep mem op) :
    ∃ next, Server.serve round now entry op = .ok ((op.run now mem).1, next) ∧
      Stands true next (op.run now mem).2 := by
  rcases h.spelled with ⟨rfl, rfl⟩ | ⟨values, expiresAt, rfl, rfl⟩
  · cases op with
    | rpush pushed =>
        refine ⟨Server.listEntry pushed none, ?_, stands_listEntry pushed none⟩
        simp only [Server.serve, if_neg inStep.1, bind, Except.bind, pure, Except.pure]
        rfl
    | lpush pushed =>
        refine ⟨Server.listEntry (pushed.reverse ++ []) none, ?_, stands_listEntry _ none⟩
        simp only [Server.serve, if_neg inStep.1, bind, Except.bind, pure, Except.pure]
        rfl
    | lrange start stop =>
        have same : sliceRange [] start stop = Server.range [] start stop :=
          sliceRange_eq_range inStep
        refine ⟨none, ?_, h⟩
        show _ = Except.ok (Reply.values ((sliceRange [] start stop).map some), none)
        rw [same]
        rfl
    | llen => exact ⟨none, rfl, h⟩
    | ltrim start stop =>
        refine ⟨Server.listEntry (Server.range [] start stop) none, rfl, ?_⟩
        rw [show Server.range ([] : List Datum) start stop = [] by simp [Server.range]]
        exact h
    | lpop count =>
        cases count with
        | none => exact ⟨none, rfl, h⟩
        | some n => exact absurd rfl inStep.2
    | _ => cases listOp
  · have typed := typed_listEntry values expiresAt
    cases op with
    | rpush pushed =>
        obtain ⟨nonempty, forever⟩ : pushed ≠ [] ∧ _ := inStep
        have spelled : values = [] → expiresAt = none := fun none' =>
          forever (by rw [none']; rfl) _ rfl
        refine ⟨Server.listEntry (values ++ pushed) expiresAt, ?_, stands_listEntry _ _⟩
        simp only [Server.serve, if_neg nonempty, typed, bind, Except.bind, pure, Except.pure,
          getD_listEntry spelled]
        rfl
    | lpush pushed =>
        obtain ⟨nonempty, forever⟩ : pushed ≠ [] ∧ _ := inStep
        have spelled : values = [] → expiresAt = none := fun none' =>
          forever (by rw [none']; rfl) _ rfl
        refine ⟨Server.listEntry (pushed.reverse ++ values) expiresAt, ?_, stands_listEntry _ _⟩
        simp only [Server.serve, if_neg nonempty, typed, bind, Except.bind, pure, Except.pure,
          getD_listEntry spelled]
        rfl
    | lrange start stop =>
        have same : sliceRange values start stop = Server.range values start stop :=
          sliceRange_eq_range inStep
        refine ⟨Server.listEntry values expiresAt, ?_, h⟩
        show _ = Except.ok (Reply.values ((sliceRange values start stop).map some), _)
        rw [same]
        simp only [Server.serve, typed, bind, Except.bind, pure, Except.pure]
        cases values with
        | nil => rfl
        | cons v vs => rfl
    | llen =>
        refine ⟨Server.listEntry values expiresAt, ?_, h⟩
        simp only [Server.serve, typed, bind, Except.bind, pure, Except.pure]
        cases values with
        | nil => rfl
        | cons v vs => rfl
    | ltrim start stop =>
        have same : sliceRange values start stop = Server.range values start stop :=
          sliceRange_eq_range inStep
        have memory : Op.run now (some ⟨.list values, expiresAt⟩) (.ltrim start stop) =
            (.ok, some ⟨.list (sliceRange values start stop), expiresAt⟩) := rfl
        rw [memory, same]
        cases values with
        | nil =>
            rw [show Server.range ([] : List Datum) start stop = [] by simp [Server.range]]
            refine ⟨none, ?_, stands_listEntry [] expiresAt⟩
            simp only [Server.serve, typed, bind, Except.bind, pure, Except.pure]
            simp [Server.range, Server.listEntry]
        | cons v vs =>
            refine ⟨_, ?_, stands_listEntry _ expiresAt⟩
            simp only [Server.serve, typed, bind, Except.bind, pure, Except.pure]
            rfl
    | lpop count =>
        cases values with
        | nil =>
            cases count with
            | none => exact ⟨none, rfl, h⟩
            | some n => exact absurd rfl inStep.2
        | cons v vs =>
            have fine : count.any (· < 0) = false := by
              cases count with
              | none => rfl
              | some n => simpa using inStep.1
            refine ⟨_, ?_, stands_listEntry _ expiresAt⟩
            simp only [Server.serve, fine, typed, bind, Except.bind, pure, Except.pure]
            rfl
    | _ => cases listOp

/-- An expiry that is set is the same moment on both sides. -/
theorem expireAt_live (now t : Int) (e : Entry) :
    live now (Server.expireAt now t e) = live now (some { e with expiresAt := some t }) := by
  rw [Server.expireAt]
  by_cases passed : t ≤ now
  · rw [if_pos passed, live_of_le passed]
    rfl
  · rw [if_neg passed]

theorem Stands.update {e : Entry} (h : Stands isList (some e) (some e)) (t : Option Int) :
    Stands isList (some { e with expiresAt := t }) (some { e with expiresAt := t }) := by
  cases isList with
  | false =>
      refine ⟨rfl, fun x mem => ?_⟩
      obtain rfl := Option.some.inj mem
      exact h.2 e rfl
  | true =>
      refine ⟨fun x mem => ?_, .inl rfl⟩
      obtain rfl := Option.some.inj mem
      exact h.1 e rfl

/-- A number of items is only asked of a list that has some. -/
theorem not_popsCount (h : Stands isList none mem) (inStep : InStep mem op) :
    popsCount op = false := by
  have nothing : (mem.bind fun e => e.value.asList).getD [] = [] := by
    cases isList with
    | false =>
        obtain ⟨rfl, _⟩ : mem = none ∧ _ := h
        rfl
    | true =>
        rcases h.2 with rfl | ⟨_, husk⟩
        · rfl
        · obtain ⟨t, rfl⟩ := isHusk_iff.mp husk
          rfl
  cases op with
  | lpop count =>
      cases count with
      | none => rfl
      | some n => exact absurd nothing inStep.2
  | _ => rfl

theorem stands_expireAt {e : Entry} (h : Stands isList (some e) (some e)) (t : Int) :
    Stands isList (live now (Server.expireAt now t e))
      (live now (some { e with expiresAt := some t })) := by
  rw [expireAt_live]
  exact (h.update (some t)).live now

/-- A list command, or one that sets an expiry, next to the same command of a Redis. -/
theorem run_served (key : String) (h : Stands isList entry mem)
    (typed : isListOp op = true → isList = true) (served : listCommand (.on key op) = true)
    (inStep : InStep mem op) :
    ∃ next, Server.serve round now entry op = .ok ((op.run now mem).1, next) ∧
      Stands isList (live now next) (live now (op.run now mem).2) := by
  have listed (listOp : isListOp op = true) :
      ∃ next, Server.serve round now entry op = .ok ((op.run now mem).1, next) ∧
        Stands isList (live now next) (live now (op.run now mem).2) := by
    rw [typed listOp] at h ⊢
    obtain ⟨next, server, stands⟩ := @run_list round now _ _ op h listOp inStep
    exact ⟨next, server, stands.live now⟩
  cases op with
  | expire seconds =>
      obtain rfl := h.eq_of_not_husk inStep
      cases mem with
      | none => exact ⟨none, rfl, h⟩
      | some e => exact ⟨_, rfl, stands_expireAt h _⟩
  | pexpire ms =>
      obtain rfl := h.eq_of_not_husk inStep
      cases mem with
      | none => exact ⟨none, rfl, h⟩
      | some e => exact ⟨_, rfl, stands_expireAt h _⟩
  | rpush pushed => exact listed rfl
  | lpush pushed => exact listed rfl
  | lrange start stop => exact listed rfl
  | llen => exact listed rfl
  | ltrim start stop => exact listed rfl
  | lpop count => exact listed rfl
  | _ => cases served

theorem run_read (now : Int) (entry : Option Entry) (readOp : isReadOp op = true) :
    (op.run now entry).2 = entry := by
  cases op with
  | get => rfl
  | hget field => rfl
  | hmget names => rfl
  | hgetall => rfl
  | zcard => rfl
  | zrange start stop => rfl
  | _ => cases readOp

/-- No command on a value makes a list of it. -/
theorem run_plain (plain : ∀ e ∈ entry, Server.asList e.value = none)
    (valueOp : isValueOp op = true) :
    ∀ e ∈ (op.run now entry).2, Server.asList e.value = none := by
  have read (readOp : isReadOp op = true) :
      ∀ e ∈ (op.run now entry).2, Server.asList e.value = none := by
    rwa [run_read now entry readOp]
  have written {value : Value} {t : Option Int} (other : Server.asList value = none) :
      ∀ e ∈ some (Entry.mk value t), Server.asList e.value = none := by
    intro e mem
    obtain rfl := Option.some.inj mem
    exact other
  cases op with
  | get => exact read rfl
  | hget field => exact read rfl
  | hmget names => exact read rfl
  | hgetall => exact read rfl
  | zcard => exact read rfl
  | zrange start stop => exact read rfl
  | set value options =>
      rw [Op.run]
      split
      · exact plain
      · split
        · exact plain
        · exact written rfl
  | setex seconds value => exact written rfl
  | incrBy delta => exact written rfl
  | hset pairs =>
      rw [Op.run]
      split
      · exact plain
      · exact written rfl
  | hincrby field delta =>
      rw [Op.run]
      split
      · exact plain
      · exact written rfl
  | hdel names =>
      rw [Op.run]
      split
      · exact plain
      · exact written rfl
  | zadd pairs =>
      rw [Op.run]
      split
      · exact plain
      · exact written rfl
  | zrem names =>
      rw [Op.run]
      split
      · exact plain
      · exact written rfl
  | zremrangebyscore min max =>
      rw [Op.run]
      split
      · exact plain
      · exact written rfl
  | _ => cases valueOp

end Entries

section Values

variable {limits : Limits} {now : Int} {drawn key : String} {db : MongoDb} {entry : Option Entry}
  {op : Op}

/-- An entry within the limit, with an expiry that a date can hold. -/
def Storable (limits : Limits) (e : Entry) : Prop :=
  limits.snapshot e = true ∧ e.expiresAt.all isValidTime = true

instance decidableStorable (limits : Limits) (e : Entry) : Decidable (Storable limits e) :=
  inferInstanceAs (Decidable (_ ∧ _))

theorem storedTime_valid {t : Option Int} (valid : t.all isValidTime = true) :
    t.map storedTime = t := by
  cases t with
  | none => rfl
  | some t =>
      have : isValidTime t = true := valid
      rw [Option.map_some, storedTime, if_pos this]

/-- The documents of a key that holds no list. -/
theorem spells_record {items : List ListItem} {doc : Option KeyDoc}
    (h : Spells items key entry doc)
    (plain : ∀ e ∈ entry, Server.asList e.value = none) :
    doc = none ∧ entry = none ∨
      ∃ snapshot expiresAt, doc = some ⟨.value snapshot, expiresAt⟩ ∧ entry = some snapshot := by
  match doc, h with
  | none, h => exact .inl ⟨rfl, h⟩
  | some ⟨.value snapshot, expiresAt⟩, h => exact .inr ⟨snapshot, expiresAt, rfl, h.1⟩
  | some ⟨.list head tail generation, expiresAt⟩, h =>
      obtain ⟨values, _, rfl, _⟩ := h
      cases plain _ rfl

theorem command_value (small : limits.command (.on key op) = true) (valueOp : isValueOp op = true)
    {items : List ListItem} (loaded : Spells items key entry (db.load now key).1)
    (plain : ∀ e ∈ entry, Server.asList e.value = none) :
    Mongo.command limits now drawn (.on key op) db =
      value limits now key op entry (db.load now key).2 := by
  rw [Mongo.command, small, if_neg (by decide)]
  generalize db.load now key = found at loaded
  obtain ⟨record, db'⟩ := found
  rcases spells_record loaded plain with ⟨rfl, rfl⟩ | ⟨snapshot, expiresAt, rfl, rfl⟩
  · cases op with
    | expire seconds => cases valueOp
    | pexpire ms => cases valueOp
    | ttl => cases valueOp
    | rpush pushed => cases valueOp
    | lpush pushed => cases valueOp
    | lrange start stop => cases valueOp
    | llen => cases valueOp
    | ltrim start stop => cases valueOp
    | lpop count => cases valueOp
    | _ => rfl
  · cases op with
    | expire seconds => cases valueOp
    | pexpire ms => cases valueOp
    | ttl => cases valueOp
    | rpush pushed => cases valueOp
    | lpush pushed => cases valueOp
    | lrange start stop => cases valueOp
    | llen => cases valueOp
    | ltrim start stop => cases valueOp
    | lpop count => cases valueOp
    | _ => rfl

/-- A value command of the coordinator is the same command of the process. -/
theorem value_became (alive : live now entry = entry)
    (plain : ∀ e ∈ entry, Server.asList e.value = none) (valueOp : isValueOp op = true)
    (h : Spells db.items key entry (db.keys key))
    (storable : ∀ e ∈ (op.run now entry).2, Storable limits e) :
    ∃ db', value limits now key op entry db = .ok ((op.run now entry).1, db') ∧
      Became key drawn db (live now (op.run now entry).2) db' := by
  have unchanged : Became key drawn db entry db :=
    ⟨h, fun _ _ => ⟨rfl, fun _ => rfl⟩, fun i mem => .inr ⟨i, mem, rfl⟩⟩
  have ran : Redis.command now (.on key op) (Function.update Store.empty key entry) =
      ((op.run now entry).1,
        Function.update (Function.update Store.empty key entry) key (op.run now entry).2) := by
    rw [command_on, Function.update_self, alive]
  cases readOp : isReadOp op with
  | true =>
      refine ⟨db, ?_, ?_⟩
      · simp only [value, ran, readOp, if_true]
      · rw [run_read now entry readOp, alive]
        exact unchanged
  | false =>
      cases next : live now (op.run now entry).2 with
      | none =>
          refine ⟨db.remove key, ?_, remove_became (fun _ _ => ⟨rfl, fun _ => rfl⟩)
            fun i mem => .inr ⟨i, mem, rfl⟩⟩
          simp only [value, ran, readOp, Bool.false_eq_true, if_false, Function.update_self, next]
      | some snapshot =>
          have written : snapshot ∈ (op.run now entry).2 := (Option.filter_eq_some_iff.mp next).1
          obtain ⟨small, valid⟩ := storable snapshot written
          refine ⟨db.save key ⟨.value snapshot, snapshot.expiresAt⟩, ?_, ?_,
            fun k other => ⟨Function.update_of_ne other _ _, fun _ => rfl⟩,
            fun i mem => .inr ⟨i, mem, rfl⟩⟩
          · simp only [value, ran, readOp, Bool.false_eq_true, if_false, Function.update_self,
              next, small, if_true, storedTime_valid valid]
          · simp only [MongoDb.save, Function.update_self]
            exact ⟨rfl, rfl, run_plain plain valueOp snapshot written⟩

end Values

section Counting

variable {now : Int} {s m : Store} {isList : String → Bool} {keys : List String}

/-- Every key stands in the process as it does on a Redis. -/
def Alongside (isList : String → Bool) (now : Int) (s m : Store) : Prop :=
  ∀ key, Stands (isList key) (live now (s key)) (live now (m key))

theorem Alongside.later {later : Int} (le : now ≤ later) (h : Alongside isList now s m) :
    Alongside isList later s m := by
  intro key
  have held := (h key).live later
  rwa [live_later le, live_later le] at held

theorem Alongside.update (h : Alongside isList now s m) {key : String} {next next' : Option Entry}
    (stands : Stands (isList key) (live now next) (live now next')) :
    Alongside isList now (Function.update s key next) (Function.update m key next') := by
  intro k
  by_cases here : k = key
  · subst here
    rwa [Function.update_self, Function.update_self]
  · rw [Function.update_of_ne here, Function.update_of_ne here]
    exact h k

theorem countKeys_exists (now : Int) (keys : List String) (s : Store) :
    countKeys now (fun s _ => s) keys s =
      ((keys.filter fun key => (live now (s key)).isSome).length,
        fun key => if key ∈ keys then live now (s key) else s key) := by
  induction keys generalizing s with
  | nil => simp [countKeys]
  | cons key keys ih =>
      have same (k : String) : live now (evict now s key k) = live now (s k) := by
        by_cases here : k = key
        · simp [evict, here]
        · simp [evict, here]
      rw [countKeys, ih]
      refine Prod.ext ?_ (funext fun k => ?_)
      · simp only [same, List.filter_cons]
        cases (live now (s key)).isSome with
        | true => simp [Nat.add_comm]
        | false => simp
      · simp only [same, List.mem_cons]
        by_cases here : k = key
        · simp [evict, here]
        · simp [evict, here]

theorem length_filter_dedup {p : String → Bool} (once : (keys.filter p).Nodup) :
    (keys.dedup.filter p).length = (keys.filter p).length := by
  have distinct : (keys.dedup.filter p).Nodup := (List.nodup_dedup keys).filter p
  have same : (keys.dedup.filter p).toFinset = (keys.filter p).toFinset := by
    ext key
    simp
  rw [← List.toFinset_card_of_nodup distinct, ← List.toFinset_card_of_nodup once, same]

theorem del_alongside (h : Alongside isList now s m)
    (plain : ∀ key ∈ keys, isHusk (live now (m key)) = false) :
    (countKeys now (fun s key => Function.update s key none) keys m).1 =
        (countKeys now (fun s key => Function.update s key none) keys s).1 ∧
      Alongside isList now (countKeys now (fun s key => Function.update s key none) keys s).2
        (countKeys now (fun s key => Function.update s key none) keys m).2 := by
  rw [countKeys_del, countKeys_del]
  refine ⟨?_, fun key => ?_⟩
  · dsimp only
    congr 1
    refine Finset.filter_congr fun key mem => ?_
    rw [(h key).eq_of_not_husk (plain key (List.mem_toFinset.mp mem))]
  · by_cases named : key ∈ keys
    · have gone : Stands (isList key) none none := by
        cases isList key with
        | false => exact ⟨rfl, fun e mem => absurd mem (Option.not_mem_none e)⟩
        | true => exact ⟨fun e mem => absurd mem (Option.not_mem_none e), .inl rfl⟩
      simpa [named] using gone
    · simpa [named] using h key

theorem exists_alongside (h : Alongside isList now s m)
    (plain : ∀ key ∈ keys, isHusk (live now (m key)) = false)
    (once : (keys.filter fun key => (live now (m key)).isSome).Nodup) :
    (countKeys now (fun s _ => s) keys m).1 = (countKeys now (fun s _ => s) keys.dedup s).1 ∧
      Alongside isList now (countKeys now (fun s _ => s) keys.dedup s).2
        (countKeys now (fun s _ => s) keys m).2 := by
  have same : keys.dedup.filter (fun key => (live now (s key)).isSome) =
      keys.dedup.filter (fun key => (live now (m key)).isSome) := by
    refine List.filter_congr fun key mem => ?_
    rw [(h key).eq_of_not_husk (plain key (List.mem_dedup.mp mem))]
  rw [countKeys_exists, countKeys_exists, same, length_filter_dedup once]
  refine ⟨rfl, fun key => ?_⟩
  by_cases named : key ∈ keys
  · simpa [named] using h key
  · simpa [named] using h key

end Counting

section Histories

/-- Both backends, side by side. -/
structure Both where
  coordinator : Coordinator
  memory : Store

/-- The same command on both; the documents of the coordinator may also be cleaned up. -/
def bothStep (limits : Limits) (draw : Nat → String) (b : Both) (a : Action) :
    Both × Option (Except MongoError Reply) × Option Reply :=
  let (c, r) := coordinate limits draw b.coordinator a
  match a with
  | .call now cmd =>
      let (r', m) := command now cmd b.memory
      (⟨c, m⟩, r, some r')
  | .cleanup _ _ _ => (⟨c, b.memory⟩, r, none)

/-- Each key is used for lists or for one other type. -/
def OneType (isList : String → Bool) : Action → Prop
  | .call _ (.on key op) => (isListOp op = true → isList key = true) ∧
      (isValueOp op = true → isList key = false)
  | _ => True

instance decidableOneType (isList : String → Bool) : (a : Action) → Decidable (OneType isList a)
  | .call _ (.on _ _) => inferInstanceAs (Decidable (_ ∧ _))
  | .call _ (.del _) | .call _ (.existsKeys _) | .cleanup _ _ _ => instDecidableTrue

/-- Where the two backends answer alike: the command is within the limits of the
coordinator, is not about a list that was emptied in the process, and counts no key twice. -/
def Alike (limits : Limits) (now : Int) (db : MongoDb) (m : Store) (c : Command) : Prop :=
  WithinLimits limits now db c ∧
    match c with
    | .on key op => InStep (live now (m key)) op ∧
        (isValueOp op = true → ∀ e ∈ (op.run now (live now (m key))).2, Storable limits e)
    | .del keys => ∀ key ∈ keys, isHusk (live now (m key)) = false
    | .existsKeys keys => (∀ key ∈ keys, isHusk (live now (m key)) = false) ∧
        (keys.filter fun key => (live now (m key)).isSome).Nodup

def AlikeAction (limits : Limits) (b : Both) : Action → Prop
  | .call now c => Alike limits now b.coordinator.db b.memory c
  | .cleanup _ _ _ => True

/-- Both follow one Redis. -/
def InAgreement (draw : Nat → String) (isList : String → Bool) (now : Int) (b : Both) : Prop :=
  ∃ s, Follows draw now b.coordinator s ∧ Alongside isList now s b.memory

variable {limits : Limits} {draw : Nat → String} {isList : String → Bool} {now now' : Int}
  {drawn : String} {db : MongoDb} {s m : Store} {c : Command}

theorem InAgreement.later {b : Both} (le : now ≤ now') (h : InAgreement draw isList now b) :
    InAgreement draw isList now' b := by
  obtain ⟨s, follows, alongside⟩ := h
  exact ⟨s, follows.later le, alongside.later le⟩

/-- One command on both: the same answer, and one Redis that both follow. -/
theorem command_alike (related : Related now db s) (fresh : ∀ i ∈ db.items, i.generation ≠ drawn)
    (alongside : Alongside isList now s m) (typed : OneType isList (.call now c))
    (alike : Alike limits now db m c) :
    ∃ db' s', Mongo.command limits now drawn c db = .ok ((command now c m).1, db') ∧
      Followed now drawn db s' db' ∧ Alongside isList now s' (command now c m).2 := by
  obtain ⟨within, more⟩ := alike
  have small := within.1
  cases c with
  | del keys =>
      obtain ⟨count, followed⟩ := countKeys_followed related drawn true keys.dedup
      obtain ⟨count', stands⟩ := del_alongside alongside more
      simp only [if_true, countKeys_dedup] at count followed
      refine ⟨_, _, ?_, followed, stands⟩
      simp only [Mongo.command, small, Bool.true_eq_false, if_false, command, count, count']
  | existsKeys keys =>
      obtain ⟨count, followed⟩ := countKeys_followed related drawn false keys.dedup
      obtain ⟨count', stands⟩ := exists_alongside alongside more.1 more.2
      simp only [Bool.false_eq_true, if_false] at count followed
      refine ⟨_, _, ?_, followed, stands⟩
      simp only [Mongo.command, small, Bool.true_eq_false, if_false, command, count, count']
  | on key op =>
      obtain ⟨inStep, storable⟩ : InStep (live now (m key)) op ∧ _ := more
      obtain ⟨loaded, record⟩ := load_became drawn (related key)
      have served (served : listCommand (.on key op) = true) :
          ∃ db' s', Mongo.command limits now drawn (.on key op) db =
              .ok ((command now (.on key op) m).1, db') ∧
            Followed now drawn db s' db' ∧ Alongside isList now s' (command now (.on key op) m).2 := by
        obtain ⟨next, server, stands⟩ := @run_served (fun t => t) now (isList key) _ _ op key
          (alongside key) typed.1 served inStep
        have agree := @call_agrees (fun t => t) limits now drawn db s _ related fresh served within
        have answered : Server.command (fun t => t) now (.on key op) s =
            .ok ((op.run now (live now (m key))).1, Function.update s key next) := by
          simp only [Server.command, server, Except.map]
        rw [answered] at agree
        have there : popsMissing now db (.on key op) = false := by
          cases missing : live now (s key) with
          | none =>
              have stands := alongside key
              rw [missing] at stands
              rw [popsMissing, not_popsCount stands inStep, Bool.and_false]
          | some e =>
              have expires := loaded.spells.expiresAt
              rw [← record, missing] at expires
              obtain ⟨doc, found, _⟩ := Option.map_eq_some_iff.mp expires.symm
              rw [popsMissing, found]
              rfl
        cases mongo : Mongo.command limits now drawn (.on key op) db with
        | error why => rw [mongo] at agree; exact agree.elim
        | ok next' =>
            obtain ⟨reply, db'⟩ := next'
            rw [mongo] at agree
            refine ⟨db', _, ?_, agree.2, ?_⟩
            · rw [command_on, agree.1.mpr there]
            · rw [command_on]
              exact alongside.update stands
      have valued (valueOp : isValueOp op = true) :
          ∃ db' s', Mongo.command limits now drawn (.on key op) db =
              .ok ((command now (.on key op) m).1, db') ∧
            Followed now drawn db s' db' ∧ Alongside isList now s' (command now (.on key op) m).2 := by
        have other := alongside key
        rw [typed.2 valueOp] at other
        obtain ⟨same, plain⟩ : live now (m key) = live now (s key) ∧ _ := other
        rw [same] at storable
        obtain ⟨db', ran, became⟩ := @value_became limits now drawn key (db.load now key).2 _ op
          (live_live now (s key)) plain valueOp loaded.spells (storable valueOp)
        refine ⟨db', _, ?_, related.followed (loaded.trans became), ?_⟩
        · have spelled := loaded.spells
          rw [← record] at spelled
          rw [command_value small valueOp spelled plain, ran, command_on, same]
        · rw [command_on, same]
          refine alongside.update ?_
          rw [live_live, typed.2 valueOp]
          refine ⟨rfl, fun e mem => ?_⟩
          exact run_plain plain valueOp e (Option.filter_eq_some_iff.mp mem).1
      cases op with
      | ttl =>
          have same := (alongside key).eq_of_not_husk inStep
          refine ⟨_, _, ?_, related.followed loaded, ?_⟩
          · have expires := loaded.spells.expiresAt
            rw [← record] at expires
            simp only [Mongo.command, small, Bool.true_eq_false, if_false, command, same]
            cases entry : live now (s key) with
            | none =>
                rw [entry] at expires
                rw [Option.map_eq_none_iff.mp expires.symm]
                rfl
            | some e =>
                rw [entry] at expires
                obtain ⟨doc, found, eq⟩ := Option.map_eq_some_iff.mp expires.symm
                rw [found]
                simp only [eq]
                rfl
          · have stays : (Op.run now (live now (m key)) .ttl).2 = live now (m key) := by
              cases live now (m key) with
              | none => rfl
              | some e => rfl
            rw [command_on, stays]
            refine alongside.update ?_
            rw [live_live, live_live]
            exact alongside key
      | expire seconds => exact served rfl
      | pexpire ms => exact served rfl
      | rpush pushed => exact served rfl
      | lpush pushed => exact served rfl
      | lrange start stop => exact served rfl
      | llen => exact served rfl
      | ltrim start stop => exact served rfl
      | lpop count => exact served rfl
      | _ => exact valued rfl

theorem bothStep_alike (distinct : Function.Injective draw) {b : Both} {a : Action}
    (typed : OneType isList a) (alike : AlikeAction limits b a)
    (h : InAgreement draw isList a.clock b) :
    (bothStep limits draw b a).2.1 = (bothStep limits draw b a).2.2.map Except.ok ∧
      InAgreement draw isList a.clock (bothStep limits draw b a).1 := by
  obtain ⟨s, ⟨related, known⟩, alongside⟩ := h
  cases a with
  | cleanup now keys items =>
      exact ⟨rfl, s, ⟨related.cleanup keys items, fun i mem => known i (List.mem_of_mem_filter mem)⟩,
        alongside⟩
  | call now c =>
      have fresh : ∀ i ∈ b.coordinator.db.items, i.generation ≠ draw b.coordinator.draws := by
        intro i mem same
        obtain ⟨n, lt, drawn⟩ := known i mem
        have := distinct (drawn.symm.trans same)
        omega
      obtain ⟨db', s', ran, followed, beside⟩ := command_alike related fresh alongside typed alike
      have ran : Mongo.command limits now (draw b.coordinator.draws) c b.coordinator.db =
          .ok ((command now c b.memory).1, db') := ran
      have stepped : bothStep limits draw b (.call now c) =
          (⟨⟨db', b.coordinator.draws + 1⟩, (command now c b.memory).2⟩,
            some (.ok (command now c b.memory).1), some (command now c b.memory).1) := by
        simp only [bothStep, coordinate, ran]
      rw [stepped]
      refine ⟨rfl, s', ⟨followed.related, fun i mem => ?_⟩, beside⟩
      rcases followed.known i mem with new | ⟨j, mem', same⟩
      · exact ⟨b.coordinator.draws, Nat.lt_succ_self _, new⟩
      · obtain ⟨n, lt, drawn⟩ := known j mem'
        exact ⟨n, Nat.lt_succ_of_lt lt, same ▸ drawn⟩

/-- Over every history in which each key is used for one type and every command is one on
which the two can agree, both backends answer the same. -/
theorem backends_agree (distinct : Function.Injective draw) {actions : List Action}
    (forward : (actions.map Action.clock).IsChain (· ≤ ·))
    (typed : ∀ a ∈ actions, OneType isList a)
    (alike : ∀ e ∈ Machine.trace (bothStep limits draw) ⟨⟨.empty, 0⟩, Store.empty⟩ actions,
      AlikeAction limits e.before e.action) :
    ∀ e ∈ Machine.trace (bothStep limits draw) ⟨⟨.empty, 0⟩, Store.empty⟩ actions,
      e.reply.1 = e.reply.2.map Except.ok := by
  have start (t : Int) : InAgreement draw isList t ⟨⟨.empty, 0⟩, Store.empty⟩ := by
    refine ⟨Store.empty, ⟨fun _ => rfl, fun i mem => absurd mem List.not_mem_nil⟩, fun key => ?_⟩
    cases isList key with
    | false => exact ⟨rfl, fun e mem => absurd mem (Option.not_mem_none e)⟩
    | true => exact ⟨fun e mem => absurd mem (Option.not_mem_none e), .inl rfl⟩
  cases actions with
  | nil => exact fun e mem => absurd mem List.not_mem_nil
  | cons a actions =>
      have chain : (a.clock :: (a :: actions).map Action.clock).IsChain (· ≤ ·) :=
        List.isChain_cons_cons.mpr ⟨le_refl a.clock, forward⟩
      exact Machine.trace_answers (InAgreement draw isList) Action.clock
        (fun b a => OneType isList a ∧ AlikeAction limits b a)
        (fun _ reply => reply.1 = reply.2.map Except.ok) (fun le h => h.later le)
        (fun allowed h => bothStep_alike distinct allowed.1 allowed.2 h) (start a.clock)
        chain fun e mem => ⟨typed e.action (Machine.action_mem mem), alike e mem⟩

instance decidableInStep (mem : Option Entry) : (op : Op) → Decidable (InStep mem op)
  | .rpush values | .lpush values => inferInstanceAs (Decidable (values ≠ [] ∧
      (isHusk mem = true → ∀ e ∈ mem, e.expiresAt = none)))
  | .lpop (some _) => inferInstanceAs (Decidable (_ ∧ _))
  | .lrange _ _ | .ltrim _ _ => inferInstanceAs (Decidable (_ ∨ _ ∧ _))
  | .expire _ | .pexpire _ | .ttl => inferInstanceAs (Decidable (isHusk mem = false))
  | .get | .set _ _ | .setex _ _ | .incrBy _ | .hset _ | .hget _ | .hmget _ | .hgetall
  | .hincrby _ _ | .hdel _ | .lpop none | .llen | .zadd _ | .zcard | .zrem _
  | .zremrangebyscore _ _ | .zrange _ _ => instDecidableTrue

instance decidableAlike (limits : Limits) (now : Int) (db : MongoDb) (m : Store) :
    (c : Command) → Decidable (Alike limits now db m c)
  | .on key op => inferInstanceAs (Decidable (_ ∧ InStep (live now (m key)) op ∧
      (_ → ∀ e ∈ (op.run now (live now (m key))).2, Storable limits e)))
  | .del keys => inferInstanceAs (Decidable (_ ∧ ∀ key ∈ keys, isHusk (live now (m key)) = false))
  | .existsKeys keys => inferInstanceAs (Decidable (_ ∧
      (∀ key ∈ keys, isHusk (live now (m key)) = false) ∧
        (keys.filter fun key => (live now (m key)).isSome).Nodup))

instance decidableAlikeAction (limits : Limits) (b : Both) :
    (a : Action) → Decidable (AlikeAction limits b a)
  | .call now c => decidableAlike limits now b.coordinator.db b.memory c
  | .cleanup _ _ _ => instDecidableTrue

/-- One key for lists. -/
def queueOnly (key : String) : Bool := key == "q"

/-- A counter, a hash and a queue that is trimmed to nothing and filled again. -/
def mixedActions : List Action :=
  [.call 0 (.on "n" (.incrBy 5)), .call 1 (.on "n" (.expire 60)), .call 2 (.on "n" .ttl),
    .call 3 (.on "h" (.hset [("a", .text "1")])), .call 4 (.on "h" (.hincrby "a" 2)),
    .call 5 (.on "q" (.rpush [.text "x", .text "y"])), .call 6 (.on "q" (.lrange (-9) (-1))),
    .call 7 (.on "q" (.ltrim 5 9)), .call 8 (.on "q" (.lpop none)),
    .call 9 (.on "q" (.lpush [.text "z"])), .call 10 (.existsKeys ["n", "q", "h"]),
    .call 11 (.del ["n", "q"])]

theorem backends_agree_mixed :
    (mixedActions.map Action.clock).IsChain (· ≤ ·) ∧
      ∀ e ∈ Machine.trace (bothStep unlimited numbered) ⟨⟨.empty, 0⟩, Store.empty⟩ mixedActions,
        e.reply.1 = e.reply.2.map Except.ok :=
  ⟨by decide, @backends_agree unlimited numbered queueOnly numbered_injective mixedActions
    (by decide) (by decide +kernel) (by decide +kernel)⟩

/-- A list that was trimmed to nothing still exists in the process. -/
def trimmedActions : List Action :=
  [.call 0 (.on "q" (.rpush [.text "x"])), .call 1 (.on "q" (.ltrim 1 0)),
    .call 2 (.existsKeys ["q"])]

theorem backends_disagree_trimmed :
    (trimmedActions.map Action.clock).IsChain (· ≤ ·) ∧
      (∀ a ∈ trimmedActions, OneType queueOnly a) ∧
      ¬ ∀ e ∈ Machine.trace (bothStep unlimited numbered) ⟨⟨.empty, 0⟩, Store.empty⟩ trimmedActions,
        e.reply.1 = e.reply.2.map Except.ok := by
  refine ⟨by decide, by decide +kernel, fun same => ?_⟩
  have last := same _ (List.mem_of_getElem? (i := 2) rfl)
  cases last

end Histories

end Gateway.Redis
