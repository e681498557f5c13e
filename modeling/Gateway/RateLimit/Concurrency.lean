import Gateway.Lib.Leases
import Gateway.Http.Errors
import Gateway.Redis.Admission
import Mathlib.Data.List.Chain
import Mathlib.Tactic.Linarith
import Mathlib.Tactic.NormNum

/-!
The ceiling on requests in flight: leases in a sorted set, scored by the time at
which they expire.

The key of the set expires too, one second after the lease that was admitted
last; with one lifetime for all leases and a clock that does not go back, that
is after every lease in the set.
-/

namespace Gateway.RateLimit

open Redis Leases

structure LeaseConfig where
  requestBodyTimeoutMs : Int
  retryBudgetMs : Int
  upstreamRequestTimeoutMs : Int

/-- Outlives the bounded upload, the retry budget and the upstream. -/
def LeaseConfig.ttlMs (config : LeaseConfig) : Int :=
  max 900000 (config.requestBodyTimeoutMs + config.retryBudgetMs +
    config.upstreamRequestTimeoutMs + 60000)

theorem LeaseConfig.ttlMs_pos (config : LeaseConfig) : 0 < config.ttlMs :=
  lt_of_lt_of_le (by norm_num) (le_max_left _ _)

def limiterUnavailable : GatewayError :=
  ⟨.serviceUnavailable, 503,
    "rate limiting is unavailable; refusing to serve unlimited traffic",
    .overloadedError, none, false, none⟩

def tooManyConcurrent (limit : Int) : GatewayError :=
  .ofStatus .concurrencyLimit 429 s!"too many concurrent requests ({limit})" none

/-- The member whose lease was granted; none when the ceiling is switched off. -/
def acquireConcurrency (config : LeaseConfig) (degraded : Bool) (now : Int) (key : String)
    (limit : Int) (member : String) (s : Store) : Except GatewayError (Option String) × Store :=
  if limit ≤ 0 then (.ok none, s)
  else if degraded then (.error limiterUnavailable, s)
  else
    let (result, s) := concurrency (command now) key limit now config.ttlMs member s
    if result.head? = some 1 then (.ok (some member), s)
    else (.error (tooManyConcurrent limit), s)

/-- `release` of a lease; the removal may fail, and is not tried again. -/
def releaseLease (now : Int) (key : String) (lease : Lease String Int) (delivered : Bool)
    (s : Store) : Store :=
  if lease.released then s
  else if delivered then (command now (.on key (.zrem [lease.owner])) s).2
  else s

inductive LeaseEvent where
  | acquire (now : Int) (degraded : Bool) (member : String)
  | release (now : Int) (i : Nat) (delivered : Bool)

namespace LeaseEvent

def now : LeaseEvent → Int
  | .acquire now _ _ => now
  | .release now _ _ => now

def drawn : LeaseEvent → List String
  | .acquire _ _ member => [member]
  | .release _ _ _ => []

end LeaseEvent

/-- The store, and the leases that were granted, in turn. -/
structure LeaseSystem where
  store : Store
  leases : List (Lease String Int)

namespace LeaseSystem

variable (config : LeaseConfig) (key : String) (limit : Int)

def step (sys : LeaseSystem) : LeaseEvent → LeaseSystem
  | .acquire now degraded member =>
      match acquireConcurrency config degraded now key limit member sys.store with
      | (.ok (some owner), s) => ⟨s, sys.leases ++ [⟨owner, now + config.ttlMs, .out⟩]⟩
      | (_, s) => ⟨s, sys.leases⟩
  | .release now i delivered =>
      match sys.leases[i]? with
      | none => sys
      | some lease =>
          ⟨releaseLease now key lease delivered sys.store, giveBack delivered i sys.leases⟩

def run (sys : LeaseSystem) (events : List LeaseEvent) : LeaseSystem :=
  events.foldl (step config key limit) sys

end LeaseSystem

section Visible

/-- What the set under a key holds at a time, without what has expired. -/
def visible (now : Int) (entry : Option Entry) : List Scored :=
  (((live now entry).bind fun e => e.value.asZset).getD []).filter fun x =>
    decide ((now : ℚ) < x.score)

/-- The key holds a sorted set that it outlives. -/
def Outlives (entry : Option Entry) : Prop :=
  ∀ e ∈ entry, ∃ entries t, e = ⟨.zset entries, some t⟩ ∧ ∀ x ∈ entries, x.score < (t : ℚ)

variable {now : Int} {entry : Option Entry}

theorem outlives_none : Outlives none := fun _ mem => by cases mem

theorem visible_zset {entries : List Scored} {t : Int} (alive : now < t) :
    visible now (some ⟨.zset entries, some t⟩) =
      entries.filter fun x => decide ((now : ℚ) < x.score) := by
  rw [visible, live_of_lt alive]
  rfl

/-- What a command writes over a set that was found. -/
theorem visible_found {e : Entry} {t : Int} (found : live now entry = some e)
    (expiry : e.expiresAt = some t) (entries : List Scored) :
    visible now (some ⟨.zset entries, some t⟩) =
      entries.filter fun x => decide ((now : ℚ) < x.score) := by
  cases e with
  | mk value expiresAt =>
      obtain rfl : expiresAt = some t := expiry
      rw [visible, live_of_found found]
      rfl

/-- The key never expires before what it holds. -/
theorem visible_later {later : Int} (le : now ≤ later) (h : Outlives entry) :
    visible later entry =
      (visible now entry).filter fun x => decide ((later : ℚ) < x.score) := by
  cases entry with
  | none => rfl
  | some e =>
      obtain ⟨entries, t, rfl, bound⟩ := h e rfl
      rcases lt_or_ge later t with alive | passed
      · rw [visible_zset alive, visible_zset (le.trans_lt alive), List.filter_filter]
        refine List.filter_congr fun x _ => ?_
        have le' : (now : ℚ) ≤ later := by exact_mod_cast le
        by_cases after : (later : ℚ) < x.score
        · simp [after, le'.trans_lt after]
        · simp [after]
      · have passed' : (t : ℚ) ≤ later := by exact_mod_cast passed
        have gone : ∀ x ∈ visible now (some ⟨.zset entries, some t⟩), ¬ (later : ℚ) < x.score := by
          intro x mem
          have member : x ∈ entries := by
            rw [visible] at mem
            cases found : live now (some ⟨.zset entries, some t⟩) with
            | none =>
                rw [found] at mem
                cases mem
            | some e =>
                obtain rfl := Option.some.inj (Option.filter_eq_some_iff.mp found).1
                rw [found] at mem
                exact List.mem_of_mem_filter mem
          linarith [bound x member]
        rw [visible, live_of_le passed]
        exact (List.filter_eq_nil_iff.mpr fun x mem => by simpa using gone x mem).symm

end Visible

section Commands

variable {now : Int} {s : Store} {key : String}

theorem visible_members (h : Outlives (s key)) :
    ∃ xs, zsetOf (live now (s key)) = some xs ∧
      xs.filter (fun x => !inScores none (some (now : ℚ)) x) = visible now (s key) := by
  have within (xs : List Scored) : xs.filter (fun x => !inScores none (some (now : ℚ)) x) =
      xs.filter fun x => decide ((now : ℚ) < x.score) := by
    refine List.filter_congr fun x _ => ?_
    simp only [inScores, Option.all_none, Option.all_some, Bool.true_and, ← decide_not, not_le]
  cases found : live now (s key) with
  | none =>
      refine ⟨[], rfl, ?_⟩
      rw [visible, found]
      rfl
  | some e =>
      obtain ⟨entries, t, rfl, -⟩ := h e (Option.filter_eq_some_iff.mp found).1
      refine ⟨entries, rfl, ?_⟩
      rw [within, visible, found]
      rfl

theorem zrem_entry (h : Outlives (s key)) (member : String) :
    ∃ entry, (command now (.on key (.zrem [member])) s).2 = Function.update s key entry ∧
      Outlives entry ∧
      visible now entry = (visible now (s key)).filter fun x => decide (x.member ≠ member) := by
  cases found : live now (s key) with
  | none =>
      have empty : visible now (s key) = [] := by
        rw [visible, found]
        rfl
      refine ⟨none, ?_, outlives_none, ?_⟩
      · rw [command_on, found]
        rfl
      · rw [empty]
        rfl
  | some e =>
      obtain ⟨entries, t, rfl, bound⟩ := h e (Option.filter_eq_some_iff.mp found).1
      have before : visible now (s key) =
          entries.filter fun x => decide ((now : ℚ) < x.score) := by
        rw [visible, found]
        rfl
      refine ⟨some ⟨.zset (entries.filter fun x => !([member] : List String).contains x.member),
        some t⟩, ?_, ?_, ?_⟩
      · rw [command_on, found]
        rfl
      · intro e mem
        obtain rfl := Option.some.inj mem
        exact ⟨_, t, rfl, fun x mem => bound x (List.mem_of_mem_filter mem)⟩
      · rw [visible_found found rfl, before, List.filter_filter, List.filter_filter]
        refine List.filter_congr fun x _ => ?_
        simp [Bool.and_comm]

/-- The script: it purges, and then refuses or sets one score. -/
theorem concurrency_spec (h : Outlives (s key)) (limit ttl : Int) (member : String) :
    ∃ entry, concurrency (command now) key limit now ttl member s =
        (if limit ≤ (visible now (s key)).length then
            [0, (((visible now (s key)).length : Int) : ℚ)]
          else [1, (((visible now (s key)).length : Int) : ℚ) + 1], Function.update s key entry) ∧
      if limit ≤ (visible now (s key)).length then
        entry = withMembers (live now (s key)) (visible now (s key))
      else ∃ entries, entries.Perm (setScore (visible now (s key)) (now + ttl : Int) member) ∧
        entry = some ⟨.zset entries, some (now + (ttl + 1000))⟩ := by
  obtain ⟨xs, shape, kept⟩ := @visible_members now s key h
  rw [concurrency_eq, admit_spec shape, kept]
  by_cases full : limit ≤ (visible now (s key)).length
  · simp only [if_pos full]
    exact ⟨_, rfl, rfl⟩
  · simp only [if_neg full]
    refine ⟨_, rfl, _, ?_, rfl⟩
    rw [Int.cast_add]
    exact List.perm_insertionSort _ _

end Commands

section Ceiling

def scored (row : Int × String) : Scored := ⟨row.1, row.2⟩

/-- The set under the key lists exactly the leases that count, and no more than the limit. -/
structure InFlight (ttlMs limit now : Int) (entry : Option Entry)
    (leases : List (Lease String Int)) : Prop where
  outlives : Outlives entry
  listed : (visible now entry).Perm ((rows now leases).map scored)
  within : ∀ t ∈ leases.map Lease.expiresAt, t ≤ now + ttlMs
  ceiling : ((rows now leases).length : Int) ≤ limit
  distinct : (leases.map Lease.owner).Nodup

variable {ttlMs limit now : Int} {entry : Option Entry} {leases : List (Lease String Int)}

theorem scored_filter (later : Int) (found : List (Int × String)) :
    (found.map scored).filter (fun x => decide ((later : ℚ) < x.score)) =
      (found.filter fun row => decide (later < row.1)).map scored := by
  rw [List.filter_map]
  congr 1
  refine List.filter_congr fun row _ => ?_
  simp [scored]

theorem visible_of_visible (now : Int) (entry : Option Entry) :
    (visible now entry).filter (fun x => decide ((now : ℚ) < x.score)) = visible now entry :=
  List.filter_eq_self.mpr fun _ mem => (List.mem_filter.mp mem).2

namespace InFlight

theorem later {later : Int} (le : now ≤ later) (h : InFlight ttlMs limit now entry leases) :
    InFlight ttlMs limit later entry leases := by
  refine ⟨h.outlives, ?_, fun t mem => ?_, ?_, h.distinct⟩
  · rw [visible_later le h.outlives, rows_later le, ← scored_filter]
    exact h.listed.filter _
  · linarith [h.within t mem]
  · have shorter := List.length_filter_le (fun row : Int × String => decide (later < row.1))
      (rows now leases)
    rw [rows_later le]
    linarith [h.ceiling, (Int.ofNat_le.mpr shorter)]

/-- A member in the set is the owner of a lease. -/
theorem member_owner (h : InFlight ttlMs limit now entry leases) {x : Scored}
    (mem : x ∈ visible now entry) : ∃ l ∈ leases, x = scored l.row := by
  obtain ⟨row, found, rfl⟩ := List.mem_map.mp (h.listed.mem_iff.mp mem)
  obtain ⟨l, member, rfl⟩ := mem_of_row found
  exact ⟨l, member, rfl⟩

theorem length_eq (h : InFlight ttlMs limit now entry leases) :
    (visible now entry).length = (rows now leases).length := by
  rw [h.listed.length_eq, List.length_map]

/-- Purging the key loses no lease. -/
theorem purged (h : InFlight ttlMs limit now entry leases) :
    InFlight ttlMs limit now (withMembers (live now entry) (visible now entry)) leases := by
  cases found : live now entry with
  | none =>
      have empty : visible now entry = [] := by
        rw [visible, found]
        rfl
      have listed := h.listed
      rw [empty] at listed
      exact ⟨outlives_none, listed, h.within, h.ceiling, h.distinct⟩
  | some e =>
      obtain ⟨entries, t, rfl, bound⟩ := h.outlives e (Option.filter_eq_some_iff.mp found).1
      have same : visible now (some ⟨.zset (visible now entry), some t⟩) = visible now entry := by
        rw [visible_found found rfl, visible_of_visible]
      refine ⟨?_, same.symm ▸ h.listed, h.within, h.ceiling, h.distinct⟩
      intro e mem
      obtain rfl := Option.some.inj mem
      refine ⟨_, t, rfl, fun x mem => bound x ?_⟩
      rw [visible, found] at mem
      exact List.mem_of_mem_filter mem

/-- What the key becomes after an admission still outlives its leases. -/
theorem admitted (h : InFlight ttlMs limit now entry leases) (lifetime : 0 < ttlMs)
    {member : String} (fresh : member ∉ leases.map Lease.owner)
    (room : ((rows now leases).length : Int) < limit) {entries : List Scored}
    (perm : entries.Perm (visible now entry ++ [⟨(now + ttlMs : Int), member⟩])) :
    InFlight ttlMs limit now (some ⟨.zset entries, some (now + (ttlMs + 1000))⟩)
      (leases ++ [⟨member, now + ttlMs, .out⟩]) := by
  have added : rows now (leases ++ [⟨member, now + ttlMs, .out⟩]) =
      rows now leases ++ [(now + ttlMs, member)] := by
    rw [rows_append]
    simp [rows, Lease.counts, Lease.listed, Lease.row, lifetime]
  refine ⟨?_, ?_, ?_, ?_, ?_⟩
  · intro e mem
    obtain rfl := Option.some.inj mem
    refine ⟨entries, _, rfl, fun x mem => ?_⟩
    have bound : ∃ t : Int, x.score = t ∧ t ≤ now + ttlMs := by
      rcases List.mem_append.mp (perm.mem_iff.mp mem) with old | new
      · obtain ⟨l, leased, rfl⟩ := h.member_owner old
        exact ⟨l.expiresAt, rfl, h.within _ (List.mem_map_of_mem leased)⟩
      · obtain rfl := List.mem_singleton.mp new
        exact ⟨now + ttlMs, rfl, le_refl _⟩
    obtain ⟨t, score, le⟩ := bound
    rw [score]
    exact_mod_cast (by omega : t < now + (ttlMs + 1000))
  · have new : (now : ℚ) < ((now + ttlMs : Int) : ℚ) := by
      exact_mod_cast (by omega : now < now + ttlMs)
    have kept := perm.filter fun x => decide ((now : ℚ) < x.score)
    have single : ([⟨(now + ttlMs : Int), member⟩] : List Scored).filter
        (fun x => decide ((now : ℚ) < x.score)) = [⟨(now + ttlMs : Int), member⟩] :=
      List.filter_eq_self.mpr fun x mem => List.mem_singleton.mp mem ▸ decide_eq_true new
    rw [List.filter_append, visible_of_visible, single] at kept
    rw [visible_zset (by omega), added, List.map_append]
    exact kept.trans (h.listed.append_right _)
  · intro t mem
    simp only [List.map_append, List.mem_append, List.map_cons, List.map_nil,
      List.mem_singleton] at mem
    rcases mem with old | rfl
    · exact h.within t old
    · exact le_refl _
  · rw [added, List.length_append, List.length_singleton]
    push_cast
    linarith
  · rw [List.map_append]
    refine h.distinct.append (List.nodup_singleton _) ?_
    simpa using fresh

end InFlight

variable {config : LeaseConfig} {key : String} {sys : LeaseSystem}

theorem acquire_inFlight (h : InFlight config.ttlMs limit now (sys.store key) sys.leases)
    (degraded : Bool) {member : String} (fresh : member ∉ sys.leases.map Lease.owner) :
    InFlight config.ttlMs limit now
      ((sys.step config key limit (.acquire now degraded member)).store key)
      (sys.step config key limit (.acquire now degraded member)).leases := by
  by_cases off : limit ≤ 0
  · simpa only [LeaseSystem.step, acquireConcurrency, if_pos off] using h
  cases degraded with
  | true => simpa only [LeaseSystem.step, acquireConcurrency, if_neg off, if_true] using h
  | false =>
      obtain ⟨entry, run, after⟩ := concurrency_spec h.outlives limit config.ttlMs member
      by_cases full : limit ≤ (visible now (sys.store key)).length
      · rw [if_pos full] at run after
        obtain rfl := after
        simpa [LeaseSystem.step, acquireConcurrency, if_neg off, run] using h.purged
      · rw [if_neg full] at run after
        obtain ⟨entries, perm, rfl⟩ := after
        have new : ∀ x ∈ visible now (sys.store key), x.member ≠ member := by
          intro x mem same
          obtain ⟨l, leased, rfl⟩ := h.member_owner mem
          exact fresh (same ▸ List.mem_map_of_mem leased)
        rw [setScore_fresh _ new] at perm
        have room : ((rows now sys.leases).length : Int) < limit := by
          rw [← h.length_eq]
          omega
        have granted := h.admitted config.ttlMs_pos fresh room perm
        simpa [LeaseSystem.step, acquireConcurrency, if_neg off, run] using granted

/-- What a release leaves of the set: all of it, or all but its own entry. -/
theorem releaseLease_visible (h : Outlives (sys.store key)) (lease : Lease String Int)
    (delivered : Bool) :
    Outlives (releaseLease now key lease delivered sys.store key) ∧
      visible now (releaseLease now key lease delivered sys.store key) =
        if lease.standing = .out ∧ delivered = true then
          (visible now (sys.store key)).filter fun x => decide (x.member ≠ lease.owner)
        else visible now (sys.store key) := by
  by_cases effective : lease.standing = .out ∧ delivered = true
  · obtain ⟨entry, run, outlives, removed⟩ := @zrem_entry now sys.store key h lease.owner
    have store : releaseLease now key lease delivered sys.store =
        Function.update sys.store key entry := by
      rw [releaseLease, Lease.released, effective.1, effective.2, run]
      rfl
    rw [store, Function.update_self, if_pos effective]
    exact ⟨outlives, removed⟩
  · have store : releaseLease now key lease delivered sys.store = sys.store := by
      cases standing : lease.standing with
      | out =>
          cases delivered with
          | true => exact absurd ⟨standing, rfl⟩ effective
          | false => simp [releaseLease]
      | lost => simp [releaseLease, Lease.released, standing]
      | returned => simp [releaseLease, Lease.released, standing]
    rw [store, if_neg effective]
    exact ⟨h, rfl⟩

theorem release_inFlight (h : InFlight config.ttlMs limit now (sys.store key) sys.leases)
    (i : Nat) (delivered : Bool) :
    InFlight config.ttlMs limit now
      ((sys.step config key limit (.release now i delivered)).store key)
      (sys.step config key limit (.release now i delivered)).leases := by
  cases found : sys.leases[i]? with
  | none => simpa only [LeaseSystem.step, found] using h
  | some l =>
      have within : ∀ t ∈ (giveBack delivered i sys.leases).map Lease.expiresAt,
          t ≤ now + config.ttlMs := by
        rw [expiresAt_giveBack]
        exact h.within
      have distinct : ((giveBack delivered i sys.leases).map Lease.owner).Nodup := by
        rw [owners_giveBack]
        exact h.distinct
      obtain ⟨outlives, seen⟩ := @releaseLease_visible now key sys h.outlives l delivered
      simp only [LeaseSystem.step, found]
      by_cases effective : l.standing = .out ∧ delivered = true
      · rw [if_pos effective] at seen
        obtain ⟨out, rfl⟩ := effective
        have left := rows_giveBack now found out h.distinct
        refine ⟨outlives, ?_, within, ?_, distinct⟩
        · have listed := h.listed.filter fun x => decide (x.member ≠ l.owner)
          rw [List.filter_map] at listed
          rw [seen, left]
          exact listed
        · have shorter := List.length_filter_le (fun row : Int × String => decide (row.2 ≠ l.owner))
            (rows now sys.leases)
          rw [left]
          linarith [h.ceiling, (Int.ofNat_le.mpr shorter)]
      · rw [if_neg effective] at seen
        have vain : delivered = false ∨ l.standing ≠ .out := by
          cases delivered with
          | true => exact .inr fun out => effective ⟨out, rfl⟩
          | false => exact .inl rfl
        have left := rows_giveBack_lost now found vain
        exact ⟨outlives, by rw [seen, left]; exact h.listed, within, left.symm ▸ h.ceiling, distinct⟩

/-- Every lease is owned by a member that was drawn. -/
theorem step_owners (sys : LeaseSystem) (e : LeaseEvent) :
    ∀ owner ∈ (sys.step config key limit e).leases.map Lease.owner,
      owner ∈ sys.leases.map Lease.owner ∨ owner ∈ e.drawn := by
  cases e with
  | acquire now degraded member =>
      intro owner mem
      simp only [LeaseSystem.step] at mem
      split at mem
      · next granted s outcome =>
          have own : granted = member := by
            rw [acquireConcurrency] at outcome
            split at outcome
            · cases outcome
            · split at outcome
              · cases outcome
              · simp only at outcome
                split at outcome
                · cases outcome
                  rfl
                · cases outcome
          simp only [List.map_append, List.mem_append, List.map_cons, List.map_nil, own] at mem
          exact mem
      · exact .inl mem
  | release now i delivered =>
      intro owner mem
      refine .inl ?_
      simp only [LeaseSystem.step] at mem
      split at mem
      · exact mem
      · rwa [owners_giveBack] at mem

theorem step_inFlight (h : InFlight config.ttlMs limit now (sys.store key) sys.leases)
    {e : LeaseEvent} (forward : now ≤ e.now)
    (fresh : ∀ member ∈ e.drawn, member ∉ sys.leases.map Lease.owner) :
    InFlight config.ttlMs limit e.now ((sys.step config key limit e).store key)
      (sys.step config key limit e).leases := by
  cases e with
  | acquire now degraded member =>
      exact acquire_inFlight (h.later forward) degraded (fresh member (List.mem_singleton.mpr rfl))
  | release now i delivered => exact release_inFlight (h.later forward) i delivered

theorem run_inFlight {events : List LeaseEvent} {start : Int}
    (h : InFlight config.ttlMs limit start (sys.store key) sys.leases)
    (forward : (start :: (events.map LeaseEvent.now ++ [now])).IsChain (· ≤ ·))
    (draws : (sys.leases.map Lease.owner ++ events.flatMap LeaseEvent.drawn).Nodup) :
    InFlight config.ttlMs limit now ((sys.run config key limit events).store key)
      (sys.run config key limit events).leases := by
  induction events generalizing sys start with
  | nil => exact h.later forward.rel
  | cons e events ih =>
      obtain ⟨first, rest⟩ := List.isChain_cons_cons.mp forward
      rw [List.flatMap_cons] at draws
      obtain ⟨distinct, drawn, apart⟩ := List.nodup_append'.mp draws
      obtain ⟨own, later, fresh⟩ := List.nodup_append'.mp drawn
      have stepped := step_inFlight h first fun member mem owned =>
        apart owned (List.mem_append_left _ mem)
      refine ih stepped rest (List.nodup_append'.mpr ⟨stepped.distinct, later, ?_⟩)
      intro owner owned mem
      rcases step_owners sys e owner owned with old | new
      · exact apart old (List.mem_append_right _ mem)
      · exact fresh new mem

theorem fresh_inFlight (positive : 1 ≤ limit) (fresh : entry = none) (now : Int) :
    InFlight ttlMs limit now entry [] := by
  subst fresh
  have room : ((rows now ([] : List (Lease String Int))).length : Int) ≤ limit := by
    simp only [rows, List.filter_nil, List.map_nil, List.length_nil]
    omega
  exact ⟨outlives_none, .nil, by simp, room, List.nodup_nil⟩

end Ceiling

/-- Two leases under a ceiling of one: the second is refused, then admitted. -/
def handedOver : List LeaseEvent :=
  [.acquire 0 false "a", .acquire 1 false "b", .release 2 0 true, .release 3 0 true,
    .acquire 4 false "c"]

end Gateway.RateLimit
