import Gateway.Routing.Abilities
import Mathlib.Algebra.Order.Ring.Rat
import Mathlib.Data.List.Induction

/-!
Choosing a channel.

The candidates are grouped into tiers of one priority, highest first; the
attempt selects a tier, and the channel is drawn within it by weight.
-/

namespace Gateway

/-- Added to every weight. -/
def weightFloor : ℚ := 10

/-- What an election is given besides the candidates; `random` is the value drawn. -/
structure ElectionOptions where
  attempt : Nat
  affinityChannelId : Option String
  random : ℚ

/-- The map from priorities to tiers, in the order of insertion. -/
def addToTier (candidate : Candidate) :
    List (ℚ × List Candidate) → List (ℚ × List Candidate)
  | [] => [(candidate.priority, [candidate])]
  | (priority, tier) :: rest =>
      if priority = candidate.priority then (priority, tier ++ [candidate]) :: rest
      else (priority, tier) :: addToTier candidate rest

def byPriority (candidates : List Candidate) : List (ℚ × List Candidate) :=
  candidates.foldl (fun tiers candidate => addToTier candidate tiers) []

def tiersOf (candidates : List Candidate) : List (List Candidate) :=
  ((byPriority candidates).insertionSort (fun a b => b.1 ≤ a.1)).map Prod.snd

def share (candidate : Candidate) : ℚ := max 0 candidate.weight + weightFloor

/-- The candidate whose share the cursor falls into. -/
def pickAt (cursor : ℚ) : List Candidate → Option Candidate
  | [] => none
  | candidate :: rest =>
      if cursor - share candidate < 0 then some candidate
      else pickAt (cursor - share candidate) rest

def weightedPick (tier : List Candidate) (random : ℚ) : Option Candidate :=
  match tier with
  | [] => none
  | [candidate] => some candidate
  | tier => (pickAt (random * (tier.map share).sum) tier).or tier.getLast?

def electFrom (candidates : List Candidate) (options : ElectionOptions) : Option Candidate :=
  let tiers := tiersOf candidates
  match tiers[min options.attempt (tiers.length - 1)]? with
  | none => none
  | some tier =>
      let pinned :=
        if options.attempt = 0 then
          options.affinityChannelId.bind fun id => tier.find? (fun c => c.channelId = id)
        else none
      pinned.or (weightedPick tier options.random)

section Tiers

/-- The tier of a priority. -/
def tierAt (candidates : List Candidate) (priority : ℚ) : List Candidate :=
  candidates.filter (fun c => c.priority = priority)

/-- The priorities that occur, highest first. -/
def priorities (candidates : List Candidate) : List ℚ :=
  ((byPriority candidates).map Prod.fst).insertionSort (fun a b => b ≤ a)

theorem addToTier_map (c : Candidate) (keys : List ℚ) (f : ℚ → List Candidate)
    (distinct : keys.Nodup) (absent : c.priority ∉ keys → f c.priority = []) :
    addToTier c (keys.map fun p => (p, f p)) =
      (if c.priority ∈ keys then keys else keys ++ [c.priority]).map
        fun p => (p, if p = c.priority then f p ++ [c] else f p) := by
  induction keys with
  | nil => simp [addToTier, absent]
  | cons p keys ih =>
      obtain ⟨fresh, distinct⟩ := List.nodup_cons.mp distinct
      rw [List.map_cons, addToTier]
      by_cases same : p = c.priority
      · subst same
        have rest : keys.map (fun q => (q, if q = c.priority then f q ++ [c] else f q)) =
            keys.map fun q => (q, f q) := by
          apply List.map_congr_left
          intro q mem
          have other : q ≠ c.priority := fun h => fresh (h ▸ mem)
          rw [if_neg other]
        simp [rest]
      · rw [if_neg same, ih distinct (fun h => absent (by simp [Ne.symm same, h]))]
        by_cases mem : c.priority ∈ keys <;> simp [same, Ne.symm same, mem]

/-- The map holds each priority that occurs once, with its tier. -/
theorem byPriority_spec (candidates : List Candidate) :
    ((byPriority candidates).map Prod.fst).Nodup ∧
      (∀ p, p ∈ (byPriority candidates).map Prod.fst ↔ ∃ c ∈ candidates, c.priority = p) ∧
      byPriority candidates =
        ((byPriority candidates).map Prod.fst).map fun p => (p, tierAt candidates p) := by
  induction candidates using List.reverseRecOn with
  | nil => simp [byPriority]
  | append_singleton rest c ih =>
      obtain ⟨distinct, covers, tiers⟩ := ih
      generalize (byPriority rest).map Prod.fst = keys at distinct covers tiers
      have absent : c.priority ∉ keys → tierAt rest c.priority = [] := by
        intro h
        rw [tierAt, List.filter_eq_nil_iff]
        intro d hd same
        exact h ((covers _).mpr ⟨d, hd, of_decide_eq_true same⟩)
      have step : byPriority (rest ++ [c]) =
          (if c.priority ∈ keys then keys else keys ++ [c.priority]).map
            fun p => (p, tierAt (rest ++ [c]) p) := by
        rw [byPriority, List.foldl_append, List.foldl_cons, List.foldl_nil]
        change addToTier c (byPriority rest) = _
        rw [tiers, addToTier_map c keys _ distinct absent]
        apply List.map_congr_left
        intro p _
        by_cases same : p = c.priority
        · subst same
          simp [tierAt]
        · simp [tierAt, same, Ne.symm same]
      have named : (byPriority (rest ++ [c])).map Prod.fst =
          if c.priority ∈ keys then keys else keys ++ [c.priority] := by
        rw [step, List.map_map]
        exact List.map_id _
      rw [named]
      refine ⟨?_, ?_, step⟩
      · split
        · exact distinct
        · next fresh =>
            exact List.nodup_append.mpr ⟨distinct, List.nodup_singleton _, by
              rintro a ha b hb rfl
              exact fresh (List.mem_singleton.mp hb ▸ ha)⟩
      · intro p
        have mem : p ∈ (if c.priority ∈ keys then keys else keys ++ [c.priority]) ↔
            p ∈ keys ∨ p = c.priority := by
          split
          · next known =>
              exact ⟨.inl, fun h => h.elim id (fun same => same ▸ known)⟩
          · simp
        rw [mem, covers]
        simp only [List.mem_append, List.mem_singleton]
        constructor
        · rintro (⟨d, hd, rfl⟩ | rfl)
          · exact ⟨d, .inl hd, rfl⟩
          · exact ⟨c, .inr rfl, rfl⟩
        · rintro ⟨d, hd | rfl, rfl⟩
          · exact .inl ⟨d, hd, rfl⟩
          · exact .inr rfl

theorem mem_priorities {candidates : List Candidate} {p : ℚ} :
    p ∈ priorities candidates ↔ ∃ c ∈ candidates, c.priority = p := by
  rw [priorities, List.mem_insertionSort]
  exact (byPriority_spec candidates).2.1 p

theorem priorities_sorted (candidates : List Candidate) :
    (priorities candidates).Pairwise (· > ·) := by
  have sorted : (priorities candidates).Pairwise (fun a b => b ≤ a) :=
    List.pairwise_insertionSort _ _
  have distinct : (priorities candidates).Nodup :=
    (List.perm_insertionSort _ _).nodup_iff.mpr (byPriority_spec candidates).1
  exact (sorted.and distinct).imp fun h => lt_of_le_of_ne h.1 (Ne.symm h.2)

theorem tiersOf_eq (candidates : List Candidate) :
    tiersOf candidates = (priorities candidates).map (tierAt candidates) := by
  have tiers := (byPriority_spec candidates).2.2
  rw [tiersOf, priorities]
  generalize (byPriority candidates).map Prod.fst = keys at tiers
  rw [tiers, ← List.map_insertionSort (fun a b => b ≤ a) _ (fun p => (p, tierAt candidates p)) keys
    (fun a _ b _ => Iff.rfl), List.map_map]
  rfl

theorem tierAt_ne_nil {candidates : List Candidate} {p : ℚ} (mem : p ∈ priorities candidates) :
    tierAt candidates p ≠ [] := by
  obtain ⟨c, hc, rfl⟩ := mem_priorities.mp mem
  exact List.ne_nil_of_mem (List.mem_filter.mpr ⟨hc, decide_eq_true rfl⟩)

theorem mem_tierAt {candidates : List Candidate} {p : ℚ} {c : Candidate} :
    c ∈ tierAt candidates p ↔ c ∈ candidates ∧ c.priority = p := by
  rw [tierAt, List.mem_filter, decide_eq_true_eq]

end Tiers

section Picks

theorem mem_of_pickAt {tier : List Candidate} {cursor : ℚ} {c : Candidate}
    (picked : pickAt cursor tier = some c) : c ∈ tier := by
  induction tier generalizing cursor with
  | nil => exact nomatch picked
  | cons candidate rest ih =>
      rw [pickAt] at picked
      split at picked
      · cases picked
        exact List.mem_cons_self
      · exact List.mem_cons_of_mem _ (ih picked)

theorem mem_of_weightedPick {tier : List Candidate} {random : ℚ} {c : Candidate}
    (picked : weightedPick tier random = some c) : c ∈ tier := by
  rw [weightedPick.eq_def] at picked
  split at picked
  · exact nomatch picked
  · cases picked
    exact List.mem_cons_self
  · rcases Option.or_eq_some_iff.mp picked with picked | ⟨-, last⟩
    · exact mem_of_pickAt picked
    · exact List.mem_of_getLast? last

theorem exists_weightedPick {tier : List Candidate} (nonempty : tier ≠ []) (random : ℚ) :
    ∃ c, weightedPick tier random = some c := by
  rw [weightedPick.eq_def]
  split
  · contradiction
  · exact ⟨_, rfl⟩
  · cases pickAt (random * (tier.map share).sum) tier with
    | some c => exact ⟨c, rfl⟩
    | none => exact ⟨_, List.getLast?_eq_some_getLast nonempty⟩

/-- The position of the tier an attempt is made on. -/
def tierIndex (attempt tiers : Nat) : Nat := min attempt (tiers - 1)

/-- An election picks from the tier of the attempt, whatever is drawn or pinned. -/
theorem electFrom_spec {candidates : List Candidate} {options : ElectionOptions} {c : Candidate}
    (elected : electFrom candidates options = some c) :
    c ∈ candidates ∧
      (priorities candidates)[tierIndex options.attempt (priorities candidates).length]? =
        some c.priority := by
  simp only [electFrom, tiersOf_eq, List.length_map, List.getElem?_map] at elected
  rw [tierIndex]
  generalize found : (priorities candidates)[min options.attempt
    ((priorities candidates).length - 1)]? = priority at elected ⊢
  cases priority with
  | none => exact nomatch elected
  | some p =>
      have mem : c ∈ tierAt candidates p := by
        rcases Option.or_eq_some_iff.mp elected with pinned | ⟨-, picked⟩
        · split at pinned
          · obtain ⟨id, -, pinned⟩ := Option.bind_eq_some_iff.mp pinned
            exact List.mem_of_find?_eq_some pinned
          · exact nomatch pinned
        · exact mem_of_weightedPick picked
      obtain ⟨hc, rfl⟩ := mem_tierAt.mp mem
      exact ⟨hc, rfl⟩

theorem exists_electFrom {candidates : List Candidate} (nonempty : candidates ≠ [])
    (options : ElectionOptions) : ∃ c, electFrom candidates options = some c := by
  obtain ⟨first, hfirst⟩ := List.exists_mem_of_ne_nil _ nonempty
  have positive : 0 < (priorities candidates).length :=
    List.length_pos_of_mem (mem_priorities.mpr ⟨first, hfirst, rfl⟩)
  have bound : min options.attempt ((priorities candidates).length - 1) <
      (priorities candidates).length := by omega
  simp only [electFrom, tiersOf_eq, List.length_map, List.getElem?_map,
    List.getElem?_eq_getElem bound, Option.map_some]
  obtain ⟨c, picked⟩ := exists_weightedPick
    (tierAt_ne_nil (List.getElem_mem bound)) options.random
  rw [picked]
  cases h : (if options.attempt = 0 then _ else none : Option Candidate) with
  | none => exact ⟨c, rfl⟩
  | some d => exact ⟨d, rfl⟩

end Picks

end Gateway
