import Gateway.Http.Errors
import Gateway.Lib.Machine
import Gateway.Lib.SlidingWindow
import Gateway.Redis.Admission
import Mathlib.Data.List.Chain

/-!
The window of successful requests: a sorted set of members, scored by the time at
which they were admitted.

A call purges what has left the window before it counts. The key of the set
expires a window after the last admission, when nothing in the set is within the
window any more; so its expiry never lets a request in.
-/

namespace Gateway.RateLimit

open Redis SlidingWindow

/-- A call at a time of the caller. -/
structure SuccessCall where
  now : Int
  member : String

/-- The store, and the times that were admitted, in turn. -/
structure SuccessSystem where
  store : Store
  admitted : List Int

/-- The clock of the store is ahead of the callers by a constant. -/
def successStep (key : String) (limit window offset : Int) (sys : SuccessSystem)
    (call : SuccessCall) : SuccessSystem × List ℚ :=
  let (result, s) := slidingSuccess (command (call.now + offset)) key limit window call.now
    call.member sys.store
  (⟨s, if result.head? = some 1 then sys.admitted ++ [call.now] else sys.admitted⟩, result)

section Entries

def members : Option Entry → List Scored
  | some ⟨.zset entries, _⟩ => entries
  | _ => []

def scores (entry : Option Entry) : List ℚ := (members entry).map Scored.score

/-- The set under the key stands for the admissions that are still recent, and outlives them. -/
structure Tracks (window offset now : Int) (entry : Option Entry) (admitted : List Int)
    (drawn : List String) : Prop where
  shaped : ∀ e ∈ entry, ∃ xs t, e = ⟨.zset xs, some t⟩ ∧
    ∀ x ∈ xs, x.score + (window + offset : Int) ≤ (t : ℚ)
  listed : (recent (window : ℚ) now (scores entry)).Perm
    (recent (window : ℚ) now (admitted.map Int.cast))
  drawn : ∀ x ∈ members entry, x.member ∈ drawn
  past : ∀ t ∈ admitted, t ≤ now

variable {window offset now : Int} {entry : Option Entry} {admitted : List Int}
  {drawn : List String}

theorem recent_cast (window now : Int) (admitted : List Int) :
    recent (window : ℚ) now (admitted.map Int.cast) =
      (recent window now admitted).map Int.cast := by
  rw [recent, recent, List.filter_map]
  congr 1
  refine List.filter_congr fun t _ => ?_
  rw [Function.comp_apply, decide_eq_decide, ← Int.cast_sub]
  exact Int.cast_lt

theorem Tracks.later {later : Int} (h : Tracks window offset now entry admitted drawn)
    (le : now ≤ later) : Tracks window offset later entry admitted drawn := by
  have le' : (now : ℚ) ≤ later := Int.cast_le.mpr le
  refine ⟨h.shaped, ?_, h.drawn, fun t mem => (h.past t mem).trans le⟩
  rw [recent_later (window : ℚ) le', recent_later (window : ℚ) le' (admitted.map Int.cast)]
  exact h.listed.filter _

theorem Tracks.length_eq (h : Tracks window offset now entry admitted drawn) :
    (recent (window : ℚ) now (scores entry)).length = (recent window now admitted).length := by
  have same := h.listed.length_eq
  rwa [recent_cast, List.length_map] at same

theorem tracks_fresh (fresh : entry = none) (now : Int) :
    Tracks window offset now entry [] [] := by
  subst fresh
  refine ⟨?_, List.Perm.nil, ?_, ?_⟩
  · intro e mem
    cases mem
  · intro x mem
    cases mem
  · intro t mem
    cases mem

/-- A purge keeps the members whose scores are recent. -/
theorem scores_purged (xs : List Scored) :
    (xs.filter fun x => !inScores none (some ((now - window : Int) : ℚ)) x).map Scored.score =
      recent (window : ℚ) now (xs.map Scored.score) := by
  rw [recent, List.filter_map]
  congr 1
  refine List.filter_congr fun x _ => ?_
  simp only [inScores, Option.all_none, Option.all_some, Bool.true_and, ← decide_not, not_le,
    Int.cast_sub, Function.comp_apply]

/-- An expired key has nothing in it that a purge would have left. -/
theorem Tracks.found (h : Tracks window offset now entry admitted drawn) :
    ∃ xs, zsetOf (live (now + offset) entry) = some xs ∧ (∀ x ∈ xs, x ∈ members entry) ∧
      recent (window : ℚ) now (xs.map Scored.score) =
        recent (window : ℚ) now (scores entry) := by
  cases entry with
  | none => exact ⟨[], rfl, fun _ mem => mem, rfl⟩
  | some e =>
      obtain ⟨xs, t, rfl, bound⟩ := h.shaped e rfl
      rcases lt_or_ge (now + offset) t with alive | passed
      · exact ⟨xs, by rw [live_of_lt alive]; rfl, fun _ mem => mem, rfl⟩
      · refine ⟨[], by rw [live_of_le passed]; rfl, by simp, ?_⟩
        refine (List.filter_eq_nil_iff.mpr fun score mem => ?_).symm
        obtain ⟨x, member, rfl⟩ := List.mem_map.mp mem
        have ended : (t : ℚ) ≤ ((now + offset : Int) : ℚ) := Int.cast_le.mpr passed
        have outlived := bound x member
        push_cast at ended outlived
        simp only [decide_eq_true_eq, not_lt]
        linarith

/-- What a purge leaves under the key, where the key was found. -/
theorem Tracks.purged {xs : List Scored} (h : Tracks window offset now entry admitted drawn)
    (shape : zsetOf (live (now + offset) entry) = some xs) {p : Scored → Bool}
    (left : (xs.filter p).map Scored.score = recent (window : ℚ) now (scores entry)) :
    Tracks window offset now (withMembers (live (now + offset) entry) (xs.filter p)) admitted
      drawn := by
  cases found : live (now + offset) entry with
  | none =>
      rw [found] at shape
      obtain rfl := Option.some.inj shape
      refine ⟨?_, (List.Perm.of_eq left).trans h.listed, ?_, h.past⟩
      · intro e mem
        cases mem
      · intro x mem
        cases mem
  | some e =>
      have stored := (Option.filter_eq_some_iff.mp found).1
      obtain ⟨ys, t, rfl, bound⟩ := h.shaped e stored
      subst stored
      rw [found] at shape
      obtain rfl := Option.some.inj shape
      refine ⟨?_, ?_, fun x mem => h.drawn x (List.mem_of_mem_filter mem), h.past⟩
      · intro e mem
        obtain rfl := Option.some.inj mem
        exact ⟨_, t, rfl, fun x mem => bound x (List.mem_of_mem_filter mem)⟩
      · change (recent (window : ℚ) now ((ys.filter p).map Scored.score)).Perm _
        rw [left, recent, recent, List.filter_filter]
        simp only [Bool.and_self]
        exact h.listed

theorem Tracks.added {xs : List Scored} {member : String}
    (h : Tracks window offset now entry admitted drawn)
    (left : xs.map Scored.score = recent (window : ℚ) now (scores entry))
    (known : ∀ x ∈ xs, x.member ∈ drawn) (fresh : member ∉ drawn) :
    Tracks window offset now
      (some ⟨.zset (sortScores (setScore xs now member)), some (now + offset + window)⟩)
      (admitted ++ [now]) (member :: drawn) := by
  have early : ∀ x ∈ xs, x.score ≤ (now : ℚ) := by
    intro x mem
    have listed : x.score ∈ recent (window : ℚ) now (admitted.map Int.cast) :=
      h.listed.subset (left ▸ List.mem_map_of_mem mem)
    obtain ⟨t, old, cast⟩ := List.mem_map.mp (List.mem_of_mem_filter listed)
    rw [← cast]
    exact Int.cast_le.mpr (h.past t old)
  have set : setScore xs now member = xs ++ [⟨now, member⟩] :=
    setScore_fresh _ fun x mem same => fresh (same ▸ known x mem)
  have perm : (sortScores (setScore xs now member)).Perm (xs ++ [⟨now, member⟩]) := by
    rw [set]
    exact List.perm_insertionSort _ _
  refine ⟨?_, ?_, ?_, ?_⟩
  · intro e mem
    obtain rfl := Option.some.inj mem
    refine ⟨_, _, rfl, fun x mem => ?_⟩
    have score : x.score ≤ (now : ℚ) := by
      cases List.mem_append.mp (perm.subset mem) with
      | inl old => exact early x old
      | inr new =>
          obtain rfl := List.mem_singleton.mp new
          exact le_refl _
    push_cast
    linarith
  · have scored : (scores (some ⟨.zset (sortScores (setScore xs now member)),
        some (now + offset + window)⟩)).Perm (xs.map Scored.score ++ [(now : ℚ)]) := by
      have mapped := perm.map Scored.score
      rwa [List.map_append] at mapped
    refine (scored.filter _).trans ?_
    rw [List.map_append, recent_append]
    refine (List.Perm.of_eq (List.filter_append ..)).trans (List.Perm.append_right _ ?_)
    rw [left, recent, recent, List.filter_filter]
    simp only [Bool.and_self]
    exact h.listed
  · intro x mem
    cases List.mem_append.mp (perm.subset mem) with
    | inl old => exact List.mem_cons_of_mem _ (known x old)
    | inr new =>
        obtain rfl := List.mem_singleton.mp new
        exact List.mem_cons_self
  · intro t mem
    cases List.mem_append.mp mem with
    | inl old => exact h.past t old
    | inr new => exact (List.mem_singleton.mp new).le

theorem Tracks.mono {more : List String} (h : Tracks window offset now entry admitted drawn)
    (subset : ∀ m ∈ drawn, m ∈ more) : Tracks window offset now entry admitted more :=
  ⟨h.shaped, h.listed, fun x mem => subset _ (h.drawn x mem), h.past⟩

end Entries

section Step

variable {key : String} {limit window offset now : Int} {sys : SuccessSystem}
  {drawn : List String}

/-- A call is an attempt on the window. -/
theorem success_step (on : 1 ≤ limit) {call : SuccessCall}
    (h : Tracks window offset call.now (sys.store key) sys.admitted drawn)
    (fresh : call.member ∉ drawn) :
    ((successStep key limit window offset sys call).2.head? =
        some (if limit ≤ (recent window call.now sys.admitted).length then 0 else 1)) ∧
      (successStep key limit window offset sys call).1.admitted =
        attempt limit window sys.admitted call.now ∧
      Tracks window offset call.now ((successStep key limit window offset sys call).1.store key)
        (attempt limit window sys.admitted call.now) (call.member :: drawn) := by
  obtain ⟨xs, shape, subset, same⟩ := h.found
  let kept := xs.filter fun x => !inScores none (some ((call.now - window : Int) : ℚ)) x
  have spec : slidingSuccess (command (call.now + offset)) key limit window call.now call.member
      sys.store = _ :=
    (slidingSuccess_eq _ key (by omega) window call.now call.member sys.store).trans
      (admit_spec shape (some ((call.now - window : Int) : ℚ)) limit call.now call.member window)
  have purged : kept.map Scored.score = recent (window : ℚ) call.now (scores (sys.store key)) :=
    (scores_purged xs).trans same
  have count : kept.length = (recent window call.now sys.admitted).length := by
    rw [← h.length_eq, ← purged, List.length_map]
  have known : ∀ x ∈ kept, x.member ∈ drawn := fun x mem =>
    h.drawn x (subset x (List.mem_of_mem_filter mem))
  simp only [successStep, spec]
  by_cases full : limit ≤ kept.length
  · rw [if_pos full, attempt, ← count, if_pos full, if_pos full]
    refine ⟨rfl, if_neg (by simp), ?_⟩
    dsimp only
    rw [Function.update_self]
    exact (h.purged shape purged).mono fun m mem => List.mem_cons_of_mem _ mem
  · rw [if_neg full, attempt, ← count, if_neg full, if_neg full]
    refine ⟨rfl, if_pos rfl, ?_⟩
    dsimp only
    rw [Function.update_self]
    exact h.added purged known fresh

/-- What every call of a run answered, and the bound in the end. -/
theorem success_run (on : 1 ≤ limit) {calls : List SuccessCall}
    (bounded : Bounded limit window sys.admitted)
    (h : Tracks window offset now (sys.store key) sys.admitted drawn)
    (forward : (now :: calls.map SuccessCall.now).IsChain (· ≤ ·))
    (draws : (drawn ++ calls.map SuccessCall.member).Nodup) :
    Bounded limit window
        (Machine.run (successStep key limit window offset) sys calls).admitted ∧
      ∀ e ∈ Machine.trace (successStep key limit window offset) sys calls,
        e.reply.head? = some
          (if limit ≤ (recent window e.action.now e.before.admitted).length then 0 else 1) := by
  induction calls generalizing sys now drawn with
  | nil => exact ⟨bounded, fun e mem => by cases mem⟩
  | cons call calls ih =>
      obtain ⟨first, rest⟩ := List.isChain_cons_cons.mp forward
      obtain ⟨distinct, drawn_later, apart⟩ := List.nodup_append'.mp draws
      have fresh : call.member ∉ drawn := fun mem => apart mem List.mem_cons_self
      obtain ⟨reply, admitted, tracked⟩ := success_step on (h.later first) fresh
      have later : (call.member :: drawn ++ calls.map SuccessCall.member).Nodup :=
        List.perm_middle.nodup_iff.mp draws
      have bounded' := bounded.attempt call.now
      rw [← admitted] at bounded' tracked
      obtain ⟨final, replies⟩ := ih bounded' tracked rest later
      refine ⟨final, fun e mem => ?_⟩
      cases mem with
      | head => exact reply
      | tail _ mem => exact replies e mem

end Step

/-- No half-open span as long as the window holds more admissions than the limit, and a call is
refused only if that many were admitted in the window before it. -/
theorem success_window (key : String) {limit : Int} (on : 1 ≤ limit) (window offset : Int)
    {s : Store} (fresh : s key = none) {calls : List SuccessCall}
    (forward : (calls.map SuccessCall.now).IsChain (· ≤ ·))
    (draws : (calls.map SuccessCall.member).Nodup) :
    let admitted := (Machine.run (successStep key limit window offset) ⟨s, []⟩ calls).admitted
    (∀ t, ((admitted.filter fun a => t ≤ a ∧ a < t + window).length : Int) ≤ limit) ∧
      (∀ t, ((admitted.filter fun a => t < a ∧ a ≤ t + window).length : Int) ≤ limit) ∧
      ∀ e ∈ Machine.trace (successStep key limit window offset) ⟨s, []⟩ calls,
        e.reply.head? = some 1 ∨ e.reply.head? = some 0 ∧
          limit ≤ (e.before.admitted.filter fun a => e.action.now - window < a).length := by
  intro admitted
  have bounded : Bounded limit window ([] : List Int) := bounded_nil (by omega) window
  have run : Bounded limit window admitted ∧
      ∀ e ∈ Machine.trace (successStep key limit window offset) ⟨s, []⟩ calls,
        e.reply.head? = some
          (if limit ≤ (recent window e.action.now e.before.admitted).length then 0 else 1) := by
    cases calls with
    | nil => exact ⟨bounded, fun e mem => by cases mem⟩
    | cons call calls =>
        have start : Tracks window offset call.now ((⟨s, []⟩ : SuccessSystem).store key) [] [] :=
          tracks_fresh fresh call.now
        exact success_run on bounded start
          (List.isChain_cons_cons.mpr ⟨le_refl call.now, forward⟩) draws
  refine ⟨fun t => run.1 _ (narrow_Ico window t), fun t => run.1 _ (narrow_Ioc window t), ?_⟩
  intro e mem
  have reply := run.2 e mem
  split at reply
  · next full => exact .inr ⟨reply, full⟩
  · exact .inl reply

/-- One request in any second, and three that come. -/
def hurried : List SuccessCall := [⟨0, "a"⟩, ⟨999, "b"⟩, ⟨1000, "c"⟩]

theorem success_window_hurried :
    (((Machine.run (successStep "k" 1 1000 0) ⟨Store.empty, []⟩ hurried).admitted.filter
      fun a => (0 : Int) ≤ a ∧ a < 0 + 1000).length : Int) ≤ 1 :=
  (success_window "k" (by decide) 1000 0 rfl (by decide) (by decide)).1 0

end Gateway.RateLimit
