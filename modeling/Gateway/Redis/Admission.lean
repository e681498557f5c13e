import Gateway.Redis.Scripts

/-!
Admission by a sorted set of expiring members: purge, count, then add or refuse.
The ceiling on requests in flight and the window of successes are both of this
form.
-/

namespace Gateway.Redis

/-- The sorted set under a key; a missing key is an empty set. -/
def zsetOf : Option Entry → Option (List Scored)
  | none => some []
  | some ⟨.zset entries, _⟩ => some entries
  | some _ => none

def tryAdmit {σ : Type} (r : Interpreter σ) (key : String) (max : Option ℚ) (limit : Int)
    (score : ℚ) (member : String) (ms : Int) (s : σ) : List ℚ × σ :=
  let (_, s) := r (.on key (.zremrangebyscore none max)) s
  let (card, s) := r (.on key .zcard) s
  if (limit : ℚ) ≤ card.toRat then ([0, card.toRat], s)
  else
    let (_, s) := r (.on key (.zadd [(score, member)])) s
    let (_, s) := r (.on key (.pexpire ms)) s
    ([1, card.toRat + 1], s)

theorem concurrency_eq {σ : Type} (r : Interpreter σ) (key : String) (limit now ttl : Int)
    (member : String) (s : σ) :
    concurrency r key limit now ttl member s =
      tryAdmit r key (some now) limit (now + ttl) member (ttl + 1000) s := rfl

theorem slidingSuccess_eq {σ : Type} (r : Interpreter σ) (key : String) {limit : Int}
    (on : ¬ limit ≤ 0) (window now : Int) (member : String) (s : σ) :
    slidingSuccess r key limit window now member s =
      tryAdmit r key (some (now - window : Int)) limit now member window s :=
  if_neg on

section Entries

variable {now : Int} {entry : Option Entry} {xs : List Scored}

/-- The entry with other members under the expiry it has. -/
def withMembers (entry : Option Entry) (xs : List Scored) : Option Entry :=
  entry.map fun e => ⟨.zset xs, e.expiresAt⟩

theorem live_withMembers (alive : live now entry = entry) (xs : List Scored) :
    live now (withMembers entry xs) = withMembers entry xs := by
  cases entry with
  | none => rfl
  | some e => exact @live_of_found now (some e) e.value _ e.expiresAt alive

theorem collection_zset (shape : zsetOf entry = some xs) :
    collection Value.asZset [] entry = some (xs, entry.bind Entry.expiresAt) := by
  cases entry with
  | none =>
      obtain rfl := Option.some.inj shape
      rfl
  | some e =>
      cases e with
      | mk value expiresAt =>
          cases value with
          | zset entries =>
              obtain rfl := Option.some.inj shape
              rfl
          | scalar d => cases shape
          | hash fields => cases shape
          | list items => cases shape

theorem zsetOf_withMembers (shape : zsetOf entry = some xs) (p : Scored → Bool) :
    zsetOf (withMembers entry (xs.filter p)) = some (xs.filter p) := by
  cases entry with
  | none =>
      obtain rfl := Option.some.inj shape
      rfl
  | some e => rfl

theorem run_zremrangebyscore (shape : zsetOf entry = some xs) (min max : Option ℚ) :
    (Op.run now entry (.zremrangebyscore min max)).2 =
      withMembers entry (xs.filter fun x => !inScores min max x) := by
  cases entry with
  | none => rfl
  | some e =>
      cases e with
      | mk value expiresAt =>
          cases value with
          | zset entries =>
              obtain rfl := Option.some.inj shape
              rfl
          | scalar d => cases shape
          | hash fields => cases shape
          | list items => cases shape

theorem run_zcard (shape : zsetOf entry = some xs) :
    Op.run now entry .zcard = (.int xs.length, entry) := by
  cases entry with
  | none =>
      obtain rfl := Option.some.inj shape
      rfl
  | some e =>
      cases e with
      | mk value expiresAt =>
          cases value with
          | zset entries =>
              obtain rfl := Option.some.inj shape
              rfl
          | scalar d => cases shape
          | hash fields => cases shape
          | list items => cases shape

theorem run_zadd (shape : zsetOf entry = some xs) (alive : live now entry = entry) (score : ℚ)
    (member : String) :
    ∃ e, (Op.run now entry (.zadd [(score, member)])).2 = some e ∧
      e.value = .zset (sortScores (setScore xs score member)) ∧ live now (some e) = some e := by
  refine ⟨⟨.zset (sortScores (setScore xs score member)), entry.bind Entry.expiresAt⟩, ?_, rfl, ?_⟩
  · rw [Op.run, collection_zset shape]
    rfl
  · cases entry with
    | none => rfl
    | some e => exact @live_of_found now (some e) e.value _ e.expiresAt alive

end Entries

section Spec

variable {now : Int} {s : Store} {key : String} {xs : List Scored}

/-- Purging leaves what is not in range; an admission sets one score and the expiry. -/
theorem admit_spec (shape : zsetOf (live now (s key)) = some xs) (max : Option ℚ)
    (limit : Int) (score : ℚ) (member : String) (ms : Int) :
    tryAdmit (command now) key max limit score member ms s =
      let kept := xs.filter fun x => !inScores none max x
      if limit ≤ kept.length then
        ([0, ((kept.length : Int) : ℚ)],
          Function.update s key (withMembers (live now (s key)) kept))
      else
        ([1, ((kept.length : Int) : ℚ) + 1], Function.update s key
          (some ⟨.zset (sortScores (setScore kept score member)), some (now + ms)⟩)) := by
  have alive := live_withMembers (live_live now (s key)) (xs.filter fun x => !inScores none max x)
  have purged := zsetOf_withMembers shape fun x => !inScores none max x
  obtain ⟨e, added, value, fresh⟩ := run_zadd purged alive score member
  have expired : (Op.run now (some e) (.pexpire ms)).2 = some ⟨.zset (sortScores (setScore
      (xs.filter fun x => !inScores none max x) score member)), some (now + ms)⟩ := by
    rw [← value]
    rfl
  simp only [tryAdmit, command_on, run_zremrangebyscore shape, Function.update_self,
    Function.update_idem, alive, run_zcard purged, added, fresh, expired]
  by_cases full : limit ≤ (xs.filter fun x => !inScores none max x).length
  · have refused : (limit : ℚ) ≤
        (Reply.int (xs.filter fun x => !inScores none max x).length).toRat := Int.cast_le.mpr full
    rw [if_pos refused]
    exact (if_pos full).symm
  · have room : ¬ (limit : ℚ) ≤
        (Reply.int (xs.filter fun x => !inScores none max x).length).toRat :=
      fun le => full (Int.cast_le.mp le)
    rw [if_neg room]
    exact (if_neg full).symm

theorem setScore_ne_nil (xs : List Scored) (score : ℚ) (member : String) :
    setScore xs score member ≠ [] := by
  rw [setScore]
  split
  · cases xs with
    | nil => simp_all
    | cons x xs => simp
  · simp

theorem setScore_perm {ys : List Scored} (perm : xs.Perm ys) (score : ℚ) (member : String) :
    (setScore xs score member).Perm (setScore ys score member) := by
  rw [setScore, setScore, perm.any_eq]
  split
  · exact perm.map _
  · exact perm.append_right _

theorem setScore_fresh {member : String} (score : ℚ) (fresh : ∀ x ∈ xs, x.member ≠ member) :
    setScore xs score member = xs ++ [⟨score, member⟩] := by
  refine if_neg fun found => ?_
  obtain ⟨x, mem, same⟩ := List.any_eq_true.mp found
  exact fresh x mem (beq_iff_eq.mp same)

end Spec

end Gateway.Redis
