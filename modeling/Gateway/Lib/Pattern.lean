import Gateway.Lib.Splitting
import Mathlib.Algebra.GroupWithZero.Nat
import Mathlib.Data.List.Basic

/-!
Patterns that are matched with preferences, and what replacing their matches keeps.

A pattern lists what it can take in the order in which it is tried, the longest run
first. A match has a part that is kept, a part that is replaced and a part behind it.
What is kept on the two sides of a replacement was there in one piece, so nothing
that was not there before a given item is there afterwards.
-/

universe u v

/-- A pattern whose only loops are runs of single items. -/
inductive Pattern (α : Type u) where
  | done
  | one (p : α → Bool)
  | run (p : α → Bool) (least : Nat) (most : Option Nat)
  | seq (first second : Pattern α)
  | either (first second : Pattern α)

namespace Pattern

variable {α : Type u} {size : α → Nat}

/-- The first item, if it is one of `p`. -/
def takeOne (p : α → Bool) : List α → List (List α)
  | [] => []
  | x :: _ => if p x then [[x]] else []

/-- The runs of items of `p`, the longest first; the bounds are on the sum of the sizes. -/
def takeRun (size : α → Nat) (p : α → Bool) (least : Nat) (most : Option Nat) (xs : List α) :
    List (List α) :=
  (xs.takeWhile p).inits.reverse.filter fun taken =>
    decide (least ≤ (taken.map size).sum) && most.all ((taken.map size).sum ≤ ·)

/-- What a pattern can take off the front. -/
def takes (size : α → Nat) : Pattern α → List α → List (List α)
  | done, _ => [[]]
  | one p, xs => takeOne p xs
  | run p least most, xs => takeRun size p least most xs
  | seq first second, xs =>
      (first.takes size xs).flatMap fun taken =>
        (second.takes size (xs.drop taken.length)).map (taken ++ ·)
  | either first second, xs => first.takes size xs ++ second.takes size xs

theorem append_prefix {taken more xs : List α} (first : taken <+: xs)
    (second : more <+: xs.drop taken.length) : taken ++ more <+: xs := by
  obtain ⟨rest, rfl⟩ := first
  rw [List.drop_left] at second
  exact (List.prefix_append_right_inj taken).mpr second

theorem takes_prefix (pattern : Pattern α) {xs taken : List α}
    (mem : taken ∈ pattern.takes size xs) : taken <+: xs := by
  induction pattern generalizing xs taken with
  | done =>
      rw [List.mem_singleton.mp mem]
      exact List.nil_prefix
  | one p =>
      cases xs with
      | nil => cases mem
      | cons x xs =>
          rw [takes, takeOne] at mem
          split at mem
          · rw [List.mem_singleton.mp mem]
            exact ⟨xs, rfl⟩
          · cases mem
  | run p least most =>
      have init := List.mem_reverse.mp (List.mem_of_mem_filter mem)
      exact ((List.mem_inits _ _).mp init).trans (List.takeWhile_prefix p)
  | seq first second ih_first ih_second =>
      obtain ⟨front, front_mem, rest⟩ := List.mem_flatMap.mp mem
      obtain ⟨more, more_mem, rfl⟩ := List.mem_map.mp rest
      exact append_prefix (ih_first front_mem) (ih_second more_mem)
  | either first second ih_first ih_second =>
      rcases List.mem_append.mp mem with left | right
      · exact ih_first left
      · exact ih_second right

section Comap

variable {β : Type v} {f : β → α}

/-- The pattern for items that are read through `f`. -/
def comap (f : β → α) : Pattern α → Pattern β
  | done => done
  | one p => one (p ∘ f)
  | run p least most => run (p ∘ f) least most
  | seq first second => seq (first.comap f) (second.comap f)
  | either first second => either (first.comap f) (second.comap f)

theorem map_takeOne (p : α → Bool) (xs : List β) :
    (takeOne (p ∘ f) xs).map (List.map f) = takeOne p (xs.map f) := by
  cases xs with
  | nil => rfl
  | cons x xs =>
      rw [takeOne, List.map_cons, takeOne, Function.comp_apply]
      split <;> rfl

theorem map_inits (xs : List β) : xs.inits.map (List.map f) = (xs.map f).inits := by
  induction xs with
  | nil => rfl
  | cons x xs ih =>
      rw [List.map_cons, List.inits_cons, List.inits_cons, List.map_cons, ← ih, List.map_map,
        List.map_map]
      rfl

/-- What is taken is taken alike. -/
theorem takes_comap (pattern : Pattern α) (xs : List β) :
    ((pattern.comap f).takes (size ∘ f) xs).map (List.map f) = pattern.takes size (xs.map f) := by
  induction pattern generalizing xs with
  | done => rfl
  | one p => exact map_takeOne p xs
  | run p least most =>
      rw [comap, takes, takes, takeRun, takeRun, List.takeWhile_map, ← map_inits, ← List.map_reverse,
        List.filter_map]
      congr 2
      funext taken
      simp only [Function.comp_apply, List.map_map]
  | seq first second ih_first ih_second =>
      rw [comap, takes, takes, ← ih_first, List.map_flatMap, List.flatMap_map]
      congr 1
      funext taken
      rw [List.length_map, ← List.map_drop, ← ih_second, List.map_map, List.map_map]
      congr 1
      funext more
      exact List.map_append
  | either first second ih_first ih_second =>
      rw [comap, takes, takes, List.map_append, ih_first, ih_second]

end Comap

end Pattern

/-- A pattern in three parts; the middle one is replaced. -/
structure Shape (α : Type u) where
  kept : Pattern α
  gone : Pattern α
  behind : Pattern α

namespace Shape

variable {α : Type u} {size : α → Nat} {shape : Shape α}

/-- The parts of the preferred match at the front; a match of nothing is passed over. -/
def find (size : α → Nat) (shape : Shape α) (xs : List α) : Option (List α × List α × List α) :=
  ((shape.kept.takes size xs).flatMap fun kept =>
    (shape.gone.takes size (xs.drop kept.length)).flatMap fun gone =>
      (shape.behind.takes size (xs.drop (kept ++ gone).length)).map fun behind =>
        (kept, gone, behind)).find? fun parts =>
          !(parts.1 ++ parts.2.1 ++ parts.2.2).isEmpty

theorem find_spec {xs kept gone behind : List α}
    (h : shape.find size xs = some (kept, gone, behind)) :
    kept ++ gone ++ behind <+: xs ∧ kept ++ gone ++ behind ≠ [] := by
  have mem := List.mem_of_find?_eq_some h
  have proper := List.find?_some h
  obtain ⟨kept, kept_mem, mem⟩ := List.mem_flatMap.mp mem
  obtain ⟨gone, gone_mem, mem⟩ := List.mem_flatMap.mp mem
  obtain ⟨behind, behind_mem, same⟩ := List.mem_map.mp mem
  cases same
  refine ⟨?_, by simpa using proper⟩
  exact Pattern.append_prefix
    (Pattern.append_prefix (shape.kept.takes_prefix kept_mem) (shape.gone.takes_prefix gone_mem))
    (shape.behind.takes_prefix behind_mem)

/-- Every match from the left with `word` for its middle part; `skip` items of the last match
are still to be passed over. -/
def replaceFrom (size : α → Nat) (shape : Shape α) (word : List α) : (skip : Nat) → List α → List α
  | _, [] => []
  | skip + 1, _ :: xs => replaceFrom size shape word skip xs
  | 0, x :: xs =>
      match shape.find size (x :: xs) with
      | some (kept, gone, behind) =>
          kept ++ word ++ behind ++
            replaceFrom size shape word ((kept ++ gone ++ behind).length - 1) xs
      | none => x :: replaceFrom size shape word 0 xs

def replace (size : α → Nat) (shape : Shape α) (word xs : List α) : List α :=
  replaceFrom size shape word 0 xs

/-- What follows a match. -/
theorem drop_match {x : α} {xs kept gone behind : List α}
    (h : shape.find size (x :: xs) = some (kept, gone, behind)) :
    x :: xs = kept ++ gone ++ behind ++ xs.drop ((kept ++ gone ++ behind).length - 1) := by
  obtain ⟨⟨rest, whole⟩, proper⟩ := find_spec h
  cases found : kept ++ gone ++ behind with
  | nil => exact absurd found proper
  | cons y ys =>
      rw [found, List.cons_append, List.cons.injEq] at whole
      obtain ⟨rfl, rfl⟩ := whole
      simp

/-- An item that the word does not have was there before. -/
theorem mem_replaceFrom {word : List α} {b : α} (foreign : b ∉ word) {skip : Nat} {xs : List α}
    (mem : b ∈ replaceFrom size shape word skip xs) : b ∈ xs.drop skip := by
  induction xs generalizing skip with
  | nil => cases mem
  | cons x xs ih =>
      cases skip with
      | succ skip => exact ih mem
      | zero =>
          rw [replaceFrom] at mem
          rw [List.drop_zero]
          split at mem
          · next kept gone behind found =>
              rw [drop_match found]
              simp only [List.mem_append] at mem ⊢
              rcases mem with ((kept_mem | word_mem) | behind_mem) | later
              · exact .inl (.inl (.inl kept_mem))
              · exact absurd word_mem foreign
              · exact .inl (.inr behind_mem)
              · exact .inr (ih later)
          · rcases List.mem_cons.mp mem with rfl | later
            · exact List.mem_cons_self
            · exact List.mem_cons_of_mem _ (ih later)

section Comap

variable {β : Type v} {f : β → α}

def comap (f : β → α) (shape : Shape α) : Shape β :=
  ⟨shape.kept.comap f, shape.gone.comap f, shape.behind.comap f⟩

def mapParts (f : β → α) (parts : List β × List β × List β) : List α × List α × List α :=
  (parts.1.map f, parts.2.1.map f, parts.2.2.map f)

variable (shape size f) in
theorem find_comap (xs : List β) :
    ((shape.comap f).find (size ∘ f) xs).map (mapParts f) = shape.find size (xs.map f) := by
  have same : (fun parts : List β × List β × List β =>
      !(parts.1 ++ parts.2.1 ++ parts.2.2).isEmpty) =
        (fun parts => !(parts.1 ++ parts.2.1 ++ parts.2.2).isEmpty) ∘ mapParts f := by
    funext parts
    simp only [mapParts, Function.comp_apply, ← List.map_append, List.isEmpty_map]
  rw [find, find, same, ← List.find?_map]
  congr 1
  rw [← shape.kept.takes_comap, List.map_flatMap, List.flatMap_map]
  congr 1
  funext kept
  rw [List.length_map, ← List.map_drop, ← shape.gone.takes_comap, List.map_flatMap,
    List.flatMap_map]
  congr 1
  funext gone
  rw [← List.map_append, List.length_map, ← List.map_drop, ← shape.behind.takes_comap,
    List.map_map, List.map_map]
  rfl

/-- What is replaced is replaced alike. -/
theorem map_replaceFrom (word : List β) (skip : Nat) (xs : List β) :
    (replaceFrom (size ∘ f) (shape.comap f) word skip xs).map f =
      replaceFrom size shape (word.map f) skip (xs.map f) := by
  induction xs generalizing skip with
  | nil => rfl
  | cons x xs ih =>
      cases skip with
      | succ skip => exact ih skip
      | zero =>
          have parts := find_comap size shape f (x :: xs)
          rw [replaceFrom, List.map_cons, replaceFrom, ← List.map_cons, ← parts]
          cases (shape.comap f).find (size ∘ f) (x :: xs) with
          | none => simp only [Option.map_none, List.map_cons, ih]
          | some found =>
              obtain ⟨kept, gone, behind⟩ := found
              simp [mapParts, ih]

end Comap

end Shape

/-- Nothing up to an item `b` holds an occurrence of `sep`. -/
def FreeBefore {α : Type u} (sep : List α) (b : α) (xs : List α) : Prop :=
  ∀ before after, xs = before ++ b :: after → ¬ sep <:+: before

section Free

variable {α : Type u} {sep : List α} {b : α} {xs ys : List α}

theorem freeBefore_of_absent (absent : ¬ sep <:+: xs) : FreeBefore sep b xs := by
  rintro before after rfl occurs
  exact absent (occurs.trans (List.prefix_append before _).isInfix)

theorem FreeBefore.of_begins (free : FreeBefore sep b xs) (begins : ys <+: xs) :
    FreeBefore sep b ys := by
  obtain ⟨rest, rfl⟩ := begins
  rintro before after rfl
  exact free before (after ++ rest) (by simp)

theorem FreeBefore.append (free : FreeBefore sep b xs) (foreign : b ∉ ys) :
    FreeBefore sep b (xs ++ ys) := by
  intro before after whole
  rcases List.append_eq_append_iff.mp whole with ⟨more, -, rest⟩ | ⟨more, rfl, rest⟩
  · exact absurd (by rw [rest]; simp) foreign
  · cases more with
    | nil =>
        rw [List.nil_append] at rest
        exact absurd (by rw [← rest]; simp) foreign
    | cons c more =>
        rw [List.cons_append, List.cons.injEq] at rest
        exact free before more (by rw [rest.1])

/-- Nothing that stands before the item is an occurrence. -/
theorem FreeBefore.not_infix (free : FreeBefore sep b (xs ++ ys)) (mem : b ∈ ys) :
    ¬ sep <:+: xs := by
  obtain ⟨before, after, rfl⟩ := List.append_of_mem mem
  intro occurs
  exact free (xs ++ before) after (by simp) (occurs.trans (List.prefix_append xs before).isInfix)

/-- Two parts that are free stay so around a word that has no item in common with an occurrence
at its ends, when the item that stands behind the second part stood behind the first. -/
theorem FreeBefore.around {first last : α} {middle : List α} (foreign_first : first ∉ sep)
    (foreign_last : last ∉ sep) (inner : ¬ sep <:+: middle)
    (foreign : b ∉ first :: (middle ++ [last])) (left : FreeBefore sep b xs)
    (whole : b ∈ ys → ¬ sep <:+: xs) (right : FreeBefore sep b ys) :
    FreeBefore sep b (xs ++ first :: (middle ++ last :: ys)) := by
  intro before after split occurs
  rcases List.append_eq_append_iff.mp split with ⟨more, rfl, rest⟩ | ⟨more, rfl, rest⟩
  · -- The item stands behind the word, as it is none of its own.
    have word_first : first :: (middle ++ last :: ys) = first :: (middle ++ [last]) ++ ys := by
      simp
    rw [word_first] at rest
    have behind : ∃ tail, more = first :: (middle ++ [last]) ++ tail ∧ ys = tail ++ b :: after := by
      rcases List.append_eq_append_iff.mp rest with ⟨tail, rfl, tail_eq⟩ | ⟨tail, word_eq, tail_eq⟩
      · exact ⟨tail, rfl, tail_eq⟩
      · cases tail with
        | nil => exact ⟨[], by simp [word_eq], tail_eq.symm⟩
        | cons c tail =>
            rw [List.cons_append, List.cons.injEq] at tail_eq
            exact absurd (by rw [word_eq, ← tail_eq.1]; simp) foreign
    obtain ⟨tail, rfl, rfl⟩ := behind
    have spread : xs ++ (first :: (middle ++ [last]) ++ tail) =
        xs ++ first :: (middle ++ last :: tail) := by simp
    rw [spread] at occurs
    rcases Splitting.infix_of_infix_append_cons foreign_first occurs with inside | later
    · exact whole (by simp) inside
    · rcases Splitting.infix_of_infix_append_cons foreign_last later with inside | later
      · exact inner inside
      · exact right tail after rfl later
  · cases more with
    | nil =>
        rw [List.nil_append, List.cons.injEq] at rest
        exact foreign (by rw [rest.1]; exact List.mem_cons_self)
    | cons c more =>
        rw [List.cons_append, List.cons.injEq] at rest
        exact left before more (by rw [rest.1]) occurs

namespace Shape

variable {size : α → Nat} {shape : Shape α}

/-- Replacing makes no occurrence before an item that the word does not have. -/
theorem freeBefore_replaceFrom {first last : α} {middle : List α} (foreign_first : first ∉ sep)
    (foreign_last : last ∉ sep) (inner : ¬ sep <:+: middle)
    (foreign : b ∉ first :: (middle ++ [last])) (skip : Nat) (pending : List α)
    (free : FreeBefore sep b (pending ++ xs.drop skip)) :
    FreeBefore sep b
      (pending ++ replaceFrom size shape (first :: (middle ++ [last])) skip xs) := by
  induction xs generalizing skip pending with
  | nil =>
      rw [List.drop_nil] at free
      exact free
  | cons x xs ih =>
      cases skip with
      | succ skip => exact ih skip pending free
      | zero =>
          rw [List.drop_zero] at free
          rw [replaceFrom]
          split
          · next kept gone behind found =>
              have whole := drop_match found
              rw [whole] at free
              have later : FreeBefore sep b (behind ++
                  xs.drop ((kept ++ gone ++ behind).length - 1)) := by
                intro before after split occurs
                refine free (pending ++ kept ++ gone ++ before) after ?_ (occurs.trans ?_)
                · simp only [List.append_assoc] at split ⊢
                  rw [split]
                · exact (List.suffix_append _ before).isInfix
              have known : FreeBefore sep b (pending ++ kept) :=
                free.of_begins ⟨gone ++ behind ++
                  xs.drop ((kept ++ gone ++ behind).length - 1), by simp⟩
              have before_word (mem : b ∈ behind ++ replaceFrom size shape
                  (first :: (middle ++ [last])) ((kept ++ gone ++ behind).length - 1) xs) :
                  ¬ sep <:+: pending ++ kept := by
                have stood : b ∈ gone ++ behind ++
                    xs.drop ((kept ++ gone ++ behind).length - 1) := by
                  rcases List.mem_append.mp mem with here | there
                  · simp [here]
                  · exact List.mem_append_right _ (mem_replaceFrom foreign there)
                exact FreeBefore.not_infix (by simpa using free) stood
              have around := known.around foreign_first foreign_last inner foreign before_word
                (ih _ behind later)
              simpa using around
          · have shifted := ih 0 (pending ++ [x]) (by simpa using free)
            simpa using shifted

/-- Replacing makes no occurrence. -/
theorem not_infix_replaceFrom {first last : α} {middle : List α} (foreign_first : first ∉ sep)
    (foreign_last : last ∉ sep) (inner : ¬ sep <:+: middle) (skip : Nat) (pending : List α)
    (absent : ¬ sep <:+: pending ++ xs.drop skip) :
    ¬ sep <:+: pending ++ replaceFrom size shape (first :: (middle ++ [last])) skip xs := by
  induction xs generalizing skip pending with
  | nil =>
      rw [List.drop_nil] at absent
      exact absent
  | cons x xs ih =>
      cases skip with
      | succ skip => exact ih skip pending absent
      | zero =>
          rw [List.drop_zero] at absent
          rw [replaceFrom]
          split
          · next kept gone behind found =>
              rw [drop_match found] at absent
              have spread : pending ++ (kept ++ first :: (middle ++ [last]) ++ behind ++
                  replaceFrom size shape (first :: (middle ++ [last]))
                    ((kept ++ gone ++ behind).length - 1) xs) =
                  (pending ++ kept) ++ first :: (middle ++ last :: (behind ++
                    replaceFrom size shape (first :: (middle ++ [last]))
                      ((kept ++ gone ++ behind).length - 1) xs)) := by
                simp
              rw [spread]
              intro occurs
              rcases Splitting.infix_of_infix_append_cons foreign_first occurs with before | later
              · exact absent (before.trans ⟨[], gone ++ behind ++
                  xs.drop ((kept ++ gone ++ behind).length - 1), by simp⟩)
              · rcases Splitting.infix_of_infix_append_cons foreign_last later with inside | rest
                · exact inner inside
                · refine ih _ behind (fun there => absent (there.trans ?_)) rest
                  exact ⟨pending ++ kept ++ gone, [], by simp⟩
          · have shifted := ih 0 (pending ++ [x]) (by simpa using absent)
            simpa using shifted

end Shape

end Free
