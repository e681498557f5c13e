import Mathlib.Data.List.Basic
import Mathlib.Data.List.Infix

/-!
A list cut at the occurrences of another, and put together again.

The cuts are made from the left and do not overlap. No piece holds an occurrence,
and an occurrence does not reach across an item that it does not have itself.
-/

universe u

namespace Splitting

variable {α : Type u}

section Join

theorem intercalate_cons_of_ne_nil {word piece : List α} {pieces : List (List α)}
    (more : pieces ≠ []) :
    word.intercalate (piece :: pieces) = piece ++ word ++ word.intercalate pieces := by
  cases pieces with
  | nil => exact absurd rfl more
  | cons next rest => simp [List.intercalate]

theorem prefix_intercalate (word piece : List α) (pieces : List (List α)) :
    piece <+: word.intercalate (piece :: pieces) := by
  cases pieces with
  | nil => simp [List.intercalate]
  | cons next rest =>
      rw [intercalate_cons_of_ne_nil (List.cons_ne_nil _ _), List.append_assoc]
      exact List.prefix_append piece _

end Join

section Split

variable [DecidableEq α]

/-- The pieces of what is left when `skip` items of an occurrence have been passed over. -/
def cut (sep : List α) : (skip : Nat) → List α → List (List α)
  | _, [] => [[]]
  | skip + 1, _ :: xs => cut sep skip xs
  | 0, x :: xs =>
      if sep <+: x :: xs then [] :: cut sep (sep.length - 1) xs
      else (cut sep 0 xs).modifyHead (x :: ·)

def splitOn (sep xs : List α) : List (List α) := cut sep 0 xs

/-- Every occurrence of `sep` replaced by `word`. -/
def replaceAll (sep word xs : List α) : List α := word.intercalate (splitOn sep xs)

variable {sep : List α}

theorem cut_ne_nil (skip : Nat) (xs : List α) : cut sep skip xs ≠ [] := by
  induction xs generalizing skip with
  | nil => simp [cut]
  | cons x xs ih =>
      cases skip with
      | succ skip => exact ih skip
      | zero =>
          rw [cut]
          split
          · exact List.cons_ne_nil _ _
          · cases pieces : cut sep 0 xs with
            | nil => exact absurd pieces (ih 0)
            | cons piece rest => exact List.cons_ne_nil _ _

/-- The pieces with the occurrences between them are the list again. -/
theorem intercalate_cut (proper : sep ≠ []) (skip : Nat) (xs : List α) :
    sep.intercalate (cut sep skip xs) = xs.drop skip := by
  induction xs generalizing skip with
  | nil => simp [cut, List.intercalate]
  | cons x xs ih =>
      cases skip with
      | succ skip => exact ih skip
      | zero =>
          rw [cut, List.drop_zero]
          split
          · next occurs =>
              obtain ⟨rest, whole⟩ := occurs
              have left : xs.drop (sep.length - 1) = rest := by
                cases sep with
                | nil => exact absurd rfl proper
                | cons s sep =>
                    rw [List.cons_append, List.cons.injEq] at whole
                    rw [← whole.2]
                    exact List.drop_left
              rw [intercalate_cons_of_ne_nil (cut_ne_nil _ _), ih, left, List.nil_append, whole]
          · cases pieces : cut sep 0 xs with
            | nil => exact absurd pieces (cut_ne_nil 0 xs)
            | cons piece rest =>
                have known := ih 0
                rw [pieces, List.drop_zero] at known
                rw [List.modifyHead_cons, ← known]
                cases rest with
                | nil => simp [List.intercalate]
                | cons next rest =>
                    rw [intercalate_cons_of_ne_nil (List.cons_ne_nil _ _),
                      intercalate_cons_of_ne_nil (List.cons_ne_nil _ _)]
                    rfl

/-- No piece holds an occurrence. -/
theorem not_infix_of_mem_cut (proper : sep ≠ []) {skip : Nat} {xs piece : List α}
    (mem : piece ∈ cut sep skip xs) : ¬ sep <:+: piece := by
  induction xs generalizing skip piece with
  | nil =>
      rw [cut, List.mem_singleton] at mem
      rw [mem]
      exact fun occurs => proper (List.infix_nil.mp occurs)
  | cons x xs ih =>
      cases skip with
      | succ skip => exact ih mem
      | zero =>
          rw [cut] at mem
          split at mem
          · rcases List.mem_cons.mp mem with rfl | later
            · exact fun occurs => proper (List.infix_nil.mp occurs)
            · exact ih later
          · next differs =>
              have known := intercalate_cut proper 0 xs
              cases pieces : cut sep 0 xs with
              | nil => exact absurd pieces (cut_ne_nil 0 xs)
              | cons first rest =>
                  rw [pieces, List.drop_zero] at known
                  rw [pieces, List.modifyHead_cons] at mem
                  rcases List.mem_cons.mp mem with rfl | later
                  · intro occurs
                    rcases List.infix_cons_iff.mp occurs with starts | inside
                    · have begun : x :: first <+: x :: xs :=
                        List.cons_prefix_cons.mpr ⟨rfl, known ▸ prefix_intercalate sep first rest⟩
                      exact differs (starts.trans begun)
                    · exact ih (pieces ▸ List.mem_cons_self) inside
                  · exact ih (pieces ▸ List.mem_cons_of_mem _ later)

/-- A list without an occurrence is one piece. -/
theorem splitOn_of_not_infix {xs : List α} (absent : ¬ sep <:+: xs) : splitOn sep xs = [xs] := by
  rw [splitOn]
  induction xs with
  | nil => rfl
  | cons x xs ih =>
      rw [List.infix_cons_iff, not_or] at absent
      rw [cut, if_neg absent.1, ih absent.2, List.modifyHead_cons]

theorem replaceAll_of_not_infix {xs : List α} (word : List α) (absent : ¬ sep <:+: xs) :
    replaceAll sep word xs = xs := by
  rw [replaceAll, splitOn_of_not_infix absent]
  simp [List.intercalate]

end Split

section Seams

variable {sep : List α}

/-- An occurrence lies on one side of an item that it does not have. -/
theorem infix_of_infix_append_cons {b : α} (foreign : b ∉ sep) {xs ys : List α}
    (occurs : sep <:+: xs ++ b :: ys) : sep <:+: xs ∨ sep <:+: ys := by
  obtain ⟨before, after, whole⟩ := occurs
  rw [List.append_assoc] at whole
  rcases List.append_eq_append_iff.mp whole with ⟨left, rfl, rest⟩ | ⟨passed, rfl, rest⟩
  · -- The occurrence starts within `xs`.
    rcases List.append_eq_append_iff.mp rest with ⟨more, rfl, -⟩ | ⟨reached, rfl, tail⟩
    · exact .inl ⟨before, more, by rw [List.append_assoc]⟩
    · cases reached with
      | nil => exact .inl ⟨before, [], by simp⟩
      | cons c reached =>
          rw [List.cons_append, List.cons.injEq] at tail
          exact absurd (by simp [tail.1]) foreign
  · cases passed with
    | nil =>
        cases sep with
        | nil => exact .inl (List.nil_infix)
        | cons s sep =>
            rw [List.nil_append, List.cons_append, List.cons.injEq] at rest
            exact absurd (by simp [rest.1]) foreign
    | cons c passed =>
        rw [List.cons_append, List.cons.injEq] at rest
        exact .inr ⟨passed, after, by rw [List.append_assoc, rest.2]⟩

/-- Pieces without an occurrence have none when they are joined by a word in brackets
that are foreign to it. -/
theorem not_infix_intercalate {first last : α} {middle : List α} (foreign_first : first ∉ sep)
    (foreign_last : last ∉ sep) (inner : ¬ sep <:+: middle) {pieces : List (List α)}
    (free : ∀ piece ∈ pieces, ¬ sep <:+: piece) :
    ¬ sep <:+: (first :: (middle ++ [last])).intercalate pieces := by
  induction pieces with
  | nil =>
      intro occurs
      have empty : sep = [] := List.infix_nil.mp (by simpa [List.intercalate] using occurs)
      exact inner (empty ▸ List.nil_infix)
  | cons piece pieces ih =>
      obtain ⟨here, free⟩ := List.forall_mem_cons.mp free
      cases pieces with
      | nil => simpa [List.intercalate] using here
      | cons next rest =>
          have joined : (first :: (middle ++ [last])).intercalate (piece :: next :: rest) =
              piece ++ first :: (middle ++ last ::
                (first :: (middle ++ [last])).intercalate (next :: rest)) := by
            simp [List.intercalate]
          rw [joined]
          intro occurs
          rcases infix_of_infix_append_cons foreign_first occurs with inside | behind
          · exact here inside
          · rcases infix_of_infix_append_cons foreign_last behind with inside | later
            · exact inner inside
            · exact ih free later

/-- Replacing leaves no occurrence, and makes none across the seams. -/
theorem not_infix_replaceAll [DecidableEq α] {first last : α} {middle : List α}
    (foreign_first : first ∉ sep) (foreign_last : last ∉ sep) (inner : ¬ sep <:+: middle)
    (xs : List α) : ¬ sep <:+: replaceAll sep (first :: (middle ++ [last])) xs := by
  have proper : sep ≠ [] := by
    rintro rfl
    exact inner List.nil_infix
  exact not_infix_intercalate foreign_first foreign_last inner
    fun _ mem => not_infix_of_mem_cut proper mem

end Seams

end Splitting
