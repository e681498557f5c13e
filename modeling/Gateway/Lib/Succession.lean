import Mathlib.Data.List.Chain
import Mathlib.Data.List.Sort

/-!
A check that compares each item of a list with the one before it.

When the comparison is reflexive and transitive, a list that passes passes at every
distance. Whether it passes depends on the order, unless all items are alike or two
of them fail in either order.
-/

universe u

namespace Succession

variable {α : Type u} {r : α → α → Prop}

/-- A list whose items are comparable can be put into an order that passes. -/
theorem exists_perm_isChain (xs : List α) (trans : ∀ x y z, r x y → r y z → r x z)
    (total : ∀ x ∈ xs, ∀ y ∈ xs, r x y ∨ r y x) : ∃ ys : List α, ys.Perm xs ∧ ys.IsChain r := by
  classical
  let before : {x // x ∈ xs} → {x // x ∈ xs} → Prop := fun x y => r x y
  have is_total : Std.Total before := ⟨fun x y => total x x.2 y y.2⟩
  have is_trans : IsTrans _ before := ⟨fun x y z => trans x y z⟩
  have sorted := List.pairwise_insertionSort before xs.attach
  refine ⟨(xs.attach.insertionSort before).map Subtype.val, ?_, ?_⟩
  · have perm := (List.perm_insertionSort before xs.attach).map Subtype.val
    rwa [List.attach_map_subtype_val] at perm
  · exact (List.pairwise_map.mpr sorted).isChain

/-- Of two items in a list that passes, one passes before the other. -/
theorem comparable_of_isChain {xs : List α} (refl : ∀ x, r x x)
    (trans : ∀ x y z, r x y → r y z → r x z) (chain : xs.IsChain r) :
    ∀ x ∈ xs, ∀ y ∈ xs, r x y ∨ r y x := by
  have is_trans : IsTrans α r := ⟨trans⟩
  have pairs := (List.isChain_iff_pairwise.mp chain).imp fun {x y} (before : r x y) =>
    (Or.inl before : r x y ∨ r y x)
  have symm : Std.Symm fun x y => r x y ∨ r y x := ⟨fun _ _ => Or.symm⟩
  exact fun x hx y hy => pairs.forall_of_forall (fun x _ => .inl (refl x)) hx hy

/-- All items alike pass in every order. -/
theorem isChain_of_alike {same : α → α → Prop} (alike : ∀ x y, same x y → r x y) {xs : List α}
    (agree : ∀ x ∈ xs, ∀ y ∈ xs, same x y) : xs.IsChain r := by
  induction xs with
  | nil => exact List.isChain_nil
  | cons x xs ih =>
      have rest := ih fun y hy z hz =>
        agree y (List.mem_cons_of_mem x hy) z (List.mem_cons_of_mem x hz)
      cases xs with
      | nil => exact List.isChain_singleton x
      | cons y ys =>
          exact List.isChain_cons_cons.mpr
            ⟨alike x y (agree x (by simp) y (by simp)), rest⟩

/-- A check passes only lists of items alike, in whatever order, exactly when the items are alike
or two of them fail in either order. -/
theorem sound_and_unordered_iff {same : α → α → Prop} (alike : ∀ x y, same x y → r x y)
    (refl : ∀ x, r x x) (trans : ∀ x y z, r x y → r y z → r x z) (xs : List α) :
    ((xs.IsChain r → ∀ x ∈ xs, ∀ y ∈ xs, same x y) ∧
        ∀ ys : List α, ys.Perm xs → (ys.IsChain r ↔ xs.IsChain r)) ↔
      (∀ x ∈ xs, ∀ y ∈ xs, same x y) ∨ ∃ x ∈ xs, ∃ y ∈ xs, ¬ r x y ∧ ¬ r y x := by
  constructor
  · rintro ⟨sound, unordered⟩
    by_cases conflict : ∃ x ∈ xs, ∃ y ∈ xs, ¬ r x y ∧ ¬ r y x
    · exact .inr conflict
    · have total : ∀ x ∈ xs, ∀ y ∈ xs, r x y ∨ r y x := fun x hx y hy =>
        or_iff_not_and_not.mpr fun fails => conflict ⟨x, hx, y, hy, fails⟩
      obtain ⟨ys, perm, passes⟩ := exists_perm_isChain xs trans total
      exact .inl (sound ((unordered ys perm).mp passes))
  · rintro (agree | ⟨x, hx, y, hy, fails⟩)
    · refine ⟨fun _ => agree, fun ys perm => ?_⟩
      have agree_too : ∀ x ∈ ys, ∀ y ∈ ys, same x y := fun x hx y hy =>
        agree x (perm.mem_iff.mp hx) y (perm.mem_iff.mp hy)
      exact ⟨fun _ => isChain_of_alike alike agree, fun _ => isChain_of_alike alike agree_too⟩
    · have refused : ∀ ys : List α, ys.Perm xs → ¬ ys.IsChain r := fun ys perm passes =>
        (comparable_of_isChain refl trans passes x (perm.mem_iff.mpr hx) y
          (perm.mem_iff.mpr hy)).elim fails.1 fails.2
      refine ⟨fun passes => absurd passes (refused xs (List.Perm.refl xs)), fun ys perm => ?_⟩
      exact iff_of_false (refused ys perm) (refused xs (List.Perm.refl xs))

end Succession
