import Mathlib.Algebra.Order.Ring.Nat
import Mathlib.Data.List.GetD
import Mathlib.Data.List.Induction
import Mathlib.Tactic.Ring

/-!
Prefixes of bits of big-endian numbers.

Two numbers of as many bytes share their first `n` bits when they are equal without
the others. For a comparison byte by byte that means equal whole bytes, and one more
byte that is equal under a mask.
-/

namespace BytePrefix

def AreBytes (bytes : List Nat) : Prop := ∀ b ∈ bytes, b < 256

instance (bytes : List Nat) : Decidable (AreBytes bytes) :=
  inferInstanceAs (Decidable (∀ b ∈ bytes, b < 256))

/-- The number that bytes are, the highest first. -/
def value (bytes : List Nat) : Nat := bytes.foldl (fun n b => 256 * n + b) 0

/-- The first `n` bits of bytes. -/
def high (bytes : List Nat) (n : Nat) : Nat := value bytes / 2 ^ (8 * bytes.length - n)

theorem value_concat (bytes : List Nat) (b : Nat) :
    value (bytes ++ [b]) = 256 * value bytes + b := by
  rw [value, List.foldl_append]
  rfl

theorem value_append (xs ys : List Nat) :
    value (xs ++ ys) = value xs * 256 ^ ys.length + value ys := by
  induction ys using List.reverseRecOn with
  | nil => simp [value]
  | append_singleton ys b ih =>
      rw [← List.append_assoc, value_concat, value_concat, ih, List.length_append,
        List.length_singleton, Nat.pow_succ]
      ring

theorem value_lt {bytes : List Nat} (are : AreBytes bytes) : value bytes < 256 ^ bytes.length := by
  induction bytes using List.reverseRecOn with
  | nil => exact Nat.one_pos
  | append_singleton bytes b ih =>
      have first := ih fun c mem => are c (List.mem_append_left _ mem)
      have last := are b (List.mem_append_right _ List.mem_cons_self)
      rw [value_concat, List.length_append, List.length_singleton, Nat.pow_succ]
      omega

theorem AreBytes.append_iff {xs ys : List Nat} :
    AreBytes (xs ++ ys) ↔ AreBytes xs ∧ AreBytes ys := List.forall_mem_append

theorem value_injective {xs ys : List Nat} (first : AreBytes xs) (second : AreBytes ys)
    (length : xs.length = ys.length) (same : value xs = value ys) : xs = ys := by
  induction xs using List.reverseRecOn generalizing ys with
  | nil => exact (List.length_eq_zero_iff.mp length.symm).symm
  | append_singleton xs b ih =>
      induction ys using List.reverseRecOn with
      | nil => simp at length
      | append_singleton ys c _ =>
          rw [AreBytes.append_iff] at first second
          have hb : b < 256 := first.2 b List.mem_cons_self
          have hc : c < 256 := second.2 c List.mem_cons_self
          rw [value_concat, value_concat] at same
          rw [List.length_append, List.length_append] at length
          have heads := ih first.1 second.1 (Nat.add_right_cancel length) (by omega)
          have lasts : b = c := by omega
          rw [heads, lasts]

/-- The whole bytes of a prefix are cut off by a division. -/
theorem value_div {xs ys : List Nat} (are : AreBytes ys) :
    value (xs ++ ys) / 256 ^ ys.length = value xs := by
  have positive : 0 < 256 ^ ys.length := Nat.pow_pos (by decide)
  rw [value_append, Nat.add_comm, Nat.add_mul_div_right _ _ positive,
    Nat.div_eq_of_lt (value_lt are), Nat.zero_add]

theorem pow_eight_mul (k : Nat) : 2 ^ (8 * k) = 256 ^ k := Nat.pow_mul 2 8 k

theorem high_whole {xs ys : List Nat} (are : AreBytes ys) :
    high (xs ++ ys) (8 * xs.length) = value xs := by
  have left : 8 * (xs ++ ys).length - 8 * xs.length = 8 * ys.length := by
    rw [List.length_append]
    omega
  rw [high, left, pow_eight_mul, value_div are]

/-- A prefix that ends within the byte `b`. -/
theorem high_within {xs ys : List Nat} {b r : Nat} (are : AreBytes ys) (within : r ≤ 8) :
    high (xs ++ b :: ys) (8 * xs.length + r) = value xs * 2 ^ r + b / 2 ^ (8 - r) := by
  have left : 8 * (xs ++ b :: ys).length - (8 * xs.length + r) = 8 * ys.length + (8 - r) := by
    rw [List.length_append, List.length_cons]
    omega
  have byte : 256 * value xs + b = b + value xs * 2 ^ r * 2 ^ (8 - r) := by
    rw [Nat.mul_assoc, ← Nat.pow_add, Nat.add_sub_cancel' within]
    ring
  rw [high, left, Nat.pow_add, pow_eight_mul, ← Nat.div_div_eq_div_mul,
    List.append_cons, value_div are, value_concat, byte,
    Nat.add_mul_div_right _ _ (Nat.pow_pos (by decide)), Nat.add_comm]

theorem high_whole_iff {xs ys xs' ys' : List Nat} (first : AreBytes (xs ++ ys))
    (second : AreBytes (xs' ++ ys')) (length : xs.length = xs'.length) :
    high (xs ++ ys) (8 * xs.length) = high (xs' ++ ys') (8 * xs.length) ↔ xs = xs' := by
  rw [AreBytes.append_iff] at first second
  rw [high_whole first.2, length, high_whole second.2]
  constructor
  · exact value_injective first.1 second.1 length
  · rintro rfl
    rfl

theorem high_within_iff {xs ys xs' ys' : List Nat} {b b' r : Nat}
    (first : AreBytes (xs ++ b :: ys)) (second : AreBytes (xs' ++ b' :: ys'))
    (length : xs.length = xs'.length) (within : r ≤ 8) :
    high (xs ++ b :: ys) (8 * xs.length + r) = high (xs' ++ b' :: ys') (8 * xs.length + r) ↔
      xs = xs' ∧ b / 2 ^ (8 - r) = b' / 2 ^ (8 - r) := by
  rw [AreBytes.append_iff] at first second
  obtain ⟨hb, hys⟩ := List.forall_mem_cons.mp first.2
  obtain ⟨hb', hys'⟩ := List.forall_mem_cons.mp second.2
  have rest {c : Nat} (small : c < 256) : c / 2 ^ (8 - r) < 2 ^ r := by
    rw [Nat.div_lt_iff_lt_mul (Nat.pow_pos (by decide)), ← Nat.pow_add,
      Nat.add_sub_cancel' within]
    exact small
  rw [high_within hys within, length, high_within hys' within]
  constructor
  · intro same
    have heads : value xs = value xs' := by
      have positive : 0 < 2 ^ r := Nat.pow_pos (by decide)
      have cut := congrArg (· / 2 ^ r) same
      simp only [Nat.mul_comm _ (2 ^ r), Nat.mul_add_div positive, Nat.div_eq_of_lt (rest hb),
        Nat.div_eq_of_lt (rest hb'), Nat.add_zero] at cut
      exact cut
    exact ⟨value_injective first.1 second.1 length heads, by rw [heads] at same; omega⟩
  · rintro ⟨rfl, same⟩
    rw [same]

/-- The mask of the first `r` bits of a byte. -/
def mask (r : Nat) : Nat := (0xff <<< (8 - r)) &&& 0xff

theorem and_mask {b r : Nat} (byte : b < 256) (within : r < 8) :
    b &&& mask r = b / 2 ^ (8 - r) * 2 ^ (8 - r) := by
  have all : ∀ r : Fin 8, ∀ b : Fin 256,
      b.val &&& mask r = b.val / 2 ^ (8 - r.val) * 2 ^ (8 - r.val) := by decide +kernel
  exact all ⟨r, within⟩ ⟨b, byte⟩

theorem and_mask_iff {b b' r : Nat} (byte : b < 256) (byte' : b' < 256) (within : r < 8) :
    b &&& mask r = b' &&& mask r ↔ b / 2 ^ (8 - r) = b' / 2 ^ (8 - r) := by
  rw [and_mask byte within, and_mask byte' within]
  exact Nat.mul_left_inj (Nat.pow_pos (by decide)).ne'

/-- The comparison byte by byte. -/
def samePrefix (xs ys : List Nat) (n : Nat) : Bool :=
  (xs.take (n / 8) == ys.take (n / 8)) &&
    (n % 8 == 0 || (xs.getD (n / 8) 0 &&& mask (n % 8)) == (ys.getD (n / 8) 0 &&& mask (n % 8)))

/-- A list of bytes at a byte of it. -/
theorem split_at_byte {xs : List Nat} {k : Nat} (inside : k < xs.length) :
    ∃ b rest, xs = xs.take k ++ b :: rest ∧ xs.getD k 0 = b := by
  refine ⟨xs[k], xs.drop (k + 1), ?_, List.getD_eq_getElem xs 0 inside⟩
  rw [← List.drop_eq_getElem_cons inside, List.take_append_drop]

theorem samePrefix_iff {xs ys : List Nat} (first : AreBytes xs) (second : AreBytes ys)
    (length : xs.length = ys.length) {n : Nat} (within : n ≤ 8 * ys.length) :
    samePrefix xs ys n = true ↔ high xs n = high ys n := by
  have bits := Nat.div_add_mod n 8
  have bound : n % 8 < 8 := Nat.mod_lt n (by decide)
  rw [samePrefix, Bool.and_eq_true, Bool.or_eq_true, beq_iff_eq, beq_iff_eq, beq_iff_eq]
  have heads {zs : List Nat} (long : n / 8 ≤ zs.length) : (zs.take (n / 8)).length = n / 8 :=
    List.length_take_of_le long
  by_cases whole : n % 8 = 0
  · have cut : n = 8 * (n / 8) := by omega
    have lengths : (xs.take (n / 8)).length = (ys.take (n / 8)).length := by
      rw [heads (by omega), heads (by omega)]
    have known := @high_whole_iff (xs.take (n / 8)) (xs.drop (n / 8)) (ys.take (n / 8))
      (ys.drop (n / 8)) (by rwa [List.take_append_drop]) (by rwa [List.take_append_drop]) lengths
    rw [List.take_append_drop, List.take_append_drop, heads (by omega), ← cut] at known
    rw [known, whole]
    simp
  · obtain ⟨b, rest, left, byte⟩ := @split_at_byte xs (n / 8) (by omega)
    obtain ⟨b', rest', right, byte'⟩ := @split_at_byte ys (n / 8) (by omega)
    have lengths : (xs.take (n / 8)).length = (ys.take (n / 8)).length := by
      rw [heads (by omega), heads (by omega)]
    have small : b < 256 := first b (left ▸ List.mem_append_right _ List.mem_cons_self)
    have small' : b' < 256 := second b' (right ▸ List.mem_append_right _ List.mem_cons_self)
    have known := @high_within_iff (xs.take (n / 8)) rest (ys.take (n / 8)) rest' b b' (n % 8)
      (left ▸ first) (right ▸ second) lengths bound.le
    rw [← left, ← right, heads (by omega), bits] at known
    rw [known, byte, byte', and_mask_iff small small' bound]
    simp [whole]

theorem high_of_le {xs : List Nat} {m n : Nat} (le : m ≤ n) (within : n ≤ 8 * xs.length) :
    high xs m = high xs n / 2 ^ (n - m) := by
  rw [high, high, Nat.div_div_eq_div_mul, ← Nat.pow_add]
  congr 2
  omega

end BytePrefix
