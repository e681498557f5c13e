import Mathlib.Algebra.GroupWithZero.Nat
import Mathlib.Data.List.DropRight

/-!
The string operations of the language that the gateway's checks rest on.
-/

namespace Gateway

/-- The length of a string in UTF-16 code units. -/
def jsLength (s : String) : Nat :=
  (s.toList.map fun c => if c.val.toNat < 0x10000 then 1 else 2).sum

theorem jsLength_append (s t : String) : jsLength (s ++ t) = jsLength s + jsLength t := by
  rw [jsLength, String.toList_append, List.map_append, List.sum_append, jsLength, jsLength]

def jsWidth (c : Char) : Nat := if c.val.toNat < 0x10000 then 1 else 2

/-- `slice(0, n)`; of a pair that the cut splits, nothing is kept. -/
def jsTake : Nat → List Char → List Char
  | _, [] => []
  | n, c :: cs =>
      let width := if c.val.toNat < 0x10000 then 1 else 2
      if n < width then [] else c :: jsTake (n - width) cs

/-- `slice(0, n)`; half of a pair that the cut splits is kept as the replacement character. -/
def jsSlice : Nat → List Char → List Char
  | 0, _ | _, [] => []
  | n + 1, c :: cs =>
      if n + 1 < jsWidth c then [Char.ofNat 0xFFFD] else c :: jsSlice (n + 1 - jsWidth c) cs

theorem jsTake_cons (n : Nat) (c : Char) (cs : List Char) :
    jsTake n (c :: cs) = if n < jsWidth c then [] else c :: jsTake (n - jsWidth c) cs := rfl

theorem jsTake_begins (n : Nat) (cs : List Char) : jsTake n cs <+: cs := by
  induction cs generalizing n with
  | nil => exact List.prefix_rfl
  | cons c cs ih =>
      rw [jsTake_cons]
      split
      · exact List.nil_prefix
      · exact List.cons_prefix_cons.mpr ⟨rfl, ih _⟩

theorem width_jsTake (n : Nat) (cs : List Char) : ((jsTake n cs).map jsWidth).sum ≤ n := by
  induction cs generalizing n with
  | nil => exact Nat.zero_le n
  | cons c cs ih =>
      rw [jsTake_cons]
      split
      · exact Nat.zero_le n
      · have rest := ih (n - jsWidth c)
        rw [List.map_cons, List.sum_cons]
        omega

/-- A cut keeps a part, and at most half a pair behind it. -/
theorem jsSlice_cases (n : Nat) (cs : List Char) :
    ∃ part, part <+: cs ∧ (jsSlice n cs = part ∨ jsSlice n cs = part ++ [Char.ofNat 0xFFFD]) := by
  induction cs generalizing n with
  | nil => exact ⟨[], List.prefix_rfl, .inl (by cases n <;> rfl)⟩
  | cons c cs ih =>
      cases n with
      | zero => exact ⟨[], List.nil_prefix, .inl rfl⟩
      | succ n =>
          rw [jsSlice]
          split
          · exact ⟨[], List.nil_prefix, .inr rfl⟩
          · obtain ⟨part, begins, kept⟩ := ih (n + 1 - jsWidth c)
            refine ⟨c :: part, List.cons_prefix_cons.mpr ⟨rfl, begins⟩, ?_⟩
            rcases kept with kept | kept <;> rw [kept]
            · exact .inl rfl
            · exact .inr rfl

/-- White space and line terminators, as `trim` removes them. -/
def isJsSpace (c : Char) : Bool :=
  let v := c.val.toNat
  (0x09 ≤ v && v ≤ 0x0D) || v == 0x20 || v == 0xA0 || v == 0x1680 ||
    (0x2000 ≤ v && v ≤ 0x200A) || v == 0x2028 || v == 0x2029 || v == 0x202F || v == 0x205F ||
    v == 0x3000 || v == 0xFEFF

def jsTrim (s : String) : String :=
  String.ofList (((s.toList.dropWhile isJsSpace).reverse.dropWhile isJsSpace).reverse)

theorem dropWhile_reverse_dropWhile (p : Char → Bool) (l : List Char) :
    ((l.dropWhile p).reverse.dropWhile p).reverse.dropWhile p =
      ((l.dropWhile p).reverse.dropWhile p).reverse := by
  have front : ((l.dropWhile p).reverse.dropWhile p).reverse <+: l.dropWhile p := by
    have back := List.reverse_prefix.mpr (List.dropWhile_suffix (l := (l.dropWhile p).reverse) p)
    rwa [List.reverse_reverse] at back
  cases trimmed : ((l.dropWhile p).reverse.dropWhile p).reverse with
  | nil => rfl
  | cons c cs =>
      obtain ⟨rest, whole⟩ := front
      have first := List.head?_dropWhile_not p l
      rw [← whole, trimmed] at first
      rw [List.dropWhile_cons_of_neg (by simpa using first)]

/-- A trimmed text has nothing left to trim. -/
theorem jsTrim_jsTrim (s : String) : jsTrim (jsTrim s) = jsTrim s := by
  have twice := dropWhile_reverse_dropWhile isJsSpace s.toList
  rw [jsTrim, jsTrim, String.toList_ofList, twice, List.reverse_reverse]
  congr 2
  exact List.dropWhile_idempotent _ _

theorem jsTrim_of_no_space {text : List Char} (solid : ∀ c ∈ text, isJsSpace c = false) :
    jsTrim (String.ofList text) = String.ofList text := by
  have same {text : List Char} (solid : ∀ c ∈ text, isJsSpace c = false) :
      text.dropWhile isJsSpace = text := by
    cases text with
    | nil => rfl
    | cons c text => rw [List.dropWhile_cons_of_neg]; simp [solid c List.mem_cons_self]
  have back : ∀ c ∈ text.reverse, isJsSpace c = false := fun c mem =>
    solid c (List.mem_reverse.mp mem)
  rw [jsTrim, String.toList_ofList, same solid, same back, List.reverse_reverse]

/-- A prefix is taken whole where the rest does not go on. -/
theorem takeWhile_stops {α : Type*} {p : α → Bool} {front rest : List α}
    (goes : ∀ c ∈ front, p c = true) (stops : rest.head?.all (!p ·) = true) :
    (front ++ rest).takeWhile p = front := by
  rw [List.takeWhile_append_of_pos goes]
  cases rest with
  | nil => exact List.append_nil front
  | cons c rest =>
      rw [List.head?_cons, Option.all_some, Bool.not_eq_true'] at stops
      rw [List.takeWhile_cons_of_neg (by simp [stops]), List.append_nil]

/-- The capital letters `A` to `Z` and the digits in the upper case of a
character. Besides the ASCII letters these are the characters whose full upper
case mapping holds an ASCII letter. -/
def upperAlnum (c : Char) : List Char :=
  if c.isUpper || c.isDigit then [c]
  else if c.isLower then [c.toUpper]
  else
    match c.val.toNat with
    | 0x00DF => ['S', 'S']
    | 0x0131 => ['I']
    | 0x0149 => ['N']
    | 0x017F => ['S']
    | 0x01F0 => ['J']
    | 0x1E96 => ['H']
    | 0x1E97 => ['T']
    | 0x1E98 => ['W']
    | 0x1E99 => ['Y']
    | 0x1E9A => ['A']
    | 0xFB00 => ['F', 'F']
    | 0xFB01 => ['F', 'I']
    | 0xFB02 => ['F', 'L']
    | 0xFB03 => ['F', 'F', 'I']
    | 0xFB04 => ['F', 'F', 'L']
    | 0xFB05 => ['S', 'T']
    | 0xFB06 => ['S', 'T']
    | _ => []

/-- `s.toUpperCase().replace(/[^A-Z0-9]/g, "")` -/
def toUpperAlnum (s : String) : String := String.ofList (s.toList.flatMap upperAlnum)

/-- The lower case of a character, as far as it differs and is or begins with an
ASCII letter. -/
def lowerChar (c : Char) : List Char :=
  if c.isUpper then [c.toLower]
  else if c.val.toNat = 0x212A then ['k']
  else if c.val.toNat = 0x0130 then ['i', Char.ofNat 0x0307]
  else [c]

def jsToLower (s : String) : String := String.ofList (s.toList.flatMap lowerChar)

theorem small_of_isAlphanum {c : Char} (letter : c.isAlphanum = true) : c.val.toNat < 128 := by
  unfold Char.isAlphanum Char.isAlpha Char.isUpper Char.isLower Char.isDigit at letter
  simp only [UInt32.le_iff_toNat_le, ge_iff_le, Bool.or_eq_true, Bool.and_eq_true,
    decide_eq_true_eq] at letter
  have last : 'Z'.val.toNat < 128 ∧ 'z'.val.toNat < 128 ∧ '9'.val.toNat < 128 := by decide
  omega

theorem lowerChar_of_ascii {c : Char} (small : c.val.toNat < 128) : lowerChar c = [c.toLower] := by
  have all : ∀ n : Fin 128, lowerChar (Char.ofNat n) = [(Char.ofNat n).toLower] := by
    decide +kernel
  have char : Char.ofNat c.toNat = c := Char.ofNat_toNat c
  have here := all ⟨c.toNat, small⟩
  dsimp only at here
  rwa [char] at here

theorem flatMap_lowerChar {text : List Char} (small : ∀ c ∈ text, c.val.toNat < 128) :
    text.flatMap lowerChar = text.map Char.toLower := by
  induction text with
  | nil => rfl
  | cons c text ih =>
      obtain ⟨first, rest⟩ := List.forall_mem_cons.mp small
      rw [List.flatMap_cons, lowerChar_of_ascii first, ih rest, List.map_cons]
      rfl

/-- `s.startsWith(head)` -/
def startsWith (s head : String) : Bool := head.toList.isPrefixOf s.toList

/-- The properties that an object literal inherits. -/
def inheritedNames : List String :=
  ["constructor", "__proto__", "hasOwnProperty", "isPrototypeOf", "propertyIsEnumerable",
    "toLocaleString", "toString", "valueOf", "__defineGetter__", "__defineSetter__",
    "__lookupGetter__", "__lookupSetter__"]

end Gateway
