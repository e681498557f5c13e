import Mathlib.Data.List.DropRight
import Mathlib.Data.UInt

/-!
Base64, as bytes are written in it and as it is read forgivingly.

Three bytes are four digits of six bits each. What is left over at the end takes one
digit more than it has bytes, and padding fills up the four.
-/

namespace Base64

section Digits

/-- The digit of a number below 64. -/
def digit (n : Nat) : Char :=
  if n < 26 then Char.ofNat ('A'.toNat + n)
  else if n < 52 then Char.ofNat ('a'.toNat + (n - 26))
  else if n < 62 then Char.ofNat ('0'.toNat + (n - 52))
  else if n = 62 then '+'
  else '/'

def value (c : Char) : Option Nat :=
  if c.isUpper then some (c.toNat - 'A'.toNat)
  else if c.isLower then some (c.toNat - 'a'.toNat + 26)
  else if c.isDigit then some (c.toNat - '0'.toNat + 52)
  else if c = '+' then some 62
  else if c = '/' then some 63
  else none

theorem value_digit {n : Nat} (small : n < 64) : value (digit n) = some n := by
  have all : ∀ n : Fin 64, value (digit n) = some n.val := by decide +kernel
  exact all ⟨n, small⟩

theorem mapM_value {ns : List Nat} (small : ∀ n ∈ ns, n < 64) :
    (ns.map digit).mapM value = some ns := by
  induction ns with
  | nil => rfl
  | cons n ns ih =>
      obtain ⟨first, rest⟩ := List.forall_mem_cons.mp small
      rw [List.map_cons, List.mapM_cons, value_digit first, ih rest]
      rfl

end Digits

section Groups

def sextets : List UInt8 → List Nat
  | [] => []
  | [a] => [a.toNat / 4, a.toNat % 4 * 16]
  | [a, b] => [a.toNat / 4, a.toNat % 4 * 16 + b.toNat / 16, b.toNat % 16 * 4]
  | a :: b :: c :: rest =>
      a.toNat / 4 :: (a.toNat % 4 * 16 + b.toNat / 16) :: (b.toNat % 16 * 4 + c.toNat / 64) ::
        c.toNat % 64 :: sextets rest

/-- The bits that do not fill a byte are dropped. -/
def octets : List Nat → List UInt8
  | [] | [_] => []
  | [a, b] => [.ofNat (a * 4 + b / 16)]
  | [a, b, c] => [.ofNat (a * 4 + b / 16), .ofNat (b % 16 * 16 + c / 4)]
  | a :: b :: c :: d :: rest =>
      .ofNat (a * 4 + b / 16) :: .ofNat (b % 16 * 16 + c / 4) :: .ofNat (c % 4 * 64 + d) ::
        octets rest

theorem ofNat_eq {n : Nat} {b : UInt8} (same : n = b.toNat) : UInt8.ofNat n = b := by
  rw [same, UInt8.ofNat_toNat]

theorem octets_sextets (bytes : List UInt8) : octets (sextets bytes) = bytes := by
  induction bytes using sextets.induct with
  | case1 => rfl
  | case2 a =>
      have high := a.toNat_lt
      rw [sextets, octets, ofNat_eq (b := a) (by omega)]
  | case3 a b =>
      have high := a.toNat_lt
      have low := b.toNat_lt
      rw [sextets, octets, ofNat_eq (b := a) (by omega), ofNat_eq (b := b) (by omega)]
  | case4 a b c rest ih =>
      have high := a.toNat_lt
      have middle := b.toNat_lt
      have low := c.toNat_lt
      rw [sextets, octets, ofNat_eq (b := a) (by omega), ofNat_eq (b := b) (by omega),
        ofNat_eq (b := c) (by omega), ih]

theorem sextets_lt (bytes : List UInt8) : ∀ n ∈ sextets bytes, n < 64 := by
  induction bytes using sextets.induct with
  | case1 => exact List.forall_mem_nil _
  | case2 a =>
      have high := a.toNat_lt
      simp only [sextets, List.forall_mem_cons]
      refine ⟨?_, ?_, List.forall_mem_nil _⟩ <;> omega
  | case3 a b =>
      have high := a.toNat_lt
      have low := b.toNat_lt
      simp only [sextets, List.forall_mem_cons]
      refine ⟨?_, ?_, ?_, List.forall_mem_nil _⟩ <;> omega
  | case4 a b c rest ih =>
      have high := a.toNat_lt
      have middle := b.toNat_lt
      have low := c.toNat_lt
      simp only [sextets, List.forall_mem_cons]
      refine ⟨?_, ?_, ?_, ?_, ih⟩ <;> omega

/-- What is left over at the end is never a single digit. -/
theorem sextets_length (bytes : List UInt8) :
    (sextets bytes).length % 4 ≠ 1 ∧ (sextets bytes).length * 3 ≤ bytes.length * 4 + 2 := by
  induction bytes using sextets.induct with
  | case1 => exact ⟨by decide, Nat.zero_le _⟩
  | case2 | case3 =>
      simp only [sextets, List.length_cons, List.length_nil]
      omega
  | case4 a b c rest ih =>
      simp only [sextets, List.length_cons]
      omega

theorem sextets_ne_nil {bytes : List UInt8} (nonempty : bytes ≠ []) : sextets bytes ≠ [] := by
  cases bytes using sextets.fun_cases with
  | case1 => exact absurd rfl nonempty
  | case2 | case3 | case4 => exact List.cons_ne_nil _ _

end Groups

section Text

def digits (bytes : List UInt8) : List Char := (sextets bytes).map digit

/-- What fills up a number of digits. -/
def padding (n : Nat) : List Char := if n % 4 = 0 then [] else List.replicate (4 - n % 4) '='

def encode (bytes : List UInt8) : List Char := digits bytes ++ padding (digits bytes).length

def isSpace (c : Char) : Bool :=
  c == '\t' || c == '\n' || c == Char.ofNat 12 || c == '\r' || c == ' '

/-- At most two signs are dropped, and only where they fill up the text. -/
def unpadded (text : List Char) : List Char :=
  if text.length % 4 ≠ 0 then text
  else
    match text.reverse with
    | '=' :: '=' :: rest | '=' :: rest => rest.reverse
    | _ => text

def decode (text : List Char) : Option (List UInt8) :=
  let bare := unpadded (text.filter fun c => !isSpace c)
  if bare.length % 4 = 1 then none else (bare.mapM value).map octets

theorem digit_plain {n : Nat} (small : n < 64) :
    isSpace (digit n) = false ∧ digit n ≠ '=' := by
  have all : ∀ n : Fin 64, isSpace (digit n) = false ∧ digit n ≠ '=' := by decide +kernel
  exact all ⟨n, small⟩

theorem mem_digits {bytes : List UInt8} {c : Char} (mem : c ∈ digits bytes) :
    ∃ n < 64, c = digit n := by
  obtain ⟨n, listed, rfl⟩ := List.mem_map.mp mem
  exact ⟨n, sextets_lt bytes n listed, rfl⟩

theorem padding_eq (n : Nat) (other : n % 4 ≠ 1) :
    padding n = [] ∧ n % 4 = 0 ∨ padding n = ['='] ∧ n % 4 = 3 ∨
      padding n = ['=', '='] ∧ n % 4 = 2 := by
  have below := Nat.mod_lt n (by decide : 4 > 0)
  rw [padding]
  match left : n % 4 with
  | 0 => exact .inl ⟨if_pos rfl, rfl⟩
  | 1 => exact absurd left other
  | 2 => exact .inr (.inr ⟨rfl, rfl⟩)
  | 3 => exact .inr (.inl ⟨rfl, rfl⟩)
  | r + 4 => omega

theorem unpadded_encode (bytes : List UInt8) : unpadded (encode bytes) = digits bytes := by
  have length : (digits bytes).length % 4 ≠ 1 := by
    rw [digits, List.length_map]
    exact (sextets_length bytes).1
  have last : ∀ rest, (digits bytes).reverse ≠ '=' :: rest := by
    intro rest same
    have mem : '=' ∈ digits bytes := by
      rw [← List.mem_reverse, same]
      exact List.mem_cons_self
    obtain ⟨n, small, sign⟩ := mem_digits mem
    exact (digit_plain small).2 sign.symm
  rw [encode]
  rcases padding_eq _ length with ⟨none, full⟩ | ⟨one, left⟩ | ⟨two, left⟩
  · rw [none, List.append_nil, unpadded, if_neg (not_not.mpr full)]
    split
    · next same => exact absurd same (last _)
    · next same => exact absurd same (last _)
    · rfl
  · have full : ((digits bytes) ++ ['=']).length % 4 = 0 := by
      rw [List.length_append, List.length_singleton]
      omega
    rw [one, unpadded, if_neg (not_not.mpr full), List.reverse_append]
    split
    · next same => exact absurd (List.cons.inj same).2 (last _)
    · next rest _ same =>
        rw [← (List.cons.inj same).2]
        exact List.reverse_reverse _
    · next other => exact absurd rfl (other (digits bytes).reverse)
  · have full : ((digits bytes) ++ ['=', '=']).length % 4 = 0 := by
      rw [List.length_append]
      simp only [List.length_cons, List.length_nil]
      omega
    rw [two, unpadded, if_neg (not_not.mpr full), List.reverse_append]
    exact List.reverse_reverse _

theorem decode_encode (bytes : List UInt8) : decode (encode bytes) = some bytes := by
  have solid : (encode bytes).filter (fun c => !isSpace c) = encode bytes := by
    refine List.filter_eq_self.mpr fun c mem => ?_
    cases List.mem_append.mp mem with
    | inl listed =>
        obtain ⟨n, small, rfl⟩ := mem_digits listed
        rw [(digit_plain small).1]
        rfl
    | inr filled =>
        rw [padding] at filled
        split at filled
        · exact absurd filled List.not_mem_nil
        · rw [List.eq_of_mem_replicate filled]
          rfl
  have length : ¬(digits bytes).length % 4 = 1 := by
    rw [digits, List.length_map]
    exact (sextets_length bytes).1
  rw [decode, solid, unpadded_encode, if_neg length, digits, mapM_value (sextets_lt bytes), Option.map_some, octets_sextets]

end Text

end Base64
