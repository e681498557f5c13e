import Gateway.Auth.Cidr
import Mathlib.Data.List.TakeWhile
import Mathlib.Data.Nat.Digits.Defs
import Mathlib.Tactic.IntervalCases

/-!
The textual grammar of addresses, and the parsers of its parts.

The grammar is written as texts are: four decimal numbers joined by points, or
groups of hexadecimal digits joined by colons, of which one run of zeros may be
left out. It knows nothing of positions in a buffer.
-/

namespace Gateway

section Grammar

/-- Four bytes in decimal, without leading zeros. -/
def QuadText (text : List Char) (bytes : List Nat) : Prop :=
  bytes.length = 4 ∧ (∀ n ∈ bytes, n ≤ 255) ∧
    text = ['.'].intercalate (bytes.map (Nat.toDigits 10))

/-- One to four hexadecimal digits. -/
def GroupText (text : List Char) (n : Nat) : Prop :=
  ∃ digits, text.mapM hexValue = some digits ∧ 1 ≤ text.length ∧ text.length ≤ 4 ∧
    n = Nat.ofDigits 16 digits.reverse

/-- Groups of two bytes each; where `quad` is set, the last four bytes may be an IPv4 address. -/
inductive GroupsText (quad : Bool) : List (List Char) → List Nat → Prop
  | nil : GroupsText quad [] []
  | quad {text : List Char} {bytes : List Nat} (allowed : quad = true)
      (last : QuadText text bytes) : GroupsText quad [text] bytes
  | cons {text : List Char} {n : Nat} {groups : List (List Char)} {bytes : List Nat}
      (first : GroupText text n) (rest : GroupsText quad groups bytes) :
      GroupsText quad (text :: groups) (n / 256 :: n % 256 :: bytes)

def joined (groups : List (List Char)) : List Char := [':'].intercalate groups

/-- All sixteen bytes, or what stands before and after the zeros that are left out. An IPv4 address
before them is allowed where `quad` is set. -/
inductive Ipv6Text (quad : Bool) : List Char → List Nat → Prop
  | full {groups : List (List Char)} {bytes : List Nat} (all : GroupsText true groups bytes)
      (length : bytes.length = 16) : Ipv6Text quad (joined groups) bytes
  | compressed {before after : List (List Char)} {head tail : List Nat}
      (first : GroupsText quad before head) (last : GroupsText true after tail)
      (short : head.length + tail.length ≤ 14) :
      Ipv6Text quad (joined before ++ ':' :: ':' :: joined after)
        (head ++ List.replicate (16 - head.length - tail.length) 0 ++ tail)

/-- Around an IPv6 text there may be brackets, and after it, within them, a zone. -/
def Decorated (text core : List Char) : Prop :=
  ∃ zone, (zone = [] ∨ ∃ name, zone = '%' :: name) ∧
    (text = core ++ zone ∨ text = '[' :: (core ++ zone) ++ [']'])

/-- An IPv4 address that is mapped into IPv6 is that IPv4 address. -/
def reduced (bytes : List Nat) : List Nat :=
  if bytes.take 12 = List.replicate 10 0 ++ [255, 255] then bytes.drop 12 else bytes

/-- The address that a trimmed text denotes. -/
inductive AddressText (quad : Bool) : List Char → List Nat → Prop
  | ipv4 {text : List Char} {bytes : List Nat} (plain : QuadText text bytes) :
      AddressText quad text bytes
  | ipv6 {text core : List Char} {bytes : List Nat} (decorated : Decorated text core)
      (plain : Ipv6Text quad core bytes) : AddressText quad text (reduced bytes)

/-- The grammar of addresses: an IPv4 address stands for the very last bytes only. -/
def Denotes (s : String) (bytes : List Nat) : Prop := AddressText false (jsTrim s).toList bytes

end Grammar

section Octets

/-- A decimal digit is the character of its value. -/
theorem digitChar_of_isDigit {c : Char} (digit : c.isDigit = true) :
    c.toNat - '0'.toNat < 10 ∧ Nat.digitChar (c.toNat - '0'.toNat) = c := by
  have range : 48 ≤ c.toNat ∧ c.toNat ≤ 57 := by
    simpa [Char.isDigit, UInt32.le_iff_toNat_le] using digit
  obtain ⟨low, high⟩ := range
  have char : Char.ofNat c.toNat = c := Char.ofNat_toNat c
  generalize c.toNat = n at low high char
  rw [← char]
  interval_cases n <;> decide

theorem decimalValue_append (text : List Char) (c : Char) :
    decimalValue (text ++ [c]) = 10 * decimalValue text + (c.toNat - '0'.toNat) := by
  rw [decimalValue, List.foldl_append]
  rfl

theorem toDigits_decimalValue {text : List Char} (digits : ∀ c ∈ text, c.isDigit = true)
    (nonempty : text ≠ []) (plain : 1 < text.length → text.head? ≠ some '0') :
    Nat.toDigits 10 (decimalValue text) = text := by
  induction text using List.reverseRecOn with
  | nil => exact absurd rfl nonempty
  | append_singleton text c ih =>
      obtain ⟨small, char⟩ := digitChar_of_isDigit (digits c (by simp))
      have last : Nat.toDigits 10 (c.toNat - '0'.toNat) = [c] := by
        rw [Nat.toDigits_of_lt_base small, char]
      rw [decimalValue_append]
      by_cases empty : text = []
      · subst empty
        rw [List.nil_append, ← last]
        exact congrArg (Nat.toDigits 10) (Nat.zero_add _)
      · have longer : 1 < (text ++ [c]).length := by
          rw [List.length_append, List.length_singleton]
          exact Nat.lt_add_of_pos_left (List.length_pos_iff.mpr empty)
        have head := plain longer
        rw [List.head?_append_of_ne_nil _ empty] at head
        have known := ih (fun d mem => digits d (List.mem_append_left _ mem)) empty fun _ => head
        have positive : 0 < decimalValue text := by
          by_contra zero
          rw [Nat.eq_zero_of_not_pos zero, Nat.toDigits_zero] at known
          exact head (by rw [← known]; rfl)
        rw [← Nat.toDigits_append_toDigits (by decide) positive small, known, last]

theorem parseOctet_toDigits {n : Nat} (small : n ≤ 255) :
    parseOctet (Nat.toDigits 10 n) = some n := by
  have all : ∀ n : Fin 256, parseOctet (Nat.toDigits 10 n) = some n.val := by decide +kernel
  exact all ⟨n, Nat.lt_succ_of_le small⟩

theorem parseOctet_iff (text : List Char) (n : Nat) :
    parseOctet text = some n ↔ n ≤ 255 ∧ text = Nat.toDigits 10 n := by
  constructor
  · intro parsed
    rw [parseOctet] at parsed
    split at parsed
    · cases parsed
    · next short =>
        split at parsed
        · cases parsed
        · next plain =>
            split at parsed
            · cases parsed
            · next digits =>
                split at parsed
                · cases parsed
                · next small =>
                    obtain rfl := Option.some.inj parsed
                    rw [not_or] at short
                    rw [Bool.not_eq_false, List.all_eq_true] at digits
                    refine ⟨not_lt.mp small, (toDigits_decimalValue digits short.1 ?_).symm⟩
                    exact fun longer zero => plain ⟨longer, zero⟩
  · rintro ⟨small, rfl⟩
    exact parseOctet_toDigits small

theorem not_mem_toDigits {c : Char} (other : c.isDigit = false) (n : Nat) :
    c ∉ Nat.toDigits 10 n := by
  intro mem
  have digit := Nat.isDigit_of_mem_toDigits (by decide) (by decide) mem
  rw [other] at digit
  cases digit

theorem mapM_cons_eq_some {α β : Type} {f : α → Option β} {x : α} {xs : List α} {ys : List β} :
    (x :: xs).mapM f = some ys ↔
      ∃ y rest, f x = some y ∧ xs.mapM f = some rest ∧ ys = y :: rest := by
  rw [List.mapM_cons]
  constructor
  · intro mapped
    obtain ⟨y, first, more⟩ := Option.bind_eq_some_iff.mp mapped
    obtain ⟨rest, later, whole⟩ := Option.bind_eq_some_iff.mp more
    exact ⟨y, rest, first, later, (Option.some.inj whole).symm⟩
  · rintro ⟨y, rest, first, later, rfl⟩
    rw [first, later]
    rfl

theorem mapM_parseOctet_iff (parts : List (List Char)) (bytes : List Nat) :
    parts.mapM parseOctet = some bytes ↔
      (∀ n ∈ bytes, n ≤ 255) ∧ parts = bytes.map (Nat.toDigits 10) := by
  induction parts generalizing bytes with
  | nil =>
      rw [List.mapM_nil]
      constructor
      · intro mapped
        obtain rfl := Option.some.inj mapped
        exact ⟨fun _ mem => absurd mem List.not_mem_nil, rfl⟩
      · rintro ⟨-, none_there⟩
        rw [List.map_eq_nil_iff.mp none_there.symm]
        rfl
  | cons part parts ih =>
      rw [mapM_cons_eq_some]
      constructor
      · rintro ⟨n, rest, first, later, rfl⟩
        obtain ⟨small, rfl⟩ := (parseOctet_iff part n).mp first
        obtain ⟨others, rfl⟩ := (ih rest).mp later
        exact ⟨List.forall_mem_cons.mpr ⟨small, others⟩, rfl⟩
      · rintro ⟨small, whole⟩
        obtain ⟨n, rest, rfl, rfl, rfl⟩ := List.map_eq_cons_iff.mp whole.symm
        obtain ⟨first, others⟩ := List.forall_mem_cons.mp small
        exact ⟨n, rest, parseOctet_toDigits first, (ih rest).mpr ⟨others, rfl⟩, rfl⟩

/-- The parts between the points of a dotted quad. -/
theorem QuadText.labels {text : List Char} {bytes : List Nat} (h : QuadText text bytes) :
    text.splitOn '.' = bytes.map (Nat.toDigits 10) := by
  obtain ⟨length, -, rfl⟩ := h
  refine List.splitOn_intercalate '.' (List.forall_mem_map.mpr fun n _ => ?_) ?_
  · exact not_mem_toDigits rfl n
  · intro empty
    rw [List.map_eq_nil_iff.mp empty] at length
    cases length

theorem parseIpv4_iff (text : List Char) (bytes : List Nat) :
    parseIpv4 text = some bytes ↔ QuadText text bytes := by
  constructor
  · intro parsed
    rw [parseIpv4] at parsed
    split at parsed
    · next four =>
        obtain ⟨small, parts⟩ := (mapM_parseOctet_iff _ _).mp parsed
        have length : bytes.length = 4 := by
          rw [← four, parts, List.length_map]
        exact ⟨length, small, by rw [← parts, List.intercalate_splitOn]⟩
    · cases parsed
  · intro quad
    rw [parseIpv4, quad.labels, List.length_map, if_pos quad.1]
    exact (mapM_parseOctet_iff _ _).mpr ⟨quad.2.1, rfl⟩

theorem QuadText.parts {text : List Char} {bytes : List Nat} (h : QuadText text bytes) :
    ∃ a b c d, a ≤ 255 ∧ b ≤ 255 ∧ c ≤ 255 ∧ d ≤ 255 ∧ bytes = [a, b, c, d] ∧
      text = Nat.toDigits 10 a ++ '.' :: (Nat.toDigits 10 b ++ '.' ::
        (Nat.toDigits 10 c ++ '.' :: Nat.toDigits 10 d)) := by
  obtain ⟨length, small, rfl⟩ := h
  match bytes with
  | [a, b, c, d] =>
      simp only [List.forall_mem_cons] at small
      obtain ⟨first, second, third, fourth, -⟩ := small
      exact ⟨a, b, c, d, first, second, third, fourth, rfl, by simp⟩

/-- What the characters of a dotted quad are. -/
theorem QuadText.chars {text : List Char} {bytes : List Nat} (h : QuadText text bytes) :
    ∀ c ∈ text, c.isDigit = true ∨ c = '.' := by
  obtain ⟨a, b, c, d, -, -, -, -, -, rfl⟩ := h.parts
  have digits (n : Nat) : ∀ c ∈ Nat.toDigits 10 n, c.isDigit = true := fun c mem =>
    Nat.isDigit_of_mem_toDigits (by decide) (by decide) mem
  intro char mem
  simp only [List.mem_append, List.mem_cons] at mem
  rcases mem with mem | rfl | mem | rfl | mem | rfl | mem
  · exact .inl (digits a char mem)
  · exact .inr rfl
  · exact .inl (digits b char mem)
  · exact .inr rfl
  · exact .inl (digits c char mem)
  · exact .inr rfl
  · exact .inl (digits d char mem)

/-- A character that is no digit and no point is not in a dotted quad. -/
theorem QuadText.not_mem {text : List Char} {bytes : List Nat} (h : QuadText text bytes) {c : Char}
    (other : c.isDigit = false) (point : c ≠ '.') : c ∉ text := by
  intro mem
  rcases h.chars c mem with digit | same
  · rw [other] at digit
    cases digit
  · exact point same

theorem QuadText.last_digit {text : List Char} {bytes : List Nat} (h : QuadText text bytes) :
    ∃ c, text.getLast? = some c ∧ c.isDigit = true := by
  obtain ⟨a, b, c, d, -, -, -, -, -, rfl⟩ := h.parts
  have whole : Nat.toDigits 10 d ≠ [] := Nat.toDigits_ne_nil
  have digit := Nat.isDigit_of_mem_toDigits (by decide) (by decide) (List.getLast_mem whole)
  refine ⟨_, ?_, digit⟩
  simp [List.getLast?_append, List.getLast?_cons, List.getLast?_eq_some_getLast whole]

theorem QuadText.point_mem {text : List Char} {bytes : List Nat} (h : QuadText text bytes) :
    '.' ∈ text := by
  obtain ⟨a, b, c, d, -, -, -, -, -, rfl⟩ := h.parts
  exact List.mem_append_right _ List.mem_cons_self

theorem QuadText.length_le {text : List Char} {bytes : List Nat} (h : QuadText text bytes) :
    text.length ≤ 15 := by
  obtain ⟨a, b, c, d, ha, hb, hc, hd, -, rfl⟩ := h.parts
  have short {n : Nat} (small : n ≤ 255) : (Nat.toDigits 10 n).length ≤ 3 :=
    (Nat.length_toDigits_le_iff (by decide) (by decide)).mpr (by omega)
  have first := short ha
  have second := short hb
  have third := short hc
  have fourth := short hd
  simp only [List.length_append, List.length_cons]
  omega

end Octets

section Groups

theorem foldl_eq_ofDigits (digits : List Nat) :
    digits.foldl (fun n d => 16 * n + d) 0 = Nat.ofDigits 16 digits.reverse := by
  rw [Nat.ofDigits_eq_foldr, List.foldr_reverse]
  congr 1
  funext n d
  exact Nat.add_comm _ _

theorem parseHexGroup_iff (text : List Char) (n : Nat) :
    parseHexGroup text = some n ↔ GroupText text n := by
  rw [parseHexGroup]
  constructor
  · intro parsed
    split at parsed
    · cases parsed
    · next short =>
        rw [not_or, not_lt] at short
        obtain ⟨digits, read, rfl⟩ := Option.map_eq_some_iff.mp parsed
        exact ⟨digits, read, List.length_pos_iff.mpr short.1, short.2, foldl_eq_ofDigits digits⟩
  · rintro ⟨digits, read, nonempty, short, rfl⟩
    have proper : ¬(text = [] ∨ 4 < text.length) := by
      rw [not_or, not_lt]
      exact ⟨List.length_pos_iff.mp nonempty, short⟩
    rw [if_neg proper, read, Option.map_some, foldl_eq_ofDigits]

/-- A character of a group. -/
def IsHex (c : Char) : Prop := (hexValue c).isSome = true

instance (c : Char) : Decidable (IsHex c) :=
  inferInstanceAs (Decidable ((hexValue c).isSome = true))

theorem isHex_of_isDigit {c : Char} (digit : c.isDigit = true) : IsHex c := by
  rw [IsHex, hexValue, if_pos digit]
  rfl

theorem GroupText.chars {text : List Char} {n : Nat} (h : GroupText text n) :
    ∀ c ∈ text, IsHex c := by
  obtain ⟨digits, read, -⟩ := h
  induction text generalizing digits with
  | nil => exact fun _ mem => absurd mem List.not_mem_nil
  | cons c text ih =>
      obtain ⟨d, rest, first, later, -⟩ := mapM_cons_eq_some.mp read
      refine List.forall_mem_cons.mpr ⟨?_, ih rest later⟩
      rw [IsHex, first]
      rfl

theorem GroupText.ne_nil {text : List Char} {n : Nat} (h : GroupText text n) : text ≠ [] := by
  obtain ⟨digits, -, nonempty, -⟩ := h
  exact List.length_pos_iff.mp nonempty

theorem QuadText.ne_nil {text : List Char} {bytes : List Nat} (h : QuadText text bytes) :
    text ≠ [] := List.ne_nil_of_mem h.point_mem

theorem GroupText.no_point {text : List Char} {n : Nat} (h : GroupText text n) : '.' ∉ text :=
  fun mem => absurd (h.chars '.' mem) (by decide)

/-- The first group is an address in the last place, or two bytes. -/
theorem groupsText_cons_iff {quad : Bool} {group : List Char} {groups : List (List Char)}
    {bytes : List Nat} :
    GroupsText quad (group :: groups) bytes ↔
      (quad = true ∧ groups = [] ∧ QuadText group bytes) ∨
        ∃ n rest, GroupText group n ∧ GroupsText quad groups rest ∧
          bytes = n / 256 :: n % 256 :: rest := by
  constructor
  · intro h
    cases h with
    | quad allowed last => exact .inl ⟨allowed, rfl, last⟩
    | cons first rest => exact .inr ⟨_, _, first, rest, rfl⟩
  · rintro (⟨allowed, rfl, last⟩ | ⟨n, rest, first, later, rfl⟩)
    · exact .quad allowed last
    · exact .cons first later

theorem emitGroups_iff (groups : List (List Char)) {out : List Nat} (short : out.length ≤ 16)
    (bytes : List Nat) :
    emitGroups groups out = some bytes ↔
      ∃ more, GroupsText true groups more ∧ bytes = out ++ more ∧ bytes.length ≤ 16 := by
  induction groups generalizing out with
  | nil =>
      constructor
      · intro emitted
        obtain rfl := Option.some.inj emitted
        exact ⟨[], .nil, (List.append_nil out).symm, short⟩
      · rintro ⟨more, parsed, rfl, -⟩
        cases parsed
        rw [List.append_nil]
        rfl
  | cons group groups ih =>
      rw [emitGroups]
      by_cases point : '.' ∈ group
      · rw [if_pos point]
        constructor
        · intro emitted
          split at emitted
          · next last =>
              split at emitted
              · cases emitted
              · next v4 parsed =>
                  split at emitted
                  · cases emitted
                  · next fits =>
                      obtain rfl := Option.some.inj emitted
                      have quad := (parseIpv4_iff group v4).mp parsed
                      subst last
                      refine ⟨v4, .quad rfl quad, rfl, ?_⟩
                      rw [List.length_append, quad.1]
                      exact not_lt.mp fits
          · cases emitted
        · rintro ⟨more, parsed, rfl, fits⟩
          rcases groupsText_cons_iff.mp parsed with ⟨-, rfl, quad⟩ | ⟨n, rest, first, -, -⟩
          · rw [List.length_append, quad.1] at fits
            rw [if_pos rfl, (parseIpv4_iff group more).mpr quad]
            exact if_neg (not_lt.mpr fits)
          · exact absurd point first.no_point
      · rw [if_neg point]
        constructor
        · intro emitted
          split at emitted
          · cases emitted
          · next n parsed =>
              split at emitted
              · cases emitted
              · next fits =>
                  have room : (out ++ [n / 256, n % 256]).length ≤ 16 := by
                    rw [List.length_append]
                    exact not_lt.mp fits
                  obtain ⟨more, later, rfl, length⟩ := (ih room).mp emitted
                  exact ⟨_, .cons ((parseHexGroup_iff group n).mp parsed) later,
                    by rw [List.append_assoc]; rfl, length⟩
        · rintro ⟨more, parsed, rfl, fits⟩
          rcases groupsText_cons_iff.mp parsed with ⟨-, -, quad⟩ | ⟨n, rest, first, later, rfl⟩
          · exact absurd quad.point_mem point
          · simp only [List.length_append, List.length_cons] at fits
            have room : (out ++ [n / 256, n % 256]).length ≤ 16 := by
              simp only [List.length_append, List.length_cons, List.length_nil]
              omega
            rw [(parseHexGroup_iff group n).mpr first]
            refine (if_neg (by omega)).trans ((ih room).mpr ⟨rest, later, ?_, ?_⟩)
            · rw [List.append_assoc]
              rfl
            · simp only [List.length_append, List.length_cons]
              omega

theorem GroupsText.mono {groups : List (List Char)} {bytes : List Nat}
    (h : GroupsText false groups bytes) : GroupsText true groups bytes := by
  induction h with
  | nil => exact .nil
  | quad allowed _ => cases allowed
  | cons first _ ih => exact .cons first ih

/-- Without a point there is no address in the last place. -/
theorem GroupsText.of_no_point {quad : Bool} {groups : List (List Char)} {bytes : List Nat}
    (h : GroupsText quad groups bytes) (absent : ∀ group ∈ groups, '.' ∉ group) :
    GroupsText false groups bytes := by
  induction h with
  | nil => exact .nil
  | quad _ last => exact absurd last.point_mem (absent _ List.mem_cons_self)
  | cons first _ ih =>
      exact .cons first (ih fun group mem => absent group (List.mem_cons_of_mem _ mem))

theorem GroupsText.no_point {groups : List (List Char)} {bytes : List Nat}
    (h : GroupsText false groups bytes) : ∀ group ∈ groups, '.' ∉ group := by
  induction h with
  | nil => exact fun _ mem => absurd mem List.not_mem_nil
  | quad allowed _ => cases allowed
  | cons first _ ih => exact List.forall_mem_cons.mpr ⟨first.no_point, ih⟩

/-- A group is not empty, and its characters are digits and points. -/
theorem GroupsText.chars {quad : Bool} {groups : List (List Char)} {bytes : List Nat}
    (h : GroupsText quad groups bytes) :
    ∀ group ∈ groups, group ≠ [] ∧ ∀ c ∈ group, IsHex c ∨ c = '.' := by
  induction h with
  | nil => exact fun _ mem => absurd mem List.not_mem_nil
  | quad _ last =>
      intro group mem
      obtain rfl := List.mem_singleton.mp mem
      refine ⟨last.ne_nil, fun c mem => ?_⟩
      rcases last.chars c mem with digit | point
      · exact .inl (isHex_of_isDigit digit)
      · exact .inr point
  | cons first _ ih =>
      exact List.forall_mem_cons.mpr ⟨⟨first.ne_nil, fun c mem => .inl (first.chars c mem)⟩, ih⟩

/-- Two bytes take at most five characters with their colon, an address at most sixteen. -/
theorem GroupsText.length_le {quad : Bool} {groups : List (List Char)} {bytes : List Nat}
    (h : GroupsText quad groups bytes) :
    2 * (groups.map fun group => group.length + 1).sum ≤
      5 * bytes.length + if quad then 12 else 0 := by
  induction h with
  | nil => exact Nat.zero_le _
  | quad allowed last =>
      have short := last.length_le
      have four := last.1
      rw [allowed, if_pos rfl, four, List.map_singleton, List.sum_singleton]
      omega
  | cons first _ ih =>
      obtain ⟨-, -, -, short, -⟩ := first
      simp only [List.map_cons, List.sum_cons, List.length_cons]
      omega

end Groups

end Gateway
