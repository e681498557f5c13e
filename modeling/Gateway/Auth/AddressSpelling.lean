import Gateway.Auth.AddressParser
import Gateway.Lib.BytePrefix

/-!
The bytes of addresses, and a text for each of them.

An address is four bytes, or sixteen that are not an IPv4 address mapped into IPv6.
Its text is the dotted quad, or eight groups of four digits; the parser reads it
back.
-/

namespace Gateway

open BytePrefix

section Bytes

/-- The bytes of an address. -/
structure IsAddress (bytes : List Nat) : Prop where
  are : AreBytes bytes
  family : bytes.length = 4 ∨ bytes.length = 16 ∧ reduced bytes = bytes

theorem QuadText.areBytes {text : List Char} {bytes : List Nat} (h : QuadText text bytes) :
    AreBytes bytes := fun n mem => Nat.lt_succ_of_le (h.2.1 n mem)

theorem hexValue_lt {c : Char} {d : Nat} (h : hexValue c = some d) : d < 16 := by
  rw [hexValue] at h
  split at h
  · next digit =>
      obtain ⟨small, -⟩ := digitChar_of_isDigit digit
      obtain rfl := Option.some.inj h
      omega
  · split at h
    · next lower =>
        have last : c.toNat ≤ 'f'.toNat := lower.2
        have range : 'f'.toNat = 'a'.toNat + 5 := rfl
        obtain rfl := Option.some.inj h
        omega
    · split at h
      · next upper =>
          have last : c.toNat ≤ 'F'.toNat := upper.2
          have range : 'F'.toNat = 'A'.toNat + 5 := rfl
          obtain rfl := Option.some.inj h
          omega
      · cases h

theorem mapM_hexValue_lt {text : List Char} {digits : List Nat}
    (read : text.mapM hexValue = some digits) :
    digits.length = text.length ∧ ∀ d ∈ digits, d < 16 := by
  induction text generalizing digits with
  | nil =>
      rw [List.mapM_nil] at read
      obtain rfl := Option.some.inj read
      exact ⟨rfl, fun _ mem => absurd mem List.not_mem_nil⟩
  | cons c text ih =>
      obtain ⟨d, rest, first, later, rfl⟩ := mapM_cons_eq_some.mp read
      obtain ⟨length, small⟩ := ih later
      exact ⟨congrArg (· + 1) length, List.forall_mem_cons.mpr ⟨hexValue_lt first, small⟩⟩

theorem GroupText.lt {text : List Char} {n : Nat} (h : GroupText text n) : n < 65536 := by
  obtain ⟨digits, read, -, short, rfl⟩ := h
  obtain ⟨length, small⟩ := mapM_hexValue_lt read
  have bound : Nat.ofDigits 16 digits.reverse < 16 ^ digits.reverse.length :=
    Nat.ofDigits_lt_base_pow_length (by decide) fun d mem => small d (List.mem_reverse.mp mem)
  rw [List.length_reverse, length] at bound
  exact bound.trans_le (Nat.pow_le_pow_right (by decide) short)

theorem GroupsText.areBytes {quad : Bool} {groups : List (List Char)} {bytes : List Nat}
    (h : GroupsText quad groups bytes) : AreBytes bytes := by
  induction h with
  | nil => exact fun _ mem => absurd mem List.not_mem_nil
  | quad _ last => exact last.areBytes
  | @cons text n groups bytes first _ ih =>
      have small := first.lt
      refine List.forall_mem_cons.mpr ⟨by omega, List.forall_mem_cons.mpr ⟨?_, ih⟩⟩
      exact Nat.mod_lt n (by decide)

theorem Ipv6Text.areBytes {quad : Bool} {core : List Char} {bytes : List Nat}
    (h : Ipv6Text quad core bytes) : AreBytes bytes ∧ bytes.length = 16 := by
  cases h with
  | full all length => exact ⟨all.areBytes, length⟩
  | @compressed before after head tail first last short =>
      constructor
      · rw [AreBytes.append_iff, AreBytes.append_iff]
        refine ⟨⟨first.areBytes, fun b mem => ?_⟩, last.areBytes⟩
        rw [List.eq_of_mem_replicate mem]
        decide
      · simp only [List.length_append, List.length_replicate]
        omega

theorem reduced_of_length {bytes : List Nat} (four : bytes.length = 4) : reduced bytes = bytes := by
  refine if_neg fun mapped => ?_
  have length := congrArg List.length mapped
  rw [List.length_take, four] at length
  exact absurd length (by decide)

theorem isAddress_reduced {bytes : List Nat} (are : AreBytes bytes) (length : bytes.length = 16) :
    IsAddress (reduced bytes) := by
  by_cases mapped : bytes.take 12 = List.replicate 10 0 ++ [255, 255]
  · have cut : reduced bytes = bytes.drop 12 := if_pos mapped
    rw [cut]
    exact ⟨fun b mem => are b (List.mem_of_mem_drop mem), .inl (by rw [List.length_drop, length])⟩
  · have same : reduced bytes = bytes := if_neg mapped
    rw [same]
    exact ⟨are, .inr ⟨length, same⟩⟩

theorem IsAddress.reduced_eq {bytes : List Nat} (h : IsAddress bytes) : reduced bytes = bytes := by
  rcases h.family with four | ⟨-, same⟩
  · exact reduced_of_length four
  · exact same

theorem ipToBytes_short {s : String} {bytes : List Nat} (parsed : ipToBytes s = some bytes) :
    jsLength (jsTrim s) ≤ 64 := by
  by_contra long
  have refused : ipToBytes s = none := if_pos (.inr (not_le.mp long))
  rw [refused] at parsed
  cases parsed

theorem ipToBytes_isAddress {s : String} {bytes : List Nat} (parsed : ipToBytes s = some bytes) :
    IsAddress bytes := by
  rcases (ipToBytes_iff (ipToBytes_short parsed) bytes).mp parsed with plain | ⟨v6, grammar, -, rfl⟩
  · exact ⟨plain.areBytes, .inl plain.1⟩
  · exact isAddress_reduced grammar.areBytes.1 grammar.areBytes.2

end Bytes

section Spelling

def hexGroup (high low : Nat) : List Char :=
  [Nat.digitChar (high / 16), Nat.digitChar (high % 16), Nat.digitChar (low / 16),
    Nat.digitChar (low % 16)]

def groupsOf : List Nat → List (List Char)
  | high :: low :: rest => hexGroup high low :: groupsOf rest
  | _ => []

/-- The text of an address: a dotted quad, or eight groups. -/
def spellAddress (bytes : List Nat) : String :=
  String.ofList (if bytes.length = 4 then ['.'].intercalate (bytes.map (Nat.toDigits 10))
    else joined (groupsOf bytes))

theorem hexValue_digitChar {d : Nat} (small : d < 16) :
    hexValue (Nat.digitChar d) = some d := by
  have all : ∀ d : Fin 16, hexValue (Nat.digitChar d) = some d.val := by decide +kernel
  exact all ⟨d, small⟩

theorem groupText_hexGroup {high low : Nat} (first : high < 256) (second : low < 256) :
    GroupText (hexGroup high low) (256 * high + low) := by
  have top {n : Nat} (byte : n < 256) : hexValue (Nat.digitChar (n / 16)) = some (n / 16) :=
    hexValue_digitChar (by omega)
  have bottom (n : Nat) : hexValue (Nat.digitChar (n % 16)) = some (n % 16) :=
    hexValue_digitChar (Nat.mod_lt n (by decide))
  refine ⟨[high / 16, high % 16, low / 16, low % 16], ?_, Nat.le_add_left 1 3, Nat.le_refl 4, ?_⟩
  · simp only [hexGroup, List.mapM_cons, List.mapM_nil, top first, bottom high, top second,
      bottom low]
    rfl
  · simp only [List.reverse_cons, List.reverse_nil, List.nil_append, List.cons_append,
      Nat.ofDigits_cons, Nat.ofDigits_nil]
    omega

theorem groupsText_groupsOf {bytes : List Nat} (are : AreBytes bytes)
    (even : bytes.length % 2 = 0) : GroupsText false (groupsOf bytes) bytes := by
  match bytes with
  | [] => exact .nil
  | [_] => cases even
  | high :: low :: rest =>
      obtain ⟨first, others⟩ := List.forall_mem_cons.mp are
      obtain ⟨second, later⟩ := List.forall_mem_cons.mp others
      have whole := GroupsText.cons (groupText_hexGroup first second)
        (@groupsText_groupsOf rest later ((Nat.add_mod_right rest.length 2).symm.trans even))
      have top : (256 * high + low) / 256 = high := by omega
      have bottom : (256 * high + low) % 256 = low := by omega
      rwa [top, bottom] at whole

theorem Ipv6Char.solid {c : Char} (h : Ipv6Char c) : isJsSpace c = false ∧ c ≠ '/' := by
  have all : ∀ n : Fin 128, Ipv6Char (Char.ofNat n) →
      isJsSpace (Char.ofNat n) = false ∧ Char.ofNat n ≠ '/' := by decide +kernel
  have char : Char.ofNat c.toNat = c := Char.ofNat_toNat c
  have here := all ⟨c.toNat, h.small⟩
  dsimp only at here
  rw [char] at here
  exact here h

theorem QuadText.ipv6Chars {text : List Char} {bytes : List Nat} (h : QuadText text bytes) :
    ∀ c ∈ text, Ipv6Char c := by
  intro c mem
  rcases h.chars c mem with digit | point
  · exact .inl (isHex_of_isDigit digit)
  · exact .inr (.inl point)

/-- The text of an address, as the grammar has it. -/
theorem spellAddress_text {bytes : List Nat} (h : IsAddress bytes) :
    QuadText (spellAddress bytes).toList bytes ∨
      ∃ groups, (spellAddress bytes).toList = joined groups ∧ GroupsText false groups bytes ∧
        bytes.length = 16 := by
  rw [spellAddress, String.toList_ofList]
  rcases h.family with four | ⟨length, -⟩
  · rw [if_pos four]
    exact .inl ⟨four, fun n mem => Nat.le_of_lt_succ (h.are n mem), rfl⟩
  · rw [if_neg (by omega)]
    exact .inr ⟨_, rfl, groupsText_groupsOf h.are (by omega), length⟩

theorem spellAddress_chars {bytes : List Nat} (h : IsAddress bytes) :
    ∀ c ∈ (spellAddress bytes).toList, Ipv6Char c := by
  rcases spellAddress_text h with plain | ⟨groups, text, grammar, -⟩
  · exact plain.ipv6Chars
  · rw [text]
    exact grammar.joined_chars

theorem jsTrim_spellAddress {bytes : List Nat} (h : IsAddress bytes) :
    jsTrim (spellAddress bytes) = spellAddress bytes := by
  have trimmed := jsTrim_of_no_space fun c mem => (spellAddress_chars h c mem).solid.1
  rwa [String.ofList_toList] at trimmed

/-- The text of an address has no IPv4 address within it. -/
theorem not_misplaced_spellAddress {bytes : List Nat} (h : IsAddress bytes) :
    ¬ MisplacedQuad (spellAddress bytes) := by
  intro misplaced
  have point := bareText_subset _ misplaced.point_mem
  obtain ⟨before, -, after, -, -, -, -, -, text, -⟩ := misplaced
  have colon : ':' ∈ (jsTrim (spellAddress bytes)).toList :=
    bareText_subset _ (text ▸ List.mem_append_right _ List.mem_cons_self)
  rw [jsTrim_spellAddress h] at point colon
  rcases spellAddress_text h with plain | ⟨groups, spelled, grammar, -⟩
  · exact absurd (plain.chars ':' colon) (by decide)
  · rw [spelled] at point
    rcases mem_joined point with other | ⟨group, mem, here⟩
    · cases other
    · exact grammar.no_point group mem here

theorem bareText_spellAddress {bytes : List Nat} (h : IsAddress bytes) :
    bareText (spellAddress bytes).toList = (spellAddress bytes).toList := by
  refine bareText_of_decorated ⟨[], .inl rfl, .inl (List.append_nil _).symm⟩
    (spellAddress_chars h) ?_
  rcases spellAddress_text h with plain | ⟨groups, spelled, grammar, length⟩
  · exact plain.ne_nil
  · rw [spelled]
    refine joined_ne_nil grammar.plain ?_
    rintro rfl
    cases grammar
    cases length

/-- What the parser and the grammar read in the text of an address. -/
theorem spellAddress_reads {bytes : List Nat} (h : IsAddress bytes) :
    QuadText (jsTrim (spellAddress bytes)).toList bytes ∨
      Ipv6Text false (bareText (jsTrim (spellAddress bytes)).toList) bytes := by
  rw [jsTrim_spellAddress h, bareText_spellAddress h]
  rcases spellAddress_text h with plain | ⟨groups, spelled, grammar, length⟩
  · exact .inl plain
  · rw [spelled]
    exact .inr (.full grammar.mono length)

theorem jsLength_spellAddress {bytes : List Nat} (h : IsAddress bytes) :
    jsLength (jsTrim (spellAddress bytes)) ≤ 64 := by
  have exact_length := jsLength_of_small fun c mem =>
    (spellAddress_chars h c mem).small.trans (by decide)
  rw [String.ofList_toList] at exact_length
  rw [jsTrim_spellAddress h, exact_length]
  rcases spellAddress_text h with plain | ⟨groups, spelled, grammar, length⟩
  · exact plain.length_le.trans (by decide)
  · rw [spelled]
    exact (@Ipv6Text.full false _ _ grammar.mono length).length_le.trans (by decide)

/-- The parser reads the text of an address as that address. -/
theorem ipToBytes_spellAddress {bytes : List Nat} (h : IsAddress bytes) :
    ipToBytes (spellAddress bytes) = some bytes := by
  refine (ipToBytes_iff (jsLength_spellAddress h) bytes).mpr ?_
  rcases spellAddress_reads h with plain | grammar
  · exact .inl plain
  · exact .inr ⟨bytes, grammar.mono, grammar.length_le, h.reduced_eq.symm⟩

end Spelling

end Gateway
