import Gateway.Auth.AddressSpelling

/-!
Which addresses a rule contains.

A rule is an address and the number of its first bits that an address of the range
shares with it. An IPv4 address that is mapped into IPv6 is an IPv4 address, of a
range as well as of a client, and a range has addresses of one family only.
-/

namespace Gateway

open BytePrefix

section Ranges

/-- The bytes that an address is written with: sixteen of an IPv4 address mapped into IPv6. -/
def Written (s : String) (bytes : List Nat) : Prop :=
  jsLength (jsTrim s) ≤ 64 ∧
    (QuadText (jsTrim s).toList bytes ∨
      ∃ core, Decorated (jsTrim s).toList core ∧ Ipv6Text false core bytes)

/-- The address of a rule and its mask, cut at the last slash. -/
inductive RuleParts (rule : String) : String → Option Nat → Prop
  | bare (whole : '/' ∉ (jsTrim rule).toList) : RuleParts rule (jsTrim rule) none
  | masked {base digits : List Char} (whole : (jsTrim rule).toList = base ++ '/' :: digits)
      (nonempty : digits ≠ []) (short : digits.length ≤ 3)
      (are : ∀ c ∈ digits, c.isDigit = true) :
      RuleParts rule (String.ofList base) (some (decimalValue digits))

/-- A rule without a mask is one address. -/
def RuleDenotes (rule : String) (base : List Nat) (n : Nat) : Prop :=
  ∃ text mask, RuleParts rule text mask ∧ Written text base ∧
    n = mask.getD (8 * base.length) ∧ n ≤ 8 * base.length

def IsMapped (bytes : List Nat) : Prop := bytes.take 12 = List.replicate 10 0 ++ [255, 255]

instance (bytes : List Nat) : Decidable (IsMapped bytes) :=
  inferInstanceAs (Decidable (bytes.take 12 = List.replicate 10 0 ++ [255, 255]))

/-- Two addresses of one family that agree in their first `n` bits. -/
def SharesBits (base address : List Nat) (n : Nat) : Prop :=
  address.length = base.length ∧ high address n = high base n

instance (base address : List Nat) (n : Nat) : Decidable (SharesBits base address n) :=
  inferInstanceAs (Decidable (address.length = base.length ∧ high address n = high base n))

/-- The range within the IPv4 addresses that are mapped into IPv6 is one of IPv4 addresses. -/
def InRange (base : List Nat) (n : Nat) (address : List Nat) : Prop :=
  if IsMapped base ∧ 96 ≤ n then SharesBits (base.drop 12) address (n - 96)
  else SharesBits base address n

instance (base : List Nat) (n : Nat) (address : List Nat) : Decidable (InRange base n address) :=
  inferInstanceAs (Decidable (if IsMapped base ∧ 96 ≤ n then
    SharesBits (base.drop 12) address (n - 96) else SharesBits base address n))

/-- The address lies in the range of the rule; one that is mapped into IPv6 is reduced. -/
def LiesWithin (rule ip : String) : Prop :=
  ∃ base n written, RuleDenotes rule base n ∧ Written ip written ∧ InRange base n (reduced written)

/-- The parser takes the text for an address, and the grammar does not. -/
def MisreadAddress (ip : String) : Prop := (ipToBytes ip).isSome = true ∧ MisplacedQuad ip

def MisreadRule (rule : String) : Prop :=
  (parseCidr rule).isSome = true ∧ ∃ text mask, RuleParts rule text mask ∧ MisplacedQuad text

/-- The base has a mask and is written as an IPv4 address mapped into IPv6. -/
def MappedBase (rule : String) : Prop :=
  ∃ text n base, RuleParts rule text (some n) ∧ Written text base ∧ IsMapped base ∧ n ≤ 128

end Ranges

section Parsing

theorem slash_not_mem {digits : List Char} (are : ∀ c ∈ digits, c.isDigit = true) :
    '/' ∉ digits := fun mem => absurd (are '/' mem) (by decide)

theorem cut_at_slash {base digits : List Char} (absent : '/' ∉ digits) :
    ((base ++ '/' :: digits).reverse.takeWhile (· ≠ '/')).reverse = digits ∧
      ((base ++ '/' :: digits).reverse.dropWhile (· ≠ '/')).tail.reverse = base := by
  have plain : ∀ c ∈ digits.reverse, decide (c ≠ '/') = true := fun c mem =>
    decide_eq_true fun same => absent (same ▸ List.mem_reverse.mp mem)
  rw [List.reverse_append, List.reverse_cons, List.append_assoc,
    List.takeWhile_append_of_pos plain, List.dropWhile_append_of_pos plain]
  simp

/-- A text with a slash is cut at the last one. -/
theorem last_slash {text : List Char} (slash : '/' ∈ text) :
    ∃ base digits, text = base ++ '/' :: digits ∧ '/' ∉ digits := by
  have whole := @List.takeWhile_append_dropWhile _ (fun c : Char => decide (c ≠ '/')) text.reverse
  have kept : '/' ∉ text.reverse.takeWhile (fun c => decide (c ≠ '/')) := by
    intro mem
    have other := List.mem_takeWhile_imp mem
    exact absurd rfl (of_decide_eq_true other)
  have stopped := List.head?_dropWhile_not (fun c : Char => decide (c ≠ '/')) text.reverse
  generalize text.reverse.takeWhile (fun c => decide (c ≠ '/')) = digits at whole kept
  cases rest : text.reverse.dropWhile (fun c => decide (c ≠ '/')) with
  | nil =>
      rw [rest, List.append_nil] at whole
      exact absurd (whole ▸ List.mem_reverse.mpr slash) kept
  | cons c more =>
      rw [rest] at whole stopped
      have first : c = '/' := by simpa using stopped
      subst first
      refine ⟨more.reverse, digits.reverse, ?_, fun mem => kept (List.mem_reverse.mp mem)⟩
      rw [← List.reverse_reverse text, ← whole, List.reverse_append, List.reverse_cons,
        List.append_assoc]
      rfl

theorem RuleParts.unique {rule text text' : String} {mask mask' : Option Nat}
    (h : RuleParts rule text mask) (h' : RuleParts rule text' mask') :
    text = text' ∧ mask = mask' := by
  cases h with
  | bare whole =>
      cases h' with
      | bare _ => exact ⟨rfl, rfl⟩
      | masked whole' _ _ _ =>
          exact absurd (whole' ▸ List.mem_append_right _ List.mem_cons_self) whole
  | @masked base digits whole _ _ are =>
      cases h' with
      | bare whole' => exact absurd (whole ▸ List.mem_append_right _ List.mem_cons_self) whole'
      | @masked base' digits' whole' _ _ are' =>
          obtain ⟨suffix, front⟩ := @cut_at_slash base digits (slash_not_mem are)
          obtain ⟨suffix', front'⟩ := @cut_at_slash base' digits' (slash_not_mem are')
          rw [← whole] at suffix front
          rw [← whole'] at suffix' front'
          rw [← front, ← front', ← suffix, ← suffix']
          exact ⟨rfl, rfl⟩

theorem parseCidr_bare {rule : String} (whole : '/' ∉ (jsTrim rule).toList) :
    parseCidr rule = (ipToBytes (jsTrim rule)).map fun bytes => ⟨bytes, bytes.length * 8⟩ := by
  rw [parseCidr, if_pos whole, String.ofList_toList]

/-- A rule with a slash, whatever follows it. -/
theorem parseCidr_slash {rule : String} {base digits : List Char}
    (whole : (jsTrim rule).toList = base ++ '/' :: digits) (absent : '/' ∉ digits) :
    parseCidr rule =
      match ipToBytes (String.ofList base) with
      | none => none
      | some bytes =>
          if digits = [] ∨ 3 < digits.length then none
          else if digits.all Char.isDigit = false then none
          else if bytes.length * 8 < decimalValue digits then none
          else some ⟨bytes, decimalValue digits⟩ := by
  obtain ⟨suffix, front⟩ := cut_at_slash absent
  have slash : '/' ∈ base ++ '/' :: digits := List.mem_append_right _ List.mem_cons_self
  rw [parseCidr]
  dsimp only
  rewrite [whole, if_neg (not_not.mpr slash), suffix, front]
  cases ipToBytes (String.ofList base) <;> rfl

theorem parseCidr_masked_iff {rule : String} {base digits : List Char}
    (whole : (jsTrim rule).toList = base ++ '/' :: digits) (absent : '/' ∉ digits)
    (bytes : List Nat) (bits : Nat) :
    parseCidr rule = some ⟨bytes, bits⟩ ↔
      ipToBytes (String.ofList base) = some bytes ∧ digits ≠ [] ∧ digits.length ≤ 3 ∧
        (∀ c ∈ digits, c.isDigit = true) ∧ bits = decimalValue digits ∧
        bits ≤ 8 * bytes.length := by
  rw [parseCidr_slash whole absent]
  cases address : ipToBytes (String.ofList base) with
  | none => simp
  | some read =>
      have all : digits.all Char.isDigit = false ↔ ¬ ∀ c ∈ digits, c.isDigit = true := by
        rw [← Bool.not_eq_true, List.all_eq_true]
      dsimp only
      generalize decimalValue digits = n
      split
      · next improper =>
          constructor
          · intro parsed
            cases parsed
          · rintro ⟨-, nonempty, short, -⟩
            exact (improper.elim nonempty (not_lt.mpr short)).elim
      · next proper =>
          rw [not_or, not_lt] at proper
          split
          · next other =>
              constructor
              · intro parsed
                cases parsed
              · rintro ⟨-, -, -, are, -⟩
                exact absurd are (all.mp other)
          · next digit =>
              rw [all, not_not] at digit
              split
              · next large =>
                  constructor
                  · intro parsed
                    cases parsed
                  · rintro ⟨same, -, -, -, rfl, fits⟩
                    obtain rfl := Option.some.inj same
                    omega
              · next fits =>
                  constructor
                  · intro parsed
                    injection parsed with parsed
                    injection parsed with same mask
                    subst same mask
                    exact ⟨rfl, proper.1, proper.2, digit, rfl, by omega⟩
                  · rintro ⟨same, -, -, -, rfl, -⟩
                    obtain rfl := Option.some.inj same
                    rfl

/-- A rule is read by its parts. -/
theorem parseCidr_iff (rule : String) (bytes : List Nat) (bits : Nat) :
    parseCidr rule = some ⟨bytes, bits⟩ ↔
      ∃ text mask, RuleParts rule text mask ∧ ipToBytes text = some bytes ∧
        bits = mask.getD (8 * bytes.length) ∧ bits ≤ 8 * bytes.length := by
  constructor
  · intro parsed
    by_cases bare : '/' ∉ (jsTrim rule).toList
    · rw [parseCidr_bare bare] at parsed
      obtain ⟨read, address, same⟩ := Option.map_eq_some_iff.mp parsed
      injection same with same length
      subst same
      exact ⟨_, none, .bare bare, address, by rw [← length, Nat.mul_comm]; rfl, by omega⟩
    · obtain ⟨base, digits, whole, absent⟩ := last_slash (not_not.mp bare)
      obtain ⟨address, nonempty, short, are, mask, fits⟩ :=
        (parseCidr_masked_iff whole absent bytes bits).mp parsed
      exact ⟨_, _, .masked whole nonempty short are, address, mask, fits⟩
  · rintro ⟨text, mask, parts, address, size, fits⟩
    cases parts with
    | bare whole =>
        rw [parseCidr_bare whole, address, size, Option.map_some, Nat.mul_comm]
        rfl
    | masked whole nonempty short are =>
        exact (parseCidr_masked_iff whole (slash_not_mem are) bytes bits).mpr
          ⟨address, nonempty, short, are, size, fits⟩

/-- The comparison of the bytes is one of the bits of the prefix. -/
theorem cidrContains_iff (rule ip : String) :
    cidrContains rule ip = true ↔
      ∃ bytes bits target, parseCidr rule = some ⟨bytes, bits⟩ ∧ ipToBytes ip = some target ∧
        SharesBits bytes target bits := by
  cases parsed : parseCidr rule with
  | none =>
      rw [cidrContains, parsed]
      constructor
      · intro holds
        cases holds
      · rintro ⟨_, _, _, other, -⟩
        cases other
  | some cidr =>
      obtain ⟨bytes, bits⟩ := cidr
      obtain ⟨text, mask, -, address, -, fits⟩ := (parseCidr_iff rule bytes bits).mp parsed
      cases read : ipToBytes ip with
      | none =>
          rw [cidrContains, parsed, read]
          constructor
          · intro holds
            cases holds
          · rintro ⟨_, _, _, -, other, -⟩
            cases other
      | some target =>
          have compared : cidrContains rule ip =
              if target.length ≠ bytes.length then false else samePrefix target bytes bits := by
            rw [cidrContains, parsed, read]
            rfl
          have bytesAre := (ipToBytes_isAddress address).are
          have targetAre := (ipToBytes_isAddress read).are
          rw [compared]
          by_cases length : target.length = bytes.length
          · rw [if_neg (not_not.mpr length), samePrefix_iff targetAre bytesAre length fits]
            constructor
            · exact fun same => ⟨bytes, bits, target, rfl, rfl, length, same⟩
            · rintro ⟨_, _, _, rule_is, ip_is, -, same⟩
              cases rule_is
              cases ip_is
              exact same
          · rw [if_pos length]
            constructor
            · intro holds
              cases holds
            · rintro ⟨_, _, _, rule_is, ip_is, same, -⟩
              cases rule_is
              cases ip_is
              exact absurd same length

end Parsing

section Texts

theorem written_iff (s : String) (bytes : List Nat) :
    Written s bytes ↔ jsLength (jsTrim s) ≤ 64 ∧
      (QuadText (jsTrim s).toList bytes ∨ Ipv6Text false (bareText (jsTrim s).toList) bytes) := by
  refine and_congr_right fun _ => or_congr_right ⟨?_, ?_⟩
  · rintro ⟨core, decorated, grammar⟩
    rwa [bareText_of_decorated decorated grammar.chars (List.ne_nil_of_mem grammar.colon_mem)]
  · exact fun grammar => ⟨_, decorated_bareText _, grammar⟩

/-- What is written as an address is parsed as it. -/
theorem ipToBytes_of_written {s : String} {bytes : List Nat} (h : Written s bytes) :
    ipToBytes s = some (reduced bytes) := by
  obtain ⟨short, text⟩ := (written_iff s bytes).mp h
  refine (ipToBytes_iff short _).mpr ?_
  rcases text with plain | grammar
  · rw [reduced_of_length plain.1]
    exact .inl plain
  · exact .inr ⟨bytes, grammar.mono, grammar.length_le, rfl⟩

theorem written_of_ipToBytes {s : String} {bytes : List Nat} (parsed : ipToBytes s = some bytes)
    (placed : ¬ MisplacedQuad s) : ∃ written, Written s written ∧ bytes = reduced written := by
  have short := ipToBytes_short parsed
  rcases (ipToBytes_iff short bytes).mp parsed with plain | ⟨v6, grammar, length, rfl⟩
  · exact ⟨bytes, (written_iff s bytes).mpr ⟨short, .inl plain⟩, (reduced_of_length plain.1).symm⟩
  · rcases grammar.misplaced length with strict | misplaced
    · exact ⟨v6, (written_iff s v6).mpr ⟨short, .inr strict⟩, rfl⟩
    · exact absurd misplaced placed

theorem MisplacedQuad.colon_mem {s : String} (h : MisplacedQuad s) : ':' ∈ (jsTrim s).toList := by
  obtain ⟨before, -, after, -, -, -, -, -, text, -⟩ := h
  exact bareText_subset _ (text ▸ List.mem_append_right _ List.mem_cons_self)

/-- What the grammar does not read is not written as an address. -/
theorem Written.not_misplaced {s : String} {bytes : List Nat} (h : Written s bytes) :
    ¬ MisplacedQuad s := by
  intro misplaced
  obtain ⟨-, plain | grammar⟩ := (written_iff s bytes).mp h
  · exact absurd (plain.chars ':' misplaced.colon_mem) (by decide)
  · exact not_ipv6Text_of_misplaced misplaced bytes grammar

theorem Written.denotes {s : String} {bytes : List Nat} (h : Written s bytes) :
    Denotes s (reduced bytes) := by
  obtain ⟨-, plain | ⟨core, decorated, grammar⟩⟩ := h
  · rw [reduced_of_length plain.1]
    exact .ipv4 plain
  · exact .ipv6 decorated grammar

/-- A text that the grammar does not have denotes nothing. -/
theorem MisplacedQuad.not_denotes {s : String} (h : MisplacedQuad s) (bytes : List Nat) :
    ¬ Denotes s bytes := by
  intro denotes
  rcases (denotes_iff s bytes).mp denotes with plain | ⟨v6, grammar, -⟩
  · exact absurd (plain.chars ':' h.colon_mem) (by decide)
  · exact not_ipv6Text_of_misplaced h v6 grammar

/-- A text is written as one address. -/
theorem Written.unique {s : String} {bytes bytes' : List Nat} (h : Written s bytes)
    (h' : Written s bytes') : bytes = bytes' := by
  have colon {v6 : List Nat} (grammar : Ipv6Text false (bareText (jsTrim s).toList) v6) :
      ':' ∈ (jsTrim s).toList := bareText_subset _ grammar.colon_mem
  obtain ⟨-, plain | grammar⟩ := (written_iff s bytes).mp h
  · obtain ⟨-, plain' | grammar'⟩ := (written_iff s bytes').mp h'
    · have same := (parseIpv4_iff _ bytes).mpr plain
      rw [(parseIpv4_iff _ bytes').mpr plain'] at same
      exact (Option.some.inj same).symm
    · exact absurd (plain.chars ':' (colon grammar')) (by decide)
  · obtain ⟨-, plain' | grammar'⟩ := (written_iff s bytes').mp h'
    · exact absurd (plain'.chars ':' (colon grammar)) (by decide)
    · have same := (parseIpv6_iff _ bytes).mpr ⟨grammar.mono, grammar.length_le⟩
      rw [(parseIpv6_iff _ bytes').mpr ⟨grammar'.mono, grammar'.length_le⟩] at same
      exact (Option.some.inj same).symm

theorem Written.areBytes {s : String} {bytes : List Nat} (h : Written s bytes) :
    AreBytes bytes ∧ (bytes.length = 4 ∨ bytes.length = 16) := by
  obtain ⟨-, plain | grammar⟩ := (written_iff s bytes).mp h
  · exact ⟨plain.areBytes, .inl plain.1⟩
  · exact ⟨grammar.areBytes.1, .inr grammar.areBytes.2⟩

theorem written_spellAddress {bytes : List Nat} (h : IsAddress bytes) :
    Written (spellAddress bytes) bytes :=
  (written_iff _ _).mpr ⟨jsLength_spellAddress h, spellAddress_reads h⟩

theorem not_misread_spellAddress {bytes : List Nat} (h : IsAddress bytes) :
    ¬ MisreadAddress (spellAddress bytes) := fun misread => not_misplaced_spellAddress h misread.2

theorem ruleParts_spellAddress {bytes : List Nat} (h : IsAddress bytes) :
    RuleParts (spellAddress bytes) (spellAddress bytes) none := by
  have trimmed := jsTrim_spellAddress h
  have parts := @RuleParts.bare (spellAddress bytes) (by
    rw [trimmed]
    exact fun slash => (spellAddress_chars h '/' slash).solid.2 rfl)
  rwa [trimmed] at parts

end Texts

section Mapped

theorem IsMapped.length {bytes : List Nat} (mapped : IsMapped bytes)
    (family : bytes.length = 4 ∨ bytes.length = 16) : bytes.length = 16 := by
  rcases family with four | sixteen
  · have short := congrArg List.length mapped
    rw [List.length_take, four] at short
    exact absurd short (by decide)
  · exact sixteen

theorem IsMapped.reduced_eq {bytes : List Nat} (mapped : IsMapped bytes) :
    reduced bytes = bytes.drop 12 := if_pos mapped

theorem reduced_eq_self {bytes : List Nat} (other : ¬ IsMapped bytes) : reduced bytes = bytes :=
  if_neg other

theorem Written.isAddress {s : String} {bytes : List Nat} (h : Written s bytes) :
    IsAddress (reduced bytes) := ipToBytes_isAddress (ipToBytes_of_written h)

theorem SharesBits.self (bytes : List Nat) (n : Nat) : SharesBits bytes bytes n := ⟨rfl, rfl⟩

end Mapped

section Containment

/-- A rule that is read as it is written, and whose mask counts the bits that are kept. -/
theorem contains_of_well_read {rule ip : String} (read : ¬ MisreadRule rule)
    (unmapped : ¬ MappedBase rule) (address : ¬ MisreadAddress ip) :
    cidrContains rule ip = true ↔ LiesWithin rule ip := by
  rw [cidrContains_iff]
  constructor
  · rintro ⟨bytes, bits, target, parsed, target_read, shares⟩
    obtain ⟨text, mask, parts, base_read, size, fits⟩ := (parseCidr_iff _ _ _).mp parsed
    obtain ⟨base, base_written, rfl⟩ := written_of_ipToBytes base_read fun misplaced =>
      read ⟨by rw [parsed]; rfl, text, mask, parts, misplaced⟩
    obtain ⟨written, ip_written, rfl⟩ := written_of_ipToBytes target_read fun misplaced =>
      address ⟨by rw [target_read]; rfl, misplaced⟩
    by_cases mapped : IsMapped base
    · have length := mapped.length base_written.areBytes.2
      have kept : (reduced base).length = 4 := by
        rw [mapped.reduced_eq, List.length_drop, length]
      cases mask with
      | some n =>
          rw [Option.getD_some] at size
          exact absurd ⟨text, n, base, parts, base_written, mapped, by omega⟩ unmapped
      | none =>
          rw [Option.getD_none, kept] at size
          refine ⟨base, 128, written, ⟨text, none, parts, base_written, ?_, ?_⟩, ip_written, ?_⟩
          · rw [Option.getD_none, length]
          · rw [length]
          · rw [InRange, if_pos ⟨mapped, by decide⟩, ← mapped.reduced_eq]
            rw [size] at shares
            exact shares
    · rw [reduced_eq_self mapped] at shares size fits
      refine ⟨base, bits, written, ⟨text, mask, parts, base_written, size, fits⟩, ip_written, ?_⟩
      rw [InRange, if_neg fun both => mapped both.1]
      exact shares
  · rintro ⟨base, n, written, ⟨text, mask, parts, base_written, size, fits⟩, ip_written, range⟩
    have base_read := ipToBytes_of_written base_written
    have target_read := ipToBytes_of_written ip_written
    by_cases mapped : IsMapped base
    · have length := mapped.length base_written.areBytes.2
      have kept : (reduced base).length = 4 := by
        rw [mapped.reduced_eq, List.length_drop, length]
      cases mask with
      | some m =>
          rw [Option.getD_some] at size
          exact absurd ⟨text, m, base, parts, base_written, mapped, by omega⟩ unmapped
      | none =>
          rw [Option.getD_none, length] at size
          subst size
          rw [InRange, if_pos ⟨mapped, by decide⟩, ← mapped.reduced_eq] at range
          have parsed := (parseCidr_iff rule (reduced base) 32).mpr
            ⟨text, none, parts, base_read, by rw [Option.getD_none, kept], by omega⟩
          exact ⟨_, _, _, parsed, target_read, range⟩
    · rw [reduced_eq_self mapped] at base_read
      rw [InRange, if_neg fun both => mapped both.1] at range
      have parsed := (parseCidr_iff rule base n).mpr ⟨text, mask, parts, base_read, size, fits⟩
      exact ⟨_, _, _, parsed, target_read, range⟩

/-- A rule that is misread contains an address, and denotes none. -/
theorem misread_rule_contains {rule : String} (misread : MisreadRule rule) :
    ∃ ip, ¬ MisreadAddress ip ∧ cidrContains rule ip = true ∧ ¬ LiesWithin rule ip := by
  obtain ⟨parses, text, mask, parts, misplaced⟩ := misread
  obtain ⟨⟨bytes, bits⟩, parsed⟩ := Option.isSome_iff_exists.mp parses
  obtain ⟨_, _, -, base_read, -, -⟩ := (parseCidr_iff _ _ _).mp parsed
  have isAddress := ipToBytes_isAddress base_read
  refine ⟨spellAddress bytes, not_misread_spellAddress isAddress, ?_, ?_⟩
  · exact (cidrContains_iff _ _).mpr
      ⟨bytes, bits, bytes, parsed, ipToBytes_spellAddress isAddress, .self bytes bits⟩
  · rintro ⟨_, _, _, ⟨text', _, parts', written, -, -⟩, -, -⟩
    obtain ⟨rfl, -⟩ := parts.unique parts'
    exact written.not_misplaced misplaced

/-- An address that is misread is contained in a rule, and denotes no address. -/
theorem misread_address_contained {ip : String} (misread : MisreadAddress ip) :
    ∃ rule, ¬ MisreadRule rule ∧ ¬ MappedBase rule ∧ cidrContains rule ip = true ∧
      ¬ LiesWithin rule ip := by
  obtain ⟨parses, misplaced⟩ := misread
  obtain ⟨bytes, read⟩ := Option.isSome_iff_exists.mp parses
  have isAddress := ipToBytes_isAddress read
  have parts := ruleParts_spellAddress isAddress
  refine ⟨spellAddress bytes, ?_, ?_, ?_, ?_⟩
  · rintro ⟨-, text, _, parts', there⟩
    obtain ⟨rfl, -⟩ := parts.unique parts'
    exact not_misplaced_spellAddress isAddress there
  · rintro ⟨_, _, _, parts', -⟩
    obtain ⟨-, masked⟩ := parts.unique parts'
    cases masked
  · have parsed := (parseCidr_iff (spellAddress bytes) bytes (8 * bytes.length)).mpr
      ⟨_, none, parts, ipToBytes_spellAddress isAddress, rfl, Nat.le_refl _⟩
    exact (cidrContains_iff _ _).mpr ⟨_, _, _, parsed, read, .self bytes _⟩
  · rintro ⟨_, _, _, -, written, -⟩
    exact written.not_misplaced misplaced

/-- An address with the first bits of those that are mapped, and not mapped itself. -/
def nearMapped : List Nat := List.replicate 10 0 ++ [255] ++ 254 :: List.replicate 4 0

theorem isAddress_nearMapped : IsAddress nearMapped := ⟨by decide +kernel, by decide +kernel⟩

theorem shares_nearMapped {base : List Nat} (mapped : IsMapped base) (length : base.length = 16)
    (are : AreBytes base) {n : Nat} (fits : n ≤ 95) : SharesBits base nearMapped n := by
  have whole : base = List.replicate 10 0 ++ [255] ++ 255 :: base.drop 12 := by
    conv_lhs => rw [← List.take_append_drop 12 base, mapped]
    rfl
  have here : AreBytes (List.replicate 10 0 ++ [255] ++ 255 :: base.drop 12) := whole ▸ are
  have known := (high_within_iff isAddress_nearMapped.are here rfl (by decide : 7 ≤ 8)).mpr
    ⟨rfl, by decide⟩
  rw [← whole] at known
  have last : high nearMapped 95 = high base 95 := known
  refine ⟨length.symm, ?_⟩
  rw [high_of_le fits (by decide), high_of_le fits (by omega), last]

/-- A range of which the base is mapped is not read as it is written. -/
theorem mapped_base_fails {rule : String} (mappedBase : MappedBase rule) :
    ∃ ip, ¬ MisreadAddress ip ∧ ¬ (cidrContains rule ip = true ↔ LiesWithin rule ip) := by
  obtain ⟨text, n, base, parts, written, mapped, fits⟩ := mappedBase
  have length := mapped.length written.areBytes.2
  have base_read := ipToBytes_of_written written
  have isAddress := ipToBytes_isAddress base_read
  have kept : (reduced base).length = 4 := by rw [mapped.reduced_eq, List.length_drop, length]
  have denotes : RuleDenotes rule base n := ⟨text, some n, parts, written, rfl, by omega⟩
  have refused (large : 32 < n) (ip : String) : ¬ cidrContains rule ip = true := by
    intro holds
    obtain ⟨_, _, _, parsed, -⟩ := (cidrContains_iff _ _).mp holds
    obtain ⟨text', mask, parts', read, size, small⟩ := (parseCidr_iff _ _ _).mp parsed
    obtain ⟨rfl, rfl⟩ := parts.unique parts'
    rw [base_read] at read
    obtain rfl := Option.some.inj read
    rw [Option.getD_some] at size
    omega
  rcases Nat.lt_or_ge n 96 with short | long
  · have range {address : List Nat} :
        InRange base n address ↔ SharesBits base address n := by
      rw [InRange, if_neg fun both => absurd both.2 (not_le.mpr short)]
    rcases Nat.lt_or_ge 32 n with large | small
    · refine ⟨spellAddress nearMapped, not_misread_spellAddress isAddress_nearMapped,
        fun same => ?_⟩
      refine refused large _ (same.mpr ⟨base, n, nearMapped, denotes, ?_, ?_⟩)
      · exact written_spellAddress isAddress_nearMapped
      · rw [isAddress_nearMapped.reduced_eq, range]
        exact shares_nearMapped mapped length written.areBytes.1 (by omega)
    · refine ⟨spellAddress (reduced base), not_misread_spellAddress isAddress, fun same => ?_⟩
      have parsed := (parseCidr_iff rule (reduced base) n).mpr
        ⟨text, some n, parts, base_read, rfl, by omega⟩
      have holds := (cidrContains_iff _ _).mpr
        ⟨_, _, _, parsed, ipToBytes_spellAddress isAddress, .self _ n⟩
      obtain ⟨base', n', address, ⟨text', _, parts', written', size, -⟩, there, inside⟩ :=
        same.mp holds
      obtain ⟨rfl, rfl⟩ := parts.unique parts'
      obtain rfl := written.unique written'
      obtain rfl := (written_spellAddress isAddress).unique there
      obtain rfl : n' = n := size
      have lengths := (range.mp inside).1
      rw [isAddress.reduced_eq, kept, length] at lengths
      exact absurd lengths (by decide)
  · refine ⟨spellAddress (reduced base), not_misread_spellAddress isAddress, fun same => ?_⟩
    refine refused (by omega) _ (same.mpr ⟨base, n, reduced base, denotes, ?_, ?_⟩)
    · exact written_spellAddress isAddress
    · rw [InRange, if_pos ⟨mapped, long⟩, isAddress.reduced_eq, mapped.reduced_eq]
      exact .self _ _

theorem containment_is_of_prefixes_iff (rule ip : String) :
    ((∀ ip', ¬ MisreadAddress ip' → (cidrContains rule ip' = true ↔ LiesWithin rule ip')) ↔
      ¬ MisreadRule rule ∧ ¬ MappedBase rule) ∧
    ((∀ rule', ¬ MisreadRule rule' → ¬ MappedBase rule' →
        (cidrContains rule' ip = true ↔ LiesWithin rule' ip)) ↔ ¬ MisreadAddress ip) := by
  refine ⟨⟨fun exactly => ⟨fun misread => ?_, fun mapped => ?_⟩, ?_⟩,
    ⟨fun exactly misread => ?_, ?_⟩⟩
  · obtain ⟨ip', read, holds, outside⟩ := misread_rule_contains misread
    exact outside ((exactly ip' read).mp holds)
  · obtain ⟨ip', read, fails⟩ := mapped_base_fails mapped
    exact fails (exactly ip' read)
  · exact fun ⟨read, unmapped⟩ ip' address => contains_of_well_read read unmapped address
  · obtain ⟨rule', read, unmapped, holds, outside⟩ := misread_address_contained misread
    exact outside ((exactly rule' read unmapped).mp holds)
  · exact fun address rule' read unmapped => contains_of_well_read read unmapped address

theorem mapped_range_refused :
    ¬ ∀ rule ip, cidrContains rule ip = true ↔ LiesWithin rule ip := by
  intro exactly
  have refused : cidrContains "::ffff:10.0.0.0/104" "10.1.2.3" = false := by decide +kernel
  have parts := @RuleParts.masked "::ffff:10.0.0.0/104" "::ffff:10.0.0.0".toList "104".toList
    (by decide +kernel) (by decide) (by decide) (List.all_eq_true.mp (by decide +kernel))
  have base : Written (String.ofList "::ffff:10.0.0.0".toList)
      (List.replicate 10 0 ++ [255, 255, 10, 0, 0, 0]) :=
    (written_iff _ _).mpr ⟨by decide +kernel, .inr
      (@Ipv6Text.compressed false [] ["ffff".toList, "10.0.0.0".toList] [] [255, 255, 10, 0, 0, 0]
        .nil (.cons (n := 65535) ⟨[15, 15, 15, 15], rfl, by decide, by decide, rfl⟩
          (.quad rfl ⟨rfl, by decide, by decide +kernel⟩)) (by decide))⟩
  have address : Written "10.1.2.3" [10, 1, 2, 3] :=
    (written_iff _ _).mpr ⟨by decide +kernel, .inl ⟨rfl, by decide, by decide +kernel⟩⟩
  have holds := (exactly "::ffff:10.0.0.0/104" "10.1.2.3").mpr ⟨_, 104, _,
    ⟨_, _, parts, base, rfl, by decide⟩, address, by decide +kernel⟩
  rw [refused] at holds
  cases holds

end Containment

end Gateway
