import Gateway.Auth.Containment
import Gateway.Upstream.Ssrf

/-!
Which addresses the guard lets a request go to.

The special ranges are the first bits of addresses. An address is routable when it
lies in none of them and, being an IPv6 address, is a global unicast one. The guard
refuses every text but the spellings of routable addresses, save where the parser
of addresses reads what is not one.
-/

namespace Gateway.Upstream

open BytePrefix

section Ranges

/-- The address is of the family of the range, and has its first bits. -/
def Within (range : ParsedCidr) (address : List Nat) : Prop :=
  SharesBits range.bytes address range.bits

instance (range : ParsedCidr) (address : List Nat) : Decidable (Within range address) :=
  inferInstanceAs (Decidable (SharesBits range.bytes address range.bits))

/-- The range of sixteen bytes that begins with the bytes. -/
def v6Range (bytes : List Nat) (bits : Nat) : ParsedCidr :=
  ⟨bytes ++ List.replicate (16 - bytes.length) 0, bits⟩

def specialV4 : List ParsedCidr :=
  [⟨[0, 0, 0, 0], 8⟩, ⟨[10, 0, 0, 0], 8⟩, ⟨[100, 64, 0, 0], 10⟩, ⟨[127, 0, 0, 0], 8⟩,
    ⟨[169, 254, 0, 0], 16⟩, ⟨[172, 16, 0, 0], 12⟩, ⟨[192, 0, 0, 0], 24⟩, ⟨[192, 0, 2, 0], 24⟩,
    ⟨[192, 88, 99, 0], 24⟩, ⟨[192, 168, 0, 0], 16⟩, ⟨[198, 18, 0, 0], 15⟩,
    ⟨[198, 51, 100, 0], 24⟩, ⟨[203, 0, 113, 0], 24⟩, ⟨[224, 0, 0, 0], 4⟩, ⟨[240, 0, 0, 0], 4⟩]

def globalUnicast : ParsedCidr := v6Range [0x20] 3

/-- The protocol assignments and the second documentation range. -/
def assignedV6 : List ParsedCidr := [v6Range [0x20, 0x01] 23, v6Range [0x3f, 0xff] 20]

def specialV6 : List ParsedCidr :=
  [v6Range [] 128, v6Range (List.replicate 15 0 ++ [1]) 128, v6Range [0, 0x64, 0xff, 0x9b] 96,
    v6Range [1, 0] 64, v6Range [0x20, 0x01, 0x0d, 0xb8] 32, v6Range [0x20, 0x02] 16,
    v6Range [0xfc, 0] 7, v6Range [0xfe, 0x80] 10, v6Range [0xff, 0] 8]

def Routable (address : List Nat) : Prop :=
  if address.length = 4 then ∀ range ∈ specialV4, ¬ Within range address
  else Within globalUnicast address ∧ ∀ range ∈ assignedV6 ++ specialV6, ¬ Within range address

instance (address : List Nat) : Decidable (Routable address) :=
  inferInstanceAs (Decidable (if address.length = 4 then ∀ range ∈ specialV4, ¬ Within range address
    else Within globalUnicast address ∧ ∀ range ∈ assignedV6 ++ specialV6, ¬ Within range address))

/-- The rules of a list are parsed as the ranges. -/
def ParsedAs (cidrs : List String) (ranges : List ParsedCidr) : Prop :=
  cidrs.map parseCidr = ranges.map some

instance (cidrs : List String) (ranges : List ParsedCidr) : Decidable (ParsedAs cidrs ranges) :=
  inferInstanceAs (Decidable (cidrs.map parseCidr = ranges.map some))

theorem parsed_blockedV4 : ParsedAs blockedV4Cidrs specialV4 := by decide +kernel

theorem parsed_blockedV6 : ParsedAs blockedV6Cidrs specialV6 := by decide +kernel

theorem parsed_globalUnicast : ParsedAs ["2000::/3"] [globalUnicast] := by decide +kernel

theorem parsed_assignedV6 : ParsedAs ["2001::/23", "3fff::/20"] assignedV6 := by decide +kernel

theorem cidrContains_eq_within {rule ip : String} {range : ParsedCidr} {target : List Nat}
    (parsed : parseCidr rule = some range) (read : ipToBytes ip = some target) :
    cidrContains rule ip = true ↔ Within range target := by
  rw [cidrContains_iff]
  constructor
  · rintro ⟨_, _, _, rule_is, ip_is, shares⟩
    obtain rfl := Option.some.inj (parsed.symm.trans rule_is)
    obtain rfl := Option.some.inj (read.symm.trans ip_is)
    exact shares
  · exact fun within => ⟨range.bytes, range.bits, target, parsed, read, within⟩

theorem matchesAnyCidr_iff {cidrs : List String} {ranges : List ParsedCidr} {ip : String}
    {target : List Nat} (parsed : ParsedAs cidrs ranges) (read : ipToBytes ip = some target) :
    matchesAnyCidr cidrs ip = true ↔ ∃ range ∈ ranges, Within range target := by
  induction cidrs generalizing ranges with
  | nil =>
      obtain rfl := List.map_eq_nil_iff.mp parsed.symm
      simp [matchesAnyCidr]
  | cons cidr cidrs ih =>
      obtain ⟨range, rest, rfl, first, later⟩ := List.map_eq_cons_iff.mp parsed.symm
      rw [List.exists_mem_cons_iff, ← cidrContains_eq_within first.symm read, ← ih later.symm,
        matchesAnyCidr, matchesAnyCidr, List.any_cons, Bool.or_eq_true]

theorem matchesAnyCidr_eq_false {cidrs : List String} {ranges : List ParsedCidr} {ip : String}
    {target : List Nat} (parsed : ParsedAs cidrs ranges) (read : ipToBytes ip = some target) :
    matchesAnyCidr cidrs ip = false ↔ ∀ range ∈ ranges, ¬ Within range target := by
  rw [← Bool.not_eq_true, matchesAnyCidr_iff parsed read]
  simp only [not_exists, not_and]

/-- The guard lets through what is parsed as a routable address. -/
theorem isBlockedAddress_iff (ip : String) :
    isBlockedAddress ip = false ↔ ∃ bytes, ipToBytes ip = some bytes ∧ Routable bytes := by
  cases read : ipToBytes ip with
  | none =>
      rw [isBlockedAddress, read]
      constructor
      · intro passed
        cases passed
      · rintro ⟨_, parsed, -⟩
        cases parsed
  | some bytes =>
      have verdict : isBlockedAddress ip = false ↔ Routable bytes := by
        rw [isBlockedAddress, read, Routable]
        dsimp only
        rcases (ipToBytes_isAddress read).family with four | ⟨sixteen, -⟩
        · rw [if_neg (by omega), if_neg (by omega), if_pos four, if_pos four]
          exact matchesAnyCidr_eq_false parsed_blockedV4 read
        · have other : bytes.length ≠ 4 := by omega
          rw [if_neg other, if_neg other]
          simp only [sixteen, true_and, List.forall_mem_append]
          rw [← matchesAnyCidr_eq_false parsed_blockedV6 read,
            ← matchesAnyCidr_eq_false parsed_assignedV6 read]
          have unicast := matchesAnyCidr_iff parsed_globalUnicast read
          simp only [List.mem_singleton, exists_eq_left] at unicast
          rw [← unicast]
          cases matchesAnyCidr ["2000::/3"] ip <;>
            cases matchesAnyCidr ["2001::/23", "3fff::/20"] ip <;> simp
      rw [verdict]
      constructor
      · exact fun routable => ⟨bytes, rfl, routable⟩
      · rintro ⟨_, same, routable⟩
        obtain rfl := Option.some.inj same
        exact routable

end Ranges

section Spellings

/-- An IPv6 address that leads to an IPv4 one: mapped, behind NAT64 (of the prefix of all networks
or of one's own), over 6to4, or as the server or the client of Teredo. -/
inductive Embeds (written : List Nat) : List Nat → Prop
  | mapped (of : IsMapped written) : Embeds written (written.drop 12)
  | nat64 (of : written.take 12 = [0, 0x64, 0xff, 0x9b] ++ List.replicate 8 0) :
      Embeds written (written.drop 12)
  | localNat64 (of : written.take 6 = [0, 0x64, 0xff, 0x9b, 0, 1]) :
      Embeds written ((written.drop 6).take 2 ++ (written.drop 9).take 2)
  | sixToFour (of : written.take 2 = [0x20, 0x02]) : Embeds written ((written.drop 2).take 4)
  | teredoServer (of : written.take 4 = [0x20, 0x01, 0, 0]) :
      Embeds written ((written.drop 4).take 4)
  | teredoClient (of : written.take 4 = [0x20, 0x01, 0, 0]) :
      Embeds written ((written.drop 12).map (255 - ·))

/-- The verdict on a text is the one on the address that it denotes. -/
structure RightlyClassified (s : String) : Prop where
  routable : isBlockedAddress s = false → ∃ bytes, Denotes s bytes ∧ Routable bytes
  embedded : ∀ written v4, Written s written → written.length = 16 → Embeds written v4 →
    isBlockedAddress s = isBlockedAddress (spellAddress v4) ∨ isBlockedAddress s = true
  spellings : ∀ t written written', Written s written → Written t written' →
    reduced written = reduced written' → isBlockedAddress s = isBlockedAddress t

/-- The parser reads the bytes in a text that the grammar does not have. -/
def MisreadAs (s : String) (bytes : List Nat) : Prop :=
  jsLength (jsTrim s) ≤ 64 ∧ MisplacedQuad s ∧
    ∃ v6, Ipv6Text true (bareText (jsTrim s).toList) v6 ∧ bytes = reduced v6

theorem isBlockedAddress_congr {s t : String} (same : ipToBytes s = ipToBytes t) :
    isBlockedAddress s = isBlockedAddress t := by
  have verdict : isBlockedAddress s = false ↔ isBlockedAddress t = false := by
    rw [isBlockedAddress_iff, isBlockedAddress_iff, same]
  cases first : isBlockedAddress s with
  | false => exact (verdict.mp first).symm
  | true =>
      cases second : isBlockedAddress t with
      | false => exact absurd (first.symm.trans (verdict.mpr second)) Bool.noConfusion
      | true => rfl

theorem within_of_begins {start address : List Nat} {bits : Nat} (are : AreBytes address)
    (length : address.length = 16) (begins : address.take start.length = start)
    (fits : bits ≤ 8 * start.length) : Within (v6Range start bits) address := by
  have short : start.length ≤ 16 := by
    have lengths := congrArg List.length begins
    rw [List.length_take, length] at lengths
    omega
  have whole : address = start ++ address.drop start.length := by
    conv_lhs => rw [← List.take_append_drop start.length address, begins]
  have startAre : AreBytes start := fun b mem => are b (whole ▸ List.mem_append_left _ mem)
  have rangeAre : AreBytes (start ++ List.replicate (16 - start.length) 0) :=
    AreBytes.append_iff.mpr ⟨startAre, fun b mem => by
      rw [List.eq_of_mem_replicate mem]
      decide⟩
  have rangeLength : (start ++ List.replicate (16 - start.length) 0).length = 16 := by
    rw [List.length_append, List.length_replicate]
    omega
  have bytes : high address (8 * start.length) =
      high (start ++ List.replicate (16 - start.length) 0) (8 * start.length) := by
    conv_lhs => rw [whole]
    exact (high_whole_iff (whole ▸ are) rangeAre rfl).mpr rfl
  refine ⟨length.trans rangeLength.symm, ?_⟩
  show high address bits = high (start ++ List.replicate (16 - start.length) 0) bits
  rw [high_of_le fits (by omega), high_of_le fits (by omega), bytes]

/-- The first byte tells a global unicast address. -/
theorem not_unicast_of_zero {address : List Nat} (are : AreBytes address)
    (begins : address.take 1 = [0]) : ¬ Within globalUnicast address := by
  rintro ⟨-, same⟩
  have whole : address = [] ++ 0 :: address.drop 1 := by
    conv_lhs => rw [← List.take_append_drop 1 address, begins]
    rfl
  have rest : AreBytes (address.drop 1) := fun b mem => are b (List.mem_of_mem_drop mem)
  have first : high address (8 * ([] : List Nat).length + 3) = 0 := by
    conv_lhs => rw [whole]
    rw [high_within rest (by decide)]
    rfl
  have unicast : high globalUnicast.bytes globalUnicast.bits = 1 := by decide +kernel
  rw [unicast] at same
  exact absurd (first.symm.trans same) (by decide)

theorem not_routable_of_zero {address : List Nat} (are : AreBytes address)
    (length : address.length = 16) (begins : address.take 1 = [0]) : ¬ Routable address := by
  rw [Routable, if_neg (by omega)]
  exact fun routable => not_unicast_of_zero are begins routable.1

theorem not_routable_of_special {address : List Nat} {range : ParsedCidr}
    (length : address.length = 16) (listed : range ∈ assignedV6 ++ specialV6)
    (within : Within range address) : ¬ Routable address := by
  rw [Routable, if_neg (by omega)]
  exact fun routable => routable.2 range listed within

/-- What begins otherwise is no mapped address. -/
theorem not_mapped_of_begins {address start : List Nat} {n : Nat} (begins : address.take n = start)
    (fits : n ≤ 12) (other : (List.replicate 10 0 ++ [255, 255]).take n ≠ start) :
    ¬ IsMapped address := by
  intro mapped
  refine other ?_
  rw [← begins, ← mapped, List.take_take, Nat.min_eq_left fits]

theorem begins_of_begins {address start : List Nat} {n : Nat} (begins : address.take n = start)
    {m : Nat} (fits : m ≤ n) : address.take m = start.take m := by
  rw [← begins, List.take_take, Nat.min_eq_left fits]

theorem blocked_of_not_routable {s : String} {written : List Nat} (h : Written s written)
    (blocked : ¬ Routable (reduced written)) : isBlockedAddress s = true := by
  rw [← Bool.not_eq_false, isBlockedAddress_iff]
  rintro ⟨bytes, read, routable⟩
  obtain rfl := Option.some.inj ((ipToBytes_of_written h).symm.trans read)
  exact blocked routable

theorem not_routable_of_teredo {address : List Nat} (are : AreBytes address)
    (length : address.length = 16) (begins : address.take 4 = [0x20, 0x01, 0, 0]) :
    ¬ Routable address := by
  have first := @begins_of_begins address _ 4 begins 3 (by decide)
  have within := @within_of_begins [0x20, 0x01, 0] address 23 are length first (by decide)
  exact not_routable_of_special length (by decide) within

/-- An address that embeds another is judged as it when mapped, and is blocked otherwise. -/
theorem embedded_blocked {s : String} {written v4 : List Nat} (h : Written s written)
    (length : written.length = 16) (embeds : Embeds written v4) :
    isBlockedAddress s = isBlockedAddress (spellAddress v4) ∨ isBlockedAddress s = true := by
  have are := h.areBytes.1
  have blocked {n : Nat} {start : List Nat} (begins : written.take n = start) (fits : n ≤ 12)
      (other : (List.replicate 10 0 ++ [255, 255]).take n ≠ start)
      (special : ¬ Routable written) : isBlockedAddress s = true := by
    refine blocked_of_not_routable h ?_
    rwa [reduced_eq_self (not_mapped_of_begins begins fits other)]
  cases embeds with
  | mapped of =>
      have isAddress := h.isAddress
      have read := ipToBytes_of_written h
      have kept : reduced written = written.drop 12 := IsMapped.reduced_eq of
      rw [kept] at isAddress read
      exact .inl (isBlockedAddress_congr (read.trans (ipToBytes_spellAddress isAddress).symm))
  | nat64 of =>
      have zero := not_routable_of_zero are length (begins_of_begins of (by decide))
      exact .inr (blocked of (by decide) (by decide) zero)
  | localNat64 of =>
      have zero := not_routable_of_zero are length (begins_of_begins of (by decide))
      exact .inr (blocked of (by decide) (by decide) zero)
  | sixToFour of =>
      have within := @within_of_begins [0x20, 0x02] written 16 are length of (by decide)
      have special := not_routable_of_special length (by decide) within
      exact .inr (blocked of (by decide) (by decide) special)
  | teredoServer of =>
      exact .inr (blocked of (by decide) (by decide) (not_routable_of_teredo are length of))
  | teredoClient of =>
      exact .inr (blocked of (by decide) (by decide) (not_routable_of_teredo are length of))

theorem MisreadAs.read {s : String} {bytes : List Nat} (h : MisreadAs s bytes) :
    ipToBytes s = some bytes := by
  obtain ⟨short, ⟨_, _, _, _, _, _, _, _, _, length⟩, v6, grammar, rfl⟩ := h
  exact (ipToBytes_iff short _).mpr (.inr ⟨v6, grammar, length, rfl⟩)

theorem rightly_classified_iff (s : String) :
    RightlyClassified s ↔ ¬ ∃ bytes, MisreadAs s bytes ∧ Routable bytes := by
  constructor
  · rintro right ⟨bytes, misread, routable⟩
    have passed := (isBlockedAddress_iff s).mpr ⟨bytes, misread.read, routable⟩
    obtain ⟨_, denotes, -⟩ := right.routable passed
    exact misread.2.1.not_denotes _ denotes
  · intro placed
    refine ⟨fun passed => ?_,
      fun written v4 h length embeds => embedded_blocked h length embeds, ?_⟩
    · obtain ⟨bytes, read, routable⟩ := (isBlockedAddress_iff s).mp passed
      by_cases misplaced : MisplacedQuad s
      · have short := ipToBytes_short read
        rcases (ipToBytes_iff short bytes).mp read with plain | ⟨v6, grammar, -, same⟩
        · exact absurd (plain.chars ':' misplaced.colon_mem) (by decide)
        · exact absurd ⟨bytes, ⟨short, misplaced, v6, grammar, same⟩, routable⟩ placed
      · obtain ⟨written, h, rfl⟩ := written_of_ipToBytes read misplaced
        exact ⟨_, h.denotes, routable⟩
    · intro t written written' h h' same
      refine isBlockedAddress_congr ?_
      rw [ipToBytes_of_written h, ipToBytes_of_written h', same]

theorem misread_address_passed : ¬ RightlyClassified "38.6.40.0::1" := by
  intro right
  obtain ⟨bytes, denotes, -⟩ := right.routable (by decide +kernel)
  refine @MisplacedQuad.not_denotes "38.6.40.0::1" ?_ bytes denotes
  refine ⟨["38.6.40.0".toList], [38, 6, 40, 0], ["1".toList], [0, 1],
    .quad rfl ⟨rfl, by decide, by decide +kernel⟩, ⟨_, List.mem_singleton_self _, by decide⟩,
    .cons ⟨[1], rfl, by decide, by decide, rfl⟩ .nil, by decide, by decide +kernel,
    by decide +kernel⟩

end Spellings

end Gateway.Upstream
