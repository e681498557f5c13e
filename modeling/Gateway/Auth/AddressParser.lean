import Gateway.Auth.AddressText
import Mathlib.Algebra.Order.BigOperators.Group.List

/-!
What the parser of addresses accepts, against the grammar.

The parser cuts a text at its first double colon and fills a buffer from both
ends. It checks that an IPv4 address is in the last place of each part, so it also
takes one that stands before the zeros that a text leaves out.
-/

namespace Gateway

section DoubleColon

/-- A cut with more text before it. -/
def prepend (front : List Char) (cut : List Char × List Char) : List Char × List Char :=
  (front ++ cut.1, cut.2)

theorem splitDoubleColon_cons {c : Char} {rest : List Char}
    (single : ¬(c = ':' ∧ rest.head? = some ':')) :
    splitDoubleColon (c :: rest) = (splitDoubleColon rest).map (prepend [c]) := by
  have differs : ∀ after, c = ':' → rest = ':' :: after → False := by
    rintro after rfl rfl
    exact single ⟨rfl, rfl⟩
  rw [splitDoubleColon]
  · rfl
  · exact differs

theorem map_prepend_nil (cut : Option (List Char × List Char)) : cut.map (prepend []) = cut := by
  cases cut <;> rfl

theorem prepend_prepend (front more : List Char) (cut : Option (List Char × List Char)) :
    (cut.map (prepend more)).map (prepend front) = cut.map (prepend (front ++ more)) := by
  rw [Option.map_map]
  congr 1
  funext cut
  exact Prod.ext (List.append_assoc front more cut.1).symm rfl

theorem splitDoubleColon_append {group : List Char} (plain : ':' ∉ group) (rest : List Char) :
    splitDoubleColon (group ++ rest) = (splitDoubleColon rest).map (prepend group) := by
  induction group with
  | nil => exact (map_prepend_nil _).symm
  | cons c group ih =>
      rw [List.mem_cons, not_or] at plain
      rw [List.cons_append, splitDoubleColon_cons fun both => plain.1 both.1.symm, ih plain.2,
        prepend_prepend]
      rfl

theorem splitDoubleColon_spec {text before after : List Char}
    (cut : splitDoubleColon text = some (before, after)) :
    text = before ++ ':' :: ':' :: after := by
  induction text generalizing before with
  | nil => cases cut
  | cons c rest ih =>
      by_cases double : c = ':' ∧ rest.head? = some ':'
      · obtain ⟨rfl, second⟩ := double
        obtain ⟨later, rfl⟩ : ∃ later, rest = ':' :: later := by
          cases rest with
          | nil => cases second
          | cons d later =>
              obtain rfl := Option.some.inj second
              exact ⟨later, rfl⟩
        cases cut
        rfl
      · rw [splitDoubleColon_cons double] at cut
        obtain ⟨⟨front, back⟩, known, same⟩ := Option.map_eq_some_iff.mp cut
        cases same
        rw [ih known]
        rfl

/-- The groups of a text are neither empty nor do they hold a colon. -/
def Plain (groups : List (List Char)) : Prop := ∀ group ∈ groups, group ≠ [] ∧ ':' ∉ group

theorem GroupsText.plain {quad : Bool} {groups : List (List Char)} {bytes : List Nat}
    (h : GroupsText quad groups bytes) : Plain groups := by
  intro group mem
  obtain ⟨nonempty, chars⟩ := h.chars group mem
  refine ⟨nonempty, fun colon => ?_⟩
  exact absurd (chars ':' colon) (by decide)

theorem joined_cons (group : List Char) {groups : List (List Char)} (more : groups ≠ []) :
    joined (group :: groups) = group ++ ':' :: joined groups := by
  rw [joined, List.intercalate_cons_of_ne_nil more, List.append_assoc]
  rfl

theorem joined_ne_nil {groups : List (List Char)} (plain : Plain groups) (more : groups ≠ []) :
    joined groups ≠ [] := by
  cases groups with
  | nil => exact absurd rfl more
  | cons group rest =>
      obtain ⟨nonempty, -⟩ := plain group List.mem_cons_self
      by_cases last : rest = []
      · rw [last, joined, List.intercalate_singleton]
        exact nonempty
      · rw [joined_cons group last]
        exact List.append_ne_nil_of_left_ne_nil nonempty _

theorem head?_joined {groups : List (List Char)} (plain : Plain groups) :
    (joined groups).head? ≠ some ':' := by
  cases groups with
  | nil => exact fun colon => by cases colon
  | cons group groups =>
      obtain ⟨nonempty, absent⟩ := plain group List.mem_cons_self
      have head : (joined (group :: groups)).head? = group.head? := by
        by_cases last : groups = []
        · rw [last, joined, List.intercalate_singleton]
        · rw [joined_cons group last, List.head?_append_of_ne_nil _ nonempty]
      rw [head]
      exact fun colon => absent (List.mem_of_mem_head? colon)

theorem splitDoubleColon_joined {groups : List (List Char)} (plain : Plain groups)
    (tail : List Char) :
    splitDoubleColon (joined groups ++ tail) =
      (splitDoubleColon tail).map (prepend (joined groups)) := by
  induction groups with
  | nil => exact (map_prepend_nil _).symm
  | cons group groups ih =>
      obtain ⟨here, later⟩ := List.forall_mem_cons.mp plain
      by_cases last : groups = []
      · subst last
        rw [joined, List.intercalate_singleton]
        exact splitDoubleColon_append here.2 tail
      · have next : joined groups ≠ [] := joined_ne_nil later last
        have single : ¬(':' = ':' ∧ (joined groups ++ tail).head? = some ':') := by
          rw [List.head?_append_of_ne_nil _ next]
          exact fun both => head?_joined later both.2
        rw [joined_cons group last, List.append_assoc, splitDoubleColon_append here.2,
          List.cons_append, splitDoubleColon_cons single, ih later, prepend_prepend,
          prepend_prepend, List.append_assoc]
        rfl

theorem colonGroups_joined {groups : List (List Char)} (plain : Plain groups) :
    colonGroups (joined groups) = groups := by
  rw [colonGroups]
  by_cases none_there : groups = []
  · rw [none_there]
    rfl
  · rw [if_neg (joined_ne_nil plain none_there)]
    exact List.splitOn_intercalate ':' (fun group mem => (plain group mem).2) none_there

theorem joined_colonGroups (text : List Char) : joined (colonGroups text) = text := by
  rw [colonGroups]
  split
  · next empty =>
      rw [empty]
      rfl
  · exact List.intercalate_splitOn ':'

end DoubleColon

section Ipv6

theorem jsLength_of_small {text : List Char} (small : ∀ c ∈ text, c.val.toNat < 0x10000) :
    jsLength (String.ofList text) = text.length := by
  rw [jsLength, String.toList_ofList]
  induction text with
  | nil => rfl
  | cons c text ih =>
      obtain ⟨here, later⟩ := List.forall_mem_cons.mp small
      rw [List.map_cons, List.sum_cons, if_pos here, ih later, List.length_cons, Nat.add_comm]

theorem length_le_jsLength (text : List Char) : text.length ≤ jsLength (String.ofList text) := by
  rw [jsLength, String.toList_ofList]
  induction text with
  | nil => exact Nat.zero_le _
  | cons c text ih =>
      rw [List.map_cons, List.sum_cons, List.length_cons]
      split <;> omega

/-- What is left of a text without brackets around it and without a zone. -/
def bareText (value : List Char) : List Char :=
  (if value.head? = some '[' ∧ value.getLast? = some ']' then (value.drop 1).dropLast
    else value).takeWhile (· ≠ '%')

theorem GroupsText.length_bytes {quad : Bool} {groups : List (List Char)} {bytes : List Nat}
    (h : GroupsText quad groups bytes) : bytes.length ≤ 4 * groups.length := by
  induction h with
  | nil => exact Nat.zero_le _
  | quad _ last => rw [last.1, List.length_singleton]
  | cons _ _ ih =>
      simp only [List.length_cons]
      omega

theorem colon_mem_joined {groups : List (List Char)} (two : 2 ≤ groups.length) :
    ':' ∈ joined groups := by
  match groups with
  | group :: next :: rest =>
      rw [joined_cons group (List.cons_ne_nil next rest)]
      exact List.mem_append_right _ List.mem_cons_self

/-- The characters of an IPv6 text. -/
theorem mem_joined {groups : List (List Char)} {c : Char} (mem : c ∈ joined groups) :
    c = ':' ∨ ∃ group ∈ groups, c ∈ group := by
  induction groups with
  | nil => cases mem
  | cons group groups ih =>
      by_cases last : groups = []
      · rw [last, joined, List.intercalate_singleton] at mem
        exact .inr ⟨group, List.mem_cons_self, mem⟩
      · rw [joined_cons group last, List.mem_append, List.mem_cons] at mem
        rcases mem with here | colon | later
        · exact .inr ⟨group, List.mem_cons_self, here⟩
        · exact .inl colon
        · rcases ih later with colon | ⟨other, among, here⟩
          · exact .inl colon
          · exact .inr ⟨other, List.mem_cons_of_mem _ among, here⟩

def Ipv6Char (c : Char) : Prop := IsHex c ∨ c = '.' ∨ c = ':'

instance (c : Char) : Decidable (Ipv6Char c) :=
  inferInstanceAs (Decidable (IsHex c ∨ c = '.' ∨ c = ':'))

theorem Ipv6Char.small {c : Char} (h : Ipv6Char c) : c.val.toNat < 128 := by
  rcases h with hex | rfl | rfl
  · rw [IsHex, hexValue] at hex
    split at hex
    · next digit =>
        have range : 48 ≤ c.toNat ∧ c.toNat ≤ 57 := by
          simpa [Char.isDigit, UInt32.le_iff_toNat_le] using digit
        change c.toNat < 128
        omega
    · split at hex
      · next lower =>
          have last : c.toNat ≤ 102 := lower.2
          change c.toNat < 128
          omega
      · split at hex
        · next upper =>
            have last : c.toNat ≤ 70 := upper.2
            change c.toNat < 128
            omega
        · cases hex
  · decide
  · decide

theorem GroupsText.joined_chars {quad : Bool} {groups : List (List Char)} {bytes : List Nat}
    (h : GroupsText quad groups bytes) : ∀ c ∈ joined groups, Ipv6Char c := by
  intro c mem
  rcases mem_joined mem with colon | ⟨group, among, here⟩
  · exact .inr (.inr colon)
  · rcases (h.chars group among).2 c here with hex | point
    · exact .inl hex
    · exact .inr (.inl point)

theorem Ipv6Text.chars {quad : Bool} {core : List Char} {bytes : List Nat}
    (h : Ipv6Text quad core bytes) : ∀ c ∈ core, Ipv6Char c := by
  cases h with
  | full all _ => exact all.joined_chars
  | compressed first last _ =>
      intro c mem
      rw [List.mem_append, List.mem_cons, List.mem_cons] at mem
      rcases mem with before | colon | colon | after
      · exact first.joined_chars c before
      · exact .inr (.inr colon)
      · exact .inr (.inr colon)
      · exact last.joined_chars c after

theorem Ipv6Text.colon_mem {quad : Bool} {core : List Char} {bytes : List Nat}
    (h : Ipv6Text quad core bytes) : ':' ∈ core := by
  cases h with
  | full all length =>
      have many := all.length_bytes
      exact colon_mem_joined (by omega)
  | compressed _ _ _ => exact List.mem_append_right _ List.mem_cons_self

/-- `parseIpv6`, of a text without brackets and zone. -/
def parseBare (text : List Char) : Option (List Nat) :=
  if ':' ∉ text ∨ 45 < jsLength (String.ofList text) then none
  else
    match splitDoubleColon text with
    | none =>
        match emitGroups (text.splitOn ':') [] with
        | none => none
        | some bytes => if bytes.length = 16 then some bytes else none
    | some (before, after) =>
        if (splitDoubleColon (':' :: after)).isSome then none
        else
          match emitGroups (colonGroups before) [], emitGroups (colonGroups after) [] with
          | some head, some tail =>
              if 14 < head.length + tail.length then none
              else some (head ++ List.replicate (16 - head.length - tail.length) 0 ++ tail)
          | _, _ => none

theorem parseIpv6_eq (value : List Char) : parseIpv6 value = parseBare (bareText value) := rfl

/-- The parser takes what the grammar takes, and an IPv4 address before the zeros as well. -/
theorem parseIpv6_iff (value : List Char) (bytes : List Nat) :
    parseIpv6 value = some bytes ↔
      Ipv6Text true (bareText value) bytes ∧ (bareText value).length ≤ 45 := by
  rw [parseIpv6_eq]
  generalize bareText value = text
  rw [parseBare]
  have emitted (groups : List (List Char)) (bytes : List Nat) :
      emitGroups groups [] = some bytes ↔ GroupsText true groups bytes ∧ bytes.length ≤ 16 := by
    have nothing : ([] : List Nat).length ≤ 16 := Nat.zero_le 16
    rw [emitGroups_iff groups nothing bytes]
    constructor
    · rintro ⟨more, parsed, rfl, fits⟩
      exact ⟨parsed, fits⟩
    · rintro ⟨parsed, fits⟩
      exact ⟨bytes, parsed, rfl, fits⟩
  constructor
  · intro parsed
    split at parsed
    · cases parsed
    · next proper =>
        rw [not_or, not_not, not_lt] at proper
        refine ⟨?_, (length_le_jsLength text).trans proper.2⟩
        split at parsed
        · split at parsed
          · cases parsed
          · next all emits =>
              split at parsed
              · next length =>
                  obtain rfl := Option.some.inj parsed
                  obtain ⟨groups, -⟩ := (emitted _ _).mp emits
                  have whole := @Ipv6Text.full true _ _ groups length
                  rwa [joined, List.intercalate_splitOn] at whole
              · cases parsed
        · next before after cut =>
            split at parsed
            · cases parsed
            · split at parsed
              · next head tail front back =>
                  split at parsed
                  · cases parsed
                  · next fits =>
                      obtain rfl := Option.some.inj parsed
                      obtain ⟨first, -⟩ := (emitted _ _).mp front
                      obtain ⟨last, -⟩ := (emitted _ _).mp back
                      have whole := Ipv6Text.compressed first last (not_lt.mp fits)
                      rw [joined_colonGroups, joined_colonGroups] at whole
                      rw [splitDoubleColon_spec cut]
                      exact whole
              · cases parsed
  · rintro ⟨grammar, short⟩
    have proper : ¬(':' ∉ text ∨ 45 < jsLength (String.ofList text)) := by
      rw [jsLength_of_small fun c mem => (grammar.chars c mem).small.trans (by decide), not_or,
        not_not, not_lt]
      exact ⟨grammar.colon_mem, short⟩
    rw [if_neg proper]
    cases grammar with
    | @full groups _ all length =>
        have many := all.length_bytes
        have nonempty : groups ≠ [] := by
          rintro rfl
          rw [List.length_nil] at many
          omega
        have single : splitDoubleColon (joined groups) = none := by
          have cut := splitDoubleColon_joined all.plain []
          rwa [List.append_nil] at cut
        have split : (joined groups).splitOn ':' = groups :=
          List.splitOn_intercalate ':' (fun group mem => (all.plain group mem).2) nonempty
        simp only [single, split, (emitted _ _).mpr ⟨all, length.le⟩, if_pos length]
    | @compressed before after head tail first last fits =>
        have cut : splitDoubleColon (joined before ++ ':' :: ':' :: joined after) =
            some (joined before, joined after) := by
          rw [splitDoubleColon_joined first.plain]
          exact congrArg (fun front => some (front, joined after)) (List.append_nil _)
        have single : splitDoubleColon (':' :: joined after) = none := by
          have rest := splitDoubleColon_joined last.plain []
          rw [List.append_nil] at rest
          rw [splitDoubleColon_cons fun both => head?_joined last.plain both.2, rest]
          rfl
        have front := (emitted before head).mpr ⟨first, by omega⟩
        have back := (emitted after tail).mpr ⟨last, by omega⟩
        simp only [cut, single, Option.isSome_none, Bool.false_eq_true, if_false,
          colonGroups_joined first.plain, colonGroups_joined last.plain, front, back,
          if_neg (not_lt.mpr fits)]

theorem Ipv6Text.mono {core : List Char} {bytes : List Nat} (h : Ipv6Text false core bytes) :
    Ipv6Text true core bytes := by
  cases h with
  | full all length => exact .full all length
  | compressed first last short => exact .compressed first.mono last short

theorem length_joined_le (groups : List (List Char)) :
    (joined groups).length ≤ (groups.map fun group => group.length + 1).sum := by
  induction groups with
  | nil => exact Nat.zero_le _
  | cons group groups ih =>
      by_cases last : groups = []
      · rw [last, joined, List.intercalate_singleton, List.map_singleton, List.sum_singleton]
        exact Nat.le_succ _
      · rw [joined_cons group last, List.map_cons, List.sum_cons, List.length_append,
          List.length_cons]
        omega

/-- Between groups there is one colon less than there are groups. -/
theorem length_joined_lt {groups : List (List Char)} (more : groups ≠ []) :
    (joined groups).length < (groups.map fun group => group.length + 1).sum := by
  cases groups with
  | nil => exact absurd rfl more
  | cons group groups =>
      by_cases last : groups = []
      · rw [last, joined, List.intercalate_singleton, List.map_singleton, List.sum_singleton]
        exact Nat.lt_succ_self _
      · have rest := length_joined_lt last
        rw [joined_cons group last, List.map_cons, List.sum_cons, List.length_append,
          List.length_cons]
        omega

/-- The longest IPv6 text has six groups and an IPv4 address. -/
theorem Ipv6Text.length_le {core : List Char} {bytes : List Nat} (h : Ipv6Text false core bytes) :
    core.length ≤ 45 := by
  cases h with
  | @full groups _ all length =>
      have many := all.length_bytes
      have widths := all.length_le
      rw [if_pos rfl] at widths
      have nonempty : groups ≠ [] := by
        rintro rfl
        rw [List.length_nil] at many
        omega
      have joints := length_joined_lt nonempty
      omega
  | @compressed before after head tail first last short =>
      have front := first.length_le
      have back := last.length_le
      rw [if_pos rfl] at back
      rw [if_neg Bool.false_ne_true] at front
      have before_le := length_joined_le before
      have after_le := length_joined_le after
      simp only [List.length_append, List.length_cons]
      omega

end Ipv6

section Decoration

theorem bracketed {value : List Char} (first : value.head? = some '[')
    (last : value.getLast? = some ']') : value = '[' :: (value.drop 1).dropLast ++ [']'] := by
  cases value with
  | nil => cases first
  | cons c rest =>
      obtain rfl := Option.some.inj first
      cases rest with
      | nil => cases last
      | cons d rest =>
          rw [List.getLast?_cons_cons] at last
          rw [List.cons_append, List.drop_one, List.tail_cons,
            List.dropLast_append_getLast? _ last]

/-- What a text is without its zone, and the zone. -/
theorem zoned (inner : List Char) :
    ∃ zone, (zone = [] ∨ ∃ name, zone = '%' :: name) ∧
      inner = inner.takeWhile (· ≠ '%') ++ zone := by
  refine ⟨inner.dropWhile (· ≠ '%'), ?_, List.takeWhile_append_dropWhile.symm⟩
  cases rest : inner.dropWhile (· ≠ '%') with
  | nil => exact .inl rfl
  | cons c name =>
      have head := List.head?_dropWhile_not (fun c : Char => decide (c ≠ '%')) inner
      rw [rest] at head
      have percent : c = '%' := by simpa using head
      exact .inr ⟨name, by rw [percent]⟩

theorem decorated_bareText (value : List Char) : Decorated value (bareText value) := by
  rw [bareText]
  split
  · next brackets =>
      obtain ⟨zone, shape, whole⟩ := zoned (value.drop 1).dropLast
      refine ⟨zone, shape, .inr ?_⟩
      rw [← whole]
      exact bracketed brackets.1 brackets.2
  · obtain ⟨zone, shape, whole⟩ := zoned value
    exact ⟨zone, shape, .inl whole⟩

theorem takeWhile_zoned {core zone : List Char} (absent : '%' ∉ core)
    (shape : zone = [] ∨ ∃ name, zone = '%' :: name) :
    (core ++ zone).takeWhile (· ≠ '%') = core := by
  refine takeWhile_stops (fun c mem => decide_eq_true fun same => absent (same ▸ mem)) ?_
  rcases shape with rfl | ⟨name, rfl⟩
  · rfl
  · rfl

theorem bareText_of_decorated {value core : List Char} (decorated : Decorated value core)
    (chars : ∀ c ∈ core, Ipv6Char c) (nonempty : core ≠ []) : bareText value = core := by
  obtain ⟨zone, shape, place⟩ := decorated
  have absent : '%' ∉ core := fun mem => absurd (chars '%' mem) (by decide)
  rcases place with rfl | rfl
  · have first : ¬((core ++ zone).head? = some '[' ∧ (core ++ zone).getLast? = some ']') := by
      rw [List.head?_append_of_ne_nil _ nonempty]
      exact fun both => absurd (chars '[' (List.mem_of_mem_head? both.1)) (by decide)
    rw [bareText, if_neg first]
    exact takeWhile_zoned absent shape
  · have brackets : ('[' :: (core ++ zone) ++ [']']).head? = some '[' ∧
        ('[' :: (core ++ zone) ++ [']']).getLast? = some ']' := ⟨rfl, List.getLast?_concat⟩
    rw [bareText, if_pos brackets, List.cons_append, List.drop_one, List.tail_cons,
      List.dropLast_concat]
    exact takeWhile_zoned absent shape

theorem bareText_subset (value : List Char) : bareText value ⊆ value := by
  obtain ⟨zone, -, place⟩ := decorated_bareText value
  intro c mem
  rcases place with whole | whole
  · rw [whole]
    exact List.mem_append_left _ mem
  · rw [whole]
    exact List.mem_append_left _ (List.mem_cons_of_mem _ (List.mem_append_left _ mem))

end Decoration

section Addresses

/-- The text has an IPv4 address before the zeros that it leaves out. -/
def MisplacedQuad (s : String) : Prop :=
  ∃ before head after tail, GroupsText true before head ∧ (∃ group ∈ before, '.' ∈ group) ∧
    GroupsText true after tail ∧ head.length + tail.length ≤ 14 ∧
    bareText (jsTrim s).toList = joined before ++ ':' :: ':' :: joined after ∧
    (bareText (jsTrim s).toList).length ≤ 45

theorem ipToBytes_eq (s : String) :
    ipToBytes s =
      if jsTrim s = "" ∨ 64 < jsLength (jsTrim s) then none
      else (parseIpv4 (jsTrim s).toList).or ((parseIpv6 (jsTrim s).toList).map reduced) := by
  rw [ipToBytes]
  cases parseIpv4 (jsTrim s).toList with
  | some v4 => rfl
  | none =>
      cases parseIpv6 (jsTrim s).toList with
      | none => rfl
      | some v6 =>
          rw [Option.map_some, reduced, apply_ite some]
          rfl

theorem ipToBytes_iff {s : String} (short : jsLength (jsTrim s) ≤ 64) (bytes : List Nat) :
    ipToBytes s = some bytes ↔
      QuadText (jsTrim s).toList bytes ∨
        ∃ v6, Ipv6Text true (bareText (jsTrim s).toList) v6 ∧
          (bareText (jsTrim s).toList).length ≤ 45 ∧ bytes = reduced v6 := by
  rw [ipToBytes_eq]
  have proper {text : List Char} (inside : text ⊆ (jsTrim s).toList) (nonempty : text ≠ []) :
      ¬(jsTrim s = "" ∨ 64 < jsLength (jsTrim s)) := by
    rw [not_or, not_lt]
    refine ⟨fun empty => nonempty (List.eq_nil_of_subset_nil ?_), short⟩
    rwa [empty] at inside
  constructor
  · intro parsed
    split at parsed
    · cases parsed
    · rcases Option.or_eq_some_iff.mp parsed with plain | ⟨-, other⟩
      · exact .inl ((parseIpv4_iff _ _).mp plain)
      · obtain ⟨v6, plain, rfl⟩ := Option.map_eq_some_iff.mp other
        obtain ⟨grammar, length⟩ := (parseIpv6_iff _ _).mp plain
        exact .inr ⟨v6, grammar, length, rfl⟩
  · rintro (plain | ⟨v6, grammar, length, rfl⟩)
    · rw [if_neg (proper (List.Subset.refl _) plain.ne_nil), (parseIpv4_iff _ _).mpr plain]
      rfl
    · have colon := bareText_subset _ grammar.colon_mem
      have other : parseIpv4 (jsTrim s).toList = none := by
        cases plain : parseIpv4 (jsTrim s).toList with
        | none => rfl
        | some v4 =>
            exact absurd (((parseIpv4_iff _ _).mp plain).chars ':' colon) (by decide)
      rw [if_neg (proper (bareText_subset _) (List.ne_nil_of_mem grammar.colon_mem)), other,
        (parseIpv6_iff _ _).mpr ⟨grammar, length⟩]
      rfl

theorem denotes_iff (s : String) (bytes : List Nat) :
    Denotes s bytes ↔
      QuadText (jsTrim s).toList bytes ∨
        ∃ v6, Ipv6Text false (bareText (jsTrim s).toList) v6 ∧ bytes = reduced v6 := by
  constructor
  · intro denotes
    cases denotes with
    | ipv4 plain => exact .inl plain
    | @ipv6 core v6 decorated plain =>
        refine .inr ⟨v6, ?_, rfl⟩
        rwa [bareText_of_decorated decorated plain.chars (List.ne_nil_of_mem plain.colon_mem)]
  · rintro (plain | ⟨v6, plain, rfl⟩)
    · exact .ipv4 plain
    · exact .ipv6 (decorated_bareText _) plain

/-- What the parser takes beyond the grammar. -/
theorem Ipv6Text.misplaced {s : String} {v6 : List Nat}
    (h : Ipv6Text true (bareText (jsTrim s).toList) v6)
    (length : (bareText (jsTrim s).toList).length ≤ 45) :
    Ipv6Text false (bareText (jsTrim s).toList) v6 ∨ MisplacedQuad s := by
  generalize text : bareText (jsTrim s).toList = core at h length
  cases h with
  | full all bytes => exact .inl (.full all bytes)
  | @compressed before after head tail first last short =>
      by_cases point : ∃ group ∈ before, '.' ∈ group
      · exact .inr ⟨before, head, after, tail, first, point, last, short, text,
          by rw [text]; exact length⟩
      · refine .inl (.compressed (first.of_no_point fun group mem point' => ?_) last short)
        exact point ⟨group, mem, point'⟩

/-- A text is cut at one place only, so the grammar has no other reading of it. -/
theorem not_ipv6Text_of_misplaced {s : String} (misplaced : MisplacedQuad s) (v6 : List Nat) :
    ¬ Ipv6Text false (bareText (jsTrim s).toList) v6 := by
  obtain ⟨before, head, after, tail, first, ⟨group, mem, point⟩, last, short, text, -⟩ :=
    misplaced
  intro grammar
  have cut : splitDoubleColon (bareText (jsTrim s).toList) =
      some (joined before, joined after) := by
    rw [text, splitDoubleColon_joined first.plain]
    exact congrArg (fun front => some (front, joined after)) (List.append_nil _)
  generalize bareText (jsTrim s).toList = core at grammar cut
  cases grammar with
  | full all _ =>
      have single := splitDoubleColon_joined all.plain []
      rw [List.append_nil] at single
      rw [single] at cut
      cases cut
  | compressed first' last' _ =>
      rw [splitDoubleColon_joined first'.plain] at cut
      have same := congrArg Prod.fst (Option.some.inj cut)
      rw [prepend, List.append_nil] at same
      have groups := congrArg colonGroups same
      rw [colonGroups_joined first'.plain, colonGroups_joined first.plain] at groups
      exact first'.no_point group (groups ▸ mem) point

theorem jsLength_jsTrim_le (s : String) : jsLength (jsTrim s) ≤ jsLength s := by
  have inside : (jsTrim s).toList.Sublist s.toList := by
    rw [jsTrim, String.toList_ofList]
    have back := (List.dropWhile_sublist (p := isJsSpace)
      (l := (s.toList.dropWhile isJsSpace).reverse)).reverse
    rw [List.reverse_reverse] at back
    exact back.trans (List.dropWhile_sublist _)
  exact (inside.map _).sum_le_sum fun _ _ => Nat.zero_le _

end Addresses

/-- The parser follows the grammar of addresses but for texts that have an IPv4 address before the
zeros that they leave out. -/
theorem addresses_follow_grammar_iff {s : String} (short : jsLength s ≤ 64) :
    (∀ bytes, ipToBytes s = some bytes ↔ Denotes s bytes) ↔ ¬ MisplacedQuad s := by
  have trimmed := (jsLength_jsTrim_le s).trans short
  constructor
  · intro follows misplaced
    obtain ⟨before, head, after, tail, first, point, last, fits, text, length⟩ := id misplaced
    have grammar := Ipv6Text.compressed first last fits
    rw [← text] at grammar
    have denotes := (follows _).mp ((ipToBytes_iff trimmed _).mpr (.inr ⟨_, grammar, length, rfl⟩))
    rcases (denotes_iff s _).mp denotes with plain | ⟨v6, other, -⟩
    · have colon := bareText_subset _ grammar.colon_mem
      exact absurd (plain.chars ':' colon) (by decide)
    · exact not_ipv6Text_of_misplaced misplaced v6 other
  · intro well_placed bytes
    rw [ipToBytes_iff trimmed, denotes_iff]
    constructor
    · rintro (plain | ⟨v6, grammar, length, rfl⟩)
      · exact .inl plain
      · exact .inr ⟨v6, (grammar.misplaced length).resolve_right well_placed, rfl⟩
    · rintro (plain | ⟨v6, grammar, rfl⟩)
      · exact .inl plain
      · exact .inr ⟨v6, grammar.mono, grammar.length_le, rfl⟩

/-- A group is part of the text. -/
theorem subset_joined {group : List Char} {groups : List (List Char)} (mem : group ∈ groups) :
    group ⊆ joined groups := by
  induction groups with
  | nil => cases mem
  | cons first rest ih =>
      by_cases last : rest = []
      · subst last
        rw [List.mem_singleton.mp mem, joined, List.intercalate_singleton]
        exact List.Subset.refl first
      · rw [joined_cons first last]
        rcases List.mem_cons.mp mem with rfl | later
        · exact List.subset_append_left _ _
        · exact fun c here => List.mem_append_right _ (List.mem_cons_of_mem _ (ih later here))

theorem MisplacedQuad.point_mem {s : String} (h : MisplacedQuad s) :
    '.' ∈ bareText (jsTrim s).toList := by
  obtain ⟨before, -, after, -, -, ⟨group, mem, point⟩, -, -, text, -⟩ := h
  rw [text]
  exact List.mem_append_left _ (subset_joined mem point)

theorem addresses_follow_grammar_zoned :
    Denotes " [fe80::1%eth0]" (0xfe :: 0x80 :: List.replicate 13 0 ++ [1]) :=
  ((addresses_follow_grammar_iff (by decide +kernel)).mpr
    (fun misplaced => absurd misplaced.point_mem (by decide +kernel)) _).mp (by decide +kernel)

theorem quad_before_zeros_accepted :
    ¬ ∀ bytes, ipToBytes "1.2.3.4::" = some bytes ↔ Denotes "1.2.3.4::" bytes := by
  intro follows
  have parsed : ipToBytes "1.2.3.4::" = some ([1, 2, 3, 4] ++ List.replicate 12 0) := by
    decide +kernel
  have misplaced : MisplacedQuad "1.2.3.4::" :=
    ⟨["1.2.3.4".toList], [1, 2, 3, 4], [], [], .quad rfl ⟨rfl, by decide, by decide +kernel⟩,
      ⟨_, List.mem_singleton_self _, by decide⟩, .nil, by decide, by decide +kernel,
      by decide +kernel⟩
  rcases (denotes_iff _ _).mp ((follows _).mp parsed) with plain | ⟨v6, grammar, -⟩
  · exact absurd plain.1 (by decide)
  · exact not_ipv6Text_of_misplaced misplaced v6 grammar

end Gateway
