import Gateway.Auth.AddressSpelling
import Gateway.Http.Headers

/-!
The address of a client behind trusted proxies.

What a client puts in front of the entries of the proxies does not move the entry
that is counted from the right. None of the entries is dropped, for each of them is
still an address when it is normalised.
-/

namespace Gateway

section Entries

/-- The text of an IPv4 or an IPv6 address. -/
def PlainAddress (text : List Char) : Prop :=
  ∃ bytes, QuadText text bytes ∨ Ipv6Text false text bytes

/-- What a proxy appends: an address, in brackets or not, or an IPv4 address with a port. -/
inductive ProxyText : List Char → Prop
  | address {text : List Char} (plain : PlainAddress text) : ProxyText text
  | bracketed {text : List Char} (plain : PlainAddress text) : ProxyText ('[' :: text ++ [']'])
  | port {text digits : List Char} {bytes : List Nat} (quad : QuadText text bytes)
      (nonempty : digits ≠ []) (are : ∀ c ∈ digits, c.isDigit = true) :
      ProxyText (text ++ ':' :: digits)

/-- An entry of the header, with the blanks around it. -/
def ProxyEntry (entry : String) : Prop := ProxyText (jsTrim entry).toList

end Entries

section Characters

theorem Ipv6Char.lower {c : Char} (h : Ipv6Char c) :
    isAddressChar c.toLower = true ∧ (c.toLower = ':' ↔ c = ':') ∧ c ≠ '[' ∧ c ≠ ']' ∧ c ≠ ',' := by
  have all : ∀ n : Fin 128, Ipv6Char (Char.ofNat n) →
      isAddressChar (Char.ofNat n).toLower = true ∧
        ((Char.ofNat n).toLower = ':' ↔ Char.ofNat n = ':') ∧ Char.ofNat n ≠ '[' ∧
        Char.ofNat n ≠ ']' ∧ Char.ofNat n ≠ ',' := by decide +kernel
  have char : Char.ofNat c.toNat = c := Char.ofNat_toNat c
  have here := all ⟨c.toNat, h.small⟩
  dsimp only at here
  rw [char] at here
  exact here h

theorem PlainAddress.chars {text : List Char} (h : PlainAddress text) :
    ∀ c ∈ text, Ipv6Char c := by
  obtain ⟨bytes, quad | grammar⟩ := h
  · exact quad.ipv6Chars
  · exact grammar.chars

end Characters

section Colons

theorem getLast?_joined {groups : List (List Char)} (plain : Plain groups) :
    (joined groups).getLast? ≠ some ':' := by
  induction groups with
  | nil => exact fun colon => by cases colon
  | cons group groups ih =>
      obtain ⟨⟨nonempty, absent⟩, rest⟩ := List.forall_mem_cons.mp plain
      by_cases last : groups = []
      · rw [last, joined, List.intercalate_singleton]
        exact fun colon => absent (List.mem_of_getLast? colon)
      · have more : ':' :: joined groups ≠ [] := List.cons_ne_nil _ _
        rw [joined_cons group last, List.getLast?_append_of_ne_nil _ more,
          List.getLast?_cons_of_ne_nil (joined_ne_nil rest last)]
        exact ih rest

theorem length_le_count_joined (groups : List (List Char)) :
    groups.length ≤ (joined groups).count ':' + 1 := by
  induction groups with
  | nil => exact Nat.zero_le _
  | cons group groups ih =>
      by_cases last : groups = []
      · rw [last]
        exact Nat.le_add_left 1 _
      · rw [joined_cons group last, List.count_append, List.count_cons_self, List.length_cons]
        omega

/-- An IPv6 text has more colons than one before a port. -/
theorem Ipv6Text.two_colons {quad : Bool} {core : List Char} {bytes : List Nat}
    (h : Ipv6Text quad core bytes) : 2 ≤ core.count ':' := by
  cases h with
  | @full groups _ all length =>
      have many := all.length_bytes
      have colons := length_le_count_joined groups
      omega
  | compressed _ _ _ =>
      rw [List.count_append, List.count_cons_self, List.count_cons_self]
      omega

/-- Where an IPv6 text ends in a colon, zeros are left out at the end. -/
theorem Ipv6Text.ends {quad : Bool} {core : List Char} {bytes : List Nat}
    (h : Ipv6Text quad core bytes) (colon : core.getLast? = some ':') :
    ∃ front, core = front ++ [':', ':'] := by
  cases h with
  | full all length => exact absurd colon (getLast?_joined all.plain)
  | @compressed before after head tail first last short =>
      cases after with
      | nil => exact ⟨joined before, rfl⟩
      | cons group groups =>
          have nonempty := joined_ne_nil last.plain (List.cons_ne_nil group groups)
          rw [List.getLast?_append_of_ne_nil _ (List.cons_ne_nil _ _),
            List.getLast?_cons_of_ne_nil (List.cons_ne_nil _ _),
            List.getLast?_cons_of_ne_nil nonempty] at colon
          exact absurd colon (getLast?_joined last.plain)

theorem QuadText.no_colon {text : List Char} {bytes : List Nat} (h : QuadText text bytes) :
    ':' ∉ text := fun mem => absurd (h.chars ':' mem) (by decide)

end Colons

section Normalising

/-- The address without brackets or port. -/
def hostOf (ip : List Char) : List Char :=
  if ip.head? = some '[' then if ']' ∈ ip then ip.tail.takeWhile (· ≠ ']') else ip
  else if ip.count ':' = 1 then ip.takeWhile (· ≠ ':')
  else ip

def unmapped (ip : List Char) : List Char :=
  if "::ffff:".toList.isPrefixOf ip then ip.drop 7 else ip

theorem normalizeIp_eq (value : String) :
    normalizeIp value =
      if unmapped (hostOf ((jsTrim value).toList.flatMap lowerChar)) ≠ [] ∧
          (unmapped (hostOf ((jsTrim value).toList.flatMap lowerChar))).all isAddressChar = true
      then String.ofList (unmapped (hostOf ((jsTrim value).toList.flatMap lowerChar))) else "" := by
  simp only [normalizeIp, hostOf, unmapped, jsToLower, String.toList_ofList]
  rfl

theorem takeWhile_until {text rest : List Char} {stop : Char} (absent : stop ∉ text) :
    (text ++ stop :: rest).takeWhile (· ≠ stop) = text :=
  takeWhile_stops (fun c mem => decide_eq_true fun same => absent (same ▸ mem)) (by simp)

theorem PlainAddress.ne_nil {text : List Char} (h : PlainAddress text) : text ≠ [] := by
  obtain ⟨bytes, quad | grammar⟩ := h
  · exact quad.ne_nil
  · exact List.ne_nil_of_mem grammar.colon_mem

/-- A character that no address has is not in one in lower case. -/
theorem not_mem_lower {text : List Char} (h : PlainAddress text) {c : Char}
    (other : isAddressChar c = false) : c ∉ text.map Char.toLower := by
  intro mem
  obtain ⟨d, among, rfl⟩ := List.mem_map.mp mem
  rw [(h.chars d among).lower.1] at other
  cases other

theorem count_colon_lower {text : List Char} (chars : ∀ c ∈ text, Ipv6Char c) :
    (text.map Char.toLower).count ':' = text.count ':' := by
  induction text with
  | nil => rfl
  | cons c text ih =>
      obtain ⟨first, rest⟩ := List.forall_mem_cons.mp chars
      have same : (c.toLower == ':') = (c == ':') := by
        rw [Bool.eq_iff_iff, beq_iff_eq, beq_iff_eq]
        exact first.lower.2.1
      rw [List.map_cons, List.count_cons, List.count_cons, ih rest, same]

theorem head_not_bracket {text rest : List Char} (h : PlainAddress text) :
    (text.map Char.toLower ++ rest).head? ≠ some '[' := by
  have nonempty : text.map Char.toLower ≠ [] := mt List.map_eq_nil_iff.mp h.ne_nil
  rw [List.head?_append_of_ne_nil _ nonempty]
  exact fun bracket => not_mem_lower h rfl (List.mem_of_mem_head? bracket)

/-- The address of an entry, in lower case. -/
theorem ProxyText.host {entry : List Char} (h : ProxyText entry) :
    ∃ text, PlainAddress text ∧ hostOf (entry.flatMap lowerChar) = text.map Char.toLower := by
  cases h with
  | address plain =>
      refine ⟨entry, plain, ?_⟩
      have bracket := @head_not_bracket entry [] plain
      rw [List.append_nil] at bracket
      rw [flatMap_lowerChar fun c mem => (plain.chars c mem).small, hostOf, if_neg bracket]
      refine if_neg ?_
      rw [count_colon_lower plain.chars]
      obtain ⟨bytes, quad | grammar⟩ := plain
      · rw [List.count_eq_zero.mpr quad.no_colon]
        decide
      · have two := grammar.two_colons
        omega
  | @bracketed text plain =>
      refine ⟨text, plain, ?_⟩
      have lowered : ('[' :: text ++ [']']).flatMap lowerChar =
          '[' :: (text.map Char.toLower ++ [']']) := by
        rw [List.cons_append, List.flatMap_cons, List.flatMap_append,
          flatMap_lowerChar fun c mem => (plain.chars c mem).small]
        rfl
      rw [lowered, hostOf, if_pos List.head?_cons, if_pos (by simp), List.tail_cons]
      exact takeWhile_until (not_mem_lower plain rfl)
  | @port text digits bytes quad nonempty are =>
      have plain : PlainAddress text := ⟨bytes, .inl quad⟩
      refine ⟨text, plain, ?_⟩
      have digit {c : Char} (mem : c ∈ digits) : Ipv6Char c := .inl (isHex_of_isDigit (are c mem))
      have lowered : (text ++ ':' :: digits).flatMap lowerChar =
          text.map Char.toLower ++ ':' :: digits.map Char.toLower := by
        rw [List.flatMap_append, List.flatMap_cons,
          flatMap_lowerChar fun c mem => (plain.chars c mem).small,
          flatMap_lowerChar fun c mem => (digit mem).small]
        rfl
      have one : (text.map Char.toLower ++ ':' :: digits.map Char.toLower).count ':' = 1 := by
        have absent : ':' ∉ digits := fun mem => absurd (are ':' mem) (by decide)
        rw [List.count_append, List.count_cons_self, count_colon_lower plain.chars,
          count_colon_lower fun c mem => digit mem, List.count_eq_zero.mpr quad.no_colon,
          List.count_eq_zero.mpr absent]
      rw [lowered, hostOf, if_neg (head_not_bracket plain), if_pos one]
      refine takeWhile_until fun mem => ?_
      have colons := List.count_pos_iff.mpr mem
      rw [count_colon_lower plain.chars, List.count_eq_zero.mpr quad.no_colon] at colons
      exact absurd colons (Nat.lt_irrefl 0)

/-- Something is left of an address when the start of a mapped one is taken off. -/
theorem PlainAddress.unmapped_ne_nil {text : List Char} (h : PlainAddress text) :
    unmapped (text.map Char.toLower) ≠ [] := by
  rw [unmapped]
  split
  · next mapped =>
      obtain ⟨rest, whole⟩ := List.isPrefixOf_iff_prefix.mp mapped
      rw [← whole]
      intro empty
      obtain rfl : rest = [] := empty
      rw [List.append_nil] at whole
      have last : (text.map Char.toLower).getLast? = some ':' := by
        rw [← whole]
        rfl
      rw [List.getLast?_map] at last
      obtain ⟨c, end_, lower⟩ := Option.map_eq_some_iff.mp last
      have colon := (h.chars c (List.mem_of_getLast? end_)).lower.2.1.mp lower
      rw [colon] at end_
      obtain ⟨bytes, quad | grammar⟩ := h
      · exact quad.no_colon (List.mem_of_getLast? end_)
      · obtain ⟨front, rfl⟩ := grammar.ends end_
        have back := congrArg List.reverse whole
        rw [List.map_append, List.reverse_append] at back
        injection back with _ second
        injection second with same _
        exact absurd same (by decide)
  · exact mt List.map_eq_nil_iff.mp h.ne_nil

theorem mem_of_mem_unmapped {ip : List Char} {c : Char} (mem : c ∈ unmapped ip) : c ∈ ip := by
  rw [unmapped] at mem
  split at mem
  · exact List.mem_of_mem_drop mem
  · exact mem

/-- An entry of a proxy is not dropped. -/
theorem normalizeIp_ne_empty {entry : String} (h : ProxyEntry entry) : normalizeIp entry ≠ "" := by
  obtain ⟨text, plain, host⟩ := ProxyText.host h
  have all : (unmapped (text.map Char.toLower)).all isAddressChar = true := by
    rw [List.all_eq_true]
    intro c mem
    obtain ⟨d, among, rfl⟩ := List.mem_map.mp (mem_of_mem_unmapped mem)
    exact (plain.chars d among).lower.1
  rw [normalizeIp_eq, host, if_pos ⟨plain.unmapped_ne_nil, all⟩]
  intro empty
  have chars := congrArg String.toList empty
  rw [String.toList_ofList] at chars
  exact plain.unmapped_ne_nil chars

end Normalising

section Counting

/-- The entries of a header that are not empty when they are normalised. -/
def parts (xff : List Char) : List String :=
  ((xff.splitOn ',').map fun part => normalizeIp (jsTrim (String.ofList part))).filter (· ≠ "")

def withForwardedFor (headers : Headers) (value : String) : Headers := fun name =>
  if name = "x-forwarded-for" then some value else headers name

theorem getClientIp_forwarded (n : Nat) (headers : Headers) {value : String}
    (some_part : parts value.toList ≠ []) :
    getClientIp n (withForwardedFor headers value) =
      (parts value.toList).getD ((parts value.toList).length - max 1 n) "" := by
  have nonempty : value ≠ "" := by
    rintro rfl
    exact some_part (by decide +kernel)
  have header :
      (withForwardedFor headers value "x-forwarded-for").filter (· ≠ "") = some value := by
    rw [withForwardedFor, if_pos rfl, Option.filter_some, if_pos (decide_eq_true nonempty)]
  have same : (((withForwardedFor headers value "x-forwarded-for").filter (· ≠ "")).elim []
      fun xff => (xff.toList.splitOn ',').map fun part =>
        normalizeIp (jsTrim (String.ofList part))).filter (· ≠ "") = parts value.toList := by
    rw [header]
    rfl
  rw [getClientIp, same, if_pos some_part]

theorem parts_append (before after : List Char) :
    parts (before ++ ',' :: after) = parts before ++ parts after := by
  rw [parts, List.splitOn_append_cons_self, List.map_append, List.filter_append]
  rfl

theorem ProxyText.chars {entry : List Char} (h : ProxyText entry) : ',' ∉ entry := by
  have plain_text {text : List Char} (plain : PlainAddress text) : ',' ∉ text := fun mem =>
    (plain.chars ',' mem).lower.2.2.2.2 rfl
  cases h with
  | address plain => exact plain_text plain
  | bracketed plain => simpa using plain_text plain
  | @port text digits bytes quad nonempty are =>
      have absent : ',' ∉ digits := fun mem => absurd (are ',' mem) (by decide)
      simpa [absent] using plain_text ⟨bytes, .inl quad⟩

/-- What is trimmed off a text is blanks. -/
theorem mem_jsTrim {s : String} {c : Char} (mem : c ∈ s.toList) (solid : isJsSpace c = false) :
    c ∈ (jsTrim s).toList := by
  have kept {text : List Char} (mem : c ∈ text) : c ∈ text.dropWhile isJsSpace := by
    rw [← @List.takeWhile_append_dropWhile _ isJsSpace text, List.mem_append] at mem
    rcases mem with blank | rest
    · rw [List.mem_takeWhile_imp blank] at solid
      cases solid
    · exact rest
  rw [jsTrim, String.toList_ofList, List.mem_reverse]
  exact kept (List.mem_reverse.mpr (kept mem))

theorem ProxyEntry.no_comma {entry : String} (h : ProxyEntry entry) : ',' ∉ entry.toList :=
  fun mem => ProxyText.chars h (mem_jsTrim mem (by decide))

/-- All the entries of proxies are counted. -/
theorem parts_of_entries {entries : List String} (more : entries ≠ [])
    (proxies : ∀ entry ∈ entries, ProxyEntry entry) :
    parts (",".intercalate entries).toList = entries.map normalizeIp := by
  have pieces : (",".intercalate entries).toList.splitOn ',' = entries.map String.toList := by
    rw [String.toList_intercalate]
    refine List.splitOn_intercalate ',' (List.forall_mem_map.mpr fun entry mem => ?_)
      (mt List.map_eq_nil_iff.mp more)
    exact (proxies entry mem).no_comma
  have trimmed (entry : String) : normalizeIp (jsTrim entry) = normalizeIp entry := by
    rw [normalizeIp_eq, normalizeIp_eq, jsTrim_jsTrim]
  rw [parts, pieces, List.map_map, List.filter_eq_self.mpr]
  · refine List.map_congr_left fun entry _ => ?_
    rw [Function.comp_apply, String.ofList_toList, trimmed]
  · intro ip mem
    obtain ⟨entry, among, rfl⟩ := List.mem_map.mp mem
    rw [Function.comp_apply, String.ofList_toList, trimmed]
    exact decide_eq_true (normalizeIp_ne_empty (proxies entry among))

/-- The client is the first of as many entries as there are trusted proxies. -/
theorem getClientIp_of_entries (headers : Headers) {first : String} {rest : List String}
    {value : String} {before : List String}
    (counted : parts value.toList = before ++ (first :: rest).map normalizeIp) :
    getClientIp (first :: rest).length (withForwardedFor headers value) = normalizeIp first := by
  have some_part : parts value.toList ≠ [] := by
    rw [counted, List.map_cons]
    exact List.append_ne_nil_of_right_ne_nil _ (List.cons_ne_nil _ _)
  have index : (before ++ (first :: rest).map normalizeIp).length - max 1 (first :: rest).length =
      before.length := by
    rw [List.length_append, List.length_map, List.length_cons]
    omega
  rw [getClientIp_forwarded _ headers some_part, counted, index,
    List.getD_append_right _ _ _ _ (Nat.le_refl _), Nat.sub_self, List.map_cons,
    List.getD_cons_zero]

theorem forwarded_prefix_has_no_effect (headers : Headers) {n : Nat} {entries : List String}
    (hops : 1 ≤ n) (exactly : entries.length = n)
    (proxies : ∀ entry ∈ entries, ProxyEntry entry) :
    (∀ spoofed spoofed' : String,
      getClientIp n (withForwardedFor headers (spoofed ++ "," ++ ",".intercalate entries)) =
        getClientIp n (withForwardedFor headers (spoofed' ++ "," ++ ",".intercalate entries))) ∧
    (∀ spoofed : String,
      getClientIp n (withForwardedFor headers (spoofed ++ "," ++ ",".intercalate entries)) =
        getClientIp n (withForwardedFor headers (",".intercalate entries))) ∧
    entries.head?.map normalizeIp =
      some (getClientIp n (withForwardedFor headers (",".intercalate entries))) := by
  cases entries with
  | nil => exact absurd exactly (Nat.ne_of_lt hops)
  | cons first rest =>
      subst exactly
      have alone := getClientIp_of_entries headers
        ((parts_of_entries (List.cons_ne_nil first rest) proxies).trans (List.nil_append _).symm)
      have spoofing (spoofed : String) :
          getClientIp (first :: rest).length
            (withForwardedFor headers (spoofed ++ "," ++ ",".intercalate (first :: rest))) =
            normalizeIp first := by
        refine @getClientIp_of_entries headers first rest _ (parts spoofed.toList) ?_
        rw [String.toList_append, String.toList_append, List.append_assoc,
          ← parts_of_entries (List.cons_ne_nil first rest) proxies]
        exact parts_append _ _
      refine ⟨fun spoofed spoofed' => ?_, fun spoofed => ?_, ?_⟩
      · rw [spoofing, spoofing]
      · rw [spoofing, alone]
      · rw [alone]
        rfl

theorem forwarded_prefix_has_no_effect_mixed :
    getClientIp 2 (withForwardedFor (fun _ => none)
      ("127.0.0.1,, x" ++ "," ++ ",".intercalate [" 203.0.113.7:4711", "[::1]"])) =
    getClientIp 2 (withForwardedFor (fun _ => none)
      (",".intercalate [" 203.0.113.7:4711", "[::1]"])) := by
  refine (forwarded_prefix_has_no_effect (fun _ => none) (by decide) rfl ?_).2.1 _
  have quad : QuadText "203.0.113.7".toList [203, 0, 113, 7] := ⟨rfl, by decide, by decide +kernel⟩
  have loopback : Ipv6Text false "::1".toList ([] ++ List.replicate 14 0 ++ [0, 1]) :=
    @Ipv6Text.compressed false [] [['1']] [] [0, 1] .nil
      (.cons ⟨[1], rfl, by decide, by decide, rfl⟩ .nil) (by decide)
  have first := @ProxyText.port _ "4711".toList _ quad (by decide)
    (List.all_eq_true.mp (by decide +kernel))
  have second := ProxyText.bracketed ⟨_, .inr loopback⟩
  have trimmed : (jsTrim " 203.0.113.7:4711").toList = "203.0.113.7:4711".toList := by
    decide +kernel
  have same : (jsTrim "[::1]").toList = "[::1]".toList := by decide +kernel
  refine List.forall_mem_cons.mpr ⟨?_, List.forall_mem_singleton.mpr ?_⟩
  · rw [ProxyEntry, trimmed]
    exact first
  · rw [ProxyEntry, same]
    exact second

end Counting

end Gateway
