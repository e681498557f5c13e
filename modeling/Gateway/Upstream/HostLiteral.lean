import Gateway.Auth.AddressSpelling
import Gateway.Upstream.Ssrf

/-!
Whether the address that is called is the one that was written.

The host of a URL, as its text has it, is what the parser reads before it removes
tabs and newlines and reads numbers. The guard looks for ambiguous numbers in the
raw text with a pattern of its own, which does not find every host that the parser
finds.
-/

namespace Gateway.Upstream

section Written

/-- The authority as its text has it, after the scheme and the slashes. -/
def writtenAuthority (raw : String) : List Char :=
  let rest := ((strip raw.toList).dropWhile (· ≠ ':')).drop 1
  (rest.dropWhile fun c => isTabOrNewline c || isSlash c).takeWhile (!endsAuthority ·)

/-- The host as its text has it, between the user and the port. -/
def writtenHost (raw : String) : List Char :=
  (cutPort false (afterLast '@' (writtenAuthority raw))).1

/-- The tabs and newlines that the parser leaves out of a text. -/
def solid (text : List Char) : List Char := text.filter (!isTabOrNewline ·)

theorem solid_reverse (text : List Char) : solid text.reverse = (solid text).reverse :=
  List.filter_reverse ..

theorem at_blanks {stays : Char → Bool} (blank : ∀ c, isTabOrNewline c = true → stays c = true) :
    (fun c => !!isTabOrNewline c || stays c) = stays := by
  funext c
  cases tab : isTabOrNewline c with
  | false => rfl
  | true => rw [blank c tab]; rfl

/-- Where a prefix goes on at tabs and newlines, it is taken before or after they are removed. -/
theorem takeWhile_solid {stays : Char → Bool}
    (blank : ∀ c, isTabOrNewline c = true → stays c = true) (text : List Char) :
    (solid text).takeWhile stays = solid (text.takeWhile stays) := by
  rw [solid, List.takeWhile_filter, at_blanks blank]
  rfl

theorem dropWhile_solid {stays : Char → Bool}
    (blank : ∀ c, isTabOrNewline c = true → stays c = true) (text : List Char) :
    (solid text).dropWhile stays = solid (text.dropWhile stays) := by
  rw [solid, List.dropWhile_filter, at_blanks blank]
  rfl

/-- A tab or a newline is no mark of a URL. -/
theorem ne_of_isTabOrNewline {c mark : Char} (tab : isTabOrNewline c = true)
    (other : isTabOrNewline mark = false) : c ≠ mark := by
  rintro rfl
  rw [tab] at other
  cases other

theorem afterLast_solid {mark : Char} (other : isTabOrNewline mark = false) (text : List Char) :
    afterLast mark (solid text) = solid (afterLast mark text) := by
  have blank (c : Char) (tab : isTabOrNewline c = true) : decide (c ≠ mark) = true :=
    decide_eq_true (ne_of_isTabOrNewline tab other)
  rw [afterLast, ← solid_reverse, takeWhile_solid blank, ← solid_reverse]
  rfl

theorem cutPort_solid (inside : Bool) (text : List Char) :
    (cutPort inside (solid text)).1 = solid (cutPort inside text).1 := by
  induction text generalizing inside with
  | nil => rfl
  | cons c text ih =>
      cases tab : isTabOrNewline c with
      | true =>
          have same : solid (c :: text) = solid text := List.filter_cons_of_neg (by simp [tab])
          have colon := ne_of_isTabOrNewline tab (show isTabOrNewline ':' = false from rfl)
          have opened := ne_of_isTabOrNewline tab (show isTabOrNewline '[' = false from rfl)
          have closed := ne_of_isTabOrNewline tab (show isTabOrNewline ']' = false from rfl)
          rw [same, ih, cutPort, if_neg fun both => colon both.1, if_neg opened, if_neg closed]
          exact (List.filter_cons_of_neg (by simp [tab])).symm
      | false =>
          have same (rest : List Char) : solid (c :: rest) = c :: solid rest :=
            List.filter_cons_of_pos (by simp [tab])
          rw [same, cutPort, cutPort]
          split
          · rfl
          · exact (congrArg (c :: ·) (ih _)).trans (same _).symm

theorem cutScheme_iff {text scheme rest : List Char} :
    cutScheme text = some (scheme, rest) ↔
      text = scheme ++ ':' :: rest ∧ (∀ c ∈ scheme, isSchemeChar c = true) ∧
        scheme.head?.any Char.isAlpha = true := by
  constructor
  · intro cut
    rw [cutScheme] at cut
    split at cut
    · next tail found =>
        split at cut
        · next letter =>
            obtain ⟨rfl, rfl⟩ := Prod.mk.inj (Option.some.inj cut)
            refine ⟨?_, fun c mem => List.mem_takeWhile_imp mem, letter⟩
            rw [← found, List.takeWhile_append_dropWhile]
        · cases cut
    · cases cut
  · rintro ⟨rfl, are, letter⟩
    have front : (scheme ++ ':' :: rest).takeWhile isSchemeChar = scheme := takeWhile_stops are rfl
    have back : (scheme ++ ':' :: rest).dropWhile isSchemeChar = ':' :: rest := by
      rw [List.dropWhile_append_of_pos are]
      rfl
    rw [cutScheme, front, back]
    exact if_pos letter

theorem cutScheme_eq_some {text scheme rest : List Char}
    (cut : cutScheme text = some (scheme, rest)) : text = scheme ++ ':' :: rest ∧ ':' ∉ scheme := by
  obtain ⟨whole, are, -⟩ := cutScheme_iff.mp cut
  exact ⟨whole, fun mem => absurd (are ':' mem) (by decide)⟩

theorem dropWhile_scheme {scheme rest : List Char} (absent : ':' ∉ scheme) :
    (scheme ++ ':' :: rest).dropWhile (· ≠ ':') = ':' :: rest := by
  have before : ∀ c ∈ scheme, decide (c ≠ ':') = true := fun c mem =>
    decide_eq_true (fun colon => absent (colon ▸ mem))
  rw [List.dropWhile_append_of_pos before, List.dropWhile_cons_of_neg (by simp)]

theorem after_colon {text scheme rest : List Char} (whole : solid text = scheme ++ ':' :: rest)
    (absent : ':' ∉ scheme) : rest = solid ((text.dropWhile (· ≠ ':')).drop 1) := by
  have blank (c : Char) (tab : isTabOrNewline c = true) : decide (c ≠ ':') = true :=
    decide_eq_true (ne_of_isTabOrNewline tab rfl)
  have stopped := dropWhile_solid blank text
  rw [whole, dropWhile_scheme absent] at stopped
  have first := List.head?_dropWhile_not (fun c => decide (c ≠ ':')) text
  cases tail : text.dropWhile (· ≠ ':') with
  | nil =>
      rw [tail] at stopped
      cases stopped
  | cons c more =>
      rw [tail] at stopped first
      obtain rfl : c = ':' := by simpa using first
      exact (List.cons.inj (stopped.trans (List.filter_cons_of_pos rfl))).2

/-- An authority goes on at tabs and newlines. -/
theorem not_endsAuthority {c : Char} (tab : isTabOrNewline c = true) :
    (!endsAuthority c) = true := by
  have other (mark : Char) (solid : isTabOrNewline mark = false) : (c == mark) = false :=
    beq_eq_false_iff_ne.mpr (ne_of_isTabOrNewline tab solid)
  rw [endsAuthority, isSlash, other '/' rfl, other '\\' rfl, other '?' rfl, other '#' rfl]
  rfl

theorem authorityOf_solid (rest : List Char) :
    authorityOf (solid rest) =
      solid ((rest.dropWhile fun c => isTabOrNewline c || isSlash c).takeWhile
        (!endsAuthority ·)) := by
  have same : (fun c => !!isTabOrNewline c || isSlash c) =
      fun c => isTabOrNewline c || isSlash c := by
    funext c
    rw [Bool.not_not]
  rw [authorityOf, solid, List.dropWhile_filter, same]
  exact takeWhile_solid (fun _ => not_endsAuthority) _

theorem parseSpecial_eq_some {tables : UrlTables} {scheme rest : List Char} {url : Url}
    (parsed : parseSpecial tables scheme rest = some url) :
    url.protocol = String.ofList (scheme ++ [':']) ∧
      parseHost tables (cutPort false (afterLast '@' (authorityOf rest))).1 = url.host ∧
      parsePort scheme ((cutPort false (afterLast '@' (authorityOf rest))).2.getD []) =
        some url.port := by
  rw [parseSpecial] at parsed
  dsimp only at parsed
  split at parsed
  · cases parsed
  · split at parsed
    · next found port =>
        obtain rfl := Option.some.inj parsed
        exact ⟨rfl, found, port⟩
    · cases parsed

/-- A URL with a host is one of a scheme of the web. -/
theorem parseUrl_with_host {tables : UrlTables} {raw : String} {url : Url} {host : Host}
    (parsed : parseUrl tables raw = some url) (there : url.host = some host) :
    ∃ scheme rest, cutScheme (solid (strip raw.toList)) = some (scheme, rest) ∧
      (scheme.map Char.toLower = "http".toList ∨ scheme.map Char.toLower = "https".toList) ∧
      parseSpecial tables (scheme.map Char.toLower) rest = some url := by
  rw [parseUrl] at parsed
  split at parsed
  · cases parsed
  · next scheme rest cut =>
      dsimp only at parsed
      split at parsed
      · next special => exact ⟨scheme, rest, cut, special, parsed⟩
      · split at parsed
        · obtain rfl := Option.some.inj parsed
          cases there
        · cases parsed

/-- What the parser reads as the authority is the written one, without tabs and newlines. -/
theorem authority_is_written {raw : String} {scheme rest : List Char}
    (cut : cutScheme (solid (strip raw.toList)) = some (scheme, rest)) :
    authorityOf rest = solid (writtenAuthority raw) := by
  obtain ⟨whole, absent⟩ := cutScheme_eq_some cut
  rw [after_colon whole absent, authorityOf_solid]
  rfl

/-- What the parser reads as the host is the written host, without tabs and newlines. -/
theorem written_is_parsed {tables : UrlTables} {raw : String} {url : Url} {host : Host}
    (parsed : parseUrl tables raw = some url) (there : url.host = some host) :
    parseHost tables (solid (writtenHost raw)) = some host := by
  obtain ⟨scheme, rest, cut, -, special⟩ := parseUrl_with_host parsed there
  have found := (parseSpecial_eq_some special).2.1
  rw [there, authority_is_written cut, afterLast_solid rfl, cutPort_solid] at found
  exact found

end Written

section Quads

theorem quadText_serializeIpv4 (n : Nat) : QuadText (serializeIpv4 n) (ipv4Bytes n) := by
  have byte (k : Nat) : k % 256 ≤ 255 := Nat.le_of_lt_succ (Nat.mod_lt k (by decide))
  refine ⟨rfl, ?_, rfl⟩
  simp only [ipv4Bytes, List.forall_mem_cons]
  exact ⟨byte _, byte _, byte _, byte _, fun _ mem => absurd mem List.not_mem_nil⟩

theorem isAddress_ipv4Bytes (n : Nat) : IsAddress (ipv4Bytes n) :=
  ⟨(quadText_serializeIpv4 n).areBytes, .inl rfl⟩

theorem ipToBytes_serializeIpv4 (n : Nat) :
    ipToBytes (String.ofList (serializeIpv4 n)) = some (ipv4Bytes n) := by
  have spelled : spellAddress (ipv4Bytes n) = String.ofList (serializeIpv4 n) :=
    congrArg String.ofList (if_pos rfl)
  rw [← spelled]
  exact ipToBytes_spellAddress (isAddress_ipv4Bytes n)

variable {text : List Char} {bytes : List Nat}

theorem toLower_digit_or_point {c : Char} (plain : c.isDigit = true ∨ c = '.') : c.toLower = c := by
  rcases plain with digit | rfl
  · have high : c.val ≤ '9'.val := by
      rw [Char.isDigit, Bool.and_eq_true, decide_eq_true_eq, decide_eq_true_eq] at digit
      exact digit.2
    unfold Char.toLower
    exact dif_neg fun both => absurd (UInt32.le_trans both.1 high) (by decide)
  · rfl

theorem jsToLower_quad (quad : QuadText text bytes) :
    jsToLower (String.ofList text) = String.ofList text := by
  have small (c : Char) (mem : c ∈ text) : c.val.toNat < 128 := (quad.ipv6Chars c mem).small
  have same : text.map Char.toLower = text.map id :=
    List.map_congr_left fun c mem => toLower_digit_or_point (quad.chars c mem)
  rw [jsToLower, String.toList_ofList, flatMap_lowerChar small, same, List.map_id]

theorem literal_of_quad (quad : QuadText text bytes) :
    looksLikeAddressLiteral (String.ofList text) = true := by
  obtain ⟨a, b, c, d, -, -, -, -, rfl, -⟩ := quad.parts
  have digits : (Nat.toDigits 10 d).all Char.isDigit = true :=
    List.all_eq_true.mpr fun c mem => Nat.isDigit_of_mem_toDigits (by decide) (by decide) mem
  have whole : Nat.toDigits 10 d ≠ [] := Nat.toDigits_ne_nil
  have numeric : isNumericLabel (Nat.toDigits 10 d) = true := by
    rw [isNumericLabel, digits, decide_eq_true whole]
    rfl
  rw [looksLikeAddressLiteral, String.toList_ofList, quad.labels]
  exact Bool.or_eq_true_iff.mpr (.inr numeric)

/-- The host of a URL with an IPv4 address is its dotted quad. -/
theorem hostnameOf_ipv4 {url : Url} {n : Nat} (there : url.host = some (.ipv4 n)) :
    hostnameOf url = String.ofList (serializeIpv4 n) := by
  have quad := quadText_serializeIpv4 n
  obtain ⟨c, last, digit⟩ := quad.last_digit
  have bracket : (serializeIpv4 n).head? ≠ some '[' := fun first =>
    quad.not_mem rfl (by decide) (List.mem_of_head? first)
  have point : (serializeIpv4 n).getLast? ≠ some '.' := by
    rw [last]
    intro same
    rw [Option.some.inj same] at digit
    cases digit
  have text : (url.host.map Host.hostname).getD "" = String.ofList (serializeIpv4 n) := by
    rw [there]
    rfl
  have bare :
      stripBrackets (String.ofList (serializeIpv4 n)) = String.ofList (serializeIpv4 n) := by
    rw [stripBrackets, String.toList_ofList, if_neg fun both => bracket both.1]
  rw [hostnameOf, text, bare, jsToLower_quad quad, dropFinalDot, String.toList_ofList, if_neg point]

end Quads

section Accepted

variable {tables : UrlTables} {raw : String} {url : Url} {n : Nat}

/-- What every check of a parsed URL lets pass. -/
structure Passed (config : UpstreamConfig) (url : Url) : Prop where
  scheme : jsToLower url.protocol = "https:" ∨
    jsToLower url.protocol = "http:" ∧ config.allowPlaintextUpstream = true
  username : url.username = []
  password : url.password = []
  named : hostnameOf url ≠ ""
  port : portOf url ∈ config.allowedPorts
  host : hostnameOf url ∉ blockedHosts
  suffix : ∀ suffix ∈ blockedSuffixes, endsWith (hostnameOf url) suffix = false
  allowed : ∀ pattern ∈ config.upstreamDomainDenylist,
    matchesDomain (hostnameOf url) pattern = false
  listed : config.upstreamDomainAllowlist = [] ∨
    config.upstreamDomainAllowlist.any (matchesDomain (hostnameOf url)) = true

theorem passed_iff (config : UpstreamConfig) (url : Url) :
    (urlChecks config url).find? Prod.fst = none ↔ Passed config url := by
  simp only [List.find?_eq_none, urlChecks, List.forall_mem_append, List.forall_mem_cons,
    List.forall_mem_map, decide_eq_true_eq]
  constructor
  · rintro ⟨⟨⟨⟨scheme, plain, credentials, named, port, host, -⟩, suffix⟩, denied⟩, listed, -⟩
    rw [not_or, not_not, not_not] at credentials
    refine ⟨?_, credentials.1, credentials.2, named, not_not.mp port, host,
      fun s mem => Bool.eq_false_iff.mpr (suffix s mem),
      fun s mem => Bool.eq_false_iff.mpr (denied s mem), ?_⟩
    · by_cases secure : jsToLower url.protocol = "https:"
      · exact .inl secure
      · have web := not_not.mp fun other => scheme ⟨secure, other⟩
        exact .inr ⟨web, Bool.eq_true_of_not_eq_false fun refused => plain ⟨web, refused⟩⟩
    · by_cases empty : config.upstreamDomainAllowlist = []
      · exact .inl empty
      · exact .inr (Bool.eq_true_of_not_eq_false fun refused => listed ⟨empty, refused⟩)
  · intro passed
    refine ⟨⟨⟨⟨?_, ?_, ?_, passed.named, not_not.mpr passed.port, passed.host,
      fun _ mem => absurd mem List.not_mem_nil⟩,
      fun s mem => Bool.eq_false_iff.mp (passed.suffix s mem)⟩,
      fun s mem => Bool.eq_false_iff.mp (passed.allowed s mem)⟩, ?_,
      fun _ mem => absurd mem List.not_mem_nil⟩
    · rintro ⟨other, another⟩
      exact passed.scheme.elim other fun web => another web.1
    · rintro ⟨web, refused⟩
      rcases passed.scheme with secure | ⟨-, allowed⟩
      · rw [web] at secure
        exact absurd secure (by decide)
      · rw [refused] at allowed
        cases allowed
    · rintro (some_name | some_password)
      · exact some_name passed.username
      · exact some_password passed.password
    · rintro ⟨nonempty, refused⟩
      rcases passed.listed with empty | listed
      · exact nonempty empty
      · rw [refused] at listed
        cases listed

theorem not_refused (reason : String) :
    ¬ ∃ resolved, (refuse reason, (none : Option Verdict)).1 = .ok resolved := by
  rintro ⟨resolved, same⟩
  cases same

/-- A URL with an IPv4 address is called when its text is not ambiguous, every check lets it
pass, and the address is publicly routable. -/
theorem accepted_ipv4_iff {config : UpstreamConfig} {env : Resolution}
    (parsed : parseUrl tables raw = some url) (there : url.host = some (.ipv4 n)) :
    (∃ resolved, (assertUpstreamUrlAllowed tables config env raw).1 = .ok resolved) ↔
      hasAmbiguousHostEncoding raw = false ∧ Passed config url ∧
        isBlockedAddress (String.ofList (serializeIpv4 n)) = false := by
  have literal := literal_of_quad (quadText_serializeIpv4 n)
  have bytes := ipToBytes_serializeIpv4 n
  rw [← passed_iff, assertUpstreamUrlAllowed, parsed]
  by_cases ambiguous : hasAmbiguousHostEncoding raw = true
  · rw [if_pos ambiguous, ambiguous]
    exact iff_of_false (not_refused _) fun all => absurd all.1 (by decide)
  · rw [if_neg ambiguous]
    dsimp only
    cases failed : (urlChecks config url).find? Prod.fst with
    | some check => exact iff_of_false (not_refused _) fun all => Option.some_ne_none _ all.2.1
    | none =>
        dsimp only
        rw [hostnameOf_ipv4 there, if_pos literal, bytes, if_neg (Option.some_ne_none _)]
        by_cases blocked : isBlockedAddress (String.ofList (serializeIpv4 n)) = true
        · rw [if_pos blocked, blocked]
          exact iff_of_false (not_refused _) fun all => absurd all.2.2 (by decide)
        · rw [if_neg blocked]
          exact iff_of_true ⟨_, rfl⟩
            ⟨Bool.eq_false_iff.mpr ambiguous, rfl, Bool.eq_false_iff.mpr blocked⟩

/-- The most that the settings can allow for a port. -/
def openConfig (port : Nat) (positive : 0 < port) : UpstreamConfig where
  allowPlaintextUpstream := true
  upstreamAllowedPorts := [port]
  upstreamDomainDenylist := []
  upstreamDomainAllowlist := []
  positive := fun _ mem => List.mem_singleton.mp mem ▸ positive

/-- No blocked name and no blocked suffix has digits and points only. -/
theorem blocked_not_numeric {text : List Char} {bytes : List Nat} (quad : QuadText text bytes)
    {name : String} (mem : name ∈ blockedHosts ++ blockedSuffixes) : ¬ name.toList ⊆ text := by
  intro within
  have lettered : (blockedHosts ++ blockedSuffixes).all fun name =>
      name.toList.any fun c => !c.isDigit && c != '.' := by decide +kernel
  obtain ⟨c, here, other⟩ := List.any_eq_true.mp (List.all_eq_true.mp lettered name mem)
  rw [Bool.and_eq_true, Bool.not_eq_true', bne_iff_ne] at other
  exact quad.not_mem other.1 other.2 (within here)

theorem passed_openConfig (parsed : parseUrl tables raw = some url)
    (there : url.host = some (.ipv4 n)) (username : url.username = [])
    (password : url.password = []) (positive : 0 < portOf url) :
    Passed (openConfig (portOf url) positive) url := by
  have quad := quadText_serializeIpv4 n
  obtain ⟨scheme, rest, -, web, special⟩ := parseUrl_with_host parsed there
  have protocol := (parseSpecial_eq_some special).1
  have host := hostnameOf_ipv4 there
  refine ⟨?_, username, password, ?_, ?_, ?_, ?_, fun _ mem => absurd mem List.not_mem_nil,
    .inl rfl⟩
  · rw [protocol]
    rcases web with plain | secure
    · rw [plain]
      exact .inr ⟨by decide, rfl⟩
    · rw [secure]
      exact .inl (by decide)
  · rw [host]
    intro empty
    have none_there := congrArg String.toList empty
    rw [String.toList_ofList] at none_there
    exact quad.ne_nil none_there
  · exact List.mem_singleton_self (portOf url)
  · rw [host]
    intro mem
    refine blocked_not_numeric quad (List.mem_append_left _ mem) ?_
    rw [String.toList_ofList]
    exact List.Subset.refl _
  · intro suffix mem
    rw [host, endsWith, String.toList_ofList, Bool.eq_false_iff]
    intro ends
    exact blocked_not_numeric quad (List.mem_append_right _ mem)
      (List.isSuffixOf_iff_suffix.mp ends).subset

theorem portOf_pos_iff (url : Url) : 0 < portOf url ↔ url.port ≠ some 0 := by
  rw [portOf]
  cases port : url.port with
  | none =>
      refine iff_of_true ?_ (Option.some_ne_none 0).symm
      rw [Option.getD_none]
      split <;> decide
  | some port =>
      rw [Option.getD_some, Nat.pos_iff_ne_zero, ne_eq, ne_eq, Option.some.injEq]

/-- Where the parser reads an IPv4 address, the URL is called only if its text has that plain
dotted quad. -/
def NoReinterpretation (tables : UrlTables) (raw : String) : Prop :=
  ∀ config env resolved url n, (assertUpstreamUrlAllowed tables config env raw).1 = .ok resolved →
    parseUrl tables raw = some url → url.host = some (.ipv4 n) → writtenHost raw = serializeIpv4 n

/-- The text is read as a publicly routable IPv4 address that it does not have, with no name, no
password and not the port zero, and the pattern finds nothing ambiguous in it. -/
structure Overlooked (tables : UrlTables) (raw : String) (url : Url) (n : Nat) : Prop where
  parsed : parseUrl tables raw = some url
  address : url.host = some (.ipv4 n)
  rewritten : writtenHost raw ≠ serializeIpv4 n
  unambiguous : hasAmbiguousHostEncoding raw = false
  username : url.username = []
  password : url.password = []
  port : url.port ≠ some 0
  routable : isBlockedAddress (String.ofList (serializeIpv4 n)) = false

theorem no_reinterpretation_iff (tables : UrlTables) (raw : String) :
    NoReinterpretation tables raw ↔ ¬ ∃ url n, Overlooked tables raw url n := by
  constructor
  · rintro kept ⟨url, n, overlooked⟩
    have positive := (portOf_pos_iff url).mpr overlooked.port
    have passed := passed_openConfig overlooked.parsed overlooked.address overlooked.username
      overlooked.password positive
    obtain ⟨resolved, accepted⟩ := (@accepted_ipv4_iff tables raw url n _
      ⟨fun _ => none, fun _ => .ok []⟩ overlooked.parsed overlooked.address).mpr
        ⟨overlooked.unambiguous, passed, overlooked.routable⟩
    exact overlooked.rewritten (kept _ _ resolved url n accepted overlooked.parsed
      overlooked.address)
  · intro seen config env resolved url n accepted parsed address
    by_contra rewritten
    obtain ⟨unambiguous, passed, routable⟩ :=
      (accepted_ipv4_iff parsed address).mp ⟨resolved, accepted⟩
    have positive : 0 < portOf url := by
      have allowed := passed.port
      rw [UpstreamConfig.allowedPorts] at allowed
      split at allowed
      · have all : ∀ port ∈ defaultAllowedPorts, 0 < port := by decide
        exact all _ allowed
      · exact config.positive _ allowed
    exact seen ⟨url, n, parsed, address, rewritten, unambiguous, passed.username, passed.password,
      (portOf_pos_iff url).mp positive, routable⟩

/-- Tables that map the letters of the alphabet to their lower case. -/
def plainTables : UrlTables where
  otherParses := fun _ => true
  domainToAscii := fun text => some (text.map Char.toLower)
  ipv6 := some

/-- The pattern does not match behind a space, and the parser reads octal digits. -/
theorem octal_after_space_accepted : ¬ NoReinterpretation plainTables " https://010.0.0.1/" := by
  intro kept
  let url : Url := ⟨"https:", [], [], some (.ipv4 0x08000001), none⟩
  have accepted := kept ⟨false, [443, 8443], [], [], by decide⟩ ⟨fun _ => none, fun _ => .ok []⟩
    ⟨url, "8.0.0.1", ["8.0.0.1"]⟩ url 0x08000001 (by decide +kernel) (by decide +kernel) rfl
  exact absurd accepted (by decide +kernel)

end Accepted

end Gateway.Upstream
