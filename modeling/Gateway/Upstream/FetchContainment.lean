import Gateway.Upstream.Fetch

/-!
What a request to an upstream can reach.

Each request that is sent goes to a URL that passed the check in the same call. Its agent
connects to the host of the URL, where that is an address, or to what the pinned lookup
gives, and both are among the addresses that the check returned.
-/

namespace Gateway.Upstream

section Checked

variable {tables : UrlTables} {config : UpstreamConfig} {env : Resolution} {raw : String}
  {target : ResolvedUpstream}

/-- What the check returns for a URL that it accepts. -/
structure Checked (tables : UrlTables) (config : UpstreamConfig) (raw : String)
    (target : ResolvedUpstream) : Prop where
  parsed : parseUrl tables raw = some target.url
  passed : Passed config target.url
  hostname : target.hostname = hostnameOf target.url
  found : target.addresses ≠ []
  routable : ∀ address ∈ target.addresses, isBlockedAddress address = false
  literal : looksLikeAddressLiteral (hostnameOf target.url) = true →
    target.addresses = [hostnameOf target.url]

theorem resolveName_ok {url : Url} {hostname : String}
    (ok : (resolveName env url hostname).1 = .ok target) :
    target.url = url ∧ target.hostname = hostname ∧ target.addresses ≠ [] ∧
      ∀ address ∈ target.addresses, isBlockedAddress address = false := by
  rw [resolveName] at ok
  split at ok
  · next first rest _ =>
      split at ok
      · cases ok
      · next free =>
          cases ok
          refine ⟨rfl, rfl, List.cons_ne_nil first rest, fun address mem => ?_⟩
          exact Bool.eq_false_iff.mpr fun blocked => free (List.any_eq_true.mpr ⟨_, mem, blocked⟩)
  · cases ok
  · split at ok
    · cases ok
    · split at ok
      · cases ok
      · next some =>
          split at ok
          · cases ok
          · next free =>
              cases ok
              refine ⟨rfl, rfl, some, fun address mem => ?_⟩
              exact Bool.eq_false_iff.mpr fun blocked =>
                free (List.any_eq_true.mpr ⟨_, mem, blocked⟩)

theorem checked_of_ok (ok : (assertUpstreamUrlAllowed tables config env raw).1 = .ok target) :
    Checked tables config raw target := by
  rw [assertUpstreamUrlAllowed] at ok
  split at ok
  · cases ok
  · split at ok
    · cases ok
    · next url parsed =>
        split at ok
        · cases ok
        · next passes =>
            have passed := (passed_iff config url).mp passes
            split at ok
            · next literal =>
                split at ok
                · cases ok
                · split at ok
                  · cases ok
                  · next free =>
                      have routable : ∀ address ∈ [hostnameOf url],
                          isBlockedAddress address = false := by
                        intro address mem
                        rw [List.mem_singleton.mp mem]
                        exact Bool.eq_false_iff.mpr free
                      cases ok
                      refine ⟨parsed, passed, ?_, List.cons_ne_nil _ _, routable, ?_⟩
                      · dsimp only
                      · intro _
                        dsimp only
            · next name =>
                obtain ⟨same, hostname, found, routable⟩ := resolveName_ok ok
                rw [← same] at parsed passed hostname name
                exact ⟨parsed, passed, hostname, found, routable, fun h => absurd h name⟩

theorem Checked.host (checked : Checked tables config raw target) :
    ∃ host, target.url.host = some host := by
  cases there : target.url.host with
  | some host => exact ⟨host, rfl⟩
  | none =>
      have empty : hostnameOf target.url = "" := by
        rw [hostnameOf, there]
        decide +kernel
      exact absurd empty checked.passed.named

end Checked

section Addresses

theorem isBlockedAddress_of_unread {ip : String} (unread : ipToBytes ip = none) :
    isBlockedAddress ip = true := by
  rw [isBlockedAddress, unread]

theorem readable_of_routable {ip : String} (routable : isBlockedAddress ip = false) :
    ip ≠ "" ∧ ipToBytes ip ≠ none := by
  have readable : ipToBytes ip ≠ none := by
    intro unread
    rw [isBlockedAddress_of_unread unread] at routable
    cases routable
  refine ⟨?_, readable⟩
  intro empty
  subst empty
  exact readable (by decide +kernel)

variable {isIP : String → Nat} {target : ResolvedUpstream} {hostname : String}
  {options : LookupOptions} {found : List LookupAddress}

/-- The pinned lookup answers for the checked name only, with checked addresses of the family
that it was asked for. -/
theorem pinnedLookup_eq_some (answer : pinnedLookup isIP target hostname options = some found) :
    dropFinalDot (jsToLower hostname) = target.hostname ∧ found ≠ [] ∧
      ∀ entry ∈ found, entry.address ∈ target.addresses ∧ entry.family = isIP entry.address ∧
        (options.family = 0 ∨ options.family = entry.family) := by
  simp only [pinnedLookup] at answer
  have listed : ∀ entry ∈ (target.addresses.map fun address =>
      (⟨address, isIP address⟩ : LookupAddress)).filter fun entry =>
        decide (options.family = 0 ∨ options.family = entry.family),
      entry.address ∈ target.addresses ∧ entry.family = isIP entry.address ∧
        (options.family = 0 ∨ options.family = entry.family) := by
    intro entry mem
    obtain ⟨mem, family⟩ := List.mem_filter.mp mem
    obtain ⟨address, there, rfl⟩ := List.mem_map.mp mem
    exact ⟨there, rfl, of_decide_eq_true family⟩
  split at answer
  · cases answer
  · next known =>
      rw [not_or, not_not] at known
      split at answer
      · cases answer
        exact ⟨known.1, known.2, listed⟩
      · cases answer
        refine ⟨known.1, ?_, fun entry mem => listed entry (List.mem_of_mem_take mem)⟩
        rw [ne_eq, List.take_eq_nil_iff]
        exact fun none => none.elim Nat.one_ne_zero known.2

/-- It answers for the host that was checked. -/
theorem pinnedLookup_own {tables : UrlTables} {config : UpstreamConfig} {raw : String}
    (isIP : String → Nat) (checked : Checked tables config raw target) :
    (pinnedLookup isIP target (hostText target.url) ⟨0, true⟩).map
      (List.map LookupAddress.address) = some target.addresses := by
  have same : dropFinalDot (jsToLower (hostText target.url)) = target.hostname :=
    checked.hostname.symm
  have whole : (target.addresses.map fun address =>
      (⟨address, isIP address⟩ : LookupAddress)).filter (fun entry =>
        decide ((0 : Nat) = 0 ∨ 0 = entry.family)) =
      target.addresses.map fun address => ⟨address, isIP address⟩ :=
    List.filter_eq_self.mpr fun entry _ => decide_eq_true (.inl rfl)
  have nonempty : (target.addresses.map fun address =>
      (⟨address, isIP address⟩ : LookupAddress)) ≠ [] := fun none =>
    checked.found (List.map_eq_nil_iff.mp none)
  unfold pinnedLookup
  dsimp only
  rw [whole, if_neg (fun h => h.elim (fun other => other same) nonempty), if_pos rfl,
    Option.map_some, List.map_map]
  exact congrArg some (List.map_id _)

end Addresses

section Literals

/-- What is relied on of the URL parser of the platform. The text of an IPv6 address is of
hexadecimal digits in lower case and of colons, and a URL that is written as a text and parsed
again has its origin. -/
structure UrlLaws (tables : UrlTables) (locate : Locate) : Prop where
  ipv6Text : ∀ text address, tables.ipv6 text = some address →
    ':' ∈ address ∧ ∀ c ∈ address, isAddressChar c = true ∧ c ≠ '.'
  origin : ∀ location base located url, locate location base = some located →
    parseUrl tables located.href = some url → url.host.isSome → originOf url = located.origin

theorem isAddressChar_bounds {c : Char} (h : isAddressChar c = true) :
    c.val ≤ ':'.val ∨ 'a'.val ≤ c.val ∧ c.val ≤ 'f'.val := by
  rw [isAddressChar, Bool.or_eq_true, Bool.or_eq_true, Bool.or_eq_true, Bool.and_eq_true,
    decide_eq_true_eq, decide_eq_true_eq, beq_iff_eq, beq_iff_eq] at h
  rcases h with ((digit | letter) | rfl) | rfl
  · rw [Char.isDigit, Bool.and_eq_true, decide_eq_true_eq, decide_eq_true_eq] at digit
    exact .inl (UInt32.le_trans digit.2 (by decide))
  · exact .inr letter
  · exact .inl (by decide)
  · exact .inl (by decide)

theorem isAddressChar_small {c : Char} (h : isAddressChar c = true) : c.val.toNat < 128 := by
  cases isAddressChar_bounds h with
  | inl low => exact Nat.lt_of_le_of_lt (UInt32.le_iff_toNat_le.mp low) (by decide)
  | inr letter => exact Nat.lt_of_le_of_lt (UInt32.le_iff_toNat_le.mp letter.2) (by decide)

theorem isAddressChar_toLower {c : Char} (h : isAddressChar c = true) : c.toLower = c := by
  unfold Char.toLower
  refine dif_neg fun both => ?_
  cases isAddressChar_bounds h with
  | inl low => exact absurd (UInt32.le_trans both.1 low) (by decide)
  | inr letter => exact absurd (UInt32.le_trans letter.1 both.2) (by decide)

theorem hostnameOf_ipv6 {url : Url} {text : List Char} (there : url.host = some (.ipv6 text))
    (plain : ∀ c ∈ text, isAddressChar c = true ∧ c ≠ '.') :
    hostnameOf url = String.ofList text := by
  have written : (url.host.map Host.hostname).getD "" = String.ofList ('[' :: text ++ [']']) := by
    rw [there]
    rfl
  have bare : stripBrackets (String.ofList ('[' :: text ++ [']'])) = String.ofList text := by
    rw [stripBrackets, String.toList_ofList, if_pos ⟨rfl, List.getLast?_concat⟩]
    exact congrArg String.ofList List.dropLast_concat
  have lower : jsToLower (String.ofList text) = String.ofList text := by
    have same : text.map Char.toLower = text.map id :=
      List.map_congr_left fun c mem => isAddressChar_toLower (plain c mem).1
    rw [jsToLower, String.toList_ofList,
      flatMap_lowerChar fun c mem => isAddressChar_small (plain c mem).1, same, List.map_id]
  have point : text.getLast? ≠ some '.' := fun last =>
    (plain '.' (List.mem_of_getLast? last)).2 rfl
  rw [hostnameOf, written, bare, lower, dropFinalDot, String.toList_ofList, if_neg point]

theorem parseHost_ipv6 {tables : UrlTables} {written text : List Char}
    (parsed : parseHost tables written = some (.ipv6 text)) :
    ∃ inner, tables.ipv6 inner = some text := by
  rw [parseHost] at parsed
  split at parsed
  · split at parsed
    · obtain ⟨address, found, same⟩ := Option.map_eq_some_iff.mp parsed
      cases same
      exact ⟨_, found⟩
    · cases parsed
  · split at parsed
    · cases parsed
    · split at parsed
      · cases parsed
      · split at parsed
        · obtain ⟨address, -, same⟩ := Option.map_eq_some_iff.mp parsed
          cases same
        · cases Option.some.inj parsed

/-- A host that is an address was checked as that address. -/
theorem literalHost_mem {tables : UrlTables} {locate : Locate} {config : UpstreamConfig}
    {raw : String} {target : ResolvedUpstream} {address : String} (laws : UrlLaws tables locate)
    (checked : Checked tables config raw target)
    (literal : literalHost target.url = some address) : address ∈ target.addresses := by
  obtain ⟨host, there⟩ := checked.host
  obtain ⟨scheme, rest, -, -, special⟩ := parseUrl_with_host checked.parsed there
  have found := (parseSpecial_eq_some special).2.1
  rw [there] at found
  cases host with
  | domain text =>
      rw [literalHost, there] at literal
      cases literal
  | ipv4 n =>
      rw [literalHost, there] at literal
      obtain rfl := Option.some.inj literal
      have named := hostnameOf_ipv4 there
      have listed := checked.literal (by
        rw [named]
        exact literal_of_quad (quadText_serializeIpv4 n))
      rw [listed, named]
      exact List.mem_cons_self
  | ipv6 text =>
      rw [literalHost, there] at literal
      obtain rfl := Option.some.inj literal
      obtain ⟨inner, serialized⟩ := parseHost_ipv6 found
      obtain ⟨colon, plain⟩ := laws.ipv6Text inner text serialized
      have named := hostnameOf_ipv6 there plain
      have listed := checked.literal (by
        rw [named, looksLikeAddressLiteral, String.toList_ofList, List.contains_iff_mem.mpr colon,
          Bool.true_or])
      rw [listed, named]
      exact List.mem_cons_self

end Literals

section Containment

variable {tables : UrlTables} {locate : Locate} {config : UpstreamConfig} {world : World}

/-- What holds of every request that is sent. -/
structure Contained (tables : UrlTables) (config : UpstreamConfig) (world : World)
    (isIP : String → Nat) (agent : HttpAgent) (first : Url) (sent : Sent) : Prop where
  accepted : (assertUpstreamUrlAllowed tables config (world.resolution sent.hop) sent.text).1 =
    .ok sent.target
  connects : ∀ address ∈ agent.connections sent.target.url (pinnedLookup isIP sent.target),
    address ∈ sent.target.addresses
  answers : (pinnedLookup isIP sent.target (hostText sent.target.url) ⟨0, true⟩).map
    (List.map LookupAddress.address) = some sent.target.addresses
  found : sent.target.addresses ≠ []
  routable : ∀ address ∈ sent.target.addresses,
    address ≠ "" ∧ ipToBytes address ≠ none ∧ isBlockedAddress address = false
  scheme : jsToLower sent.target.url.protocol = "https:" ∨
    jsToLower sent.target.url.protocol = "http:" ∧ config.allowPlaintextUpstream = true
  port : portOf sent.target.url ∈ config.allowedPorts
  origin : originOf sent.target.url = originOf first

/-- What the loop keeps of the request it is about to send. -/
structure Admitted (tables : UrlTables) (config : UpstreamConfig) (world : World) (first : Url)
    (sent : Sent) : Prop where
  accepted : (assertUpstreamUrlAllowed tables config (world.resolution sent.hop) sent.text).1 =
    .ok sent.target
  origin : originOf sent.target.url = originOf first

theorem Admitted.contained {first : Url} {sent : Sent} (laws : UrlLaws tables locate)
    (isIP : String → Nat) (agent : HttpAgent) (admitted : Admitted tables config world first sent) :
    Contained tables config world isIP agent first sent := by
  have checked := checked_of_ok admitted.accepted
  refine ⟨admitted.accepted, ?_, pinnedLookup_own isIP checked, checked.found, ?_,
    checked.passed.scheme, checked.passed.port, admitted.origin⟩
  · intro address connects
    cases agent.resolves _ _ address connects with
    | inl literal => exact literalHost_mem laws checked literal
    | inr looked =>
        obtain ⟨hostname, options, found, answer, mem⟩ := looked
        obtain ⟨entry, listed, rfl⟩ := List.mem_map.mp mem
        exact ((pinnedLookup_eq_some answer).2.2 entry listed).1
  · intro address mem
    have free := checked.routable address mem
    obtain ⟨nonempty, readable⟩ := readable_of_routable free
    exact ⟨nonempty, readable, free⟩

theorem nextHop_admitted {first : Url} {sent next : Sent} {status : Nat} {location : String}
    (laws : UrlLaws tables locate) (admitted : Admitted tables config world first sent)
    (ok : nextHop tables locate config world status location sent = .ok next) :
    Admitted tables config world first next := by
  rw [nextHop] at ok
  split at ok
  · cases ok
  · next located place =>
      split at ok
      · cases ok
      · next same =>
          cases rewritten : redirected status sent.init with
          | error e =>
              rw [rewritten] at ok
              cases ok
          | ok init =>
              rw [rewritten] at ok
              cases accepted : (assertUpstreamUrlAllowed tables config
                  (world.resolution (sent.hop + 1)) located.href).1 with
              | error e =>
                  simp only [Except.bind, accepted] at ok
                  cases ok
              | ok target =>
                  simp only [Except.bind, accepted] at ok
                  cases ok
                  refine ⟨accepted, ?_⟩
                  have checked := checked_of_ok accepted
                  obtain ⟨host, there⟩ := checked.host
                  have kept := laws.origin location sent.text located target.url place
                    checked.parsed (by rw [there]; rfl)
                  exact kept.trans ((not_not.mp same).trans admitted.origin)

/-- Each hop is one request, and the next one is admitted as the first one was. -/
theorem follow_admitted {first : Url} (laws : UrlLaws tables locate) (left : Nat) {sent : Sent}
    (admitted : Admitted tables config world first sent) :
    (∀ s ∈ (follow tables locate config world left sent).1,
      Admitted tables config world first s) ∧
      (follow tables locate config world left sent).1.length ≤ left + 1 := by
  have alone : ∀ s ∈ [sent], Admitted tables config world first s :=
    List.forall_mem_singleton.mpr admitted
  have single : [sent].length ≤ left + 1 := Nat.le_add_left 1 left
  rw [follow.eq_def]
  cases exchange : world.exchange sent.hop with
  | failed error wasSent clientAborted aborted =>
      cases wasSent with
      | true => exact ⟨alone, single⟩
      | false => exact ⟨List.forall_mem_nil _, Nat.zero_le _⟩
  | answered response =>
      dsimp only
      cases moved : redirection response with
      | none => exact ⟨alone, single⟩
      | some location =>
          cases left with
          | zero => exact ⟨alone, single⟩
          | succ left =>
              dsimp only
              cases ok : nextHop tables locate config world response.status location sent with
              | error e => exact ⟨alone, single⟩
              | ok next =>
                  obtain ⟨later, short⟩ :=
                    follow_admitted laws left (nextHop_admitted laws admitted ok)
                  exact ⟨List.forall_mem_cons.mpr ⟨admitted, later⟩, Nat.succ_le_succ short⟩

/-- Every request that is sent goes to a URL and to addresses that were checked in the same
call, all of them to the origin of the first one, and redirects do not add more than they
may. The pinned lookup answers for no other name and gives no other address or family. -/
theorem upstream_requests_contained (laws : UrlLaws tables locate) (isIP : String → Nat)
    (agent : HttpAgent) (rawUrl : String) (init : RequestInit) (maxRedirects : Nat) :
    (∀ sent ∈ (upstreamFetch tables locate config world rawUrl init maxRedirects).1,
      ∃ first, parseUrl tables rawUrl = some first ∧
        Contained tables config world isIP agent first sent) ∧
      (upstreamFetch tables locate config world rawUrl init maxRedirects).1.length ≤
        maxRedirects + 1 ∧
      ∀ target hostname options found,
        pinnedLookup isIP target hostname options = some found →
          dropFinalDot (jsToLower hostname) = target.hostname ∧ found ≠ [] ∧
            ∀ entry ∈ found, entry.address ∈ target.addresses ∧
              entry.family = isIP entry.address ∧
              (options.family = 0 ∨ options.family = entry.family) := by
  refine ⟨?_, ?_, fun target hostname options found => pinnedLookup_eq_some⟩
  · intro sent mem
    rw [upstreamFetch] at mem
    split at mem
    · cases mem
    · split at mem
      · cases mem
      · next target accepted =>
          have admitted : Admitted tables config world target.url ⟨0, rawUrl, target, init⟩ :=
            ⟨accepted, rfl⟩
          have all := (follow_admitted laws maxRedirects admitted).1
          exact ⟨target.url, (checked_of_ok accepted).parsed,
            (all sent mem).contained laws isIP agent⟩
  · rw [upstreamFetch]
    split
    · exact Nat.zero_le _
    · split
      · exact Nat.zero_le _
      · next target accepted =>
          have admitted : Admitted tables config world target.url ⟨0, rawUrl, target, init⟩ :=
            ⟨accepted, rfl⟩
          exact (follow_admitted laws maxRedirects admitted).2

end Containment

section Redirected

def sampleTables : UrlTables where
  otherParses := fun _ => true
  domainToAscii := fun text => some (text.map Char.toLower)
  ipv6 := fun text =>
    if ':' ∈ text ∧ text.all (fun c => isAddressChar c && c != '.') = true then some text else none

def sampleLocate : Locate := fun location _ =>
  if location = "/b" then some ⟨"https://example.com", "https://example.com/b"⟩ else none

theorem sampleLaws : UrlLaws sampleTables sampleLocate where
  ipv6Text text address found := by
    simp only [sampleTables] at found
    split at found
    · next written =>
        obtain rfl := Option.some.inj found
        refine ⟨written.1, fun c mem => ?_⟩
        have plain := List.all_eq_true.mp written.2 c mem
        rw [Bool.and_eq_true, bne_iff_ne] at plain
        exact plain
    · cases found
  origin location base located url place parsed _ := by
    rw [sampleLocate] at place
    split at place
    · obtain rfl := Option.some.inj place
      have read : parseUrl sampleTables "https://example.com/b" =
          some ⟨"https:", [], [], some (.domain "example.com".toList), none⟩ := by decide +kernel
      obtain rfl := Option.some.inj (read.symm.trans parsed)
      decide +kernel
    · cases place

/-- An agent that asks for the host of the URL, unless it is an address. -/
def sampleAgent : HttpAgent where
  connections url lookup :=
    match literalHost url with
    | some address => [address]
    | none => ((lookup (hostText url) ⟨0, true⟩).getD []).map LookupAddress.address
  resolves url lookup address mem := by
    cases literal : literalHost url with
    | some host =>
        rw [literal] at mem
        exact .inl (congrArg some (List.mem_singleton.mp mem).symm)
    | none =>
        rw [literal] at mem
        cases answer : lookup (hostText url) ⟨0, true⟩ with
        | none =>
            rw [answer] at mem
            cases mem
        | some found =>
            rw [answer] at mem
            exact .inr ⟨_, _, found, answer, mem⟩

def sampleConfig : UpstreamConfig := ⟨false, [], [], [], fun _ mem => absurd mem List.not_mem_nil⟩

/-- A redirect on the same host, and an answer. -/
def sampleWorld : World where
  cancelled := none
  resolution := fun _ => ⟨fun _ => none, fun _ => .ok ["93.184.216.34"]⟩
  exchange := fun hop =>
    if hop = 0 then
      .answered ⟨302, fun name => if name = "location" then some "/b" else none⟩
    else .answered ⟨200, fun _ => none⟩

def sampleInit : RequestInit := ⟨none, fun _ => none, .none⟩

def sampleFamily (address : String) : Nat := if ':' ∈ address.toList then 6 else 4

theorem upstream_requests_contained_redirected :
    (∀ sent ∈ (upstreamFetch sampleTables sampleLocate sampleConfig sampleWorld
        "https://example.com/a" sampleInit 3).1,
      ∃ first, parseUrl sampleTables "https://example.com/a" = some first ∧
        Contained sampleTables sampleConfig sampleWorld sampleFamily sampleAgent first sent) ∧
      (upstreamFetch sampleTables sampleLocate sampleConfig sampleWorld
        "https://example.com/a" sampleInit 3).1.length ≤ 3 + 1 ∧
      ∀ target hostname options found,
        pinnedLookup sampleFamily target hostname options = some found →
          dropFinalDot (jsToLower hostname) = target.hostname ∧ found ≠ [] ∧
            ∀ entry ∈ found, entry.address ∈ target.addresses ∧
              entry.family = sampleFamily entry.address ∧
              (options.family = 0 ∨ options.family = entry.family) :=
  upstream_requests_contained sampleLaws sampleFamily sampleAgent "https://example.com/a"
    sampleInit 3

example : (upstreamFetch sampleTables sampleLocate sampleConfig sampleWorld
    "https://example.com/a" sampleInit 3).1.length = 2 := by decide +kernel

end Redirected

end Gateway.Upstream
