import Gateway.Admin.Guard
import Gateway.Util.Encoding
import Gateway.Util.NumberText
import Mathlib.Data.Nat.Digits.Defs

/-!
Sessions as they are issued, and the cookies that carry them.

A session is signed, written into a cookie and sent back among the other cookies of
the browser. What is read there is what was signed, for as long as the session lasts.
-/

namespace Gateway.Admin

open Gateway.Auth

section Issue

def SESSION_TTL_SEC : Nat := 12 * 60 * 60

def CSRF_COOKIE : String := "fb_csrf"

def roleText : UserRole → String
  | .user => "user"
  | .admin => "admin"
  | .root => "root"

def sessionFields (user : AccountDoc) (sid : String) (exp : Nat) : Record :=
  [("sub", .str user.id), ("username", .str user.username), ("role", .str (roleText user.role)),
    ("sid", .str sid), ("exp", .ofNat exp)]

structure IssuedSession where
  token : String
  csrf : String
  payload : SessionPayload

variable (config : AdminConfig) (platform : ConsolePlatform)

/-- The sixteen bytes of the session id are drawn. -/
def createSession (ready : Checked Unit) (sidBytes : List UInt8) (nowSec : Nat)
    (user : AccountDoc) : Checked IssuedSession := do
  let secret ← sessionSecret config ready
  let sid := bytesToHex sidBytes
  let exp := nowSec + SESSION_TTL_SEC
  let fields := sessionFields user sid exp
  return ⟨signToken platform.toPlatform fields secret, csrfTokenFor config platform sid,
    ⟨user.id, sid, .finite exp, fields⟩⟩

def cookie (secure : Bool) (name value : String) (maxAgeSec : Int) (httpOnly : Bool) : String :=
  String.intercalate "; "
    ([name ++ "=" ++ encodeURIComponent value, "Path=/", "SameSite=Lax",
      "Max-Age=" ++ toString (max 0 maxAgeSec)] ++
      (if httpOnly then ["HttpOnly"] else []) ++ if secure then ["Secure"] else [])

/-- The script of the console reads the second one, to echo it in a header. -/
def sessionCookies (secure : Bool) (token csrf : String) : List String :=
  [cookie secure SESSION_COOKIE token SESSION_TTL_SEC true,
    cookie secure CSRF_COOKIE csrf SESSION_TTL_SEC false]

def clearedSessionCookies (secure : Bool) : List String :=
  [cookie secure SESSION_COOKIE "" 0 true, cookie secure CSRF_COOKIE "" 0 false]

end Issue

section Browser

/-- What a browser sends back of a cookie that it was given. -/
def cookiePair (setCookie : String) : List Char := setCookie.toList.takeWhile (· ≠ ';')

/-- The header of a browser with these cookies. -/
def cookieHeader (pairs : List (List Char)) : String :=
  String.ofList ([';', ' '].intercalate pairs)

variable {platform : Platform}

theorem intercalate_spaced (pair : List Char) (pairs : List (List Char)) :
    [';', ' '].intercalate (pair :: pairs) = [';'].intercalate (pair :: pairs.map (' ' :: ·)) := by
  induction pairs generalizing pair with
  | nil => rfl
  | cons next pairs ih =>
      rw [List.map_cons, List.intercalate_cons_cons, List.intercalate_cons_cons, ih]
      cases pairs with
      | nil => simp [List.intercalate]
      | cons other pairs => simp [List.intercalate_cons_cons]

theorem jsTrim_space (text : List Char) :
    jsTrim (String.ofList (' ' :: text)) = jsTrim (String.ofList text) := by
  rw [jsTrim, jsTrim, String.toList_ofList, String.toList_ofList,
    List.dropWhile_cons_of_pos (by decide)]

/-- A space in front of a cookie makes no difference. -/
theorem cookieValue_space {name : String} (named : name ≠ "") (pair : List Char) :
    cookieValue platform name (' ' :: pair) = cookieValue platform name pair := by
  have key : (' ' :: pair).takeWhile (· ≠ '=') = ' ' :: pair.takeWhile (· ≠ '=') :=
    List.takeWhile_cons_of_pos (by decide)
  have rest : (' ' :: pair).drop (' ' :: pair.takeWhile (· ≠ '=')).length =
      pair.drop (pair.takeWhile (· ≠ '=')).length := rfl
  rw [cookieValue, cookieValue, key, rest]
  cases split : pair.drop (pair.takeWhile (· ≠ '=')).length with
  | nil => cases front : pair.takeWhile (· ≠ '=') <;> rfl
  | cons sign value =>
      cases front : pair.takeWhile (· ≠ '=') with
      | nil =>
          dsimp only
          rw [jsTrim_space, if_pos]
          exact Ne.symm named
      | cons c cs =>
          dsimp only
          rw [jsTrim_space]

/-- The first cookie of the name is the one that counts. -/
theorem readCookie_header {name : String} (named : name ≠ "") {before after : List (List Char)}
    {pair : List Char} (whole : ∀ other ∈ before ++ pair :: after, ';' ∉ other)
    (others : ∀ other ∈ before, cookieValue platform name other = none) {value : String}
    (found : cookieValue platform name pair = some value) :
    readCookie platform (some (cookieHeader (before ++ pair :: after))) name = value := by
  have spaced (pairs : List (List Char)) :
      (pairs.map (' ' :: ·)).findSome? (cookieValue platform name) =
        pairs.findSome? (cookieValue platform name) := by
    rw [List.findSome?_map]
    congr 1
    funext other
    exact cookieValue_space named other
  have first : (before ++ pair :: after).findSome? (cookieValue platform name) = some value := by
    rw [List.findSome?_append, List.findSome?_eq_none_iff.mpr others, Option.none_or,
      List.findSome?_cons, found]
  have parts : ∀ pairs, pairs ≠ [] → (∀ other ∈ pairs, ';' ∉ other) →
      (([';', ' '].intercalate pairs).splitOn ';').findSome? (cookieValue platform name) =
        pairs.findSome? (cookieValue platform name) := by
    intro pairs nonempty whole
    cases pairs with
    | nil => exact absurd rfl nonempty
    | cons head pairs =>
        obtain ⟨own, rest⟩ := List.forall_mem_cons.mp whole
        rw [intercalate_spaced, List.splitOn_intercalate ';' _ (List.cons_ne_nil _ _),
          List.findSome?_cons, spaced, List.findSome?_cons]
        rw [List.forall_mem_cons, List.forall_mem_map]
        refine ⟨own, fun other mem sign => rest other mem ?_⟩
        exact (List.mem_cons.mp sign).resolve_left (by decide)
  rw [readCookie, cookieHeader, String.toList_ofList, parts _ (by simp) whole, first]
  rfl

end Browser

section Honoured

variable {config : AdminConfig} {platform : ConsolePlatform}

theorem isSessionId_bytesToHex {bytes : List UInt8} (drawn : bytes.length = 16) :
    isSessionId (bytesToHex bytes) = true := by
  rw [isSessionId, length_bytesToHex, drawn, Bool.and_eq_true]
  exact ⟨rfl, List.all_eq_true.mpr fun c mem => mem_bytesToHex mem⟩

theorem sessionFields_carried (user : AccountDoc) (sid : String) {exp : Nat}
    (bounded : exp < 10 ^ 21) : (Json.obj (sessionFields user sid exp)).Carried := by
  have small : ((exp : Nat) : ℚ) < overflowBound := by
    have cast : ((exp : Nat) : ℚ) < 10 ^ 21 := by exact_mod_cast bounded
    exact cast.trans (by decide +kernel)
  have keys : ["sub", "username", "role", "sid", "exp"].Nodup := by decide
  refine ⟨keys, trivial, trivial, trivial, trivial, ?_, trivial⟩
  exact ⟨isDecimal_natCast exp, by rwa [Nat.abs_cast]⟩

theorem small_of_isUnreserved {c : Char} (plain : isUnreserved c = true) : c.val.toNat < 128 := by
  rw [isUnreserved, Bool.or_eq_true] at plain
  cases plain with
  | inl letter => exact small_of_isAlphanum letter
  | inr sign =>
      have all : "-_.!~*'()".toList.all (·.val.toNat < 128) = true := by decide
      exact of_decide_eq_true (List.all_eq_true.mp all c (List.contains_iff_mem.mp sign))

/-- The size of the text that is signed, of which two parts are not fixed. -/
theorem byteCount_session {user : AccountDoc} {sid : String} {exp : Nat}
    (id : jsLength user.id ≤ 24) (username : jsLength user.username ≤ 64)
    (session : jsLength sid = 32) (bounded : exp < 10 ^ 21) :
    (utf8 (jsonStringify (.obj (sessionFields user sid exp)))).length ≤ 900 := by
  have keys : byteCount (quote "sub") = 5 ∧ byteCount (quote "username") = 10 ∧
      byteCount (quote "role") = 6 ∧ byteCount (quote "sid") = 5 ∧ byteCount (quote "exp") = 5 := by
    decide
  have signs : (',' : Char).utf8Size = 1 ∧ (':' : Char).utf8Size = 1 ∧
      ('{' : Char).utf8Size = 1 ∧ ('}' : Char).utf8Size = 1 := by
    decide
  have role : byteCount (quote (roleText user.role)) ≤ 7 := by
    cases user.role <;> decide
  have own := byteCount_quote user.id
  have name := byteCount_quote user.username
  have seed := byteCount_quote sid
  have number := byteCount_number bounded
  change byteCount (jsonStringify (.obj (sessionFields user sid exp))).toList ≤ 900
  rw [jsonStringify_obj]
  simp only [sessionFields, fieldsText, valueText, Json.ofNat, byteCount_cons, byteCount_append,
    byteCount_nil, signs, keys]
  omega

/-- A token stays far below the length up to which cookies are read. -/
theorem length_signToken (standard : platform.Standard) {user : AccountDoc} {sid : String}
    {exp : Nat} (id : jsLength user.id ≤ 24) (username : jsLength user.username ≤ 64)
    (session : jsLength sid = 32) (bounded : exp < 10 ^ 21) (secret : String) :
    jsLength (signToken platform.toPlatform (sessionFields user sid exp) secret) ≤ 4096 := by
  have plain : ∀ c ∈ (signToken platform.toPlatform (sessionFields user sid exp) secret).toList,
      isUnreserved c = true :=
    fun _ mem => mem_signToken standard mem
  have bytes := byteCount_session id username session bounded
  have groups := (Base64.sextets_length
    (utf8 (jsonStringify (.obj (sessionFields user sid exp))))).2
  rw [jsLength_of_ascii fun c mem => small_of_isUnreserved (plain c mem), signToken,
    String.toList_append, String.toList_append, List.length_append, List.length_append,
    standard.hash_length, base64UrlEncode_eq, String.toList_ofList, List.length_map]
  have dot : ".".toList.length = 1 := rfl
  omega

/-- What a token carries is the session that it was issued for. -/
theorem tokenSession_signToken (standard : platform.Standard) {user : AccountDoc}
    {sidBytes : List UInt8} {exp : Nat} (id : jsLength user.id ≤ 24)
    (username : jsLength user.username ≤ 64) (drawn : sidBytes.length = 16)
    (bounded : exp < 10 ^ 21) (secret : String) :
    tokenSession platform.toPlatform secret
        (signToken platform.toPlatform (sessionFields user (bytesToHex sidBytes) exp) secret) =
      some ⟨user.id, bytesToHex sidBytes, .finite exp,
        sessionFields user (bytesToHex sidBytes) exp⟩ := by
  have sidLength : jsLength (bytesToHex sidBytes) = 32 := by rw [jsLength_bytesToHex, drawn]
  have length := length_signToken standard id username sidLength bounded secret
  have dated : Record.field (sessionFields user (bytesToHex sidBytes) exp) "exp" =
      some (.num (.finite exp)) := rfl
  have opened := openToken_signToken standard
    (sessionFields_carried user (bytesToHex sidBytes) bounded) rfl dated secret
  have nonempty : signToken platform.toPlatform (sessionFields user (bytesToHex sidBytes) exp)
      secret ≠ "" := by
    intro empty
    rw [empty] at opened
    cases opened
  rw [tokenSession, if_neg (not_or.mpr ⟨nonempty, Nat.not_lt.mpr length⟩), opened,
    Option.bind_some]
  change (if isSessionId (bytesToHex sidBytes) = true then _ else none) = _
  rw [if_pos (isSessionId_bytesToHex drawn)]

theorem solid_of_isUnreserved {c : Char} (plain : isUnreserved c = true) :
    isJsSpace c = false ∧ c ≠ ';' ∧ c ≠ '%' := by
  have all : ∀ n : Fin 128, isUnreserved (Char.ofNat n) = true →
      isJsSpace (Char.ofNat n) = false ∧ Char.ofNat n ≠ ';' ∧ Char.ofNat n ≠ '%' := by
    decide +kernel
  have here := all ⟨c.toNat, small_of_isUnreserved plain⟩
  dsimp only at here
  rw [Char.ofNat_toNat] at here
  exact here plain

/-- The cookie of a token, as a browser sends it back. -/
theorem cookiePair_cookie {token : String} (plain : ∀ c ∈ token.toList, isUnreserved c = true)
    (secure : Bool) (maxAgeSec : Int) (httpOnly : Bool) :
    cookiePair (cookie secure SESSION_COOKIE token maxAgeSec httpOnly) =
      SESSION_COOKIE.toList ++ '=' :: token.toList := by
  have whole : (SESSION_COOKIE ++ "=" ++ token).toList =
      SESSION_COOKIE.toList ++ '=' :: token.toList := by
    rw [String.toList_append, String.toList_append, List.append_assoc]
    rfl
  have solid : ∀ c ∈ SESSION_COOKIE.toList ++ '=' :: token.toList, decide (c ≠ ';') = true := by
    have name : SESSION_COOKIE.toList.all (· ≠ ';') = true := by decide
    intro c mem
    rw [List.mem_append, List.mem_cons] at mem
    rcases mem with listed | rfl | listed
    · exact List.all_eq_true.mp name c listed
    · decide
    · exact decide_eq_true (solid_of_isUnreserved (plain c listed)).2.1
  rw [cookiePair, cookie, encodeURIComponent_of_unreserved plain, List.cons_append,
    List.cons_append, List.cons_append, List.cons_append, String.intercalate_cons_cons,
    String.toList_append, String.toList_append, whole, List.append_assoc]
  exact takeWhile_stops solid rfl

theorem cookieValue_pair (standard : platform.Standard) {token : String}
    (plain : ∀ c ∈ token.toList, isUnreserved c = true) :
    cookieValue platform.toPlatform SESSION_COOKIE (SESSION_COOKIE.toList ++ '=' :: token.toList) =
      some token := by
  have key : (SESSION_COOKIE.toList ++ '=' :: token.toList).takeWhile (· ≠ '=') =
      SESSION_COOKIE.toList := by
    have name : SESSION_COOKIE.toList.all (· ≠ '=') = true := by decide
    exact takeWhile_stops (List.all_eq_true.mp name) rfl
  have trimmed : jsTrim token = token := by
    have solid := jsTrim_of_no_space fun c mem => (solid_of_isUnreserved (plain c mem)).1
    rwa [String.ofList_toList] at solid
  have unescaped : '%' ∉ token.toList := fun mem => (solid_of_isUnreserved (plain _ mem)).2.2 rfl
  rw [cookieValue, key, List.drop_left]
  change (if jsTrim SESSION_COOKIE ≠ SESSION_COOKIE then none
    else some ((platform.decodeURIComponent (jsTrim (String.ofList token.toList))).getD "")) = _
  have name : jsTrim SESSION_COOKIE = SESSION_COOKIE := by decide +kernel
  rw [if_neg (not_not.mpr name), String.ofList_toList, trimmed,
    standard.decodeURIComponent token unescaped]
  rfl

theorem sessionSecret_ready (signs : config.sessionSecret ≠ "") :
    sessionSecret config (.ok ()) = .ok config.sessionSecret := by
  change (if config.sessionSecret = "" then _ else _) = _
  rw [if_neg signs]
  rfl

/-- What a request with a token gets. -/
theorem requestSession_of_token (signs : config.sessionSecret ≠ "") {req : AdminRequest}
    {raw : String} {session : SessionPayload}
    (signed : tokenSession platform.toPlatform config.sessionSecret raw = some session)
    (carried : readCookie platform.toPlatform (req.relay.headers "cookie") SESSION_COOKIE = raw)
    (ready : req.world.ready = .ok ()) :
    requestSession config platform req =
      if isPast session.exp req.verifiedAt then .ok none
      else if req.revocationsReadable = false then .error (.gateway sessionUnavailable)
      else if (req.revocations.find session.sid).isSome then .ok none
      else .ok (some session) := by
  have short : ¬(raw = "" ∨ 4096 < jsLength raw) := by
    intro refused
    rw [tokenSession, if_pos refused] at signed
    cases signed
  unfold requestSession
  dsimp only
  rw [carried, if_neg short, ready, sessionSecret_ready signs]
  change (readSession platform.toPlatform config.sessionSecret _ _ _ _).mapError _ = _
  rw [readSession_of_token signed carried]
  split
  · rfl
  · split
    · rfl
    · split <;> rfl

theorem isPast_natCast (exp : Nat) (now : Int) :
    isPast (.finite exp) now = decide ((exp : Int) * 1000 < now) := by
  rw [isPast, decide_eq_decide]
  exact_mod_cast Iff.rfl

theorem assertCsrf_iff (standard : platform.Standard) {req : AdminRequest}
    {session : SessionPayload} (changes : safeMethods.contains req.method.toUpper = false)
    (own : sameOrigin config platform req.relay.headers = true) :
    assertCsrf config platform req session = .ok () ↔
      req.relay.headers CSRF_HEADER = some (csrfTokenFor config platform session.sid) := by
  have nonempty : csrfTokenFor config platform session.sid ≠ "" := by
    intro empty
    have length := standard.hash_length config.sessionSecret ("csrf:" ++ session.sid)
    rw [csrfTokenFor] at empty
    rw [empty] at length
    cases length
  rw [assertCsrf, changes, own, if_neg (by decide), if_neg (by decide)]
  cases presented : req.relay.headers CSRF_HEADER with
  | none =>
      constructor
      · intro ok
        cases ok
      · intro same
        cases same
  | some text =>
      rw [Option.some.injEq, Option.getD_some]
      constructor
      · intro ok
        dsimp only at ok
        split at ok
        · cases ok
        · next passed =>
            exact eq_of_timingSafeEqualHex (Bool.eq_true_of_not_eq_false (not_or.mp passed).2)
      · rintro rfl
        dsimp only
        rw [timingSafeEqualHex_self, if_neg]
        rw [not_or]
        exact ⟨nonempty, by decide⟩

end Honoured

end Gateway.Admin
