import Gateway.Http.Errors
import Gateway.Lib.Collection
import Gateway.Lib.Simulation
import Gateway.Util.Crypto
import Gateway.Util.JsonRoundTrip
import Mathlib.Algebra.Order.Field.Rat

/-!
Console sessions and their revocation.

A session is a signed cookie with an expiry of its own; a revocation is a row
that the database may drop once the expiry it carries has come. A request looks
at the clock first and at the rows later.
-/

namespace Gateway

section Read

variable (platform : Platform)

def SESSION_COOKIE : String := "fb_session"

/-- A session as its token carries it. -/
structure SessionPayload where
  sub : String
  sid : String
  exp : JsNumber
  fields : Record

/-- The value of one part of a cookie header, if it is the cookie of that name. -/
def cookieValue (name : String) (part : List Char) : Option String :=
  let key := part.takeWhile (· ≠ '=')
  match key, part.drop key.length with
  | [], _ => none
  | _, [] => none
  | key, _ :: value =>
      if jsTrim (String.ofList key) ≠ name then none
      else some ((platform.decodeURIComponent (jsTrim (String.ofList value))).getD "")

/-- Reads one cookie without trusting the header to be well formed. -/
def readCookie (header : Option String) (name : String) : String :=
  match header with
  | none => ""
  | some header => ((header.toList.splitOn ';').findSome? (cookieValue platform name)).getD ""

/-- `/^[a-f0-9]{32}$/` -/
def isSessionId (sid : String) : Bool :=
  sid.toList.length == 32 && sid.toList.all fun c => c.isDigit || ('a' ≤ c && c ≤ 'f')

/-- The checks of a payload whose signature held. -/
def sessionOf (payload : Record × JsNumber) : Option SessionPayload :=
  match payload.1.field "sub", payload.1.field "sid" with
  | some (.str sub), some (.str sid) =>
      if isSessionId sid then some ⟨sub, sid, payload.2, payload.1⟩ else none
  | _, _ => none

structure RevocationDoc where
  id : String
  expiresAt : Int
deriving DecidableEq

instance : Document RevocationDoc String := ⟨RevocationDoc.id⟩

def sessionUnavailable : GatewayError :=
  .ofStatus .serviceUnavailable 503 "session verification is temporarily unavailable" none

/-- `verifiedAt` is the clock when the token is verified; `available` says whether the rows can
be read after that. -/
def readSession (secret : String) (header : Option String) (verifiedAt : Int) (available : Bool)
    (rows : Collection RevocationDoc) : Except GatewayError (Option SessionPayload) :=
  let raw := readCookie platform header SESSION_COOKIE
  if raw = "" ∨ 4096 < jsLength raw then .ok none
  else
    match (verifyToken platform raw secret verifiedAt).bind sessionOf with
    | none => .ok none
    | some session =>
        if available = false then .error sessionUnavailable
        else if (rows.find session.sid).isSome then .ok none
        else .ok (some session)

/-- `new Date(exp * 1000)` -/
def expiryDate (seconds : ℚ) : Int := (seconds * 1000).num.tdiv (seconds * 1000).den

def setExpiry (expiresAt : Int) : Update RevocationDoc where
  apply row := { row with expiresAt := expiresAt }
  key_apply _ := rfl

/-- The row of a session whose expiry is not a date cannot be written. -/
def revokeSession (session : SessionPayload) (rows : Collection RevocationDoc) :
    Except Thrown Unit × Collection RevocationDoc :=
  match session.exp with
  | .finite seconds =>
      (.ok (), rows.upsert ⟨session.sid, expiryDate seconds⟩ (setExpiry (expiryDate seconds)))
  | _ => (.error .fault, rows)

end Read

section System

variable (platform : Platform) (secret : String)

/-- The TTL index: rows may be dropped from their `expiresAt` on, and need not be. -/
def dropExpired (ids : List String) (now : Int) (rows : Collection RevocationDoc) :
    Collection RevocationDoc :=
  ids.foldl (fun rows id =>
    match rows.find id with
    | some row => if row.expiresAt ≤ now then rows.deleteOne id else rows
    | none => rows) rows

/-- A request reads the rows `now`, having verified its token at `verifiedAt`. -/
inductive SessionAction where
  | revoke (session : SessionPayload) (now : Int)
  | cleanup (ids : List String) (now : Int)
  | read (header : Option String) (verifiedAt : Int) (available : Bool) (now : Int)

def SessionAction.now : SessionAction → Int
  | .revoke _ now | .cleanup _ now | .read _ _ _ now => now

/-- What a request was told; other actions tell nothing. -/
abbrev SessionReply := Option (Except GatewayError (Option SessionPayload))

def sessionStep (rows : Collection RevocationDoc) :
    SessionAction → Collection RevocationDoc × SessionReply
  | .revoke session _ => ((revokeSession session rows).2, none)
  | .cleanup ids now => (dropExpired ids now rows, none)
  | .read header verifiedAt available _ =>
      (rows, some (readSession platform secret header verifiedAt available rows))

end System

section Revoked

variable {platform : Platform} {secret : String}

/-- A header with one cookie. -/
theorem readCookie_single {name value : String} (named : name.toList ≠ []) (plain : '=' ∉ name.toList)
    (single : ';' ∉ name.toList ++ '=' :: value.toList) (trimmed : jsTrim name = name) :
    readCookie platform (some (name ++ "=" ++ value)) name =
      (platform.decodeURIComponent (jsTrim value)).getD "" := by
  have chars : (name ++ "=" ++ value).toList = name.toList ++ '=' :: value.toList := by
    rw [String.toList_append, String.toList_append, List.append_assoc]
    rfl
  have first : (name.toList ++ '=' :: value.toList).takeWhile (· ≠ '=') = name.toList := by
    rw [List.takeWhile_append_of_pos]
    · simp
    · intro c mem
      simpa using fun same : c = '=' => plain (same ▸ mem)
  have found : cookieValue platform name (name.toList ++ '=' :: value.toList) =
      some ((platform.decodeURIComponent (jsTrim value)).getD "") := by
    rw [cookieValue, first, List.drop_left]
    cases split : name.toList with
    | nil => exact absurd split named
    | cons c cs =>
        dsimp only
        rw [← split, String.ofList_toList, String.ofList_toList, trimmed, if_neg (not_not.mpr rfl)]
  rw [readCookie, chars, List.splitOn_eq_singleton single, List.findSome?_cons, found]
  rfl

/-- The session in a token, whatever the time. -/
def tokenSession (platform : Platform) (secret raw : String) : Option SessionPayload :=
  if raw = "" ∨ 4096 < jsLength raw then none else (openToken platform raw secret).bind sessionOf

theorem sessionOf_exp {payload : Record × JsNumber} {session : SessionPayload}
    (h : sessionOf payload = some session) : session.exp = payload.2 := by
  rw [sessionOf] at h
  split at h
  · split at h
    · cases h
      rfl
    · cases h
  · cases h

theorem readSession_of_token {raw : String} {session : SessionPayload}
    (signed : tokenSession platform secret raw = some session) {header : Option String}
    (carried : readCookie platform header SESSION_COOKIE = raw) (verifiedAt : Int)
    (available : Bool) (rows : Collection RevocationDoc) :
    readSession platform secret header verifiedAt available rows =
      if isPast session.exp verifiedAt then .ok none
      else if available = false then .error sessionUnavailable
      else if (rows.find session.sid).isSome then .ok none
      else .ok (some session) := by
  rw [tokenSession] at signed
  split at signed
  · cases signed
  · next short =>
      obtain ⟨payload, opened, checked⟩ := Option.bind_eq_some_iff.mp signed
      rw [readSession, carried, verifyToken, opened, if_neg short, sessionOf_exp checked]
      cases past : isPast payload.2 verifiedAt with
      | true =>
          rw [Option.filter_some, past]
          rfl
      | false =>
          rw [Option.filter_some, past]
          simp only [Bool.not_false, if_true, Option.bind_some, checked, Bool.false_eq_true,
            if_false]

/-- The request presents the token. -/
def Presents (platform : Platform) (raw : String) : SessionAction → Prop
  | .read header _ _ _ => readCookie platform header SESSION_COOKIE = raw
  | _ => False

/-- The request did not verify its token while it was valid and look for the row when it may
already have been dropped. -/
def InTime (seconds : ℚ) : SessionAction → Prop
  | .read _ verifiedAt _ now => ¬((verifiedAt : ℚ) ≤ seconds * 1000 ∧ expiryDate seconds ≤ now)
  | _ => True

/-- The request got no session. -/
def Refused : SessionAction → SessionReply → Prop
  | .read _ _ available _, reply =>
      reply = some (.ok none) ∨ available = false ∧ reply = some (.error sessionUnavailable)
  | _, _ => True

/-- Until its expiry has come a revocation is there. -/
def Revoked (sid : String) (expiresAt now : Int) (rows : Collection RevocationDoc) : Prop :=
  expiresAt ≤ now ∨ ∃ row, rows.find sid = some row ∧ row.expiresAt = expiresAt

theorem revoked_dropExpired {sid : String} {expiresAt now : Int} (ids : List String)
    {rows : Collection RevocationDoc} (revoked : Revoked sid expiresAt now rows) :
    Revoked sid expiresAt now (dropExpired ids now rows) := by
  cases revoked with
  | inl passed => exact .inl passed
  | inr stored =>
      induction ids generalizing rows with
      | nil => exact .inr stored
      | cons id ids ih =>
          obtain ⟨row, found, expires⟩ := stored
          rw [dropExpired, List.foldl_cons]
          by_cases same : id = sid
          · rw [same, found]
            dsimp only
            split
            · next passed => exact .inl (expires ▸ passed)
            · exact ih ⟨row, found, expires⟩
          · split
            · split
              · apply ih
                refine ⟨row, ?_, expires⟩
                rw [Collection.find_deleteOne, if_neg (Ne.symm same)]
                exact found
              · exact ih ⟨row, found, expires⟩
            · exact ih ⟨row, found, expires⟩

theorem revokeSession_find {session : SessionPayload} {seconds : ℚ}
    (dated : session.exp = .finite seconds) (rows : Collection RevocationDoc) (sid : String) :
    (revokeSession session rows).2.find sid =
      if sid = session.sid then some ⟨session.sid, expiryDate seconds⟩ else rows.find sid := by
  have key : Document.key (RevocationDoc.mk session.sid (expiryDate seconds)) = session.sid := rfl
  rw [revokeSession, dated]
  dsimp only
  rw [Collection.find_upsert, key]
  cases stored : rows.find session.sid with
  | none => rfl
  | some row =>
      have id : row.id = session.sid := Collection.key_of_find stored
      rw [← id]
      rfl

theorem revoked_revokeSession {session other : SessionPayload} {seconds : ℚ} {now : Int}
    (dated : session.exp = .finite seconds)
    (unique : other.sid = session.sid → other.exp = session.exp)
    {rows : Collection RevocationDoc}
    (revoked : Revoked session.sid (expiryDate seconds) now rows) :
    Revoked session.sid (expiryDate seconds) now (revokeSession other rows).2 := by
  cases revoked with
  | inl passed => exact .inl passed
  | inr stored =>
      cases date : other.exp with
      | finite late =>
          refine .inr ?_
          rw [revokeSession_find date]
          split
          · next same =>
              have agrees := (date.symm.trans (unique same.symm)).trans dated
              cases agrees
              exact ⟨_, rfl, rfl⟩
          · exact stored
      | nan => rw [revokeSession, date]; exact .inr stored
      | infinity => rw [revokeSession, date]; exact .inr stored
      | negInfinity => rw [revokeSession, date]; exact .inr stored

theorem sessionStep_refused {raw : String} {session : SessionPayload} {seconds : ℚ}
    (signed : tokenSession platform secret raw = some session)
    (dated : session.exp = .finite seconds) {rows : Collection RevocationDoc}
    {action : SessionAction} (inTime : Presents platform raw action → InTime seconds action)
    (unique : ∀ other now, action = .revoke other now → other.sid = session.sid →
      other.exp = session.exp)
    (revoked : Revoked session.sid (expiryDate seconds) action.now rows) :
    (Presents platform raw action → Refused action (sessionStep platform secret rows action).2) ∧
      Revoked session.sid (expiryDate seconds) action.now
        (sessionStep platform secret rows action).1 := by
  cases action with
  | revoke other now =>
      exact ⟨fun carries => absurd carries id,
        revoked_revokeSession dated (unique other now rfl) revoked⟩
  | cleanup ids now => exact ⟨fun carries => absurd carries id, revoked_dropExpired ids revoked⟩
  | read header verifiedAt available now =>
      refine ⟨fun carries => ?_, revoked⟩
      change some (readSession platform secret header verifiedAt available rows) = some (.ok none) ∨
        available = false ∧ some (readSession platform secret header verifiedAt available rows) =
          some (.error sessionUnavailable)
      rw [readSession_of_token signed carries, dated]
      split
      · exact .inl rfl
      · next valid =>
          have early : (verifiedAt : ℚ) ≤ seconds * 1000 := by
            by_contra late
            exact valid (decide_eq_true (not_le.mp late))
          have there : ∃ row, rows.find session.sid = some row ∧
              row.expiresAt = expiryDate seconds := by
            cases revoked with
            | inl passed => exact absurd ⟨early, passed⟩ (inTime carries)
            | inr stored => exact stored
          obtain ⟨row, found, -⟩ := there
          rw [found]
          split
          · next down => exact .inr ⟨down, rfl⟩
          · exact .inl rfl

/-- After a revocation every request with the token is refused, whenever expired rows are
dropped, if no request verified the token while it was valid and looks for the row once it may
have been dropped; and a request that does can be given the session. -/
theorem revoked_session_refused {raw : String} {session : SessionPayload} {seconds : ℚ}
    (signed : tokenSession platform secret raw = some session)
    (dated : session.exp = .finite seconds) (rows : Collection RevocationDoc) (start : Int) :
    (∀ actions : List SessionAction,
      (start :: actions.map SessionAction.now).IsChain (· ≤ ·) →
      (∀ other now, .revoke other now ∈ actions → other.sid = session.sid →
        other.exp = session.exp) →
      (∀ action ∈ actions, Presents platform raw action → InTime seconds action) →
      ∀ e ∈ Machine.trace (sessionStep platform secret) (revokeSession session rows).2 actions,
        Presents platform raw e.action → Refused e.action e.reply) ∧
    ∀ header verifiedAt now, readCookie platform header SESSION_COOKIE = raw →
      ¬InTime seconds (.read header verifiedAt true now) →
      (sessionStep platform secret
        (Machine.run (sessionStep platform secret) (revokeSession session rows).2
          [.cleanup [session.sid] now]) (.read header verifiedAt true now)).2 =
        some (.ok (some session)) := by
  constructor
  · intro actions forward unique inTime
    refine Machine.trace_answers (fun now rows => Revoked session.sid (expiryDate seconds) now rows)
      SessionAction.now
      (fun _ action => (Presents platform raw action → InTime seconds action) ∧
        ∀ other now, action = .revoke other now → other.sid = session.sid →
          other.exp = session.exp)
      (fun action reply => Presents platform raw action → Refused action reply) ?_ ?_
      ?_ forward ?_
    · intro t t' rows le revoked
      exact revoked.imp_left fun passed => passed.trans le
    · intro rows action allowed revoked
      exact sessionStep_refused signed dated allowed.1 allowed.2 revoked
    · refine .inr ⟨⟨session.sid, expiryDate seconds⟩, ?_, rfl⟩
      rw [revokeSession_find dated, if_pos rfl]
    · intro e mem
      have listed := Machine.action_mem mem
      exact ⟨inTime _ listed, fun other now same => unique other now (same ▸ listed)⟩
  · intro header verifiedAt now carried late
    obtain ⟨early, passed⟩ := not_not.mp late
    have dropped : (dropExpired [session.sid] now (revokeSession session rows).2).find
        session.sid = none := by
      rw [dropExpired, List.foldl_cons, revokeSession_find dated, if_pos rfl]
      dsimp only
      rw [if_pos passed, List.foldl_nil, Collection.find_deleteOne, if_pos rfl]
    change some (readSession platform secret header verifiedAt true
      (dropExpired [session.sid] now (revokeSession session rows).2)) = _
    rw [readSession_of_token signed carried, dated, dropped]
    have valid : ¬isPast (.finite seconds) verifiedAt = true := by
      intro past
      exact absurd (of_decide_eq_true past) (not_lt.mpr early)
    rw [if_neg valid]
    rfl

/-- A token of the session of `u1`, which expires at second 1000. -/
def sampleBody : String :=
  "eyJzdWIiOiJ1MSIsInVzZXJuYW1lIjoiYW5uIiwicm9" ++
    "sZSI6InVzZXIiLCJzaWQiOiIwMTIzNDU2Nzg5YWJjZG" ++
    "VmMDEyMzQ1Njc4OWFiY2RlZiIsImV4cCI6MTAwMH0"

def sampleSignature : String :=
  "fc762ae2bc6eabb9cd43a0fd636faa3b" ++ "c6303dbc38ec719b3aaf2f27bf0e6bbc"

def sampleToken : String := sampleBody ++ "." ++ sampleSignature

def sampleSession : SessionPayload :=
  ⟨"u1", "0123456789abcdef0123456789abcdef", .finite 1000,
    [("sub", .str "u1"), ("username", .str "ann"), ("role", .str "user"),
      ("sid", .str "0123456789abcdef0123456789abcdef"), ("exp", .ofNat 1000)]⟩

/-- The platform, as far as it is asked for the sample token. -/
def samplePlatform : Platform where
  hmacSha256Hex _ _ := sampleSignature
  atob _ := some (jsonStringify (.obj sampleSession.fields))
  decodeText _ := jsonStringify (.obj sampleSession.fields)
  decodeURIComponent _ := some sampleToken

def sampleCookie : Option String := some ("fb_session=" ++ sampleToken)

theorem sampleToken_length : jsLength sampleToken = 192 := by
  unfold sampleToken sampleBody sampleSignature
  repeat rw [jsLength_append]
  decide +kernel

theorem sample_signed : tokenSession samplePlatform "s" sampleToken = some sampleSession := by
  have short : ¬(sampleToken = "" ∨ 4096 < jsLength sampleToken) := by
    rw [sampleToken_length]
    rintro (empty | long)
    · have length := sampleToken_length
      rw [empty] at length
      exact absurd length (by decide +kernel)
    · omega
  have plain : sampleBody.toList ≠ [] ∧ '.' ∉ sampleBody.toList := by
    unfold sampleBody
    repeat rw [String.toList_append]
    decide +kernel
  have carried : (Json.obj sampleSession.fields).Carried := by
    refine ⟨by decide +kernel, trivial, trivial, trivial, trivial, ?_, trivial⟩
    exact ⟨isDecimal_natCast 1000, by decide +kernel⟩
  rw [tokenSession, if_neg short, sampleToken, openToken_append _ plain.1 plain.2]
  change (if timingSafeEqualHex sampleSignature sampleSignature = false then none else _).bind _ = _
  rw [timingSafeEqualHex_self, readPayload, base64UrlDecode, base64ToBytes]
  dsimp only [samplePlatform, Option.map_some, Option.bind_some]
  rw [jsonParse_jsonStringify carried]
  rfl

theorem sample_carried : readCookie samplePlatform sampleCookie SESSION_COOKIE = sampleToken := by
  have header : sampleCookie = some (SESSION_COOKIE ++ "=" ++ sampleToken) := rfl
  rw [header, readCookie_single]
  · rfl
  · decide +kernel
  · decide +kernel
  · unfold sampleToken sampleBody sampleSignature
    repeat rw [String.toList_append]
    decide +kernel
  · decide +kernel

theorem revoked_session_refused_sample :
    (∀ e ∈ Machine.trace (sessionStep samplePlatform "s") (revokeSession sampleSession .empty).2
        [.cleanup [sampleSession.sid] 1000000, .read sampleCookie 1000001 true 1000002],
      Presents samplePlatform sampleToken e.action → Refused e.action e.reply) ∧
    (sessionStep samplePlatform "s"
      (Machine.run (sessionStep samplePlatform "s") (revokeSession sampleSession .empty).2
        [.cleanup [sampleSession.sid] 1000000]) (.read sampleCookie 1000000 true 1000000)).2 =
      some (.ok (some sampleSession)) := by
  have refused := revoked_session_refused sample_signed rfl .empty 0
  refine ⟨refused.1 _ (by decide +kernel) ?_ ?_, ?_⟩
  · intro other now mem
    simp at mem
  · intro action mem
    cases mem with
    | head => exact fun _ => trivial
    | tail _ mem =>
        rw [List.mem_singleton.mp mem]
        intro _ late
        exact absurd late.1 (by norm_num)
  · apply refused.2
    · exact sample_carried
    · exact not_not.mpr ⟨by norm_num, by decide +kernel⟩

/-- At its last valid millisecond the token passes, and the row may be gone. -/
theorem revoked_session_read :
    tokenSession samplePlatform "s" sampleToken = some sampleSession ∧
      readCookie samplePlatform sampleCookie SESSION_COOKIE = sampleToken ∧
      (sessionStep samplePlatform "s"
        (Machine.run (sessionStep samplePlatform "s") (revokeSession sampleSession .empty).2
          [.cleanup [sampleSession.sid] 1000000]) (.read sampleCookie 1000000 true 1000000)).2 =
        some (.ok (some sampleSession)) := by
  refine ⟨sample_signed, sample_carried, ?_⟩
  change some (readSession samplePlatform "s" sampleCookie 1000000 true
    (dropExpired [sampleSession.sid] 1000000 (revokeSession sampleSession .empty).2)) = _
  rw [readSession_of_token sample_signed sample_carried]
  have dropped : (dropExpired [sampleSession.sid] 1000000 (revokeSession sampleSession .empty).2).find
      sampleSession.sid = none := by
    decide +kernel
  have valid : isPast sampleSession.exp 1000000 = false := by decide +kernel
  rw [dropped, valid]
  rfl

end Revoked

end Gateway
