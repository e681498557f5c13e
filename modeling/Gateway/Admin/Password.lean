import Gateway.Admin.Accounts
import Gateway.Util.Encoding

/-!
Console passwords.

Only bits that are derived from a password are stored. The text that holds them says how
they were derived: the present form has a mark in front, the older one has none.
-/

namespace Gateway.Admin

def PBKDF2_ITERATIONS : Nat := 600000

def LEGACY_ITERATIONS : Nat := 210000

def HASH_PREFIX : String := "pbkdf2-sha256:600000:"

def SALT_BYTES : Nat := 16

def MIN_LENGTH : Nat := 10

def MAX_LENGTH : Nat := 512

structure PasswordRecord where
  passwordHash : String
  passwordSalt : String
deriving DecidableEq

/-- `/^[a-f0-9]{64}$/i` -/
def isDigest (text : String) : Bool :=
  text.toList.length == 64 &&
    text.toList.all fun c => c.isDigit || ('a' ≤ c && c ≤ 'f') || ('A' ≤ c && c ≤ 'F')

def assertPasswordAcceptable (password : Option Json) : Checked String :=
  match password with
  | some (.str text) =>
      if jsLength text < MIN_LENGTH then
        rejected "password must be at least 10 characters" "password"
      else if MAX_LENGTH < jsLength text then rejected "password is too long" "password"
      else .ok text
  | _ => rejected "password is required" "password"

def needsPasswordUpgrade (passwordHash : Option String) : Bool := isDigest (passwordHash.getD "")

/-- `pbkdf2` is the platform's derivation of 256 bits from the bytes of a password and of a
salt, with SHA-256. -/
abbrev Derivation := List UInt8 → List UInt8 → Nat → Vector UInt8 32

variable (pbkdf2 : Derivation)

def derive (password saltHex : String) (iterations : Nat) : String :=
  bytesToHex (pbkdf2 (utf8 password) (utf8 saltHex) iterations).toList

/-- The salt is drawn. -/
def hashPassword (password : String) (salt : Vector UInt8 SALT_BYTES) : Checked PasswordRecord := do
  let password ← assertPasswordAcceptable (some (.str password))
  let passwordSalt := bytesToHex salt.toList
  return ⟨HASH_PREFIX ++ derive pbkdf2 password passwordSalt PBKDF2_ITERATIONS, passwordSalt⟩

/-- The digest in a stored text of either form. -/
def storedDigest (passwordHash : Option String) : String :=
  match passwordHash with
  | none => ""
  | some hash =>
      if isDigest hash then hash
      else if startsWith hash HASH_PREFIX then
        String.ofList (hash.toList.drop HASH_PREFIX.toList.length)
      else ""

def verifyPassword (password : String) (passwordHash passwordSalt : Option String) : Bool :=
  if MAX_LENGTH < jsLength password then false
  else
    let legacy := needsPasswordUpgrade passwordHash
    let digest := storedDigest passwordHash
    let salt := passwordSalt.getD ""
    if isDigest digest = false ∨ salt = "" ∨ 128 < jsLength salt then false
    else
      timingSafeEqualHex
        (derive pbkdf2 password salt (if legacy then LEGACY_ITERATIONS else PBKDF2_ITERATIONS)) digest

section Hashed

variable {pbkdf2} {password : String} {salt : Vector UInt8 SALT_BYTES} {record : PasswordRecord}

theorem isDigest_bytesToHex (bytes : Vector UInt8 32) : isDigest (bytesToHex bytes.toList) = true := by
  rw [isDigest, length_bytesToHex, Vector.length_toList, Bool.and_eq_true]
  refine ⟨rfl, List.all_eq_true.mpr fun c mem => ?_⟩
  rw [mem_bytesToHex mem, Bool.true_or]

theorem hashPassword_ok (hashed : hashPassword pbkdf2 password salt = .ok record) :
    MIN_LENGTH ≤ jsLength password ∧ jsLength password ≤ MAX_LENGTH ∧
      record = ⟨HASH_PREFIX ++ derive pbkdf2 password (bytesToHex salt.toList) PBKDF2_ITERATIONS,
        bytesToHex salt.toList⟩ := by
  rw [hashPassword, assertPasswordAcceptable] at hashed
  dsimp only at hashed
  split at hashed
  · cases hashed
  next long =>
  split at hashed
  · cases hashed
  next short =>
  cases hashed
  exact ⟨not_lt.mp long, not_lt.mp short, rfl⟩

/-- A text with the mark in front is not of the older form. -/
theorem isDigest_marked (digest : String) : isDigest (HASH_PREFIX ++ digest) = false := by
  rw [Bool.eq_false_iff]
  intro plain
  rw [isDigest, Bool.and_eq_true, List.all_eq_true] at plain
  have first := plain.2 'p' (by
    rw [String.toList_append]
    exact List.mem_append_left _ (List.mem_of_elem_eq_true (by decide)))
  exact absurd first (by decide)

/-- What is stored for a password lets it pass, in the present form. -/
theorem verifyPassword_hashPassword (hashed : hashPassword pbkdf2 password salt = .ok record) :
    verifyPassword pbkdf2 password (some record.passwordHash) (some record.passwordSalt) = true ∧
      needsPasswordUpgrade (some record.passwordHash) = false := by
  obtain ⟨-, short, rfl⟩ := hashPassword_ok hashed
  have marked := isDigest_marked (derive pbkdf2 password (bytesToHex salt.toList) PBKDF2_ITERATIONS)
  have digest : storedDigest (some (HASH_PREFIX ++ derive pbkdf2 password (bytesToHex salt.toList)
      PBKDF2_ITERATIONS)) = derive pbkdf2 password (bytesToHex salt.toList) PBKDF2_ITERATIONS := by
    rw [storedDigest, marked, if_neg Bool.false_ne_true, if_pos, String.toList_append, List.drop_left,
      String.ofList_toList]
    rw [startsWith, List.isPrefixOf_iff_prefix, String.toList_append]
    exact List.prefix_append _ _
  have salted : jsLength (bytesToHex salt.toList) = 32 := by
    rw [jsLength_bytesToHex, Vector.length_toList]
    rfl
  have some_salt : bytesToHex salt.toList ≠ "" := by
    intro empty
    rw [empty] at salted
    exact absurd salted (by decide)
  refine ⟨?_, marked⟩
  rw [verifyPassword, if_neg (not_lt.mpr short)]
  dsimp only
  rw [digest, Option.getD_some, if_neg, needsPasswordUpgrade, Option.getD_some, marked,
    if_neg Bool.false_ne_true]
  · exact timingSafeEqualHex_self _
  · rintro (other | empty | long)
    · rw [derive, isDigest_bytesToHex] at other
      cases other
    · exact some_salt empty
    · omega

end Hashed

end Gateway.Admin
