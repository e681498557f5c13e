import Gateway.Http.Errors
import Gateway.Util.Encoding

/-!
Secrets at rest.

A secret is encrypted under a key that is derived from the master secret and a version,
and stored as three texts. The cipher puts a tag of sixteen bytes behind what it
encrypts; which bytes are the tag is all that is known of its output here.
-/

namespace Gateway

/-- A platform with a cipher. `decrypt` answers nothing for what was not encrypted under
the key. -/
structure SealingPlatform extends Platform where
  sha256 : String → List UInt8
  encrypt : (key iv plaintext : List UInt8) → List UInt8
  decrypt : (key iv combined : List UInt8) → Option (List UInt8)

/-- What the cipher's interface documents. -/
structure SealingPlatform.Standard (platform : SealingPlatform) : Prop extends
    platform.toPlatform.Standard where
  decrypts : ∀ key iv plaintext,
    platform.decrypt key iv (platform.encrypt key iv plaintext) = some plaintext
  tagged : ∀ key iv plaintext, 16 ≤ (platform.encrypt key iv plaintext).length

structure SealedSecret where
  cipher : String
  iv : String
  authTag : String
  keyVersion : Nat
  fingerprint : String
deriving DecidableEq, Repr

section Sealing

variable (platform : SealingPlatform)

/-- The version is part of what is hashed. -/
def deriveMasterKey (master : String) (version : Nat) : Except Thrown (List UInt8) :=
  if master = "" then .error .fault
  else .ok (platform.sha256 ("fbapi:channel-key:v" ++ toString version ++ ":" ++ master))

def secretFingerprint (plaintext : String) : String :=
  String.ofList ((bytesToHex (platform.sha256 ("fp:" ++ plaintext))).toList.take 16)

/-- The twelve bytes of `iv` are drawn. -/
def sealSecret (iv : List UInt8) (plaintext master : String) (version : Nat) :
    Except Thrown SealedSecret := do
  let key ← deriveMasterKey platform master version
  let combined := platform.encrypt key iv (utf8 plaintext)
  let tagStart := combined.length - 16
  return ⟨bytesToBase64 (combined.take tagStart), bytesToBase64 iv,
    bytesToBase64 (combined.drop tagStart), version, secretFingerprint platform plaintext⟩

def readBytes (b64 : String) : Except Thrown (List UInt8) :=
  match base64ToBytes platform.toPlatform b64 with
  | none => .error .fault
  | some bytes => .ok (bytes.map UInt8.ofNat)

/-- The text of what was decrypted, if it could be. -/
def openedText (plain : Option (List UInt8)) : Except Thrown String :=
  match plain with
  | none => .error .fault
  | some plain => .ok (platform.decodeText (plain.map UInt8.toNat))

def openSecret (stored : SealedSecret) (master : String) : Except Thrown String := do
  let key ← deriveMasterKey platform master stored.keyVersion
  let cipher ← readBytes platform stored.cipher
  let tag ← readBytes platform stored.authTag
  let iv ← readBytes platform stored.iv
  openedText platform (platform.decrypt key iv (cipher ++ tag))

def rotateSecret (iv : List UInt8) (stored : SealedSecret) (oldMaster newMaster : String)
    (newVersion : Nat) : Except Thrown SealedSecret := do
  let plaintext ← openSecret platform stored oldMaster
  sealSecret platform iv plaintext newMaster newVersion

end Sealing

section RoundTrip

variable {platform : SealingPlatform}

theorem readBytes_bytesToBase64 (standard : platform.Standard) (bytes : List UInt8) :
    readBytes platform (bytesToBase64 bytes) = .ok bytes := by
  have back : (bytes.map UInt8.toNat).map UInt8.ofNat = bytes := by
    rw [List.map_map]
    exact List.map_id'' (fun _ => UInt8.ofNat_toNat) _
  rw [readBytes, base64ToBytes, bytesToBase64, standard.atob, String.toList_ofList,
    Base64.decode_encode, Option.map_some, Option.map_some, units_binaryString]
  exact congrArg Except.ok back

/-- A secret that is sealed can be opened, and is told by its fingerprint. -/
theorem exists_sealed (standard : platform.Standard) (iv : List UInt8) {plaintext master : String}
    (unmarked : plaintext.toList.head? ≠ some (Char.ofNat 0xFEFF)) (configured : master ≠ "")
    (version : Nat) :
    ∃ stored, sealSecret platform iv plaintext master version = .ok stored ∧
      stored.keyVersion = version ∧ stored.fingerprint = secretFingerprint platform plaintext ∧
      openSecret platform stored master = .ok plaintext := by
  have key : deriveMasterKey platform master version = .ok _ := if_neg configured
  refine ⟨_, by rw [sealSecret, key]; rfl, rfl, rfl, ?_⟩
  rw [openSecret, key]
  dsimp only
  rw [readBytes_bytesToBase64 standard, readBytes_bytesToBase64 standard,
    readBytes_bytesToBase64 standard]
  change openedText platform (platform.decrypt _ iv (List.take _ _ ++ List.drop _ _)) = _
  rw [List.take_append_drop, standard.decrypts, openedText, standard.decodeText plaintext unmarked]

/-- Rotation keeps what a secret opens as, under the new master and the new version. -/
theorem exists_rotated (standard : platform.Standard) (iv : List UInt8) {stored : SealedSecret}
    {plaintext oldMaster newMaster : String}
    (opens : openSecret platform stored oldMaster = .ok plaintext)
    (unmarked : plaintext.toList.head? ≠ some (Char.ofNat 0xFEFF)) (configured : newMaster ≠ "")
    (newVersion : Nat) :
    ∃ rotated, rotateSecret platform iv stored oldMaster newMaster newVersion = .ok rotated ∧
      rotated.keyVersion = newVersion ∧ openSecret platform rotated newMaster = .ok plaintext := by
  obtain ⟨rotated, stored', version, -, opens'⟩ :=
    exists_sealed standard iv unmarked configured newVersion
  refine ⟨rotated, ?_, version, opens'⟩
  rw [rotateSecret, opens]
  exact stored'

/-- A cipher that hides nothing and tags with zeroes. -/
def standardSealing : SealingPlatform where
  toPlatform := standardPlatform
  sha256 := utf8
  encrypt _ _ plaintext := plaintext ++ List.replicate 16 0
  decrypt _ _ combined := some (combined.take (combined.length - 16))

theorem standardSealing_standard : standardSealing.Standard where
  toStandard := standardPlatform_standard
  decrypts _ _ plaintext := by simp [standardSealing]
  tagged _ _ plaintext := by simp [standardSealing]

end RoundTrip

end Gateway
