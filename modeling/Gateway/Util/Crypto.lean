import Gateway.Util.Utf16

/-!
Signed tokens.

The keyed hash, `atob` and the text decoder are the platform's. Everything else
about a token is decided here: where its parts end, that the signature is the one
of the body, and when it is too old.
-/

namespace Gateway

/-- What the platform provides. A call that throws answers nothing. -/
structure Platform where
  hmacSha256Hex : String → String → String
  atob : String → Option String
  decodeText : List Nat → String
  decodeURIComponent : String → Option String

/-- All units are compared, also after the first difference; one that is not there counts as
zero. -/
def timingSafeEqualHex (a b : String) : Bool :=
  let xs := Units.ofString a
  let ys := Units.ofString b
  (List.zipWithAll (fun x y => x.elim 0 UInt16.toNat ^^^ y.elim 0 UInt16.toNat) xs ys).foldl
    (· ||| ·) (xs.length ^^^ ys.length) == 0

/-- Two digits for each byte. -/
def bytesToHex (bytes : List UInt8) : String :=
  String.ofList (bytes.flatMap fun b =>
    [Nat.digitChar (b.toNat / 16), Nat.digitChar (b.toNat % 16)])

theorem jsTrim_bytesToHex (bytes : List UInt8) : jsTrim (bytesToHex bytes) = bytesToHex bytes := by
  have digits : ∀ n : Fin 16, isJsSpace (Nat.digitChar n) = false := by decide
  refine jsTrim_of_no_space fun c mem => ?_
  obtain ⟨b, -, digit⟩ := List.mem_flatMap.mp mem
  have high : b.toNat / 16 < 16 := by
    have byte := b.toNat_lt
    omega
  rw [List.mem_pair] at digit
  cases digit with
  | inl first => exact first ▸ digits ⟨_, high⟩
  | inr second => exact second ▸ digits ⟨_, Nat.mod_lt _ (by omega)⟩

section Token

variable (platform : Platform)

def base64ToBytes (b64 : String) : Option (List Nat) :=
  (platform.atob b64).map fun binary => (Units.ofString binary).map UInt16.toNat

def base64UrlDecode (value : String) : Option (List Nat) :=
  let replaced := value.toList.map fun c => if c = '-' then '+' else if c = '_' then '/' else c
  let pad :=
    if replaced.length % 4 = 0 then [] else List.replicate (4 - replaced.length % 4) '='
  base64ToBytes platform (String.ofList (replaced ++ pad))

/-- The payload in the body of a token, and its `exp`, which nothing but an object has. -/
def readPayload (body : String) : Option (Record × JsNumber) :=
  match (base64UrlDecode platform body).bind fun bytes =>
      jsonParse (platform.decodeText bytes) with
  | some (.obj fields) =>
      match Record.field fields "exp" with
      | some (.num exp) => some (fields, exp)
      | _ => none
  | _ => none

/-- The payload of a token with a valid signature, whatever the time. -/
def openToken (token secret : String) : Option (Record × JsNumber) :=
  let body := token.toList.takeWhile (· ≠ '.')
  match body, token.toList.drop body.length with
  | [], _ => none
  | _, [] => none
  | body, _ :: sig =>
      let expected := platform.hmacSha256Hex secret (String.ofList body)
      if timingSafeEqualHex (String.ofList sig) expected = false then none
      else readPayload platform (String.ofList body)

/-- `exp * 1000 < Date.now()` -/
def isPast (exp : JsNumber) (now : Int) : Bool :=
  match exp with
  | .finite seconds => decide (seconds * 1000 < now)
  | .negInfinity => true
  | _ => false

def verifyToken (token secret : String) (now : Int) : Option (Record × JsNumber) :=
  (openToken platform token secret).filter fun payload => !isPast payload.2 now

/-- A token is taken apart at its first dot. -/
theorem openToken_append {body : String} (nonempty : body.toList ≠ []) (plain : '.' ∉ body.toList)
    (sig secret : String) :
    openToken platform (body ++ "." ++ sig) secret =
      if timingSafeEqualHex sig (platform.hmacSha256Hex secret body) = false then none
      else readPayload platform body := by
  have chars : (body ++ "." ++ sig).toList = body.toList ++ '.' :: sig.toList := by
    rw [String.toList_append, String.toList_append, List.append_assoc]
    rfl
  have first : (body.toList ++ '.' :: sig.toList).takeWhile (· ≠ '.') = body.toList := by
    rw [List.takeWhile_append_of_pos]
    · simp
    · intro c mem
      simpa using fun same : c = '.' => plain (same ▸ mem)
  rw [openToken, chars, first, List.drop_left]
  cases split : body.toList with
  | nil => exact absurd split nonempty
  | cons c cs =>
      dsimp only
      rw [← split, String.ofList_toList, String.ofList_toList]

end Token

theorem timingSafeEqualHex_self (a : String) : timingSafeEqualHex a a = true := by
  have same : ∀ xs : Units, (List.zipWithAll
      (fun x y : Option UInt16 => x.elim 0 UInt16.toNat ^^^ y.elim 0 UInt16.toNat) xs xs).foldl
        (· ||| ·) 0 = 0 := by
    intro xs
    induction xs with
    | nil => rfl
    | cons x xs ih =>
        rw [List.zipWithAll, List.foldl_cons]
        simpa using ih
  simp only [timingSafeEqualHex, Nat.xor_self, same, beq_self_eq_true]

theorem eq_of_xor_eq_zero {a b : Nat} (zero : a ^^^ b = 0) : a = b := by
  calc a = a ^^^ b ^^^ b := by rw [Nat.xor_assoc, Nat.xor_self, Nat.xor_zero]
    _ = b := by rw [zero, Nat.zero_xor]

theorem foldl_or_eq_zero {list : List Nat} {n : Nat} (zero : list.foldl (· ||| ·) n = 0) :
    n = 0 ∧ ∀ x ∈ list, x = 0 := by
  induction list generalizing n with
  | nil => exact ⟨zero, List.forall_mem_nil _⟩
  | cons x list ih =>
      obtain ⟨head, rest⟩ := ih zero
      obtain ⟨first, second⟩ := Nat.or_eq_zero_iff.mp head
      exact ⟨first, List.forall_mem_cons.mpr ⟨second, rest⟩⟩

/-- Only equal texts pass the comparison. -/
theorem eq_of_timingSafeEqualHex {a b : String} (equal : timingSafeEqualHex a b = true) :
    a = b := by
  have units : ∀ xs ys : Units, xs.length = ys.length →
      (∀ n ∈ List.zipWithAll (fun x y : Option UInt16 =>
        x.elim 0 UInt16.toNat ^^^ y.elim 0 UInt16.toNat) xs ys, n = 0) → xs = ys := by
    intro xs
    induction xs with
    | nil =>
        intro ys length _
        exact (List.length_eq_zero_iff.mp length.symm).symm
    | cons x xs ih =>
        intro ys length zero
        cases ys with
        | nil => cases length
        | cons y ys =>
            rw [List.zipWithAll, List.forall_mem_cons] at zero
            have head : x = y := UInt16.toNat_inj.mp (eq_of_xor_eq_zero zero.1)
            rw [head, ih ys (Nat.succ.inj length) zero.2]
  obtain ⟨length, zero⟩ := foldl_or_eq_zero (beq_iff_eq.mp equal)
  exact Units.ofString_inj (units _ _ (eq_of_xor_eq_zero length) zero)

end Gateway
