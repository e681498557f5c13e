import Gateway.Lib.Base64
import Gateway.Util.Crypto
import Gateway.Util.JsonRoundTrip
import Mathlib.Data.Nat.Digits.Defs

/-!
Bytes as texts, and tokens as they are signed.

What is said of the platform is what its interfaces document: `atob` reads Base64, a
decoder of text undoes the encoder, a keyed hash is 64 hex digits.
-/

namespace Gateway

section Bytes

/-- `encoder.encode(text)` -/
def utf8 (text : String) : List UInt8 := text.toList.flatMap String.utf8EncodeChar

/-- One character for each byte. -/
def binaryString (bytes : List UInt8) : String :=
  String.ofList (bytes.map fun b => Char.ofNat b.toNat)

def bytesToBase64 (bytes : List UInt8) : String := String.ofList (Base64.encode bytes)

def base64UrlEncode (bytes : List UInt8) : String :=
  String.ofList (((Base64.encode bytes).map fun c =>
    if c = '+' then '-' else if c = '/' then '_' else c).rdropWhile (· == '='))

/-- What `encodeURIComponent` leaves alone. -/
def isUnreserved (c : Char) : Bool := c.isAlphanum || "-_.!~*'()".toList.contains c

def percentByte (b : UInt8) : List Char :=
  ['%', (Nat.digitChar (b.toNat / 16)).toUpper, (Nat.digitChar (b.toNat % 16)).toUpper]

def encodeURIComponent (text : String) : String :=
  String.ofList (text.toList.flatMap fun c =>
    if isUnreserved c then [c] else (String.utf8EncodeChar c).flatMap percentByte)

theorem encodeURIComponent_of_unreserved {text : String}
    (plain : ∀ c ∈ text.toList, isUnreserved c = true) : encodeURIComponent text = text := by
  have same : text.toList.flatMap (fun c =>
      if isUnreserved c then [c] else (String.utf8EncodeChar c).flatMap percentByte) =
        text.toList.flatMap fun c => [c] :=
    List.flatMap_congr fun c mem => if_pos (plain c mem)
  rw [encodeURIComponent, same, List.flatMap_singleton', String.ofList_toList]

theorem length_bytesToHex (bytes : List UInt8) :
    (bytesToHex bytes).toList.length = 2 * bytes.length := by
  rw [bytesToHex, String.toList_ofList]
  induction bytes with
  | nil => rfl
  | cons b bytes ih =>
      rw [List.flatMap_cons, List.length_append, ih]
      simp only [List.length_cons, List.length_nil]
      omega

theorem mem_bytesToHex {bytes : List UInt8} {c : Char} (mem : c ∈ (bytesToHex bytes).toList) :
    (c.isDigit || ('a' ≤ c && c ≤ 'f')) = true := by
  have digits : ∀ n : Fin 16, ((Nat.digitChar n).isDigit ||
      ('a' ≤ Nat.digitChar n && Nat.digitChar n ≤ 'f')) = true := by decide
  rw [bytesToHex, String.toList_ofList] at mem
  obtain ⟨b, -, digit⟩ := List.mem_flatMap.mp mem
  have byte := b.toNat_lt
  rw [List.mem_pair] at digit
  cases digit with
  | inl high => exact high ▸ digits ⟨_, by omega⟩
  | inr low => exact low ▸ digits ⟨_, by omega⟩

theorem jsLength_of_ascii {text : String} (plain : ∀ c ∈ text.toList, c.val.toNat < 128) :
    jsLength text = text.toList.length := by
  have units : ∀ cs : List Char, (∀ c ∈ cs, c.val.toNat < 128) →
      (cs.map jsWidth).sum = cs.length := by
    intro cs small
    induction cs with
    | nil => rfl
    | cons c cs ih =>
        obtain ⟨first, rest⟩ := List.forall_mem_cons.mp small
        rw [List.map_cons, List.sum_cons, ih rest, jsWidth, if_pos (by omega), List.length_cons,
          Nat.add_comm]
  exact units text.toList plain

theorem jsLength_bytesToHex (bytes : List UInt8) :
    jsLength (bytesToHex bytes) = 2 * bytes.length := by
  rw [jsLength_of_ascii, length_bytesToHex]
  intro c mem
  have digit := mem_bytesToHex mem
  have last : '9'.val.toNat < 128 ∧ 'f'.val.toNat < 128 := by decide
  unfold Char.isDigit at digit
  simp only [Bool.or_eq_true, Bool.and_eq_true, decide_eq_true_eq, Char.le_def,
    UInt32.le_iff_toNat_le] at digit
  omega

theorem ofChar_small {c : Char} (small : c.toNat < 256) :
    (Units.ofChar c).map UInt16.toNat = [c.toNat] := by
  rw [Units.ofChar, if_pos (by omega), List.map_singleton, UInt16.toNat_ofNat',
    Nat.mod_eq_of_lt (by omega)]

theorem units_binaryString (bytes : List UInt8) :
    (Units.ofString (binaryString bytes)).map UInt16.toNat = bytes.map UInt8.toNat := by
  have char : ∀ b : UInt8, (Char.ofNat b.toNat).toNat = b.toNat := by
    intro b
    have all : ∀ n : Fin 256, (Char.ofNat n).toNat = n.val := by decide +kernel
    exact all ⟨b.toNat, b.toNat_lt⟩
  rw [Units.ofString, binaryString, String.toList_ofList, List.map_flatMap]
  induction bytes with
  | nil => rfl
  | cons b bytes ih =>
      have small : (Char.ofNat b.toNat).toNat < 256 := (char b).symm ▸ b.toNat_lt
      rw [List.map_cons, List.flatMap_cons, ofChar_small small, char, ih]
      rfl

end Bytes

/-- What the platform's interfaces document. -/
structure Platform.Standard (platform : Platform) : Prop where
  atob : ∀ text, platform.atob text = (Base64.decode text.toList).map binaryString
  decodeText : ∀ text, text.toList.head? ≠ some (Char.ofNat 0xFEFF) →
    platform.decodeText ((utf8 text).map UInt8.toNat) = text
  decodeURIComponent : ∀ text, '%' ∉ text.toList → platform.decodeURIComponent text = some text
  hash_length : ∀ secret text, (platform.hmacSha256Hex secret text).toList.length = 64
  hash_digits : ∀ secret text, ∀ c ∈ (platform.hmacSha256Hex secret text).toList,
    c.isAlphanum = true

/-- The characters that bytes encode. -/
def utf8Decode (bytes : List Nat) : String :=
  String.ofList (((bytes.map UInt8.ofNat).toByteArray.utf8Decode?.getD #[]).toList)

theorem utf8Decode_utf8 (text : String) : utf8Decode ((utf8 text).map UInt8.toNat) = text := by
  have bytes : ((utf8 text).map UInt8.toNat).map UInt8.ofNat = utf8 text := by
    rw [List.map_map]
    exact List.map_id'' (fun _ => UInt8.ofNat_toNat) _
  rw [utf8Decode, bytes]
  change String.ofList ((text.toList.utf8Encode.utf8Decode?.getD #[]).toList) = text
  rw [List.utf8Decode?_utf8Encode, Option.getD_some, String.ofList_toList]

def blankHash : String := String.ofList (List.replicate 64 '0')

theorem toList_blankHash : blankHash.toList = List.replicate 64 '0' := String.toList_ofList

/-- A platform as documented, but for its hash. -/
def standardPlatform : Platform where
  hmacSha256Hex _ _ := blankHash
  atob text := (Base64.decode text.toList).map binaryString
  decodeText := utf8Decode
  decodeURIComponent := some

theorem standardPlatform_standard : standardPlatform.Standard where
  atob _ := rfl
  decodeText text _ := utf8Decode_utf8 text
  decodeURIComponent _ _ := rfl
  hash_length _ _ := toList_blankHash ▸ List.length_replicate
  hash_digits _ _ c mem := by
    have zero : c = '0' := List.eq_of_mem_replicate (toList_blankHash ▸ mem)
    rw [zero]
    decide

section Url

def urlDigit (n : Nat) : Char :=
  if Base64.digit n = '+' then '-' else if Base64.digit n = '/' then '_' else Base64.digit n

theorem urlDigit_spec {n : Nat} (small : n < 64) :
    isUnreserved (urlDigit n) = true ∧ urlDigit n ≠ '.' ∧ urlDigit n ≠ '=' ∧
      (if urlDigit n = '-' then '+' else if urlDigit n = '_' then '/' else urlDigit n) =
        Base64.digit n := by
  have all : ∀ n : Fin 64, isUnreserved (urlDigit n) = true ∧ urlDigit n ≠ '.' ∧
      urlDigit n ≠ '=' ∧
      (if urlDigit n = '-' then '+' else if urlDigit n = '_' then '/' else urlDigit n) =
        Base64.digit n := by
    decide +kernel
  exact all ⟨n, small⟩

theorem rdropWhile_append_replicate {α : Type} {p : α → Bool} {x : α} (dropped : p x = true)
    (list : List α) (n : Nat) : (list ++ List.replicate n x).rdropWhile p = list.rdropWhile p := by
  induction n with
  | zero => rw [List.replicate_zero, List.append_nil]
  | succ n ih =>
      rw [List.replicate_succ', ← List.append_assoc, List.rdropWhile_concat_pos _ _ _ dropped, ih]

theorem base64UrlEncode_eq (bytes : List UInt8) :
    base64UrlEncode bytes = String.ofList ((Base64.sextets bytes).map urlDigit) := by
  have padded : (Base64.encode bytes).map (fun c =>
      if c = '+' then '-' else if c = '/' then '_' else c) =
        (Base64.sextets bytes).map urlDigit ++ Base64.padding (Base64.digits bytes).length := by
    have filled : (Base64.padding (Base64.digits bytes).length).map (fun c =>
        if c = '+' then '-' else if c = '/' then '_' else c) =
          Base64.padding (Base64.digits bytes).length := by
      rw [Base64.padding]
      split
      · rfl
      · exact List.map_replicate
    rw [Base64.encode, List.map_append, filled, Base64.digits, List.map_map]
    rfl
  have solid : ((Base64.sextets bytes).map urlDigit).rdropWhile (· == '=') =
      (Base64.sextets bytes).map urlDigit := by
    refine List.rdropWhile_eq_self_iff.mpr fun nonempty => ?_
    obtain ⟨n, listed, last⟩ := List.mem_map.mp (List.getLast_mem nonempty)
    rw [← last, beq_iff_eq]
    exact (urlDigit_spec (Base64.sextets_lt bytes n listed)).2.2.1
  rw [base64UrlEncode, padded, Base64.padding]
  split
  · rw [List.append_nil, solid]
  · rw [rdropWhile_append_replicate rfl, solid]

theorem mem_base64UrlEncode {bytes : List UInt8} {c : Char}
    (mem : c ∈ (base64UrlEncode bytes).toList) : isUnreserved c = true ∧ c ≠ '.' := by
  rw [base64UrlEncode_eq, String.toList_ofList] at mem
  obtain ⟨n, listed, rfl⟩ := List.mem_map.mp mem
  have spec := urlDigit_spec (Base64.sextets_lt bytes n listed)
  exact ⟨spec.1, spec.2.1⟩

theorem base64UrlDecode_encode {platform : Platform} (standard : platform.Standard)
    (bytes : List UInt8) :
    base64UrlDecode platform (base64UrlEncode bytes) = some (bytes.map UInt8.toNat) := by
  have back : ((Base64.sextets bytes).map urlDigit).map (fun c =>
      if c = '-' then '+' else if c = '_' then '/' else c) = Base64.digits bytes := by
    rw [List.map_map]
    exact List.map_congr_left fun n listed =>
      (urlDigit_spec (Base64.sextets_lt bytes n listed)).2.2.2
  rw [base64UrlDecode, base64UrlEncode_eq, String.toList_ofList, back]
  change base64ToBytes platform (String.ofList (Base64.encode bytes)) = _
  rw [base64ToBytes, standard.atob, String.toList_ofList, Base64.decode_encode, Option.map_some,
    Option.map_some, units_binaryString]

end Url

section Signed

variable {platform : Platform}

def signToken (platform : Platform) (payload : Record) (secret : String) : String :=
  let body := base64UrlEncode (utf8 (jsonStringify (.obj payload)))
  body ++ "." ++ platform.hmacSha256Hex secret body

theorem utf8_ne_nil {text : String} (nonempty : text.toList ≠ []) : utf8 text ≠ [] := by
  intro empty
  cases chars : text.toList with
  | nil => exact nonempty chars
  | cons c cs =>
      rw [utf8, chars, List.flatMap_cons] at empty
      exact String.utf8EncodeChar_ne_nil (List.append_eq_nil_iff.mp empty).1

theorem jsonStringify_obj (payload : Record) :
    (jsonStringify (.obj payload)).toList = '{' :: (fieldsText payload ++ ['}']) := by
  rw [jsonStringify, String.toList_ofList, valueText]

theorem mem_signToken (standard : platform.Standard) {payload : Record} {secret : String} {c : Char}
    (mem : c ∈ (signToken platform payload secret).toList) : isUnreserved c = true := by
  rw [signToken, String.toList_append, String.toList_append, List.mem_append,
    List.mem_append] at mem
  rcases mem with (body | dot) | hash
  · exact (mem_base64UrlEncode body).1
  · rw [List.mem_singleton.mp dot]
    rfl
  · rw [isUnreserved, standard.hash_digits _ _ c hash, Bool.true_or]

/-- A signed payload is opened again under the same secret. -/
theorem openToken_signToken (standard : platform.Standard) {payload : Record}
    (carried : (Json.obj payload).Carried) (plain : (Json.obj payload).written = .obj payload)
    {exp : JsNumber} (dated : Record.field payload "exp" = some (.num exp)) (secret : String) :
    openToken platform (signToken platform payload secret) secret = some (payload, exp) := by
  have text := jsonStringify_obj payload
  have nonempty : (base64UrlEncode (utf8 (jsonStringify (.obj payload)))).toList ≠ [] := by
    rw [base64UrlEncode_eq, String.toList_ofList]
    refine fun empty => Base64.sextets_ne_nil (utf8_ne_nil ?_) (List.map_eq_nil_iff.mp empty)
    exact text ▸ List.cons_ne_nil _ _
  have unmarked : (jsonStringify (.obj payload)).toList.head? ≠ some (Char.ofNat 0xFEFF) := by
    rw [text, List.head?_cons]
    decide
  rw [signToken, openToken_append platform nonempty fun mem => (mem_base64UrlEncode mem).2 rfl,
    timingSafeEqualHex_self, if_neg (by decide), readPayload, base64UrlDecode_encode standard,
    Option.bind_some, standard.decodeText _ unmarked, jsonParse_jsonStringify carried, plain]
  dsimp only
  rw [dated]

end Signed

section Size

/-- The number of bytes of a text. -/
def byteCount (text : List Char) : Nat := (text.flatMap String.utf8EncodeChar).length

@[simp]
theorem byteCount_nil : byteCount [] = 0 := rfl

@[simp]
theorem byteCount_append (front back : List Char) :
    byteCount (front ++ back) = byteCount front + byteCount back := by
  rw [byteCount, List.flatMap_append, List.length_append, byteCount, byteCount]

@[simp]
theorem byteCount_cons (c : Char) (text : List Char) :
    byteCount (c :: text) = c.utf8Size + byteCount text := by
  rw [byteCount, List.flatMap_cons, List.length_append, String.length_utf8EncodeChar, byteCount]

theorem byteCount_escapeChar (c : Char) : byteCount (escapeChar c) ≤ 6 * jsWidth c := by
  by_cases small : c.toNat < 128
  · have all : ∀ n : Fin 128, byteCount (escapeChar (Char.ofNat n)) ≤ 6 * jsWidth (Char.ofNat n) := by
      decide +kernel
    have here := all ⟨c.toNat, small⟩
    dsimp only at here
    rwa [Char.ofNat_toNat] at here
  · have plain : escapeChar c = [c] := by
      have quotes : c ≠ '"' ∧ c ≠ '\\' := by
        constructor <;> (rintro rfl; exact small (by decide))
      rw [escapeChar, if_neg quotes.1, if_neg quotes.2, if_neg (by omega), if_neg (by omega),
        if_neg (by omega), if_neg (by omega), if_neg (by omega), if_neg (by omega)]
    have four := Char.utf8Size_le_four c
    rw [plain, byteCount_cons, byteCount_nil, jsWidth]
    split <;> omega

theorem byteCount_quote (text : String) : byteCount (quote text) ≤ 2 + 6 * jsLength text := by
  have inner : ∀ cs : List Char,
      byteCount (cs.flatMap escapeChar) ≤ 6 * (cs.map jsWidth).sum := by
    intro cs
    induction cs with
    | nil => exact Nat.zero_le _
    | cons c cs ih =>
        have head := byteCount_escapeChar c
        rw [List.flatMap_cons, byteCount_append, List.map_cons, List.sum_cons]
        omega
  have body := inner text.toList
  have sign : ('"' : Char).utf8Size = 1 := rfl
  have length : jsLength text = (text.toList.map jsWidth).sum := rfl
  rw [quote, byteCount_cons, byteCount_append, byteCount_cons, byteCount_nil, sign]
  omega

/-- A number of at most 21 digits is written as its digits. -/
theorem numberText_natCast {n : Nat} (bounded : n < 10 ^ 21) :
    numberText (n : ℚ) = Nat.toDigits 10 n := by
  cases n with
  | zero => rfl
  | succ n =>
      have positive : ((n + 1 : Nat) : ℚ) ≠ 0 := Nat.cast_ne_zero.mpr (Nat.succ_ne_zero n)
      have places : decimalPlaces 1 (Nat.log2 1 + 1) 0 = some 0 := by decide
      obtain ⟨zeroes, digits, point⟩ := toDigits_split 0 (n + 1)
      have length := Nat.toDigits_length 10 (n + 1) 21 (by omega) bounded
      have lengths := congrArg List.length digits
      rw [List.length_append, zeros, List.length_replicate] at lengths
      rw [numberText, if_neg positive, Rat.den_natCast, places]
      dsimp only
      rw [Rat.num_natCast, Int.natAbs_natCast, Nat.div_one, pow_zero, Nat.mul_one,
        if_neg (not_lt.mpr (Nat.cast_nonneg _)), List.nil_append, positiveText.eq_def,
        if_pos (by omega), digits]
      congr 2
      omega

theorem byteCount_number {n : Nat} (bounded : n < 10 ^ 21) :
    byteCount (numberText (n : ℚ)) ≤ 21 := by
  have count : ∀ cs : List Char, (∀ c ∈ cs, c.isDigit = true) → byteCount cs = cs.length := by
    intro cs digits
    induction cs with
    | nil => rfl
    | cons c cs ih =>
        obtain ⟨digit, rest⟩ := List.forall_mem_cons.mp digits
        have single : c.utf8Size = 1 := by
          have bounds := Char.isDigit_iff_toNat.mp digit
          refine Char.utf8Size_eq_one_iff.mpr (UInt32.le_iff_toNat_le.mpr ?_)
          have same : c.toNat = c.val.toNat := rfl
          have last : (127 : UInt32).toNat = 127 := rfl
          have nine : '9'.toNat = 57 := rfl
          omega
        rw [byteCount_cons, ih rest, single, List.length_cons, Nat.add_comm]
  rw [numberText_natCast bounded, count _ (areDigits_toDigits n)]
  exact Nat.toDigits_length 10 n 21 (by omega) bounded

end Size

end Gateway
