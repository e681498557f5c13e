import Gateway.Util.JsonText

/-!
Addresses and address ranges.

An address is its bytes, 4 or 16 of them. The parser is strict: no octets with
leading zeros, one `::` at most, and an embedded IPv4 address only at the end.
-/

namespace Gateway

section Addresses

def decimalValue (digits : List Char) : Nat :=
  digits.foldl (fun n c => 10 * n + (c.toNat - '0'.toNat)) 0

/-- The value of one to four hexadecimal digits. -/
def parseHexGroup (group : List Char) : Option Nat :=
  if group = [] ∨ 4 < group.length then none
  else (group.mapM hexValue).map fun digits => digits.foldl (fun n d => 16 * n + d) 0

def parseOctet (part : List Char) : Option Nat :=
  if part = [] ∨ 3 < part.length then none
  else if 1 < part.length ∧ part.head? = some '0' then none
  else if part.all Char.isDigit = false then none
  else if 255 < decimalValue part then none
  else some (decimalValue part)

def parseIpv4 (value : List Char) : Option (List Nat) :=
  if (value.splitOn '.').length = 4 then (value.splitOn '.').mapM parseOctet else none

/-- The bytes of the groups, after those that are there. -/
def emitGroups : List (List Char) → List Nat → Option (List Nat)
  | [], out => some out
  | group :: groups, out =>
      if '.' ∈ group then
        if groups = [] then
          match parseIpv4 group with
          | none => none
          | some v4 => if 16 < out.length + 4 then none else some (out ++ v4)
        else none
      else
        match parseHexGroup group with
        | none => none
        | some n =>
            if 16 < out.length + 2 then none else emitGroups groups (out ++ [n / 256, n % 256])

/-- What stands before and after the first `::`. -/
def splitDoubleColon : List Char → Option (List Char × List Char)
  | ':' :: ':' :: after => some ([], after)
  | c :: rest => (splitDoubleColon rest).map fun (before, after) => (c :: before, after)
  | [] => none

def colonGroups (text : List Char) : List (List Char) := if text = [] then [] else text.splitOn ':'

def parseIpv6 (value : List Char) : Option (List Nat) :=
  let text := if value.head? = some '[' ∧ value.getLast? = some ']' then (value.drop 1).dropLast
    else value
  let text := text.takeWhile (· ≠ '%')
  if ':' ∉ text ∨ 45 < jsLength (String.ofList text) then none
  else
    match splitDoubleColon text with
    | none =>
        match emitGroups (text.splitOn ':') [] with
        | none => none
        | some bytes => if bytes.length = 16 then some bytes else none
    | some (before, after) =>
        if (splitDoubleColon (':' :: after)).isSome then none
        else
          match emitGroups (colonGroups before) [], emitGroups (colonGroups after) [] with
          | some head, some tail =>
              if 14 < head.length + tail.length then none
              else some (head ++ List.replicate (16 - head.length - tail.length) 0 ++ tail)
          | _, _ => none

/-- An IPv4 address that is mapped into IPv6 is that IPv4 address. -/
def ipToBytes (ip : String) : Option (List Nat) :=
  let value := jsTrim ip
  if value = "" ∨ 64 < jsLength value then none
  else
    match parseIpv4 value.toList with
    | some v4 => some v4
    | none =>
        match parseIpv6 value.toList with
        | none => none
        | some v6 =>
            if v6.take 12 = List.replicate 10 0 ++ [255, 255] then some (v6.drop 12) else some v6

end Addresses

section Ranges

structure ParsedCidr where
  bytes : List Nat
  bits : Nat
deriving DecidableEq

def parseCidr (cidr : String) : Option ParsedCidr :=
  let value := (jsTrim cidr).toList
  if '/' ∉ value then
    (ipToBytes (String.ofList value)).map fun bytes => ⟨bytes, bytes.length * 8⟩
  else
    -- the mask is what stands after the last slash
    let suffix := (value.reverse.takeWhile (· ≠ '/')).reverse
    let base := (value.reverse.dropWhile (· ≠ '/')).tail.reverse
    match ipToBytes (String.ofList base) with
    | none => none
    | some bytes =>
        if suffix = [] ∨ 3 < suffix.length then none
        else if suffix.all Char.isDigit = false then none
        else if bytes.length * 8 < decimalValue suffix then none
        else some ⟨bytes, decimalValue suffix⟩

def cidrContains (cidr ip : String) : Bool :=
  match parseCidr cidr, ipToBytes ip with
  | some rule, some target =>
      if target.length ≠ rule.bytes.length then false
      else
        let fullBytes := rule.bits / 8
        let remaining := rule.bits % 8
        let mask := (0xff <<< (8 - remaining)) &&& 0xff
        (target.take fullBytes == rule.bytes.take fullBytes) &&
          (remaining == 0 ||
            (target.getD fullBytes 0 &&& mask) == (rule.bytes.getD fullBytes 0 &&& mask))
  | _, _ => false

def matchesAnyCidr (cidrs : List String) (ip : String) : Bool := cidrs.any (cidrContains · ip)

example : cidrContains "10.0.0.0/8" "::ffff:10.1.2.3" = true := by decide +kernel

example : ipToBytes "010.0.0.1" = none := by decide +kernel

end Ranges

end Gateway
