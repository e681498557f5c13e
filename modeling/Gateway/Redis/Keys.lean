import Mathlib.Init

/-!
The names of the keys in the coordination store.
-/

namespace Gateway

/-- What a character of a segment becomes; each half of a pair is replaced. -/
def segChar (c : Char) : List Char :=
  if c.isAlphanum || c == '_' || c == '.' || c == '-' || c == '*' then [c]
  else if c.val.toNat < 0x10000 then ['_']
  else ['_', '_']

def seg (value : String) : String := String.ofList ((value.toList.flatMap segChar).take 128)

def channelHealthKey (channelId : String) : String := "chhealth:" ++ seg channelId

/-- Sorted channel candidates for a group and a model. -/
def abilityKey (group model : String) : String := "ab:" ++ seg group ++ ":" ++ seg model

/-- A pin of a conversation to a channel. -/
def affinityKey (rule hash : String) : String := "aff:" ++ seg rule ++ ":" ++ seg hash

/-- Whether the addresses of a host are safe to call. -/
def ssrfVerdictKey (host : String) : String := "ssrf:" ++ seg host

end Gateway
