import Gateway.Lib.Arrangement
import Gateway.Transform.Linkage
import Gateway.Util.JsonRoundTrip

/-!
What a conversation says, told alike from a request of each dialect.

Text is told character by character, since some conversions join the parts of a
turn. An image is told by its address, inline data included, and the arguments of
a call by the value that their text stands for.
-/

namespace Gateway

inductive Speaker where
  | user
  | assistant
deriving DecidableEq, Repr

inductive Item where
  | text (speaker : Speaker) (c : Char)
  | image (speaker : Speaker) (url : String)
  | call (name : String) (arguments : Json)
  | result (value : Json)

def speakerOf (role : String) : Speaker :=
  if role = "assistant" ∨ role = "model" then .assistant else .user

def said (speaker : Speaker) (text : String) : List Item := text.toList.map (Item.text speaker)

def shown (speaker : Speaker) (url : String) : List Item :=
  if url = "" then [] else [.image speaker url]

def dataUrl (media data : String) : String := "data:" ++ media ++ ";base64," ++ data

/-- The text of a part of this type. -/
def textPart (raw : Json) : String :=
  let part := asRecord (some raw)
  if asString (part.field "type") = "text" then asString (part.field "text") else ""

/-- The text of a tool result, given as a string or as parts. -/
def resultText : Option Json → String
  | some (.str text) => text
  | content => String.join ((asArray content).map textPart)

/-- The value that the arguments of a call stand for; no text stands for none. -/
def givenArguments : Option Json → Json
  | some (.obj fields) => .obj fields
  | value =>
      let text := asString value
      if text = "" then .obj [] else (jsonParse text).getD (.str text)

section Openai

def openaiPartItems (speaker : Speaker) (raw : Json) : List Item :=
  let part := asRecord (some raw)
  match asString (part.field "type") with
  | "text" => said speaker (asString (part.field "text"))
  | "image_url" => shown speaker (asString ((asRecord (part.field "image_url")).field "url"))
  | _ => []

def openaiContentItems (speaker : Speaker) : Option Json → List Item
  | some (.str text) => said speaker text
  | content => (asArray content).flatMap (openaiPartItems speaker)

def callArguments (call : Json) : Option Json :=
  (asRecord ((asRecord (some call)).field "function")).field "arguments"

def callItem (call : Json) : Item := .call (callName call) (givenArguments (callArguments call))

/-- The items of a message; `read` is the value that the text of a result stands for. -/
def openaiMessageItems (read : String → Json) (raw : Json) : List Item :=
  if roleOf raw ∈ toolRoles then [.result (read (resultText (contentOf raw)))]
  else if roleOf raw = "user" ∨ roleOf raw = "assistant" then
    openaiContentItems (speakerOf (roleOf raw)) (contentOf raw) ++ (callsOf raw).map callItem
  else []

def openaiItems (read : String → Json) (body : Record) : List Item :=
  (messagesOf body).flatMap (openaiMessageItems read)

end Openai

section Anthropic

/-- The address of an image, where it has one that other dialects know. -/
def sourceUrl (source : Record) : String :=
  match asString (source.field "type") with
  | "base64" =>
      dataUrl (asString (source.field "media_type")) (asString (source.field "data"))
  | "url" => asString (source.field "url")
  | _ => ""

def anthropicBlockItems (role : String) (raw : Json) : List Item :=
  let block := asRecord (some raw)
  match asString (block.field "type") with
  | "text" => said (speakerOf role) (asString (block.field "text"))
  | "image" => shown (speakerOf role) (sourceUrl (asRecord (block.field "source")))
  | "tool_use" =>
      if role = "assistant" then
        [.call (asString (block.field "name")) (orEmptyObject (block.field "input"))]
      else []
  | "tool_result" => [.result (.str (resultText (block.field "content")))]
  | _ => []

def anthropicTurnItems (raw : Json) : List Item :=
  match contentOf raw with
  | some (.str text) => said (speakerOf (roleOf raw)) text
  | content => (asArray content).flatMap (anthropicBlockItems (roleOf raw))

def anthropicItems (body : Record) : List Item := (messagesOf body).flatMap anthropicTurnItems

end Anthropic

section Gemini

/-- Inline data or a file, if it is of a media type that shows an image. -/
def geminiMediaItems (shows : String → Bool) (speaker : Speaker) (part : Record) : List Item :=
  let inline := asRecord (part.field "inlineData")
  let file := asRecord (part.field "fileData")
  (if part.has "inlineData" ∧ shows (asString (inline.field "mimeType")) = true then
    shown speaker (dataUrl (asString (inline.field "mimeType")) (asString (inline.field "data")))
  else []) ++
  (if shows (asString (file.field "mimeType")) = true then
    shown speaker (asString (file.field "fileUri"))
  else [])

def geminiPartItems (shows : String → Bool) (role : String) (raw : Json) : List Item :=
  let part := asRecord (some raw)
  ((part.field "functionResponse").map fun response =>
    Item.result (orEmptyObject ((asRecord (some response)).field "response"))).toList ++
  ((partCall raw).map fun call =>
    if role = "model" then
      [Item.call (asString ((asRecord (some call)).field "name")) (callArgs call)]
    else []).getD [] ++
  said (speakerOf role) (partText raw) ++ geminiMediaItems shows (speakerOf role) part

def geminiContentItems (shows : String → Bool) (raw : Json) : List Item :=
  (asArray (partsOf raw)).flatMap (geminiPartItems shows (roleOf raw))

def geminiItems (shows : String → Bool) (body : Record) : List Item :=
  (contentsOf body).flatMap (geminiContentItems shows)

end Gemini

end Gateway
