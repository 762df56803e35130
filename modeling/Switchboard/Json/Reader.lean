import Switchboard.Json.Token
/-!
# Reading JSON texts

A reader takes one token after the other. It keeps the unfinished arrays and objects on a stack,
innermost first, and knows what may come next. Nesting is bounded.
-/
namespace Switchboard.Json

/-- An unfinished array or object; what it holds so far is kept in reverse. -/
inductive Frame where
  | array (items : List Json)
  | object (members : List (String × Json))
  /-- an object that waits for the value of a key -/
  | keyed (members : List (String × Json)) (key : String)

/-- What a reader waits for. -/
inductive Awaited where
  | value
  /-- a value, or the end of an array that has none -/
  | firstItem
  /-- a key, or the end of an object that has none -/
  | firstKey
  | key
  | colon
  /-- a comma, or the end of the array or object -/
  | separator
  /-- nothing: the value is complete -/
  | nothing (v : Json)

/-- A reader in the middle of a text. -/
structure Reader where
  stack : List Frame := []
  awaited : Awaited := .value

/-- How many arrays and objects may be open at once. -/
def depthLimit : Nat := 127

namespace Reader

/-- Takes a complete value. -/
def put (stack : List Frame) (v : Json) : Option Reader :=
  match stack with
  | [] => some ⟨[], .nothing v⟩
  | .array items :: outer => some ⟨.array (v :: items) :: outer, .separator⟩
  | .keyed members key :: outer => some ⟨.object ((key, v) :: members) :: outer, .separator⟩
  | .object _ :: _ => none

/-- Opens an array or object. -/
def push (stack : List Frame) (frame : Frame) (awaited : Awaited) : Option Reader :=
  if stack.length < depthLimit then some ⟨frame :: stack, awaited⟩ else none

/-- Takes the first token of a value. -/
def beginValue (stack : List Frame) : Token → Option Reader
  | .atom v => put stack v
  | .text s => put stack (.string s)
  | .openArray => push stack (.array []) .firstItem
  | .openObject => push stack (.object []) .firstKey
  | .closeArray | .closeObject | .comma | .colon => none

/-- Ends the innermost array. -/
def endArray : List Frame → Option Reader
  | .array items :: outer => put outer (.array items.reverse)
  | _ => none

/-- Ends the innermost object. -/
def endObject : List Frame → Option Reader
  | .object members :: outer => put outer (.object members.reverse)
  | _ => none

/-- Takes a key of the innermost object. -/
def beginMember (stack : List Frame) (key : String) : Option Reader :=
  match stack with
  | .object members :: outer => some ⟨.keyed members key :: outer, .colon⟩
  | _ => none

/-- Takes one more token. -/
def feed (r : Reader) (token : Token) : Option Reader :=
  match r.awaited, token with
  | .value, t => beginValue r.stack t
  | .firstItem, .closeArray => endArray r.stack
  | .firstItem, t => beginValue r.stack t
  | .firstKey, .closeObject => endObject r.stack
  | .firstKey, .text key => beginMember r.stack key
  | .key, .text key => beginMember r.stack key
  | .colon, .colon => some { r with awaited := .value }
  | .separator, .comma =>
    match r.stack with
    | .array _ :: _ => some { r with awaited := .value }
    | .object _ :: _ => some { r with awaited := .key }
    | _ => none
  | .separator, .closeArray => endArray r.stack
  | .separator, .closeObject => endObject r.stack
  | _, _ => none

/-- Takes tokens in order. -/
def feedAll (r : Reader) (tokens : List Token) : Option Reader := tokens.foldlM feed r

/-- The value, once it is complete. -/
def result? (r : Reader) : Option Json :=
  match r.awaited with
  | .nothing v => some v
  | _ => none

end Reader

/-- Takes one more character of a text. -/
def feedChar (state : Scanner × Reader) (c : Char) : Option (Scanner × Reader) := do
  let (scanner, tokens) ← state.1.feed c
  return (scanner, ← state.2.feedAll tokens)

/-- The value that a text denotes. -/
def read? (s : String) : Option Json := do
  let (scanner, reader) ← s.toList.foldlM feedChar (.between, {})
  (← reader.feedAll (← scanner.finish)).result?

end Switchboard.Json
