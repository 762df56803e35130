import Switchboard.Json.Number
/-!
# Tokens of JSON texts

A scanner takes one character after the other. It stands between two tokens or inside one, and
gives out each token when it is complete.
-/
namespace Switchboard.Json

/-- A token: a bracket, a separator, a text, or a value without parts. -/
inductive Token where
  | openArray
  | closeArray
  | openObject
  | closeObject
  | comma
  | colon
  | text (s : String)
  | atom (v : Json)

/-- Where the scanner stands. Characters of an unfinished token are kept in reverse. -/
inductive Scanner where
  | between
  | word (letters : List Char)
  | number (chars : List Char)
  | text (chars : List Char)
  /-- after a backslash -/
  | escape (chars : List Char)
  /-- inside the four digits of a unit, after the first half of a pair where `lead` is given -/
  | unit (chars : List Char) (lead : Option Nat) (left value : Nat)
  /-- before the backslash of the second half of a pair -/
  | pairBackslash (chars : List Char) (lead : Nat)
  /-- before the letter of the second half of a pair -/
  | pairLetter (chars : List Char) (lead : Nat)

/-- Blanks between tokens. -/
def isSpace (c : Char) : Bool := c = ' ' || c = '\n' || c = '\t' || c = '\r'

/-- Characters that a number may consist of. -/
def isNumeric (c : Char) : Bool :=
  c.isDigit || c = '-' || c = '+' || c = '.' || c = 'e' || c = 'E'

/-- The value of a hexadecimal digit. -/
def hexValue? (c : Char) : Option Nat :=
  if '0' ≤ c && c ≤ '9' then some (c.toNat - '0'.toNat)
  else if 'a' ≤ c && c ≤ 'f' then some (c.toNat - 'a'.toNat + 10)
  else if 'A' ≤ c && c ≤ 'F' then some (c.toNat - 'A'.toNat + 10)
  else none

/-- The value of a word. -/
def ofWord? (letters : List Char) : Option Json :=
  if letters = "null".toList then some .null
  else if letters = "true".toList then some (.bool true)
  else if letters = "false".toList then some (.bool false)
  else none

/-- The token of a punctuation mark. -/
def ofMark? (c : Char) : Option Token :=
  if c = '[' then some .openArray
  else if c = ']' then some .closeArray
  else if c = '\x7b' then some .openObject
  else if c = '\x7d' then some .closeObject
  else if c = ',' then some .comma
  else if c = ':' then some .colon
  else none

/-- The character that a letter stands for after a backslash. -/
def unescape? (c : Char) : Option Char :=
  if c = '"' then some '"'
  else if c = '\\' then some '\\'
  else if c = '/' then some '/'
  else if c = 'b' then some '\x08'
  else if c = 'f' then some '\x0c'
  else if c = 'n' then some '\n'
  else if c = 'r' then some '\r'
  else if c = 't' then some '\t'
  else none

namespace Scanner

/-- Begins at a character that no unfinished token claims. -/
def start (c : Char) : Option (Scanner × List Token) :=
  if isSpace c then some (between, [])
  else if c = '"' then some (text [], [])
  else if c.isDigit || c = '-' then some (number [c], [])
  else if c.isLower then some (word [c], [])
  else (ofMark? c).map fun token => (between, [token])

/-- The end of the four digits of a unit: a character, or the first half of a pair. -/
def finishUnit (chars : List Char) (lead : Option Nat) (value : Nat) : Option Scanner :=
  match lead with
  | some first =>
    if 0xDC00 ≤ value && value ≤ 0xDFFF then
      some (text (Char.ofNat ((first - 0xD800) * 0x400 + (value - 0xDC00) + 0x10000) :: chars))
    else none
  | none =>
    if 0xD800 ≤ value && value ≤ 0xDBFF then some (pairBackslash chars value)
    else if 0xDC00 ≤ value && value ≤ 0xDFFF then none
    else some (text (Char.ofNat value :: chars))

/-- Takes one more character; the tokens are those that it completes. -/
def feed (s : Scanner) (c : Char) : Option (Scanner × List Token) :=
  match s with
  | between => start c
  | word letters =>
    if c.isLower then some (word (c :: letters), [])
    else do
      let v ← ofWord? letters.reverse
      let (next, tokens) ← start c
      return (next, .atom v :: tokens)
  | number chars =>
    if isNumeric c then some (number (c :: chars), [])
    else do
      let n ← JsonNumber.read? chars.reverse
      let (next, tokens) ← start c
      return (next, .atom (.number n) :: tokens)
  | text chars =>
    if c = '"' then some (between, [.text (String.ofList chars.reverse)])
    else if c = '\\' then some (escape chars, [])
    else if c < ' ' then none
    else some (text (c :: chars), [])
  | escape chars =>
    if c = 'u' then some (unit chars none 4 0, [])
    else (unescape? c).map fun e => (text (e :: chars), [])
  | unit chars lead left value => do
    let grown := value * 16 + (← hexValue? c)
    if left ≤ 1 then (finishUnit chars lead grown).map fun next => (next, [])
    else return (unit chars lead (left - 1) grown, [])
  | pairBackslash chars lead => if c = '\\' then some (pairLetter chars lead, []) else none
  | pairLetter chars lead => if c = 'u' then some (unit chars (some lead) 4 0, []) else none

/-- The tokens that the end of a text completes. -/
def finish : Scanner → Option (List Token)
  | between => some []
  | word letters => (ofWord? letters.reverse).map fun v => [.atom v]
  | number chars => (JsonNumber.read? chars.reverse).map fun n => [.atom (.number n)]
  | text _ | escape _ | unit .. | pairBackslash .. | pairLetter .. => none

end Scanner
end Switchboard.Json
