import Switchboard.Json
/-!
# Writing JSON texts

The text of a value without blanks. A double is written out in full, with a point, so that
reading it back gives the same double and never an integer.
-/
namespace Switchboard.Json

/-- A character of a text between quotes. -/
def escapeChar (c : Char) : List Char :=
  if c = '"' then ['\\', '"']
  else if c = '\\' then ['\\', '\\']
  else if c < ' ' then
    let digits := Nat.toDigits 16 c.toNat
    ['\\', 'u'] ++ List.replicate (4 - digits.length) '0' ++ digits
  else [c]

/-- A text in quotes. -/
def renderText (s : String) : String :=
  String.ofList ('"' :: s.toList.flatMap escapeChar ++ ['"'])

/-- The number `n / 10 ^ places`, with a point. -/
def renderFixed (n places : Nat) : String :=
  let unit := Nat.pow 10 places
  let decimals := (Nat.toDigits 10 (unit + n % unit)).drop 1
  let kept := (decimals.reverse.dropWhile (· = '0')).reverse
  toString (n / unit) ++ "." ++ (if kept = [] then "0" else String.ofList kept)

/-- How many fractions a double can have. -/
def fractions : Nat := Nat.pow 2 52

/-- How many exponents a double can have. -/
def exponents : Nat := Nat.pow 2 11

/-- A finite double in full: a significand times a power of two, which ends in decimals too. -/
def renderDouble (x : Float) : String :=
  let bits := x.toBits.toNat
  let sign := if bits < exponents * fractions then "" else "-"
  let biased := bits / fractions % exponents
  let fraction := bits % fractions
  let significand := if biased = 0 then fraction else fractions + fraction
  let exponent : Int := (max biased 1 : Nat) - 1075
  if 0 ≤ exponent then sign ++ renderFixed (significand * Nat.pow 2 exponent.toNat) 0
  else
    let places := (-exponent).toNat
    sign ++ renderFixed (significand * Nat.pow 5 places) places

/-- A number. -/
def renderNumber : JsonNumber → String
  | .natural n => toString n.toNat
  | .negative n => toString n.toInt
  | .real x => renderDouble x

mutual

/-- The text of a value. -/
def render : Json → String
  | null => "null"
  | bool b => if b then "true" else "false"
  | number n => renderNumber n
  | string s => renderText s
  | array items => "[" ++ String.intercalate "," (renderItems items) ++ "]"
  | object members => "\x7b" ++ String.intercalate "," (renderMembers members) ++ "\x7d"

/-- The texts of items. -/
def renderItems : List Json → List String
  | [] => []
  | item :: items => item.render :: renderItems items

/-- The texts of members. -/
def renderMembers : List (String × Json) → List String
  | [] => []
  | (key, value) :: members => (renderText key ++ ":" ++ value.render) :: renderMembers members

end

end Switchboard.Json
