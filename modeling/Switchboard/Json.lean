/-!
# JSON values

Values of the data format JSON. Numbers keep whether they were written as integers of 64 bits.
An object keeps its members as they were written, also a repeated key; `settle` leaves one value
for every key, the last.
-/
namespace Switchboard

/-- A number: an integer of 64 bits where it fits, otherwise a double. -/
inductive JsonNumber where
  | natural (n : UInt64)
  | negative (n : Int64)
  | real (x : Float)

/-- A JSON value. -/
inductive Json where
  | null
  | bool (b : Bool)
  | number (n : JsonNumber)
  | string (s : String)
  | array (items : List Json)
  | object (members : List (String × Json))
deriving Inhabited

namespace Json

mutual

/-- The value with one member for every key of each object in it: the last that was written. -/
def settle : Json → Json
  | null => null
  | bool b => bool b
  | number n => number n
  | string s => string s
  | array items => array (settleItems items)
  | object members => object (settleMembers members)

/-- Settles every item. -/
def settleItems : List Json → List Json
  | [] => []
  | item :: items => item.settle :: settleItems items

/-- Settles every member that is the last of its key. -/
def settleMembers : List (String × Json) → List (String × Json)
  | [] => []
  | (key, value) :: members =>
    let later := settleMembers members
    if later.any (·.1 = key) then later else (key, value.settle) :: later

end

/-- The value of a key, if this is an object that has it. -/
def member? (v : Json) (key : String) : Option Json :=
  match v with
  | object members => members.lookup key
  | _ => none

/-- The text, if this is one. -/
def string? : Json → Option String
  | string s => some s
  | _ => none

/-- The number, if this is a natural number of 64 bits. -/
def natural? : Json → Option UInt64
  | number (.natural n) => some n
  | _ => none

/-- Whether this is an object. -/
def isObject : Json → Bool
  | object _ => true
  | _ => false

end Json
end Switchboard
