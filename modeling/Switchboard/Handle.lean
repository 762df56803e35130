/-!
# Handles

A foreign host never holds a value, only a number that stands for it. Numbers are given out in
ascending order and never twice, so a number that was taken back stays dead.
-/
namespace Switchboard

/-- A number that stands for a value; zero stands for none. -/
structure Handle where
  raw : UInt64
  raw_ne_zero : raw ≠ 0
deriving DecidableEq

namespace Handle

/-- The handle with a given number; zero is no handle. -/
def ofRaw? (raw : UInt64) : Option Handle :=
  if h : raw = 0 then none else some ⟨raw, h⟩

@[simp] theorem ofRaw?_raw (h : Handle) : ofRaw? h.raw = some h := dif_neg h.raw_ne_zero

/-- The form `handle#7` used in every text that names a handle. -/
def text (h : Handle) : String := "handle#" ++ toString h.raw.toNat

end Handle

/-- Values under the handles that were given out for them, oldest first. -/
structure HandleRegistry (α : Type) where
  next : UInt64 := 1
  entries : List (Handle × α) := []

namespace HandleRegistry

variable {α : Type}

/-- A registry that has given out no handle yet. -/
def empty : HandleRegistry α := {}

/-- The handle that the next value gets. -/
def nextHandle (r : HandleRegistry α) : Handle :=
  if h : r.next = 0 then ⟨1, by decide⟩ else ⟨r.next, h⟩

/-- Keeps `value` under a new handle. -/
def insert (r : HandleRegistry α) (value : α) : Handle × HandleRegistry α :=
  let handle := r.nextHandle
  (handle, { next := r.next + 1
             entries := r.entries.filter (·.1 ≠ handle) ++ [(handle, value)] })

/-- The value under a handle. -/
def get? (r : HandleRegistry α) (handle : Handle) : Option α :=
  (r.entries.find? (·.1 = handle)).map (·.2)

/-- Whether a value is kept under the handle. -/
def contains (r : HandleRegistry α) (handle : Handle) : Bool := (r.get? handle).isSome

/-- Changes the value under a handle, if there is one. -/
def modify (r : HandleRegistry α) (handle : Handle) (f : α → α) : HandleRegistry α :=
  { r with entries := r.entries.map fun e => if e.1 = handle then (e.1, f e.2) else e }

/-- Forgets the handle. -/
def erase (r : HandleRegistry α) (handle : Handle) : HandleRegistry α :=
  { r with entries := r.entries.filter (·.1 ≠ handle) }

/-- Hands the value under a handle back and forgets the handle. -/
def take (r : HandleRegistry α) (handle : Handle) : Option α × HandleRegistry α :=
  (r.get? handle, r.erase handle)

/-- Drops the value under a handle; tells whether there was one. -/
def release (r : HandleRegistry α) (handle : Handle) : Bool × HandleRegistry α :=
  (r.contains handle, r.erase handle)

/-- How many values are kept. -/
def size (r : HandleRegistry α) : Nat := r.entries.length

/-- Drops every value; later handles still differ from all earlier ones. -/
def clear (r : HandleRegistry α) : HandleRegistry α := { r with entries := [] }

end HandleRegistry

/-- What may be done with a registry. -/
inductive HandleCall (α : Type) where
  | insert (value : α)
  /-- changes the value under a handle -/
  | modify (handle : Handle) (f : α → α)
  | take (handle : Handle)
  | release (handle : Handle)
  | contains (handle : Handle)
  | get (handle : Handle)
  | clear

/-- What a registry answers. -/
inductive HandleAnswer (α : Type) where
  | handle (handle : Handle)
  | value (value : Option α)
  | flag (value : Bool)
  | done

namespace HandleRegistry

variable {α : Type}

/-- Performs one call; a change answers with the changed value. -/
def perform (r : HandleRegistry α) : HandleCall α → HandleAnswer α × HandleRegistry α
  | .insert value => let (handle, r) := r.insert value; (.handle handle, r)
  | .modify handle f => let r := r.modify handle f; (.value (r.get? handle), r)
  | .take handle => let (value, r) := r.take handle; (.value value, r)
  | .release handle => let (released, r) := r.release handle; (.flag released, r)
  | .contains handle => (.flag (r.contains handle), r)
  | .get handle => (.value (r.get? handle), r)
  | .clear => (.done, r.clear)

end HandleRegistry
end Switchboard
