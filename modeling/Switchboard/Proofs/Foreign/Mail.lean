import Switchboard.App.Boundary
/-!
# Mail on boundaries

What a host can find on a boundary: the messages under their numbers. A message that comes to a
boundary is found under a new number, and nothing else changes there. Numbers are new until so many
were given out that they begin again.
-/
namespace Switchboard

namespace HandleRegistry

variable {α : Type} {r : HandleRegistry α} {handle : Handle}

/-- No number of the registry has begun again: all that are in use were given out before. -/
structure Young (r : HandleRegistry α) : Prop where
  next : r.next ≠ 0
  older : ∀ entry ∈ r.entries, entry.1.raw < r.next

/-- At most one value was added. -/
structure Ages (r r' : HandleRegistry α) : Prop where
  next : r'.next = r.next ∨ r'.next = r.next + 1
  young : r.Young → r'.next ≠ 0 → r'.Young

theorem young_empty : (empty : HandleRegistry α).Young where
  next := fun h => absurd h (by decide : (1 : UInt64) ≠ 0)
  older _ hentry := absurd hentry List.not_mem_nil

theorem get?_erase_self (r : HandleRegistry α) (handle : Handle) :
    (r.erase handle).get? handle = none := by
  simp [erase, get?, List.find?_eq_none]

theorem get?_erase_of_ne (r : HandleRegistry α) {other : Handle} (h : other ≠ handle) :
    (r.erase handle).get? other = r.get? other := by
  rw [erase, get?, List.find?_filter, get?]
  congr 2
  funext entry
  by_cases heq : entry.1 = other
  · simp [heq, h]
  · simp [heq]

/-- To keep a value is to forget what its number stood for, and to add the value. -/
theorem get?_insert (r : HandleRegistry α) (value : α) (handle : Handle) :
    (r.insert value).2.get? handle =
      ((r.erase r.nextHandle).get? handle).or
        (if r.nextHandle = handle then some value else none) := by
  rw [insert, get?, List.find?_append, get?, erase, Option.map_or, List.find?_singleton]
  by_cases heq : r.nextHandle = handle
  · simp [heq]
  · simp [heq]

theorem get?_insert_self (r : HandleRegistry α) (value : α) :
    (r.insert value).2.get? (r.insert value).1 = some value := by
  have hself : (r.insert value).1 = r.nextHandle := rfl
  rw [get?_insert, hself, get?_erase_self, if_pos rfl]
  rfl

theorem get?_insert_of_ne (r : HandleRegistry α) (value : α) (h : handle ≠ (r.insert value).1) :
    (r.insert value).2.get? handle = r.get? handle := by
  have hne : handle ≠ r.nextHandle := h
  rw [get?_insert, get?_erase_of_ne r hne, if_neg hne.symm, Option.or_none]

/-- The number that a young registry gives out next is not in use. -/
theorem Young.get?_insert (hr : r.Young) (value : α) : r.get? (r.insert value).1 = none := by
  have hraw : r.nextHandle.raw = r.next := by rw [nextHandle, dif_neg hr.next]
  rw [get?, Option.map_eq_none_iff, List.find?_eq_none]
  intro entry hentry heq
  have holder := hr.older entry hentry
  rw [of_decide_eq_true heq] at holder
  exact UInt64.lt_irrefl _ (hraw ▸ holder)

theorem ages_insert (r : HandleRegistry α) (value : α) : r.Ages (r.insert value).2 where
  next := Or.inr rfl
  young hr hnext := by
    refine ⟨hnext, fun entry hentry => ?_⟩
    have hraw : r.nextHandle.raw = r.next := by rw [nextHandle, dif_neg hr.next]
    have hstep : r.next < r.next + 1 := by
      have hne : (r.next + 1).toNat ≠ 0 := fun h => hnext (UInt64.toNat_inj.mp h)
      rw [UInt64.lt_iff_toNat_lt]
      rw [UInt64.toNat_add] at hne ⊢
      have hlt := r.next.toNat_lt
      have hone : (1 : UInt64).toNat = 1 := rfl
      omega
    rcases List.mem_append.mp hentry with hold | hnew
    · exact UInt64.lt_trans (hr.older entry (List.mem_filter.mp hold).1) hstep
    · rw [List.mem_singleton.mp hnew]
      exact hraw ▸ hstep

theorem Ages.refl (r : HandleRegistry α) : r.Ages r := ⟨Or.inl rfl, fun hr _ => hr⟩

/-- What is forgotten after a step. -/
theorem Ages.erase {r' : HandleRegistry α} (h : r.Ages r') (handle : Handle) :
    r.Ages (r'.erase handle) where
  next := h.next
  young hr hnext :=
    have hr' := h.young hr hnext
    ⟨hnext, fun entry hentry => hr'.older entry (List.mem_filter.mp hentry).1⟩

theorem ages_clear (r : HandleRegistry α) : r.Ages r.clear where
  next := Or.inl rfl
  young hr _ := ⟨hr.next, fun _ hentry => absurd hentry List.not_mem_nil⟩

/-- Numbers begin again only after very many values. -/
theorem Ages.young_of_le {r' : HandleRegistry α} (h : r.Ages r') (hr : r.Young) {n : Nat}
    (hnext : r.next.toNat ≤ n + 1) (hn : n + 2 < UInt64.size) :
    r'.Young ∧ r'.next.toNat ≤ n + 2 := by
  rcases h.next with heq | heq
  · exact ⟨h.young hr (heq ▸ hr.next), by rw [heq]; omega⟩
  · have hsum : (r.next + 1).toNat = r.next.toNat + 1 := by
      rw [UInt64.toNat_add]
      exact Nat.mod_eq_of_lt (Nat.lt_of_le_of_lt (Nat.succ_le_succ hnext) hn)
    refine ⟨h.young hr fun hzero => ?_, by rw [heq, hsum]; omega⟩
    rw [heq] at hzero
    rw [hzero] at hsum
    exact Nat.succ_ne_zero _ hsum.symm

end HandleRegistry

namespace App

/-- The message that is found on a boundary under a number. -/
def mail (boundaries : Array Boundary) (i : Nat) (handle : Handle) : Option Message :=
  (boundaries.getD i {}).messages.get? handle

/-- A message comes to a boundary: it is found under a new number, and nothing else changes. -/
structure Arrives (before after : Array Boundary) (i : Nat) (handle : Handle) (msg : Message) :
    Prop where
  here : mail after i handle = some msg
  fresh : (before.getD i {}).messages.Young → mail before i handle = none
  others : ∀ j other, (j, other) ≠ (i, handle) → mail after j other = mail before j other

/-- No message stays behind: what is found later was found before under the same number. All that
was found before still is, as long as numbers are new. -/
structure LeavesNothing (before after : Array Boundary) : Prop where
  found : ∀ j other msg, mail after j other = some msg → mail before j other = some msg
  kept : (∀ i, (before.getD i {}).messages.Young) → mail after = mail before

/-- At most one message was put on each boundary. -/
def Ages (before after : Array Boundary) : Prop :=
  ∀ i, (before.getD i {}).messages.Ages (after.getD i {}).messages

section Mail

variable {boundaries : Array Boundary} {i : Nat} {b : Boundary}

theorem getD_setIfInBounds (boundaries : Array Boundary) (i : Nat) (b : Boundary) (j : Nat) :
    (boundaries.setIfInBounds i b).getD j {} =
      if i = j ∧ j < boundaries.size then b else boundaries.getD j {} := by
  rw [Array.getD_eq_getD_getElem?, Array.getElem?_setIfInBounds, Array.getD_eq_getD_getElem?]
  by_cases heq : i = j
  · subst heq
    by_cases hlt : i < boundaries.size
    · simp [hlt]
    · simp [hlt]
  · simp [heq]

theorem mail_set_of_messages (h : b.messages = (boundaries.getD i {}).messages) :
    mail (boundaries.setIfInBounds i b) = mail boundaries := by
  funext j handle
  rw [mail, getD_setIfInBounds, mail]
  split
  · obtain ⟨rfl, -⟩ := ‹_ ∧ _›
    rw [h]
  · rfl

/-- Whatever else is done at a boundary to which a message comes. -/
theorem arrives_set (hi : i < boundaries.size) {msg : Message}
    (h : b.messages = ((boundaries.getD i {}).messages.insert msg).2) :
    Arrives boundaries (boundaries.setIfInBounds i b) i
      ((boundaries.getD i {}).messages.insert msg).1 msg where
  here := by
    rw [mail, getD_setIfInBounds, if_pos ⟨rfl, hi⟩, h, HandleRegistry.get?_insert_self]
  fresh hyoung := hyoung.get?_insert msg
  others j other hne := by
    rw [mail, getD_setIfInBounds, mail]
    split
    · obtain ⟨rfl, -⟩ := ‹_ ∧ _›
      have hother : other ≠ ((boundaries.getD i {}).messages.insert msg).1 := by
        rintro rfl
        exact hne rfl
      rw [h, HandleRegistry.get?_insert_of_ne _ msg hother]
    · rfl

/-- A message that comes to a boundary and is forgotten at once. -/
theorem leavesNothing_set {msg : Message}
    (h : b.messages = ((boundaries.getD i {}).messages.insert msg).2.erase
      ((boundaries.getD i {}).messages.insert msg).1) :
    LeavesNothing boundaries (boundaries.setIfInBounds i b) := by
  have hmail (j : Nat) (other : Handle) :
      mail (boundaries.setIfInBounds i b) j other =
        if (i = j ∧ j < boundaries.size) ∧ other = ((boundaries.getD i {}).messages.insert msg).1
        then none else mail boundaries j other := by
    rw [mail, getD_setIfInBounds, mail]
    by_cases hhere : i = j ∧ j < boundaries.size
    · obtain ⟨rfl, hlt⟩ := hhere
      rw [if_pos ⟨rfl, hlt⟩, h]
      by_cases heq : other = ((boundaries.getD i {}).messages.insert msg).1
      · rw [if_pos ⟨⟨rfl, hlt⟩, heq⟩, heq, HandleRegistry.get?_erase_self]
      · rw [if_neg fun hboth => heq hboth.2, HandleRegistry.get?_erase_of_ne _ heq,
          HandleRegistry.get?_insert_of_ne _ msg heq]
    · rw [if_neg hhere, if_neg fun hboth => hhere hboth.1]
  constructor
  · intro j other found hfound
    rw [hmail] at hfound
    split at hfound
    · cases hfound
    · exact hfound
  · intro hyoung
    funext j other
    rw [hmail]
    split
    · obtain ⟨⟨rfl, -⟩, rfl⟩ := ‹_ ∧ _›
      exact ((hyoung i).get?_insert msg).symm
    · rfl

theorem ages_refl (boundaries : Array Boundary) : Ages boundaries boundaries :=
  fun _ => .refl _

theorem ages_set (h : (boundaries.getD i {}).messages.Ages b.messages) :
    Ages boundaries (boundaries.setIfInBounds i b) := by
  intro j
  rw [getD_setIfInBounds]
  split
  · obtain ⟨rfl, -⟩ := ‹_ ∧ _›
    exact h
  · exact .refl _

end Mail

end App

end Switchboard
