import Mathlib.Data.List.Pairwise
import Switchboard.Proofs.Foreign.Mail
/-!
# What becomes of handles

A boundary gives out handles for messages and for callbacks. What becomes of them is noted: a value
comes under a handle, and at some time that is over. A handle stands for the value that came under
it, as long as nothing has ended that. Numbers ascend, so no handle stands for two values, at
whatever times.
-/
namespace Switchboard

section Logs

variable {ε α : Type} {comes : ε → Option (Handle × α)} {ends : Handle → ε → Bool}
  {fills : ε → Bool} {log : List ε} {entry : ε} {handle : Handle} {value : α}

/-- By a log, a handle stands for a value: the value came under the handle, and nothing has ended
that since. -/
def StandsFor (comes : ε → Option (Handle × α)) (ends : Handle → ε → Bool) (log : List ε)
    (handle : Handle) (value : α) : Prop :=
  ∃ before entry after, log = before ++ entry :: after ∧ comes entry = some (handle, value) ∧
    ∀ later ∈ after, ends handle later = false

theorem standsFor_append_singleton :
    StandsFor comes ends (log ++ [entry]) handle value ↔
      comes entry = some (handle, value) ∨
        StandsFor comes ends log handle value ∧ ends handle entry = false := by
  constructor
  · rintro ⟨before, came, after, hlog, hcame, hafter⟩
    rcases List.eq_nil_or_concat after with rfl | ⟨middle, last, rfl⟩
    · obtain ⟨-, hentry⟩ := List.append_inj' hlog rfl
      cases hentry
      exact Or.inl hcame
    · rw [List.concat_eq_append] at hlog hafter
      rw [← List.cons_append, ← List.append_assoc] at hlog
      obtain ⟨hbefore, hentry⟩ := List.append_inj' hlog rfl
      cases hentry
      exact Or.inr ⟨⟨before, came, middle, hbefore, hcame,
        fun later hlater => hafter later (List.mem_append_left _ hlater)⟩,
        hafter entry (List.mem_append_right _ (List.mem_singleton.mpr rfl))⟩
  · rintro (hcame | ⟨⟨before, came, after, rfl, hcame, hafter⟩, hentry⟩)
    · exact ⟨log, entry, [], rfl, hcame, nofun⟩
    · refine ⟨before, came, after ++ [entry], by simp, hcame, fun later hlater => ?_⟩
      rcases List.mem_append.mp hlater with hold | hnew
      · exact hafter later hold
      · rw [List.mem_singleton.mp hnew]
        exact hentry

/-- What a handle stands for came under it at some time. -/
theorem StandsFor.mem (h : StandsFor comes ends log handle value) :
    (handle, value) ∈ log.filterMap comes := by
  obtain ⟨before, came, after, rfl, hcame, -⟩ := h
  exact List.mem_filterMap.mpr ⟨came, by simp, hcame⟩

/-- Where numbers ascend, one value at most comes under a handle. -/
theorem eq_of_ascending
    (h : (log.filterMap comes).Pairwise fun given later => given.1.raw < later.1.raw)
    {other : α} (hvalue : (handle, value) ∈ log.filterMap comes)
    (hother : (handle, other) ∈ log.filterMap comes) : value = other := by
  have hsymm : Std.Symm fun given later : Handle × α => given.1.raw ≠ later.1.raw :=
    ⟨fun _ _ hne => hne.symm⟩
  by_contra hne
  refine (h.imp fun hlt => UInt64.ne_of_lt hlt).forall hvalue hother (fun hsame => ?_) rfl
  cases hsame
  exact hne rfl

namespace HandleRegistry

/-- The registry is what a log says. An entry that fills the registry uses a number up. -/
structure Chronicled (comes : ε → Option (Handle × α)) (ends : Handle → ε → Bool)
    (fills : ε → Bool) (log : List ε) (r : HandleRegistry α) : Prop where
  next : r.next.toNat = log.countP fills + 1
  standsFor : ∀ handle value, r.get? handle = some value ↔ StandsFor comes ends log handle value
  older : ∀ given ∈ log.filterMap comes, given.1.raw < r.next
  ascending : (log.filterMap comes).Pairwise fun given later => given.1.raw < later.1.raw

variable {r r' : HandleRegistry α}

theorem chronicled_empty : (empty : HandleRegistry α).Chronicled comes ends fills [] where
  next := rfl
  standsFor _ _ := by
    constructor
    · rintro ⟨⟩
    · rintro ⟨before, _, after, hlog, -⟩
      cases before <;> cases hlog
  older := nofun
  ascending := .nil

/-- One more entry: the registry has changed as the entry says, and a value comes under the next
number only. -/
theorem Chronicled.note (h : r.Chronicled comes ends fills log)
    (hnext : r'.next.toNat = r.next.toNat + if fills entry then 1 else 0)
    (hget : ∀ handle value, r'.get? handle = some value ↔
      comes entry = some (handle, value) ∨ r.get? handle = some value ∧ ends handle entry = false)
    (hcomes : ∀ given, comes entry = some given → given.1.raw = r.next ∧ fills entry = true) :
    r'.Chronicled comes ends fills (log ++ [entry]) where
  next := by
    rw [hnext, h.next, List.countP_append, List.countP_singleton]
    omega
  standsFor handle value := by
    rw [hget, standsFor_append_singleton, h.standsFor]
  older given hgiven := by
    rw [List.filterMap_append, List.mem_append] at hgiven
    rw [UInt64.lt_iff_toNat_lt, hnext]
    rcases hgiven with hold | hnew
    · have holder := UInt64.lt_iff_toNat_lt.mp (h.older given hold)
      exact Nat.lt_of_lt_of_le holder (Nat.le_add_right ..)
    · obtain ⟨_, hmem, hgiven⟩ := List.mem_filterMap.mp hnew
      obtain rfl := List.mem_singleton.mp hmem
      obtain ⟨hraw, hfills⟩ := hcomes given hgiven
      rw [hraw, if_pos hfills]
      exact Nat.lt_succ_self _
  ascending := by
    rw [List.filterMap_append, List.pairwise_append]
    refine ⟨h.ascending, ?_, fun given hgiven later hlater => ?_⟩
    · cases hentry : comes entry with
      | none => simp [hentry]
      | some given => simp [hentry]
    · obtain ⟨_, hmem, hentry⟩ := List.mem_filterMap.mp hlater
      obtain rfl := List.mem_singleton.mp hmem
      rw [(hcomes later hentry).1]
      exact h.older given hgiven

/-- Registries that are what a log said at two times agree about what a handle stands for. -/
theorem Chronicled.eq_of_earlier {before after : List ε} (h : r.Chronicled comes ends fills before)
    (h' : r'.Chronicled comes ends fills after)
    (hlog : (log.filterMap comes).Pairwise fun given later => given.1.raw < later.1.raw)
    (hbefore : before <+: log) (hafter : after <+: log) {other : α}
    (hvalue : r.get? handle = some value) (hother : r'.get? handle = some other) :
    value = other := by
  have hmem := ((h.standsFor handle value).mp hvalue).mem
  have hmem' := ((h'.standsFor handle other).mp hother).mem
  exact eq_of_ascending hlog ((hbefore.filterMap comes).subset hmem)
    ((hafter.filterMap comes).subset hmem')

/-- An entry that has nothing to do with the registry. -/
theorem Chronicled.skip (h : r.Chronicled comes ends fills log) (hcomes : comes entry = none)
    (hends : ∀ handle, ends handle entry = false) (hfills : fills entry = false) :
    r.Chronicled comes ends fills (log ++ [entry]) := by
  refine h.note (by simp [hfills]) (fun handle value => ?_) fun given hgiven => ?_
  · simp [hcomes, hends]
  · rw [hcomes] at hgiven
    cases hgiven

/-- A handle is forgotten. -/
theorem Chronicled.erase (h : r.Chronicled comes ends fills log) (hcomes : comes entry = none)
    (hends : ∀ other, ends other entry = true ↔ other = handle) (hfills : fills entry = false) :
    (r.erase handle).Chronicled comes ends fills (log ++ [entry]) := by
  have hnext : (r.erase handle).next = r.next := rfl
  refine h.note (by simp [hnext, hfills]) (fun other value => ?_) fun given hgiven => ?_
  · by_cases heq : other = handle
    · subst heq
      simp [get?_erase_self, hcomes, (hends other).mpr]
    · have hkept : ends other entry = false := Bool.not_eq_true _ ▸ mt (hends other).mp heq
      simp [get?_erase_of_ne r heq, hcomes, hkept]
  · rw [hcomes] at hgiven
    cases hgiven

/-- All handles are forgotten. -/
theorem Chronicled.clear (h : r.Chronicled comes ends fills log) (hcomes : comes entry = none)
    (hends : ∀ handle, ends handle entry = true) (hfills : fills entry = false) :
    r.clear.Chronicled comes ends fills (log ++ [entry]) := by
  have hnext : r.clear.next = r.next := rfl
  refine h.note (by simp [hnext, hfills]) (fun other value => ?_) fun given hgiven => ?_
  · simp [HandleRegistry.clear, get?, hcomes, hends]
  · rw [hcomes] at hgiven
    cases hgiven

/-- The number that comes next is new, as long as there are numbers. -/
theorem Chronicled.next_insert (h : r.Chronicled comes ends fills log)
    (hroom : log.countP fills + 2 < UInt64.size) (value : α) :
    (r.insert value).1.raw = r.next ∧ (r.insert value).2.next.toNat = r.next.toNat + 1 := by
  have hnonzero : r.next ≠ 0 := by
    intro hzero
    have hnext := h.next
    rw [hzero] at hnext
    exact absurd hnext (Nat.succ_ne_zero _).symm
  constructor
  · change r.nextHandle.raw = r.next
    rw [nextHandle, dif_neg hnonzero]
  · change (r.next + 1).toNat = r.next.toNat + 1
    rw [UInt64.toNat_add, h.next]
    exact Nat.mod_eq_of_lt hroom

theorem Chronicled.get?_next (h : r.Chronicled comes ends fills log)
    (hraw : handle.raw = r.next) : r.get? handle = none := by
  cases hfound : r.get? handle with
  | none => rfl
  | some value =>
    have holder := h.older _ ((h.standsFor handle value).mp hfound).mem
    rw [hraw] at holder
    exact absurd holder (UInt64.lt_irrefl _)

/-- A value comes under the next handle. -/
theorem Chronicled.insert (h : r.Chronicled comes ends fills log)
    (hroom : log.countP fills + 2 < UInt64.size)
    (hcomes : comes entry = some ((r.insert value).1, value))
    (hends : ∀ handle, ends handle entry = false) (hfills : fills entry = true) :
    (r.insert value).2.Chronicled comes ends fills (log ++ [entry]) := by
  obtain ⟨hraw, hnext⟩ := h.next_insert hroom value
  refine h.note (by rw [hnext, if_pos hfills]) (fun other found => ?_) fun given hgiven => ?_
  · rw [hcomes, hends]
    by_cases heq : other = (r.insert value).1
    · rw [heq, get?_insert_self, h.get?_next hraw]
      simp
    · rw [get?_insert_of_ne r value heq]
      simp [Ne.symm heq]
  · rw [hcomes] at hgiven
    cases hgiven
    exact ⟨hraw, hfills⟩

/-- A value comes under the next handle, which is forgotten at once. -/
theorem Chronicled.discard (h : r.Chronicled comes ends fills log)
    (hroom : log.countP fills + 2 < UInt64.size) (hcomes : comes entry = none)
    (hends : ∀ handle, ends handle entry = false) (hfills : fills entry = true) :
    ((r.insert value).2.erase (r.insert value).1).Chronicled comes ends fills (log ++ [entry]) := by
  obtain ⟨hraw, hnext⟩ := h.next_insert hroom value
  have hnext' : ((r.insert value).2.erase (r.insert value).1).next.toNat = r.next.toNat + 1 := hnext
  refine h.note (by rw [hnext', if_pos hfills]) (fun other found => ?_) fun given hgiven => ?_
  · rw [hcomes, hends]
    by_cases heq : other = (r.insert value).1
    · rw [heq, get?_erase_self, h.get?_next hraw]
      simp
    · rw [get?_erase_of_ne _ heq, get?_insert_of_ne r value heq]
      simp
  · rw [hcomes] at hgiven
    cases hgiven

end HandleRegistry

end Logs

namespace App

/-- What becomes of a handle on a boundary. -/
inductive Fate where
  /-- the host is given a handle for a message of its own -/
  | created (handle : Handle) (msg : Message)
  /-- a callback is called with a handle for a result -/
  | presented (handle : Handle) (result : CmdResult)
  /-- a result comes for nobody, and its handle is forgotten before anyone has seen it -/
  | withheld (result : CmdResult)
  /-- the host takes a message back or releases it -/
  | taken (handle : Handle)
  /-- the host sends a message, with a callback or with none -/
  | used (handle : Handle) (listener : Option (Handle × Callback))
  /-- the host is given a handle for a callback -/
  | registered (handle : Handle) (callback : Callback)
  /-- the host releases a callback -/
  | released (handle : Handle)
  /-- a callback is told that an operation has come to its end -/
  | ended (handle : Handle) (callback : Callback)
  /-- the host is gone with all its handles -/
  | cleared

namespace Fate

/-- The message that the host has from now on, and its handle. -/
def message? : Fate → Option (Handle × Message)
  | created handle msg => some (handle, msg)
  | presented handle result => some (handle, .cmdResult result)
  | withheld _ | taken _ | used .. | registered .. | released _ | ended .. | cleared => none

/-- The callback that the host has from now on, and its handle. -/
def callback? : Fate → Option (Handle × Callback)
  | registered handle callback => some (handle, callback)
  | created .. | presented .. | withheld _ | taken _ | used .. | released _ | ended .. | cleared =>
    none

/-- Whether the message under a handle is gone from now on. -/
def endsMessage (handle : Handle) : Fate → Bool
  | taken other | used other _ => other = handle
  | cleared => true
  | created .. | presented .. | withheld _ | registered .. | released _ | ended .. => false

/-- Whether the callback under a handle is gone from now on. -/
def endsCallback (handle : Handle) : Fate → Bool
  | released other | ended other _ => other = handle
  | cleared => true
  | created .. | presented .. | withheld _ | taken _ | used .. | registered .. => false

/-- Whether a number for messages is used up. -/
def fillsMessages : Fate → Bool
  | created .. | presented .. | withheld _ => true
  | taken _ | used .. | registered .. | released _ | ended .. | cleared => false

/-- Whether a number for callbacks is used up. -/
def fillsCallbacks : Fate → Bool
  | registered .. => true
  | created .. | presented .. | withheld _ | taken _ | used .. | released _ | ended .. | cleared =>
    false

end Fate

/-- What a boundary becomes by what becomes of its handles. -/
inductive Boundary.Suffers (b : Boundary) : Fate → Boundary → Prop where
  | created (msg : Message) : b.Suffers (.created (b.messages.insert msg).1 msg)
    { b with messages := (b.messages.insert msg).2 }
  | presented (result : CmdResult) :
    b.Suffers (.presented (b.messages.insert (.cmdResult result)).1 result)
      { b with messages := (b.messages.insert (.cmdResult result)).2 }
  | withheld (result : CmdResult) : b.Suffers (.withheld result)
    { b with
      messages := (b.messages.insert (.cmdResult result)).2.erase
        (b.messages.insert (.cmdResult result)).1 }
  | taken (handle : Handle) :
    b.Suffers (.taken handle) { b with messages := b.messages.erase handle }
  | used (handle : Handle) (listener : Option (Handle × Callback)) :
    b.Suffers (.used handle listener) { b with messages := b.messages.erase handle }
  | registered (callback : Callback) :
    b.Suffers (.registered (b.callbacks.insert callback).1 callback)
      { b with callbacks := (b.callbacks.insert callback).2 }
  | released (handle : Handle) :
    b.Suffers (.released handle) { b with callbacks := b.callbacks.erase handle }
  | ended (handle : Handle) (callback : Callback) :
    b.Suffers (.ended handle callback) { b with callbacks := b.callbacks.erase handle }
  | cleared : b.Suffers .cleared b.clear

/-- One fate after the other. -/
inductive Boundary.SuffersAll : Boundary → List Fate → Boundary → Prop where
  | nil (b : Boundary) : b.SuffersAll [] b
  | cons {b c d : Boundary} {fate : Fate} {fates : List Fate} (h : b.Suffers fate c)
    (hs : c.SuffersAll fates d) : b.SuffersAll (fate :: fates) d

/-- The messages of a boundary are what a log says. -/
abbrev Boundary.MessagesChronicled (b : Boundary) (log : List Fate) : Prop :=
  b.messages.Chronicled Fate.message? Fate.endsMessage Fate.fillsMessages log

/-- The callbacks of a boundary are what a log says. -/
abbrev Boundary.CallbacksChronicled (b : Boundary) (log : List Fate) : Prop :=
  b.callbacks.Chronicled Fate.callback? Fate.endsCallback Fate.fillsCallbacks log

section Fates

variable {b c d : Boundary} {fate : Fate} {fates log more : List Fate}

theorem Boundary.Suffers.all (h : b.Suffers fate c) : b.SuffersAll [fate] c := .cons h (.nil c)

theorem Boundary.SuffersAll.append (h : b.SuffersAll fates c) (h' : c.SuffersAll more d) :
    b.SuffersAll (fates ++ more) d := by
  induction h with
  | nil _ => exact h'
  | cons hfate _ ih => exact .cons hfate (ih h')

theorem lt_of_fills (fills : Fate → Bool) (hfills : fills fate = true)
    (hroom : (log ++ [fate]).countP fills + 1 < UInt64.size) :
    log.countP fills + 2 < UInt64.size := by
  rwa [List.countP_append, List.countP_singleton, if_pos hfills] at hroom

theorem Boundary.Suffers.messages (h : b.Suffers fate c) (hb : b.MessagesChronicled log)
    (hroom : (log ++ [fate]).countP Fate.fillsMessages + 1 < UInt64.size) :
    c.MessagesChronicled (log ++ [fate]) := by
  cases h with
  | created msg => exact hb.insert (lt_of_fills _ rfl hroom) rfl (fun _ => rfl) rfl
  | presented result => exact hb.insert (lt_of_fills _ rfl hroom) rfl (fun _ => rfl) rfl
  | withheld result => exact hb.discard (lt_of_fills _ rfl hroom) rfl (fun _ => rfl) rfl
  | taken handle =>
    exact hb.erase rfl (fun other => decide_eq_true_iff.trans eq_comm) rfl
  | used handle listener =>
    exact hb.erase rfl (fun other => decide_eq_true_iff.trans eq_comm) rfl
  | registered callback => exact hb.skip rfl (fun _ => rfl) rfl
  | released handle => exact hb.skip rfl (fun _ => rfl) rfl
  | ended handle callback => exact hb.skip rfl (fun _ => rfl) rfl
  | cleared => exact hb.clear rfl (fun _ => rfl) rfl

theorem Boundary.Suffers.callbacks (h : b.Suffers fate c) (hb : b.CallbacksChronicled log)
    (hroom : (log ++ [fate]).countP Fate.fillsCallbacks + 1 < UInt64.size) :
    c.CallbacksChronicled (log ++ [fate]) := by
  cases h with
  | created msg => exact hb.skip rfl (fun _ => rfl) rfl
  | presented result => exact hb.skip rfl (fun _ => rfl) rfl
  | withheld result => exact hb.skip rfl (fun _ => rfl) rfl
  | taken handle => exact hb.skip rfl (fun _ => rfl) rfl
  | used handle listener => exact hb.skip rfl (fun _ => rfl) rfl
  | registered callback => exact hb.insert (lt_of_fills _ rfl hroom) rfl (fun _ => rfl) rfl
  | released handle =>
    exact hb.erase rfl (fun other => decide_eq_true_iff.trans eq_comm) rfl
  | ended handle callback =>
    exact hb.erase rfl (fun other => decide_eq_true_iff.trans eq_comm) rfl
  | cleared => exact hb.clear rfl (fun _ => rfl) rfl

/-- What every fate keeps as long as there is room, all fates keep. -/
theorem Boundary.SuffersAll.keeps {Kept : Boundary → List Fate → Prop} {fills : Fate → Bool}
    (hstep : ∀ {b c : Boundary} {fate : Fate} {log : List Fate}, b.Suffers fate c → Kept b log →
      (log ++ [fate]).countP fills + 1 < UInt64.size → Kept c (log ++ [fate]))
    (h : b.SuffersAll fates c) (hb : Kept b log)
    (hroom : (log ++ fates).countP fills + 1 < UInt64.size) : Kept c (log ++ fates) := by
  induction h generalizing log with
  | nil b => rwa [List.append_nil]
  | @cons b c d fate fates hfate _ ih =>
    rw [List.append_cons] at hroom ⊢
    refine ih (hstep hfate hb ?_) hroom
    rw [List.countP_append] at hroom
    omega

end Fates

end App

end Switchboard
