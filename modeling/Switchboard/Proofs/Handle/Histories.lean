import Mathlib.Algebra.GroupWithZero.Nat
import Mathlib.Data.List.Nodup
import Switchboard.Proofs.Foreign.Mail
/-!
# Histories of handles

A registry is asked for one thing after another. What a handle stands for is told by the history
alone: the value that came under it, as it was changed since, until the first call that ends that.
Numbers are given out in ascending order, so no later call brings a handle back, and every value
leaves the registry once: it is handed to somebody or dropped.
-/
namespace Switchboard

open scoped List

namespace Handle

/-- The handle that is given out after so many others. -/
def nth (n : Nat) : Handle := HandleRegistry.nextHandle (α := Empty) ⟨.ofNat (n + 1), []⟩

theorem toNat_raw_nth {n : Nat} (h : n + 1 < UInt64.size) : (nth n).raw.toNat = n + 1 := by
  have hword : (UInt64.ofNat (n + 1)).toNat = n + 1 := by
    rw [UInt64.toNat_ofNat']
    exact Nat.mod_eq_of_lt h
  have hne : UInt64.ofNat (n + 1) ≠ 0 := by
    intro hzero
    rw [hzero] at hword
    exact Nat.succ_ne_zero n hword.symm
  rw [nth, HandleRegistry.nextHandle, dif_neg hne]
  exact hword

end Handle

namespace HandleCall

variable {α : Type}

/-- Whether a value is added. -/
def isInsert : HandleCall α → Bool
  | insert _ => true
  | modify .. | take _ | release _ | contains _ | get _ | clear => false

/-- The handle that a call is about, if it is about one. -/
def about? : HandleCall α → Option Handle
  | modify handle _ | take handle | release handle | contains handle | get handle => some handle
  | insert _ | clear => none

/-- Whether a handle stands for nothing after a call. -/
def ends (handle : Handle) : HandleCall α → Bool
  | take other | release other => other = handle
  | clear => true
  | insert _ | modify .. | contains _ | get _ => false

/-- What a call makes of the value under a handle. -/
def change (handle : Handle) (value : α) : HandleCall α → α
  | modify other f => if other = handle then f value else value
  | insert _ | take _ | release _ | contains _ | get _ | clear => value

/-- What has become of a value after calls: nothing once one of them has ended it, and before that
the value with all changes. -/
def kept (handle : Handle) (later : List (HandleCall α)) (value : α) : Option α :=
  if later.any (ends handle) then none else some (later.foldl (change handle) value)

/-- What calls have left of the values that came by them, of which the first gets the handle after
`n` others. -/
def survivors (n : Nat) : List (HandleCall α) → List (Handle × α)
  | [] => []
  | insert value :: later =>
    ((kept (.nth n) later value).map (Handle.nth n, ·)).toList ++ survivors (n + 1) later
  | modify .. :: later | take _ :: later | release _ :: later | contains _ :: later
  | get _ :: later | clear :: later => survivors n later

/-- What a call answers, if each handle stands for this value and `next` is given out next. -/
def answer (value? : Handle → Option α) (next : Handle) : HandleCall α → HandleAnswer α
  | insert _ => .handle next
  | modify handle f => .value ((value? handle).map f)
  | take handle | get handle => .value (value? handle)
  | release handle | contains handle => .flag (value? handle).isSome
  | clear => .done

theorem exists_of_isInsert {call : HandleCall α} (h : call.isInsert = true) :
    ∃ value, call = insert value := by
  cases call with
  | insert value => exact ⟨value, rfl⟩
  | modify handle f => cases h
  | take handle => cases h
  | release handle => cases h
  | contains handle => cases h
  | get handle => cases h
  | clear => cases h

theorem kept_cons (handle : Handle) (call : HandleCall α) (later : List (HandleCall α))
    (value : α) :
    kept handle (call :: later) value =
      if call.ends handle then none else kept handle later (call.change handle value) := by
  cases h : call.ends handle with
  | true => simp [kept, h]
  | false => simp [kept, h]

end HandleCall

namespace HandleRegistry

variable {α : Type} {r : HandleRegistry α} {n : Nat}

/-- The registry after calls. -/
def after (r : HandleRegistry α) (calls : List (HandleCall α)) : HandleRegistry α :=
  calls.foldl (fun r call => (r.perform call).2) r

/-- The handles of the values that a registry keeps. -/
def handles (r : HandleRegistry α) : List Handle := r.entries.map Prod.fst

/-- The handle that a call gives out. -/
def gives (r : HandleRegistry α) : HandleCall α → List Handle
  | .insert value => [(r.insert value).1]
  | .modify .. | .take _ | .release _ | .contains _ | .get _ | .clear => []

/-- The value that a call hands to the caller. -/
def hands (r : HandleRegistry α) : HandleCall α → List (Handle × α)
  | .take handle => ((r.take handle).1.map (handle, ·)).toList
  | .insert _ | .modify .. | .release _ | .contains _ | .get _ | .clear => []

/-- The values that the registry drops in a call. -/
def drops (r : HandleRegistry α) : HandleCall α → List (Handle × α)
  | .insert _ => r.entries.filter (·.1 = r.nextHandle)
  | .release handle => r.entries.filter (·.1 = handle)
  | .clear => r.entries
  | .modify .. | .take _ | .contains _ | .get _ => []

/-- Collects something from each of the calls that follow each other. -/
def collect {β : Type} (f : HandleRegistry α → HandleCall α → List β) (r : HandleRegistry α) :
    List (HandleCall α) → List β
  | [] => []
  | call :: calls => f r call ++ collect f (r.perform call).2 calls

/-- After `n` values: the next number, and handles in use that ascend up to it. -/
structure Issued (n : Nat) (r : HandleRegistry α) : Prop where
  next : r.next.toNat = n + 1
  older : ∀ entry ∈ r.entries, entry.1.raw < r.next
  ascending : r.entries.Pairwise fun entry later => entry.1.raw < later.1.raw

section Steps

theorem issued_empty : (empty : HandleRegistry α).Issued 0 where
  next := rfl
  older := nofun
  ascending := .nil

theorem Issued.next_ne_zero (h : r.Issued n) : r.next ≠ 0 := by
  intro hzero
  have hnext := h.next
  rw [hzero] at hnext
  exact Nat.succ_ne_zero n hnext.symm

theorem Issued.nextHandle_eq (h : r.Issued n) : r.nextHandle = .nth n := by
  have hword : UInt64.ofNat (n + 1) = r.next := by
    rw [← h.next]
    exact UInt64.ofNat_toNat
  simp only [nextHandle, Handle.nth, hword]

theorem Issued.raw_nextHandle (h : r.Issued n) : r.nextHandle.raw = r.next := by
  rw [nextHandle, dif_neg h.next_ne_zero]

/-- The next handle is not in use. -/
theorem Issued.ne_nextHandle (h : r.Issued n) {entry : Handle × α} (hentry : entry ∈ r.entries) :
    entry.1 ≠ r.nextHandle := by
  intro heq
  have holder := h.older entry hentry
  rw [heq, h.raw_nextHandle] at holder
  exact UInt64.lt_irrefl _ holder

theorem Issued.nodup (h : r.Issued n) : r.handles.Nodup := by
  apply List.pairwise_map.mpr
  refine h.ascending.imp fun hlt heq => ?_
  rw [heq] at hlt
  exact UInt64.lt_irrefl _ hlt

/-- Among entries that stay or go one by one, handles ascend as before. -/
theorem Issued.filterMap (h : r.Issued n) {f : Handle × α → Option (Handle × α)}
    (hf : ∀ entry entry', f entry = some entry' → entry'.1 = entry.1) :
    Issued n { r with entries := r.entries.filterMap f } where
  next := h.next
  older entry' hentry' := by
    obtain ⟨entry, hentry, heq⟩ := List.mem_filterMap.mp hentry'
    rw [hf entry entry' heq]
    exact h.older entry hentry
  ascending := by
    apply List.Pairwise.filterMap f ?_ h.ascending
    intro entry later hlt entry' heq later' heq'
    rw [hf entry entry' heq, hf later later' heq']
    exact hlt

/-- What a call leaves of an entry. -/
def leaves (call : HandleCall α) (entry : Handle × α) : Option (Handle × α) :=
  if call.ends entry.1 then none else some (entry.1, call.change entry.1 entry.2)

/-- A call that adds nothing treats each entry by itself. -/
theorem perform_eq_filterMap {call : HandleCall α} (h : call.isInsert = false)
    (r : HandleRegistry α) :
    (r.perform call).2 = { r with entries := r.entries.filterMap (leaves call) } := by
  have hall {f : Handle × α → Option (Handle × α)} (hf : ∀ entry, f entry = some entry) :
      r = { r with entries := r.entries.filterMap f } := by
    have hsome : f = some := funext hf
    rw [hsome, List.filterMap_some]
  have hfilter (handle : Handle) (hends : ∀ other, call.ends other = decide (handle = other))
      (hchange : ∀ other value, call.change other value = value) :
      r.entries.filter (·.1 ≠ handle) = r.entries.filterMap (leaves call) := by
    rw [← List.filterMap_eq_filter]
    congr 1
    funext entry
    by_cases heq : handle = entry.1
    · simp [leaves, hends, heq]
    · simp [leaves, hends, hchange, heq, Ne.symm heq]
  cases call with
  | insert value => cases h
  | modify handle f =>
    change { r with entries := r.entries.map _ } = _
    rw [← List.filterMap_eq_map]
    congr 2
    funext entry
    by_cases heq : entry.1 = handle
    · simp [leaves, HandleCall.ends, HandleCall.change, heq]
    · simp [leaves, HandleCall.ends, HandleCall.change, heq, Ne.symm heq]
  | take handle =>
    change { r with entries := _ } = _
    rw [hfilter handle (fun _ => rfl) fun _ _ => rfl]
  | release handle =>
    change { r with entries := _ } = _
    rw [hfilter handle (fun _ => rfl) fun _ _ => rfl]
  | contains handle => exact hall fun _ => rfl
  | get handle => exact hall fun _ => rfl
  | clear =>
    have hnone : leaves (.clear : HandleCall α) = fun _ => none := rfl
    simp [perform, clear, hnone]

/-- A value that is added stands behind all others. -/
theorem Issued.entries_insert (h : r.Issued n) (value : α) :
    (r.insert value).2.entries = r.entries ++ [(Handle.nth n, value)] := by
  have hold : r.entries.filter (·.1 ≠ r.nextHandle) = r.entries := by
    apply List.filter_eq_self.mpr
    intro entry hentry
    exact decide_eq_true (h.ne_nextHandle hentry)
  change r.entries.filter (·.1 ≠ r.nextHandle) ++ [(r.nextHandle, value)] = _
  rw [hold, h.nextHandle_eq]

theorem leaves_insert (value : α) : leaves (.insert value) = (some : Handle × α → _) := rfl

end Steps

section Runs

variable {calls : List (HandleCall α)} {handle : Handle}

theorem Issued.insert (h : r.Issued n) (hroom : n + 2 < UInt64.size) (value : α) :
    (r.insert value).2.Issued (n + 1) := by
  have hnext : (r.insert value).2.next.toNat = n + 2 := by
    change (r.next + 1).toNat = n + 2
    rw [UInt64.toNat_add, h.next]
    exact Nat.mod_eq_of_lt hroom
  have hlt : r.next < (r.insert value).2.next := by
    rw [UInt64.lt_iff_toNat_lt, hnext, h.next]
    omega
  have hraw : (Handle.nth n).raw = r.next := by rw [← h.nextHandle_eq, h.raw_nextHandle]
  refine ⟨hnext, fun entry hentry => ?_, ?_⟩
  · rw [h.entries_insert, List.mem_append, List.mem_singleton] at hentry
    rcases hentry with hold | rfl
    · exact UInt64.lt_trans (h.older entry hold) hlt
    · rwa [hraw]
  · rw [h.entries_insert, List.pairwise_append]
    refine ⟨h.ascending, List.pairwise_singleton _ _, fun entry hentry later hlater => ?_⟩
    rw [List.mem_singleton.mp hlater, hraw]
    exact h.older entry hentry

theorem Issued.perform (h : r.Issued n) {call : HandleCall α} (hnone : call.isInsert = false) :
    (r.perform call).2.Issued n := by
  rw [perform_eq_filterMap hnone]
  apply h.filterMap
  intro entry entry' heq
  rw [leaves] at heq
  split at heq
  · cases heq
  · cases heq
    rfl

/-- What calls leave of an entry. -/
def leavesAll (calls : List (HandleCall α)) (entry : Handle × α) : Option (Handle × α) :=
  (HandleCall.kept entry.1 calls entry.2).map (entry.1, ·)

theorem leavesAll_nil : leavesAll ([] : List (HandleCall α)) = some := rfl

theorem leavesAll_cons (call : HandleCall α) (calls : List (HandleCall α)) :
    leavesAll (call :: calls) = fun entry => (leaves call entry).bind (leavesAll calls) := by
  funext entry
  rw [leavesAll, HandleCall.kept_cons, leaves]
  split
  · rfl
  · rfl

theorem survivors_cons {call : HandleCall α} (h : call.isInsert = false)
    (calls : List (HandleCall α)) (n : Nat) :
    HandleCall.survivors n (call :: calls) = HandleCall.survivors n calls := by
  cases call with
  | insert value => cases h
  | modify handle f => rfl
  | take handle => rfl
  | release handle => rfl
  | contains handle => rfl
  | get handle => rfl
  | clear => rfl

/-- After calls a registry keeps what they have left of its own values, and behind those what they
have left of the values that came by them. -/
theorem Issued.after (h : r.Issued n)
    (hroom : n + calls.countP HandleCall.isInsert + 1 < UInt64.size) :
    (r.after calls).Issued (n + calls.countP HandleCall.isInsert) ∧
      (r.after calls).entries =
        r.entries.filterMap (leavesAll calls) ++ HandleCall.survivors n calls := by
  induction calls generalizing r n with
  | nil => simpa [HandleRegistry.after, leavesAll_nil, HandleCall.survivors] using h
  | cons call calls ih =>
    cases hinsert : call.isInsert with
    | true =>
      obtain ⟨value, rfl⟩ := HandleCall.exists_of_isInsert hinsert
      rw [List.countP_cons_of_pos hinsert] at hroom ⊢
      obtain ⟨hissued, hentries⟩ := ih (h.insert (by omega) value) (by omega)
      have hcount : n + (calls.countP HandleCall.isInsert + 1) =
          n + 1 + calls.countP HandleCall.isInsert := by omega
      refine ⟨hcount ▸ hissued, ?_⟩
      change ((r.insert value).2.after calls).entries = _
      rw [hentries, h.entries_insert, leavesAll_cons, leaves_insert, List.filterMap_append,
        List.append_assoc]
      rfl
    | false =>
      have hnone : ¬ call.isInsert = true := Bool.eq_false_iff.mp hinsert
      rw [List.countP_cons_of_neg hnone] at hroom ⊢
      obtain ⟨hissued, hentries⟩ := ih (h.perform hinsert) hroom
      refine ⟨hissued, ?_⟩
      change ((r.perform call).2.after calls).entries = _
      rw [hentries, perform_eq_filterMap hinsert, survivors_cons hinsert, leavesAll_cons,
        List.filterMap_filterMap]

/-- Where no handle is used twice, a handle stands for the value next to it. -/
theorem Issued.get?_eq_some_iff (h : r.Issued n) {value : α} :
    r.get? handle = some value ↔ (handle, value) ∈ r.entries := by
  rw [get?, Option.map_eq_some_iff]
  constructor
  · rintro ⟨⟨other, value⟩, hfound, rfl⟩
    have hsame := List.find?_some hfound
    rw [← of_decide_eq_true hsame]
    exact List.mem_of_find?_eq_some hfound
  · intro hmem
    cases hfound : r.entries.find? (·.1 = handle) with
    | none =>
      have hnot := List.find?_eq_none.mp hfound _ hmem
      exact absurd (decide_eq_true rfl) hnot
    | some entry =>
      have hsame := List.find?_some hfound
      have hkey : entry.1 = handle := of_decide_eq_true hsame
      have hinj := List.inj_on_of_nodup_map h.nodup (List.mem_of_find?_eq_some hfound) hmem hkey
      exact ⟨entry, rfl, congrArg Prod.snd hinj⟩

/-- The values that come by calls get new handles. -/
theorem lt_of_mem_survivors (hroom : n + calls.countP HandleCall.isInsert + 1 < UInt64.size)
    {entry : Handle × α} (hentry : entry ∈ HandleCall.survivors n calls) :
    n < entry.1.raw.toNat := by
  induction calls generalizing n with
  | nil => cases hentry
  | cons call calls ih =>
    cases hinsert : call.isInsert with
    | false =>
      have hnone : ¬ call.isInsert = true := Bool.eq_false_iff.mp hinsert
      rw [List.countP_cons_of_neg hnone] at hroom
      rw [survivors_cons hinsert] at hentry
      exact ih hroom hentry
    | true =>
      obtain ⟨value, rfl⟩ := HandleCall.exists_of_isInsert hinsert
      rw [List.countP_cons_of_pos hinsert] at hroom
      rcases List.mem_append.mp hentry with hfirst | hlater
      · obtain ⟨kept, -, rfl⟩ := Option.map_eq_some_iff.mp (Option.mem_toList.mp hfirst)
        rw [Handle.toNat_raw_nth (by omega)]
        exact Nat.lt_succ_self n
      · exact Nat.lt_of_succ_lt (ih (by omega) hlater)

/-- What has become of the value under a handle by calls. -/
theorem Issued.get?_after (h : r.Issued n)
    (hroom : n + calls.countP HandleCall.isInsert + 1 < UInt64.size)
    (hold : handle.raw.toNat ≤ n) :
    (r.after calls).get? handle = (r.get? handle).bind (HandleCall.kept handle calls) := by
  obtain ⟨hissued, hentries⟩ := h.after hroom
  ext value
  rw [hissued.get?_eq_some_iff, hentries, List.mem_append, List.mem_filterMap,
    Option.bind_eq_some_iff]
  constructor
  · rintro (⟨⟨other, old⟩, hmem, hleft⟩ | hnew)
    · obtain ⟨kept, hkept, heq⟩ := Option.map_eq_some_iff.mp hleft
      cases heq
      exact ⟨old, h.get?_eq_some_iff.mpr hmem, hkept⟩
    · have hlt : n < handle.raw.toNat := lt_of_mem_survivors hroom hnew
      omega
  · rintro ⟨old, hfound, hkept⟩
    refine Or.inl ⟨(handle, old), h.get?_eq_some_iff.mp hfound, ?_⟩
    simp [leavesAll, hkept]

end Runs

section Departures

variable {calls : List (HandleCall α)} {handle : Handle}

theorem get?_modify (r : HandleRegistry α) (handle other : Handle) (f : α → α) :
    (r.modify handle f).get? other = (r.get? other).map fun value =>
      if other = handle then f value else value := by
  have hkey (entry : Handle × α) :
      (if entry.1 = handle then (entry.1, f entry.2) else entry).1 = entry.1 := by
    split
    · rfl
    · rfl
  have hsame : (fun entry : Handle × α => decide (entry.1 = other)) ∘
      (fun entry => if entry.1 = handle then (entry.1, f entry.2) else entry) =
        fun entry => decide (entry.1 = other) := by
    funext entry
    simp only [Function.comp_apply, hkey]
  rw [get?, modify, List.find?_map, hsame, get?, Option.map_map, Option.map_map]
  cases hfound : r.entries.find? (·.1 = other) with
  | none => rfl
  | some entry =>
    have hentry := List.find?_some hfound
    have heq : entry.1 = other := of_decide_eq_true hentry
    by_cases hhandle : other = handle
    · simp [heq, hhandle]
    · simp [heq, hhandle]

/-- A call answers by what handles stand for. -/
theorem fst_perform (r : HandleRegistry α) (call : HandleCall α) :
    (r.perform call).1 = call.answer r.get? r.nextHandle := by
  cases call with
  | modify handle f =>
    change HandleAnswer.value ((r.modify handle f).get? handle) = .value ((r.get? handle).map f)
    simp [get?_modify]
  | insert value => rfl
  | take handle => rfl
  | release handle => rfl
  | contains handle => rfl
  | get handle => rfl
  | clear => rfl

theorem gives_eq_nil {call : HandleCall α} (h : call.isInsert = false) (r : HandleRegistry α) :
    r.gives call = [] := by
  cases call with
  | insert value => cases h
  | modify handle f => rfl
  | take handle => rfl
  | release handle => rfl
  | contains handle => rfl
  | get handle => rfl
  | clear => rfl

/-- Numbers are given out in ascending order. -/
theorem Issued.collect_gives (h : r.Issued n)
    (hroom : n + calls.countP HandleCall.isInsert + 1 < UInt64.size) :
    collect gives r calls = (List.range' n (calls.countP HandleCall.isInsert)).map Handle.nth := by
  induction calls generalizing r n with
  | nil => rfl
  | cons call calls ih =>
    cases hinsert : call.isInsert with
    | true =>
      obtain ⟨value, rfl⟩ := HandleCall.exists_of_isInsert hinsert
      rw [List.countP_cons_of_pos hinsert] at hroom ⊢
      have hlater := ih (h.insert (by omega) value) (by omega)
      have hfirst : gives r (.insert value) = [Handle.nth n] := congrArg (fun x => [x]) h.nextHandle_eq
      rw [List.range'_succ, List.map_cons, ← hlater, collect, hfirst]
      rfl
    | false =>
      have hnone : ¬ call.isInsert = true := Bool.eq_false_iff.mp hinsert
      rw [List.countP_cons_of_neg hnone] at hroom ⊢
      rw [← ih (h.perform hinsert) hroom, collect, gives_eq_nil hinsert]
      rfl

/-- Where no handle is used twice, the value that is taken is all that its handle stands for. -/
theorem Issued.hands_take (h : r.Issued n) (handle : Handle) :
    r.hands (.take handle) = r.entries.filter (·.1 = handle) := by
  have hhead : r.get? handle = (r.entries.filter (·.1 = handle)).head?.map (·.2) := by
    rw [List.head?_filter]
    rfl
  have hkeys : ∀ entry ∈ r.entries.filter (·.1 = handle), entry.1 = handle := by
    intro entry hentry
    exact of_decide_eq_true (List.mem_filter.mp hentry).2
  have hnodup := (List.pairwise_map.mp h.nodup).filter (·.1 = handle)
  change ((r.get? handle).map (handle, ·)).toList = _
  rw [hhead]
  generalize r.entries.filter (·.1 = handle) = found at hkeys hnodup
  match found with
  | [] => rfl
  | [entry] =>
    obtain rfl := hkeys entry List.mem_cons_self
    rfl
  | first :: second :: _ =>
    have hne := List.rel_of_pairwise_cons hnodup List.mem_cons_self
    have hfirst := hkeys first List.mem_cons_self
    have hsecond := hkeys second (List.mem_cons_of_mem _ List.mem_cons_self)
    exact absurd (hfirst.trans hsecond.symm) hne

/-- What was kept or comes by a call is handed out or dropped in the call, or kept after it. -/
theorem Issued.perm_perform (h : r.Issued n) (call : HandleCall α) :
    r.handles ++ r.gives call ~
      (r.hands call ++ r.drops call).map Prod.fst ++ (r.perform call).2.handles := by
  have hsplit (handle : Handle) : r.handles ++ [] ~
      (r.entries.filter (·.1 = handle)).map Prod.fst ++ (r.erase handle).handles := by
    have hperm := (List.filter_append_perm (·.1 = handle) r.entries).symm.map Prod.fst
    rw [List.map_append] at hperm
    simpa [handles, erase] using hperm
  have hstays {r' : HandleRegistry α} (hkept : r'.handles = r.handles) :
      r.handles ++ [] ~ [] ++ r'.handles := by
    rw [hkept, List.append_nil]
    exact .refl _
  cases call with
  | insert value =>
    have hnone : r.entries.filter (·.1 = r.nextHandle) = [] := by
      apply List.filter_eq_nil_iff.mpr
      intro entry hentry heq
      exact h.ne_nextHandle hentry (of_decide_eq_true heq)
    have hkept : (r.perform (.insert value)).2.handles = r.handles ++ [Handle.nth n] := by
      change (r.insert value).2.entries.map (·.1) = _
      rw [h.entries_insert, List.map_append]
      rfl
    have hgives : r.gives (.insert value) = [Handle.nth n] :=
      congrArg (fun handle => [handle]) h.nextHandle_eq
    rw [hkept, hgives]
    simp [hands, drops, hnone]
  | modify handle f =>
    apply hstays
    change (r.modify handle f).handles = r.handles
    rw [handles, modify, List.map_map]
    apply List.map_congr_left
    intro entry _
    by_cases heq : entry.1 = handle
    · simp [heq]
    · simp [heq]
  | take handle =>
    rw [h.hands_take]
    change r.handles ++ [] ~ (_ ++ []).map Prod.fst ++ (r.erase handle).handles
    rw [List.append_nil (List.filter _ _)]
    exact hsplit handle
  | release handle => exact hsplit handle
  | contains handle => exact hstays rfl
  | get handle => exact hstays rfl
  | clear =>
    change r.handles ++ [] ~ r.handles ++ []
    exact .refl _

/-- What was kept or comes by calls is handed out or dropped by them, or kept after them. -/
theorem Issued.perm_after (h : r.Issued n)
    (hroom : n + calls.countP HandleCall.isInsert + 1 < UInt64.size) :
    r.handles ++ collect gives r calls ~
      (collect hands r calls ++ collect drops r calls).map Prod.fst ++ (r.after calls).handles := by
  induction calls generalizing r n with
  | nil => simp [collect, HandleRegistry.after]
  | cons call calls ih =>
    have hnow := h.perm_perform call
    have hlater : (r.perform call).2.handles ++ collect gives (r.perform call).2 calls ~
        (collect hands (r.perform call).2 calls ++ collect drops (r.perform call).2 calls).map
          Prod.fst ++ ((r.perform call).2.after calls).handles := by
      cases hinsert : call.isInsert with
      | true =>
        obtain ⟨value, rfl⟩ := HandleCall.exists_of_isInsert hinsert
        rw [List.countP_cons_of_pos hinsert] at hroom
        exact ih (h.insert (by omega) value) (by omega)
      | false =>
        have hnone : ¬ call.isInsert = true := Bool.eq_false_iff.mp hinsert
        rw [List.countP_cons_of_neg hnone] at hroom
        exact ih (h.perform hinsert) hroom
    calc r.handles ++ (r.gives call ++ collect gives (r.perform call).2 calls)
      _ = (r.handles ++ r.gives call) ++ collect gives (r.perform call).2 calls := by simp
      _ ~ ((r.hands call ++ r.drops call).map Prod.fst ++ (r.perform call).2.handles) ++
            collect gives (r.perform call).2 calls := hnow.append_right _
      _ ~ (r.hands call ++ r.drops call).map Prod.fst ++
            ((collect hands (r.perform call).2 calls ++
              collect drops (r.perform call).2 calls).map Prod.fst ++
                ((r.perform call).2.after calls).handles) := by
        rw [List.append_assoc]
        exact hlater.append_left _
      _ ~ ((r.hands call ++ collect hands (r.perform call).2 calls) ++
            (r.drops call ++ collect drops (r.perform call).2 calls)).map Prod.fst ++
              ((r.perform call).2.after calls).handles := by
        rw [← List.append_assoc, ← List.map_append]
        refine List.Perm.append_right _ (List.Perm.map _ ?_)
        simp only [List.append_assoc]
        exact (List.perm_append_comm_assoc ..).append_left _

end Departures

/-- What is true of a registry that began empty, after calls by which fewer than `2 ^ 64 - 1` values
came. -/
structure NamesValues (calls : List (HandleCall α)) : Prop where
  /-- the numbers from one on are given out, in this order -/
  numbers : (collect gives .empty calls).map (·.raw.toNat) =
    List.range' 1 (calls.countP HandleCall.isInsert)
  /-- a handle stands for what calls have left of the value that came under it -/
  stands : ∀ before value later, calls = before ++ .insert value :: later →
    ∃ handle : Handle, handle.raw.toNat = before.countP HandleCall.isInsert + 1 ∧
      ((empty.after before).perform (.insert value)).1 = .handle handle ∧
      (empty.after calls).get? handle = HandleCall.kept handle later value
  /-- a handle that was not given out stands for nothing -/
  unissued : ∀ handle : Handle, calls.countP HandleCall.isInsert < handle.raw.toNat →
    (empty.after calls).get? handle = none
  /-- the next call answers by what handles stand for -/
  answers : ∀ call, ((empty.after calls).perform call).1 =
    call.answer (empty.after calls).get? (.nth (calls.countP HandleCall.isInsert))
  /-- a call about one handle does nothing to others -/
  others : ∀ (call : HandleCall α) handle other, call.about? = some handle → other ≠ handle →
    ((empty.after calls).perform call).2.get? other = (empty.after calls).get? other
  /-- as many values are kept as came and were neither taken, released nor cleared -/
  size : (empty.after calls).size = (HandleCall.survivors 0 calls).length
  /-- every value was handed out once, or dropped once, or is kept -/
  once : collect gives .empty calls ~
    (collect hands .empty calls ++ collect drops .empty calls ++ (empty.after calls).entries).map
      Prod.fst
  distinct : (collect gives (.empty : HandleRegistry α) calls).Nodup

section Histories

/-- Calls about a handle do nothing to others. -/
theorem get?_perform_of_about {call : HandleCall α} {handle other : Handle}
    (habout : call.about? = some handle) (hne : other ≠ handle) (r : HandleRegistry α) :
    (r.perform call).2.get? other = r.get? other := by
  cases call with
  | insert value => cases habout
  | modify changed f =>
    cases habout
    change (r.modify handle f).get? other = r.get? other
    simp [get?_modify, hne]
  | take taken =>
    cases habout
    exact get?_erase_of_ne r hne
  | release released =>
    cases habout
    exact get?_erase_of_ne r hne
  | contains asked => rfl
  | get asked => rfl
  | clear => cases habout

/-- The numbers from one on are given out, one after the other. -/
theorem numbers_gives {calls : List (HandleCall α)}
    (hroom : 0 + calls.countP HandleCall.isInsert + 1 < UInt64.size) :
    (collect gives (.empty : HandleRegistry α) calls).map (·.raw.toNat) =
      List.range' 1 (calls.countP HandleCall.isInsert) := by
  calc (collect gives .empty calls).map (·.raw.toNat)
    _ = (List.range' 0 (calls.countP HandleCall.isInsert)).map fun n => (Handle.nth n).raw.toNat := by
      rw [issued_empty.collect_gives hroom, List.map_map]
      rfl
    _ = (List.range' 0 (calls.countP HandleCall.isInsert)).map (1 + ·) := by
      apply List.map_congr_left
      intro n hn
      have hlt := (List.mem_range'_1.mp hn).2
      rw [Handle.toNat_raw_nth (by omega), Nat.add_comm]
    _ = List.range' 1 (calls.countP HandleCall.isInsert) := List.map_add_range' ..

/-- What has become of a value since it came. -/
theorem Issued.get?_after_insert (h : r.Issued n) {later : List (HandleCall α)}
    (hroom : n + 1 + later.countP HandleCall.isInsert + 1 < UInt64.size) (value : α) :
    ((r.insert value).2.after later).get? (.nth n) = HandleCall.kept (.nth n) later value := by
  have hfound : (r.insert value).2.get? (.nth n) = some value := by
    rw [← h.nextHandle_eq]
    exact get?_insert_self r value
  have hold : (Handle.nth n).raw.toNat ≤ n + 1 := Nat.le_of_eq (Handle.toNat_raw_nth (by omega))
  rw [(h.insert (by omega) value).get?_after hroom hold, hfound]
  rfl

/-- Whatever is done with a registry, in whatever order: a handle stands for the value that came under
it, as it was last changed, until it is taken, released or cleared, and for nothing before and after
that. Every value is handed out once, or dropped once, or still kept. -/
theorem namesValues {calls : List (HandleCall α)}
    (hroom : calls.countP HandleCall.isInsert < 2 ^ 64 - 1) : NamesValues calls := by
  have hsize : (2 : Nat) ^ 64 = UInt64.size := rfl
  have hall : 0 + calls.countP HandleCall.isInsert + 1 < UInt64.size := by omega
  obtain ⟨hissued, hentries⟩ := issued_empty.after hall
  rw [Nat.zero_add] at hissued
  refine
    { numbers := numbers_gives hall
      stands := fun before value later heq => ?_
      unissued := fun handle hlt => ?_
      answers := fun call => ?_
      others := fun call handle other habout hne => get?_perform_of_about habout hne _
      size := ?_
      once := ?_
      distinct := ?_ }
  · subst heq
    rw [List.countP_append, List.countP_cons_of_pos rfl] at hall
    have hroom : 0 + before.countP HandleCall.isInsert + 1 < UInt64.size := by omega
    have hbefore := ((issued_empty (α := α)).after hroom).1
    rw [Nat.zero_add] at hbefore
    refine ⟨.nth (before.countP HandleCall.isInsert), Handle.toNat_raw_nth (by omega), ?_, ?_⟩
    · rw [fst_perform, hbefore.nextHandle_eq]
      rfl
    · have hafter : (empty : HandleRegistry α).after (before ++ .insert value :: later) =
          ((empty.after before).insert value).2.after later := by
        rw [after, List.foldl_append]
        rfl
      rw [hafter]
      exact hbefore.get?_after_insert (by omega) value
  · apply Option.eq_none_iff_forall_ne_some.mpr
    intro value hfound
    have holder := hissued.older _ (hissued.get?_eq_some_iff.mp hfound)
    rw [UInt64.lt_iff_toNat_lt, hissued.next] at holder
    exact absurd holder (Nat.not_lt.mpr hlt)
  · rw [fst_perform, hissued.nextHandle_eq]
  · rw [size, hentries]
    rfl
  · have hperm := issued_empty.perm_after hall
    rw [List.map_append]
    exact hperm
  · apply List.Nodup.of_map (·.raw.toNat)
    rw [numbers_gives hall]
    exact List.nodup_range'

/-- Two values come, the first is changed and taken, a third one comes, and the second is released. -/
def errand : List (HandleCall Nat) :=
  [.insert 10, .insert 20, .modify (.nth 0) (· + 1), .take (.nth 0), .insert 30,
    .release (.nth 1), .modify (.nth 2) (· * 2), .release (.nth 0)]

theorem errand_namesValues :
    errand.countP HandleCall.isInsert < 2 ^ 64 - 1 ∧ NamesValues errand ∧
      (empty.after errand).entries = [(.nth 2, 60)] ∧
      collect hands .empty errand = [(.nth 0, 11)] ∧
      collect drops .empty errand = [(.nth 1, 20)] := by
  have hroom : errand.countP HandleCall.isInsert < 2 ^ 64 - 1 := by decide
  exact ⟨hroom, namesValues hroom, by decide, by decide, by decide⟩

end Histories

end HandleRegistry
end Switchboard
