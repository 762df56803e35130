import Mathlib.Data.List.Nodup
import Switchboard.Pending
/-!
# Shards of a table

A table keeps each request in the shard of its id, and no id stands twice. Under this invariant a
table is a finite map: what it holds is the list of all entries of its shards, and every operation
changes that list in one place only.
-/
namespace Switchboard.PendingTable

variable {κ ε : Type}

/-- The requests of all shards, with their ids. -/
def entries (t : PendingTable κ ε) : List (RequestId × PendingRequest κ ε) :=
  t.shards.toList.flatten

/-- Every request stands in the shard of its id, and no id stands twice. -/
structure Sharded (t : PendingTable κ ε) : Prop where
  placed : ∀ k (h : k < t.shards.size), ∀ e ∈ t.shards[k], t.indexOf e.1 = k
  distinct : (t.entries.map Prod.fst).Nodup

@[simp] theorem entries_count (t : PendingTable κ ε) (f : TableStats → TableStats) :
    (t.count f).entries = t.entries := rfl

@[simp] theorem length_entries (t : PendingTable κ ε) : t.entries.length = t.size := rfl

@[simp] theorem entries_ofShards (n : Nat) :
    (ofShards n : PendingTable κ ε).entries = [] := by
  simp [entries, ofShards]

theorem sharded_ofShards (n : Nat) : (ofShards n : PendingTable κ ε).Sharded where
  placed k h e he := by simp [ofShards] at he
  distinct := by simp

theorem Sharded.count {t : PendingTable κ ε} (h : t.Sharded) (f : TableStats → TableStats) :
    (t.count f).Sharded := ⟨h.placed, h.distinct⟩

@[simp] theorem entries_record (t : PendingTable κ ε) (continuation : κ) :
    (t.record continuation).entries = t.entries := rfl

theorem Sharded.record {t : PendingTable κ ε} (h : t.Sharded) (continuation : κ) :
    (t.record continuation).Sharded := ⟨h.placed, h.distinct⟩

/-- Handing out an id changes no shard. -/
theorem Sharded.allocate {t : PendingTable κ ε} (h : t.Sharded) : t.allocate.2.Sharded :=
  ⟨h.placed, h.distinct⟩

/-- An entry stands in the shard of its own id or nowhere. -/
theorem Sharded.mem_entries_iff {t : PendingTable κ ε} (h : t.Sharded)
    (e : RequestId × PendingRequest κ ε) : e ∈ t.entries ↔ e ∈ t.shardOf e.1 := by
  constructor
  · intro he
    obtain ⟨shard, hshard, he⟩ := List.mem_flatten.mp he
    obtain ⟨k, hk, rfl⟩ := List.getElem_of_mem hshard
    have hk' : k < t.shards.size := by simpa using hk
    rw [Array.getElem_toList] at he
    have hplace := h.placed k hk' e he
    subst hplace
    exact he
  · intro he
    exact List.mem_flatten.mpr ⟨_, Array.getElem_mem_toList (t.indexOf_lt e.1), he⟩

/-- Looking an id up finds exactly the entry of that id. -/
theorem Sharded.find?_eq_some_iff {t : PendingTable κ ε} (h : t.Sharded) (id : RequestId)
    (request : PendingRequest κ ε) :
    t.find? id = some request ↔ (id, request) ∈ t.entries := by
  constructor
  · intro hf
    obtain ⟨e, he, rfl⟩ := Option.map_eq_some_iff.mp hf
    have hid : e.1 = id := by simpa using List.find?_some he
    subst hid
    exact (h.mem_entries_iff e).mpr (List.mem_of_find?_eq_some he)
  · intro hmem
    have hs := (h.mem_entries_iff _).mp hmem
    cases hf : List.find? (fun entry => entry.1 = id) (t.shardOf id) with
    | none => simpa using List.find?_eq_none.mp hf _ hs
    | some e =>
      have hid : e.1 = id := by simpa using List.find?_some hf
      have hmem' : e ∈ t.entries := by
        refine (h.mem_entries_iff e).mpr ?_
        rw [hid]
        exact List.mem_of_find?_eq_some hf
      have heq := List.inj_on_of_nodup_map h.distinct hmem' hmem hid
      simp [PendingTable.find?, Shard.find?, hf, heq]

/-- The entries before and after the shard of an id are of other ids, and stay where they are when
that shard changes. -/
theorem Sharded.exists_around {t : PendingTable κ ε} (h : t.Sharded) (id : RequestId) :
    ∃ before after, (∀ e ∈ before ++ after, e.1 ≠ id) ∧
      t.entries = before ++ t.shardOf id ++ after ∧
      ∀ f, (t.modifyShard id f).entries = before ++ f (t.shardOf id) ++ after := by
  have hlt : t.indexOf id < t.shards.toList.length := by simpa using t.indexOf_lt id
  refine ⟨(t.shards.toList.take (t.indexOf id)).flatten,
    (t.shards.toList.drop (t.indexOf id + 1)).flatten, ?_, ?_, ?_⟩
  · intro e he hid
    obtain ⟨k, hk, hne, he⟩ : ∃ k, ∃ hk : k < t.shards.size, k ≠ t.indexOf id ∧
        e ∈ t.shards[k] := by
      rw [← List.flatten_append, List.mem_flatten] at he
      obtain ⟨shard, hshard, he⟩ := he
      rcases List.mem_append.mp hshard with hs | hs
      · obtain ⟨k, hk, rfl⟩ := List.mem_iff_getElem.mp hs
        rw [List.length_take] at hk
        refine ⟨k, by simp at hk; omega, by omega, ?_⟩
        simpa using he
      · obtain ⟨k, hk, rfl⟩ := List.mem_iff_getElem.mp hs
        rw [List.length_drop] at hk
        refine ⟨t.indexOf id + 1 + k, by simp at hk; omega, by omega, ?_⟩
        simpa using he
    exact hne (by rw [← h.placed k hk e he, hid])
  · have hsplit := List.take_append_drop (t.indexOf id) t.shards.toList
    rw [List.drop_eq_getElem_cons hlt] at hsplit
    conv_lhs => rw [entries, ← hsplit]
    simp [shardOf]
  · intro f
    simp only [entries, modifyShard, Array.toList_modify, List.modify_eq_take_cons_drop hlt]
    simp [shardOf]

@[simp] theorem indexOf_modifyShard (t : PendingTable κ ε) (id other : RequestId)
    (f : Shard κ ε → Shard κ ε) : (t.modifyShard id f).indexOf other = t.indexOf other := by
  simp [indexOf, modifyShard]

/-- Changing a shard keeps its entries in place if nothing but the id of the shard is added. -/
theorem Sharded.placed_modifyShard {t : PendingTable κ ε} (h : t.Sharded) (id : RequestId)
    {f : Shard κ ε → Shard κ ε} (hf : ∀ e ∈ f (t.shardOf id), e ∈ t.shardOf id ∨ e.1 = id)
    (k : Nat) (hk : k < (t.modifyShard id f).shards.size) :
    ∀ e ∈ (t.modifyShard id f).shards[k], (t.modifyShard id f).indexOf e.1 = k := by
  intro e he
  rw [indexOf_modifyShard]
  simp only [modifyShard, Array.getElem_modify] at he
  split at he
  · next hidx =>
    subst hidx
    rcases hf e he with hold | hnew
    · exact h.placed _ (t.indexOf_lt id) e hold
    · rw [hnew]
  · exact h.placed k (by simpa [modifyShard] using hk) e he

/-- Taking an id out leaves the entries of all other ids, in their order. -/
theorem Sharded.entries_erase {t : PendingTable κ ε} (h : t.Sharded) (id : RequestId) :
    (t.erase id).entries = t.entries.filter (·.1 ≠ id) := by
  obtain ⟨before, after, hother, hentries, hmodify⟩ := h.exists_around id
  have hkeep (part : Shard κ ε) (hpart : ∀ e ∈ part, e ∈ before ++ after) :
      part.filter (·.1 ≠ id) = part :=
    List.filter_eq_self.mpr fun e he => by simpa using hother e (hpart e he)
  rw [erase, hmodify, hentries, List.filter_append, List.filter_append,
    hkeep before (fun e he => List.mem_append_left _ he),
    hkeep after (fun e he => List.mem_append_right _ he)]
  rfl

theorem Sharded.erase {t : PendingTable κ ε} (h : t.Sharded) (id : RequestId) :
    (t.erase id).Sharded where
  placed := h.placed_modifyShard id fun e he => Or.inl (List.mem_of_mem_filter he)
  distinct := by
    rw [h.entries_erase]
    exact h.distinct.sublist (List.filter_sublist.map _)

/-- Taking an id out leaves the requests of all other ids. -/
theorem Sharded.find?_erase {t : PendingTable κ ε} (h : t.Sharded) (id other : RequestId) :
    (t.erase id).find? other = if other = id then none else t.find? other := by
  rw [Option.ext_iff]
  intro request
  rw [(h.erase id).find?_eq_some_iff, h.entries_erase, List.mem_filter]
  split
  · next heq => simp [heq]
  · next hne => simp [hne, h.find?_eq_some_iff]

/-- A new request stands among the others. -/
theorem Sharded.entries_insert {t : PendingTable κ ε} (h : t.Sharded) (id : RequestId)
    (request : PendingRequest κ ε) :
    (t.modifyShard id ((id, request) :: ·)).entries.Perm ((id, request) :: t.entries) := by
  obtain ⟨before, after, _, hentries, hmodify⟩ := h.exists_around id
  rw [hmodify, hentries, List.append_assoc, List.append_assoc]
  exact List.perm_middle

theorem Sharded.insert {t : PendingTable κ ε} (h : t.Sharded) {id : RequestId}
    (hnew : t.find? id = none) (request : PendingRequest κ ε) :
    (t.modifyShard id ((id, request) :: ·)).Sharded where
  placed := h.placed_modifyShard id fun e he => by
    rcases List.mem_cons.mp he with rfl | he
    · exact Or.inr rfl
    · exact Or.inl he
  distinct := by
    refine ((h.entries_insert id request).map Prod.fst).nodup_iff.mpr ?_
    refine List.nodup_cons.mpr ⟨?_, h.distinct⟩
    intro hmem
    obtain ⟨⟨id', other⟩, hother, rfl⟩ := List.mem_map.mp hmem
    simp [(h.find?_eq_some_iff id' other).mpr hother] at hnew

/-- A table that was cancelled holds nothing. -/
@[simp] theorem entries_cancelAll (t : PendingTable κ ε) (reason : String) :
    (t.cancelAll reason).2.2.entries = [] := by
  simp [entries, cancelAll]

theorem sharded_cancelAll (t : PendingTable κ ε) (reason : String) :
    (t.cancelAll reason).2.2.Sharded where
  placed k h e he := by simp [cancelAll] at he
  distinct := by simp

section Lookup

variable {t : PendingTable κ ε}

/-- After a final result the request of its id does not wait, and all others do. -/
theorem Sharded.find?_complete (h : t.Sharded) (id other : RequestId) (result : CmdResult) :
    (t.complete id result).2.2.find? other =
      if other = id ∧ result.isFinal = true then none else t.find? other := by
  cases hfound : t.find? id with
  | none =>
    rw [complete_of_none hfound]
    change t.find? other = _
    split
    · next heq => rw [heq.1, hfound]
    · rfl
  | some request =>
    cases hfinal : result.isFinal with
    | true =>
      rw [complete_of_final hfound hfinal]
      change (t.erase id).find? other = _
      rw [h.find?_erase]
      simp
    | false =>
      rw [complete_of_interim hfound hfinal]
      simp

/-- After a fault the request of its id does not wait, and all others do. -/
theorem Sharded.find?_fail (h : t.Sharded) (id other : RequestId) (fault : Fault) :
    (t.fail id fault).2.2.find? other = if other = id then none else t.find? other := by
  cases hfound : t.find? id with
  | none =>
    rw [fail_of_none hfound]
    split
    · next heq => rw [heq, hfound]
    · rfl
  | some request =>
    rw [fail_of_some hfound]
    exact h.find?_erase id other

/-- After everything was cancelled nothing waits. -/
theorem find?_cancelAll (t : PendingTable κ ε) (reason : String) (id : RequestId) :
    (t.cancelAll reason).2.2.find? id = none := by
  rw [Option.eq_none_iff_forall_ne_some]
  intro request hfound
  have hmem := ((sharded_cancelAll t reason).find?_eq_some_iff id request).mp hfound
  rw [entries_cancelAll] at hmem
  cases hmem

end Lookup

/-- The requests that are cancelled are those that waited. -/
theorem pending_perm (t : PendingTable κ ε) : t.pending.Perm t.entries :=
  List.mergeSort_perm _ _

end Switchboard.PendingTable
