import Mathlib.Algebra.Group.Pi.Basic
import Mathlib.Algebra.GroupWithZero.Nat
import Mathlib.Data.List.Dedup
import Switchboard.Bench.World
import Switchboard.Proofs.Continuation.Stages
import Switchboard.Proofs.Pending.Endings
/-!
# Accounts of a bench

A request that the table has taken for a continuation is owed one ending. The table owes it while
the request waits; then the ending is handed out, is queued on a context, and arrives at the
continuation. On its way it can be lost, since contexts may refuse jobs, but it never multiplies:
the endings of a continuation on all these places are at most as many as its requests.
-/
namespace Switchboard.Bench

/-- The endings for a continuation that a job is. -/
def Job.endings : Job → Nat → Nat
  | .resume cell _ terminal => fun i => if terminal ∧ cell = i then 1 else 0
  | .script .. | .arrival .. => 0

namespace World

/-- All that has happened at a continuation. -/
def history (w : World) (i : Nat) : List Visit :=
  (w.cells[i]?.map (·.continuation.history)).getD []

/-- The stage of a continuation. -/
def stage (w : World) (i : Nat) : Stage := Stage.after (w.history i)

/-- The endings for a continuation that are queued on the contexts. -/
def queuedFor (w : World) (i : Nat) : Nat :=
  (w.contexts.map fun entry => (entry.2.queue.map (·.endings i)).sum).sum

/-- The endings for a continuation that have arrived. -/
def arrivedFor (w : World) (i : Nat) : Nat := (w.history i).countP Visit.isEnd

/-- The endings for a continuation that wait, are queued or have arrived. -/
def endingsFor (w : World) (i : Nat) : Nat :=
  w.router.table.waitingFor i + w.queuedFor i + w.arrivedFor i

/-- The invariant of a bench. With the endings in hand, which are neither waiting nor queued nor
arrived, no continuation has more endings than requests. -/
structure Sound (w : World) (hand : Nat → Nat) : Prop where
  sharded : w.router.table.Sharded
  names : (w.contexts.map Prod.fst).Nodup
  faithful : ∀ (i : Nat) (cell : Cell), w.cells[i]? = some cell → cell.continuation.Faithful
  endings : ∀ i, hand i + w.endingsFor i ≤ w.router.table.takenFor i

/-- The same calls are in progress. -/
def Balanced (w w' : World) : Prop :=
  ∀ i terminal, w.stage i = .busy terminal ↔ w'.stage i = .busy terminal

theorem Balanced.refl (w : World) : Balanced w w := fun _ _ => Iff.rfl

theorem Balanced.trans {w w' w'' : World} (h : Balanced w w') (h' : Balanced w' w'') :
    Balanced w w'' := fun i terminal => (h i terminal).trans (h' i terminal)

/-- What is lost from the hand is lost for good. -/
theorem Sound.drop {w : World} {hand less : Nat → Nat} (h : w.Sound hand)
    (hless : ∀ i, less i ≤ hand i) : w.Sound less where
  sharded := h.sharded
  names := h.names
  faithful := h.faithful
  endings i := by
    have := h.endings i
    have := hless i
    omega

/-- Nothing that counts has changed. -/
structure Same (w w' : World) : Prop where
  cells : w'.cells = w.cells
  table : w'.router.table = w.router.table
  contexts : w'.contexts = w.contexts

theorem Same.balanced {w w' : World} (h : Same w w') : Balanced w w' := by
  intro i terminal
  rw [stage, stage, history, history, h.cells]

theorem Sound.same {w w' : World} {hand : Nat → Nat} (hw : w.Sound hand) (h : Same w w') :
    w'.Sound hand where
  sharded := by rw [h.table]; exact hw.sharded
  names := by rw [h.contexts]; exact hw.names
  faithful := by rw [h.cells]; exact hw.faithful
  endings i := by
    have hhistory : w'.arrivedFor i = w.arrivedFor i := by
      rw [arrivedFor, arrivedFor, history, history, h.cells]
    have hqueued : w'.queuedFor i = w.queuedFor i := by rw [queuedFor, queuedFor, h.contexts]
    rw [endingsFor, h.table, hqueued, hhistory]
    exact hw.endings i

/-- A change of the table alone. -/
theorem Sound.setTable {w : World} {hand hand' : Nat → Nat} (hw : w.Sound hand)
    {r : Router Nat ExecutorName Endpoint} (hsharded : r.table.Sharded)
    (hwaiting : ∀ i, hand' i + r.table.waitingFor i + w.router.table.takenFor i ≤
      hand i + w.router.table.waitingFor i + r.table.takenFor i) :
    { w with router := r }.Sound hand' where
  sharded := hsharded
  names := hw.names
  faithful := hw.faithful
  endings i := by
    have hold := hw.endings i
    have hnew := hwaiting i
    change hand' i + (r.table.waitingFor i + w.queuedFor i + w.arrivedFor i) ≤ _
    rw [endingsFor] at hold
    change _ ≤ r.table.takenFor i
    omega

theorem balanced_setRouter (w : World) (r : Router Nat ExecutorName Endpoint) :
    Balanced w { w with router := r } := fun _ _ => Iff.rfl

/-- The contexts before and after the one of a name stay as they are when that one is replaced. -/
theorem exists_around {w : World} (hnames : (w.contexts.map Prod.fst).Nodup) {name : String}
    {c : LocalContext Job} (hfound : w.contexts.lookup name = some c) :
    ∃ before after, w.contexts = before ++ (name, c) :: after ∧
      ∀ c', (w.setContext name c').contexts = before ++ (name, c') :: after := by
  obtain ⟨before, after, hsplit, hbefore⟩ := List.lookup_eq_some_iff.mp hfound
  refine ⟨before, after, hsplit, fun c' => ?_⟩
  rw [hsplit, List.map_append, List.map_cons, List.nodup_append] at hnames
  obtain ⟨-, hafter, -⟩ := hnames
  have hkeep (part : List (String × LocalContext Job)) (hpart : ∀ e ∈ part, e.1 ≠ name) :
      (part.map fun entry => if entry.1 = name then (name, c') else entry) = part := by
    conv_rhs => rw [← List.map_id part]
    exact List.map_congr_left fun e he => if_neg (hpart e he)
  rw [setContext, hsplit, List.map_append, List.map_cons, if_pos rfl, hkeep, hkeep]
  · intro e he hname
    exact (List.nodup_cons.mp hafter).1 (List.mem_map.mpr ⟨e, he, hname⟩)
  · intro e he
    exact fun hname => by simpa [hname] using hbefore e he

/-- A change of one context alone. -/
theorem Sound.setContext {w : World} {hand hand' : Nat → Nat} (hw : w.Sound hand) {name : String}
    {c c' : LocalContext Job} (hfound : w.contexts.lookup name = some c)
    (hqueued : ∀ i, hand' i + (c'.queue.map (·.endings i)).sum ≤
      hand i + (c.queue.map (·.endings i)).sum) :
    (w.setContext name c').Sound hand' where
  sharded := hw.sharded
  names := by
    obtain ⟨before, after, hold, hnew⟩ := exists_around hw.names hfound
    have hnames := hw.names
    rw [hold] at hnames
    rw [hnew]
    simpa using hnames
  faithful := hw.faithful
  endings i := by
    obtain ⟨before, after, hold, hnew⟩ := exists_around hw.names hfound
    have hendings := hw.endings i
    have hqueue := hqueued i
    have hafter : (w.setContext name c').queuedFor i + (c.queue.map (·.endings i)).sum =
        w.queuedFor i + (c'.queue.map (·.endings i)).sum := by
      rw [queuedFor, queuedFor, hold, hnew]
      simp only [List.map_append, List.map_cons, List.sum_append, List.sum_cons]
      omega
    change hand' i + (w.router.table.waitingFor i + (w.setContext name c').queuedFor i +
      w.arrivedFor i) ≤ w.router.table.takenFor i
    rw [endingsFor] at hendings
    omega

theorem balanced_setContext (w : World) (name : String) (c : LocalContext Job) :
    Balanced w (w.setContext name c) := fun _ _ => Iff.rfl

/-- The world with another continuation of a number. -/
def setCell (w : World) (i : Nat) (cell : Cell) : World :=
  { w with cells := w.cells.setIfInBounds i cell }

theorem history_setCell {w : World} {i : Nat} {cell : Cell} (hfound : w.cells[i]? = some cell)
    (cell' : Cell) (k : Nat) :
    (w.setCell i cell').history k =
      if i = k then cell'.continuation.history else w.history k := by
  obtain ⟨hlt, -⟩ := Array.getElem?_eq_some_iff.mp hfound
  rw [history, setCell, Array.getElem?_setIfInBounds]
  split
  · rfl
  · rfl

theorem history_of_getElem? {w : World} {i : Nat} {cell : Cell} (hfound : w.cells[i]? = some cell) :
    w.history i = cell.continuation.history := by
  rw [history, hfound]
  rfl

/-- A change of one continuation alone. -/
theorem Sound.setCell {w : World} {hand hand' : Nat → Nat} (hw : w.Sound hand) {i : Nat}
    {cell cell' : Cell} (hfound : w.cells[i]? = some cell)
    (hfaithful : cell'.continuation.Faithful) (hother : ∀ k, k ≠ i → hand' k ≤ hand k)
    (hends : hand' i + cell'.continuation.ends ≤ hand i + cell.continuation.ends) :
    (w.setCell i cell').Sound hand' where
  sharded := hw.sharded
  names := hw.names
  faithful k other hother := by
    change (w.cells.setIfInBounds i cell')[k]? = some other at hother
    rw [Array.getElem?_setIfInBounds] at hother
    split at hother
    · split at hother
      · obtain rfl := Option.some.inj hother
        exact hfaithful
      · cases hother
    · exact hw.faithful k other hother
  endings k := by
    have hendings := hw.endings k
    change hand' k + (w.router.table.waitingFor k + w.queuedFor k +
      ((w.setCell i cell').history k).countP Visit.isEnd) ≤ w.router.table.takenFor k
    rw [endingsFor, arrivedFor] at hendings
    rw [history_setCell hfound]
    split
    · next heq =>
      subst heq
      rw [history_of_getElem? hfound] at hendings
      rw [Continuation.ends, Continuation.ends] at hends
      omega
    · next hne =>
      have := hother k (Ne.symm hne)
      omega

theorem stage_setCell {w : World} {i : Nat} {cell : Cell} (hfound : w.cells[i]? = some cell)
    (cell' : Cell) (k : Nat) :
    (w.setCell i cell').stage k = if i = k then cell'.continuation.stage else w.stage k := by
  rw [stage, history_setCell hfound]
  split <;> rfl

/-- A new continuation is idle. -/
theorem history_addCell (w : World) (handler : Handler) (observable : Bool) (k : Nat) :
    { w with cells := w.cells.push ⟨.ofHandler handler, observable⟩ }.history k = w.history k := by
  rw [history, history, Array.getElem?_push]
  split
  · next heq =>
    rw [heq, Array.getElem?_eq_none (Nat.le_refl _)]
    rfl
  · rfl

/-- Where every ending has arrived or is on its way, a continuation with one request gets one
ending at most. -/
theorem Sound.ends_le {w : World} (hw : w.Sound 0) {i : Nat} {cell : Cell}
    (hfound : w.cells[i]? = some cell) : cell.continuation.ends ≤ w.router.table.takenFor i := by
  have hendings := hw.endings i
  rw [endingsFor, arrivedFor, history_of_getElem? hfound] at hendings
  rw [Continuation.ends]
  omega

/-- No name stands twice once the duplicates are gone. -/
theorem nodup_eraseDups (names : List String) : names.eraseDups.Nodup := by
  match names with
  | [] => exact List.nodup_nil
  | name :: names =>
    rw [List.eraseDups_cons, List.nodup_cons, List.mem_eraseDups]
    exact ⟨by simp, nodup_eraseDups _⟩
termination_by names.length
decreasing_by
  have := List.length_filter_le (fun b => !b == name) names
  simp only [List.length_cons]
  omega

theorem sound_ofContexts (shards : Nat) (contexts : List String) :
    (ofContexts shards contexts).Sound 0 where
  sharded := PendingTable.sharded_ofShards shards
  names := by
    rw [ofContexts, List.map_map]
    exact (nodup_eraseDups contexts).map fun _ _ => id
  faithful i cell hfound := by simp [ofContexts] at hfound
  endings i := by
    have hqueued : (ofContexts shards contexts).queuedFor i = 0 := by
      rw [queuedFor, ofContexts, List.map_map]
      change (contexts.eraseDups.map fun _ => 0).sum = 0
      simp
    have hwaiting : (ofContexts shards contexts).router.table.waitingFor i = 0 := by
      simp [PendingTable.waitingFor, ofContexts]
    have harrived : (ofContexts shards contexts).arrivedFor i = 0 := by
      simp [arrivedFor, history, ofContexts]
    rw [endingsFor, hqueued, hwaiting, harrived]
    exact Nat.zero_le _

end World
end Switchboard.Bench
