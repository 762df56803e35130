import Mathlib.Algebra.BigOperators.Group.Finset.Piecewise
import Switchboard.Proofs.Run.Course
/-!
# The tally of a course

Nobody but the tester's own sends and handlers touches the counters of its commands: a send that is
accepted counts, and so does each call of a handler, at its beginning. Along all courses in which it
is like that, the commands that the tester has sent are those that were answered or cancelled, those
that wait, and those whose endings are queued for it.
-/
namespace Switchboard.App

/-- The counters of commands, with what else is counted in notes. -/
def Counters.beside (c notes : Counters) : Counters :=
  { c with oneWaySent := notes.oneWaySent, resultsReturned := notes.resultsReturned }

/-- Counts the outcome that a handler of the tester is called with. -/
def Counters.see (c : Counters) : Entry → Counters
  | .handler _ outcome => c.observe outcome
  | .sent _ | .message _ | .phase _ => c

/-- The request that ends when its handler is called. -/
def Entry.ended? : Entry → Option Nat
  | .handler i outcome => if outcome.isTerminal then some i else none
  | .sent _ | .message _ | .phase _ => none

/-- Whether a result that is not final is handed to the handler of a streaming command. -/
def Entry.streams (flags : List Bool) : Entry → Bool
  | .handler i outcome => !outcome.isTerminal && flags[i]? = some true
  | .sent _ | .message _ | .phase _ => false

/-- The request whose ending is queued. -/
def endedBy : Task Job → Option Nat
  | .job (.resume i _ true) => some i
  | .job (.resume _ _ false) | .job (.arrival _) | .job (.initExtension _) | .job .startExtension
  | .job (.phase _) | .job (.completion _) | .mark => none

/-- How many requests of a side wait. -/
def waitingOf (a : App) (side : Side) : Nat :=
  a.router.table.entries.countP (·.2.executor = side)

/-- How many endings are queued for a side. -/
def endingsQueued (a : App) (side : Side) : Nat :=
  (a.worker side).queue.countP fun task => (endedBy task).isSome

/-- The flags of the commands that are sent. -/
def Deed.flags : Deed → List Bool
  | .act (.operate op) => op.flags
  | .act (.note _) | .act (.take _) | .act (.finish ..) | .act (.call _) | .act .proceed
  | .giveUp => []

namespace Scene

/-- What the tester's handlers are called with is counted. -/
def observe (s : Scene) (entries : List Entry) : Scene :=
  { s with app := { s.app with counters := entries.foldl Counters.see s.app.counters } }

/-- What becomes of a scene by something that happens, when commands are counted: whoever takes
notes leaves their counters alone, and a worker that begins to call a handler of the tester counts
the outcome. -/
def tallied (s : Scene) : Deed → Option Scene
  | .act (.note notes) => s.undergo (.act (.note
      { notes with counters := s.app.counters.beside notes.counters }))
  | .act (.take side) => (s.take side).map fun s' => s'.observe (s'.log.drop s.log.length)
  | .act (.operate op) => s.undergo (.act (.operate op))
  | .act (.finish side ended) => s.undergo (.act (.finish side ended))
  | .act (.call tester) => s.undergo (.act (.call tester))
  | .act .proceed => s.undergo (.act .proceed)
  | .giveUp => s.undergo .giveUp

/-- What becomes of a scene by things that happen one after the other, when commands are counted. -/
def tally (s : Scene) : List Deed → Option Scene
  | [] => some s
  | deed :: deeds => (s.tallied deed).bind fun s => s.tally deeds

/-- The books with the counters of commands. Owners and flags are those of all continuations. -/
structure Tallied (owners : List Side) (flags : List Bool) (s : Scene) : Prop where
  lasting : s.Lasting owners
  flagged : s.app.Flagged flags
  sent : s.app.counters.cmdsSent = s.app.router.table.taken.countP (owners[·]? = some .tester)
  ended : s.app.counters.results + s.app.counters.failed + s.app.counters.cancelled =
    s.log.countP fun entry => entry.ended?.isSome
  streamed : s.app.counters.intermediate = s.log.countP (Entry.streams flags)
  arrived : ∀ i, owners[i]? = some .tester →
    s.log.countP (fun entry => entry.ended? = some i) = (s.app.history i).countP Visit.isEnd
  called : ∀ i outcome, .handler i outcome ∈ s.log → owners[i]? = some .tester

section Sums

variable {α : Type}

/-- What belongs to one of several numbers belongs to one of them only. -/
theorem sum_countP (numbers : Finset Nat) (f : α → Option Nat) (l : List α) :
    ∑ i ∈ numbers, l.countP (fun x => f x = some i) =
      l.countP fun x => (f x).any (· ∈ numbers) := by
  induction l with
  | nil => simp
  | cons x l ih =>
    have hhead : (∑ i ∈ numbers, if f x = some i then 1 else 0) =
        if (f x).any (· ∈ numbers) then 1 else 0 := by
      cases f x with
      | none => simp
      | some k => simp
    simp only [List.countP_cons, Finset.sum_add_distrib, ih, decide_eq_true_eq, hhead]

/-- The endings for a continuation in a queue are the tasks that end it. -/
theorem queuedIn_eq_countP (queue : List (Task Job)) (i : Nat) :
    queuedIn queue i = queue.countP fun task => endedBy task = some i := by
  induction queue with
  | nil => rfl
  | cons task tasks ih =>
    have hhead : endingsOf task i = if endedBy task = some i then 1 else 0 := by
      cases task with
      | mark => rfl
      | job job =>
        cases job with
        | resume k outcome terminal => cases terminal <;> simp [endingsOf, endedBy]
        | arrival msg => rfl
        | initExtension properties => rfl
        | startExtension => rfl
        | phase callback => rfl
        | completion completion => rfl
    rw [queuedIn_cons, ih, List.countP_cons, hhead, Nat.add_comm]
    simp only [decide_eq_true_eq]

theorem eq_of_endedBy {task : Task Job} {i : Nat} (h : endedBy task = some i) :
    ∃ outcome, task = .job (.resume i outcome true) := by
  cases task with
  | mark => cases h
  | job job =>
    cases job with
    | resume k outcome terminal =>
      cases terminal with
      | true =>
        cases h
        exact ⟨outcome, rfl⟩
      | false => cases h
    | arrival msg => cases h
    | initExtension properties => cases h
    | startExtension => cases h
    | phase callback => cases h
    | completion completion => cases h

theorem eq_of_ended? {entry : Entry} {i : Nat} (h : entry.ended? = some i) :
    ∃ outcome, entry = .handler i outcome := by
  cases entry with
  | handler k outcome =>
    rw [Entry.ended?] at h
    split at h
    · exact ⟨outcome, congrArg (Entry.handler · outcome) (Option.some.inj h)⟩
    · cases h
  | sent k => cases h
  | message msg => cases h
  | phase callback => cases h

theorem exists_of_streams {flags : List Bool} {entry : Entry} (h : entry.streams flags = true) :
    ∃ i outcome, entry = .handler i outcome := by
  cases entry with
  | handler i outcome => exact ⟨i, outcome, rfl⟩
  | sent k => cases h
  | message msg => cases h
  | phase callback => cases h

/-- What is asked of the elements may be asked in another way. -/
theorem countP_any_of_forall {numbers : Finset Nat} {f : α → Option Nat} {l : List α}
    {p : α → Bool} (h : ∀ x ∈ l, (f x).any (· ∈ numbers) = p x) :
    ∑ i ∈ numbers, l.countP (fun x => f x = some i) = l.countP p := by
  rw [sum_countP]
  exact List.countP_congr fun x hx => by rw [h x hx]

end Sums

section Balance

variable {owners : List Side} {flags : List Bool} {s : Scene}

/-- The commands of the tester that were taken wait, or their endings are queued for the tester, or
they are ended. -/
theorem Tallied.taken_eq (h : s.Tallied owners flags) :
    s.app.router.table.taken.countP (owners[·]? = some .tester) =
      s.app.waitingOf .tester + s.app.endingsQueued .tester +
        s.log.countP fun entry => entry.ended?.isSome := by
  obtain ⟨hsound, hplaced, -⟩ := h.lasting.accounted
  let own : Finset Nat := (Finset.range owners.length).filter (owners[·]? = some .tester)
  have hown (i : Nat) : i ∈ own ↔ owners[i]? = some .tester := by
    simp only [own, Finset.mem_filter, Finset.mem_range, and_iff_right_iff_imp]
    exact fun howner => (List.getElem?_eq_some_iff.mp howner).1
  have hending (i : Nat) (hi : i ∈ own) :
      s.app.router.table.waitingFor i + queuedIn s.app.testerWorker.queue i +
          s.log.countP (fun entry => entry.ended? = some i) =
        s.app.router.table.taken.count i := by
    have howner := (hown i).mp hi
    have hengine : queuedIn s.app.engineWorker.queue i = 0 := by
      apply queuedIn_eq_zero
      intro outcome terminal hmem
      have howner' := hplaced.queued .engine i outcome terminal hmem
      rw [howner] at howner'
      cases howner'
    have hendings := hsound.endings i
    rw [endingsFor, hengine, ← h.arrived i howner] at hendings
    simpa [PendingTable.takenFor] using hendings
  have hsum := Finset.sum_congr rfl hending
  simp only [Finset.sum_add_distrib] at hsum
  have hwaiting : ∑ i ∈ own, s.app.router.table.waitingFor i = s.app.waitingOf .tester := by
    have hf : ∑ i ∈ own, s.app.router.table.entries.countP
        (fun e => some e.2.continuation = some i) = s.app.waitingOf .tester :=
      countP_any_of_forall fun e he => by simp [hown, hplaced.entries e he]
    simpa [PendingTable.waitingFor] using hf
  have hqueued : ∑ i ∈ own, queuedIn s.app.testerWorker.queue i = s.app.endingsQueued .tester := by
    simp only [queuedIn_eq_countP]
    refine countP_any_of_forall fun task htask => ?_
    cases hended : endedBy task with
    | none => rfl
    | some i =>
      obtain ⟨outcome, rfl⟩ := eq_of_endedBy hended
      have howner := hplaced.queued .tester i outcome true htask
      simp [hown, howner]
  have hended : ∑ i ∈ own, s.log.countP (fun entry => entry.ended? = some i) =
      s.log.countP fun entry => entry.ended?.isSome := by
    refine countP_any_of_forall fun entry hentry => ?_
    cases hended : entry.ended? with
    | none => rfl
    | some i =>
      obtain ⟨outcome, rfl⟩ := eq_of_ended? hended
      simp [hown, h.called i outcome hentry]
  have htaken : ∑ i ∈ own, s.app.router.table.taken.count i =
      s.app.router.table.taken.countP (owners[·]? = some .tester) := by
    have hf : ∑ i ∈ own, s.app.router.table.taken.countP (fun k => some k = some i) =
        s.app.router.table.taken.countP (owners[·]? = some .tester) :=
      countP_any_of_forall fun i _ => by simp [hown]
    simpa [List.count_eq_countP, beq_eq_decide] using hf
  rw [← htaken, ← hsum, hwaiting, hqueued, hended]

end Balance

section Changes

variable {owners owners' : List Side} {flags flags' : List Bool} {s s' : Scene}

/-- What a handler was called with is still counted in the same way when there are more flags. -/
theorem streams_append (flags more : List Bool) {i : Nat} (hi : i < flags.length)
    (outcome : Outcome) :
    (Entry.handler i outcome).streams (flags ++ more) = (Entry.handler i outcome).streams flags := by
  rw [Entry.streams, Entry.streams, List.getElem?_append_left hi]

/-- No handler is called. Commands that the table has taken are counted if they are the tester's. -/
theorem Tallied.grows (h : s.Tallied owners flags) (howners : owners <+: owners')
    (hflags : flags <+: flags') (hlasting : s'.Lasting owners') (hflagged : s'.app.Flagged flags')
    {more : List Nat} (htaken : s'.app.router.table.taken = s.app.router.table.taken ++ more)
    (hcounters : s'.app.counters.commands = { s.app.counters.commands with
      cmdsSent := s.app.counters.cmdsSent + more.countP (owners'[·]? = some .tester) })
    {entries : List Entry} (hlog : s'.log = s.log ++ entries)
    (hentries : ∀ i outcome, .handler i outcome ∉ entries)
    (hends : ∀ i, owners[i]? ≠ some .engine →
      (s'.app.history i).countP Visit.isEnd = (s.app.history i).countP Visit.isEnd) :
    s'.Tallied owners' flags' := by
  obtain ⟨hsound, hplaced, -⟩ := h.lasting.accounted
  obtain ⟨moreOwners, rfl⟩ := howners
  obtain ⟨moreFlags, rfl⟩ := hflags
  have hsame (p : Entry → Bool)
      (hp : ∀ entry, p entry = true → ∃ i outcome, entry = .handler i outcome) :
      entries.countP p = 0 := by
    apply List.countP_eq_zero.mpr
    intro entry hentry hcounts
    obtain ⟨i, outcome, rfl⟩ := hp entry hcounts
    exact hentries i outcome hentry
  have hended (entry : Entry) (h : entry.ended?.isSome = true) :
      ∃ i outcome, entry = .handler i outcome := by
    obtain ⟨i, heq⟩ := Option.isSome_iff_exists.mp h
    exact ⟨i, eq_of_ended? heq⟩
  have hrange {i : Nat} {side : Side} (howner : owners[i]? = some side) : i < owners.length :=
    (List.getElem?_eq_some_iff.mp howner).1
  simp only [Counters.commands, Counters.mk.injEq, and_true] at hcounters
  obtain ⟨hsent, hresults, hintermediate, hfailed, hcancelled⟩ := hcounters
  constructor
  · exact hlasting
  · exact hflagged
  · rw [hsent, htaken, List.countP_append, h.sent]
    refine congrArg (· + _) (List.countP_congr fun i hi => ?_)
    have hlt : i < owners.length := hplaced.size ▸ hsound.inRange i hi
    rw [List.getElem?_append_left hlt]
  · rw [hresults, hfailed, hcancelled, h.ended, hlog, List.countP_append, hsame _ hended,
      Nat.add_zero]
  · rw [hintermediate, h.streamed, hlog, List.countP_append,
      hsame _ fun _ => exists_of_streams, Nat.add_zero]
    refine List.countP_congr fun entry hentry => ?_
    cases entry with
    | handler i outcome =>
      have hlt := hrange (h.called i outcome hentry)
      rw [streams_append flags moreFlags (by rw [h.flagged.size, ← hplaced.size]; exact hlt)]
    | sent i => rfl
    | message msg => rfl
    | phase callback => rfl
  · intro i howner
    have htester : owners[i]? ≠ some .engine := by
      intro hengine
      rw [getElem?_more hengine] at howner
      cases howner
    rw [hends i htester, hlog, List.countP_append, hsame (fun entry => entry.ended? = some i)
      fun entry hentry => ⟨i, eq_of_ended? (of_decide_eq_true hentry)⟩, Nat.add_zero]
    rcases Nat.lt_or_ge i owners.length with hlt | hge
    · rw [List.getElem?_append_left hlt] at howner
      exact h.arrived i howner
    · -- nothing has happened at a new continuation
      rw [history_of_size_le (hplaced.size ▸ hge), List.countP_nil]
      apply List.countP_eq_zero.mpr
      intro entry hentry hended
      obtain ⟨outcome, rfl⟩ := eq_of_ended? (of_decide_eq_true hended)
      exact Nat.not_lt.mpr hge (hrange (h.called i outcome hentry))
  · intro i outcome hmem
    rw [hlog] at hmem
    rcases List.mem_append.mp hmem with hmem | hmem
    · exact getElem?_more (h.called i outcome hmem)
    · exact absurd hmem (hentries i outcome)

/-- Neither are commands taken. -/
theorem Tallied.still (h : s.Tallied owners flags) (hlasting : s'.Lasting owners)
    (huncounted : Uncounted flags s.app s'.app) (hlog : s'.log = s.log)
    (hends : ∀ i, (s'.app.history i).countP Visit.isEnd = (s.app.history i).countP Visit.isEnd) :
    s'.Tallied owners flags := by
  obtain ⟨hflagged, hcounters, htaken⟩ := huncounted
  have htaken' : s'.app.router.table.taken = s.app.router.table.taken ++ [] := by
    rw [htaken, List.append_nil]
  have hlog' : s'.log = s.log ++ [] := by rw [hlog, List.append_nil]
  refine h.grows (List.prefix_refl owners) (List.prefix_refl flags) hlasting hflagged htaken' ?_
    hlog' nofun fun i _ => hends i
  rw [hcounters]
  rfl

end Changes

end Scene
end Switchboard.App
