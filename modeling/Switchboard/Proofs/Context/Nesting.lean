import Mathlib.Logic.Function.Basic
import Mathlib.Logic.Relation
import Switchboard.Context.Local
import Switchboard.Proofs.Context.Shifts
/-!
# Nested pumps

One thread drives any number of contexts. The code that it runs, be it a job or outside of all pumps,
queues jobs, closes contexts, looks whether they are current, and pumps them, also those that are being
pumped already. A job that panics unwinds the pump that has taken it, and the code that called the pump
may go on or panic in its turn. What code does is left open, and so is whether it ever comes to an end.

A log is kept of what is asked and answered. It always tells the truth about the queues, and about which
contexts are current.
-/
namespace Switchboard

variable {ι J : Type}

/-- What is logged of the contexts of a thread. A pump is known by the place of the entry that says
that it was called. -/
inductive PumpEntry (ι J : Type) where
  | executed (context : ι) (job : J) (answer : Except Fault Unit)
  | closed (context : ι)
  | looked (context : ι) (current : Bool)
  | called (context : ι) (max : Nat)
  | began (pump : Nat) (context : ι) (job : J)
  /-- the job that a pump has taken has returned or panicked -/
  | ended (pump : Nat) (ending : Except Panic Unit)
  /-- a pump has returned, or a job has unwound it -/
  | left (pump : Nat) (answer : Except Panic Nat)

namespace PumpEntry

section Context

variable [DecidableEq ι] (i : ι)

/-- The job that a context has accepted. -/
def accepted? : PumpEntry ι J → Option J
  | executed j job (.ok ()) => if j = i then some job else none
  | executed _ _ (.error _) | closed _ | looked .. | called .. | began .. | ended .. | left .. => none

/-- The job of a context that has begun. -/
def begun? : PumpEntry ι J → Option J
  | began _ j job => if j = i then some job else none
  | executed .. | closed _ | looked .. | called .. | ended .. | left .. => none

/-- Whether a context was closed. -/
def closes : PumpEntry ι J → Bool
  | closed j => j = i
  | executed .. | looked .. | called .. | began .. | ended .. | left .. => false

end Context

/-- The job that a pump has taken. -/
def takenBy? (n : Nat) : PumpEntry ι J → Option J
  | began m _ job => if m = n then some job else none
  | executed .. | closed _ | looked .. | called .. | ended .. | left .. => none

/-- How a job that a pump has taken has ended. -/
def endedBy? (n : Nat) : PumpEntry ι J → Option (Except Panic Unit)
  | ended m ending => if m = n then some ending else none
  | executed .. | closed _ | looked .. | called .. | began .. | left .. => none

/-- Whether a pump has come to its end. -/
def leaves (n : Nat) : PumpEntry ι J → Bool
  | left m _ => m = n
  | executed .. | closed _ | looked .. | called .. | began .. | ended .. => false

/-- The pump of which something is told. -/
def pump? : PumpEntry ι J → Option Nat
  | began n .. | ended n _ | left n _ => some n
  | executed .. | closed _ | looked .. | called .. => none

theorem leaves_of_pump?_ne {entry : PumpEntry ι J} {n : Nat} (h : entry.pump? ≠ some n) :
    entry.leaves n = false ∧ entry.takenBy? n = none ∧ entry.endedBy? n = none := by
  cases entry with
  | began m i job =>
    have hne : m ≠ n := fun heq => h (congrArg some heq)
    exact ⟨rfl, if_neg hne, rfl⟩
  | ended m ending =>
    have hne : m ≠ n := fun heq => h (congrArg some heq)
    exact ⟨rfl, rfl, if_neg hne⟩
  | left m answer =>
    have hne : m ≠ n := fun heq => h (congrArg some heq)
    exact ⟨decide_eq_false hne, rfl, rfl⟩
  | executed | closed | looked | called => exact ⟨rfl, rfl, rfl⟩

end PumpEntry

/-- Entries, oldest first. -/
abbrev PumpLog (ι J : Type) := List (PumpEntry ι J)

namespace PumpLog

section Context

variable [DecidableEq ι] (i : ι) (log : PumpLog ι J)

/-- The jobs that a context has accepted. -/
def accepted : List J := log.filterMap (PumpEntry.accepted? i)

/-- The jobs of a context that have begun. -/
def begun : List J := log.filterMap (PumpEntry.begun? i)

end Context

/-- The jobs that a pump has taken itself. -/
def taken (n : Nat) (log : PumpLog ι J) : List J := log.filterMap (PumpEntry.takenBy? n)

/-- How the jobs that a pump has taken have ended. -/
def endings (n : Nat) (log : PumpLog ι J) : List (Except Panic Unit) :=
  log.filterMap (PumpEntry.endedBy? n)

/-- A pump of a context was called and has not come to its end. -/
structure Active (log : PumpLog ι J) (n : Nat) (i : ι) : Prop where
  called : ∃ max, log[n]? = some (.called i max)
  stays : log.any (·.leaves n) = false

/-- A pump that is active, and all other active ones were called before it. -/
structure Innermost (log : PumpLog ι J) (n : Nat) (i : ι) : Prop where
  active : log.Active n i
  latest : ∀ m j, log.Active m j → m ≤ n

/-- When a job has panicked, its pump is unwound at once and by the same panic. -/
def Unwinds (log : PumpLog ι J) : Prop :=
  ∀ (k n : Nat) (panic : Panic), log[k]? = some (.ended n (.error panic)) →
    log[k + 1]? = some (.left n (.error panic))

end PumpLog

/-- What an entry says is true after the entries before it. Names of contexts are told by `names`.

Jobs are refused if and only if the context was closed before. A context is current while a pump of it
is active. Only the innermost pump takes a job, and only if it may and its earlier jobs have ended. It
returns if all its jobs have returned, and it returns their number, which is less than it might be only
if all that was accepted has begun. It is unwound if its last job, and no other one, has panicked. -/
def PumpEntry.Holds [DecidableEq ι] (names : ι → String) (log : PumpLog ι J) :
    PumpEntry ι J → Prop
  | .executed i _ answer => answer = if log.any (·.closes i) then
      .error (.dispatchFailure ("context " ++ names i ++ " is closed")) else .ok ()
  | .closed _ => True
  | .looked i current => current = true ↔ ∃ n, log.Active n i
  | .called _ _ => True
  | .began n i _ => log.Innermost n i ∧
      (∃ max, log[n]? = some (.called i max) ∧ (log.taken n).length < max) ∧
      (log.taken n).length = (log.endings n).length
  | .ended n _ => (∃ i, log.Innermost n i) ∧
      (log.taken n).length = (log.endings n).length + 1
  | .left n answer => ∃ i max, log.Innermost n i ∧ log[n]? = some (.called i max) ∧
      match answer with
      | .ok ran => ran = (log.taken n).length ∧ ran ≤ max ∧
          (ran < max → log.accepted i = log.begun i) ∧
          log.endings n = List.replicate ran (.ok ())
      | .error panic => log.taken n ≠ [] ∧ (log.taken n).length ≤ max ∧
          log.endings n =
            List.replicate ((log.taken n).length - 1) (.ok ()) ++ [.error panic]

/-- The contexts of a thread, and the log. -/
structure Premises (ι J : Type) where
  contexts : ι → LocalContext J
  log : PumpLog ι J := []

/-- A pump in progress: which one it is, whether its context was current before, how many jobs it may
run and has run, and whether it is running one. -/
structure PumpCall (ι : Type) where
  number : Nat
  context : ι
  before : Bool
  max : Nat
  ran : Nat := 0
  busy : Bool := false

/-- The contexts of a thread, and the pumps that it is in the middle of, the innermost first. -/
structure Nest (ι J : Type) extends Premises ι J where
  calls : List (PumpCall ι) := []

/-- Code is running: a job of the innermost pump, or no pump is in progress. -/
def InCode (calls : List (PumpCall ι)) : Prop := ∀ call ∈ calls.head?, call.busy = true

namespace Premises

variable [DecidableEq ι]

/-- Something becomes of a context, and is logged. -/
def record (x : Premises ι J) (i : ι) (c : LocalContext J) (entry : PumpEntry ι J) :
    Premises ι J :=
  { contexts := Function.update x.contexts i c, log := x.log ++ [entry] }

/-- Something is logged, and nothing becomes of the contexts. -/
def add (x : Premises ι J) (entry : PumpEntry ι J) : Premises ι J :=
  { x with log := x.log ++ [entry] }

/-- New contexts. -/
def ofNames (names : ι → String) : Premises ι J := { contexts := fun i => { name := names i } }

/-- The log tells the truth, and what is queued are the accepted jobs that have not begun. -/
structure Kept (names : ι → String) (x : Premises ι J) : Prop where
  named : ∀ i, (x.contexts i).name = names i
  closed : ∀ i, (x.contexts i).closed = x.log.any (·.closes i)
  order : ∀ i, x.log.accepted i = x.log.begun i ++ (x.contexts i).queue
  truth : ∀ (k : Nat) (entry : PumpEntry ι J), x.log[k]? = some entry →
    entry.Holds names (x.log.take k)

end Premises

namespace Nest

variable [DecidableEq ι]

/-- One thing that happens. -/
inductive Step : Nest ι J → Nest ι J → Prop
  /-- code queues a job -/
  | execute {x calls} (hcode : InCode calls) (i : ι) (job : J) :
      Step ⟨x, calls⟩ ⟨x.record i ((x.contexts i).execute job).2
        (.executed i job ((x.contexts i).execute job).1), calls⟩
  /-- code closes a context -/
  | close {x calls} (hcode : InCode calls) (i : ι) :
      Step ⟨x, calls⟩ ⟨x.record i (x.contexts i).close (.closed i), calls⟩
  /-- code looks whether a context is current -/
  | look {x calls} (hcode : InCode calls) (i : ι) :
      Step ⟨x, calls⟩ ⟨x.record i (x.contexts i) (.looked i (x.contexts i).current), calls⟩
  /-- code pumps a context, which becomes current -/
  | call {x calls} (hcode : InCode calls) (i : ι) (max : Nat) :
      Step ⟨x, calls⟩ ⟨x.record i (x.contexts i).enter.2 (.called i max),
        { number := x.log.length, context := i, before := (x.contexts i).enter.1, max } :: calls⟩
  /-- a pump takes a job -/
  | begin {x call calls job c} (hidle : call.busy = false) (hroom : call.ran < call.max)
      (hnext : (x.contexts call.context).next = (some job, c)) :
      Step ⟨x, call :: calls⟩ ⟨x.record call.context c (.began call.number call.context job),
        { call with busy := true } :: calls⟩
  /-- a job returns -/
  | finish {x call calls} (hbusy : call.busy = true) :
      Step ⟨x, call :: calls⟩ ⟨x.add (.ended call.number (.ok ())),
        { call with ran := call.ran + 1, busy := false } :: calls⟩
  /-- a job panics, and unwinds the pump -/
  | unwind {x call calls} (hbusy : call.busy = true) (panic : Panic) :
      Step ⟨x, call :: calls⟩ ⟨(x.add (.ended call.number (.error panic))).record call.context
        ((x.contexts call.context).leave call.before) (.left call.number (.error panic)), calls⟩
  /-- a pump that may run no more jobs, or finds none, returns -/
  | done {x call calls} (hidle : call.busy = false)
      (hend : call.ran = call.max ∨ (x.contexts call.context).next.1 = none) :
      Step ⟨x, call :: calls⟩ ⟨x.record call.context ((x.contexts call.context).leave call.before)
        (.left call.number (.ok call.ran)), calls⟩

/-- What a nest can become, step by step. -/
abbrev Reaches : Nest ι J → Nest ι J → Prop := Relation.ReflTransGen Step

/-- A thread with new contexts, outside of all pumps. -/
def ofNames (names : ι → String) : Nest ι J := ⟨.ofNames names, []⟩

/-- The pumps in progress are those that the log tells to be active, each called by a job of the one
below. A context is current as long as one of them pumps it. -/
structure Stacked (s : Nest ι J) : Prop where
  called : ∀ call ∈ s.calls, s.log[call.number]? = some (.called call.context call.max)
  active : ∀ n i, s.log.Active n i ↔ ∃ call ∈ s.calls, call.number = n ∧ call.context = i
  current : ∀ i, (s.contexts i).current = true ↔ ∃ call ∈ s.calls, call.context = i
  /-- the context of a pump was current before if and only if a pump below pumps it -/
  before : ∀ call rest, call :: rest <:+ s.calls →
    (call.before = true ↔ ∃ below ∈ rest, below.context = call.context)
  descending : s.calls.Pairwise (·.number > ·.number)

/-- Every pump knows how many jobs it has taken, and takes no more than it may. All have returned, but
for the one that it is running. -/
def Counted (s : Nest ι J) : Prop :=
  ∀ call ∈ s.calls, (s.log.taken call.number).length = call.ran + call.busy.toNat ∧
    call.ran + call.busy.toNat ≤ call.max ∧
    s.log.endings call.number = List.replicate call.ran (.ok ())

/-- What holds at every moment. -/
structure Kept (names : ι → String) (s : Nest ι J) : Prop where
  premises : s.toPremises.Kept names
  stacked : s.Stacked
  counted : s.Counted
  unwinds : s.log.Unwinds

end Nest

namespace LocalContext

/-- A closed context refuses a job and stays as it is; an open one queues it behind the others. -/
theorem execute_cases (c : LocalContext J) (job : J) :
    c.closed = true ∧
        c.execute job = (.error (.dispatchFailure ("context " ++ c.name ++ " is closed")), c) ∨
      c.closed = false ∧ c.execute job = (.ok (), { c with queue := c.queue ++ [job] }) := by
  cases hclosed : c.closed <;> simp [LocalContext.execute, hclosed]

theorem next_eq_some {c c' : LocalContext J} {job : J} (h : c.next = (some job, c')) :
    c.queue = job :: c'.queue ∧ c' = { c with queue := c'.queue } := by
  cases hqueue : c.queue with
  | nil => simp [LocalContext.next, hqueue] at h
  | cons first rest =>
    simp only [LocalContext.next, hqueue, Prod.mk.injEq, Option.some.injEq] at h
    obtain ⟨rfl, rfl⟩ := h
    exact ⟨rfl, rfl⟩

theorem queue_of_next_eq_none {c : LocalContext J} (h : c.next.1 = none) : c.queue = [] := by
  cases hqueue : c.queue with
  | nil => rfl
  | cons first rest => simp [LocalContext.next, hqueue] at h

end LocalContext

namespace PumpLog

section Concat

variable (log : PumpLog ι J) (entry : PumpEntry ι J)

theorem getElem?_concat_eq_some (k : Nat) (e : PumpEntry ι J) :
    (log ++ [entry])[k]? = some e ↔ log[k]? = some e ∨ k = log.length ∧ entry = e := by
  rcases Nat.lt_trichotomy k log.length with hlt | rfl | hgt
  · simp [List.getElem?_append_left hlt, Nat.ne_of_lt hlt]
  · simp
  · have hnone : log[k]? = none := List.getElem?_eq_none (Nat.le_of_lt hgt)
    have hconcat : (log ++ [entry])[k]? = none :=
      List.getElem?_eq_none (by rw [List.length_append]; exact hgt)
    simp [hnone, hconcat, Nat.ne_of_gt hgt]

theorem getElem?_concat_of_eq_some {k : Nat} {e : PumpEntry ι J} (h : log[k]? = some e) :
    (log ++ [entry])[k]? = some e :=
  (getElem?_concat_eq_some log entry k e).mpr (Or.inl h)

/-- An entry is added: a pump is active if it was before, or if it was called just now, unless it has
just come to its end. -/
theorem active_concat (n : Nat) (i : ι) :
    Active (log ++ [entry]) n i ↔
      (log.Active n i ∨
        n = log.length ∧ (∃ max, entry = .called i max) ∧ log.any (·.leaves n) = false) ∧
      entry.leaves n = false := by
  have hany : (log ++ [entry]).any (·.leaves n) = false ↔
      log.any (·.leaves n) = false ∧ entry.leaves n = false := by
    simp [List.any_append]
  constructor
  · rintro ⟨⟨max, hcalled⟩, hstays⟩
    obtain ⟨hbefore, hentry⟩ := hany.mp hstays
    refine ⟨?_, hentry⟩
    rcases (getElem?_concat_eq_some log entry n _).mp hcalled with hold | ⟨hn, hnew⟩
    · exact Or.inl ⟨⟨max, hold⟩, hbefore⟩
    · exact Or.inr ⟨hn, ⟨max, hnew⟩, hbefore⟩
  · rintro ⟨⟨⟨max, hold⟩, hbefore⟩ | ⟨hn, ⟨max, hnew⟩, hbefore⟩, hentry⟩
    · exact ⟨⟨max, getElem?_concat_of_eq_some log entry hold⟩, hany.mpr ⟨hbefore, hentry⟩⟩
    · exact ⟨⟨max, (getElem?_concat_eq_some log entry n _).mpr (Or.inr ⟨hn, hnew⟩)⟩,
        hany.mpr ⟨hbefore, hentry⟩⟩

/-- An entry that neither calls nor ends a pump leaves the same pumps active. -/
theorem active_concat_of_still (hcalled : ∀ i max, entry ≠ .called i max)
    (hleft : ∀ n, entry.leaves n = false) (n : Nat) (i : ι) :
    Active (log ++ [entry]) n i ↔ log.Active n i := by
  simp [active_concat, hcalled, hleft]

theorem taken_concat (n : Nat) :
    taken n (log ++ [entry]) = log.taken n ++ (entry.takenBy? n).toList :=
  Shift.filterMap_concat _ log entry

theorem endings_concat (n : Nat) :
    endings n (log ++ [entry]) = log.endings n ++ (entry.endedBy? n).toList :=
  Shift.filterMap_concat _ log entry

end Concat

/-- An entry is added, and no job has panicked just now. -/
theorem Unwinds.concat {log : PumpLog ι J} (h : log.Unwinds) {entry : PumpEntry ι J}
    (hentry : ∀ n panic, entry ≠ .ended n (.error panic)) : Unwinds (log ++ [entry]) := by
  intro k n panic hk
  rcases (getElem?_concat_eq_some log entry k _).mp hk with hold | ⟨-, hnew⟩
  · exact getElem?_concat_of_eq_some log entry (h k n panic hold)
  · exact absurd hnew (hentry n panic)

/-- A job panics, and its pump is unwound. -/
theorem Unwinds.unwind {log : PumpLog ι J} (h : log.Unwinds) (n : Nat) (panic : Panic) :
    Unwinds (log ++ [.ended n (.error panic)] ++ [.left n (.error panic)]) := by
  intro k m other hk
  rcases (getElem?_concat_eq_some _ _ k _).mp hk with hbefore | ⟨-, hnew⟩
  · rcases (getElem?_concat_eq_some log _ k _).mp hbefore with hold | ⟨rfl, hnew⟩
    · exact getElem?_concat_of_eq_some _ _ (getElem?_concat_of_eq_some _ _ (h k m other hold))
    · cases hnew
      exact (getElem?_concat_eq_some _ _ _ _).mpr (Or.inr ⟨by simp, rfl⟩)
  · cases hnew

end PumpLog

namespace Premises

variable [DecidableEq ι] {names : ι → String} {x : Premises ι J}

@[simp] theorem log_record (x : Premises ι J) (i : ι) (c : LocalContext J)
    (entry : PumpEntry ι J) : (x.record i c entry).log = x.log ++ [entry] := rfl

@[simp] theorem contexts_record (x : Premises ι J) (i : ι) (c : LocalContext J)
    (entry : PumpEntry ι J) : (x.record i c entry).contexts = Function.update x.contexts i c := rfl

theorem kept_ofNames (names : ι → String) : (ofNames names : Premises ι J).Kept names where
  named _ := rfl
  closed _ := rfl
  order _ := rfl
  truth := nofun

/-- A pump that the log speaks of was called before. -/
theorem Kept.lt_length (h : x.Kept names) {n : Nat} {entry : PumpEntry ι J} (hmem : entry ∈ x.log)
    (hpump : entry.pump? = some n) : n < x.log.length := by
  obtain ⟨k, hk⟩ := List.mem_iff_getElem?.mp hmem
  have htrue := h.truth k entry hk
  -- what is true of the pump then makes it active, so it was called before this entry
  obtain ⟨i, hactive⟩ : ∃ i, PumpLog.Active (x.log.take k) n i := by
    cases entry with
    | began m i job =>
      cases hpump
      exact ⟨i, htrue.1.active⟩
    | ended m ending =>
      cases hpump
      obtain ⟨⟨i, hinnermost⟩, -⟩ := htrue
      exact ⟨i, hinnermost.active⟩
    | left m answer =>
      cases hpump
      obtain ⟨i, -, hinnermost, -⟩ := htrue
      exact ⟨i, hinnermost.active⟩
    | executed | closed | looked | called => cases hpump
  obtain ⟨max, hcalled⟩ := hactive.called
  have hlt := (List.getElem?_eq_some_iff.mp hcalled).1
  rw [List.length_take] at hlt
  omega

/-- Of a pump that is called now nothing is logged yet. -/
theorem Kept.fresh (h : x.Kept names) {entry : PumpEntry ι J} (hmem : entry ∈ x.log) :
    entry.leaves x.log.length = false ∧ entry.takenBy? x.log.length = none ∧
      entry.endedBy? x.log.length = none :=
  PumpEntry.leaves_of_pump?_ne fun hpump => Nat.lt_irrefl _ (h.lt_length hmem hpump)

theorem Kept.leaves_fresh (h : x.Kept names) : x.log.any (·.leaves x.log.length) = false := by
  rw [List.any_eq_false]
  exact fun entry hmem => Bool.eq_false_iff.mp (h.fresh hmem).1

theorem Kept.taken_fresh (h : x.Kept names) : x.log.taken x.log.length = [] :=
  List.filterMap_eq_nil_iff.mpr fun _ hmem => (h.fresh hmem).2.1

theorem Kept.endings_fresh (h : x.Kept names) : x.log.endings x.log.length = [] :=
  List.filterMap_eq_nil_iff.mpr fun _ hmem => (h.fresh hmem).2.2

/-- What is added to the log is true of what was logged before. -/
theorem Kept.truth_concat (h : x.Kept names) {entry : PumpEntry ι J}
    (hholds : entry.Holds names x.log) (k : Nat) (e : PumpEntry ι J)
    (hk : (x.log ++ [entry])[k]? = some e) : e.Holds names ((x.log ++ [entry]).take k) := by
  rcases (PumpLog.getElem?_concat_eq_some _ _ k e).mp hk with hold | ⟨rfl, rfl⟩
  · have hlt := (List.getElem?_eq_some_iff.mp hold).1
    rw [List.take_append_of_le_length (Nat.le_of_lt hlt)]
    exact h.truth k e hold
  · rw [List.take_left]
    exact hholds

/-- Something becomes of a context, and what is logged of it is true. -/
theorem Kept.record (h : x.Kept names) {i : ι} {c : LocalContext J} {entry : PumpEntry ι J}
    (hnamed : c.name = (x.contexts i).name)
    (hclosed : c.closed = ((x.contexts i).closed || entry.closes i))
    (hqueue : (x.contexts i).queue ++ (entry.accepted? i).toList =
      (entry.begun? i).toList ++ c.queue)
    (hothers : ∀ j, j ≠ i →
      entry.closes j = false ∧ entry.accepted? j = none ∧ entry.begun? j = none)
    (hholds : entry.Holds names x.log) : (x.record i c entry).Kept names where
  named j := by
    by_cases hj : j = i
    · subst hj
      simpa using hnamed.trans (h.named j)
    · simpa [hj] using h.named j
  closed j := by
    have hbefore := h.closed j
    by_cases hj : j = i
    · subst hj
      simp [List.any_append, hclosed, hbefore]
    · simp [List.any_append, hj, (hothers j hj).1, hbefore]
  order j := by
    have hbefore := h.order j
    rw [PumpLog.accepted, PumpLog.begun] at hbefore ⊢
    rw [log_record, Shift.filterMap_concat, Shift.filterMap_concat, hbefore]
    by_cases hj : j = i
    · subst hj
      simp [hqueue]
    · simp [hj, (hothers j hj).2]
  truth := h.truth_concat hholds

/-- Nothing becomes of a context, but that it is current or not. -/
theorem Kept.note (h : x.Kept names) {i : ι} {current : Bool} {entry : PumpEntry ι J}
    (hplain : ∀ j, entry.closes j = false ∧ entry.accepted? j = none ∧ entry.begun? j = none)
    (hholds : entry.Holds names x.log) :
    (x.record i { x.contexts i with current } entry).Kept names := by
  obtain ⟨hopen, haccepted, hbegun⟩ := hplain i
  refine h.record rfl ?_ ?_ ?_ ?_
  · simp [hopen]
  · simp [haccepted, hbegun]
  · exact fun j _ => hplain j
  · exact hholds

/-- Nothing becomes of any context. -/
theorem Kept.add (h : x.Kept names) {entry : PumpEntry ι J}
    (hplain : ∀ j, entry.closes j = false ∧ entry.accepted? j = none ∧ entry.begun? j = none)
    (hholds : entry.Holds names x.log) : (x.add entry).Kept names where
  named := h.named
  closed j := by simp [Premises.add, List.any_append, (hplain j).1, h.closed j]
  order j := by
    have hbefore := h.order j
    rw [PumpLog.accepted, PumpLog.begun] at hbefore ⊢
    rw [Premises.add, Shift.filterMap_concat, Shift.filterMap_concat, hbefore]
    simp [(hplain j).2]
  truth := h.truth_concat hholds

end Premises

namespace Nest

variable [DecidableEq ι] {names : ι → String} {x : Premises ι J} {call : PumpCall ι}
  {calls : List (PumpCall ι)}

namespace Stacked

omit [DecidableEq ι] in
/-- The pump on top is the innermost one. -/
theorem innermost (h : Stacked (⟨x, call :: calls⟩ : Nest ι J)) :
    x.log.Innermost call.number call.context where
  active := (h.active _ _).mpr ⟨call, List.mem_cons_self, rfl, rfl⟩
  latest m j hactive := by
    obtain ⟨other, hmem, rfl, -⟩ := (h.active m j).mp hactive
    rcases List.mem_cons.mp hmem with rfl | hbelow
    · exact Nat.le_refl _
    · exact Nat.le_of_lt (List.rel_of_pairwise_cons h.descending hbelow)

/-- No pump is called, and none comes to its end. -/
theorem record (h : Stacked (⟨x, calls⟩ : Nest ι J)) {i : ι} {c : LocalContext J}
    {entry : PumpEntry ι J} (hcurrent : c.current = (x.contexts i).current)
    (hcalled : ∀ i max, entry ≠ .called i max) (hleft : ∀ n, entry.leaves n = false) :
    Stacked ⟨x.record i c entry, calls⟩ where
  called call hmem := PumpLog.getElem?_concat_of_eq_some _ _ (h.called call hmem)
  active n j := (PumpLog.active_concat_of_still _ _ hcalled hleft n j).trans (h.active n j)
  current j := by
    have hbefore := h.current j
    by_cases hj : j = i
    · subst hj
      simpa [hcurrent] using hbefore
    · simpa [hj] using hbefore
  before := h.before
  descending := h.descending

omit [DecidableEq ι] in
/-- Nothing becomes of any context. -/
theorem add (h : Stacked (⟨x, calls⟩ : Nest ι J)) {entry : PumpEntry ι J}
    (hcalled : ∀ i max, entry ≠ .called i max) (hleft : ∀ n, entry.leaves n = false) :
    Stacked ⟨x.add entry, calls⟩ where
  called call hmem := PumpLog.getElem?_concat_of_eq_some _ _ (h.called call hmem)
  active n j := (PumpLog.active_concat_of_still _ _ hcalled hleft n j).trans (h.active n j)
  current := h.current
  before := h.before
  descending := h.descending

omit [DecidableEq ι] in
/-- The pump on top goes on. -/
theorem goOn (h : Stacked (⟨x, call :: calls⟩ : Nest ι J)) (ran : Nat) (busy : Bool) :
    Stacked ⟨x, { call with ran, busy } :: calls⟩ where
  called := by
    have hcalled := h.called
    simp only [List.forall_mem_cons] at hcalled ⊢
    exact hcalled
  active n i := by
    have hactive := h.active n i
    simp only [List.mem_cons, exists_eq_or_imp] at hactive ⊢
    exact hactive
  current i := by
    have hcurrent := h.current i
    simp only [List.mem_cons, exists_eq_or_imp] at hcurrent ⊢
    exact hcurrent
  before other rest hsuffix := by
    rcases List.suffix_cons_iff.mp hsuffix with heq | hbelow
    · obtain ⟨rfl, rfl⟩ := List.cons.inj heq
      exact h.before call rest (List.suffix_refl _)
    · exact h.before other rest (hbelow.trans (List.suffix_cons _ _))
  descending := by
    have hdescending := h.descending
    simp only [List.pairwise_cons] at hdescending ⊢
    exact hdescending

/-- A pump is called. -/
theorem push (h : Stacked (⟨x, calls⟩ : Nest ι J)) (hx : x.Kept names) (i : ι) (max : Nat) :
    Stacked ⟨x.record i (x.contexts i).enter.2 (.called i max),
      { number := x.log.length, context := i, before := (x.contexts i).enter.1, max } :: calls⟩ where
  called := by
    rw [List.forall_mem_cons]
    constructor
    · exact (PumpLog.getElem?_concat_eq_some _ _ _ _).mpr (Or.inr ⟨rfl, rfl⟩)
    · exact fun call hmem => PumpLog.getElem?_concat_of_eq_some _ _ (h.called call hmem)
  active n j := by
    have hbefore := h.active n j
    simp only [Premises.log_record, PumpLog.active_concat, List.mem_cons, exists_eq_or_imp, hbefore]
    constructor
    · rintro ⟨hold | ⟨rfl, ⟨_, hentry⟩, -⟩, -⟩
      · exact Or.inr hold
      · cases hentry
        exact Or.inl ⟨rfl, rfl⟩
    · rintro (⟨rfl, rfl⟩ | hold)
      -- the new pump is known by the length of the log, of which no entry can speak
      · exact ⟨Or.inr ⟨rfl, ⟨max, rfl⟩, hx.leaves_fresh⟩, rfl⟩
      · exact ⟨Or.inl hold, rfl⟩
  current j := by
    have hbefore := h.current j
    simp only [List.mem_cons, exists_eq_or_imp]
    by_cases hj : j = i
    · subst hj
      simp [LocalContext.enter]
    · simpa [hj, Ne.symm hj] using hbefore
  before other rest hsuffix := by
    rcases List.suffix_cons_iff.mp hsuffix with heq | hbelow
    · obtain ⟨rfl, rfl⟩ := List.cons.inj heq
      exact h.current i
    · exact h.before other rest hbelow
  descending := by
    refine List.pairwise_cons.mpr ⟨fun other hmem => ?_, h.descending⟩
    exact (List.getElem?_eq_some_iff.mp (h.called other hmem)).1

/-- The pump on top comes to its end; its context is as current as it was before. -/
theorem pop (h : Stacked (⟨x, call :: calls⟩ : Nest ι J)) (answer : Except Panic Nat) :
    Stacked ⟨x.record call.context ((x.contexts call.context).leave call.before)
      (.left call.number answer), calls⟩ where
  called other hmem :=
    PumpLog.getElem?_concat_of_eq_some _ _ (h.called other (List.mem_cons_of_mem _ hmem))
  active n j := by
    have hbefore := h.active n j
    have hbelow : ∀ other ∈ calls, other.number < call.number := fun other hmem =>
      List.rel_of_pairwise_cons h.descending hmem
    simp only [Premises.log_record, PumpLog.active_concat, hbefore]
    constructor
    · rintro ⟨⟨other, hmem, rfl, rfl⟩ | ⟨-, ⟨_, hentry⟩, -⟩, hstays⟩
      · rcases List.mem_cons.mp hmem with rfl | hmem
        · simp [PumpEntry.leaves] at hstays
        · exact ⟨other, hmem, rfl, rfl⟩
      · cases hentry
    · rintro ⟨other, hmem, rfl, rfl⟩
      refine ⟨Or.inl ⟨other, List.mem_cons_of_mem _ hmem, rfl, rfl⟩, ?_⟩
      simpa [PumpEntry.leaves] using Nat.ne_of_gt (hbelow other hmem)
  current j := by
    have hbefore := h.current j
    by_cases hj : j = call.context
    -- what the pump remembers is whether one below it pumps the same context
    · subst hj
      simpa [LocalContext.leave] using h.before call calls (List.suffix_refl _)
    · simpa [hj, Ne.symm hj] using hbefore
  before other rest hsuffix := h.before other rest (hsuffix.trans (List.suffix_cons _ _))
  descending := (List.pairwise_cons.mp h.descending).2

end Stacked

omit [DecidableEq ι] in
/-- No job begins, and none ends. -/
theorem Counted.concat (h : Counted (⟨x, calls⟩ : Nest ι J)) {y : Premises ι J}
    {entry : PumpEntry ι J} (hlog : y.log = x.log ++ [entry])
    (hstill : ∀ other ∈ calls, entry.takenBy? other.number = none ∧
      entry.endedBy? other.number = none) : Counted ⟨y, calls⟩ := by
  intro other hmem
  obtain ⟨htaken, hended⟩ := hstill other hmem
  rw [hlog, PumpLog.taken_concat, PumpLog.endings_concat, htaken, hended, Option.toList_none,
    List.append_nil, Option.toList_none, List.append_nil]
  exact h other hmem

theorem kept_ofNames (names : ι → String) : (ofNames names : Nest ι J).Kept names where
  premises := Premises.kept_ofNames names
  stacked :=
    { called := nofun
      active := fun n i => ⟨fun ⟨⟨_, hcalled⟩, _⟩ => (nomatch hcalled), nofun⟩
      current := fun i => ⟨nofun, nofun⟩
      before := fun call rest hsuffix => by simp [ofNames] at hsuffix
      descending := .nil }
  counted := nofun
  unwinds := nofun

namespace Kept

/-- Something becomes of a context, but no pump is called or goes on. -/
theorem record (h : Kept names (⟨x, calls⟩ : Nest ι J)) {i : ι} {c : LocalContext J}
    {entry : PumpEntry ι J} (hpremises : (x.record i c entry).Kept names)
    (hcurrent : c.current = (x.contexts i).current) (hcalled : ∀ j max, entry ≠ .called j max)
    (hpump : entry.pump? = none) : Kept names ⟨x.record i c entry, calls⟩ := by
  have hstill (n : Nat) := PumpEntry.leaves_of_pump?_ne (n := n) (hpump.trans_ne nofun)
  refine ⟨hpremises, h.stacked.record hcurrent hcalled fun n => (hstill n).1,
    h.counted.concat rfl fun other _ => (hstill other.number).2, h.unwinds.concat ?_⟩
  rintro n panic rfl
  cases hpump

/-- The pump on top comes to its end, and its answer is right. -/
theorem pop (hpremises : x.Kept names) (hstacked : Stacked (⟨x, call :: calls⟩ : Nest ι J))
    (hcounted : Counted (⟨x, calls⟩ : Nest ι J)) {answer : Except Panic Nat}
    (hanswer : match answer with
      | .ok ran => ran = (x.log.taken call.number).length ∧ ran ≤ call.max ∧
          (ran < call.max → x.log.accepted call.context = x.log.begun call.context) ∧
          x.log.endings call.number = List.replicate ran (.ok ())
      | .error panic => x.log.taken call.number ≠ [] ∧
          (x.log.taken call.number).length ≤ call.max ∧
          x.log.endings call.number =
            List.replicate ((x.log.taken call.number).length - 1) (.ok ()) ++ [.error panic])
    (hunwinds : PumpLog.Unwinds (x.log ++ [.left call.number answer])) :
    Kept names ⟨x.record call.context ((x.contexts call.context).leave call.before)
      (.left call.number answer), calls⟩ where
  premises := hpremises.note (fun _ => ⟨rfl, rfl, rfl⟩)
    ⟨call.context, call.max, hstacked.innermost, hstacked.called call List.mem_cons_self, hanswer⟩
  stacked := hstacked.pop answer
  counted := hcounted.concat rfl fun _ _ => ⟨rfl, rfl⟩
  unwinds := hunwinds

theorem execute (h : Kept names (⟨x, calls⟩ : Nest ι J)) (i : ι) (job : J) :
    Kept names ⟨x.record i ((x.contexts i).execute job).2
      (.executed i job ((x.contexts i).execute job).1), calls⟩ := by
  have hclosed := h.premises.closed i
  have hnamed : (x.contexts i).name = names i := h.premises.named i
  rcases (x.contexts i).execute_cases job with ⟨hshut, hexecute⟩ | ⟨hopen, hexecute⟩
  · rw [hexecute]
    refine h.record (h.premises.note (fun _ => ⟨rfl, rfl, rfl⟩) ?_) rfl nofun rfl
    rw [hshut] at hclosed
    simp [PumpEntry.Holds, ← hclosed, hnamed]
  · rw [hexecute]
    refine h.record (h.premises.record rfl ?_ ?_ ?_ ?_) rfl nofun rfl
    · simp [PumpEntry.closes]
    · simp [PumpEntry.accepted?, PumpEntry.begun?]
    · intro j hj
      simp [PumpEntry.closes, PumpEntry.accepted?, PumpEntry.begun?, Ne.symm hj]
    · rw [hopen] at hclosed
      simp [PumpEntry.Holds, ← hclosed]

theorem close (h : Kept names (⟨x, calls⟩ : Nest ι J)) (i : ι) :
    Kept names ⟨x.record i (x.contexts i).close (.closed i), calls⟩ := by
  refine h.record (h.premises.record rfl ?_ ?_ ?_ trivial) rfl nofun rfl
  · simp [LocalContext.close, PumpEntry.closes]
  · simp [LocalContext.close, PumpEntry.accepted?, PumpEntry.begun?]
  · intro j hj
    simp [PumpEntry.closes, PumpEntry.accepted?, PumpEntry.begun?, Ne.symm hj]

/-- A context is current exactly while a pump of it is active. -/
theorem current_iff {s : Nest ι J} (h : s.Kept names) (i : ι) :
    (s.contexts i).current = true ↔ ∃ n, s.log.Active n i := by
  rw [h.stacked.current]
  constructor
  · rintro ⟨call, hmem, hcontext⟩
    exact ⟨call.number, (h.stacked.active _ i).mpr ⟨call, hmem, rfl, hcontext⟩⟩
  · rintro ⟨n, hactive⟩
    obtain ⟨call, hmem, -, hcontext⟩ := (h.stacked.active n i).mp hactive
    exact ⟨call, hmem, hcontext⟩

theorem look (h : Kept names (⟨x, calls⟩ : Nest ι J)) (i : ι) :
    Kept names ⟨x.record i (x.contexts i) (.looked i (x.contexts i).current), calls⟩ :=
  h.record (h.premises.note (fun _ => ⟨rfl, rfl, rfl⟩) (h.current_iff i)) rfl nofun rfl

theorem push (h : Kept names (⟨x, calls⟩ : Nest ι J)) (i : ι) (max : Nat) :
    Kept names ⟨x.record i (x.contexts i).enter.2 (.called i max),
      { number := x.log.length, context := i, before := (x.contexts i).enter.1, max } :: calls⟩ where
  premises := h.premises.note (fun _ => ⟨rfl, rfl, rfl⟩) trivial
  stacked := h.stacked.push h.premises i max
  counted := by
    have hothers : Counted ⟨x.record i (x.contexts i).enter.2 (.called i max), calls⟩ :=
      h.counted.concat rfl fun _ _ => ⟨rfl, rfl⟩
    refine List.forall_mem_cons.mpr ⟨?_, hothers⟩
    simp [PumpLog.taken_concat, PumpLog.endings_concat, h.premises.taken_fresh,
      h.premises.endings_fresh, PumpEntry.takenBy?, PumpEntry.endedBy?]
  unwinds := h.unwinds.concat nofun

/-- The pumps below the one on top have other numbers. -/
theorem number_ne (h : Kept names (⟨x, call :: calls⟩ : Nest ι J)) {other : PumpCall ι}
    (hmem : other ∈ calls) : call.number ≠ other.number :=
  Nat.ne_of_gt (List.rel_of_pairwise_cons h.stacked.descending hmem)

theorem begin (h : Kept names (⟨x, call :: calls⟩ : Nest ι J)) {job : J} {c : LocalContext J}
    (hidle : call.busy = false) (hroom : call.ran < call.max)
    (hnext : (x.contexts call.context).next = (some job, c)) :
    Kept names ⟨x.record call.context c (.began call.number call.context job),
      { call with busy := true } :: calls⟩ := by
  obtain ⟨hqueue, hc⟩ := LocalContext.next_eq_some hnext
  obtain ⟨⟨hcount, -, hendings⟩, hothers⟩ := List.forall_mem_cons.mp h.counted
  rw [hidle, Bool.toNat_false, Nat.add_zero] at hcount
  have hstacked : Stacked ⟨x.record call.context c (.began call.number call.context job),
      call :: calls⟩ := h.stacked.record (by rw [hc]) nofun fun _ => rfl
  have hbelow : Counted ⟨x.record call.context c (.began call.number call.context job), calls⟩ :=
    Counted.concat hothers rfl fun other hmem => ⟨if_neg (h.number_ne hmem), rfl⟩
  refine ⟨h.premises.record (by rw [hc]) ?_ ?_ ?_ ?_, hstacked.goOn call.ran true,
    List.forall_mem_cons.mpr ⟨?_, hbelow⟩, h.unwinds.concat nofun⟩
  · rw [hc]
    exact (Bool.or_false _).symm
  · simp [PumpEntry.accepted?, PumpEntry.begun?, hqueue]
  · intro j hj
    simp [PumpEntry.closes, PumpEntry.accepted?, PumpEntry.begun?, Ne.symm hj]
  · refine ⟨h.stacked.innermost, ⟨call.max, h.stacked.called call List.mem_cons_self, ?_⟩, ?_⟩
    · rw [hcount]
      exact hroom
    · rw [hcount, hendings, List.length_replicate]
  · simp [PumpLog.taken_concat, PumpLog.endings_concat, PumpEntry.takenBy?, PumpEntry.endedBy?,
      hcount, hendings]
    omega

/-- The job of the pump on top ends, which is true. -/
theorem ended (h : Kept names (⟨x, call :: calls⟩ : Nest ι J)) (hbusy : call.busy = true)
    (ending : Except Panic Unit) : (x.add (.ended call.number ending)).Kept names ∧
      Stacked (⟨x.add (.ended call.number ending), call :: calls⟩ : Nest ι J) ∧
      Counted (⟨x.add (.ended call.number ending), calls⟩ : Nest ι J) := by
  obtain ⟨⟨hcount, -, hendings⟩, hothers⟩ := List.forall_mem_cons.mp h.counted
  refine ⟨h.premises.add (fun _ => ⟨rfl, rfl, rfl⟩) ⟨⟨_, h.stacked.innermost⟩, ?_⟩,
    h.stacked.add nofun fun _ => rfl,
    Counted.concat hothers rfl fun other hmem => ⟨rfl, if_neg (h.number_ne hmem)⟩⟩
  rw [hcount, hbusy, hendings, List.length_replicate, Bool.toNat_true]

theorem finish (h : Kept names (⟨x, call :: calls⟩ : Nest ι J)) (hbusy : call.busy = true) :
    Kept names ⟨x.add (.ended call.number (.ok ())),
      { call with ran := call.ran + 1, busy := false } :: calls⟩ := by
  obtain ⟨hpremises, hstacked, hbelow⟩ := h.ended hbusy (.ok ())
  obtain ⟨hcount, hroom, hendings⟩ := h.counted call List.mem_cons_self
  rw [hbusy, Bool.toNat_true] at hcount hroom
  refine ⟨hpremises, hstacked.goOn (call.ran + 1) false, List.forall_mem_cons.mpr ⟨?_, hbelow⟩,
    h.unwinds.concat nofun⟩
  simpa [Premises.add, PumpLog.taken_concat, PumpLog.endings_concat, PumpEntry.takenBy?,
    PumpEntry.endedBy?, hendings, List.replicate_succ'] using ⟨hcount, hroom⟩

theorem unwind (h : Kept names (⟨x, call :: calls⟩ : Nest ι J)) (hbusy : call.busy = true)
    (panic : Panic) :
    Kept names ⟨(x.add (.ended call.number (.error panic))).record call.context
      ((x.contexts call.context).leave call.before) (.left call.number (.error panic)), calls⟩ := by
  obtain ⟨hpremises, hstacked, hbelow⟩ := h.ended hbusy (.error panic)
  obtain ⟨hcount, hroom, hendings⟩ := h.counted call List.mem_cons_self
  rw [hbusy, Bool.toNat_true] at hcount hroom
  have htaken : (x.add (.ended call.number (.error panic))).log.taken call.number =
      x.log.taken call.number := by
    rw [Premises.add, PumpLog.taken_concat]
    exact List.append_nil _
  refine pop hpremises hstacked hbelow ?_ (h.unwinds.unwind call.number panic)
  dsimp only
  rw [htaken, hcount]
  refine ⟨List.ne_nil_of_length_eq_add_one hcount, hroom, ?_⟩
  rw [Premises.add, PumpLog.endings_concat, hendings, Nat.add_sub_cancel]
  simp [PumpEntry.endedBy?]

theorem done (h : Kept names (⟨x, call :: calls⟩ : Nest ι J)) (hidle : call.busy = false)
    (hend : call.ran = call.max ∨ (x.contexts call.context).next.1 = none) :
    Kept names ⟨x.record call.context ((x.contexts call.context).leave call.before)
      (.left call.number (.ok call.ran)), calls⟩ := by
  obtain ⟨⟨hcount, hroom, hendings⟩, hothers⟩ := List.forall_mem_cons.mp h.counted
  rw [hidle, Bool.toNat_false, Nat.add_zero] at hcount hroom
  refine pop h.premises h.stacked hothers ⟨hcount.symm, hroom, fun hless => ?_, hendings⟩
    (h.unwinds.concat nofun)
  have hnone := hend.resolve_left (Nat.ne_of_lt hless)
  rw [h.premises.order, LocalContext.queue_of_next_eq_none hnone, List.append_nil]

/-- Whatever happens. -/
theorem step {s s' : Nest ι J} (h : s.Kept names) (hstep : s.Step s') : s'.Kept names := by
  cases hstep with
  | execute hcode i job => exact h.execute i job
  | close hcode i => exact h.close i
  | look hcode i => exact h.look i
  | call hcode i max => exact h.push i max
  | begin hidle hroom hnext => exact h.begin hidle hroom hnext
  | finish hbusy => exact h.finish hbusy
  | unwind hbusy panic => exact h.unwind hbusy panic
  | done hidle hend => exact h.done hidle hend

theorem reaches {s s' : Nest ι J} (h : s.Kept names) (hreaches : Reaches s s') :
    s'.Kept names := by
  induction hreaches with
  | refl => exact h
  | tail _ hstep ih => exact ih.step hstep

end Kept

end Nest
end Switchboard
