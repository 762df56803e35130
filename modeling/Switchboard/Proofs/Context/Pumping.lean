import Switchboard.Proofs.Context.Nesting
/-!
# Code that pumps

Code sees what was logged so far and decides what it does next. It is run by pumping contexts for as
long as it asks for that; a pump runs each of its jobs by the same code. Every run of code that comes
to an end is one of the nests of pumps, with the same log, and has left all pumps that it called.
-/
namespace Switchboard

variable {ι J : Type}

/-- What code does next. -/
inductive CodeAct (ι J : Type) where
  | execute (context : ι) (job : J)
  | close (context : ι)
  | look (context : ι)
  | pump (context : ι) (max : Nat)
  | finish (ending : Except Panic Unit)

namespace Premises

variable [DecidableEq ι]

theorem queue_record {x : Premises ι J} {j : ι} {c : LocalContext J} {entry : PumpEntry ι J}
    (h : c.queue = (x.contexts j).queue) (i : ι) :
    ((x.record j c entry).contexts i).queue = (x.contexts i).queue := by
  by_cases hj : i = j
  · subst hj
    simpa using h
  · simp [hj]

/-- A context of the thread. -/
def context (i : ι) : Place (StateT (Premises ι J) Option) (LocalContext J) :=
  .part (τ := Premises ι J) (fun x => x.contexts i) fun x c =>
    { x with contexts := Function.update x.contexts i c }

/-- Logs an entry. -/
def note (entry : PumpEntry ι J) : StateT (Premises ι J) Option Unit :=
  modify fun x => { x with log := x.log ++ [entry] }

/-- Runs a job that a pump has taken, and logs how it ends: `rest` is what the code does from then
on. -/
def runJob (rest : StateT (Premises ι J) Option (Except Panic Unit)) (n : Nat) (i : ι) (job : J) :
    StateT (Premises ι J) Option (Except Panic Unit) := do
  note (.began n i job)
  let ending ← rest
  note (.ended n ending)
  return ending

/-- Does what code wants to do, and then the rest, unless the code has finished. -/
def act (rest : StateT (Premises ι J) Option (Except Panic Unit)) :
    CodeAct ι J → StateT (Premises ι J) Option (Except Panic Unit)
  | .finish ending => return ending
  | .execute i job => do
    note (.executed i job (← (context i).step (·.execute job)))
    rest
  | .close i => do
    (context i).modify .close
    note (.closed i)
    rest
  | .look i => do
    note (.looked i (← (context i).get).current)
    rest
  | .pump i max => do
    let n := (← get).log.length
    note (.called i max)
    note (.left n (← LocalContext.pump (context i) (runJob rest n i) max))
    rest

/-- Runs code until it finishes. Whoever runs it is told what has happened so far; each act takes one
unit of fuel, those of the jobs that it pumps included. -/
def play (code : PumpLog ι J → CodeAct ι J) :
    (fuel : Nat) → StateT (Premises ι J) Option (Except Panic Unit)
  | 0 => failure
  | fuel + 1 => do act (play code fuel) (code (← get).log)

end Premises

namespace Nest

variable [DecidableEq ι]

/-- The queue of a context changes in two ways only: a job that is accepted is added behind all
others, and a job that begins is taken from the front. -/
theorem Step.queue {s s' : Nest ι J} (h : s.Step s') (i : ι) :
    (s'.contexts i).queue = (s.contexts i).queue ∨
      (∃ job, s'.log = s.log ++ [.executed i job (.ok ())] ∧
        (s'.contexts i).queue = (s.contexts i).queue ++ [job]) ∨
      ∃ n job, s'.log = s.log ++ [.began n i job] ∧
        (s.contexts i).queue = job :: (s'.contexts i).queue := by
  cases h with
  | @execute x calls hcode j job =>
    rcases (x.contexts j).execute_cases job with ⟨-, hexecute⟩ | ⟨-, hexecute⟩
    · exact Or.inl (Premises.queue_record (by rw [hexecute]) i)
    · by_cases hj : i = j
      · subst hj
        refine Or.inr (Or.inl ⟨job, ?_, ?_⟩) <;> simp [hexecute]
      · exact Or.inl (by simp [hj])
  | @begin x call calls job c hidle hroom hnext =>
    obtain ⟨hqueue, -⟩ := LocalContext.next_eq_some hnext
    by_cases hj : i = call.context
    · subst hj
      exact Or.inr (Or.inr ⟨call.number, job, rfl, by simpa using hqueue⟩)
    · exact Or.inl (by simp [hj])
  | close hcode j => exact Or.inl (Premises.queue_record (by rfl) i)
  | look hcode j => exact Or.inl (Premises.queue_record (by rfl) i)
  | call hcode j max => exact Or.inl (Premises.queue_record (by rfl) i)
  | finish hbusy => exact Or.inl rfl
  | unwind hbusy panic => exact Or.inl (Premises.queue_record (by rfl) i)
  | done hidle hend => exact Or.inl (Premises.queue_record (by rfl) i)

/-- All that code does when it is run can happen in a nest, and when it has finished the same pumps are
in progress as before. -/
def Plays (p : StateT (Premises ι J) Option (Except Panic Unit)) : Prop :=
  ∀ x ending x', p.run x = some (ending, x') →
    ∀ calls, InCode calls → Reaches ⟨x, calls⟩ ⟨x', calls⟩

section Plays

variable {rest : StateT (Premises ι J) Option (Except Panic Unit)}

/-- A pump that runs jobs takes them one by one until it returns or is unwound. -/
theorem Plays.runJobs (hrest : Plays rest) {n : Nat} {i : ι} {before : Bool}
    {calls : List (PumpCall ι)} {ran max : Nat} {x x' : Premises ι J} {answer : Except Panic Nat}
    (hrun : (LocalContext.runJobs (Premises.context i) (Premises.runJob rest n i) ran max).run x =
      some (answer, x')) :
    Reaches ⟨x, { number := n, context := i, before, max := ran + max, ran } :: calls⟩
      ⟨x'.record i ((x'.contexts i).leave before) (.left n answer), calls⟩ := by
  induction max generalizing ran x with
  | zero =>
    obtain ⟨rfl, rfl⟩ := Prod.mk.inj (Option.some.inj hrun)
    exact .single (.done rfl (Or.inl rfl))
  | succ max ih =>
    rw [LocalContext.runJobs, StateT.run_bind] at hrun
    obtain ⟨⟨job?, y⟩, hstep, hafter⟩ := Option.bind_eq_some_iff.mp hrun
    change some ((x.contexts i).next.1, ({ x with
      contexts := Function.update x.contexts i (x.contexts i).next.2 } : Premises ι J)) = _ at hstep
    obtain ⟨hnext, hy⟩ := Prod.mk.inj (Option.some.inj hstep)
    cases job? with
    | none =>
      obtain ⟨rfl, rfl⟩ := Prod.mk.inj (Option.some.inj hafter)
      have hsame : (x.contexts i).next.2 = x.contexts i := by
        simp [LocalContext.next, LocalContext.queue_of_next_eq_none hnext]
      rw [hsame, Function.update_eq_self] at hy
      subst hy
      exact .single (.done rfl (Or.inr hnext))
    | some job =>
      -- the job begins, and the rest of the code is run as the job
      subst hy
      obtain ⟨⟨ending, z⟩, hended, hafter⟩ := Option.bind_eq_some_iff.mp hafter
      obtain ⟨⟨ending, y⟩, hjob, hnoted⟩ := Option.bind_eq_some_iff.mp hended
      obtain ⟨rfl, rfl⟩ := Prod.mk.inj (Option.some.inj hnoted)
      let call : PumpCall ι := { number := n, context := i, before, max := ran + (max + 1), ran }
      have hbegin : Step (⟨x, call :: calls⟩ : Nest ι J) _ :=
        .begin rfl (by simp [call]) (Prod.ext hnext rfl)
      have hjob' := hrest _ ending y hjob ({ call with busy := true } :: calls) (by simp [InCode])
      have hbegun := Relation.ReflTransGen.head hbegin hjob'
      cases ending with
      | error panic =>
        obtain ⟨rfl, rfl⟩ := Prod.mk.inj (Option.some.inj hafter)
        exact hbegun.tail (.unwind rfl panic)
      | ok _ =>
        have hothers := ih hafter
        rw [Nat.add_assoc, Nat.add_comm 1] at hothers
        exact (hbegun.tail (.finish rfl)).trans hothers

/-- Whatever code does next. -/
theorem Plays.act (hrest : Plays rest) (a : CodeAct ι J) : Plays (Premises.act rest a) := by
  intro x ending x' hrun calls hcode
  cases a with
  | finish answer =>
    obtain ⟨-, rfl⟩ := Prod.mk.inj (Option.some.inj hrun)
    exact .refl
  | execute i job =>
    exact .head (.execute hcode i job) (hrest (x.record i _ _) ending x' hrun calls hcode)
  | close i => exact .head (.close hcode i) (hrest (x.record i _ _) ending x' hrun calls hcode)
  | look i => exact .head (.look hcode i) (hrest (x.record i _ _) ending x' hrun calls hcode)
  | pump i max =>
    obtain ⟨⟨answer, y⟩, hpump, hafter⟩ := Option.bind_eq_some_iff.mp hrun
    obtain ⟨⟨ran, y⟩, hjobs, hleave⟩ := Option.bind_eq_some_iff.mp hpump
    obtain ⟨rfl, rfl⟩ := Prod.mk.inj (Option.some.inj hleave)
    let call : PumpCall ι :=
      { number := x.log.length, context := i, before := (x.contexts i).enter.1, max := 0 + max }
    have hpumped : Reaches ⟨_, call :: calls⟩ _ := hrest.runJobs hjobs
    simp only [call, Nat.zero_add] at hpumped
    exact .head (.call hcode i max) (hpumped.trans (hrest _ ending x' hafter calls hcode))

/-- Code that comes to an end has left all pumps that it called. -/
theorem plays_play (code : PumpLog ι J → CodeAct ι J) (fuel : Nat) :
    Plays (Premises.play code fuel) := by
  induction fuel with
  | zero => exact nofun
  | succ fuel ih => exact fun x => ih.act (code x.log) x

end Plays

/-- Whatever code one thread runs, and however its pumps nest and unwind.

At every moment, and whether or not the code will ever come to an end: what is logged is true, and of
every context the jobs have begun in the order in which they were accepted, each once, and those that
have not are queued. A context is current exactly while a pump of it is active. A job that panics
unwinds its pump at once, and a pump none of whose jobs has panicked returns. Queues change in two ways
only, by a job that is accepted or one that begins; so neither closing a context nor a panic loses a
job.

Code that is run by pumping the contexts themselves, and comes to an end, makes such a nest with the
same log; how its jobs have ended is logged by them. Then no pump is active and no context is current. -/
theorem nested_pumps_are_exact (names : ι → String) :
    (∀ s : Nest ι J, Reaches (ofNames names) s →
      s.Kept names ∧
      (∀ i, (s.contexts i).current = true ↔ ∃ n, s.log.Active n i) ∧
      ∀ s', s.Step s' → ∀ i,
        (s'.contexts i).queue = (s.contexts i).queue ∨
        (∃ job, s'.log = s.log ++ [.executed i job (.ok ())] ∧
          (s'.contexts i).queue = (s.contexts i).queue ++ [job]) ∨
        ∃ n job, s'.log = s.log ++ [.began n i job] ∧
          (s.contexts i).queue = job :: (s'.contexts i).queue) ∧
    ∀ (code : PumpLog ι J → CodeAct ι J) (fuel : Nat) (ending : Except Panic Unit)
      (x : Premises ι J), (Premises.play code fuel).run (.ofNames names) = some (ending, x) →
      Reaches (ofNames names) ⟨x, []⟩ ∧ (∀ n i, ¬ x.log.Active n i) ∧
        ∀ i, (x.contexts i).current = false := by
  constructor
  · intro s hreaches
    have hkept := (kept_ofNames names).reaches hreaches
    exact ⟨hkept, hkept.current_iff, fun s' hstep => hstep.queue⟩
  · intro code fuel ending x hrun
    have hreaches : Reaches (ofNames names) ⟨x, []⟩ :=
      plays_play code fuel _ ending x hrun [] nofun
    have hkept := (kept_ofNames names).reaches hreaches
    have hidle (n : Nat) (i : ι) : ¬ x.log.Active n i := by
      intro hactive
      obtain ⟨call, hmem, -⟩ := (hkept.stacked.active n i).mp hactive
      cases hmem
    refine ⟨hreaches, hidle, fun i => Bool.eq_false_iff.mpr fun hcurrent => ?_⟩
    obtain ⟨n, hactive⟩ := (hkept.current_iff i).mp hcurrent
    exact hidle n i hactive

/-- Two contexts. -/
def duo : Bool → String
  | false => "first"
  | true => "second"

/-- The first context is pumped. Its first job pumps the second one, whose job pumps the first one
again; the job of that pump closes the second context and panics, and the panic goes through two pumps.
The first job then finds the second context closed and not current any more. -/
def unruly (log : PumpLog Bool Nat) : CodeAct Bool Nat :=
  match log.length with
  | 0 => .execute false 1
  | 1 => .execute false 2
  | 2 => .execute true 3
  | 3 => .pump false 5
  | 5 => .pump true 1
  | 7 => .look false
  | 8 => .pump false 1
  | 10 => .close true
  | 11 | 13 => .finish (.error ⟨"unruly"⟩)
  | 15 => .execute true 4
  | 16 => .look true
  | 19 => .execute false 5
  | _ => .finish (.ok ())

/-- What pumps answered, what became of the jobs of the first context, and whether contexts were found
current. -/
def account (x : Premises Bool Nat) :
    List (Nat × Option Nat) × List Nat × List Nat × List Bool :=
  (x.log.filterMap fun
      | .left n answer => some (n, answer.toOption)
      | _ => none,
    x.log.begun false, (x.contexts false).queue,
    x.log.filterMap fun
      | .looked _ current => some current
      | _ => none)

theorem exists_unruly : ∃ ending x,
    (Premises.play unruly 20).run (.ofNames duo) = some (ending, x) ∧
      account x = ([(8, none), (5, none), (3, some 1)], [1, 2], [5], [true, false]) := by
  have haccount : ((Premises.play unruly 20).run (.ofNames duo)).map (fun run => account run.2) =
      some ([(8, none), (5, none), (3, some 1)], [1, 2], [5], [true, false]) := by
    decide +kernel
  obtain ⟨⟨ending, x⟩, hrun, hx⟩ := Option.map_eq_some_iff.mp haccount
  exact ⟨ending, x, hrun, hx⟩

theorem unruly_is_exact : ∃ ending x,
    (Premises.play unruly 20).run (.ofNames duo) = some (ending, x) ∧
      account x = ([(8, none), (5, none), (3, some 1)], [1, 2], [5], [true, false]) ∧
      Kept duo ⟨x, []⟩ ∧ ∀ i, (x.contexts i).current = false := by
  obtain ⟨ending, x, hrun, haccount⟩ := exists_unruly
  obtain ⟨hreaches, -, hcurrent⟩ := (nested_pumps_are_exact duo).2 unruly 20 ending x hrun
  obtain ⟨hkept, -⟩ := (nested_pumps_are_exact duo).1 _ hreaches
  exact ⟨ending, x, hrun, haccount, hkept, hcurrent⟩

end Nest
end Switchboard
