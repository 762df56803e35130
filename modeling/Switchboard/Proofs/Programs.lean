import Switchboard.Lifecycle
import Switchboard.Router
/-!
# Properties of programs that compose

Many things that are true of programs are true of a whole program if they are true of its parts.
A router is used by programs of such parts: what its operations do is made of steps of the router,
of deliveries to executors and of messages to endpoints.
-/
namespace Switchboard

/-- A property of programs that do nothing, and of programs that do two things with the property
one after the other. -/
structure Composes {m : Type → Type} [Monad m] (K : (α : Type) → m α → Prop) : Prop where
  pure : ∀ {α : Type} (a : α), K α (pure a)
  bind : ∀ {α β : Type} {p : m α} {f : α → m β}, K α p → (∀ a, K β (f a)) → K β (p >>= f)

namespace Composes

variable {m : Type → Type} [Monad m] {K : (α : Type) → m α → Prop} {κ ε η : Type}

/-- A program that goes through a list. -/
theorem forM (hK : Composes K) {α : Type} {f : α → m PUnit} (hf : ∀ a, K _ (f a)) (l : List α) :
    K _ (l.forM f) := by
  induction l with
  | nil => exact hK.pure PUnit.unit
  | cons a l ih => exact hK.bind (hf a) fun _ => ih

/-- What forwarding a message is made of. -/
structure Reaches (K : (α : Type) → m α → Prop) (f : Fabric m κ ε η) : Prop where
  get : K _ f.router.get
  forward : ∀ endpoint msg, K _ (f.forward endpoint msg)

/-- What the programs that use a router are made of, but for the step that accepts a request. -/
structure Fits (K : (α : Type) → m α → Prop) (f : Fabric m κ ε η) : Prop extends Reaches K f where
  complete : ∀ id result, K _ (f.complete id result)
  fail : ∀ id fault, K _ (f.fail id fault)

theorem forwardTo (hK : Composes K) {f : Fabric m κ ε η} (hf : Reaches K f) (dest : Loc)
    (msg : Message) : K _ (f.forwardTo dest msg) := by
  refine hK.bind hf.get fun r => ?_
  cases r.resolve dest with
  | error e => exact hK.pure _
  | ok endpoint => exact hf.forward endpoint msg

theorem returnResult (hK : Composes K) {f : Fabric m κ ε η}
    (hcomplete : ∀ id result, K _ (f.complete id result)) (result : CmdResult) :
    K _ (f.returnResult result) := by
  rw [Fabric.returnResult]
  split
  · exact hK.pure _
  · exact hK.pure _
  · exact hK.bind (hcomplete _ result) fun _ => hK.pure _

theorem sendCmd (hK : Composes K) {f : Fabric m κ ε η} (hf : Fits K f) (p : Outlet ε) (cmd : Cmd)
    {continuation : κ} {streaming : Bool}
    (haccept : K _ (f.router.step (·.accept { continuation, executor := p.executor, streaming }))) :
    K _ (p.sendCmd f cmd continuation streaming) := by
  rw [Outlet.sendCmd]
  cases cmd.validate with
  | error e => exact hK.pure _
  | ok _ =>
    refine hK.bind hf.get fun r => ?_
    cases r.ensureOpen with
    | error e => exact hK.pure _
    | ok _ =>
      refine hK.bind haccept fun answer => ?_
      cases answer with
      | error e => exact hK.pure _
      | ok id =>
        refine hK.bind (hK.forwardTo hf.toReaches _ _) fun forwarded => ?_
        cases forwarded with
        | error e => exact hK.bind (hf.fail id e) fun _ => hK.pure _
        | ok _ => exact hK.pure _

theorem send (hK : Composes K) {f : Fabric m κ ε η} (hf : Reaches K f) (p : Outlet ε)
    (msg : Message) : K _ (p.send f msg) := by
  rw [Outlet.send]
  split
  · exact hK.pure _
  · cases msg.validate with
    | error e => exact hK.pure _
    | ok _ =>
      refine hK.bind hf.get fun r => ?_
      cases r.ensureOpen with
      | error e => exact hK.pure _
      | ok _ => exact hK.forwardTo hf _ _

/-- A stop is made of steps of the lifecycle and of the teardown. -/
theorem beginStop (hK : Composes K) {lifecycle : Place m Lifecycle}
    (hstep : ∀ {α : Type} (f : Lifecycle → α × Lifecycle), K α (lifecycle.step f))
    {teardown : m (Except ε Unit)} (hteardown : K _ teardown) :
    K _ (Lifecycle.beginStop lifecycle teardown) := by
  refine hK.bind (hstep _) fun entered => ?_
  split
  · refine hK.bind hteardown fun ended => ?_
    cases ended with
    | error e => exact hK.pure _
    | ok _ => exact hK.bind (hstep _) fun _ => hK.pure _
  · exact hK.pure _

end Composes

/-- Why a closed router refuses a command. -/
def Cmd.refusal (cmd : Cmd) : Fault :=
  match cmd.validate with
  | .error e => .ofInvalid e
  | .ok () => .dispatchFailure "router is closed"

/-- Why a closed router refuses a message. -/
def Message.refusal (msg : Message) : Fault :=
  if !msg.kind.isOneWay then
    .invalidArgument (msg.kind.text ++ " cannot be sent as a one-way message")
  else
    match msg.validate with
    | .error e => .ofInvalid e
    | .ok () => .dispatchFailure "router is closed"

namespace Fabric

variable {σ κ ε η : Type}

/-- What the end of forwarding makes of a request: what went wrong ends it. -/
def settled (f : Fabric (StateM σ) κ ε η) (id : RequestId) : Except Fault Unit × σ → σ
  | (.ok (), x) => x
  | (.error e, x) => ((f.fail id e).run x).2

/-- Whoever looks at the router goes on with what it is. -/
theorem run_get_bind (f : Fabric (StateM σ) κ ε η) {read : σ → Router κ ε η}
    (hget : ∀ x, f.router.get.run x = (read x, x)) {α : Type} (rest : Router κ ε η → StateM σ α)
    (x : σ) : (f.router.get >>= rest).run x = (rest (read x)).run x := by
  rw [StateT.run_bind, hget]
  rfl

/-- A command is sent in one of three ways: nothing happens at all, the request is refused, or it
waits and the command is forwarded. -/
theorem run_sendCmd (f : Fabric (StateM σ) κ ε η) {read : σ → Router κ ε η}
    (hget : ∀ x, f.router.get.run x = (read x, x)) (p : Outlet ε) (cmd : Cmd) (c : κ)
    (streaming : Bool) (x : σ) :
    let request : PendingRequest κ ε := { continuation := c, executor := p.executor, streaming }
    let accepted := (f.router.step (·.accept request)).run x
    let dest := p.destination cmd.dest
    let sent := (p.sendCmd f cmd c streaming).run x
    (∃ e, sent = (.error e, x)) ∨
      (∃ e, accepted.1 = .error e ∧ sent = (.error e, accepted.2)) ∨
      ∃ id, accepted.1 = .ok id ∧
        sent = (.ok id, f.settled id
          ((f.forwardTo dest (.cmd (cmd.stamped id p.src dest))).run accepted.2)) := by
  intro request accepted dest sent
  have hsent : sent = (p.sendCmd f cmd c streaming).run x := rfl
  rw [Outlet.sendCmd] at hsent
  cases hvalid : cmd.validate with
  | error e =>
    rw [hvalid] at hsent
    exact Or.inl ⟨_, hsent⟩
  | ok _ =>
    rw [hvalid] at hsent
    dsimp only at hsent
    rw [f.run_get_bind hget] at hsent
    cases hopen : (read x).ensureOpen with
    | error e =>
      rw [hopen] at hsent
      exact Or.inl ⟨e, hsent⟩
    | ok _ =>
      rw [hopen] at hsent
      dsimp only at hsent
      rw [StateT.run_bind] at hsent
      change sent = (accepted >>= _ : Id _) at hsent
      clear_value accepted sent
      obtain ⟨answer, x'⟩ := accepted
      cases answer with
      | error e => exact Or.inr (Or.inl ⟨e, rfl, hsent⟩)
      | ok id =>
        refine Or.inr (Or.inr ⟨id, rfl, ?_⟩)
        change sent = StateT.run (f.forwardTo dest _ >>= _) x' at hsent
        rw [StateT.run_bind] at hsent
        rw [hsent]
        generalize (f.forwardTo dest (.cmd (cmd.stamped id p.src dest))).run x' = forwarded
        obtain ⟨verdict, x''⟩ := forwarded
        cases verdict with
        | error e => rfl
        | ok _ => rfl

/-- A message is sent in one of two ways: nothing happens at all, or it is forwarded. -/
theorem run_send (f : Fabric (StateM σ) κ ε η) {read : σ → Router κ ε η}
    (hget : ∀ x, f.router.get.run x = (read x, x)) (p : Outlet ε) (msg : Message) (x : σ) :
    let dest := p.destination msg.dest
    let sent := (p.send f msg).run x
    (∃ e, sent = (.error e, x)) ∨ sent = (f.forwardTo dest (msg.withDest dest)).run x := by
  intro dest sent
  have hsent : sent = (p.send f msg).run x := rfl
  rw [Outlet.send] at hsent
  split at hsent
  · exact Or.inl ⟨_, hsent⟩
  · cases hvalid : msg.validate with
    | error e =>
      rw [hvalid] at hsent
      exact Or.inl ⟨_, hsent⟩
    | ok _ =>
      rw [hvalid] at hsent
      dsimp only at hsent
      rw [f.run_get_bind hget] at hsent
      cases hopen : (read x).ensureOpen with
      | error e =>
        rw [hopen] at hsent
        exact Or.inl ⟨e, hsent⟩
      | ok _ =>
        rw [hopen] at hsent
        exact Or.inr hsent

/-- A closed router refuses commands, and nothing at all happens. -/
theorem run_sendCmd_of_closed (f : Fabric (StateM σ) κ ε η) {read : σ → Router κ ε η}
    (hget : ∀ x, f.router.get.run x = (read x, x)) {x : σ} (h : (read x).closed = true)
    (p : Outlet ε) (cmd : Cmd) (c : κ) (streaming : Bool) :
    (p.sendCmd f cmd c streaming).run x = (.error cmd.refusal, x) := by
  rw [Outlet.sendCmd, Cmd.refusal]
  cases cmd.validate with
  | error e => rfl
  | ok _ =>
    dsimp only
    rw [f.run_get_bind hget, Router.ensureOpen, h]
    rfl

/-- A closed router refuses messages, and nothing at all happens. -/
theorem run_send_of_closed (f : Fabric (StateM σ) κ ε η) {read : σ → Router κ ε η}
    (hget : ∀ x, f.router.get.run x = (read x, x)) {x : σ} (h : (read x).closed = true)
    (p : Outlet ε) (msg : Message) : (p.send f msg).run x = (.error msg.refusal, x) := by
  rw [Outlet.send, Message.refusal]
  split
  · rfl
  · cases msg.validate with
    | error e => rfl
    | ok _ =>
      dsimp only
      rw [f.run_get_bind hget, Router.ensureOpen, h]
      rfl

end Fabric
end Switchboard
