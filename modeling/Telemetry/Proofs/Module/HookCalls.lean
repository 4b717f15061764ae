import Telemetry.Module.Lifecycle

/-! The calls of hooks that bring modules up. A provider can note every call of its hooks beside the
state that all hooks share, and the notes of a phase follow the order of the modules up to the first
call that fails.
-/

namespace Telemetry.Module

variable {σ S : Type}

-----------------------------------------------------------------------------------------
-- Hooks and their calls
-----------------------------------------------------------------------------------------

/-- The hooks of a provider, in the order of the phases that call them. -/
inductive Hook where
  | prepare | start | notify
  deriving DecidableEq

namespace Hook

/-- How far a module has come when the hook is called for it. -/
def before : Hook → ModuleState
  | prepare => .unregistered
  | start => .prepared
  | notify => .started

/-- How far a module has come once the hook has succeeded for it. -/
def after : Hook → ModuleState
  | prepare => .prepared
  | start => .started
  | notify => .ready

def step : Hook → Provider σ S → Manager S → σ → Except Error (Manager S) × σ
  | prepare => Provider.prepareStep
  | start => Provider.startStep
  | notify => Provider.notifyStep

/-- The hooks that bring up modules in order, all of one phase before those of the next. -/
def schedule (order : List String) : List (Hook × String) :=
  order.map (prepare, ·) ++ order.map (start, ·) ++ order.map (notify, ·)

end Hook

/-- A call of a hook: the module that it was made for, the manager that the hook saw, and its
answer. Preparing a module yields its services.
-/
structure HookCall (S : Type) where
  hook : Hook
  module : String
  manager : Manager S
  answer : Except Error (Option (Registry S))

/-- The calls follow a schedule up to the first that fails, and a failure is that of the last call.
-/
inductive Follows : List (Hook × String) → List (HookCall S) → Except Error Unit → Prop where
  | done : Follows [] [] (.ok ())
  | failed (call : HookCall S) {error : Error} (rest : List (Hook × String))
    (answer : call.answer = .error error)
    : Follows ((call.hook, call.module) :: rest) [call] (.error error)
  | next (call : HookCall S) {services : Option (Registry S)} {rest : List (Hook × String)}
    {calls : List (HookCall S)} {result : Except Error Unit} (answer : call.answer = .ok services)
    (later : Follows rest calls result)
    : Follows ((call.hook, call.module) :: rest) (call :: calls) result

namespace Follows

variable {first second : List (Hook × String)} {calls more : List (HookCall S)}

/-- A schedule that is done can go on with another one. -/
theorem append {result : Except Error Unit} (h : Follows first calls (.ok ()))
    (later : Follows second more result)
    : Follows (first ++ second) (calls ++ more) result := by
  generalize succeeded : Except.ok () = outcome at h
  induction h with
  | done => exact later
  | failed => cases succeeded
  | next call answer _ ih => exact .next call answer (ih succeeded)

/-- A failure ends every longer schedule, too. -/
theorem append_of_failed {error : Error} (h : Follows first calls (.error error))
    (second : List (Hook × String))
    : Follows (first ++ second) calls (.error error) := by
  generalize failed : Except.error error = outcome at h
  induction h with
  | done => cases failed
  | failed call rest answer => exact .failed call _ answer
  | next call answer _ ih => exact .next call answer (ih failed)

end Follows

-----------------------------------------------------------------------------------------
-- What one call does
-----------------------------------------------------------------------------------------

namespace Provider

def call (provider : Provider σ S) (manager : Manager S) (state : σ)
    : Hook → Except Error (Option (Registry S)) × σ
  | .prepare => (provider.prepare manager ⟨provider.module, ∅⟩ state).map (·.map some) id
  | .start => (provider.start manager state).map (·.map fun _ => none) id
  | .notify => (provider.notify manager state).map (·.map fun _ => none) id

/-- The manager once a hook has succeeded. -/
def advance (provider : Provider σ S) (manager : Manager S)
    : Hook → Option (Registry S) → Manager S
  | .prepare, some services => manager.add ⟨provider.module, provider.provider, .prepared, services⟩
  | .prepare, none => manager
  | .start, _ => manager.setState provider.module .started
  | .notify, _ => manager.setState provider.module .ready

/-- A step calls the hook and goes on from its answer. -/
theorem step_eq (hook : Hook) (provider : Provider σ S) (manager : Manager S) (state : σ)
    : hook.step provider manager state
      = (provider.call manager state hook).map (·.map (provider.advance manager hook)) id := by
  cases hook with
  | prepare =>
      simp only [Hook.step, prepareStep, call, Prod.map, id]
      cases (provider.prepare manager ⟨provider.module, ∅⟩ state).1 <;> rfl
  | start =>
      simp only [Hook.step, startStep, call, Prod.map, id]
      cases (provider.start manager state).1 <;> rfl
  | notify =>
      simp only [Hook.step, notifyStep, call, Prod.map, id]
      cases (provider.notify manager state).1 <;> rfl

def note (provider : Provider σ S) (manager : Manager S) (state : σ) (hook : Hook) : HookCall S :=
  ⟨hook, provider.module, manager, (provider.call manager state hook).1⟩

/-- The provider that notes every call of its hooks behind the notes that are there. -/
def noting (provider : Provider σ S) : Provider (σ × List (HookCall S)) S where
  toSpec := provider.toSpec
  prepare manager services state :=
    let (answer, left) := provider.prepare manager services state.1
    (answer, left, state.2 ++ [⟨.prepare, provider.module, manager, answer.map some⟩])
  start manager state :=
    let (answer, left) := provider.start manager state.1
    (answer, left, state.2 ++ [⟨.start, provider.module, manager, answer.map fun _ => none⟩])
  notify manager state :=
    let (answer, left) := provider.notify manager state.1
    (answer, left, state.2 ++ [⟨.notify, provider.module, manager, answer.map fun _ => none⟩])

/-- Noting a call changes neither its answer nor what it does to the state. -/
theorem step_noting (hook : Hook) (provider : Provider σ S) (manager : Manager S) (state : σ)
    (notes : List (HookCall S))
    : hook.step provider.noting manager (state, notes)
      = (hook.step provider manager state).map id
          fun left => (left, notes ++ [provider.note manager state hook]) := by
  cases hook <;> rfl

end Provider

end Telemetry.Module
