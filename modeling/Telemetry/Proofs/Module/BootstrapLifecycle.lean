import Mathlib.Data.List.Basic
import Telemetry.Proofs.Module.DependencyOrders
import Telemetry.Proofs.Module.HookCalls

/-! How modules come up. The hooks are called phase by phase in dependency order, up to the first
that fails, and at every call the manager shows the modules before it in the order one step further
than those behind it.
-/

namespace Telemetry.Module

variable {σ S : Type}

-----------------------------------------------------------------------------------------
-- What a manager knows of a module
-----------------------------------------------------------------------------------------

namespace Manager

theorem find?_add (manager : Manager S) {loaded : LoadedModule S}
    (fresh : manager.find? loaded.name = none) (module : String)
    : (manager.add loaded).find? module
      = if module = loaded.name then some loaded else manager.find? module := by
  unfold find? add at *
  rw [List.find?_append]
  by_cases same : module = loaded.name
  · subst same
    simp [fresh]
  · have other : ¬loaded.name = module := fun eq => same eq.symm
    simp [same, other]

theorem find?_setState (manager : Manager S) (module : String) (state : ModuleState)
    (other : String)
    : (manager.setState module state).find? other
      = (manager.find? other).map fun loaded =>
          if other = module then { loaded with state } else loaded := by
  unfold find? setState
  rw [List.find?_map]
  have names : ((fun loaded : LoadedModule S => decide (loaded.name = other)) ∘ fun loaded =>
      if loaded.name = module then { loaded with state } else loaded)
      = fun loaded => decide (loaded.name = other) := by
    funext loaded
    simp only [Function.comp_apply]
    split <;> rfl
  rw [names]
  cases found : manager.modules.find? (·.name = other) with
  | none => rfl
  | some loaded =>
      have named : loaded.name = other := by simpa using List.find?_some found
      simp [named]

/-- What a manager knows of a module: nothing, or how far the module has come since it was prepared
by one of some calls.
-/
inductive Knows (manager : Manager S) (calls : List (HookCall S)) (module : String)
    : ModuleState → Prop where
  | absent (missing : manager.find? module = none) : Knows manager calls module .unregistered
  | loaded {state : ModuleState} {services : Registry S} (provider : String)
    (found : manager.find? module = some ⟨module, provider, state, services⟩)
    (loaded : state ≠ .unregistered) (call : HookCall S) (called : call ∈ calls)
    (prepares : call.hook = .prepare) (about : call.module = module)
    (yields : call.answer = .ok (some services))
    : Knows manager calls module state

/-- A manager shows how far a module has come. A module that is known provides the services that its
preparation yielded, and another one provides none.
-/
structure Shows (manager : Manager S) (calls : List (HookCall S)) (module : String)
    (state : ModuleState) : Prop where
  stands : manager.state module = state
  unknown : state = .unregistered →
    ∀ interface, manager.service module interface = .error (.serviceNotProvided module interface)
  known : state ≠ .unregistered →
    ∃ call ∈ calls, call.hook = .prepare ∧ call.module = module
      ∧ ∃ services, call.answer = .ok (some services)
        ∧ ∀ interface, manager.service module interface = services.get interface

/-- Adding a prepared module puts its name behind those that are there. -/
theorem names_add (manager : Manager S) (loaded : LoadedModule S)
    : (manager.add loaded).names = manager.names ++ [loaded.name] := by
  simp [names, add]

theorem names_setState (manager : Manager S) (module : String) (state : ModuleState)
    : (manager.setState module state).names = manager.names := by
  unfold names setState
  rw [List.map_map]
  refine List.map_congr_left fun loaded _ => ?_
  simp only [Function.comp_apply]
  split <;> rfl

namespace Knows

variable {manager other : Manager S} {calls more : List (HookCall S)} {module : String}
variable {state : ModuleState}

theorem shows (h : manager.Knows calls module state) : manager.Shows calls module state := by
  cases h with
  | absent missing =>
      refine ⟨by simp only [Manager.state, missing], fun _ interface => ?_, fun known => ?_⟩
      · simp only [service, missing]
      · exact absurd rfl known
  | loaded provider found come call called prepares about yields =>
      refine ⟨by simp only [Manager.state, found], fun unknown => ?_, fun _ => ?_⟩
      · exact absurd unknown come
      · refine ⟨call, called, prepares, about, _, yields, fun interface => ?_⟩
        simp only [service, found]

/-- What is known stays known while the entry of the module stays and calls are added. -/
theorem keep (h : manager.Knows calls module state)
    (entry : other.find? module = manager.find? module) (calls_sub : calls ⊆ more)
    : other.Knows more module state := by
  cases h with
  | absent missing => exact .absent (entry.trans missing)
  | loaded provider found come call called prepares about yields =>
      exact .loaded provider (entry.trans found) come call (calls_sub called) prepares about yields

theorem missing (h : manager.Knows calls module .unregistered) : manager.find? module = none := by
  cases h with
  | absent missing => exact missing
  | loaded _ _ known => exact absurd rfl known

/-- Setting the state of a module that is known takes it there. -/
theorem setState (h : manager.Knows calls module state) (known : state ≠ .unregistered)
    {next : ModuleState} (come : next ≠ .unregistered)
    : (manager.setState module next).Knows calls module next := by
  cases h with
  | absent => exact absurd rfl known
  | loaded provider found _ call called prepares about yields =>
      refine .loaded provider ?_ come call called prepares about yields
      rw [find?_setState, found, Option.map_some, if_pos rfl]

end Knows

end Manager

namespace Provider

/-- A hook that succeeds touches the entry of its own module alone. -/
theorem find?_advance_of_ne (provider : Provider σ S) {manager : Manager S} {hook : Hook}
    (fresh : hook = .prepare → manager.find? provider.module = none)
    (services : Option (Registry S)) {other : String} (ne : other ≠ provider.module)
    : (provider.advance manager hook services).find? other = manager.find? other := by
  cases hook with
  | prepare =>
      cases services with
      | none => rfl
      | some services => exact (manager.find?_add (fresh rfl) other).trans (if_neg ne)
  | start | notify =>
      simp only [advance, Manager.find?_setState, if_neg ne, Option.map_id']

/-- A preparation that succeeds yields services. -/
theorem call_prepare_eq_ok {provider : Provider σ S} {manager : Manager S} {state : σ}
    {services : Option (Registry S)}
    (answer : (provider.call manager state .prepare).1 = .ok services)
    : ∃ yielded, services = some yielded := by
  change (provider.prepare manager ⟨provider.module, ∅⟩ state).1.map some = .ok services at answer
  cases outcome : (provider.prepare manager ⟨provider.module, ∅⟩ state).1 with
  | error error => rw [outcome] at answer; cases answer
  | ok yielded => rw [outcome] at answer; cases answer; exact ⟨yielded, rfl⟩

/-- A hook that succeeds takes its own module one step further. -/
theorem knows_advance {provider : Provider σ S} {manager : Manager S} {state : σ} {hook : Hook}
    {calls : List (HookCall S)} {services : Option (Registry S)}
    (answer : (provider.call manager state hook).1 = .ok services)
    (h : manager.Knows calls provider.module hook.before)
    : (provider.advance manager hook services).Knows (calls ++ [provider.note manager state hook])
        provider.module hook.after := by
  have earlier : calls ⊆ calls ++ [provider.note manager state hook] :=
    List.subset_append_left _ _
  cases hook with
  | prepare =>
      have h : manager.Knows calls provider.module .unregistered := h
      obtain ⟨yielded, rfl⟩ := call_prepare_eq_ok answer
      refine .loaded provider.provider ?_ (by decide) (provider.note manager state .prepare)
        (by simp) rfl rfl answer
      exact (manager.find?_add h.missing _).trans (if_pos rfl)
  | start =>
      have h : manager.Knows calls provider.module .prepared := h
      exact (h.setState (by decide) (by decide)).keep rfl earlier
  | notify =>
      have h : manager.Knows calls provider.module .started := h
      exact (h.setState (by decide) (by decide)).keep rfl earlier

/-- Preparing a module puts it behind the modules that the manager lists, and the other hooks keep
the list.
-/
theorem names_advance {provider : Provider σ S} {manager : Manager S} {state : σ} {hook : Hook}
    {services : Option (Registry S)} (answer : (provider.call manager state hook).1 = .ok services)
    : (provider.advance manager hook services).names
      = if hook = .prepare then manager.names ++ [provider.module] else manager.names := by
  cases hook with
  | prepare =>
      obtain ⟨yielded, rfl⟩ := call_prepare_eq_ok answer
      exact manager.names_add _
  | start | notify => exact manager.names_setState _ _

end Provider

-----------------------------------------------------------------------------------------
-- Phases
-----------------------------------------------------------------------------------------

/-- In the phase of a hook some modules have passed it and the others wait for it. -/
structure Stage (hook : Hook) (passed waiting : List String) (calls : List (HookCall S))
    (manager : Manager S) : Prop where
  names : manager.names = if hook = .prepare then passed else passed ++ waiting
  ofPassed : ∀ module ∈ passed, manager.Knows calls module hook.after
  ofWaiting : ∀ module ∈ waiting, manager.Knows calls module hook.before
  ofOthers : ∀ module, module ∉ passed → module ∉ waiting →
    manager.Knows calls module .unregistered

namespace Stage

variable {hook : Hook} {passed waiting : List String} {calls more : List (HookCall S)}
variable {manager : Manager S}

theorem mono (h : Stage hook passed waiting calls manager) (sub : calls ⊆ more)
    : Stage hook passed waiting more manager where
  names := h.names
  ofPassed module member := (h.ofPassed module member).keep rfl sub
  ofWaiting module member := (h.ofWaiting module member).keep rfl sub
  ofOthers module notPassed notWaiting := (h.ofOthers module notPassed notWaiting).keep rfl sub

/-- A hook that succeeds for the first module that waits lets this module pass. -/
theorem advance {provider : Provider σ S} {state : σ} {services : Option (Registry S)}
    (distinct : (passed ++ provider.module :: waiting).Nodup)
    (h : Stage hook passed (provider.module :: waiting) calls manager)
    (answer : (provider.call manager state hook).1 = .ok services)
    : Stage hook (passed ++ [provider.module]) waiting
        (calls ++ [provider.note manager state hook]) (provider.advance manager hook services) := by
  have own := h.ofWaiting provider.module List.mem_cons_self
  have fresh : hook = .prepare → manager.find? provider.module = none := by
    rintro rfl
    exact own.missing
  have others {module : String} {known : ModuleState} (ne : module ≠ provider.module)
      (before : manager.Knows calls module known)
      : (provider.advance manager hook services).Knows
          (calls ++ [provider.note manager state hook]) module known :=
    before.keep (provider.find?_advance_of_ne fresh services ne) (List.subset_append_left _ _)
  obtain ⟨_, waitingDistinct, apart⟩ := List.nodup_append.mp distinct
  obtain ⟨notWaiting, _⟩ := List.nodup_cons.mp waitingDistinct
  refine ⟨?_, ?_, ?_, ?_⟩
  · rw [Provider.names_advance answer, h.names]
    split <;> simp
  · intro module member
    rcases List.mem_append.mp member with before | here
    · have ne : module ≠ provider.module := apart module before _ List.mem_cons_self
      exact others ne (h.ofPassed module before)
    · rw [List.mem_singleton.mp here]
      exact Provider.knows_advance answer own
  · intro module member
    have ne : module ≠ provider.module := fun same => notWaiting (same ▸ member)
    exact others ne (h.ofWaiting module (List.mem_cons_of_mem _ member))
  · intro module notPassed absent
    rw [List.mem_append, not_or, List.mem_singleton] at notPassed
    exact others notPassed.2 (h.ofOthers module notPassed.1 (by simp [notPassed.2, absent]))

/-- When all modules have passed a hook, all of them wait for the next one. -/
theorem next {following : Hook} (h : Stage hook passed [] calls manager)
    (follows : following.before = hook.after) (later : following ≠ .prepare)
    : Stage following [] passed calls manager where
  names := by
    rw [h.names, if_neg later]
    split <;> simp
  ofPassed _ member := absurd member List.not_mem_nil
  ofWaiting module member := follows ▸ h.ofPassed module member
  ofOthers module _ absent := h.ofOthers module absent List.not_mem_nil

end Stage

namespace Provider

/-- A phase is noted along its schedule, every call at the stage that it finds, and if no call fails
all modules pass. By induction over the modules that wait.
-/
theorem forEach_noting (hook : Hook) {waiting : List (Provider σ S)} (passed : List String)
    {manager : Manager S} (state : σ) {notes : List (HookCall S)}
    (distinct : (passed ++ waiting.map (·.module)).Nodup)
    (h : Stage hook passed (waiting.map (·.module)) notes manager)
    : let run := forEach hook.step waiting manager state
      ∃ calls, forEach hook.step (waiting.map noting) manager (state, notes)
            = (run.1, run.2, notes ++ calls)
        ∧ Follows (waiting.map fun provider => (hook, provider.module)) calls
            (run.1.map fun _ => ())
        ∧ (∀ call ∈ calls, call.hook = hook ∧ ∃ between after,
            waiting.map (·.module) = between ++ call.module :: after
            ∧ Stage hook (passed ++ between) (call.module :: after) (notes ++ calls) call.manager)
        ∧ ∀ left, run.1 = .ok left →
            Stage hook (passed ++ waiting.map (·.module)) [] (notes ++ calls) left := by
  induction waiting generalizing passed manager state notes with
  | nil =>
      refine ⟨[], by simp [forEach], .done, by simp, fun left same => ?_⟩
      cases same
      simpa using h
  | cons provider rest ih =>
      have stepped := step_eq hook provider manager state
      have noted := step_noting hook provider manager state notes
      cases answer : (provider.call manager state hook).1 with
      | error error =>
          simp only [Prod.map, answer, Except.map, id] at stepped
          simp only [stepped, Prod.map, id] at noted
          -- The phase ends here, and the modules behind this one still wait.
          refine ⟨[provider.note manager state hook], ?_, ?_, ?_, ?_⟩
          · simp only [List.map_cons, forEach, stepped, noted]
          · simp only [forEach, stepped]
            exact .failed (provider.note manager state hook) _ answer
          · intro call member
            cases List.mem_singleton.mp member
            refine ⟨rfl, [], rest.map (·.module), rfl, ?_⟩
            rw [List.append_nil]
            exact h.mono (List.subset_append_left _ _)
          · intro left same
            simp only [forEach, stepped] at same
            cases same
      | ok services =>
          simp only [Prod.map, answer, Except.map, id] at stepped
          simp only [stepped, Prod.map, id] at noted
          -- The module joins those that have passed, and its call comes before the later ones.
          have nextDistinct : ((passed ++ [provider.module]) ++ rest.map (·.module)).Nodup := by
            simpa using distinct
          obtain ⟨calls, run, follows, stages, done⟩ := ih (passed ++ [provider.module])
            (provider.call manager state hook).2 nextDistinct (h.advance distinct answer)
          refine ⟨provider.note manager state hook :: calls, ?_, ?_, ?_, ?_⟩
          · simp only [List.map_cons, forEach, stepped, noted, run, List.append_assoc,
              List.singleton_append]
          · simp only [forEach, stepped]
            exact .next (provider.note manager state hook) answer follows
          · intro call member
            rcases List.mem_cons.mp member with rfl | member
            · refine ⟨rfl, [], rest.map (·.module), rfl, ?_⟩
              rw [List.append_nil]
              exact h.mono (List.subset_append_left _ _)
            · obtain ⟨same, between, after, split, stage⟩ := stages call member
              refine ⟨same, provider.module :: between, after, by simp [split], ?_⟩
              simpa using stage
          · intro left same
            simp only [forEach, stepped] at same
            simpa using done left same

/-- Goes on with a phase unless a call has failed. -/
def thenPhase (hook : Hook) (ordered : List (Provider σ S))
    : Except Error (Manager S) × σ → Except Error (Manager S) × σ
  | (.error error, state) => (.error error, state)
  | (.ok manager, state) => forEach hook.step ordered manager state

/-- Modules are brought up by one phase for each hook. -/
theorem runPhases_eq (ordered : List (Provider σ S)) (state : σ)
    : runPhases ordered state
      = thenPhase .notify ordered
          (thenPhase .start ordered (thenPhase .prepare ordered (.ok {}, state))) := by
  unfold runPhases
  cases first : forEach prepareStep ordered {} state with
  | mk prepared left =>
      rw [show thenPhase .prepare ordered (.ok {}, state) = (prepared, left) from first]
      cases prepared with
      | error error => rfl
      | ok manager =>
          cases second : forEach startStep ordered manager left with
          | mk started leftAfter =>
              rw [show thenPhase .start ordered (.ok manager, left) = (started, leftAfter)
                from second]
              cases started <;> simp only [second] <;> rfl

/-- A run of modules in order and its noted version agree, and the calls that are noted follow the
schedule, each made at the stage of its hook at which the modules before its own have passed.
-/
structure Noted (order : List String) (schedule : List (Hook × String)) (calls : List (HookCall S))
    (run : Except Error (Manager S) × σ)
    (noted : Except Error (Manager S) × σ × List (HookCall S)) : Prop where
  same : noted = (run.1, run.2, calls)
  follows : Follows schedule calls (run.1.map fun _ => ())
  stages : ∀ call ∈ calls, ∃ before after, order = before ++ call.module :: after
    ∧ Stage call.hook before (call.module :: after) calls call.manager

/-- One more phase over all modules keeps a run noted, and all modules pass unless a call fails. -/
theorem Noted.phase {ordered : List (Provider σ S)} {order : List String}
    {schedule : List (Hook × String)} {calls : List (HookCall S)}
    {run : Except Error (Manager S) × σ} {noted : Except Error (Manager S) × σ × List (HookCall S)}
    (names : order = ordered.map (·.module)) (distinct : order.Nodup) (hook : Hook)
    (h : Noted order schedule calls run noted)
    (begins : ∀ manager, run.1 = .ok manager → Stage hook [] order calls manager)
    : ∃ more, Noted order (schedule ++ order.map (hook, ·)) more (thenPhase hook ordered run)
          (thenPhase hook (ordered.map noting) noted)
        ∧ ∀ left, (thenPhase hook ordered run).1 = .ok left → Stage hook order [] more left := by
  subst names
  obtain ⟨same, follows, stages⟩ := h
  subst same
  rcases run with ⟨error | manager, state⟩
  · exact ⟨calls, ⟨rfl, follows.append_of_failed _, stages⟩, fun left ok => nomatch ok⟩
  · obtain ⟨more, noted, later, between, done⟩ :=
      forEach_noting hook [] state distinct (begins manager rfl)
    refine ⟨calls ++ more, ⟨noted, ?_, ?_⟩, done⟩
    · rw [List.map_map]
      exact follows.append later
    · intro call member
      rcases List.mem_append.mp member with earlier | here
      · obtain ⟨before, after, split, stage⟩ := stages call earlier
        exact ⟨before, after, split, stage.mono (List.subset_append_left _ _)⟩
      · obtain ⟨same, before, after, split, stage⟩ := between call here
        exact ⟨before, after, split, same ▸ stage⟩

/-- All phases are noted along the schedule of the order, and unless a call fails all modules have
passed the last hook.
-/
theorem runPhases_noting (ordered : List (Provider σ S)) {order : List String}
    (names : order = ordered.map (·.module)) (distinct : order.Nodup) (state : σ)
    : ∃ calls, Noted order (Hook.schedule order) calls (runPhases ordered state)
          (runPhases (ordered.map noting) (state, []))
        ∧ ∀ left, (runPhases ordered state).1 = .ok left → Stage .notify order [] calls left := by
  have fresh : Stage .prepare [] order ([] : List (HookCall S)) {} :=
    ⟨rfl, fun _ member => absurd member List.not_mem_nil, fun _ _ => .absent rfl,
      fun _ _ _ => .absent rfl⟩
  have idle : Noted order [] [] (.ok {}, state) (.ok ({} : Manager S), state, []) :=
    ⟨rfl, .done, fun _ member => absurd member List.not_mem_nil⟩
  obtain ⟨preparing, prepared, allPrepared⟩ := idle.phase names distinct .prepare fun _ same =>
    Except.ok.inj same ▸ fresh
  obtain ⟨starting, started, allStarted⟩ := prepared.phase names distinct .start fun left ok =>
    (allPrepared left ok).next rfl (by decide)
  obtain ⟨calls, notified, allNotified⟩ := started.phase names distinct .notify fun left ok =>
    (allStarted left ok).next rfl (by decide)
  simp only [runPhases_eq]
  exact ⟨calls, notified, allNotified⟩

end Provider

-----------------------------------------------------------------------------------------
-- The lifecycle
-----------------------------------------------------------------------------------------

/-- How providers come up in an order. At a call the modules before its own in the order have passed
the hook, the others wait for it, and a module outside the order is not known.
-/
structure Lifecycle (providers ordered : List (Provider σ S)) (order : List String)
    (calls : List (HookCall S)) (result : Except Error (Running σ S)) : Prop where
  arranged : ordered.Perm providers
  follows : Follows (Hook.schedule order) calls (result.map fun _ => ())
  shown : ∀ call ∈ calls, ∃ before after, order = before ++ call.module :: after
    ∧ (∀ module ∈ before, call.manager.Shows calls module call.hook.after)
    ∧ (∀ module ∈ call.module :: after, call.manager.Shows calls module call.hook.before)
    ∧ (∀ module ∉ order, call.manager.Shows calls module .unregistered)
    ∧ ∀ provider ∈ providers, provider.module = call.module →
        ∀ required ∈ provider.requires, required ∈ before
  finished : ∀ running, result = .ok running →
    running.providers = ordered ∧ running.manager.names = order
    ∧ ∀ module ∈ order, running.manager.Shows calls module .ready

/-- What a module requires stands before it in the order of modules. -/
theorem RequirementsFirst.required_mem {ordered : List (Provider σ S)}
    (first : RequirementsFirst Provider.toSpec [] ordered)
    (distinct : (ordered.map (·.module)).Nodup) {provider : Provider σ S}
    (member : provider ∈ ordered) {before after : List String}
    (split : ordered.map (·.module) = before ++ provider.module :: after) {required : String}
    (needed : required ∈ provider.requires)
    : required ∈ before := by
  obtain ⟨earlier, later, rfl⟩ := List.append_of_mem member
  rw [List.map_append, List.map_cons] at split distinct
  -- The name of the provider stands once in the order, which leaves one way to split it there.
  obtain ⟨notLater, notEarlier⟩ : provider.module ∉ later.map (·.module)
      ∧ provider.module ∉ earlier.map (·.module) := by
    have alone := (List.nodup_cons.mp (List.perm_middle.nodup_iff.mp distinct)).1
    rw [List.mem_append, not_or] at alone
    exact alone.symm
  obtain ⟨same, _⟩ := (List.append_cons_inj_of_notMem notEarlier notLater).mp split
  rcases first earlier provider later rfl required needed with old | found
  · exact absurd old List.not_mem_nil
  · exact same ▸ found

/-- Modules that are brought up in dependency order live through the phases. -/
theorem Provider.lifecycle_runPhases {providers ordered : List (Provider σ S)} (state : σ)
    (arranged : dependencyOrder Provider.toSpec providers = .ok ordered)
    : ∃ calls, runPhases (ordered.map noting) (state, [])
          = ((runPhases ordered state).1, (runPhases ordered state).2, calls)
        ∧ Lifecycle providers ordered (ordered.map (·.module)) calls
            ((runPhases ordered state).1.map (⟨·, ordered⟩)) := by
  obtain ⟨perm, distinct, first⟩ := dependencyOrder_eq_ok arranged
  obtain ⟨calls, ⟨same, follows, stages⟩, done⟩ :=
    runPhases_noting ordered rfl distinct state
  refine ⟨calls, same, perm, ?_, ?_, ?_⟩
  · cases outcome : (runPhases ordered state).1 <;> rw [outcome] at follows <;> exact follows
  · intro call member
    obtain ⟨before, after, split, stage⟩ := stages call member
    refine ⟨before, after, split, fun module passed => (stage.ofPassed module passed).shows,
      fun module waiting => (stage.ofWaiting module waiting).shows, fun module absent => ?_, ?_⟩
    · rw [split, List.mem_append, not_or] at absent
      exact (stage.ofOthers module absent.1 absent.2).shows
    · intro provider listed named required needed
      exact first.required_mem distinct (perm.mem_iff.mpr listed) (named ▸ split) needed
  · intro running ok
    obtain ⟨manager, ran, rfl⟩ := map_eq_ok.mp ok
    have stage := done manager ran
    refine ⟨rfl, ?_, fun module member => (stage.ofPassed module member).shows⟩
    rw [stage.names, if_neg (by decide), List.append_nil]

/-- The order depends on the specifications of the providers alone, so noting the calls keeps it. -/
theorem dependencyOrder_noting (providers : List (Provider σ S))
    : dependencyOrder Provider.toSpec (providers.map Provider.noting)
      = (dependencyOrder Provider.toSpec providers).map (List.map Provider.noting) :=
  dependencyOrder_map Provider.noting providers

/-- Providers are refused without a call of a hook, or they come up in dependency order. Noting the
calls changes neither the outcome nor what the hooks do to the state.
-/
theorem bootstrap_lifecycle (providers : List (Provider σ S)) (state : σ)
    : let run := bootstrap providers state
      let noted := bootstrap (providers.map Provider.noting) (state, [])
      let calls := noted.2.2
      noted.2.1 = run.2 ∧ noted.1.map (·.manager) = run.1.map (·.manager)
      ∧ match dependencyOrder Provider.toSpec providers with
        | .error error => error.IsRefusal ∧ run.1 = .error error ∧ calls = []
        | .ok ordered => Lifecycle providers ordered (ordered.map (·.module)) calls run.1 := by
  intro run noted calls
  cases arranged : dependencyOrder Provider.toSpec providers with
  | error error =>
      have refused : run = (.error error, state) := by
        simp only [run, bootstrap, arranged]
      have notedRefused : noted = (.error error, state, []) := by
        simp only [noted, bootstrap, dependencyOrder_noting, arranged, Except.map]
      rw [show calls = [] from congrArg (·.2.2) notedRefused, notedRefused, refused]
      exact ⟨rfl, rfl, isRefusal_of_dependencyOrder arranged, rfl, rfl⟩
  | ok ordered =>
      obtain ⟨made, same, life⟩ := Provider.lifecycle_runPhases state arranged
      have came : run = ((Provider.runPhases ordered state).1.map (⟨·, ordered⟩),
          (Provider.runPhases ordered state).2) := by
        simp only [run, bootstrap, arranged]
      have notedCame : noted = ((Provider.runPhases ordered state).1.map
          (⟨·, ordered.map Provider.noting⟩), (Provider.runPhases ordered state).2, made) := by
        simp only [noted, bootstrap, dependencyOrder_noting, arranged, Except.map, same]
      rw [show calls = made from congrArg (·.2.2) notedCame, notedCame, came]
      refine ⟨rfl, ?_, life⟩
      cases (Provider.runPhases ordered state).1 <;> rfl

end Telemetry.Module
