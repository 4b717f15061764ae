import Mathlib.Data.List.Chain
import Telemetry.Module.Lifecycle
import Telemetry.Proofs.Module.LeastOrders

/-! The path that modules are refused with if they require each other in a cycle. It is found by a
walk from what waits to what it waits for first. The walk may start outside of every cycle, but it
meets waiting modules alone, so it comes back to one that it has passed, and from there on its path
is a cycle.
-/

namespace Telemetry.Module

/-- A path along requirements that ends in the module in which it starts, and passes every module
once but for that.
-/
structure IsCycle (requires : String → String → Prop) (path : List String) : Prop where
  twice : 2 ≤ path.length
  closed : path.head? = path.getLast?
  distinct : path.dropLast.Nodup
  follows : path.IsChain requires

-----------------------------------------------------------------------------------------
-- The walk
-----------------------------------------------------------------------------------------

/-- A walk along the requirements of waiting modules, which has come to one of them. Every module
that is off its path is still unvisited.
-/
structure IsWalk (waiting unvisited : List Spec) (path : List String) (spec : Spec) : Prop where
  member : spec ∈ waiting
  ends : path.getLast? = some spec.module
  distinct : path.Nodup
  follows : path.IsChain (Requires id waiting)
  covers : ∀ other ∈ waiting, other.module ∈ path ∨ other ∈ unvisited
  included : unvisited ⊆ waiting

namespace IsWalk

variable {waiting unvisited : List Spec} {path : List String} {spec : Spec} {next : String}

theorem start (first : Spec) (rest : List Spec)
    : IsWalk (first :: rest) rest [first.module] first where
  member := List.mem_cons_self
  ends := rfl
  distinct := List.nodup_singleton _
  follows := List.isChain_singleton _
  covers other member := by
    rcases List.mem_cons.mp member with rfl | later
    · exact .inl List.mem_cons_self
    · exact .inr later
  included _ := List.mem_cons_of_mem first

/-- A requirement of the last module makes the path longer. -/
theorem follows_concat (h : IsWalk waiting unvisited path spec)
    (requires : Requires id waiting spec.module next)
    : (path ++ [next]).IsChain (Requires id waiting) := by
  refine h.follows.append (List.isChain_singleton _) ?_
  intro last atEnd first only
  cases h.ends.symm.trans atEnd
  cases only
  exact requires

/-- A step to a module off the path. -/
theorem step (h : IsWalk waiting unvisited path spec)
    (requires : Requires id waiting spec.module next) (fresh : next ∉ path) {found : Spec}
    (unseen : unvisited.find? (·.module = next) = some found)
    : IsWalk waiting (unvisited.eraseP (·.module = next)) (path ++ [next]) found where
  member := h.included (List.mem_of_find?_eq_some unseen)
  ends := by
    have named : found.module = next := by simpa using List.find?_some unseen
    rw [List.getLast?_concat, named]
  distinct := List.nodup_append.mpr ⟨h.distinct, List.nodup_singleton _, by
    intro name passed other only
    cases List.mem_singleton.mp only
    exact fun same => fresh (same ▸ passed)⟩
  follows := h.follows_concat requires
  covers other member := by
    by_cases here : other.module = next
    · exact .inl (by simp [here])
    · rcases h.covers other member with passed | left
      · exact .inl (List.mem_append_left _ passed)
      · exact .inr ((List.mem_eraseP_of_neg (by simpa using here)).mpr left)
  included _ member := h.included (List.mem_of_mem_eraseP member)

/-- A requirement on the path closes a cycle there. -/
theorem isCycle_drop (h : IsWalk waiting unvisited path spec)
    (requires : Requires id waiting spec.module next) {position : Nat}
    (passed : path.idxOf? next = some position)
    : IsCycle (Requires id waiting) (path.drop position ++ [next]) := by
  obtain ⟨within, here, _⟩ := List.idxOf?_eq_some_iff.mp passed
  have starts : (path.drop position).head? = some next := by
    rw [List.head?_drop, List.getElem?_eq_getElem within]
    exact congrArg some (by simpa using here)
  refine ⟨?_, ?_, ?_, ?_⟩
  · simp only [List.length_append, List.length_drop, List.length_singleton]
    omega
  · rw [List.getLast?_concat, List.head?_append, starts]
    rfl
  · rw [List.dropLast_concat]
    exact h.distinct.sublist (List.drop_sublist position path)
  · have longer := (h.follows_concat requires).drop position
    rwa [List.drop_append_of_le_length (Nat.le_of_lt within)] at longer

end IsWalk

/-- A walk among modules that are stuck ends in a cycle, by induction along its steps: it always
leads on, and what it leads to was passed or is still unvisited.
-/
theorem IsStuck.isCycle_closeCycle {placed : List String} {waiting unvisited : List Spec}
    {path : List String} {spec : Spec} (stuck : IsStuck placed waiting)
    (walk : IsWalk waiting unvisited path spec)
    : IsCycle (Requires id waiting) (closeCycle placed unvisited path spec) := by
  fun_induction closeCycle placed unvisited path spec with
  | case1 unvisited path spec none =>
      obtain ⟨next, leads, _, _⟩ := stuck.exists_pending walk.member
      cases none.symm.trans leads
  | case2 unvisited path spec next leads position passed =>
      obtain ⟨_, some, _, requires⟩ := stuck.exists_pending walk.member
      cases leads.symm.trans some
      exact walk.isCycle_drop requires passed
  | case3 unvisited path spec next leads fresh none =>
      obtain ⟨_, some, listed, _⟩ := stuck.exists_pending walk.member
      cases leads.symm.trans some
      obtain ⟨other, member, named⟩ := List.mem_map.mp listed
      have off : other.module ∉ path := named ▸ List.idxOf?_eq_none_iff.mp fresh
      have unseen := (walk.covers other member).resolve_left off
      exact absurd named (by simpa using List.find?_eq_none.mp none other unseen)
  | case4 unvisited path spec next leads fresh found unseen ih =>
      obtain ⟨_, some, _, requires⟩ := stuck.exists_pending walk.member
      cases leads.symm.trans some
      exact ih (walk.step requires (List.idxOf?_eq_none_iff.mp fresh) unseen)

/-- The path that is shown of modules that are stuck is a cycle of their requirements. -/
theorem IsStuck.isCycle_findCycle {placed : List String} {waiting : List Spec}
    (stuck : IsStuck placed waiting) (some : waiting ≠ [])
    : IsCycle (Requires id waiting) (findCycle placed waiting) := by
  cases waiting with
  | nil => exact absurd rfl some
  | cons first rest => exact stuck.isCycle_closeCycle (.start first rest)

-----------------------------------------------------------------------------------------
-- Providers that are refused for a cycle
-----------------------------------------------------------------------------------------

section

variable {P : Type} {spec : P → Spec} {providers : List P}

theorem IsCycle.mono {few many : List P} {path : List String} (included : few ⊆ many)
    (h : IsCycle (Requires spec few) path)
    : IsCycle (Requires spec many) path where
  twice := h.twice
  closed := h.closed
  distinct := h.distinct
  follows := h.follows.imp fun _ _ ⟨provider, member, requires⟩ =>
    ⟨provider, included member, requires⟩

/-- Providers that pass both checks and have a cycle are refused with one. -/
theorem exists_isCycle_of_hasCycle (distinct : NamesDistinct spec providers)
    (present : RequirementsPresent spec providers) (cyclic : HasCycle spec providers)
    : ∃ path, dependencyOrder spec providers = .error (.dependencyCycle path)
        ∧ IsCycle (Requires spec providers) path := by
  rw [dependencyOrder_of_present distinct present]
  rcases arrange_cases distinct present with ⟨_, path, refused⟩ | ⟨acyclic, _⟩
  · obtain ⟨reached, left, some, included, stuck, shown⟩ := exists_isStuck_of_arrange
      (fun provider member required needed => .inr (present provider member required needed))
      refused
    cases shown
    have cycle := stuck.isCycle_findCycle (by simpa using some)
    rw [requires_map] at cycle
    exact ⟨_, refused, cycle.mono included⟩
  · exact absurd cyclic acyclic

end

/-- Providers of different modules that require only each other, but in a cycle, are refused with a
path along their requirements that comes back to its first module after others that are all
different, or at once if a module requires itself. No hook is called before.
-/
theorem bootstrap_reports_cycle {σ S : Type} {providers : List (Provider σ S)} (state : σ)
    (distinct : NamesDistinct Provider.toSpec providers)
    (present : RequirementsPresent Provider.toSpec providers)
    (cyclic : HasCycle Provider.toSpec providers)
    : ∃ path, bootstrap providers state = (.error (.dependencyCycle path), state)
        ∧ IsCycle (Requires Provider.toSpec providers) path := by
  obtain ⟨path, refused, cycle⟩ := exists_isCycle_of_hasCycle distinct present cyclic
  refine ⟨path, ?_, cycle⟩
  simp only [bootstrap, refused]

/-- A provider whose hooks do nothing. -/
def idle (module : String) (requires : List String) : Provider Unit Unit where
  module := module
  provider := "idle"
  requires := requires
  prepare _ services state := (.ok services, state)
  start _ state := (.ok (), state)
  notify _ state := (.ok (), state)

/-- The walk starts at a module that only leads to the cycle, and passes it by. -/
theorem bootstrap_reports_cycle_off_start
    : let providers := [idle "a" ["d", "b"], idle "b" ["c"], idle "c" ["d", "b"], idle "d" []]
      NamesDistinct Provider.toSpec providers
      ∧ RequirementsPresent Provider.toSpec providers
      ∧ HasCycle Provider.toSpec providers
      ∧ bootstrap providers () = (.error (.dependencyCycle ["b", "c", "b"]), ())
      ∧ IsCycle (Requires Provider.toSpec providers) ["b", "c", "b"] := by
  intro providers
  have distinct : NamesDistinct Provider.toSpec providers := by
    unfold NamesDistinct
    decide
  have present : RequirementsPresent Provider.toSpec providers := by
    unfold RequirementsPresent
    decide
  have there : Requires Provider.toSpec providers "b" "c" :=
    ⟨idle "b" ["c"], by simp [providers], rfl, by simp [idle]⟩
  have back : Requires Provider.toSpec providers "c" "b" :=
    ⟨idle "c" ["d", "b"], by simp [providers], rfl, by simp [idle]⟩
  have cyclic : HasCycle Provider.toSpec providers := ⟨"b", .tail (.single there) back⟩
  obtain ⟨path, refused, cycle⟩ := bootstrap_reports_cycle () distinct present cyclic
  have shown : (match (bootstrap providers ()).1 with
      | .error (.dependencyCycle path) => path
      | _ => []) = ["b", "c", "b"] := by
    decide +kernel
  rw [refused] at shown
  dsimp only at shown
  subst shown
  exact ⟨distinct, present, cyclic, refused, cycle⟩

end Telemetry.Module
