import Telemetry.Module.DependencyOrder
import Telemetry.Proofs.Results

/-! What the order of modules promises. Providers are arranged without loss, each behind the modules
that it requires, and what cannot be arranged is refused with an error about the dependencies or the
configuration. The order depends on the specifications of the providers alone.
-/

namespace Telemetry

/-- The errors by which a list of providers is refused. -/
inductive Error.IsRefusal : Error → Prop where
  | configuration (cause : Conflict) : IsRefusal (.configurationConflict cause)
  | missing (module required : String) : IsRefusal (.missingDependency module required)
  | cycle (path : List String) : IsRefusal (.dependencyCycle path)

end Telemetry

namespace Telemetry.Module

variable {P Q : Type}

-----------------------------------------------------------------------------------------
-- Checks of the input
-----------------------------------------------------------------------------------------

/-- What passes the check names every module once, by induction over the specifications. -/
theorem nodup_of_checkDistinct {seen specs : List Spec} (h : checkDistinct seen specs = .ok ())
    : (specs.map (·.module)).Nodup
      ∧ ∀ spec ∈ specs, ∀ other ∈ seen, other.module ≠ spec.module := by
  induction specs generalizing seen with
  | nil => exact ⟨.nil, fun _ member => absurd member List.not_mem_nil⟩
  | cons spec rest ih =>
      rw [checkDistinct] at h
      cases found : seen.find? (·.module = spec.module) with
      | some first => rw [found] at h; cases h
      | none =>
          rw [found] at h
          obtain ⟨distinct, fresh⟩ := ih h
          have unseen : ∀ other ∈ seen, other.module ≠ spec.module := by
            simpa using List.find?_eq_none.mp found
          constructor
          · refine List.nodup_cons.mpr ⟨fun repeated => ?_, distinct⟩
            obtain ⟨later, member, same⟩ := List.mem_map.mp repeated
            exact fresh later member spec (by simp) same.symm
          · intro later member other old
            rcases List.mem_cons.mp member with rfl | member
            · exact unseen other old
            · exact fresh later member other (List.mem_append_left _ old)

theorem checkDistinct_eq_error {seen specs : List Spec} {error : Error}
    (h : checkDistinct seen specs = .error error)
    : ∃ cause, error = .configurationConflict cause := by
  induction specs generalizing seen with
  | nil => cases h
  | cons spec rest ih =>
      rw [checkDistinct] at h
      split at h
      · cases h
        exact ⟨_, rfl⟩
      · exact ih h

theorem checkRequirements_eq_error {specs : List Spec} {error : Error}
    (h : checkRequirements specs = .error error)
    : ∃ module required, error = .missingDependency module required := by
  obtain ⟨spec, _, h⟩ := exists_mem_of_forM h
  obtain ⟨required, _, h⟩ := exists_mem_of_forM h
  split at h
  · cases h
  · cases h
    exact ⟨_, _, rfl⟩

-----------------------------------------------------------------------------------------
-- Arranging
-----------------------------------------------------------------------------------------

/-- Every provider stands behind the modules that it requires, some of them being placed before. -/
def RequirementsFirst (spec : P → Spec) (placed : List String) (ordered : List P) : Prop :=
  ∀ before provider after, ordered = before ++ provider :: after →
    ∀ required ∈ (spec provider).requires,
      required ∈ placed ∨ required ∈ before.map fun earlier => (spec earlier).module

theorem RequirementsFirst.cons {spec : P → Spec} {placed : List String} {next : P} {later : List P}
    (ready : (spec next).isReady placed = true)
    (h : RequirementsFirst spec ((spec next).module :: placed) later)
    : RequirementsFirst spec placed (next :: later) := by
  intro before provider after split required needed
  cases before with
  | nil =>
      cases split
      have all := List.all_eq_true.mp ready required needed
      exact .inl (by simpa using all)
  | cons first before =>
      cases split
      rcases h before provider after rfl required needed with old | earlier
      · rcases List.mem_cons.mp old with rfl | old
        · exact .inr List.mem_cons_self
        · exact .inl old
      · exact .inr (List.mem_cons_of_mem _ earlier)

/-- What is found first can be taken out and put in front. -/
theorem perm_cons_eraseP {p : P → Bool} {items : List P} {first : P}
    (found : items.find? p = some first)
    : (first :: items.eraseP p).Perm items := by
  obtain ⟨holds, before, after, rfl, fails⟩ := List.find?_eq_some_iff_append.mp found
  have skipped : ∀ item ∈ before, ¬p item = true := by simpa using fails
  rw [List.eraseP_append_right _ skipped, List.eraseP_cons_of_pos holds]
  exact List.perm_middle.symm

/-- Arranging loses no provider and puts none before what it requires, by induction along the
choices of the next provider.
-/
theorem arrange_eq_ok {spec : P → Spec} {placed : List String} {remaining ordered : List P}
    (h : arrange spec placed remaining = .ok ordered)
    : ordered.Perm remaining ∧ RequirementsFirst spec placed ordered := by
  fun_induction arrange spec placed remaining generalizing ordered with
  | case1 placed remaining next found ih =>
      obtain ⟨later, arranged, h⟩ := bind_eq_ok.mp h
      cases h
      obtain ⟨perm, first⟩ := ih arranged
      have ready := List.find?_some found
      exact ⟨(perm.cons next).trans (perm_cons_eraseP found), first.cons ready⟩
  | case2 placed remaining none empty =>
      cases h
      rw [List.isEmpty_iff.mp empty]
      refine ⟨.nil, fun before provider after split => ?_⟩
      exact absurd split (by simp)
  | case3 => cases h

theorem isRefusal_of_arrange {spec : P → Spec} {placed : List String} {remaining : List P}
    {error : Error} (h : arrange spec placed remaining = .error error)
    : error.IsRefusal := by
  fun_induction arrange spec placed remaining with
  | case1 placed remaining next found ih =>
      rcases bind_eq_error.mp h with stuck | ⟨later, _, made⟩
      · exact ih stuck
      · cases made
  | case2 => cases h
  | case3 => cases h; exact .cycle _

theorem arrange_of_ready {spec : P → Spec} {placed : List String} {remaining : List P} {next : P}
    (found : remaining.find? (fun provider => (spec provider).isReady placed) = some next)
    : arrange spec placed remaining
      = (arrange spec ((spec next).module :: placed)
          (remaining.eraseP fun provider => (spec provider).isReady placed)).map (next :: ·) := by
  rw [arrange]
  split
  next other same => cases found.symm.trans same; rfl
  next none => rw [found] at none; cases none

theorem arrange_of_stuck {spec : P → Spec} {placed : List String} {remaining : List P}
    (none : remaining.find? (fun provider => (spec provider).isReady placed) = none)
    : arrange spec placed remaining
      = if remaining.isEmpty then .ok []
        else .error (.dependencyCycle (findCycle placed (remaining.map spec))) := by
  rw [arrange]
  split
  next other some => rw [none] at some; cases some
  next => rfl

/-- The arrangement depends on the specifications of the providers alone, by induction along the
choices of the next provider.
-/
theorem arrange_map (spec : Q → Spec) (f : P → Q) (placed : List String) (remaining : List P)
    : arrange spec placed (remaining.map f)
      = (arrange (fun provider => spec (f provider)) placed remaining).map (List.map f) := by
  have search (placed : List String) (remaining : List P)
      : (remaining.map f).find? (fun provider => (spec provider).isReady placed)
        = (remaining.find? fun provider => (spec (f provider)).isReady placed).map f :=
    List.find?_map
  fun_induction arrange (fun provider => spec (f provider)) placed remaining with
  | case1 placed remaining next found ih =>
      have here := search placed remaining
      rw [found] at here
      rw [arrange_of_ready here, List.eraseP_map]
      refine (congrArg (Except.map (f next :: ·)) ih).trans ?_
      cases arrange (fun provider => spec (f provider)) ((spec (f next)).module :: placed)
          (remaining.eraseP fun provider => (spec (f provider)).isReady placed) <;> rfl
  | case2 placed remaining none empty =>
      have here := search placed remaining
      rw [none] at here
      rw [arrange_of_stuck here, List.isEmpty_map, if_pos empty]
      rfl
  | case3 placed remaining none some =>
      have here := search placed remaining
      rw [none] at here
      rw [arrange_of_stuck here, List.isEmpty_map, if_neg some, List.map_map]
      rfl

-----------------------------------------------------------------------------------------
-- The order of a list of providers
-----------------------------------------------------------------------------------------

theorem dependencyOrder_eq_ok {spec : P → Spec} {providers ordered : List P}
    (h : dependencyOrder spec providers = .ok ordered)
    : ordered.Perm providers ∧ (ordered.map fun provider => (spec provider).module).Nodup
      ∧ RequirementsFirst spec [] ordered := by
  obtain ⟨_, distinct, h⟩ := bind_eq_ok.mp h
  obtain ⟨_, _, h⟩ := bind_eq_ok.mp h
  obtain ⟨perm, first⟩ := arrange_eq_ok h
  have names := (nodup_of_checkDistinct distinct).1
  rw [List.map_map] at names
  exact ⟨perm, (perm.map _).nodup_iff.mpr names, first⟩

theorem isRefusal_of_dependencyOrder {spec : P → Spec} {providers : List P} {error : Error}
    (h : dependencyOrder spec providers = .error error)
    : error.IsRefusal := by
  rcases bind_eq_error.mp h with repeated | ⟨_, _, h⟩
  · obtain ⟨cause, rfl⟩ := checkDistinct_eq_error repeated
    exact .configuration cause
  · rcases bind_eq_error.mp h with missing | ⟨_, _, stuck⟩
    · obtain ⟨module, required, rfl⟩ := checkRequirements_eq_error missing
      exact .missing module required
    · exact isRefusal_of_arrange stuck

theorem dependencyOrder_map {spec : Q → Spec} (f : P → Q) (providers : List P)
    : dependencyOrder spec (providers.map f)
      = (dependencyOrder (fun provider => spec (f provider)) providers).map (List.map f) := by
  unfold dependencyOrder
  rw [List.map_map, arrange_map, Function.comp_def]
  cases checkDistinct [] (providers.map fun provider => spec (f provider)) with
  | error error => rfl
  | ok _ =>
      cases checkRequirements (providers.map fun provider => spec (f provider)) with
      | error error => rfl
      | ok _ => rfl

end Telemetry.Module
