import Mathlib.Data.Fintype.EquivFin
import Mathlib.Data.Fintype.Sets
import Mathlib.Data.List.Nodup
import Mathlib.Logic.Relation
import Mathlib.Order.WellFounded
import Telemetry.Proofs.Module.DependencyOrders

/-! Which lists of providers are refused, and which of the orders that put requirements first the
others get. Placing providers one after the other comes to a stop only if modules require each other
in a cycle. As the first provider that is ready comes next every time, no other order with
requirements first is before the one that is found.
-/

namespace Telemetry.Module

variable {P : Type}

-----------------------------------------------------------------------------------------
-- Checks of the input
-----------------------------------------------------------------------------------------

/-- The check passes whatever names every module once, by induction over the specifications. -/
theorem checkDistinct_eq_ok {seen specs : List Spec} (distinct : (specs.map (·.module)).Nodup)
    (fresh : ∀ spec ∈ specs, ∀ other ∈ seen, other.module ≠ spec.module)
    : checkDistinct seen specs = .ok () := by
  induction specs generalizing seen with
  | nil => rfl
  | cons spec rest ih =>
      obtain ⟨alone, later⟩ := List.nodup_cons.mp distinct
      have unseen : seen.find? (·.module = spec.module) = none := by
        simpa using fresh spec List.mem_cons_self
      rw [checkDistinct, unseen]
      refine ih later fun next member other old => ?_
      rcases List.mem_append.mp old with old | here
      · exact fresh next (List.mem_cons_of_mem _ member) other old
      · obtain rfl := List.mem_singleton.mp here
        exact fun same => alone (List.mem_map.mpr ⟨next, member, same.symm⟩)

/-- The check passes exactly the specifications whose requirements have providers. -/
theorem checkRequirements_eq_ok {specs : List Spec}
    : checkRequirements specs = .ok ()
      ↔ ∀ spec ∈ specs, ∀ required ∈ spec.requires, required ∈ specs.map (·.module) := by
  unfold checkRequirements
  rw [forM_eq_ok]
  refine forall₂_congr fun spec _ => ?_
  rw [forM_eq_ok]
  refine forall₂_congr fun required _ => ?_
  rw [List.mem_map]
  split
  next present => simpa using present
  next missing => simpa using missing

-----------------------------------------------------------------------------------------
-- Cycles
-----------------------------------------------------------------------------------------

/-- A provider of a list makes one module require another. -/
def Requires (spec : P → Spec) (providers : List P) (first second : String) : Prop :=
  ∃ provider ∈ providers, (spec provider).module = first ∧ second ∈ (spec provider).requires

/-- Some module requires itself, directly or through others. -/
def HasCycle (spec : P → Spec) (providers : List P) : Prop :=
  ∃ module, Relation.TransGen (Requires spec providers) module module

theorem HasCycle.mono {spec : P → Spec} {few many : List P} (included : few ⊆ many)
    (h : HasCycle spec few)
    : HasCycle spec many := by
  obtain ⟨module, path⟩ := h
  refine ⟨module, Relation.TransGen.mono (r := Requires spec few) ?_ module module path⟩
  rintro first second ⟨provider, member, requires⟩
  exact ⟨provider, included member, requires⟩

/-- From every one of finitely many names a relation leads on to another of them, so it runs in a
cycle somewhere.
-/
theorem exists_cycle {R : String → String → Prop} {names : List String} (some : names ≠ [])
    (onward : ∀ name ∈ names, ∃ next ∈ names, R name next)
    : ∃ name, Relation.TransGen R name name := by
  by_contra acyclic
  let after (later earlier : { name // name ∈ names }) : Prop :=
    Relation.TransGen R earlier.val later.val
  have : Finite { name // name ∈ names } := @Finite.of_fintype _ (List.Subtype.fintype names)
  have : IsTrans _ after := ⟨fun _ _ _ later earlier => earlier.trans later⟩
  have : Std.Irrefl after := ⟨fun name loop => acyclic ⟨name.val, loop⟩⟩
  have wellFounded : WellFounded after := Finite.wellFounded_of_trans_of_irrefl after
  obtain ⟨start, member⟩ := List.exists_mem_of_ne_nil names some
  obtain ⟨last, _, stop⟩ := wellFounded.has_min Set.univ ⟨⟨start, member⟩, Set.mem_univ _⟩
  obtain ⟨next, listed, leads⟩ := onward last.val last.property
  exact stop ⟨next, listed⟩ (Set.mem_univ _) (.single leads)

/-- In an order with requirements first a module stands behind every module that it requires. -/
theorem RequirementsFirst.idxOf_lt {spec : P → Spec} {ordered : List P}
    (first : RequirementsFirst spec [] ordered)
    (distinct : (ordered.map fun provider => (spec provider).module).Nodup)
    {module required : String} (h : Requires spec ordered module required)
    : (ordered.map fun provider => (spec provider).module).idxOf required
      < (ordered.map fun provider => (spec provider).module).idxOf module := by
  obtain ⟨provider, member, rfl, needed⟩ := h
  obtain ⟨before, after, rfl⟩ := List.append_of_mem member
  rw [List.map_append, List.map_cons] at distinct ⊢
  have earlier := (first before provider after rfl required needed).resolve_left List.not_mem_nil
  have alone := (List.nodup_middle.mp distinct)
  have fresh : (spec provider).module ∉ before.map fun other => (spec other).module :=
    fun repeated => (List.nodup_cons.mp alone).1 (List.mem_append_left _ repeated)
  rw [List.idxOf_append_of_mem earlier, List.idxOf_append_of_notMem fresh, List.idxOf_cons_self,
    Nat.add_zero]
  exact List.idxOf_lt_length_of_mem earlier

/-- What can be put in an order with requirements first has no cycle. -/
theorem RequirementsFirst.not_hasCycle {spec : P → Spec} {ordered : List P}
    (first : RequirementsFirst spec [] ordered)
    (distinct : (ordered.map fun provider => (spec provider).module).Nodup)
    : ¬HasCycle spec ordered := by
  rintro ⟨module, path⟩
  have behind {earlier later : String}
      (path : Relation.TransGen (Requires spec ordered) later earlier)
      : (ordered.map fun provider => (spec provider).module).idxOf earlier
        < (ordered.map fun provider => (spec provider).module).idxOf later := by
    induction path with
    | single requires => exact first.idxOf_lt distinct requires
    | tail _ requires ih => exact Nat.lt_trans (first.idxOf_lt distinct requires) ih
  exact Nat.lt_irrefl _ (behind path)

/-- Modules of which none is ready, although each requires only what is placed or among them. -/
structure IsStuck (placed : List String) (waiting : List Spec) : Prop where
  waits : ∀ spec ∈ waiting, spec.isReady placed = false
  present : ∀ spec ∈ waiting, ∀ required ∈ spec.requires,
    required ∈ placed ∨ required ∈ waiting.map (·.module)

/-- What modules that are stuck wait for first is one of them. -/
theorem IsStuck.exists_pending {placed : List String} {waiting : List Spec}
    (stuck : IsStuck placed waiting) {spec : Spec} (member : spec ∈ waiting)
    : ∃ next, spec.pending? placed = some next ∧ next ∈ waiting.map (·.module)
        ∧ Requires id waiting spec.module next := by
  cases pending : spec.pending? placed with
  | none =>
      have met := List.find?_eq_none.mp pending
      have ready : spec.isReady placed = true :=
        List.all_eq_true.mpr fun required needed => by simpa using met required needed
      exact absurd ready (by simp [stuck.waits spec member])
  | some next =>
      have needed := List.mem_of_find?_eq_some pending
      have missing : next ∉ placed := by simpa using List.find?_some pending
      exact ⟨next, rfl, (stuck.present spec member next needed).resolve_left missing,
        spec, member, rfl, needed⟩

/-- The requirements of providers are those of their specifications. -/
theorem requires_map (spec : P → Spec) (providers : List P)
    : Requires id (providers.map spec) = Requires spec providers := by
  funext first second
  simp [Requires]

/-- Arranging comes to a stop at providers that are stuck, by induction along the choices of the
next provider, if all requirements are placed or among the providers.
-/
theorem exists_isStuck_of_arrange {spec : P → Spec} {placed : List String} {remaining : List P}
    {error : Error}
    (present : ∀ provider ∈ remaining, ∀ required ∈ (spec provider).requires,
      required ∈ placed ∨ required ∈ remaining.map fun other => (spec other).module)
    (h : arrange spec placed remaining = .error error)
    : ∃ reached left, left ≠ [] ∧ left ⊆ remaining ∧ IsStuck reached (left.map spec)
        ∧ error = .dependencyCycle (findCycle reached (left.map spec)) := by
  fun_induction arrange spec placed remaining with
  | case1 placed remaining next found ih =>
      have perm := perm_cons_eraseP found
      rcases bind_eq_error.mp h with stopped | ⟨later, _, made⟩
      · have presentLater : ∀ provider ∈ remaining.eraseP (fun one => (spec one).isReady placed),
            ∀ required ∈ (spec provider).requires,
              required ∈ (spec next).module :: placed
                ∨ required ∈ (remaining.eraseP fun one => (spec one).isReady placed).map
                  fun other => (spec other).module := by
          intro provider member required needed
          rcases present provider (List.mem_of_mem_eraseP member) required needed with old | listed
          · exact .inl (List.mem_cons_of_mem _ old)
          · rw [← (perm.map _).mem_iff, List.map_cons, List.mem_cons] at listed
            rcases listed with rfl | left
            · exact .inl List.mem_cons_self
            · exact .inr left
        obtain ⟨reached, left, some, included, stuck, shown⟩ := ih presentLater stopped
        exact ⟨reached, left, some, fun _ member => List.mem_of_mem_eraseP (included member), stuck,
          shown⟩
      · cases made
  | case2 => cases h
  | case3 placed remaining none some =>
      cases h
      refine ⟨placed, remaining, by simpa using some, fun _ member => member, ⟨?_, ?_⟩, rfl⟩
      · intro waiting listed
        obtain ⟨provider, member, rfl⟩ := List.mem_map.mp listed
        simpa using List.find?_eq_none.mp none provider member
      · intro waiting listed required needed
        obtain ⟨provider, member, rfl⟩ := List.mem_map.mp listed
        rw [List.map_map]
        exact present provider member required needed

/-- Providers whose requirements are placed or among them are arranged unless they have a cycle. -/
theorem arrange_eq_error {spec : P → Spec} {placed : List String} {remaining : List P}
    {error : Error}
    (present : ∀ provider ∈ remaining, ∀ required ∈ (spec provider).requires,
      required ∈ placed ∨ required ∈ remaining.map fun other => (spec other).module)
    (h : arrange spec placed remaining = .error error)
    : (∃ path, error = .dependencyCycle path) ∧ HasCycle spec remaining := by
  obtain ⟨reached, left, some, included, stuck, shown⟩ := exists_isStuck_of_arrange present h
  have onward : ∀ name ∈ (left.map spec).map (·.module),
      ∃ next ∈ (left.map spec).map (·.module), Requires spec left name next := by
    intro name listed
    obtain ⟨waiting, member, rfl⟩ := List.mem_map.mp listed
    obtain ⟨next, _, waits, requires⟩ := stuck.exists_pending member
    exact ⟨next, waits, requires_map spec left ▸ requires⟩
  have cycle : HasCycle spec left := exists_cycle (by simpa using some) onward
  exact ⟨⟨_, shown⟩, cycle.mono included⟩

-----------------------------------------------------------------------------------------
-- The least order
-----------------------------------------------------------------------------------------

/-- The head of an order with requirements first is ready, and the tail follows it. -/
theorem RequirementsFirst.of_cons {spec : P → Spec} {placed : List String} {next : P}
    {later : List P} (h : RequirementsFirst spec placed (next :: later))
    : (spec next).isReady placed = true
      ∧ RequirementsFirst spec ((spec next).module :: placed) later := by
  constructor
  · refine List.all_eq_true.mpr fun required needed => ?_
    simpa using h [] next later rfl required needed
  · intro before provider after split required needed
    have earlier := h (next :: before) provider after (congrArg (next :: ·) split) required needed
    simp only [List.map_cons, List.mem_cons] at earlier ⊢
    tauto

/-- Providers that already stand behind their requirements stay in place. -/
theorem RequirementsFirst.arrange_eq {spec : P → Spec} {placed : List String} {remaining : List P}
    (first : RequirementsFirst spec placed remaining)
    : arrange spec placed remaining = .ok remaining := by
  induction remaining generalizing placed with
  | nil => rw [arrange_of_stuck rfl]; rfl
  | cons next later ih =>
      obtain ⟨ready, first⟩ := first.of_cons
      have found : (next :: later).find? (fun provider => (spec provider).isReady placed)
          = some next :=
        List.find?_cons_of_pos ready
      have left : (next :: later).eraseP (fun provider => (spec provider).isReady placed)
          = later :=
        List.eraseP_cons_of_pos ready
      rw [arrange_of_ready found, left, ih first]
      rfl

/-- The first provider that is ready stands before all others that are. -/
theorem position_lt_of_find? {p : P → Bool} {position : P → Nat} {items : List P} {first other : P}
    (sorted : items.Pairwise fun earlier later => position earlier < position later)
    (found : items.find? p = some first) (member : other ∈ items) (holds : p other = true)
    : other = first ∨ position first < position other := by
  obtain ⟨_, before, after, rfl, fails⟩ := List.find?_eq_some_iff_append.mp found
  rcases List.mem_append.mp member with skipped | later
  · have fails := fails other skipped
    rw [holds] at fails
    cases fails
  · rcases List.mem_cons.mp later with same | later
    · exact .inl same
    · have tail := (List.pairwise_append.mp sorted).2.1
      exact .inr (List.rel_of_pairwise_cons tail later)

/-- Every other order with requirements first comes after the arrangement, by induction along the
choices of the next provider: it starts with a provider that is ready, hence not with an earlier
one.
-/
theorem eq_or_lex_of_arrange {spec : P → Spec} {placed : List String}
    {remaining ordered other : List P} {position : P → Nat}
    (sorted : remaining.Pairwise fun earlier later => position earlier < position later)
    (h : arrange spec placed remaining = .ok ordered) (perm : other.Perm remaining)
    (first : RequirementsFirst spec placed other)
    : other = ordered ∨ List.Lex (· < ·) (ordered.map position) (other.map position) := by
  fun_induction arrange spec placed remaining generalizing ordered other with
  | case1 placed remaining next found ih =>
      obtain ⟨later, arranged, made⟩ := bind_eq_ok.mp h
      cases made
      cases other with
      | nil =>
          have member := List.mem_of_find?_eq_some found
          exact absurd (perm.mem_iff.mpr member) List.not_mem_nil
      | cons head tail =>
          obtain ⟨ready, first⟩ := first.of_cons
          have member := perm.mem_iff.mp List.mem_cons_self
          rcases position_lt_of_find? sorted found member ready with rfl | before
          · have rest := (perm.trans (perm_cons_eraseP found).symm).cons_inv
            rcases ih (sorted.sublist List.eraseP_sublist) arranged rest first with rfl | after
            · exact .inl rfl
            · exact .inr (.cons after)
          · exact .inr (.rel before)
  | case2 placed remaining none empty =>
      cases h
      rw [List.isEmpty_iff.mp empty] at perm
      exact .inl perm.eq_nil
  | case3 => cases h

/-- The position of a provider in the input, which is that of its module. -/
def position (spec : P → Spec) (providers : List P) (provider : P) : Nat :=
  (providers.map fun other => (spec other).module).idxOf (spec provider).module

theorem pairwise_position {spec : P → Spec} {providers : List P}
    (distinct : (providers.map fun provider => (spec provider).module).Nodup)
    : providers.Pairwise fun earlier later =>
        position spec providers earlier < position spec providers later := by
  refine List.pairwise_iff_getElem.mpr fun first second hf hs lt => ?_
  have position_eq {index : Nat} (h : index < providers.length)
      : position spec providers providers[index] = index := by
    have found := distinct.idxOf_getElem index (by simpa using h)
    rwa [List.getElem_map] at found
  rw [position_eq hf, position_eq hs]
  exact lt

-----------------------------------------------------------------------------------------
-- The order of a list of providers
-----------------------------------------------------------------------------------------

def NamesDistinct (spec : P → Spec) (providers : List P) : Prop :=
  (providers.map fun provider => (spec provider).module).Nodup

def RequirementsPresent (spec : P → Spec) (providers : List P) : Prop :=
  ∀ provider ∈ providers, ∀ required ∈ (spec provider).requires,
    required ∈ providers.map fun other => (spec other).module

section

variable {spec : P → Spec} {providers : List P}

theorem RequirementsFirst.present (first : RequirementsFirst spec [] providers)
    : RequirementsPresent spec providers := by
  intro provider member required needed
  obtain ⟨before, after, rfl⟩ := List.append_of_mem member
  have earlier := (first before provider after rfl required needed).resolve_left List.not_mem_nil
  rw [List.map_append]
  exact List.mem_append_left _ earlier

/-- A module with two providers is a conflict. -/
theorem dependencyOrder_of_not_distinct (repeated : ¬NamesDistinct spec providers)
    : ∃ cause, dependencyOrder spec providers = .error (.configurationConflict cause) := by
  cases checked : checkDistinct [] (providers.map spec) with
  | ok _ =>
      have names := (nodup_of_checkDistinct checked).1
      rw [List.map_map] at names
      exact absurd names repeated
  | error error =>
      obtain ⟨cause, rfl⟩ := checkDistinct_eq_error checked
      refine ⟨cause, ?_⟩
      unfold dependencyOrder
      rw [checked]
      rfl

/-- Providers of different modules are checked for their requirements and then arranged. -/
theorem dependencyOrder_of_distinct (distinct : NamesDistinct spec providers)
    : dependencyOrder spec providers
      = checkRequirements (providers.map spec) >>= fun _ => arrange spec [] providers := by
  have names : checkDistinct [] (providers.map spec) = .ok () := by
    refine checkDistinct_eq_ok ?_ fun _ _ _ old => absurd old List.not_mem_nil
    rwa [List.map_map]
  unfold dependencyOrder
  rw [names]
  rfl

/-- A required module without a provider is missing. -/
theorem dependencyOrder_of_not_present (distinct : NamesDistinct spec providers)
    (absent : ¬RequirementsPresent spec providers)
    : ∃ module required,
        dependencyOrder spec providers = .error (.missingDependency module required) := by
  rw [dependencyOrder_of_distinct distinct]
  cases checked : checkRequirements (providers.map spec) with
  | ok _ =>
      have present := checkRequirements_eq_ok.mp checked
      exact absurd (by simpa [RequirementsPresent] using present) absent
  | error error =>
      obtain ⟨module, required, rfl⟩ := checkRequirements_eq_error checked
      exact ⟨module, required, rfl⟩

/-- Providers that pass both checks are arranged. -/
theorem dependencyOrder_of_present (distinct : NamesDistinct spec providers)
    (present : RequirementsPresent spec providers)
    : dependencyOrder spec providers = arrange spec [] providers := by
  have requirements : checkRequirements (providers.map spec) = .ok () :=
    checkRequirements_eq_ok.mpr (by simpa [RequirementsPresent] using present)
  rw [dependencyOrder_of_distinct distinct, requirements]
  rfl

/-- Providers that pass both checks are arranged exactly if their requirements have no cycle. -/
theorem arrange_cases (distinct : NamesDistinct spec providers)
    (present : RequirementsPresent spec providers)
    : (HasCycle spec providers
        ∧ ∃ path, arrange spec [] providers = .error (.dependencyCycle path))
      ∨ ¬HasCycle spec providers ∧ ∃ ordered, arrange spec [] providers = .ok ordered := by
  cases arranged : arrange spec [] providers with
  | error error =>
      obtain ⟨⟨path, rfl⟩, cycle⟩ := arrange_eq_error
        (fun provider member required needed => .inr (present provider member required needed))
        arranged
      exact .inl ⟨cycle, path, rfl⟩
  | ok ordered =>
      obtain ⟨perm, first⟩ := arrange_eq_ok arranged
      have names := (perm.map fun provider => (spec provider).module).nodup_iff.mpr distinct
      refine .inr ⟨fun cycle => ?_, ordered, rfl⟩
      exact first.not_hasCycle names (cycle.mono perm.symm.subset)

/-- A list of providers is refused for the first reason that applies, or arranged. -/
theorem dependencyOrder_cases (spec : P → Spec) (providers : List P)
    : (¬NamesDistinct spec providers
        ∧ ∃ cause, dependencyOrder spec providers = .error (.configurationConflict cause))
      ∨ (NamesDistinct spec providers ∧ ¬RequirementsPresent spec providers
        ∧ ∃ module required,
          dependencyOrder spec providers = .error (.missingDependency module required))
      ∨ (NamesDistinct spec providers ∧ RequirementsPresent spec providers
        ∧ HasCycle spec providers
        ∧ ∃ path, dependencyOrder spec providers = .error (.dependencyCycle path))
      ∨ (NamesDistinct spec providers ∧ RequirementsPresent spec providers
        ∧ ¬HasCycle spec providers ∧ ∃ ordered, dependencyOrder spec providers = .ok ordered) := by
  by_cases distinct : NamesDistinct spec providers
  · by_cases present : RequirementsPresent spec providers
    · rw [dependencyOrder_of_present distinct present]
      rcases arrange_cases distinct present with stuck | arranged
      · exact .inr (.inr (.inl ⟨distinct, present, stuck⟩))
      · exact .inr (.inr (.inr ⟨distinct, present, arranged⟩))
    · exact .inr (.inl ⟨distinct, present, dependencyOrder_of_not_present distinct present⟩)
  · exact .inl ⟨distinct, dependencyOrder_of_not_distinct distinct⟩

end

/-- Providers are refused for a conflict exactly if two of them name the same module, and else for a
missing dependency exactly if a required module has no provider, and else for a cycle exactly if the
requirements have one. All others come in an order with requirements first, and every other such
order comes later by the positions in the input. Providers that already stand behind their
requirements keep their places.
-/
theorem dependencyOrder_is_least (spec : P → Spec) (providers : List P)
    : let result := dependencyOrder spec providers
      ((∃ cause, result = .error (.configurationConflict cause)) ↔ ¬NamesDistinct spec providers)
      ∧ (NamesDistinct spec providers →
          ((∃ module required, result = .error (.missingDependency module required))
            ↔ ¬RequirementsPresent spec providers))
      ∧ (NamesDistinct spec providers → RequirementsPresent spec providers →
          ((∃ path, result = .error (.dependencyCycle path)) ↔ HasCycle spec providers))
      ∧ (NamesDistinct spec providers → RequirementsPresent spec providers →
          ¬HasCycle spec providers →
          ∃ ordered, result = .ok ordered ∧ ordered.Perm providers
            ∧ RequirementsFirst spec [] ordered
            ∧ ∀ other, other.Perm providers → RequirementsFirst spec [] other →
                other = ordered
                ∨ List.Lex (· < ·) (ordered.map (position spec providers))
                    (other.map (position spec providers)))
      ∧ (NamesDistinct spec providers → RequirementsFirst spec [] providers →
          result = .ok providers) := by
  have cases := dependencyOrder_cases spec providers
  refine ⟨?_, ?_, ?_, fun distinct present acyclic => ?_, fun distinct first => ?_⟩
  · rcases cases with ⟨repeated, cause, refused⟩ | ⟨distinct, _, _, _, other⟩
      | ⟨distinct, _, _, _, other⟩ | ⟨distinct, _, _, _, other⟩
    · exact ⟨fun _ => repeated, fun _ => ⟨cause, refused⟩⟩
    all_goals simp [other, distinct]
  · intro distinct
    rcases cases with ⟨repeated, _⟩ | ⟨_, absent, module, required, refused⟩
      | ⟨_, present, _, _, other⟩ | ⟨_, present, _, _, other⟩
    · exact absurd distinct repeated
    · exact ⟨fun _ => absent, fun _ => ⟨module, required, refused⟩⟩
    all_goals simp [other, present]
  · intro distinct present
    rcases arrange_cases distinct present with ⟨cycle, path, stuck⟩ | ⟨acyclic, ordered, arranged⟩
    · have refused := (dependencyOrder_of_present distinct present).trans stuck
      exact ⟨fun _ => cycle, fun _ => ⟨path, refused⟩⟩
    · simp [dependencyOrder_of_present distinct present, arranged, acyclic]
  · obtain ⟨ordered, arranged⟩ :=
      ((arrange_cases distinct present).resolve_left fun stuck => acyclic stuck.1).2
    obtain ⟨perm, first⟩ := arrange_eq_ok arranged
    refine ⟨ordered, (dependencyOrder_of_present distinct present).trans arranged, perm, first, ?_⟩
    exact fun other permOther firstOther =>
      eq_or_lex_of_arrange (pairwise_position distinct) arranged permOther firstOther
  · exact (dependencyOrder_of_present distinct first.present).trans first.arrange_eq

end Telemetry.Module
