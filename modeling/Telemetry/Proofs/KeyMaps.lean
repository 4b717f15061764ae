import Telemetry.KeyMap

/-! Lookups in maps that are built from lists or transformed as a whole. The keys of a map are
listed once each, so lookups decide membership and count entries.
-/

namespace Telemetry.KeyMap

variable {α β : Type}

theorem value_unique {map : KeyMap α} {key : String} {first second : α}
    (hf : (key, first) ∈ map.entries) (hs : (key, second) ∈ map.entries)
    : first = second :=
  Option.some.inj ((get?_eq_some_iff.mpr hf).symm.trans (get?_eq_some_iff.mpr hs))

/-- The keys of a map are listed once each, because they ascend strictly. -/
theorem nodup_keys (map : KeyMap α) : (map.entries.map (·.1)).Nodup := by
  rw [List.nodup_iff_pairwise_ne]
  refine List.pairwise_map.mpr (map.sorted.imp ?_)
  intro left right lt same
  exact String.lt_irrefl _ (same ▸ lt)

theorem insert_insert (map : KeyMap α) (key : String) (first second : α)
    : (map.insert key first).insert key second = map.insert key second := by
  refine ext_get? fun other => ?_
  simp only [get?_insert]
  split <;> rfl

theorem insert_of_get? {map : KeyMap α} {key : String} {value : α}
    (h : map.get? key = some value)
    : map.insert key value = map := by
  refine ext_get? fun other => ?_
  rw [get?_insert]
  split
  next same => rw [same, h]
  next => rfl

/-- Transforming the values of a map transforms its lookups. -/
theorem get?_mapValues (map : KeyMap α) (f : String → α → β) (key : String)
    : (map.mapValues f).get? key = (map.get? key).map (f key) := by
  refine Option.ext fun value => ?_
  rw [get?_eq_some_iff, Option.map_eq_some_iff]
  constructor
  · intro member
    obtain ⟨entry, listed, eq⟩ := List.mem_map.mp member
    cases eq
    exact ⟨entry.2, get?_eq_some_iff.mpr listed, rfl⟩
  · rintro ⟨kept, bound, rfl⟩
    exact List.mem_map.mpr ⟨(key, kept), get?_eq_some_iff.mp bound, rfl⟩

theorem contains_keys (map : KeyMap α) (key : String)
    : map.keys.contains key = map.contains key := by
  rw [Bool.eq_iff_iff, List.contains_iff_mem, contains, Option.isSome_iff_exists]
  constructor
  · intro member
    obtain ⟨entry, listed, rfl⟩ := List.mem_map.mp member
    exact ⟨entry.2, get?_eq_some_iff.mpr listed⟩
  · rintro ⟨value, bound⟩
    exact List.mem_map.mpr ⟨_, get?_eq_some_iff.mp bound, rfl⟩

/-- Maps that bind the same keys list them alike. -/
theorem keys_eq_of_contains {left : KeyMap α} {right : KeyMap β}
    (h : ∀ key, left.contains key = right.contains key)
    : left.keys = right.keys := by
  have unvalued : left.mapValues (fun _ _ => ()) = right.mapValues fun _ _ => () := by
    refine ext_get? fun key => ?_
    have same := h key
    unfold contains at same
    rw [get?_mapValues, get?_mapValues]
    generalize left.get? key = one, right.get? key = two at same ⊢
    cases one <;> cases two <;> simp at same ⊢
  simpa [mapValues, keys, Function.comp_def] using
    congrArg (fun map : KeyMap Unit => map.entries.map (·.1)) unvalued

/-- Of the entries bound one after the other the last one of a key counts. -/
theorem get?_insertAll (map : KeyMap α) (entries : List (String × α)) (key : String)
    : (map.insertAll entries).get? key = (entries.reverse.lookup key).or (map.get? key) := by
  induction entries generalizing map with
  | nil => rfl
  | cons entry rest ih =>
      have step : map.insertAll (entry :: rest) = (map.insert entry.1 entry.2).insertAll rest := rfl
      rw [step, ih, get?_insert, List.reverse_cons, List.lookup_append, lookup_cons_eq_ite]
      cases rest.reverse.lookup key with
      | some value => rfl
      | none => by_cases same : key = entry.1 <;> simp [same]

theorem mem_of_lookup {entries : List (String × α)} {key : String} {value : α}
    (h : entries.lookup key = some value)
    : (key, value) ∈ entries := by
  obtain ⟨before, after, rfl, _⟩ := List.lookup_eq_some_iff.mp h
  exact List.mem_append_right before List.mem_cons_self

/-- In a list without repeated keys an entry is found by its key. -/
theorem lookup_of_mem {entries : List (String × α)} (h : (entries.map (·.1)).Nodup)
    {key : String} {value : α} (member : (key, value) ∈ entries)
    : entries.lookup key = some value := by
  induction entries with
  | nil => cases member
  | cons entry rest ih =>
      obtain ⟨name, first⟩ := entry
      obtain ⟨fresh, distinct⟩ := List.nodup_cons.mp h
      rw [lookup_cons_eq_ite]
      rcases List.mem_cons.mp member with same | later
      · cases same
        rw [if_pos rfl]
      · have ne : key ≠ name := fun eq => fresh (List.mem_map.mpr ⟨_, later, eq⟩)
        rw [if_neg ne, ih distinct later]

/-- In a list without repeated keys the direction of the search does not matter. -/
theorem lookup_reverse {entries : List (String × α)} (h : (entries.map (·.1)).Nodup)
    (key : String)
    : entries.reverse.lookup key = entries.lookup key := by
  induction entries with
  | nil => rfl
  | cons entry rest ih =>
      obtain ⟨name, value⟩ := entry
      obtain ⟨fresh, distinct⟩ := List.nodup_cons.mp h
      rw [List.reverse_cons, List.lookup_append, ih distinct, lookup_cons_eq_ite,
        lookup_cons_eq_ite]
      by_cases same : key = name
      · have absent : rest.lookup key = none := by
          refine List.lookup_eq_none_iff.mpr ?_
          intro other member
          have ne : name ≠ other.1 := fun eq =>
            fresh (List.mem_map.mpr ⟨other, member, eq.symm⟩)
          simpa [same] using ne
        simp [same, same ▸ absent]
      · cases rest.lookup key <;> simp [same]

/-- Binding all entries of another map lets that map answer first. -/
theorem get?_insertAll_entries (map other : KeyMap α) (key : String)
    : (map.insertAll other.entries).get? key = (other.get? key).or (map.get? key) := by
  rw [get?_insertAll, lookup_reverse other.nodup_keys]
  rfl

theorem get?_ofList {entries : List (String × α)} (h : (entries.map (·.1)).Nodup)
    (key : String)
    : (ofList entries).get? key = entries.lookup key := by
  rw [ofList, get?_insertAll, lookup_reverse h]
  simp

theorem ofList_entries (map : KeyMap α) : ofList map.entries = map :=
  ext_get? fun key => get?_ofList map.nodup_keys key

/-- If every entry yields something about its own key, the entries yield about one key what the
value of that key does.
-/
theorem filter_filterMap_entries (map : KeyMap α) (f : α → Option β) (about : β → Bool)
    (key : String)
    (h : ∀ name value, map.get? name = some value → ∀ made, f value = some made →
      about made = decide (name = key))
    : (map.entries.filterMap fun entry => f entry.2).filter about
      = ((map.get? key).bind f).toList := by
  have byEntry : ∀ entry ∈ map.entries, ∀ made, f entry.2 = some made →
      about made = decide (entry.1 = key) :=
    fun entry member => h entry.1 entry.2 (get?_eq_some_iff.mpr member)
  have distinct := map.nodup_keys
  rw [get?]
  generalize map.entries = entries at byEntry distinct
  induction entries with
  | nil => rfl
  | cons entry rest ih =>
      obtain ⟨name, value⟩ := entry
      obtain ⟨fresh, later⟩ := List.nodup_cons.mp distinct
      have tail := ih (fun other member => byEntry other (List.mem_cons_of_mem _ member)) later
      have head := byEntry (name, value) List.mem_cons_self
      rw [lookup_cons_eq_ite, List.filterMap_cons]
      by_cases same : key = name
      · subst same
        have absent : rest.lookup key = none := by
          refine List.lookup_eq_none_iff.mpr fun other member => ?_
          have ne : key ≠ other.1 := fun eq => fresh (List.mem_map.mpr ⟨other, member, eq.symm⟩)
          simpa using ne
        rw [absent] at tail
        cases made : f value with
        | none => simpa [made] using tail
        | some found => simpa [made, head found made] using tail
      · rw [if_neg same]
        cases made : f value with
        | none => exact tail
        | some found => simpa [head found made, Ne.symm same] using tail

/-- Restricting a transformed map restricts the map to what transforms into the kept values. -/
theorem filter_mapValues (map : KeyMap α) (f : String → α → β) (keep : String → β → Bool)
    : (map.mapValues f).filter keep
      = (map.filter fun key value => keep key (f key value)).mapValues f := by
  refine ext_get? fun key => ?_
  simp only [get?_filter, get?_mapValues]
  cases map.get? key with
  | none => rfl
  | some value => cases kept : keep key (f key value) <;> simp [Option.filter, kept]

theorem mapValues_insert (map : KeyMap α) (f : String → α → β) (key : String) (value : α)
    : (map.insert key value).mapValues f = (map.mapValues f).insert key (f key value) := by
  refine ext_get? fun other => ?_
  simp only [get?_mapValues, get?_insert]
  split
  next same => rw [same]; rfl
  next => rfl

theorem mapValues_insertAll (map other : KeyMap α) (f : String → α → β)
    : (map.insertAll other.entries).mapValues f
      = (map.mapValues f).insertAll (other.mapValues f).entries := by
  refine ext_get? fun key => ?_
  simp only [get?_mapValues, get?_insertAll_entries]
  cases other.get? key <;> rfl

/-- The entries that a test keeps and those that it drops are all there are. -/
theorem size_filter_add (map : KeyMap α) (keep : String → α → Bool)
    : (map.filter keep).size
      + (map.entries.filter fun entry => !keep entry.1 entry.2).length = map.size := by
  have split := List.length_eq_countP_add_countP (fun entry => keep entry.1 entry.2)
    (l := map.entries)
  simpa [size, filter, List.countP_eq_length_filter] using split.symm

theorem filter_congr {map : KeyMap α} {keep other : String → α → Bool}
    (h : ∀ key value, map.get? key = some value → keep key value = other key value)
    : map.filter keep = map.filter other := by
  refine ext_get? fun key => ?_
  rw [get?_filter, get?_filter]
  cases bound : map.get? key with
  | none => rfl
  | some value => simp [Option.filter, h key value bound]

theorem filter_eq_self {map : KeyMap α} {keep : String → α → Bool}
    (h : ∀ key value, map.get? key = some value → keep key value = true)
    : map.filter keep = map := by
  refine ext_get? fun key => ?_
  rw [get?_filter]
  cases bound : map.get? key with
  | none => rfl
  | some value => simp [Option.filter, h key value bound]

/-- A weaker test before a stronger one changes nothing. -/
theorem filter_filter_of_imp {map : KeyMap α} {keep weaker : String → α → Bool}
    (h : ∀ key value, keep key value = true → weaker key value = true)
    : (map.filter weaker).filter keep = map.filter keep := by
  refine ext_get? fun key => ?_
  rw [get?_filter, get?_filter, get?_filter, Option.filter_filter]
  congr 1
  funext value
  cases kept : keep key value with
  | false => exact Bool.and_false _
  | true => rw [h key value kept, Bool.and_self]

end Telemetry.KeyMap
