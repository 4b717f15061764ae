/-!
Finite maps from text keys, kept in ascending key order. Lookups decide equality
(`KeyMap.ext_get?`), so two maps with the same contents are the same value.
-/

namespace Telemetry

/-- A finite map from text keys to values, listed in strictly ascending key order. -/
structure KeyMap (α : Type) where
  entries : List (String × α)
  sorted : entries.Pairwise (fun left right => left.1 < right.1) := by simp
  deriving DecidableEq

namespace KeyMap

variable {α β : Type}

def empty : KeyMap α := ⟨[], .nil⟩

instance : EmptyCollection (KeyMap α) := ⟨empty⟩

instance : Inhabited (KeyMap α) := ⟨empty⟩

/-- The value stored under a key. -/
def get? (map : KeyMap α) (key : String) : Option α :=
  map.entries.lookup key

/-- Whether a key is present. -/
def contains (map : KeyMap α) (key : String) : Bool :=
  (map.get? key).isSome

/-- The keys in ascending order. -/
def keys (map : KeyMap α) : List String :=
  map.entries.map (·.1)

def size (map : KeyMap α) : Nat :=
  map.entries.length

def isEmpty (map : KeyMap α) : Bool :=
  map.entries.isEmpty

/-- Puts an entry at its place in an ascending list, replacing an entry of the same key. -/
def insertEntry (key : String) (value : α) : List (String × α) → List (String × α)
  | [] => [(key, value)]
  | (other, kept) :: rest =>
      if key < other then (key, value) :: (other, kept) :: rest
      else if key = other then (key, value) :: rest
      else (other, kept) :: insertEntry key value rest

theorem mem_insertEntry {key : String} {value : α} {entry : String × α}
    {entries : List (String × α)} (h : entry ∈ insertEntry key value entries)
    : entry = (key, value) ∨ entry ∈ entries := by
  induction entries with
  | nil => exact .inl (List.mem_singleton.mp h)
  | cons head rest ih =>
      rw [insertEntry] at h
      split at h
      · exact (List.mem_cons.mp h)
      · split at h
        · exact (List.mem_cons.mp h).imp_right (List.mem_cons_of_mem _)
        · rcases List.mem_cons.mp h with rfl | h
          · exact .inr List.mem_cons_self
          · exact (ih h).imp_right (List.mem_cons_of_mem _)

theorem sorted_insertEntry (key : String) (value : α) {entries : List (String × α)}
    (h : entries.Pairwise (fun left right => left.1 < right.1))
    : (insertEntry key value entries).Pairwise (fun left right => left.1 < right.1) := by
  induction entries with
  | nil => simp [insertEntry]
  | cons head rest ih =>
      obtain ⟨hh, ht⟩ := List.pairwise_cons.mp h
      rw [insertEntry]
      split
      next lt =>
        refine List.pairwise_cons.mpr ⟨?_, h⟩
        intro entry hm
        rcases List.mem_cons.mp hm with rfl | hm
        · exact lt
        · exact String.lt_trans lt (hh entry hm)
      next nlt =>
        split
        next eq => exact List.pairwise_cons.mpr ⟨fun entry hm => eq ▸ hh entry hm, ht⟩
        next ne =>
          refine List.pairwise_cons.mpr ⟨?_, ih ht⟩
          intro entry hm
          rcases mem_insertEntry hm with rfl | hm
          · refine String.not_le.mp fun le => ne ?_
            exact String.le_antisymm le (String.not_lt.mp nlt)
          · exact hh entry hm

def insert (map : KeyMap α) (key : String) (value : α) : KeyMap α :=
  ⟨insertEntry key value map.entries, sorted_insertEntry key value map.sorted⟩

/-- The map restricted to the entries that satisfy a test. -/
def filter (map : KeyMap α) (keep : String → α → Bool) : KeyMap α :=
  ⟨map.entries.filter (fun entry => keep entry.1 entry.2), map.sorted.filter _⟩

def erase (map : KeyMap α) (key : String) : KeyMap α :=
  map.filter (fun other _ => other != key)

/-- The map with every value transformed. -/
def mapValues (map : KeyMap α) (f : String → α → β) : KeyMap β :=
  ⟨map.entries.map (fun entry => (entry.1, f entry.1 entry.2)), List.pairwise_map.mpr map.sorted⟩

/-- The map with the entries of a list bound one after the other. -/
def insertAll (map : KeyMap α) (entries : List (String × α)) : KeyMap α :=
  entries.foldl (fun acc entry => acc.insert entry.1 entry.2) map

/-- The map that binds the entries of a list, the last of equal keys winning. -/
def ofList (entries : List (String × α)) : KeyMap α :=
  insertAll ∅ entries

theorem lookup_cons_eq_ite (key name : String) (value : α) (rest : List (String × α))
    : ((name, value) :: rest).lookup key = if key = name then some value else rest.lookup key := by
  by_cases h : key = name
  · simp [h]
  · simp [List.lookup_cons, h, beq_eq_false_iff_ne.mpr h]

theorem lookup_insertEntry (key other : String) (value : α) (entries : List (String × α))
    : (insertEntry key value entries).lookup other
      = if other = key then some value else entries.lookup other := by
  induction entries with
  | nil => rw [insertEntry, lookup_cons_eq_ite]
  | cons head rest ih =>
      obtain ⟨name, kept⟩ := head
      rw [insertEntry]
      split
      · rw [lookup_cons_eq_ite]
      · split
        next eq => subst eq; rw [lookup_cons_eq_ite, lookup_cons_eq_ite]; split <;> rfl
        next ne =>
          rw [lookup_cons_eq_ite, lookup_cons_eq_ite, ih]
          split
          next eq => rw [if_neg fun same : other = key => ne (same.symm.trans eq)]
          next => rfl

/-- Binding a key changes the lookup of that key alone. -/
theorem get?_insert (map : KeyMap α) (key other : String) (value : α)
    : (map.insert key value).get? other = if other = key then some value else map.get? other :=
  lookup_insertEntry key other value map.entries

@[simp] theorem get?_empty (key : String) : (∅ : KeyMap α).get? key = none := rfl

/-- In an ascending list a key is found exactly at its entries. -/
theorem lookup_eq_some_iff_mem {key : String} {value : α} {entries : List (String × α)}
    (h : entries.Pairwise (fun left right => left.1 < right.1))
    : entries.lookup key = some value ↔ (key, value) ∈ entries := by
  induction entries with
  | nil => simp
  | cons head rest ih =>
      obtain ⟨name, kept⟩ := head
      obtain ⟨hh, ht⟩ := List.pairwise_cons.mp h
      rw [lookup_cons_eq_ite]
      split
      next eq =>
        subst eq
        have absent : (key, value) ∉ rest := fun hm => String.lt_irrefl key (hh (key, value) hm)
        simp [absent, eq_comm]
      next ne => simp [ne, ih ht]

/-- A key is bound to a value exactly when the entry is listed. -/
theorem get?_eq_some_iff {map : KeyMap α} {key : String} {value : α}
    : map.get? key = some value ↔ (key, value) ∈ map.entries :=
  lookup_eq_some_iff_mem map.sorted

/-- Restricting a map keeps the bindings that satisfy the test. -/
theorem get?_filter (map : KeyMap α) (keep : String → α → Bool) (key : String)
    : (map.filter keep).get? key = (map.get? key).filter (keep key) := by
  refine Option.ext fun value => ?_
  rw [get?_eq_some_iff, Option.filter_eq_some_iff, get?_eq_some_iff]
  simp [filter]

/-- Removing a key changes the lookup of that key alone. -/
theorem get?_erase (map : KeyMap α) (key other : String)
    : (map.erase key).get? other = if other = key then none else map.get? other := by
  rw [erase, get?_filter]
  by_cases h : other = key
  · cases map.get? other <;> simp [h, Option.filter]
  · cases map.get? other <;> simp [h, Option.filter]

/-- Ascending lists with the same entries are equal. -/
theorem entries_ext {left right : List (String × α)}
    (hl : left.Pairwise (fun a b => a.1 < b.1)) (hr : right.Pairwise (fun a b => a.1 < b.1))
    (h : ∀ entry, entry ∈ left ↔ entry ∈ right)
    : left = right := by
  induction left generalizing right with
  | nil =>
      cases right with
      | nil => rfl
      | cons head rest => exact absurd ((h head).mpr List.mem_cons_self) (by simp)
  | cons first rest ih =>
      cases right with
      | nil => exact absurd ((h first).mp List.mem_cons_self) (by simp)
      | cons other more =>
          obtain ⟨hf, hrest⟩ := List.pairwise_cons.mp hl
          obtain ⟨ho, hmore⟩ := List.pairwise_cons.mp hr
          have same : first = other := by
            rcases List.mem_cons.mp ((h first).mp List.mem_cons_self) with eq | hm
            · exact eq
            · rcases List.mem_cons.mp ((h other).mpr List.mem_cons_self) with eq | hm'
              · exact eq.symm
              · exact absurd (ho first hm) (String.lt_asymm (hf other hm'))
          subst same
          congr 1
          refine ih hrest hmore fun entry => ⟨fun hm => ?_, fun hm => ?_⟩
          · rcases List.mem_cons.mp ((h entry).mp (List.mem_cons_of_mem _ hm)) with rfl | hm'
            · exact absurd (hf _ hm) (String.lt_irrefl _)
            · exact hm'
          · rcases List.mem_cons.mp ((h entry).mpr (List.mem_cons_of_mem _ hm)) with rfl | hm'
            · exact absurd (ho _ hm) (String.lt_irrefl _)
            · exact hm'

/-- Maps with the same lookups are equal. -/
theorem ext_get? {left right : KeyMap α} (h : ∀ key, left.get? key = right.get? key)
    : left = right := by
  obtain ⟨le, hl⟩ := left
  obtain ⟨re, hr⟩ := right
  have : le = re := by
    refine entries_ext hl hr fun entry => ?_
    have same : le.lookup entry.1 = re.lookup entry.1 := h entry.1
    rw [← lookup_eq_some_iff_mem hl, ← lookup_eq_some_iff_mem hr, same]
  subst this
  rfl

end KeyMap

end Telemetry
