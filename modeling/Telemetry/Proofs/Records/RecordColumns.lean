import Telemetry.Record
import Mathlib.Data.List.Nodup

/-! Records as functions from the columns of their entity. The names of the columns differ, so a
record is determined by its values under these names, and setting a column changes that value alone.
-/

namespace Telemetry.Record

variable {entity : Entity}

def value (record : Record entity) (column : Column) : ColumnValue :=
  (record.column? column.name).getD (.blank column.type)

-----------------------------------------------------------------------------------------
-- Reading columns
-----------------------------------------------------------------------------------------

theorem column_unique {first second : Column} (hf : first ∈ entity.columns)
    (hs : second ∈ entity.columns) (h : first.name = second.name)
    : first = second :=
  List.inj_on_of_nodup_map entity.distinct hf hs h

theorem length_values (record : Record entity) : record.values.length = entity.columns.length := by
  simpa using congrArg List.length record.typed

/-- Looking up the names of columns one after the other reads off the list of values, by induction
over the columns.
-/
theorem map_lookup_zip {columns : List Column} {values : List ColumnValue}
    (distinct : (columns.map (·.name)).Nodup) (length : values.length = columns.length)
    : columns.map (fun column =>
        (((columns.zip values).find? (·.1.name == column.name)).map (·.2)).getD
          (.blank column.type))
      = values := by
  induction columns generalizing values with
  | nil => exact (List.length_eq_zero_iff.mp length).symm
  | cons head rest ih =>
      cases values with
      | nil => simp at length
      | cons first others =>
          obtain ⟨fresh, later⟩ := List.nodup_cons.mp distinct
          have skipped : ∀ column ∈ rest, (head.name == column.name) = false := by
            intro column member
            refine beq_eq_false_iff_ne.mpr fun same => fresh ?_
            exact List.mem_map.mpr ⟨column, member, same.symm⟩
          have tail := ih later (Nat.succ.inj length)
          simp only [List.zip_cons_cons, List.map_cons, List.find?_cons, beq_self_eq_true,
            Option.map_some, Option.getD_some, List.cons.injEq, true_and]
          refine Eq.trans (List.map_congr_left fun column member => ?_) tail
          rw [skipped column member]

theorem values_eq (record : Record entity) : record.values = entity.columns.map record.value :=
  (map_lookup_zip entity.distinct record.length_values).symm

theorem cells_eq (record : Record entity)
    : record.cells = entity.columns.map fun column => (column, record.value column) := by
  have both := List.zip_map' (f := fun column => column) (g := record.value) (l := entity.columns)
  rw [List.map_id'] at both
  rw [cells, values_eq]
  exact both

/-- A record whose values are given by a function has the values of the function. -/
theorem value_of_values_eq {record : Record entity} {f : Column → ColumnValue}
    (h : record.values = entity.columns.map f) {column : Column}
    (member : column ∈ entity.columns)
    : record.value column = f column :=
  List.map_inj_left.mp (record.values_eq.symm.trans h) column member

/-- Records that agree in all columns are equal. -/
theorem ext_value {first second : Record entity}
    (h : ∀ column ∈ entity.columns, first.value column = second.value column)
    : first = second := by
  have values : first.values = second.values := by
    rw [values_eq, values_eq, List.map_inj_left]
    exact h
  cases first
  cases second
  cases values
  rfl

theorem type_value (record : Record entity) {column : Column} (member : column ∈ entity.columns)
    : (record.value column).type = column.type := by
  have types := record.typed
  rw [values_eq, List.map_map] at types
  exact List.map_inj_left.mp types column member

/-- Every column of the entity is exposed. -/
theorem column?_eq_value (record : Record entity) {column : Column}
    (member : column ∈ entity.columns)
    : record.column? column.name = some (record.value column) := by
  have listed : (column, record.value column) ∈ record.cells := by
    rw [cells_eq]
    exact List.mem_map.mpr ⟨column, member, rfl⟩
  cases read : record.column? column.name with
  | some found => rw [value, read, Option.getD_some]
  | none =>
      rw [column?, Option.map_eq_none_iff, List.find?_eq_none] at read
      exact absurd (beq_self_eq_true _) (read _ listed)

/-- The record of a function that respects the types of the columns. -/
def ofValues (f : Column → ColumnValue)
    (typed : ∀ column ∈ entity.columns, (f column).type = column.type)
    : Record entity where
  values := entity.columns.map f
  typed := by
    rw [List.map_map]
    exact List.map_congr_left typed

theorem value_ofValues {f : Column → ColumnValue}
    {typed : ∀ column ∈ entity.columns, (f column).type = column.type} {column : Column}
    (member : column ∈ entity.columns)
    : (ofValues f typed).value column = f column :=
  value_of_values_eq rfl member

-----------------------------------------------------------------------------------------
-- The identity
-----------------------------------------------------------------------------------------

theorem exists_idColumn (entity : Entity)
    : ∃ column ∈ entity.columns, column.name = "id" ∧ column.type = .string := by
  obtain ⟨column, member, both⟩ := List.any_eq_true.mp entity.identified
  exact ⟨column, member, by simpa using both⟩

/-- The identity of a record is the text in its identity column. -/
theorem value_idColumn (record : Record entity) {column : Column}
    (member : column ∈ entity.columns) (named : column.name = "id")
    (text : column.type = .string)
    : record.value column = .string record.id := by
  have exposed := record.column?_eq_value member
  have type := record.type_value member
  rw [named] at exposed
  rw [text] at type
  unfold id
  rw [exposed]
  cases read : record.value column with
  | string text => rfl
  | _ => rw [read] at type; cases type

-----------------------------------------------------------------------------------------
-- Setting columns
-----------------------------------------------------------------------------------------

theorem entity_column?_name {column : Column} (member : column ∈ entity.columns)
    : entity.column? column.name = some column := by
  cases found : entity.column? column.name with
  | some other =>
      have same : other.name = column.name := by simpa using List.find?_some found
      exact congrArg some (column_unique (List.mem_of_find?_eq_some found) member same)
  | none => exact absurd (beq_self_eq_true _) (List.find?_eq_none.mp found column member)

/-- Setting a column to a value of its type succeeds and changes that column alone. -/
theorem setColumn_eq_ok (record : Record entity) {column : Column}
    (member : column ∈ entity.columns) {new : ColumnValue} (typed : new.type = column.type)
    : ∃ changed, record.setColumn column.name new = .ok changed
        ∧ changed.value column = new
        ∧ ∀ other ∈ entity.columns, other ≠ column → changed.value other = record.value other := by
  have values : entity.columns.zipWith (replace column.name new) record.values
      = entity.columns.map fun other => replace column.name new other (record.value other) := by
    rw [values_eq, List.zipWith_map_right, List.zipWith_self]
  refine ⟨⟨_, types_zipWith_replace column.name new _ _ record.typed⟩, ?_, ?_, ?_⟩
  · simp only [setColumn, entity_column?_name member, typed, if_true]
  · refine (value_of_values_eq values member).trans ?_
    simp [replace, typed]
  · intro other inEntity ne
    have names : other.name ≠ column.name := fun same => ne (column_unique inEntity member same)
    refine (value_of_values_eq values inEntity).trans ?_
    simp [replace, names]

end Telemetry.Record
