import Telemetry.Proofs.Records.ColumnwiseMerge

/-! Lenient folds of entities whose arithmetic columns are numeric. Every column of such a fold
combines the values of that column from the left, which for all but sums and extrema of doubles does
not depend on how the sequence is cut.
-/

namespace Telemetry

-----------------------------------------------------------------------------------------
-- One column
-----------------------------------------------------------------------------------------

namespace ColumnValue

theorem exists_long {value : ColumnValue} (h : value.type = .long)
    : ∃ number, value = .long number := by
  cases value <;> first | exact ⟨_, rfl⟩ | cases h

theorem exists_integer {value : ColumnValue} (h : value.type = .integer)
    : ∃ number, value = .integer number := by
  cases value <;> first | exact ⟨_, rfl⟩ | cases h

end ColumnValue

namespace Column

/-- Whether the rule of a column can be applied to its values. -/
def IsMergeable (column : Column) : Prop :=
  column.rule.isArithmetic → column.type.isNumeric

instance : DecidablePred IsMergeable :=
  fun column => inferInstanceAs (Decidable (_ → column.type.isNumeric = true))

/-- Whether a column computes with whole numbers only. -/
def ComputesWhole (column : Column) : Prop :=
  column.rule.isArithmetic → column.type.isWhole

instance : DecidablePred ComputesWhole :=
  fun column => inferInstanceAs (Decidable (_ → column.type.isWhole = true))

/-- Whether a column is merged without rounding. -/
def IsExact (column : Column) : Prop :=
  ¬(column.type = .double ∧ column.rule.isArithmetic)

/-- The value that lenient merging makes of two values of a column. -/
def combine (column : Column) (earlier later : ColumnValue) : ColumnValue :=
  match column.rule with
  | .nonMerge => earlier
  | .coverMerge => later
  | rule => (MergeMode.arithmetic? rule earlier later).getD earlier

variable {column : Column} {first second third : ColumnValue}

theorem ComputesWhole.isMergeable (whole : column.ComputesWhole) : column.IsMergeable := by
  intro arithmetic
  have wholeNumbers := whole arithmetic
  cases type : column.type <;> rw [type] at wholeNumbers <;> first | rfl | cases wholeNumbers

theorem arithmetic?_isSome (rule : MergeRule) {type : ColumnType} (numeric : type.isNumeric)
    (hf : first.type = type) (hs : second.type = type)
    : ∃ merged, MergeMode.arithmetic? rule first second = some merged := by
  subst hf
  cases first with
  | string _ | byte _ => cases numeric
  | long _ | integer _ | double _ => cases second <;> first | exact ⟨_, rfl⟩ | cases hs

/-- Lenient merging of a column succeeds. -/
theorem mergeValue_lenient (mergeable : column.IsMergeable) (entity id : String)
    (hf : first.type = column.type) (hs : second.type = column.type)
    : MergeMode.lenient.mergeValue entity id column first second
      = .ok (column.combine first second) := by
  unfold MergeMode.mergeValue combine
  cases rule : column.rule with
  | nonMerge => simp
  | coverMerge => rfl
  | _ =>
      have numeric := mergeable (rule ▸ rfl)
      obtain ⟨merged, computed⟩ := arithmetic?_isSome column.rule numeric hf hs
      rw [rule] at computed
      simp only [computed, Option.getD_some]

theorem type_combine (mergeable : column.IsMergeable) (hf : first.type = column.type)
    (hs : second.type = column.type)
    : (column.combine first second).type = column.type :=
  MergeMode.type_of_mergeValue hf hs (mergeValue_lenient mergeable "" "" hf hs)

end Column

-----------------------------------------------------------------------------------------
-- Associativity
-----------------------------------------------------------------------------------------

namespace MergeMode

/-- Rules for whole numbers do not depend on how a sequence of numbers is cut. -/
theorem wholeNumbers_assoc (rule : MergeRule) (a b c : Int64)
    : wholeNumbers rule (wholeNumbers rule a b) c = wholeNumbers rule a (wholeNumbers rule b c) := by
  cases rule with
  | add => exact Int64.add_assoc a b c
  | max => simp only [wholeNumbers]; grind
  | min => simp only [wholeNumbers]; grind
  | _ => rfl

/-- Rules for narrow numbers do not leave the range of narrow numbers before sums are cut back. -/
theorem wholeNumbers_narrow (rule : MergeRule) (a b : Int32)
    : wholeNumbers rule a.toInt64 b.toInt64
      = if rule = .add then a.toInt64 + b.toInt64
        else (wholeNumbers rule a.toInt64 b.toInt64).toInt32.toInt64 := by
  cases rule with
  | add => rfl
  | max => simp only [wholeNumbers]; split <;> simp
  | min => simp only [wholeNumbers]; split <;> simp
  | _ => simp [wholeNumbers]

/-- Rules for narrow numbers do not depend on how a sequence of numbers is cut. -/
theorem wholeNumbers_toInt32_assoc (rule : MergeRule) (a b c : Int32)
    : (wholeNumbers rule (wholeNumbers rule a.toInt64 b.toInt64).toInt32.toInt64
        c.toInt64).toInt32
      = (wholeNumbers rule a.toInt64
        (wholeNumbers rule b.toInt64 c.toInt64).toInt32.toInt64).toInt32 := by
  by_cases sums : rule = .add
  · subst sums
    simp only [wholeNumbers, Int64.toInt32_add, Int32.toInt32_toInt64]
    exact Int32.add_assoc a b c
  · have left := wholeNumbers_narrow rule a b
    have right := wholeNumbers_narrow rule b c
    rw [if_neg sums] at left right
    rw [← left, ← right, wholeNumbers_assoc]

end MergeMode

namespace Column

variable {column : Column} {first second third : ColumnValue}

/-- The rules that do not compute keep one of the two values. -/
theorem combine_of_not_arithmetic (h : column.rule.isArithmetic = false)
    : column.combine first second = if column.rule = .coverMerge then second else first := by
  unfold combine
  cases rule : column.rule with
  | nonMerge | coverMerge => rfl
  | add | max | min => rw [rule] at h; cases h

theorem combine_of_arithmetic (h : column.rule.isArithmetic = true)
    : column.combine first second
      = (MergeMode.arithmetic? column.rule first second).getD first := by
  unfold combine
  cases rule : column.rule with
  | nonMerge | coverMerge => rw [rule] at h; cases h
  | add | max | min => rfl

/-- Merging a column without rounding is associative. -/
theorem combine_assoc (mergeable : column.IsMergeable) (exact : column.IsExact)
    (hf : first.type = column.type) (hs : second.type = column.type)
    (ht : third.type = column.type)
    : column.combine (column.combine first second) third
      = column.combine first (column.combine second third) := by
  cases arithmetic : column.rule.isArithmetic with
  | false =>
      simp only [combine_of_not_arithmetic arithmetic]
      split <;> rfl
  | true =>
      have numeric := mergeable arithmetic
      simp only [combine_of_arithmetic arithmetic]
      cases type : column.type with
      | string | byte => rw [type] at numeric; cases numeric
      | double => exact absurd ⟨type, arithmetic⟩ exact
      | long =>
          obtain ⟨a, rfl⟩ := ColumnValue.exists_long (hf.trans type)
          obtain ⟨b, rfl⟩ := ColumnValue.exists_long (hs.trans type)
          obtain ⟨c, rfl⟩ := ColumnValue.exists_long (ht.trans type)
          exact congrArg ColumnValue.long (MergeMode.wholeNumbers_assoc column.rule a b c)
      | integer =>
          obtain ⟨a, rfl⟩ := ColumnValue.exists_integer (hf.trans type)
          obtain ⟨b, rfl⟩ := ColumnValue.exists_integer (hs.trans type)
          obtain ⟨c, rfl⟩ := ColumnValue.exists_integer (ht.trans type)
          exact congrArg ColumnValue.integer
            (MergeMode.wholeNumbers_toInt32_assoc column.rule a b c)

/-- Combining values from the left keeps their type, by induction over the values. -/
theorem type_foldl_combine (mergeable : column.IsMergeable) {values : List ColumnValue}
    (hf : first.type = column.type) (hv : ∀ value ∈ values, value.type = column.type)
    : (values.foldl column.combine first).type = column.type := by
  induction values generalizing first with
  | nil => exact hf
  | cons head rest ih =>
      have typed := type_combine mergeable hf (hv head List.mem_cons_self)
      exact ih typed fun value member => hv value (List.mem_cons_of_mem _ member)

/-- A sequence of values may be combined in two parts, by induction over the second one. -/
theorem foldl_combine_combine (mergeable : column.IsMergeable) (exact : column.IsExact)
    {values : List ColumnValue} (hf : first.type = column.type) (hs : second.type = column.type)
    (hv : ∀ value ∈ values, value.type = column.type)
    : values.foldl column.combine (column.combine first second)
      = column.combine first (values.foldl column.combine second) := by
  induction values generalizing second with
  | nil => rfl
  | cons head rest ih =>
      have here := hv head List.mem_cons_self
      rw [List.foldl_cons, List.foldl_cons, combine_assoc mergeable exact hf hs here]
      exact ih (type_combine mergeable hs here) fun value member =>
        hv value (List.mem_cons_of_mem _ member)

end Column

-----------------------------------------------------------------------------------------
-- Whole records
-----------------------------------------------------------------------------------------

/-- Whether all rules of an entity can be applied to its values. -/
def Entity.IsMergeable (entity : Entity) : Prop :=
  ∀ column ∈ entity.columns, column.IsMergeable

instance (entity : Entity) : Decidable entity.IsMergeable :=
  inferInstanceAs (Decidable (∀ column ∈ entity.columns, column.IsMergeable))

namespace MergeMode

variable {R : Type} [StreamData R]
variable {mode : MergeMode} {records : List R}

theorem ne_nil_of_fold {total : R} (h : mode.fold records = .ok (some total))
    : records ≠ [] := by
  rintro rfl
  cases h

/-- Only an empty sequence folds to nothing. -/
theorem fold_concat_of_none (h : mode.fold records = .ok none) (record : R)
    : mode.fold (records ++ [record]) = .ok (some record) := by
  cases records with
  | nil => rfl
  | cons first rest =>
      have some : ∀ outcome : Except Error R, outcome.map some ≠ .ok none := by
        intro outcome same
        cases outcome <;> cases same
      exact absurd h (some _)

/-- Folding one more record merges it into the fold of those before. -/
theorem fold_concat_of_some {total : R} (h : mode.fold records = .ok (some total)) (record : R)
    : mode.fold (records ++ [record]) = (mode.merge total record).map some := by
  cases records with
  | nil => cases h
  | cons first rest =>
      have folds : rest.foldlM mode.merge first = .ok total := by
        change (rest.foldlM mode.merge first).map some = .ok (some total) at h
        cases outcome : rest.foldlM mode.merge first <;> rw [outcome] at h <;> cases h
        rfl
      simp only [List.cons_append, fold, List.foldlM_append, folds, List.foldlM_cons,
        List.foldlM_nil]
      change (mode.merge total record >>= pure).map some = (mode.merge total record).map some
      rw [bind_pure]

end MergeMode

namespace Record

variable {entity : Entity}

/-- Two records of one identity merge leniently, column by column. -/
theorem merge_lenient (mergeable : entity.IsMergeable) {first second : Record entity}
    (same : first.id = second.id)
    : ∃ merged, MergeMode.lenient.merge first second = .ok merged ∧ merged.id = first.id
        ∧ ∀ column ∈ entity.columns,
            merged.value column = column.combine (first.value column) (second.value column) := by
  have typed : ∀ column ∈ entity.columns,
      (column.combine (first.value column) (second.value column)).type = column.type :=
    fun column member => Column.type_combine (mergeable column member)
      (first.type_value member) (second.type_value member)
  have merges : MergeMode.lenient.merge first second = .ok (ofValues _ typed) := by
    refine merge_eq_ok_iff.mpr ⟨same, fun column member => ?_⟩
    rw [value_ofValues member]
    exact Column.mergeValue_lenient (mergeable column member) _ _ (first.type_value member)
      (second.type_value member)
  exact ⟨_, merges, id_of_merge merges, fun column member => value_ofValues member⟩

/-- Records of one identity fold leniently, column by column. -/
theorem fold_lenient (mergeable : entity.IsMergeable) {first : Record entity}
    {rest : List (Record entity)} (same : ∀ record ∈ rest, record.id = first.id)
    : ∃ total, MergeMode.lenient.fold (first :: rest) = .ok (some total) ∧ total.id = first.id
        ∧ ∀ column ∈ entity.columns, total.value column
            = (rest.map (·.value column)).foldl column.combine (first.value column) := by
  induction rest generalizing first with
  | nil => exact ⟨first, rfl, rfl, fun _ _ => rfl⟩
  | cons next others ih =>
      have here := same next List.mem_cons_self
      obtain ⟨merged, merges, identity, values⟩ := merge_lenient mergeable here.symm
      obtain ⟨total, folds, kept, columns⟩ := @ih merged fun record member =>
        (same record (List.mem_cons_of_mem _ member)).trans identity.symm
      refine ⟨total, ?_, kept.trans identity, fun column member => ?_⟩
      · rw [← folds]
        simp only [MergeMode.fold, List.foldlM_cons, merges]
        rfl
      · rw [columns column member, values column member]
        rfl

/-- Some records of one identity fold leniently to a record of that identity. -/
theorem exists_fold_lenient (mergeable : entity.IsMergeable) {identity : String}
    {records : List (Record entity)} (all : ∀ record ∈ records, record.id = identity)
    (some : records ≠ [])
    : ∃ total, MergeMode.lenient.fold records = .ok (.some total) ∧ total.id = identity := by
  cases records with
  | nil => exact absurd rfl some
  | cons first rest =>
      have here := all first List.mem_cons_self
      obtain ⟨total, folds, kept, _⟩ := @fold_lenient entity mergeable first rest fun record member =>
        (all record (List.mem_cons_of_mem _ member)).trans here.symm
      exact ⟨total, folds, kept.trans here⟩

/-- A sequence of records may be folded in two parts, as far as its columns are exact. -/
theorem value_fold_append (mergeable : entity.IsMergeable) {identity : String}
    {earlier later : List (Record entity)} (he : ∀ record ∈ earlier, record.id = identity)
    (hl : ∀ record ∈ later, record.id = identity) {first second total : Record entity}
    (firstFold : MergeMode.lenient.fold earlier = .ok (some first))
    (secondFold : MergeMode.lenient.fold later = .ok (some second))
    (totalFold : MergeMode.lenient.fold (earlier ++ later) = .ok (some total))
    {column : Column} (member : column ∈ entity.columns) (exact : column.IsExact)
    : total.value column = column.combine (first.value column) (second.value column) := by
  cases earlier with
  | nil => cases firstFold
  | cons e earlier =>
      cases later with
      | nil => cases secondFold
      | cons l later =>
          have sameAs {list : List (Record entity)} {head : Record entity}
              (h : ∀ record ∈ head :: list, record.id = identity)
              : ∀ record ∈ list, record.id = head.id := by
            intro record inList
            rw [h record (List.mem_cons_of_mem _ inList), h head List.mem_cons_self]
          have all : ∀ record ∈ e :: (earlier ++ l :: later), record.id = identity := by
            intro record inAll
            rw [← List.cons_append, List.mem_append] at inAll
            exact inAll.elim (he record) (hl record)
          obtain ⟨_, ef, _, ev⟩ := fold_lenient mergeable (sameAs he)
          obtain ⟨_, lf, _, lv⟩ := fold_lenient mergeable (sameAs hl)
          obtain ⟨_, tf, _, tv⟩ := fold_lenient mergeable (sameAs all)
          cases ef.symm.trans firstFold
          cases lf.symm.trans secondFold
          cases tf.symm.trans totalFold
          have typed (list : List (Record entity))
              : ∀ value ∈ list.map (·.value column), value.type = column.type := by
            intro value inList
            obtain ⟨record, _, rfl⟩ := List.mem_map.mp inList
            exact record.type_value member
          have left := Column.type_foldl_combine (mergeable column member)
            (e.type_value member) (typed earlier)
          rw [tv column member, ev column member, lv column member, List.map_append,
            List.map_cons, List.foldl_append, List.foldl_cons]
          exact Column.foldl_combine_combine (mergeable column member) exact left
            (l.type_value member) (typed later)

end Record

end Telemetry
