import Mathlib.Data.List.Basic
import Telemetry.Collector.Archive
import Telemetry.Proofs.Storage.SharedDatabases

/-! The names of the tables of a collector. They are joined with underscores and hold underscores
themselves, but no table's name ends in an underscore and another one's, so collectors that share
a database under different namespaces have nothing to do with each other.
-/

namespace Telemetry

-----------------------------------------------------------------------------------------
-- Names of the tables of an entity
-----------------------------------------------------------------------------------------

namespace Granularity

theorem name_inj {one two : Granularity} : one.name = two.name ↔ one = two := by
  cases one <;> cases two <;> decide

/-- The name of a granularity holds no underscore. -/
theorem underscore_notMem_name (granularity : Granularity)
    : '_' ∉ granularity.name.toList := by
  cases granularity <;> decide

/-- The characters of a table's name up to its first underscore are those of the granularity. -/
theorem takeWhile_tableName (granularity : Granularity) (base : String)
    : (granularity.tableName base).toList.takeWhile (· ≠ '_') = granularity.name.toList := by
  have letters : ∀ letter ∈ granularity.name.toList, decide (letter ≠ '_') = true := by
    intro letter member
    exact decide_eq_true fun same => granularity.underscore_notMem_name (same ▸ member)
  have joined : (granularity.tableName base).toList
      = granularity.name.toList ++ '_' :: base.toList := by
    simp [tableName]
  rw [joined, List.takeWhile_append_of_pos letters]
  simp

/-- The name of a table tells its granularity and its base, whatever the base holds. -/
theorem tableName_inj {one two : Granularity} {base other : String}
    : one.tableName base = two.tableName other ↔ one = two ∧ base = other := by
  constructor
  · intro same
    have fronts := congrArg (fun name : String => name.toList.takeWhile (· ≠ '_')) same
    simp only [takeWhile_tableName] at fronts
    obtain rfl : one = two := name_inj.mp (String.toList_inj.mp fronts)
    simp only [tableName, ← String.toList_inj, String.toList_append] at same
    exact ⟨rfl, String.toList_inj.mp (List.append_cancel_left same)⟩
  · rintro ⟨rfl, rfl⟩
    rfl

end Granularity

-----------------------------------------------------------------------------------------
-- Namespaces
-----------------------------------------------------------------------------------------

namespace Collector

open Storage

/-- No table of a collector has a name that ends in an underscore and that of another. -/
theorem unambiguous_tableNames : Namespace.Unambiguous tableNames := by
  decide +kernel

/-- The names of a collector's tables under namespaces of any texts are the same only if both the
texts and the tables are. Clients that open a database one after the other, and name a collector's
tables alone, therefore get the answers that they would get if all clients of other namespaces had
stayed away, and the rows in their namespace are those that there would be then. A table of an
entity is named differently for every granularity and every base.
-/
theorem namespaces_keep_tables_apart
    : (∀ first second : String, ∀ table ∈ tableNames, ∀ other ∈ tableNames,
        (Namespace.named first).qualify table = (Namespace.named second).qualify other
          ↔ first = second ∧ table = other)
      ∧ (∀ (store : Database) (clients : List Client),
          (∀ client ∈ clients, client.Uses tableNames) → ∀ space : String,
            (Client.answers store clients).filter (·.1 = space)
                = Client.answers store (clients.filter (·.space = space))
              ∧ ∀ table ∈ tableNames,
                (Client.after store clients).committed.rows
                    ((Namespace.named space).qualify table)
                  = (Client.after store (clients.filter (·.space = space))).committed.rows
                    ((Namespace.named space).qualify table))
      ∧ ∀ (one two : Granularity) (base other : String),
          one.tableName base = two.tableName other ↔ one = two ∧ base = other := by
  refine ⟨?_, ?_, fun _ _ _ _ => Granularity.tableName_inj⟩
  · intro first second table known other known'
    exact unambiguous_tableNames.qualify_inj known known'
  · intro store clients uses space
    have same : store.Agree (Client.names space tableNames) store := fun _ _ => rfl
    obtain ⟨answers, rows⟩ := Client.answers_filter unambiguous_tableNames uses same
    exact ⟨answers, fun table known => rows _ (List.mem_map_of_mem known)⟩

/-- A client of the empty namespace, with an insert of the same row and a range that the row lies
in, between two clients of a namespace that is the name of a granularity.
-/
theorem namespaces_keep_tables_apart_insert_between
    : let row : Document := (∅ : Document).insert "time_bucket" (.int 20240110)
      let insert : Call := .execute [⟨.insert, "day_cpu_metric", "a", row⟩] .ahead
      let first : Client := ⟨"day", [insert]⟩
      let between : Client :=
        ⟨"", [insert, .deleteRange "day_cpu_metric" "time_bucket" 19700101 20240201]⟩
      let last : Client := ⟨"day", [insert, .row "day_cpu_metric" "a"]⟩
      let clients := [first, between, last]
      (∀ client ∈ clients, client.Uses tableNames)
      ∧ (Client.answers {} clients).filter (·.1 = "day") = Client.answers {} [first, last]
      ∧ ((Client.after {} clients).committed.row? "day_day_cpu_metric" "a").isSome = true
      ∧ ((Client.after {} clients).committed.row? "day_cpu_metric" "a").isSome = false := by
  intro row insert first between last clients
  have known : "day_cpu_metric" ∈ tableNames := by decide +kernel
  have uses : ∀ client ∈ clients, client.Uses tableNames := by
    simp [clients, first, between, last, insert, Client.Uses, Call.tables, known]
  have own : clients.filter (·.space = "day") = [first, last] := by
    simp [clients, first, between, last]
  have apart := namespaces_keep_tables_apart.2.1 {} clients uses "day"
  rw [own] at apart
  exact ⟨uses, apart.1, by decide +kernel, by decide +kernel⟩

end Collector

end Telemetry
