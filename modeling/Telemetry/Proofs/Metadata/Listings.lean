import Telemetry.Proofs.KeyMaps
import Telemetry.Metadata.Store

/-! Paths as texts, and what a listing of the metadata store lists: the values whose paths start
with the listed prefix.
-/

namespace Telemetry.Metadata

-----------------------------------------------------------------------------------------
-- Texts and paths
-----------------------------------------------------------------------------------------

namespace Path

/-- The split at a slash loses that slash alone, by induction along the characters. -/
theorem splitAtSlash_eq {count : Nat} {chars before : List Char} {after : Option (List Char)}
    (h : splitAtSlash count chars = (before, after))
    : chars = before ++ (after.elim [] ('/' :: ·)) := by
  induction chars generalizing count before after with
  | nil => cases h; rfl
  | cons c rest ih =>
      unfold splitAtSlash at h
      split at h
      next slash =>
        subst slash
        cases count with
        | zero => cases h; rfl
        | succ left =>
            cases h
            exact congrArg ('/' :: ·) (ih rfl)
      next =>
        cases h
        exact congrArg (c :: ·) (ih rfl)

/-- A text is read as the characters before its third slash and those after it. -/
theorem parse_eq_ok {text : String} {path : Path} (h : parse text = .ok path)
    : text.toList = path.group.toList ∧ path.key = ""
      ∨ text.toList = path.group.toList ++ '/' :: path.key.toList := by
  unfold parse at h
  split at h
  · cases h
  · cases h
    have whole := splitAtSlash_eq (rfl : splitAtSlash 2 text.toList = (_, _))
    cases after : (splitAtSlash 2 text.toList).2 with
    | none =>
        rw [after] at whole
        exact .inl ⟨by simpa using whole, rfl⟩
    | some key =>
        rw [after] at whole
        exact .inr (by simpa using whole)

theorem parseKeyed_eq_ok {text : String} {path : Path} (h : parseKeyed text = .ok path)
    : parse text = .ok path ∧ text.toList = path.group.toList ++ '/' :: path.key.toList := by
  unfold parseKeyed at h
  cases parsed : parse text with
  | error error =>
      rw [parsed] at h
      cases h
  | ok found =>
      simp only [parsed, bind, Except.bind] at h
      split at h
      · cases h
      next keyed =>
        cases h
        refine ⟨rfl, (parse_eq_ok parsed).resolve_left ?_⟩
        exact fun bare => keyed bare.2

/-- A text with more slashes than the count has a slash to be split at. -/
theorem exists_split_of_count {count : Nat} {chars : List Char} (h : count < chars.count '/')
    : ∃ before after, chars = before ++ '/' :: after ∧ before.count '/' = count := by
  induction chars generalizing count with
  | nil => simp at h
  | cons c rest ih =>
      by_cases slash : c = '/'
      · subst slash
        cases count with
        | zero => exact ⟨[], rest, rfl, rfl⟩
        | succ left =>
            obtain ⟨before, after, rfl, counted⟩ := ih (by simpa using h)
            exact ⟨'/' :: before, after, rfl, by simpa using counted⟩
      · obtain ⟨before, after, rfl, counted⟩ := ih (by simpa [slash] using h)
        exact ⟨c :: before, after, rfl, by simpa [slash] using counted⟩

theorem splitAtSlash_append {count : Nat} {before : List Char} (after : List Char)
    (h : before.count '/' = count)
    : splitAtSlash count (before ++ '/' :: after) = (before, some after) := by
  induction before generalizing count with
  | nil => subst h; rfl
  | cons c rest ih =>
      by_cases slash : c = '/'
      · subst slash
        subst h
        simp [splitAtSlash, ih]
      · have counted : rest.count '/' = count := by simpa [slash] using h
        simp [splitAtSlash, slash, ih counted]

/-- A text is read as what stands before a slash and what stands after it, if that slash is its
third one.
-/
theorem parse_eq_of_toList {text : String} {before after : List Char}
    (whole : text.toList = before ++ '/' :: after) (h : before.count '/' = 2)
    : parse text = .ok ⟨String.ofList before, String.ofList after⟩ := by
  have enough : ¬ text.toList.count '/' < 2 := by
    rw [whole, List.count_append, h]
    omega
  rw [parse, if_neg enough, whole, splitAtSlash_append after h]
  rfl

/-- The texts of a group ascend with their keys. -/
theorem text_lt_text (group : String) {key other : String} (h : key < other)
    : (⟨group, key⟩ : Path).text < (⟨group, other⟩ : Path).text := by
  refine String.lt_iff.mpr ?_
  simp only [Path.text, String.toList_append]
  exact List.append_left_lt (String.lt_iff.mp h)

end Path

theorem startsWith_iff {text start : String}
    : startsWith text start = true ↔ start.toList <+: text.toList := by
  simp [startsWith]

/-- A path lies below a prefix if it has its group and a key that starts with its key. -/
theorem startsWith_of_group_of_key {text below : String} {path start : Path}
    (ht : Path.parseKeyed text = .ok path) (hb : Path.parse below = .ok start)
    (group : path.group = start.group) (key : startsWith path.key start.key = true)
    : startsWith text below = true := by
  obtain ⟨more, extended⟩ := startsWith_iff.mp key
  rw [startsWith_iff, (Path.parseKeyed_eq_ok ht).2, group, ← extended]
  rcases Path.parse_eq_ok hb with ⟨bare, _⟩ | keyed
  · exact bare ▸ List.prefix_append _ _
  · rw [keyed]
    exact ⟨more, by simp⟩

-----------------------------------------------------------------------------------------
-- Listings
-----------------------------------------------------------------------------------------

namespace Store

theorem value?_eq_get?_group (store : Store) (path : Path)
    : store.value? path = (store.group path.group).get? path.key := by
  unfold value? group
  cases store.groups.get? path.group <;> simp

/-- The value at a text below a prefix is found in the group of the prefix, under a key that starts
with its key.
-/
theorem get_eq_ok_some_iff {store : Store} {text : String} {before after : List Char} {kept : Value}
    (h : before.count '/' = 2)
    : before ++ '/' :: after <+: text.toList ∧ store.get text = .ok (some kept)
      ↔ ∃ key, startsWith key (String.ofList after) = true
        ∧ (store.group (String.ofList before)).get? key = some kept
        ∧ text = (⟨String.ofList before, key⟩ : Path).text := by
  constructor
  · rintro ⟨⟨more, whole⟩, found⟩
    have split : text.toList = before ++ '/' :: (after ++ more) := by simpa using whole.symm
    have parsed := Path.parse_eq_of_toList split h
    rw [get, parsed] at found
    refine ⟨String.ofList (after ++ more), ?_, ?_, ?_⟩
    · simp [startsWith_iff]
    · exact (value?_eq_get?_group store _).symm.trans (Except.ok.inj found)
    · exact String.toList_inj.mp (by simp [split, Path.text])
  · rintro ⟨key, below, bound, rfl⟩
    have split : (⟨String.ofList before, key⟩ : Path).text.toList = before ++ '/' :: key.toList := by
      simp [Path.text]
    obtain ⟨more, extended⟩ := startsWith_iff.mp below
    refine ⟨⟨more, by simp [split, ← extended]⟩, ?_⟩
    rw [get, Path.parse_eq_of_toList split h]
    simp [Except.map, value?_eq_get?_group, bound]

/-- A listing below a prefix with a third slash lists the values at all texts that start with the
prefix, by their JSON texts.
-/
theorem bulk_eq_ok {store : Store} {below : String} (slashes : 2 < below.toList.count '/')
    : ∃ entries, store.bulk below = .ok entries
      ∧ ∀ text written, (text, written) ∈ entries
        ↔ startsWith text below = true
          ∧ ∃ kept, store.get text = .ok (some kept) ∧ kept.json = written := by
  obtain ⟨before, after, whole, counted⟩ := Path.exists_split_of_count slashes
  have parsed := Path.parse_eq_of_toList whole counted
  refine ⟨_, by simp only [bulk, parsed, bind, Except.bind]; rfl, ?_⟩
  intro text written
  rw [startsWith_iff, whole]
  constructor
  · intro member
    obtain ⟨⟨key, kept⟩, listed, eq⟩ := List.mem_map.mp member
    cases eq
    obtain ⟨bound, low⟩ := List.mem_filter.mp listed
    obtain ⟨under, found⟩ := (get_eq_ok_some_iff counted).mpr
      ⟨key, low, KeyMap.get?_eq_some_iff.mpr bound, rfl⟩
    exact ⟨under, kept, found, rfl⟩
  · rintro ⟨under, kept, found, rfl⟩
    obtain ⟨key, low, bound, rfl⟩ := (get_eq_ok_some_iff counted).mp ⟨under, found⟩
    refine List.mem_map.mpr ⟨(key, kept), ?_, rfl⟩
    exact List.mem_filter.mpr ⟨KeyMap.get?_eq_some_iff.mp bound, low⟩

/-- A listing lists texts in ascending order. -/
theorem pairwise_bulk {store : Store} {below : String} {entries : List (String × Json)}
    (h : store.bulk below = .ok entries)
    : entries.Pairwise fun one other => one.1 < other.1 := by
  unfold bulk at h
  cases parsed : Path.parse below with
  | error error =>
      rw [parsed] at h
      cases h
  | ok start =>
      rw [parsed] at h
      cases h
      have ascending := ((store.group start.group).filter fun key _ =>
        startsWith key start.key).sorted
      exact List.pairwise_map.mpr (ascending.imp (Path.text_lt_text start.group))

/-- A listing lists a text once. -/
theorem nodup_bulk {store : Store} {below : String} {entries : List (String × Json)}
    (h : store.bulk below = .ok entries)
    : (entries.map (·.1)).Nodup := by
  refine List.pairwise_map.mpr ((pairwise_bulk h).imp ?_)
  intro one other lt same
  exact String.lt_irrefl _ (same ▸ lt)

/-- A listing depends on the keys of the group that it is about, and on those below it alone. -/
theorem bulk_congr {store other : Store} {below : String}
    (h : ∀ start, Path.parse below = .ok start → ∀ key, startsWith key start.key = true →
      (store.group start.group).get? key = (other.group start.group).get? key)
    : store.bulk below = other.bulk below := by
  unfold bulk
  cases parsed : Path.parse below with
  | error error => rfl
  | ok start =>
      have same : (store.group start.group).filter (fun key _ => startsWith key start.key)
          = (other.group start.group).filter fun key _ => startsWith key start.key := by
        refine KeyMap.ext_get? fun key => ?_
        rw [KeyMap.get?_filter, KeyMap.get?_filter]
        by_cases listed : startsWith key start.key = true
        · rw [h start parsed key listed]
        · cases (store.group start.group).get? key <;>
            cases (other.group start.group).get? key <;> simp [Option.filter, listed]
      simp only [bind, Except.bind, same]

end Store

end Telemetry.Metadata
