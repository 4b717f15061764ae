import Telemetry.Proofs.Metadata.PathMap

/-! The metadata store is one map from path to value and deadline. It keeps values by group and key
and deadlines by path; every call keeps the two in step, answers as the one map does, and tells of
the changes that it makes there.
-/

namespace Telemetry.Metadata

-----------------------------------------------------------------------------------------
-- One change of a store
-----------------------------------------------------------------------------------------

namespace Store

/-- Tells of several changes in order. -/
def announceAll (store : Store) (events : List Event) : Store :=
  events.foldl announce store

/-- Telling of changes concerns the channels alone. -/
theorem channels_announceAll_congr {store other : Store} (h : store.channels = other.channels)
    (events : List Event)
    : (store.announceAll events).channels = (other.announceAll events).channels := by
  induction events generalizing store other with
  | nil => exact h
  | cons event rest ih => exact ih (by simp only [announce, h])

/-- Replacing one key of a group changes the value of its path alone. -/
theorem value?_of_group {store changed : Store} {path : Path} {values : KeyMap Value}
    {held : Option Value}
    (groups : changed.groups = store.groups.insert path.group values)
    (replaced : ∀ key, values.get? key
      = if key = path.key then held else (store.group path.group).get? key)
    (other : Path)
    : changed.value? other = if other = path then held else store.value? other := by
  rw [value?_eq_get?_group, value?_eq_get?_group]
  by_cases same : other = path
  · subst same
    rw [if_pos rfl, group, groups, KeyMap.get?_insert, if_pos rfl, Option.getD_some, replaced,
      if_pos rfl]
  · rw [if_neg same]
    refine get?_group_of_elsewhere groups (fun key ne => (replaced key).trans (if_neg ne)) ?_
    intro both
    exact same (Path.mk.injEq _ _ _ _ ▸ both)

/-- A value that is put at a path. -/
theorem put_of_parseKeyed (store : Store) {text : String} {path : Path} (value : Value)
    (parsed : Path.parseKeyed text = .ok path)
    : store.put text value = .ok (announce { store with
        groups := store.groups.insert path.group ((store.group path.group).insert path.key value)
        deadlines := store.deadlines.erase text } (.put text value.json)) := by
  simp only [Store.put, parsed, bind, Except.bind]
  rfl

/-- The deletion of a path that holds no value. -/
theorem delete_of_absent (store : Store) {text : String} {path : Path}
    (parsed : Path.parseKeyed text = .ok path) (absent : store.value? path = none)
    : store.delete text = .ok { store with deadlines := store.deadlines.erase text } := by
  simp only [Store.delete, parsed, bind, Except.bind, absent]
  rfl

/-- The deletion of a path that holds a value. -/
theorem delete_of_present (store : Store) {text : String} {path : Path} {value : Value}
    (parsed : Path.parseKeyed text = .ok path) (present : store.value? path = some value)
    : store.delete text = .ok (announce { store with
        groups := store.groups.insert path.group ((store.group path.group).erase path.key)
        deadlines := store.deadlines.erase text } (.deleted text)) := by
  simp only [Store.delete, parsed, bind, Except.bind, present]
  rfl

/-- A store that holds at every path what a map holds there. -/
structure Refines (store : Store) (map : PathMap) : Prop where
  values {text : String} {path : Path} (parsed : Path.parse text = .ok path)
    : store.value? path = (map.get? text).map (·.value)
  deadlines (text : String) : store.deadlines.get? text = (map.get? text).bind (·.deadline)
  keyed {text : String} {entry : Entry} (held : map.get? text = some entry)
    : refusal? text = none

namespace Refines

variable {store changed : Store} {map : PathMap} {text : String}

theorem empty : ({} : Store).Refines ∅ where
  values _ := rfl
  deadlines _ := rfl
  keyed held := nomatch held

/-- A store and a map that change at one path in step stay in step. No other path is split like
that one, so that the values at all others are the same.
-/
theorem change (h : store.Refines map) {changedMap : PathMap} {path : Path} (entry : Option Entry)
    (parsed : Path.parseKeyed text = .ok path) (accepted : refusal? text = none)
    (values : ∀ other,
      changed.value? other = if other = path then entry.map (·.value) else store.value? other)
    (deadlines : ∀ other, changed.deadlines.get? other
      = if other = text then entry.bind (·.deadline) else store.deadlines.get? other)
    (mapped : ∀ other, changedMap.get? other = if other = text then entry else map.get? other)
    : changed.Refines changedMap where
  values {other otherPath} parsedOther := by
    rw [values, mapped]
    by_cases same : other = text
    · subst same
      have paths : otherPath = path :=
        Except.ok.inj (parsedOther.symm.trans (Path.parseKeyed_eq_ok parsed).1)
      rw [if_pos paths, if_pos rfl]
    · have paths : otherPath ≠ path := fun eq =>
        same (Path.eq_of_parseKeyed_of_parse parsed (eq ▸ parsedOther)).symm
      rw [if_neg paths, if_neg same, h.values parsedOther]
  deadlines other := by
    rw [deadlines, mapped]
    split
    · rfl
    · exact h.deadlines other
  keyed {other held} bound := by
    rw [mapped] at bound
    split at bound
    next same => exact same ▸ accepted
    next => exact h.keyed bound

/-- The value of a path is that of its entry. -/
theorem get_eq (h : store.Refines map) (text : String)
    : store.get text
      = if text.toList.count '/' < 2 then .error (.tooFewSegments text)
        else .ok ((map.get? text).map (·.value)) := by
  rw [Store.get]
  split
  next few =>
    rw [Path.parse, if_pos few]
    rfl
  next enough =>
    obtain ⟨path, parsed⟩ : ∃ path, Path.parse text = .ok path := by
      rw [Path.parse, if_neg enough]
      exact ⟨_, rfl⟩
    rw [parsed, ← h.values parsed]
    rfl

/-- A path with a deadline holds a value. -/
theorem exists_value (h : store.Refines map) {time : Time}
    (timed : store.deadlines.get? text = some time)
    : ∃ value, store.get text = .ok (some value) := by
  rw [h.deadlines, Option.bind_eq_some_iff] at timed
  obtain ⟨entry, held, _⟩ := timed
  obtain ⟨path, parsed⟩ := Path.exists_parseKeyed (h.keyed held)
  have split := (Path.parseKeyed_eq_ok parsed).1
  refine ⟨entry.value, ?_⟩
  rw [Store.get, split]
  exact congrArg Except.ok ((h.values split).trans (by rw [held]; rfl))

/-- A value that is put replaces what its path held, without a deadline. -/
theorem put (h : store.Refines map) (accepted : refusal? text = none) (value : Value)
    : ∃ changed, store.put text value = .ok changed
      ∧ changed.Refines (map.insert text ⟨value, none⟩)
      ∧ changed.channels = (store.announceAll [.put text value.json]).channels := by
  obtain ⟨path, parsed⟩ := Path.exists_parseKeyed accepted
  refine ⟨_, store.put_of_parseKeyed value parsed, ?_, rfl⟩
  refine h.change (some ⟨value, none⟩) parsed accepted ?_ ?_ ?_
  · exact value?_of_group rfl fun key => KeyMap.get?_insert _ _ _ _
  · exact fun other => KeyMap.get?_erase _ _ _
  · exact fun other => KeyMap.get?_insert _ _ _ _

/-- A value that is put for a while replaces what its path held together with the deadline. -/
theorem putFor (h : store.Refines map) (accepted : refusal? text = none) (now : Time)
    (lifetime : Duration) (value : Value)
    : ∃ changed, store.putFor now lifetime text value = .ok changed
      ∧ changed.Refines (map.insert text ⟨value, some (now + lifetime)⟩)
      ∧ changed.channels = (store.announceAll [.put text value.json]).channels := by
  obtain ⟨path, parsed⟩ := Path.exists_parseKeyed accepted
  obtain ⟨stored, put, refines, channels⟩ := h.put accepted value
  let timed : Store := { stored with deadlines := stored.deadlines.insert text (now + lifetime) }
  have done : store.putFor now lifetime text value = .ok timed := by
    simp only [Store.putFor, put, bind, Except.bind]
    rfl
  refine ⟨timed, done, ?_, channels⟩
  refine refines.change (some ⟨value, some (now + lifetime)⟩) parsed accepted ?_ ?_ ?_
  · intro other
    have here : stored.value? path = some value := by
      rw [refines.values (Path.parseKeyed_eq_ok parsed).1, KeyMap.get?_insert, if_pos rfl]
      rfl
    split
    next same => exact same ▸ here
    next => rfl
  · exact fun other => KeyMap.get?_insert _ _ _ _
  · intro other
    simp only [KeyMap.get?_insert]
    split <;> rfl

/-- A deletion takes away what its path held, and tells of it if there was something. -/
theorem delete (h : store.Refines map) (accepted : refusal? text = none)
    : ∃ changed, store.delete text = .ok changed ∧ changed.Refines (map.erase text)
      ∧ changed.channels = (store.announceAll (map.changes (.delete text))).channels := by
  obtain ⟨path, parsed⟩ := Path.exists_parseKeyed accepted
  have values := h.values (Path.parseKeyed_eq_ok parsed).1
  have erased (other : String)
      : (map.erase text).get? other = if other = text then none else map.get? other :=
    KeyMap.get?_erase map text other
  have noDeadline (other : String)
      : (store.deadlines.erase text).get? other
        = if other = text then none else store.deadlines.get? other :=
    KeyMap.get?_erase _ _ _
  cases held : map.get? text with
  | none =>
      have absent : store.value? path = none := by rw [values, held]; rfl
      have quiet : map.changes (.delete text) = [] := by
        simp [PathMap.changes, KeyMap.contains, held]
      rw [quiet]
      refine ⟨_, store.delete_of_absent parsed absent, ?_, rfl⟩
      refine h.change none parsed accepted ?_ noDeadline erased
      intro other
      split
      next same => exact same ▸ absent
      next => rfl
  | some entry =>
      have present : store.value? path = some entry.value := by rw [values, held]; rfl
      have told : map.changes (.delete text) = [.deleted text] := by
        simp [PathMap.changes, KeyMap.contains, held]
      rw [told]
      refine ⟨_, store.delete_of_present parsed present, ?_, rfl⟩
      refine h.change none parsed accepted ?_ noDeadline erased
      exact value?_of_group rfl fun key => KeyMap.get?_erase _ _ _

-----------------------------------------------------------------------------------------
-- Expiry
-----------------------------------------------------------------------------------------

/-- The paths that are due are those whose entries are. -/
theorem due_eq (h : store.Refines map) (now : Time) : store.due now = (map.due now).keys := by
  refine KeyMap.keys_eq_of_contains fun text => ?_
  simp only [KeyMap.contains, PathMap.due, KeyMap.get?_filter, h.deadlines]
  cases map.get? text with
  | none => rfl
  | some entry =>
      cases deadline : entry.deadline with
      | none => simp [Option.filter, Entry.isDue, deadline]
      | some time =>
          by_cases come : time ≤ now <;> simp [Option.filter, Entry.isDue, deadline, come]

/-- Deletions of different paths that hold something take all of it away and tell of each, by
induction over the paths.
-/
theorem foldlM_delete (h : store.Refines map) {texts : List String} (distinct : texts.Nodup)
    (held : ∀ text ∈ texts, map.contains text = true)
    : ∃ changed, texts.foldlM Store.delete store = .ok changed
      ∧ changed.Refines (map.filter fun text _ => !texts.contains text)
      ∧ changed.channels = (store.announceAll (texts.map .deleted)).channels := by
  induction texts generalizing store map with
  | nil =>
      have all : map.filter (fun text _ => !([] : List String).contains text) = map :=
        KeyMap.filter_eq_self fun _ _ _ => rfl
      exact ⟨store, rfl, all.symm ▸ h, rfl⟩
  | cons text rest ih =>
      obtain ⟨fresh, others⟩ := List.nodup_cons.mp distinct
      have here := held text List.mem_cons_self
      obtain ⟨entry, bound⟩ := Option.isSome_iff_exists.mp here
      obtain ⟨middle, first, refines, told⟩ := h.delete (h.keyed bound)
      have stillHeld : ∀ other ∈ rest, (map.erase text).contains other = true := by
        intro other member
        have ne : other ≠ text := fun same => fresh (same ▸ member)
        rw [KeyMap.contains, KeyMap.get?_erase, if_neg ne]
        exact held other (List.mem_cons_of_mem _ member)
      obtain ⟨changed, later, refinesLater, toldLater⟩ := ih refines others stillHeld
      refine ⟨changed, ?_, ?_, ?_⟩
      · rw [List.foldlM_cons, first]
        exact later
      · have left : (map.erase text).filter (fun other _ => !rest.contains other)
            = map.filter fun other _ => !(text :: rest).contains other := by
          refine KeyMap.ext_get? fun other => ?_
          rw [KeyMap.get?_filter, KeyMap.get?_filter, KeyMap.get?_erase]
          by_cases same : other = text
          · cases map.get? other <;> simp [same, Option.filter]
          · simp [same]
        exact left ▸ refinesLater
      · have one : map.changes (.delete text) = [.deleted text] := by
          simp [PathMap.changes, here]
        rw [one] at told
        exact toldLater.trans (channels_announceAll_congr told _)

/-- What is due expires, is told of, and nothing else changes. -/
theorem expire (h : store.Refines map) (now : Time)
    : ∃ changed, store.expire now = .ok ((map.due now).size, changed)
      ∧ changed.Refines (map.filter fun _ entry => !entry.isDue now)
      ∧ changed.channels = (store.announceAll ((map.due now).keys.map .deleted)).channels := by
  have isDue (text : String)
      : (map.due now).keys.contains text = ((map.get? text).any (·.isDue now)) := by
    rw [KeyMap.contains_keys, KeyMap.contains, PathMap.due, KeyMap.get?_filter]
    cases map.get? text with
    | none => rfl
    | some entry => cases due : entry.isDue now <;> simp [Option.filter, due]
  have held : ∀ text ∈ (map.due now).keys, map.contains text = true := by
    intro text member
    have due := isDue text
    rw [List.contains_iff_mem.mpr member] at due
    rw [KeyMap.contains]
    cases bound : map.get? text with
    | none => rw [bound] at due; cases due
    | some entry => rfl
  have distinct : (map.due now).keys.Nodup := (map.due now).nodup_keys
  obtain ⟨changed, run, refines, told⟩ := h.foldlM_delete distinct held
  have left : (map.filter fun text _ => !(map.due now).keys.contains text)
      = map.filter fun _ entry => !entry.isDue now :=
    KeyMap.filter_congr fun text entry bound => by rw [isDue, bound, Option.any_some]
  refine ⟨changed, ?_, left ▸ refines, told⟩
  simp only [Store.expire, h.due_eq, run, bind, Except.bind]
  exact congrArg (fun count => Except.ok (count, changed)) (List.length_map _)

-----------------------------------------------------------------------------------------
-- Every call
-----------------------------------------------------------------------------------------

/-- A change that is refused, or else made by a store and a map in step, is answered alike and keeps
the two in step.
-/
theorem adopt (h : store.Refines map) {result : Except MetadataError Store} {changedMap : PathMap}
    {events : List Event}
    (refused : ∀ error, refusal? text = some error → result = .error error ∧ events = [])
    (accepted : refusal? text = none → ∃ changed, result = .ok changed
      ∧ changed.Refines changedMap ∧ changed.channels = (store.announceAll events).channels)
    : (store.adopt result).1 = (map.adopt text changedMap).1
      ∧ (store.adopt result).2.Refines (map.adopt text changedMap).2
      ∧ (store.adopt result).2.channels = (store.announceAll events).channels := by
  unfold PathMap.adopt
  cases refusal : refusal? text with
  | some error =>
      obtain ⟨rfl, rfl⟩ := refused error refusal
      exact ⟨rfl, h, rfl⟩
  | none =>
      obtain ⟨changed, rfl, refines, told⟩ := accepted refusal
      exact ⟨rfl, refines, told⟩

/-- A store and a map in step answer a call alike, and the store tells of the changes that the call
makes to the map.
-/
theorem call (h : store.Refines map) (call : Call)
    : (store.call call).1 = (map.call call).1
      ∧ (store.call call).2.Refines (map.call call).2
      ∧ (store.call call).2.channels = (store.announceAll (map.changes call)).channels := by
  cases call with
  | get text =>
      simp only [Store.call, PathMap.call, h.get_eq]
      split <;> exact ⟨rfl, h, rfl⟩
  | put text value =>
      refine h.adopt (fun error refusal => ?_) (fun accepted => ?_)
      · refine ⟨?_, by simp [PathMap.changes, refusal]⟩
        simp only [Store.put, Path.parseKeyed_of_refusal? refusal]
        rfl
      · simpa [PathMap.changes, accepted] using h.put accepted value
  | putFor now lifetime text value =>
      refine h.adopt (fun error refusal => ?_) (fun accepted => ?_)
      · refine ⟨?_, by simp [PathMap.changes, refusal]⟩
        simp only [Store.putFor, Store.put, Path.parseKeyed_of_refusal? refusal]
        rfl
      · simpa [PathMap.changes, accepted] using h.putFor accepted now lifetime value
  | delete text =>
      refine h.adopt (fun error refusal => ?_) (fun accepted => h.delete accepted)
      refine ⟨?_, ?_⟩
      · simp only [Store.delete, Path.parseKeyed_of_refusal? refusal]
        rfl
      · have absent : map.get? text = none := by
          cases held : map.get? text with
          | none => rfl
          | some entry => cases refusal.symm.trans (h.keyed held)
        simp [PathMap.changes, KeyMap.contains, absent]
  | expire now =>
      obtain ⟨changed, run, refines, told⟩ := h.expire now
      simp only [Store.call, run]
      exact ⟨rfl, refines, told⟩

/-- Stores and maps in step answer every sequence of calls alike and stay in step, by induction over
the calls.
-/
theorem afterCalls (h : store.Refines map) (calls : List Call)
    : store.answers calls = map.answers calls
      ∧ (store.afterCalls calls).Refines (map.afterCalls calls) := by
  induction calls generalizing store map with
  | nil => exact ⟨rfl, h⟩
  | cons call rest ih =>
      obtain ⟨same, refines, _⟩ := h.call call
      obtain ⟨later, last⟩ := ih refines
      exact ⟨by simp only [Store.answers, PathMap.answers, same, later], last⟩

end Refines

/-- A change of a path that cannot hold a value is refused and leaves the store as it was. -/
theorem call_of_refusal? (store : Store) {call : Call} {text : String} {error : MetadataError}
    (target : call.target? = some text) (refusal : refusal? text = some error)
    : store.call call = (.done (.error error), store) := by
  have keyless := Path.parseKeyed_of_refusal? refusal
  cases call with
  | get | expire => cases target
  | put | putFor | delete =>
      cases target
      simp only [Store.call, Store.put, Store.putFor, Store.delete, keyless]
      rfl

/-- The metadata store is one map from path to value and deadline. Every sequence of calls is
answered as by the map, of which each path holds what the calls for that path alone leave there;
deadlines belong to paths that hold a value, a refused change leaves the store as it was, and no two
texts name one path that can hold a value.
-/
theorem store_refines_path_map (calls : List Call)
    : let store := ({} : Store).afterCalls calls
      let map := PathMap.afterCalls ∅ calls
      ({} : Store).answers calls = PathMap.answers ∅ calls
      ∧ (∀ text,
          store.get text = (if text.toList.count '/' < 2 then .error (.tooFewSegments text)
            else .ok ((map.get? text).map (·.value)))
          ∧ store.deadlines.get? text = (map.get? text).bind (·.deadline)
          ∧ map.get? text = calls.foldl (Call.effect text) none)
      ∧ (∀ text time, store.deadlines.get? text = some time →
          ∃ value, store.get text = .ok (some value))
      ∧ (∀ call text error, call.target? = some text → refusal? text = some error →
          store.call call = (.done (.error error), store))
      ∧ ∀ text other path, Path.parseKeyed text = .ok path → Path.parse other = .ok path →
          text = other := by
  intro store map
  obtain ⟨answers, refines⟩ := Refines.empty.afterCalls calls
  refine ⟨answers, fun text => ⟨refines.get_eq text, refines.deadlines text, ?_⟩,
    fun text time => refines.exists_value, fun call text error => store.call_of_refusal?,
    fun text other path => Path.eq_of_parseKeyed_of_parse⟩
  exact PathMap.get?_afterCalls ∅ calls text

/-- A value that is put anew loses its deadline and one that is not expires, while a third waits for
its own; the text of a group is refused, and an empty segment makes another path.
-/
theorem store_refines_path_map_after_expiry
    : let calls : List Call :=
        [.putFor 0 5 "/a/b/c" (.int 1), .putFor 0 5 "/a/b/d" (.int 2),
          .putFor 0 9 "/a/b/c/e" (.int 3), .put "/a/b/c" (.int 4), .expire 5]
      let store := ({} : Store).afterCalls calls
      store.get "/a/b/c" = .ok (some (.int 4))
        ∧ store.get "/a/b/d" = .ok none
        ∧ store.deadlines.get? "/a/b/c/e" = some 9
        ∧ (∃ value, store.get "/a/b/c/e" = .ok (some value))
        ∧ refusal? "/a/b" = some (.noKey "/a/b")
        ∧ store.call (.put "/a/b" .null) = (.done (.error (.noKey "/a/b")), store)
        ∧ Path.parseKeyed "/a/b/c" = .ok ⟨"/a/b", "c"⟩
        ∧ Path.parse "/a/b//c" ≠ .ok ⟨"/a/b", "c"⟩ := by
  intro calls store
  obtain ⟨_, held, timed, refused, apart⟩ := store_refines_path_map calls
  have deadline : store.deadlines.get? "/a/b/c/e" = some 9 := by
    decide +kernel
  have refusal : refusal? "/a/b" = some (.noKey "/a/b") := by decide
  have keyed : Path.parseKeyed "/a/b/c" = .ok ⟨"/a/b", "c"⟩ := by
    with_unfolding_all rfl
  refine ⟨?_, ?_, deadline, timed _ 9 deadline, refusal,
    refused (.put "/a/b" .null) _ _ rfl refusal, keyed, ?_⟩
  · rw [(held "/a/b/c").1]
    with_unfolding_all rfl
  · rw [(held "/a/b/d").1]
    with_unfolding_all rfl
  · exact fun same => absurd (apart _ _ _ keyed same) (by decide)

end Store

end Telemetry.Metadata
