import Telemetry.Proofs.Metadata.Listings
import Telemetry.Proofs.Results

/-! Changes of the metadata store and the channels that tell of them. A call either sends on the
channel of a prefix or leaves the listing below that prefix as it was, so a reader with nothing
left to read can rely on the listing that it read last.
-/

namespace Telemetry.Metadata.Store

-----------------------------------------------------------------------------------------
-- Channels and listings after a call
-----------------------------------------------------------------------------------------

/-- Replacing one key of a group leaves all other values where they are. -/
theorem get?_group_of_elsewhere {store changed : Store} {path : Path} {values : KeyMap Value}
    (groups : changed.groups = store.groups.insert path.group values)
    (same : ∀ key, key ≠ path.key → values.get? key = (store.group path.group).get? key)
    {name key : String} (h : ¬ (name = path.group ∧ key = path.key))
    : (changed.group name).get? key = (store.group name).get? key := by
  unfold group at *
  rw [groups, KeyMap.get?_insert]
  split
  next here =>
    subst here
    exact same key fun eq => h ⟨rfl, eq⟩
  next => rfl

/-- A later store: all channels are kept, and a listing has changed only if the channel of its
prefix has sent something since.
-/
def Heard (before after : Store) : Prop :=
  ∀ below channel, before.channels.get? below = some channel →
    ∃ later, after.channels.get? below = some later ∧ channel.sent ≤ later.sent
      ∧ (later.sent = channel.sent → after.bulk below = before.bulk below)

namespace Heard

theorem refl (store : Store) : store.Heard store :=
  fun _ channel found => ⟨channel, found, Nat.le_refl _, fun _ => rfl⟩

/-- Two steps that send nothing change nothing, and so does no pair of steps. -/
theorem trans {first second third : Store} (hf : first.Heard second) (hs : second.Heard third)
    : first.Heard third := by
  intro below channel found
  obtain ⟨middle, foundMiddle, lf, quietFirst⟩ := hf below channel found
  obtain ⟨last, foundLast, ls, quietSecond⟩ := hs below middle foundMiddle
  refine ⟨last, foundLast, Nat.le_trans lf ls, ?_⟩
  intro quiet
  have quietMiddle : middle.sent = channel.sent := by omega
  exact (quietSecond (by omega)).trans (quietFirst quietMiddle)

/-- Groups and channels are all that matters to readers. -/
theorem of_groups_eq {before after other : Store} (h : before.Heard after)
    (groups : other.groups = after.groups) (channels : other.channels = after.channels)
    : before.Heard other := by
  intro below channel found
  obtain ⟨later, kept, sent, quiet⟩ := h below channel found
  refine ⟨later, channels ▸ kept, sent, ?_⟩
  have same : other.bulk below = after.bulk below := by
    simp only [bulk, group, groups]
  exact fun same' => same.trans (quiet same')

/-- A change of one path that is announced is heard below every prefix that it lies under. -/
theorem announce {before changed : Store} {event : Event} {path : Path}
    (parsed : Path.parseKeyed event.path = .ok path) (channels : changed.channels = before.channels)
    (others : ∀ name key, ¬ (name = path.group ∧ key = path.key) →
      (changed.group name).get? key = (before.group name).get? key)
    : before.Heard (changed.announce event) := by
  intro below channel found
  have looked : (changed.announce event).channels.get? below
      = some (if startsWith event.path below then channel.send event else channel) := by
    simp only [Store.announce, KeyMap.get?_mapValues, channels, found, Option.map_some]
  refine ⟨_, looked, ?_⟩
  by_cases told : startsWith event.path below = true
  · rw [if_pos told]
    refine ⟨Nat.le_succ _, fun quiet => absurd quiet ?_⟩
    exact Nat.succ_ne_self _
  · rw [if_neg told]
    refine ⟨Nat.le_refl _, fun _ => bulk_congr ?_⟩
    intro start prefixed key listed
    refine others start.group key ?_
    rintro ⟨group, atKey⟩
    exact told (startsWith_of_group_of_key parsed prefixed group.symm (atKey ▸ listed))

end Heard

/-- A value that is put is heard of, and its path has no deadline any more. -/
theorem put_eq_ok {store next : Store} {text : String} {value : Value}
    (h : store.put text value = .ok next)
    : store.Heard next ∧ next.deadlines = store.deadlines.erase text
      ∧ ∃ path, Path.parseKeyed text = .ok path := by
  obtain ⟨path, parsed, eq⟩ := bind_eq_ok.mp h
  cases eq
  refine ⟨.announce parsed rfl fun name key elsewhere => ?_, rfl, path, parsed⟩
  refine get?_group_of_elsewhere rfl ?_ elsewhere
  intro other ne
  rw [KeyMap.get?_insert, if_neg ne]

theorem putFor_eq_ok {store next : Store} {now : Time} {lifetime : Duration} {text : String}
    {value : Value} (h : store.putFor now lifetime text value = .ok next)
    : store.Heard next ∧ next.deadlines
        = (store.deadlines.erase text).insert text (now + lifetime)
      ∧ ∃ path, Path.parseKeyed text = .ok path := by
  obtain ⟨stored, put, eq⟩ := bind_eq_ok.mp h
  cases eq
  obtain ⟨heard, deadlines, keyed⟩ := put_eq_ok put
  refine ⟨heard.of_groups_eq rfl rfl, ?_, keyed⟩
  exact deadlines ▸ rfl

/-- A removal is heard of if there was a value, and changes no listing otherwise. -/
theorem delete_eq_ok {store next : Store} {text : String} (h : store.delete text = .ok next)
    : store.Heard next ∧ next.deadlines = store.deadlines.erase text := by
  obtain ⟨path, parsed, rest⟩ := bind_eq_ok.mp h
  dsimp only at rest
  split at rest
  · cases rest
    refine ⟨.announce parsed rfl fun name key elsewhere => ?_, rfl⟩
    refine get?_group_of_elsewhere rfl ?_ elsewhere
    intro other ne
    rw [KeyMap.get?_erase, if_neg ne]
  · cases rest
    exact ⟨(Heard.refl store).of_groups_eq rfl rfl, rfl⟩

/-- Only a path that can hold a value can be removed, and every such path can. -/
theorem delete_isOk (store : Store) {text : String} {path : Path}
    (keyed : Path.parseKeyed text = .ok path)
    : ∃ next, store.delete text = .ok next := by
  unfold delete
  simp only [keyed, bind, Except.bind]
  cases store.value? path with
  | some _ => exact ⟨_, rfl⟩
  | none => exact ⟨_, rfl⟩

/-- Opening a stream tells nobody anything and lists what was listed. -/
theorem heard_watch (store : Store) (below : String) : store.Heard (store.watch below).2 := by
  intro other channel found
  refine ⟨channel, ?_, Nat.le_refl _, fun _ => rfl⟩
  simp only [watch, Store.channel, KeyMap.get?_insert]
  split
  next same => simp [← same, found]
  next => exact found

-----------------------------------------------------------------------------------------
-- Deadlines
-----------------------------------------------------------------------------------------

/-- Every path with a deadline is one that can hold a value. -/
def DeadlinesKeyed (store : Store) : Prop :=
  ∀ text time, store.deadlines.get? text = some time → ∃ path, Path.parseKeyed text = .ok path

theorem DeadlinesKeyed.erase {store next : Store} {text : String} (h : store.DeadlinesKeyed)
    (deadlines : next.deadlines = store.deadlines.erase text)
    : next.DeadlinesKeyed := by
  intro other time found
  rw [deadlines, KeyMap.get?_erase] at found
  split at found
  · cases found
  · exact h other time found

theorem DeadlinesKeyed.insert {store next : Store} {text : String} {time : Time}
    (h : store.DeadlinesKeyed) (keyed : ∃ path, Path.parseKeyed text = .ok path)
    (deadlines : next.deadlines = (store.deadlines.erase text).insert text time)
    : next.DeadlinesKeyed := by
  intro other due found
  rw [deadlines, KeyMap.get?_insert, KeyMap.get?_erase] at found
  split at found
  next same => exact same ▸ keyed
  next => exact h other due found

/-- Removing paths one after the other is heard of, by induction over the paths. -/
theorem foldlM_delete {store : Store} {texts : List String}
    (keyed : ∀ text ∈ texts, ∃ path, Path.parseKeyed text = .ok path) (h : store.DeadlinesKeyed)
    : ∃ next, texts.foldlM delete store = .ok next ∧ store.Heard next ∧ next.DeadlinesKeyed := by
  induction texts generalizing store with
  | nil => exact ⟨store, rfl, .refl store, h⟩
  | cons text rest ih =>
      obtain ⟨path, parsed⟩ := keyed text List.mem_cons_self
      obtain ⟨middle, removed⟩ := store.delete_isOk parsed
      obtain ⟨heard, deadlines⟩ := delete_eq_ok removed
      obtain ⟨next, run, later, fine⟩ :=
        ih (fun other member => keyed other (List.mem_cons_of_mem _ member)) (h.erase deadlines)
      refine ⟨next, ?_, heard.trans later, fine⟩
      rw [List.foldlM_cons, removed]
      exact run

/-- What is due expires without an error. -/
theorem expire_isOk {store : Store} (h : store.DeadlinesKeyed) (now : Time)
    : ∃ count next, store.expire now = .ok (count, next) ∧ store.Heard next
      ∧ next.DeadlinesKeyed := by
  have keyed : ∀ text ∈ store.due now, ∃ path, Path.parseKeyed text = .ok path := by
    intro text member
    obtain ⟨⟨_, time⟩, kept, rfl⟩ := List.mem_map.mp member
    have listed := (List.mem_filter.mp kept).1
    exact h _ time (KeyMap.get?_eq_some_iff.mpr listed)
  obtain ⟨next, run, heard, fine⟩ := foldlM_delete keyed h
  refine ⟨(store.due now).length, next, ?_, heard, fine⟩
  simp only [expire, run, bind, Except.bind]
  rfl

end Telemetry.Metadata.Store
