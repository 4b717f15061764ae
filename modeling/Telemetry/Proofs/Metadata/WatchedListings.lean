import Telemetry.Proofs.Metadata.WatchStreams

/-! Listings and streams below one prefix. A listing splits paths into groups and keys, a stream
compares texts; below a prefix that has a third slash both are about the same paths.
-/

namespace Telemetry.Metadata

-----------------------------------------------------------------------------------------
-- What is listed
-----------------------------------------------------------------------------------------

namespace Store

/-- Whether a listing below a prefix shows a path. -/
def Lists (store : Store) (below text : String) : Prop :=
  ∃ entries written, store.bulk below = .ok entries ∧ (text, written) ∈ entries

/-- A path that holds a value is listed below the prefixes that it starts with. -/
theorem lists_iff {store : Store} {below text : String} {kept : Value}
    (slashes : 2 < below.toList.count '/') (live : store.get text = .ok (some kept))
    : store.Lists below text ↔ startsWith text below = true := by
  obtain ⟨entries, listing, covers⟩ := store.bulk_eq_ok slashes
  constructor
  · rintro ⟨found, written, listed, member⟩
    cases listing.symm.trans listed
    exact ((covers text written).mp member).1
  · intro starts
    exact ⟨entries, kept.json, listing, (covers text _).mpr ⟨starts, kept, live, rfl⟩⟩

end Store

-----------------------------------------------------------------------------------------
-- The streams of a session
-----------------------------------------------------------------------------------------

namespace Session

/-- Whether the store of a session holds what a map holds and every stream is kept track of. -/
structure IsTracked (session : Session) (map : PathMap) : Prop where
  refines : session.store.Refines map
  readers : ∀ index reader, session.readers[index]? = some reader →
    ∃ unread, Tracks session map index reader.stream.below ⟨reader.items, unread⟩

namespace IsTracked

variable {session : Session} {map : PathMap}

/-- A step keeps track of the streams that there are. -/
theorem step_of_lt (h : session.IsTracked map) (step : SessionStep) {index : Nat}
    (within : index < session.readers.length) {reader : Reader}
    (found : (session.step step).readers[index]? = some reader)
    : ∃ unread, Tracks (session.step step) (step.onMap map) index reader.stream.below
        ⟨reader.items, unread⟩ := by
  obtain ⟨unread, tracked⟩ := h.readers index _ (List.getElem?_eq_getElem within)
  have next := tracked.step step
  obtain ⟨_, _, _, same, _⟩ := next.follows
  cases found.symm.trans same
  exact ⟨_, next⟩

/-- Every step keeps track of all streams. -/
theorem step (h : session.IsTracked map) (step : SessionStep)
    : (session.step step).IsTracked (step.onMap map) := by
  cases step with
  | call made =>
      refine ⟨(h.refines.call made).2.1, fun index reader found => ?_⟩
      exact h.step_of_lt (.call made) (List.getElem?_eq_some_iff.mp found).1 found
  | read other =>
      refine ⟨h.refines, fun index reader found => ?_⟩
      have within := (List.getElem?_eq_some_iff.mp found).1
      simp only [Session.step, List.length_modify] at within
      exact h.step_of_lt (.read other) within found
  | watch below =>
      refine ⟨h.refines.watch below, fun index reader found => ?_⟩
      have within := (List.getElem?_eq_some_iff.mp found).1
      simp only [Session.step, List.length_append, List.length_singleton] at within
      by_cases old : index < session.readers.length
      · exact h.step_of_lt (.watch below) old found
      · obtain rfl : index = session.readers.length := by omega
        have opened := Tracks.watch h.refines below
        obtain ⟨_, _, _, same, _⟩ := opened.follows
        cases found.symm.trans same
        exact ⟨[], opened⟩

/-- A run keeps track of all streams, by induction over its steps. -/
theorem run (h : session.IsTracked map) (steps : List SessionStep)
    : (session.run steps).IsTracked (steps.foldl SessionStep.onMap map) := by
  induction steps generalizing session map with
  | nil => exact h
  | cons step rest ih => exact ih (h.step step)

end IsTracked

theorem isTracked_run (steps : List SessionStep)
    : (({} : Session).run steps).IsTracked (steps.foldl SessionStep.onMap ∅) :=
  IsTracked.run ⟨.empty, fun _ _ found => absurd found (by simp)⟩ steps

/-- Listings and streams below a prefix with a third slash are about the same paths. In every
session a listing shows in ascending order, once each, the paths that hold a value and start with
the prefix, with the JSON texts of their stored values. Of the changes that a call makes, each
stream of the prefix is to yield those of the paths that are listed below the prefix in any session
in which they hold a value.
-/
theorem listings_match_notices (steps : List SessionStep) {below : String}
    (slashes : 2 < below.toList.count '/')
    : let session := ({} : Session).run steps
      let map := steps.foldl SessionStep.onMap ∅
      (∃ entries, session.store.bulk below = .ok entries
        ∧ entries.Pairwise (fun one other => one.1 < other.1)
        ∧ ∀ text written, (text, written) ∈ entries ↔ startsWith text below = true
          ∧ ∃ kept, session.store.get text = .ok (some kept) ∧ kept.json = written)
      ∧ ∀ index reader, session.readers[index]? = some reader → reader.stream.below = below →
          ∃ unread, Tracks session map index below ⟨reader.items, unread⟩
            ∧ ∀ call, ∃ notices, notices.Sublist (map.changes call)
              ∧ Tracks (session.step (.call call)) (map.call call).2 index below
                  ⟨reader.items, unread ++ notices⟩
              ∧ ∀ event ∈ map.changes call, ∀ others kept,
                  (({} : Session).run others).store.get event.path = .ok (some kept) →
                    (event ∈ notices
                      ↔ (({} : Session).run others).store.Lists below event.path) := by
  intro session map
  have tracked : session.IsTracked map := isTracked_run steps
  constructor
  · obtain ⟨entries, listing, covers⟩ := session.store.bulk_eq_ok slashes
    exact ⟨entries, listing, Store.pairwise_bulk listing, covers⟩
  · rintro index reader found rfl
    obtain ⟨unread, follows⟩ := tracked.readers index reader found
    refine ⟨unread, follows, fun call => ⟨_, List.filter_sublist, follows.step (.call call), ?_⟩⟩
    intro event made others kept live
    rw [Store.lists_iff slashes live, List.mem_filter]
    simp [made]

/-- Below a prefix with an empty segment a path with that segment is listed and its deletion told,
and a path without it is neither.
-/
theorem listings_match_notices_empty_segment
    : let steps : List SessionStep :=
        [.call (.put "/a/b//c" (.int 1)), .watch "/a/b//", .call (.put "/a/b/c" (.int 2))]
      let session := ({} : Session).run steps
      let map := steps.foldl SessionStep.onMap ∅
      2 < "/a/b//".toList.count '/'
      ∧ session.store.bulk "/a/b//" = .ok [("/a/b//c", ⟨"1"⟩)]
      ∧ ∃ unread notices, Tracks session map 0 "/a/b//" ⟨[], unread⟩
        ∧ Tracks (session.step (.call (.delete "/a/b//c"))) (map.call (.delete "/a/b//c")).2 0
            "/a/b//" ⟨[], unread ++ notices⟩
        ∧ notices = [.deleted "/a/b//c"] := by
  intro steps session map
  have slashes : 2 < "/a/b//".toList.count '/' := by decide
  obtain ⟨_, streams⟩ := listings_match_notices steps slashes
  have opened : session.readers[0]? = some ⟨⟨"/a/b//", 0⟩, []⟩ := by
    with_unfolding_all rfl
  obtain ⟨unread, follows, told⟩ := streams 0 _ opened rfl
  obtain ⟨notices, fewer, tracked, agree⟩ := told (.delete "/a/b//c")
  have changes : map.changes (.delete "/a/b//c") = [.deleted "/a/b//c"] := by
    with_unfolding_all rfl
  have live : session.store.get "/a/b//c" = .ok (some (.int 1)) := by
    with_unfolding_all rfl
  have listing : session.store.bulk "/a/b//" = .ok [("/a/b//c", ⟨"1"⟩)] := by
    with_unfolding_all rfl
  have shown : session.store.Lists "/a/b//" "/a/b//c" :=
    ⟨_, _, listing, List.mem_singleton_self _⟩
  have made : Event.deleted "/a/b//c" ∈ map.changes (.delete "/a/b//c") :=
    changes ▸ List.mem_singleton_self _
  have member := (agree _ made steps _ live).mpr shown
  refine ⟨slashes, listing, unread, notices, follows, tracked, ?_⟩
  exact (fewer.eq_of_length_le (changes ▸ List.length_pos_of_mem member)).trans changes

end Session

end Telemetry.Metadata
