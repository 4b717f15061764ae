import Telemetry.Proofs.Metadata.ChannelReaders
import Telemetry.Proofs.Metadata.StoreRefinement

/-! What streams of changes yield. Streams share the channel of their prefix, which keeps the last
changes only; each of them yields what a queue of its own would, and accounts for every change
below its prefix since it was opened, whatever is read from the others.
-/

namespace Telemetry.Metadata

-----------------------------------------------------------------------------------------
-- Sessions of calls and streams
-----------------------------------------------------------------------------------------

/-- A step of a session: a call of the store, a new stream of the changes below a prefix, or the
next item of a stream, which is named by its place in the order of opening.
-/
inductive SessionStep where
  | call (call : Call)
  | watch (below : String)
  | read (index : Nat)

/-- A stream and what it has yielded so far. -/
structure Reader where
  stream : Stream
  items : List (Reading Event) := []

/-- A store and the streams that were opened on it. -/
structure Session where
  store : Store := {}
  readers : List Reader := []

/-- The reader after the next item of its stream, if there is one. -/
def Reader.advance (store : Store) (reader : Reader) : Reader :=
  match store.read? reader.stream with
  | none => reader
  | some (item, stream) => ⟨stream, reader.items ++ [item]⟩

namespace Session

def step (session : Session) : SessionStep → Session
  | .call call => { session with store := (session.store.call call).2 }
  | .watch below =>
      let (stream, store) := session.store.watch below
      ⟨store, session.readers ++ [⟨stream, []⟩]⟩
  | .read index =>
      { session with readers := session.readers.modify index (Reader.advance session.store) }

def run (session : Session) (steps : List SessionStep) : Session :=
  steps.foldl step session

end Session

namespace SessionStep

def opens : SessionStep → Bool
  | watch _ => true
  | _ => false

/-- Whether a step reads from another stream than that of an index. -/
def readsOther (index : Nat) : SessionStep → Bool
  | read other => other != index
  | _ => false

/-- The changes below a prefix that a step makes to a map. -/
def changes (below : String) (map : PathMap) : SessionStep → List Event
  | .call made => (map.changes made).filter fun event => startsWith event.path below
  | _ => []

def onMap (map : PathMap) : SessionStep → PathMap
  | .call made => (map.call made).2
  | _ => map

/-- The changes below a prefix that steps make one after the other. -/
def allChanges (below : String) : PathMap → List SessionStep → List Event
  | _, [] => []
  | map, step :: rest => step.changes below map ++ allChanges below (step.onMap map) rest

end SessionStep

/-- What a stream has yielded and which changes it has yet to yield. -/
structure Backlog where
  items : List (Reading Event) := []
  unread : List Event := []

namespace Backlog

/-- The backlog after the next item, if there is one. -/
def advance (backlog : Backlog) : Backlog :=
  match nextOf? backlog.unread with
  | none => backlog
  | some (item, unread) => ⟨backlog.items ++ [item], unread⟩

/-- The backlog of the stream of an index and a prefix after a step that finds a map. -/
def step (index : Nat) (below : String) (map : PathMap) (backlog : Backlog)
    : SessionStep → Backlog
  | .read other => if other = index then backlog.advance else backlog
  | step => { backlog with unread := backlog.unread ++ step.changes below map }

def run (index : Nat) (below : String) : PathMap → Backlog → List SessionStep → Backlog
  | _, backlog, [] => backlog
  | map, backlog, step :: rest =>
      run index below (step.onMap map) (backlog.step index below map step) rest

end Backlog

-----------------------------------------------------------------------------------------
-- The channel of a prefix after a call
-----------------------------------------------------------------------------------------

namespace Store

/-- The channel of a prefix carries the changes below it. -/
theorem get?_channels_announceAll (store : Store) (events : List Event) (below : String)
    : (store.announceAll events).channels.get? below
      = (store.channels.get? below).map fun channel =>
          (events.filter fun event => startsWith event.path below).foldl Channel.send channel := by
  induction events generalizing store with
  | nil => simp [announceAll]
  | cons event rest ih =>
      have step : store.announceAll (event :: rest) = (store.announce event).announceAll rest := rfl
      rw [step, ih, announce, KeyMap.get?_mapValues, Option.map_map]
      congr 1
      funext channel
      by_cases told : startsWith event.path below = true <;> simp [told]

/-- Opening a stream leaves the channels that there are. -/
theorem get?_channels_watch (store : Store) (other : String) {below : String}
    {channel : Channel Event} (found : store.channels.get? below = some channel)
    : (store.watch other).2.channels.get? below = some channel := by
  simp only [watch, KeyMap.get?_insert]
  split
  next same => simp [Store.channel, ← same, found]
  next => exact found

theorem Refines.watch {store : Store} {map : PathMap} (h : store.Refines map) (below : String)
    : (store.watch below).2.Refines map :=
  ⟨h.values, h.deadlines, h.keyed⟩

end Store

-----------------------------------------------------------------------------------------
-- One stream of a session
-----------------------------------------------------------------------------------------

/-- Whether the stream of an index has yielded the items of a backlog and has its changes to yield,
in a session whose store holds what a map holds.
-/
structure Tracks (session : Session) (map : PathMap) (index : Nat) (below : String)
    (backlog : Backlog)
    : Prop where
  refines : session.store.Refines map
  follows
    : ∃ position channel history,
        session.readers[index]? = some ⟨⟨below, position⟩, backlog.items⟩
        ∧ session.store.channels.get? below = some channel
        ∧ channel.Records history
        ∧ position ≤ channel.sent
        ∧ history.drop position = backlog.unread

namespace Tracks

variable {session : Session} {map : PathMap} {index : Nat} {below : String} {backlog : Backlog}

/-- A stream that was just opened has yielded nothing and has nothing to yield. -/
theorem watch (h : session.store.Refines map) (below : String)
    : Tracks (session.step (.watch below)) map session.readers.length below {} where
  refines := h.watch below
  follows := by
    obtain ⟨history, records⟩ := (session.store.channel below).exists_records
    refine ⟨(session.store.channel below).sent, session.store.channel below, history, ?_, ?_,
      records, Nat.le_refl _, ?_⟩
    · exact List.getElem?_concat_length
    · simp only [Session.step, Store.watch, KeyMap.get?_insert, if_true]
    · exact List.drop_of_length_le (Nat.le_of_eq records.sent)

/-- The stream yields next what its backlog says. -/
theorem read?_eq (h : Tracks session map index below backlog)
    : ∃ reader, session.readers[index]? = some reader ∧ reader.stream.below = below
      ∧ reader.items = backlog.items
      ∧ session.store.unread reader.stream = backlog.unread.length
      ∧ (session.store.read? reader.stream).map (·.1) = (nextOf? backlog.unread).map (·.1) := by
  obtain ⟨position, channel, history, reader, found, records, inside, unread⟩ := h.follows
  have own : session.store.channel below = channel := by simp [Store.channel, found]
  refine ⟨_, reader, rfl, rfl, ?_, ?_⟩
  · rw [Store.unread, own, Channel.unread, ← records.sent, ← unread, List.length_drop]
  · rw [Store.read?, own, records.read?_eq inside, unread]
    cases nextOf? backlog.unread <;> rfl

/-- Every step keeps track of the stream. -/
theorem step (h : Tracks session map index below backlog) (step : SessionStep)
    : Tracks (session.step step) (step.onMap map) index below
        (backlog.step index below map step) := by
  obtain ⟨position, channel, history, reader, found, records, inside, unread⟩ := h.follows
  cases step with
  | call made =>
      obtain ⟨_, refines, told⟩ := h.refines.call made
      let more := (map.changes made).filter fun event => startsWith event.path below
      have recordsMore := records.sendAll more
      have sent := recordsMore.sent
      rw [List.length_append, records.sent] at sent
      refine ⟨refines, position, _, _, reader, ?_, recordsMore, by omega, ?_⟩
      · change (session.store.call made).2.channels.get? below = _
        rw [told, Store.get?_channels_announceAll, found]
        rfl
      · rw [List.drop_append_of_le_length (by rw [records.sent]; exact inside), unread]
        rfl
  | watch other =>
      refine ⟨h.refines.watch other, position, channel, history, ?_, ?_, records, inside, ?_⟩
      · have within := (List.getElem?_eq_some_iff.mp reader).1
        exact (List.getElem?_append_left within).trans reader
      · exact session.store.get?_channels_watch other found
      · exact unread.trans (List.append_nil _).symm
  | read other =>
      by_cases same : other = index
      · subst same
        have own : session.store.channel below = channel := by simp [Store.channel, found]
        have reads : session.store.read? ⟨below, position⟩
            = (nextOf? backlog.unread).map fun next =>
                (next.1, (⟨below, channel.sent - next.2.length⟩ : Stream)) := by
          rw [Store.read?, own, records.read?_eq inside, unread, Option.map_map]
          rfl
        have advanced : (session.step (.read other)).readers[other]?
            = some (Reader.advance session.store ⟨⟨below, position⟩, backlog.items⟩) := by
          simp [Session.step, reader]
        have backlogStep : backlog.step other below map (.read other) = backlog.advance :=
          if_pos rfl
        rw [backlogStep]
        unfold Reader.advance at advanced
        unfold Backlog.advance
        cases next : nextOf? backlog.unread with
        | none =>
            simp only [reads, next, Option.map_none] at advanced
            exact ⟨h.refines, position, channel, history, advanced, found, records, inside,
              unread⟩
        | some item =>
            simp only [reads, next, Option.map_some] at advanced
            refine ⟨h.refines, _, channel, history, advanced, found, records,
              Nat.sub_le _ _, ?_⟩
            -- What is left ends the messages that were sent, so that it is what its length says.
            have ends : item.2 <:+ history :=
              (suffix_of_nextOf? next).trans (unread ▸ List.drop_suffix _ _)
            rw [← records.sent]
            exact (List.suffix_iff_eq_drop.mp ends).symm
      · have others : backlog.step index below map (.read other) = backlog := if_neg same
        rw [others]
        refine ⟨h.refines, position, channel, history, ?_, found, records, inside, unread⟩
        simp [Session.step, same, reader]

/-- A run keeps track of the stream, by induction over its steps. -/
theorem run (h : Tracks session map index below backlog) (steps : List SessionStep)
    : Tracks (session.run steps) (steps.foldl SessionStep.onMap map) index below
        (Backlog.run index below map backlog steps) := by
  induction steps generalizing session map backlog with
  | nil => exact h
  | cons step rest ih => exact ih (h.step step)

end Tracks

namespace Backlog

/-- Whether the items of a backlog account for all of some changes but those that are unread. -/
def Accounted (backlog : Backlog) (changes : List Event) : Prop :=
  ∃ read, changes = read ++ backlog.unread ∧ Accounts backlog.items read

theorem Accounted.advance {backlog : Backlog} {changes : List Event}
    (h : backlog.Accounted changes)
    : backlog.advance.Accounted changes := by
  obtain ⟨read, rfl, accounts⟩ := h
  unfold Backlog.advance
  cases next : nextOf? backlog.unread with
  | none => exact ⟨read, rfl, accounts⟩
  | some item =>
      obtain ⟨more, split, accountsMore⟩ := accounts.next next
      exact ⟨read ++ more, by rw [split, List.append_assoc], accountsMore⟩

/-- The changes of a step are unread after it, and reading accounts for those that it takes. -/
theorem Accounted.step {backlog : Backlog} {changes : List Event} (h : backlog.Accounted changes)
    (index : Nat) (below : String) (map : PathMap) (step : SessionStep)
    : (backlog.step index below map step).Accounted (changes ++ step.changes below map) := by
  cases step with
  | call | watch =>
      obtain ⟨read, rfl, accounts⟩ := h
      exact ⟨read, List.append_assoc _ _ _, accounts⟩
  | read other =>
      rw [show changes ++ (SessionStep.read other).changes below map = changes
        from List.append_nil changes]
      dsimp only [Backlog.step]
      split
      · exact h.advance
      · exact h

/-- A run accounts for all changes but those that are unread, by induction over its steps. -/
theorem Accounted.run {backlog : Backlog} {changes : List Event} (h : backlog.Accounted changes)
    (index : Nat) (below : String) (map : PathMap) (steps : List SessionStep)
    : (Backlog.run index below map backlog steps).Accounted
        (changes ++ SessionStep.allChanges below map steps) := by
  induction steps generalizing backlog changes map with
  | nil => simpa [SessionStep.allChanges, Backlog.run] using h
  | cons step rest ih =>
      rw [SessionStep.allChanges, ← List.append_assoc]
      exact ih (h.step index below map step) (step.onMap map)

end Backlog

namespace Session

/-- A run does to the store what its calls do to a map, and opens its streams. -/
theorem run_store {session : Session} {map : PathMap} (h : session.store.Refines map)
    (steps : List SessionStep)
    : (session.run steps).store.Refines (steps.foldl SessionStep.onMap map)
      ∧ (session.run steps).readers.length
        = session.readers.length + steps.countP (·.opens) := by
  induction steps generalizing session map with
  | nil => exact ⟨h, rfl⟩
  | cons step rest ih =>
      have one : (session.step step).store.Refines (step.onMap map)
          ∧ (session.step step).readers.length
            = session.readers.length + if step.opens then 1 else 0 := by
        cases step with
        | call made => exact ⟨(h.call made).2.1, rfl⟩
        | watch below => exact ⟨h.watch below, by simp [Session.step, SessionStep.opens]⟩
        | read index => exact ⟨h, List.length_modify _ _ _⟩
      obtain ⟨refines, opened⟩ := ih one.1
      refine ⟨refines, ?_⟩
      rw [List.countP_cons, ← Nat.add_assoc, Nat.add_right_comm, ← one.2]
      exact opened

/-- What is read from other streams does not show in a stream, by induction over the steps. -/
theorem reader_run_without_others {session other : Session} {index : Nat}
    (store : other.store = session.store)
    (length : other.readers.length = session.readers.length)
    (reader : other.readers[index]? = session.readers[index]?) (steps : List SessionStep)
    : (other.run (steps.filter fun step => !step.readsOther index)).readers[index]?
      = (session.run steps).readers[index]? := by
  induction steps generalizing session other with
  | nil => exact reader
  | cons step rest ih =>
      cases step with
      | call made =>
          exact ih (by simp only [Session.step, store]) length reader
      | watch below =>
          refine ih (by simp only [Session.step, store]) ?_ ?_
          · simp only [Session.step, List.length_append, length, List.length_singleton]
          · simp only [Session.step, List.getElem?_append, length, reader, store]
      | read place =>
          by_cases own : place = index
          · subst own
            rw [List.filter_cons_of_pos (by simp [SessionStep.readsOther])]
            refine ih store ?_ ?_
            · simpa only [Session.step, List.length_modify] using length
            · simp only [Session.step, List.getElem?_modify, reader, store]
          · rw [List.filter_cons_of_neg (by simp [SessionStep.readsOther, own])]
            refine ih store ?_ ?_
            · simpa only [Session.step, List.length_modify] using length
            · simpa [Session.step, own] using reader

/-- Streams lose nothing silently. In every session a stream yields what a queue of its own would,
of all changes below its prefix that the calls since it was opened made to the map of paths, by
which the store answers every call: the changes in order, and in place of those that more than the
last ones follow unread the number of them. The changes that were read, the numbers that were
reported and the changes to be read add up to all of them, and reading other streams makes no
difference.
-/
theorem streams_yield_every_change (before after : List SessionStep) (below : String)
    : let steps := before ++ .watch below :: after
      let session := ({} : Session).run steps
      let index := before.countP (·.opens)
      let map := before.foldl SessionStep.onMap ∅
      let changes := SessionStep.allChanges below map after
      let backlog := Backlog.run index below map {} after
      (∀ call, (session.store.call call).1
          = ((after.foldl SessionStep.onMap map).call call).1)
        ∧ ∃ reader, session.readers[index]? = some reader
          ∧ reader.stream.below = below
          ∧ reader.items = backlog.items
          ∧ (session.store.read? reader.stream).map (·.1) = (nextOf? backlog.unread).map (·.1)
          ∧ (∃ read, changes = read ++ backlog.unread ∧ Accounts reader.items read)
          ∧ (reader.items.filterMap Reading.message?).length
              + (reader.items.map Reading.missed).sum
              + session.store.unread reader.stream = changes.length
          ∧ (({} : Session).run (steps.filter fun step =>
              !step.readsOther index)).readers[index]? = some reader := by
  intro steps session index map changes backlog
  have start : ({} : Session).store.Refines ∅ := Store.Refines.empty
  obtain ⟨refines, opened⟩ := run_store start before
  have place : (({} : Session).run before).readers.length = index :=
    opened.trans (Nat.zero_add _)
  have split : session = ((({} : Session).run before).step (.watch below)).run after :=
    List.foldl_append
  have tracked : Tracks session (after.foldl SessionStep.onMap map) index below backlog := by
    have opening := (Tracks.watch refines below).run after
    rw [place, ← split] at opening
    exact opening
  obtain ⟨reader, found, prefixed, items, unread, next⟩ := tracked.read?_eq
  have accounted : backlog.Accounted changes :=
    Backlog.Accounted.run ⟨[], rfl, .nil⟩ index below map after
  obtain ⟨read, whole, accounts⟩ := accounted
  rw [← items] at accounts
  refine ⟨fun call => (tracked.refines.call call).1, reader, found, prefixed, items, next,
    ⟨read, whole, accounts⟩, ?_, ?_⟩
  · rw [accounts.length_eq, unread, whole, List.length_append]
  · exact (reader_run_without_others rfl rfl rfl steps).trans found

end Session

end Telemetry.Metadata
