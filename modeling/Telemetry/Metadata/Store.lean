import Telemetry.Document.Text
import Telemetry.Metadata.Channel
import Telemetry.Metadata.Path

/-!
The metadata store: values by path, some with a deadline, and streams of the changes below a
prefix. Streams and listings hand the values out as JSON texts. Time is a reading of a clock that
callers pass in.
-/

namespace Telemetry.Metadata

/-- A change of a path. -/
inductive Event where
  | put (path : String) (value : Json)
  | deleted (path : String)

namespace Event

def path : Event → String
  | put path _ => path
  | deleted path => path

/-- A change in one line. -/
def describe : Event → String
  | put path _ => "Put(key: " ++ path ++ ")"
  | deleted path => "Delete(key: " ++ path ++ ")"

def encode (event : Event) : Value :=
  let display := ("display", Value.text event.describe)
  match event with
  | put _ value => .object [display, ("value", value)]
  | deleted _ => .object [display]

end Event

/-- A reading of the clock, in milliseconds. -/
abbrev Time := Nat

/-- The position of a reader of the changes below a prefix. -/
structure Stream where
  below : String
  position : Nat
  deriving DecidableEq

/-- Values by group and key, deadlines by path, and channels by the prefixes that are watched. -/
structure Store where
  groups : KeyMap (KeyMap Value) := ∅
  deadlines : KeyMap Time := ∅
  channels : KeyMap (Channel Event) := ∅

namespace Store

/-- The value stored under a group and a key. -/
def value? (store : Store) (path : Path) : Option Value :=
  (store.groups.get? path.group).bind (·.get? path.key)

/-- The keys of a group with their values. -/
def group (store : Store) (name : String) : KeyMap Value :=
  (store.groups.get? name).getD ∅

/-- Tells every channel whose prefix the path of the change starts with. -/
def announce (store : Store) (event : Event) : Store :=
  { store with channels := store.channels.mapValues fun below channel =>
      if startsWith event.path below then channel.send event else channel }

def get (store : Store) (text : String) : Except MetadataError (Option Value) :=
  (Path.parse text).map store.value?

/-- Stores a value without a deadline. -/
def put (store : Store) (text : String) (value : Value) : Except MetadataError Store := do
  let path ← Path.parseKeyed text
  let stored : Store := { store with
    groups := store.groups.insert path.group ((store.group path.group).insert path.key value)
    deadlines := store.deadlines.erase text }
  return stored.announce (.put text value.json)

/-- Stores a value that expires after a while. -/
def putFor (store : Store) (now : Time) (lifetime : Duration) (text : String) (value : Value)
    : Except MetadataError Store := do
  let stored ← store.put text value
  return { stored with deadlines := stored.deadlines.insert text (now + lifetime) }

/-- Removes a path together with its deadline. Only the removal of a value is announced. -/
def delete (store : Store) (text : String) : Except MetadataError Store := do
  let path ← Path.parseKeyed text
  let removed : Store := { store with
    groups := store.groups.insert path.group ((store.group path.group).erase path.key)
    deadlines := store.deadlines.erase text }
  match store.value? path with
  | some _ => return removed.announce (.deleted text)
  | none => return { store with deadlines := store.deadlines.erase text }

/-- The paths whose deadline has come. They are due all at once; that they are taken in ascending
order is a choice.
-/
def due (store : Store) (now : Time) : List String :=
  (store.deadlines.filter fun _ deadline => deadline ≤ now).keys

/-- Removes the paths whose deadline has come. -/
def expire (store : Store) (now : Time) : Except MetadataError (Nat × Store) := do
  let paths := store.due now
  let store ← paths.foldlM delete store
  return (paths.length, store)

/-- The keys of the group of a path that start with its key, as full paths with the texts of their
values in ascending order.
-/
def bulk (store : Store) (text : String) : Except MetadataError (List (String × Json)) := do
  let path ← Path.parse text
  let below := (store.group path.group).filter fun key _ => startsWith key path.key
  return below.entries.map fun entry =>
    ((⟨path.group, entry.1⟩ : Path).text, entry.2.json)

def channel (store : Store) (below : String) : Channel Event :=
  (store.channels.get? below).getD {}

/-- Opens a stream of the changes below a prefix from now on. -/
def watch (store : Store) (below : String) : Stream × Store :=
  let channel := store.channel below
  (⟨below, channel.sent⟩, { store with channels := store.channels.insert below channel })

/-- The number of changes that a stream has not yielded. -/
def unread (store : Store) (stream : Stream) : Nat :=
  (store.channel stream.below).unread stream.position

/-- What a stream yields next. -/
def read? (store : Store) (stream : Stream) : Option (Reading Event × Stream) :=
  ((store.channel stream.below).read? stream.position).map fun (reading, position) =>
    (reading, { stream with position })

/-- Reading a stream leaves less to yield. -/
theorem unread_lt_of_read? {store : Store} {stream next : Stream} {reading : Reading Event}
    (h : store.read? stream = some (reading, next))
    : store.unread next < store.unread stream := by
  obtain ⟨⟨_, position⟩, read, eq⟩ := Option.map_eq_some_iff.mp h
  cases eq
  exact Channel.unread_lt_of_read? read

/-- Everything that a stream yields until nothing is left. -/
def readAll (store : Store) (stream : Stream) : List (Reading Event) × Stream :=
  let (readings, position) := (store.channel stream.below).readAll stream.position
  (readings, { stream with position })

end Store

end Telemetry.Metadata
