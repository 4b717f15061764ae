/-!
Broadcast channels that keep the last messages only. A reader who falls behind by more is told
how many messages are gone, and goes on with the oldest that is kept.
-/

namespace Telemetry.Metadata

/-- The number of messages that a channel keeps. -/
def capacity : Nat := 256

/-- The number of messages sent so far and the last of them, oldest first. -/
structure Channel (α : Type) where
  sent : Nat := 0
  kept : List α := []
  kept_length : kept.length = min sent capacity := by rfl

/-- What a reader gets: a message, or the number of messages that are gone. -/
inductive Reading (α : Type) where
  | message (content : α)
  | gap (missed : Nat)
  deriving DecidableEq

namespace Channel

variable {α : Type}

/-- The messages kept after one more. -/
def keepLast (kept : List α) (message : α) : List α :=
  (kept ++ [message]).drop (kept.length + 1 - capacity)

def send (channel : Channel α) (message : α) : Channel α where
  sent := channel.sent + 1
  kept := keepLast channel.kept message
  kept_length := by
    have := channel.kept_length
    simp only [keepLast, List.length_drop, List.length_append, List.length_singleton]
    omega

/-- The number of messages that a reader at a position has not read. -/
def unread (channel : Channel α) (position : Nat) : Nat :=
  channel.sent - position

/-- What a reader at a position gets next, and its position then. -/
def read? (channel : Channel α) (position : Nat) : Option (Reading α × Nat) :=
  let unread := channel.unread position
  if unread = 0 then none
  else if channel.kept.length < unread then
    some (.gap (unread - channel.kept.length), channel.sent - channel.kept.length)
  else
    (channel.kept[channel.kept.length - unread]?).map fun content =>
      (.message content, position + 1)

/-- Reading leaves less unread. -/
theorem unread_lt_of_read? {channel : Channel α} {position next : Nat} {reading : Reading α}
    (h : channel.read? position = some (reading, next))
    : channel.unread next < channel.unread position := by
  unfold read? at h
  dsimp only at h
  split at h
  · cases h
  · split at h
    · cases h
      simp only [unread] at *
      omega
    · obtain ⟨_, _, eq⟩ := Option.map_eq_some_iff.mp h
      cases eq
      simp only [unread] at *
      omega

/-- Everything that a reader at a position gets until nothing is left, and its position then. -/
def readAll (channel : Channel α) (position : Nat) : List (Reading α) × Nat :=
  let unread := channel.unread position
  let missed := unread - channel.kept.length
  let messages := channel.kept.drop (channel.kept.length - unread)
  ((if missed = 0 then [] else [.gap missed]) ++ messages.map .message, max position channel.sent)

end Channel

end Telemetry.Metadata
