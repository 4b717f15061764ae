import Mathlib.Algebra.GroupWithZero.Nat
import Telemetry.Metadata.Channel

/-! What a reader of a channel gets. A channel keeps its last messages only, and every reader gets
the messages sent since its position in order, those that are gone being replaced by their number.
-/

namespace Telemetry.Metadata

-----------------------------------------------------------------------------------------
-- Queues of messages that are cut at their old end
-----------------------------------------------------------------------------------------

/-- What a reader gets next of the messages that it has not read, and which of them are left then:
the first one, or the number of those that are more than a channel keeps.
-/
def nextOf? {α : Type} : List α → Option (Reading α × List α)
  | [] => none
  | message :: rest =>
      let missed := (message :: rest).length - capacity
      if missed = 0 then some (.message message, rest)
      else some (.gap missed, (message :: rest).drop missed)

namespace Reading

variable {α : Type}

def message? : Reading α → Option α
  | message content => some content
  | gap _ => none

/-- The number of messages that a reader is told to have missed. -/
def missed : Reading α → Nat
  | message _ => 0
  | gap missed => missed

end Reading

/-- What is left are the last messages. -/
theorem suffix_of_nextOf? {α : Type} {unread left : List α} {item : Reading α}
    (next : nextOf? unread = some (item, left))
    : left <:+ unread := by
  cases unread with
  | nil => cases next
  | cons content rest =>
      dsimp only [nextOf?] at next
      split at next <;> cases next
      · exact List.suffix_cons _ _
      · exact List.drop_suffix _ _

/-- Whether items are what a reader got of some messages, each of which was either read or one of
those that are reported to be gone.
-/
inductive Accounts {α : Type} : List (Reading α) → List α → Prop where
  | nil : Accounts [] []
  | message {items messages content} (earlier : Accounts items messages)
    : Accounts (items ++ [.message content]) (messages ++ [content])
  | gap {items messages skipped} (earlier : Accounts items messages) (some : skipped ≠ [])
    : Accounts (items ++ [.gap skipped.length]) (messages ++ skipped)

/-- Items account for as many messages as were read or reported. -/
theorem Accounts.length_eq {α : Type} {items : List (Reading α)} {messages : List α}
    (h : Accounts items messages)
    : (items.filterMap Reading.message?).length + (items.map Reading.missed).sum
      = messages.length := by
  induction h with
  | nil => rfl
  | message _ ih =>
      simp [Reading.message?, Reading.missed, ← ih]
      omega
  | gap _ _ ih =>
      simp [List.filterMap_cons, Reading.message?, Reading.missed, ← ih]
      omega

/-- The next item accounts for the messages that are not left. -/
theorem Accounts.next {α : Type} {items : List (Reading α)} {messages unread left : List α}
    {item : Reading α} (h : Accounts items messages) (next : nextOf? unread = some (item, left))
    : ∃ more, unread = more ++ left ∧ Accounts (items ++ [item]) (messages ++ more) := by
  cases unread with
  | nil => cases next
  | cons content rest =>
      dsimp only [nextOf?] at next
      split at next
      next => cases next; exact ⟨[content], rfl, h.message⟩
      next beyond =>
        cases next
        let missed := (content :: rest).length - capacity
        have size : ((content :: rest).take missed).length = missed := by
          rw [List.length_take]
          omega
        have some : (content :: rest).take missed ≠ [] := by
          intro none
          rw [none] at size
          exact beyond size.symm
        refine ⟨(content :: rest).take missed, (List.take_append_drop _ _).symm, ?_⟩
        have told := h.gap some
        rw [size] at told
        exact told

-----------------------------------------------------------------------------------------
-- Channels and what was sent through them
-----------------------------------------------------------------------------------------

namespace Channel

variable {α : Type} {channel : Channel α} {history : List α}

/-- Whether some messages are those that were sent through a channel. -/
structure Records (channel : Channel α) (history : List α) : Prop where
  sent : history.length = channel.sent
  kept : channel.kept = history.drop (channel.sent - capacity)

/-- Something was sent through every channel. -/
theorem exists_records (channel : Channel α) : ∃ history, channel.Records history := by
  have length := channel.kept_length
  cases kept : channel.kept with
  | nil =>
      rw [kept] at length
      have none : channel.sent = 0 := by
        simp only [List.length_nil, capacity] at length
        omega
      exact ⟨[], none.symm, by simp [kept]⟩
  | cons first rest =>
      refine ⟨List.replicate (channel.sent - channel.kept.length) first ++ channel.kept, ?_, ?_⟩
      · rw [List.length_append, List.length_replicate]
        omega
      · rw [List.drop_left' (by rw [List.length_replicate]; omega)]

namespace Records

theorem send (h : channel.Records history) (message : α)
    : (channel.send message).Records (history ++ [message]) where
  sent := by simp [Channel.send, h.sent]
  kept := by
    have length := channel.kept_length
    have sent := h.sent
    simp only [Channel.send, keepLast, length]
    rw [h.kept]
    by_cases full : capacity ≤ channel.sent
    · have one : min channel.sent capacity + 1 - capacity = 1 := by omega
      have more : channel.sent + 1 - capacity = channel.sent - capacity + 1 := by omega
      have within : channel.sent - capacity + 1 ≤ history.length := by
        simp only [capacity] at *
        omega
      have first : 1 ≤ (history.drop (channel.sent - capacity)).length := by
        rw [List.length_drop]
        omega
      rw [one, more, List.drop_append_of_le_length first, List.drop_append_of_le_length within,
        List.drop_drop]
    · have none : min channel.sent capacity + 1 - capacity = 0 := by omega
      have noMore : channel.sent + 1 - capacity = 0 := by omega
      have all : channel.sent - capacity = 0 := by omega
      rw [none, noMore, all, List.drop_zero, List.drop_zero, List.drop_zero]

/-- Messages that are sent one after the other follow what was sent before. -/
theorem sendAll (h : channel.Records history) (messages : List α)
    : (messages.foldl Channel.send channel).Records (history ++ messages) := by
  induction messages generalizing channel history with
  | nil => simpa using h
  | cons message rest ih => simpa using ih (h.send message)

/-- A reader gets the next of the messages that were sent since its position. -/
theorem read?_eq (h : channel.Records history) {position : Nat} (inside : position ≤ channel.sent)
    : channel.read? position
      = (nextOf? (history.drop position)).map fun next =>
          (next.1, channel.sent - next.2.length) := by
  have length := channel.kept_length
  have sent := h.sent
  have size : (history.drop position).length = channel.unread position := by
    rw [List.length_drop, sent]
    rfl
  unfold read?
  dsimp only
  cases unread : history.drop position with
  | nil =>
      have none : channel.unread position = 0 := by rw [← size, unread]; rfl
      rw [if_pos none]
      rfl
  | cons content rest =>
      have count : channel.unread position = rest.length + 1 := by rw [← size, unread]; rfl
      have all : channel.unread position ≤ channel.sent := Nat.sub_le _ _
      rw [if_neg (by omega)]
      split
      next beyond =>
        have missed : rest.length + 1 - capacity ≠ 0 := by omega
        have gone : channel.unread position - channel.kept.length = rest.length + 1 - capacity := by
          omega
        have oldest : channel.sent - channel.kept.length
            = channel.sent - (rest.length + 1 - (rest.length + 1 - capacity)) := by
          omega
        simp only [nextOf?, List.length_cons, if_neg missed, Option.map_some, List.length_drop,
          gone, oldest]
      next within =>
        have missed : rest.length + 1 - capacity = 0 := by omega
        have place : channel.sent - capacity + (channel.kept.length - channel.unread position)
            = position + 0 := by
          unfold Channel.unread at *
          omega
        have after : position + 1 = channel.sent - rest.length := by
          unfold Channel.unread at count
          omega
        have oldest : channel.kept[channel.kept.length - channel.unread position]?
            = some content := by
          generalize channel.kept.length - channel.unread position = index at place ⊢
          rw [h.kept, List.getElem?_drop, place, ← List.getElem?_drop, unread]
          rfl
        simp only [nextOf?, List.length_cons, if_pos missed, Option.map_some, oldest, after]

end Records

end Channel

end Telemetry.Metadata
