import Telemetry.Proofs.Cluster.CanonicalMembers

/-! Elections. A view is made of the last announced registrations alone, and of these as a set, so
listeners that were told of the same registrations elect the same member whatever they saw before:
the least one by instance and sequence.
-/

namespace Telemetry.Cluster

-----------------------------------------------------------------------------------------
-- Members in order
-----------------------------------------------------------------------------------------

namespace Registration

/-- Whether the member of a registration comes before that of another one. -/
def Precedes (a b : Registration) : Prop :=
  a.instanceId < b.instanceId ∨ a.instanceId = b.instanceId ∧ a.sequence < b.sequence

theorem compareMember_eq_lt_iff {a b : Registration} : compareMember a b = .lt ↔ a.Precedes b := by
  have text : Ord.compare a.instanceId b.instanceId = .lt ↔ a.instanceId < b.instanceId :=
    compareOfLessAndEq_eq_lt
  rw [compareMember, Ordering.then_eq_lt, text, Nat.compare_eq_lt,
    Std.LawfulEqOrd.compare_eq_iff_eq, Precedes]

/-- No member precedes that of a registration that comes first. -/
theorem not_precedes_of_le {a b : Registration} (h : a.le b = true) : ¬b.Precedes a := by
  rw [← compareMember_eq_lt_iff]
  exact Std.OrientedCmp.not_lt_of_isLE (compareMember_isLE_of_le h)

end Registration

open Registration

namespace CanonicalForm

variable {announced : Registration → Prop} {peers : List Registration}

/-- The entry of a member is the least of its registrations. -/
theorem le_of_sameMember (h : CanonicalForm announced peers) {peer registration : Registration}
    (listed : peer ∈ peers) (known : announced registration)
    (same : registration.sameMember peer = true)
    : peer.le registration = true := by
  obtain ⟨least, member, sameLeast, below⟩ := h.exists_least registration known
  exact h.eq_of_sameMember member listed (sameMember_trans sameLeast same) ▸ below

end CanonicalForm

-----------------------------------------------------------------------------------------
-- Views
-----------------------------------------------------------------------------------------

namespace View

/-- The elected member is the one that a view lists first. -/
theorem isElected_iff {view : View} {registration : Registration}
    : view.isElected registration = true
      ↔ ∃ member, view.elected? = some member ∧ member.sameMember registration = true := by
  unfold isElected
  cases view.elected? <;> simp

/-- A view elects one member at most. -/
theorem sameMember_of_isElected {view : View} {a b : Registration}
    (ha : view.isElected a = true) (hb : view.isElected b = true)
    : a.sameMember b = true := by
  obtain ⟨member, elected, sameA⟩ := isElected_iff.mp ha
  obtain ⟨_, again, sameB⟩ := isElected_iff.mp hb
  cases elected.symm.trans again
  exact sameMember_trans (sameMember_comm ▸ sameA) sameB

variable (view : View) (registrations : List Registration)

/-- A change of membership leaves nothing of the changes before it, by induction over these. -/
theorem change_foldl_change (earlier : List (List Registration))
    : (earlier.foldl change view).change registrations = view.change registrations := by
  induction earlier generalizing view with
  | nil => rfl
  | cons first rest ih => exact ih (view.change first)

theorem canonicalForm_change
    : CanonicalForm (· ∈ registrations) (view.change registrations).peers :=
  canonicalForm_canonical registrations

/-- Lists of the same registrations make the same view. -/
theorem change_eq_of_mem_iff {others : List Registration}
    (same : ∀ registration, registration ∈ others ↔ registration ∈ registrations)
    : view.change others = view.change registrations := by
  have form := view.canonicalForm_change registrations
  rw [← funext fun registration => propext (same registration)] at form
  have peers : canonical others = canonical registrations :=
    (canonicalForm_canonical others).unique form
  rw [change, change, peers]

theorem elected?_change_nil : (view.change []).elected? = none := by
  simp [change, elected?, canonical, inOrder, dedup]

/-- The least registration is elected. -/
theorem elected?_change (some : registrations ≠ [])
    : ∃ least ∈ registrations, (view.change registrations).elected? = .some least
      ∧ ∀ registration ∈ registrations, least.le registration = true := by
  obtain ⟨registration, member⟩ := List.exists_mem_of_ne_nil registrations some
  obtain ⟨least, head, listed, below⟩ :=
    (view.canonicalForm_change registrations).head?_eq_some member
  exact ⟨least, listed, head, below⟩

/-- A view after any changes is that of the last announced registrations, and the same for every
list of these. It ascends strictly by instance and sequence and holds one entry for each announced
member, the least of its registrations. At most one member is elected: nobody if there are no
registrations, and otherwise the one that no other announced member precedes.
-/
theorem elections_depend_on_registrations (earlier : List (List Registration))
    : let current := (earlier.foldl change view).change registrations
      current = view.change registrations
      ∧ current.peers.Pairwise Precedes
      ∧ (∀ registration ∈ registrations, ∃ peer ∈ current.peers,
          peer.sameMember registration = true
          ∧ ∀ other ∈ current.peers, other.sameMember registration = true → other = peer)
      ∧ (∀ peer ∈ current.peers, peer ∈ registrations
          ∧ ∀ registration ∈ registrations, registration.sameMember peer = true →
              peer.le registration = true)
      ∧ (∀ others : List Registration,
          (∀ registration, registration ∈ others ↔ registration ∈ registrations) →
            view.change others = current)
      ∧ (∀ a b, current.isElected a = true → current.isElected b = true → a.sameMember b = true)
      ∧ (registrations = [] → ∀ registration, current.isElected registration = false)
      ∧ (registrations ≠ [] → ∃ least ∈ registrations, current.elected? = some least
          ∧ (∀ registration ∈ registrations, ¬registration.Precedes least)
          ∧ ∀ registration, current.isElected registration = true
              ↔ registration.sameMember least = true) := by
  have form := view.canonicalForm_change registrations
  rw [view.change_foldl_change registrations earlier]
  refine ⟨rfl, form.ascending.imp compareMember_eq_lt_iff.mp, ?_, ?_, ?_, ?_, ?_, ?_⟩
  · intro registration member
    obtain ⟨peer, listed, same, _⟩ := form.exists_least registration member
    refine ⟨peer, listed, same, fun other also sameOther => ?_⟩
    exact form.eq_of_sameMember also listed (sameMember_trans sameOther (sameMember_comm ▸ same))
  · intro peer listed
    exact ⟨form.announced_of_mem peer listed, fun _ => form.le_of_sameMember listed⟩
  · exact fun others same => view.change_eq_of_mem_iff registrations same
  · exact fun a b => sameMember_of_isElected
  · rintro rfl registration
    rw [isElected, elected?_change_nil]
    rfl
  · intro some
    obtain ⟨least, listed, elected, below⟩ := view.elected?_change registrations some
    refine ⟨least, listed, elected, ?_, fun registration => ?_⟩
    · exact fun registration member => not_precedes_of_le (below registration member)
    · rw [isElected_iff, elected, sameMember_comm]
      simp

end View

end Telemetry.Cluster
