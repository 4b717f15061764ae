import Telemetry.Cluster.View

/-! Canonical lists of members. Members are ordered by instance and sequence, and a canonical list
holds the least registration of each member in that order, which determines the list.
-/

namespace Telemetry.Cluster

-----------------------------------------------------------------------------------------
-- The order of members
-----------------------------------------------------------------------------------------

namespace Registration

/-- The order of the members that registrations announce: by instance, then by sequence. -/
def compareMember (a b : Registration) : Ordering :=
  (Ord.compare a.instanceId b.instanceId).then (Ord.compare a.sequence b.sequence)

/-- The order of the registrations of one member. -/
def compareOrigin (a b : Registration) : Ordering :=
  (Ord.compare a.module b.module).then (Ord.compare a.provider b.provider)

instance : Std.TransCmp compareMember :=
  inferInstanceAs <| Std.TransCmp <|
    compareLex (compareOn instanceId) (compareOn sequence)

instance : Std.TransCmp compare :=
  inferInstanceAs <| Std.TransCmp <|
    compareLex (compareOn instanceId) <| compareLex (compareOn sequence) <|
      compareLex (compareOn module) (compareOn provider)

/-- Registrations are ordered by their members first. -/
theorem compare_eq_then (a b : Registration)
    : compare a b = (compareMember a b).then (compareOrigin a b) := by
  simp only [compare, compareMember, compareOrigin, Ordering.then_assoc]

theorem compareMember_eq_iff {a b : Registration}
    : compareMember a b = .eq ↔ a.sameMember b = true := by
  simp [compareMember, sameMember, Ordering.then_eq_eq]

theorem sameMember_comm {a b : Registration} : a.sameMember b = b.sameMember a := by
  simp only [sameMember, eq_comm]

theorem sameMember_trans {a b c : Registration} (hab : a.sameMember b = true)
    (hbc : b.sameMember c = true)
    : a.sameMember c = true := by
  simp only [sameMember, Bool.and_eq_true, decide_eq_true_eq] at *
  exact ⟨hab.1.trans hbc.1, hab.2.trans hbc.2⟩

theorem compareMember_isLE_of_le {a b : Registration} (h : a.le b = true)
    : (compareMember a b).isLE = true := by
  rw [le, compare_eq_then] at h
  cases order : compareMember a b <;> simp_all

theorem le_of_compareMember_lt {a b : Registration} (h : compareMember a b = .lt)
    : a.le b = true := by
  rw [le, compare_eq_then, h]
  rfl

theorem le_trans {a b c : Registration} (hab : a.le b = true) (hbc : b.le c = true)
    : a.le c = true :=
  Std.TransCmp.isLE_trans hab hbc

theorem le_total (a b : Registration) : (a.le b || b.le a) = true := by
  have swap : compare a b = (compare b a).swap := Std.OrientedCmp.eq_swap
  rw [le, le, swap]
  cases compare b a <;> rfl

theorem le_antisymm {a b : Registration} (hab : a.le b = true) (hba : b.le a = true) : a = b := by
  have same : compare a b = .eq := Std.OrientedCmp.isLE_antisymm hab hba
  simp only [compare, Ordering.then_eq_eq, Std.LawfulEqOrd.compare_eq_iff_eq] at same
  obtain ⟨instanceId, sequence, module, provider⟩ := same
  cases a
  cases b
  simp_all

end Registration

open Registration

-----------------------------------------------------------------------------------------
-- Canonical lists
-----------------------------------------------------------------------------------------

/-- A list holds the least registration of each announced member, in the order of members. -/
structure CanonicalForm (announced : Registration → Prop) (peers : List Registration) : Prop where
  ascending : peers.Pairwise fun a b => compareMember a b = .lt
  announced_of_mem : ∀ peer ∈ peers, announced peer
  exists_least : ∀ registration, announced registration →
    ∃ peer ∈ peers, peer.sameMember registration = true ∧ peer.le registration = true

namespace CanonicalForm

variable {announced : Registration → Prop} {peers others : List Registration}

/-- A canonical list has one registration of a member, since members ascend strictly. -/
theorem eq_of_sameMember (h : CanonicalForm announced peers) {a b : Registration} (ha : a ∈ peers)
    (hb : b ∈ peers) (same : a.sameMember b = true)
    : a = b := by
  have apart {a b : Registration} (lt : compareMember a b = .lt) : ¬ a.sameMember b = true := by
    rw [← compareMember_eq_iff, lt]
    exact Ordering.noConfusion
  have forward : peers.Pairwise fun a b => a.sameMember b = true → a = b :=
    h.ascending.imp fun lt same => absurd same (apart lt)
  have backward : peers.Pairwise fun a b => b.sameMember a = true → b = a :=
    h.ascending.imp fun lt same => absurd (sameMember_comm ▸ same) (apart lt)
  exact forward.forall_of_forall_of_flip (fun _ _ _ => rfl) backward ha hb same

/-- The lists of the same announcements have the same entries, since the least registration of a
member is unique.
-/
theorem mem_of_mem (h : CanonicalForm announced peers) (other : CanonicalForm announced others)
    {peer : Registration} (hp : peer ∈ peers)
    : peer ∈ others := by
  obtain ⟨least, hl, same, below⟩ := other.exists_least peer (h.announced_of_mem peer hp)
  obtain ⟨back, hb, sameBack, belowBack⟩ := h.exists_least least (other.announced_of_mem least hl)
  have returned : back = peer := h.eq_of_sameMember hb hp (sameMember_trans sameBack same)
  exact le_antisymm below (returned ▸ belowBack) ▸ hl

/-- Announcements have one canonical list. -/
theorem unique (h : CanonicalForm announced peers) (other : CanonicalForm announced others)
    : peers = others := by
  have nodup {list : List Registration} (ascending : list.Pairwise (compareMember · · = .lt))
      : list.Nodup := by
    refine ascending.imp ?_
    rintro a _ lt rfl
    have self : compareMember a a = .eq := Std.ReflCmp.compare_self
    cases self.symm.trans lt
  have perm : peers.Perm others :=
    (List.perm_ext_iff_of_nodup (nodup h.ascending) (nodup other.ascending)).mpr fun _ =>
      ⟨h.mem_of_mem other, other.mem_of_mem h⟩
  refine perm.eq_of_pairwise ?_ (h.ascending.imp le_of_compareMember_lt)
    (other.ascending.imp le_of_compareMember_lt)
  exact fun _ _ _ _ ab ba => le_antisymm ab ba

/-- The first entry of a canonical list is the least of all announcements. -/
theorem head?_eq_some (h : CanonicalForm announced peers) {registration : Registration}
    (some : announced registration)
    : ∃ least, peers.head? = .some least ∧ announced least
      ∧ ∀ registration, announced registration → least.le registration = true := by
  cases peers with
  | nil =>
      obtain ⟨_, none, _⟩ := h.exists_least registration some
      cases none
  | cons first rest =>
      refine ⟨first, rfl, h.announced_of_mem first List.mem_cons_self, ?_⟩
      intro other announced
      obtain ⟨peer, member, _, below⟩ := h.exists_least other announced
      rcases List.mem_cons.mp member with rfl | later
      · exact below
      · have lt := (List.pairwise_cons.mp h.ascending).1 peer later
        exact le_trans (le_of_compareMember_lt lt) below

end CanonicalForm

-----------------------------------------------------------------------------------------
-- Reduction to canonical form
-----------------------------------------------------------------------------------------

/-- Past the first registrations of a member come later members alone. -/
theorem compareMember_dropWhile {first : Registration} {rest : List Registration}
    (sorted : (first :: rest).Pairwise (·.le ·))
    : ∀ peer ∈ rest.dropWhile first.sameMember, compareMember first peer = .lt := by
  induction rest with
  | nil => simp
  | cons next more ih =>
      obtain ⟨below, tail⟩ := List.pairwise_cons.mp sorted
      by_cases same : first.sameMember next = true
      · rw [List.dropWhile_cons_of_pos same]
        refine ih (List.pairwise_cons.mpr ⟨?_, (List.pairwise_cons.mp tail).2⟩)
        exact fun peer member => below peer (List.mem_cons_of_mem _ member)
      · rw [List.dropWhile_cons_of_neg same]
        have lt : compareMember first next = .lt := by
          have isLE := compareMember_isLE_of_le (below next List.mem_cons_self)
          have ne := mt compareMember_eq_iff.mp same
          cases order : compareMember first next <;> simp_all
        intro peer member
        rcases List.mem_cons.mp member with rfl | later
        · exact lt
        · have above := (List.pairwise_cons.mp tail).1 peer later
          exact Std.TransCmp.lt_of_lt_of_isLE lt (compareMember_isLE_of_le above)

/-- Keeping the first of each run in an ordered list leaves its canonical form, by induction over
the runs.
-/
theorem canonicalForm_dedup (registrations : List Registration)
    (sorted : registrations.Pairwise (·.le ·))
    : CanonicalForm (· ∈ registrations) (dedup registrations) := by
  induction registrations using dedup.induct with
  | case1 =>
      rw [dedup]
      exact ⟨.nil, fun _ member => member, fun _ member => absurd member List.not_mem_nil⟩
  | case2 first rest ih =>
      obtain ⟨below, tail⟩ := List.pairwise_cons.mp sorted
      have dropped := List.dropWhile_sublist (l := rest) first.sameMember
      have form := ih (tail.sublist dropped)
      rw [dedup]
      refine ⟨List.pairwise_cons.mpr ⟨?_, form.ascending⟩, ?_, ?_⟩
      · intro peer member
        exact compareMember_dropWhile sorted peer (form.announced_of_mem peer member)
      · intro peer member
        rcases List.mem_cons.mp member with rfl | later
        · exact List.mem_cons_self
        · exact List.mem_cons_of_mem _ (dropped.subset (form.announced_of_mem peer later))
      · intro registration member
        rcases List.mem_cons.mp member with rfl | later
        · refine ⟨registration, List.mem_cons_self, by simp [sameMember], ?_⟩
          simpa using le_total registration registration
        · rw [← List.takeWhile_append_dropWhile (p := first.sameMember) (l := rest)] at later
          rcases List.mem_append.mp later with run | after
          · have same := List.all_eq_true.mp List.all_takeWhile registration run
            have listed := (List.takeWhile_sublist _).subset run
            exact ⟨first, List.mem_cons_self, same, below registration listed⟩
          · obtain ⟨peer, kept, least⟩ := form.exists_least registration after
            exact ⟨peer, List.mem_cons_of_mem _ kept, least⟩

theorem inOrder_perm (registrations : List Registration)
    : (inOrder registrations).Perm registrations :=
  List.mergeSort_perm registrations Registration.le

theorem pairwise_inOrder (registrations : List Registration)
    : (inOrder registrations).Pairwise (·.le ·) :=
  @List.pairwise_mergeSort _ Registration.le (fun _ _ _ => le_trans) le_total registrations

/-- The canonical list of registrations is canonical for them. -/
theorem canonicalForm_canonical (registrations : List Registration)
    : CanonicalForm (· ∈ registrations) (canonical registrations) := by
  have form := canonicalForm_dedup _ (pairwise_inOrder registrations)
  have same (registration : Registration)
      : registration ∈ inOrder registrations ↔ registration ∈ registrations :=
    (inOrder_perm registrations).mem_iff
  exact ⟨form.ascending, fun peer member => (same peer).mp (form.announced_of_mem peer member),
    fun registration member => form.exists_least registration ((same registration).mpr member)⟩

end Telemetry.Cluster
