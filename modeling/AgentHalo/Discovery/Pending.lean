import AgentHalo.Discovery.State

/-!
# Pending attestations and their indices

`Pended` says that the count, the lists and the two indices of the pending attestations agree. In the middle of an
operation the index by attester may have lost an entry already, and `Pended s lost` says which ones. Taking a list out
and putting one in keep `Pended`; the other operations are made of these two.

`Shrinks` is what holds of every operation that only forgets: no announcement is new or changed, no attestation is new
among the pending ones.
-/

namespace AgentHalo.Discovery.AgentDiscovery

open OrdMap (Relates)

variable {P : Platform} {A : Ambient} {s t : AgentDiscovery P} {did subjectDid attesterDid : String}
  {l : List CapabilityAttestation}

theorem mem_order (A : Ambient) {key : String} {keys : List String} : key ∈ A.order keys ↔ key ∈ keys :=
  (A.order_perm keys).mem_iff

/-- The attestations that wait under a subject. -/
def pendingOf (s : AgentDiscovery P) (subjectDid : String) : List CapabilityAttestation :=
  (s.pendingAttestations[subjectDid]?).getD []

/-- An attestation by the attester waits under the subject. -/
def Awaits (s : AgentDiscovery P) (attesterDid subjectDid : String) : Prop :=
  ∃ attestation ∈ s.pendingOf subjectDid, attestation.attesterDid = attesterDid

def totalPending (s : AgentDiscovery P) : Nat := OrdMap.total List.length s.pendingAttestations

/-- Only pending attestations differ. -/
structure Beside (s t : AgentDiscovery P) : Prop where
  knownAgents : t.knownAgents = s.knownAgents
  knownAgentOrder : t.knownAgentOrder = s.knownAgentOrder
  subscribedTopics : t.subscribedTopics = s.subscribedTopics
  subscriptionOrder : t.subscriptionOrder = s.subscriptionOrder

theorem Beside.refl (s : AgentDiscovery P) : Beside s s := ⟨rfl, rfl, rfl, rfl⟩

theorem Beside.trans {u : AgentDiscovery P} (h : Beside s t) (h' : Beside t u) : Beside s u where
  knownAgents := h'.knownAgents.trans h.knownAgents
  knownAgentOrder := h'.knownAgentOrder.trans h.knownAgentOrder
  subscribedTopics := h'.subscribedTopics.trans h.subscribedTopics
  subscriptionOrder := h'.subscriptionOrder.trans h.subscriptionOrder

/-- Nothing new is known or waits. -/
structure Shrinks (s t : AgentDiscovery P) : Prop where
  known : ∀ (did : String) announcement, t.knownAgents[did]? = some announcement →
    s.knownAgents[did]? = some announcement
  pending : ∀ did, t.pendingOf did ⊆ s.pendingOf did
  total : t.totalPending ≤ s.totalPending

theorem Shrinks.refl (s : AgentDiscovery P) : Shrinks s s := ⟨fun _ _ h => h, fun _ _ h => h, le_rfl⟩

theorem Shrinks.trans {u : AgentDiscovery P} (h : Shrinks s t) (h' : Shrinks t u) : Shrinks s u where
  known did announcement hu := h.known did announcement (h'.known did announcement hu)
  pending did := List.Subset.trans (h'.pending did) (h.pending did)
  total := h'.total.trans h.total

/-- What a list of pending attestations is like. -/
structure Waiting (l : List CapabilityAttestation) : Prop where
  nonempty : l ≠ []
  sorted : l.Pairwise fun a b => a.verifiedAt ≤ b.verifiedAt
  length_le : l.length ≤ maxPendingAttestationsPerSubject

structure Pended (s : AgentDiscovery P) (lost : String → String → Prop) : Prop where
  count : s.pendingAttestationCount = s.totalPending
  lists : ∀ (did : String) l, s.pendingAttestations[did]? = some l → Waiting l
  attesters : ∀ subjectDid attesterDid, Relates s.pendingSubjectAttesters subjectDid attesterDid ↔
    s.Awaits attesterDid subjectDid
  index : ∀ attesterDid subjectDid, Relates s.pendingAttesterIndex attesterDid subjectDid ↔
    s.Awaits attesterDid subjectDid ∧ ¬ lost attesterDid subjectDid

variable {lost lost' : String → String → Prop}

theorem Pended.congr (h : Pended s lost)
    (hlost : ∀ attesterDid subjectDid, s.Awaits attesterDid subjectDid →
      (lost attesterDid subjectDid ↔ lost' attesterDid subjectDid)) : Pended s lost' where
  count := h.count
  lists := h.lists
  attesters := h.attesters
  index attesterDid subjectDid := by
    rw [h.index]
    exact and_congr_right fun hawaits => not_congr (hlost attesterDid subjectDid hawaits)

theorem pendingOf_of_get? {l : List CapabilityAttestation} (h : s.pendingAttestations[did]? = some l) :
    s.pendingOf did = l := by
  rw [pendingOf, h]
  rfl

theorem pendingOf_eq_nil (h : s.pendingAttestations[did]? = none) : s.pendingOf did = [] := by
  rw [pendingOf, h]
  rfl

theorem Pended.waiting (h : Pended s lost) (hne : s.pendingOf did ≠ []) : Waiting (s.pendingOf did) := by
  cases hl : s.pendingAttestations[did]? with
  | none => exact absurd (pendingOf_eq_nil hl) hne
  | some l =>
    rw [pendingOf_of_get? hl]
    exact h.lists did l hl

theorem Pended.sorted (h : Pended s lost) (did : String) :
    (s.pendingOf did).Pairwise fun a b => a.verifiedAt ≤ b.verifiedAt := by
  by_cases hne : s.pendingOf did = []
  · rw [hne]
    exact .nil
  · exact (h.waiting hne).sorted

theorem totalPending_erase (s : AgentDiscovery P) (did : String) :
    s.totalPending = (s.pendingOf did).length + OrdMap.total List.length (s.pendingAttestations.erase did) := by
  cases hl : s.pendingAttestations[did]? with
  | none =>
    rw [pendingOf_eq_nil hl, OrdMap.erase_of_get?_eq_none hl, List.length_nil, Nat.zero_add]
    rfl
  | some l =>
    rw [pendingOf_of_get? hl]
    exact OrdMap.total_of_get? List.length hl

/-! ### Taking a list out -/

section Take

theorem clearPendingSubjectIndex_beside (A : Ambient) (s : AgentDiscovery P) (subjectDid : String) :
    Beside s (s.clearPendingSubjectIndex A subjectDid) := by
  unfold clearPendingSubjectIndex
  split
  · exact .refl s
  · exact ⟨rfl, rfl, rfl, rfl⟩

@[simp] theorem clearPendingSubjectIndex_pendingAttestations (A : Ambient) (s : AgentDiscovery P) (subjectDid : String) :
    (s.clearPendingSubjectIndex A subjectDid).pendingAttestations = s.pendingAttestations := by
  unfold clearPendingSubjectIndex
  split <;> rfl

@[simp] theorem clearPendingSubjectIndex_count (A : Ambient) (s : AgentDiscovery P) (subjectDid : String) :
    (s.clearPendingSubjectIndex A subjectDid).pendingAttestationCount = s.pendingAttestationCount := by
  unfold clearPendingSubjectIndex
  split <;> rfl

theorem clearPendingSubjectIndex_attesters (A : Ambient) (s : AgentDiscovery P) (subjectDid did attesterDid : String) :
    Relates (s.clearPendingSubjectIndex A subjectDid).pendingSubjectAttesters did attesterDid ↔
      Relates s.pendingSubjectAttesters did attesterDid ∧ did ≠ subjectDid := by
  unfold clearPendingSubjectIndex
  split
  · rename_i hnone
    refine (and_iff_left_of_imp ?_).symm
    rintro ⟨names, hnames, -⟩ rfl
    rw [hnone] at hnames
    cases hnames
  · exact OrdMap.relates_erase

theorem clearPendingSubjectIndex_index (A : Ambient) (s : AgentDiscovery P) (subjectDid attesterDid did : String) :
    Relates (s.clearPendingSubjectIndex A subjectDid).pendingAttesterIndex attesterDid did ↔
      Relates s.pendingAttesterIndex attesterDid did ∧
        ¬ (Relates s.pendingSubjectAttesters subjectDid attesterDid ∧ did = subjectDid) := by
  unfold clearPendingSubjectIndex
  split
  · rename_i hnone
    refine (and_iff_left_of_imp fun _ => ?_).symm
    rintro ⟨⟨names, hnames, -⟩, -⟩
    rw [hnone] at hnames
    cases hnames
  · rename_i attesters hsome
    dsimp only
    rw [OrdMap.relates_foldl_drop, mem_order, Std.ExtTreeSet.mem_toList, OrdMap.relates_of_get? hsome]

theorem takePendingAttestations_fst (A : Ambient) (s : AgentDiscovery P) (subjectDid : String) :
    (s.takePendingAttestations A subjectDid).1 = s.pendingOf subjectDid := by
  simp [takePendingAttestations, pendingOf]

theorem takePendingAttestations_beside (A : Ambient) (s : AgentDiscovery P) (subjectDid : String) :
    Beside s (s.takePendingAttestations A subjectDid).2 :=
  (clearPendingSubjectIndex_beside A s subjectDid).trans ⟨rfl, rfl, rfl, rfl⟩

@[simp] theorem takePendingAttestations_pendingAttestations (A : Ambient) (s : AgentDiscovery P) (subjectDid : String) :
    (s.takePendingAttestations A subjectDid).2.pendingAttestations = s.pendingAttestations.erase subjectDid := by
  simp [takePendingAttestations]

theorem takePendingAttestations_pendingOf (A : Ambient) (s : AgentDiscovery P) (subjectDid did : String) :
    (s.takePendingAttestations A subjectDid).2.pendingOf did = if did = subjectDid then [] else s.pendingOf did := by
  rw [pendingOf, takePendingAttestations_pendingAttestations, OrdMap.get?_erase]
  by_cases hdid : did = subjectDid
  · rw [if_pos hdid.symm, if_pos hdid]
    rfl
  · rw [if_neg (Ne.symm hdid), if_neg hdid]
    rfl

theorem takePendingAttestations_total (A : Ambient) (s : AgentDiscovery P) (subjectDid : String) :
    s.totalPending = (s.pendingOf subjectDid).length + (s.takePendingAttestations A subjectDid).2.totalPending := by
  rw [totalPending_erase s subjectDid, totalPending, takePendingAttestations_pendingAttestations]

theorem awaits_take (A : Ambient) (s : AgentDiscovery P) (subjectDid attesterDid did : String) :
    (s.takePendingAttestations A subjectDid).2.Awaits attesterDid did ↔ s.Awaits attesterDid did ∧ did ≠ subjectDid := by
  unfold Awaits
  rw [takePendingAttestations_pendingOf]
  split_ifs with hdid
  · simp [hdid]
  · simp [hdid]

theorem takePendingAttestations_pended (h : Pended s lost) :
    Pended (s.takePendingAttestations A subjectDid).2 lost where
  count := by
    have htotal := takePendingAttestations_total A s subjectDid
    have hlen : ((s.pendingAttestations[subjectDid]?).map List.length).getD 0 = (s.pendingOf subjectDid).length := by
      unfold pendingOf
      cases s.pendingAttestations[subjectDid]? <;> rfl
    have hcount : (s.takePendingAttestations A subjectDid).2.pendingAttestationCount =
        s.pendingAttestationCount - (s.pendingOf subjectDid).length := by
      simp only [takePendingAttestations, clearPendingSubjectIndex_count, hlen]
    rw [hcount, h.count, htotal, Nat.add_sub_cancel_left]
  lists did l hl := by
    rw [takePendingAttestations_pendingAttestations, OrdMap.get?_erase] at hl
    split_ifs at hl
    exact h.lists did l hl
  attesters did attesterDid := by
    rw [awaits_take, ← h.attesters]
    exact clearPendingSubjectIndex_attesters A s subjectDid did attesterDid
  index attesterDid did := by
    rw [awaits_take]
    refine (clearPendingSubjectIndex_index A s subjectDid attesterDid did).trans ?_
    rw [h.index, h.attesters]
    constructor
    · rintro ⟨⟨hawaits, hlost⟩, hother⟩
      refine ⟨⟨hawaits, ?_⟩, hlost⟩
      rintro rfl
      exact hother ⟨hawaits, rfl⟩
    · rintro ⟨⟨hawaits, hne⟩, hlost⟩
      exact ⟨⟨hawaits, hlost⟩, fun hother => hne hother.2⟩

theorem takePendingAttestations_shrinks (A : Ambient) (s : AgentDiscovery P) (subjectDid : String) :
    Shrinks s (s.takePendingAttestations A subjectDid).2 where
  known did announcement h := by rwa [(takePendingAttestations_beside A s subjectDid).knownAgents] at h
  pending did := by
    rw [takePendingAttestations_pendingOf]
    split_ifs
    · exact List.nil_subset _
    · exact List.Subset.refl _
  total := by
    have htotal := takePendingAttestations_total A s subjectDid
    omega

end Take

/-! ### Putting a list in -/

section Replace

theorem reindexPendingSubject_beside (s : AgentDiscovery P) (subjectDid : String) :
    Beside s (s.reindexPendingSubject subjectDid) := by
  unfold reindexPendingSubject
  split
  · exact .refl s
  · exact ⟨rfl, rfl, rfl, rfl⟩

@[simp] theorem reindexPendingSubject_pendingAttestations (s : AgentDiscovery P) (subjectDid : String) :
    (s.reindexPendingSubject subjectDid).pendingAttestations = s.pendingAttestations := by
  unfold reindexPendingSubject
  split <;> rfl

@[simp] theorem reindexPendingSubject_count (s : AgentDiscovery P) (subjectDid : String) :
    (s.reindexPendingSubject subjectDid).pendingAttestationCount = s.pendingAttestationCount := by
  unfold reindexPendingSubject
  split <;> rfl

theorem reindexPendingSubject_index (h : s.pendingAttestations[subjectDid]? = some l) (attesterDid did : String) :
    Relates (s.reindexPendingSubject subjectDid).pendingAttesterIndex attesterDid did ↔
      Relates s.pendingAttesterIndex attesterDid did ∨
        ((∃ attestation ∈ l, attestation.attesterDid = attesterDid) ∧ did = subjectDid) := by
  rw [reindexPendingSubject, h]
  exact OrdMap.relates_foldl_put CapabilityAttestation.attesterDid l s.pendingAttesterIndex

theorem mem_foldl_insert (l : List CapabilityAttestation) (names : Names) (attesterDid : String) :
    attesterDid ∈ l.foldl (fun attesters attestation => attesters.insert attestation.attesterDid) names ↔
      attesterDid ∈ names ∨ ∃ attestation ∈ l, attestation.attesterDid = attesterDid := by
  induction l generalizing names with
  | nil => simp
  | cons attestation rest ih =>
    rw [List.foldl_cons, ih, Std.ExtTreeSet.mem_insert, Std.compare_eq_iff_eq, List.exists_mem_cons_iff]
    tauto

theorem reindexPendingSubject_attesters (h : s.pendingAttestations[subjectDid]? = some l) (hne : l ≠ [])
    (did attesterDid : String) :
    Relates (s.reindexPendingSubject subjectDid).pendingSubjectAttesters did attesterDid ↔
      if did = subjectDid then ∃ attestation ∈ l, attestation.attesterDid = attesterDid
      else Relates s.pendingSubjectAttesters did attesterDid := by
  let attesters : Names := l.foldl (fun attesters attestation => attesters.insert attestation.attesterDid) ∅
  have hmem (name : String) : name ∈ attesters ↔ ∃ attestation ∈ l, attestation.attesterDid = name := by
    refine (mem_foldl_insert l ∅ name).trans ?_
    simp
  have hnonempty : attesters.isEmpty = false := by
    rw [Std.ExtTreeSet.isEmpty_eq_false_iff]
    intro hempty
    obtain ⟨attestation, hattestation⟩ := List.exists_mem_of_ne_nil l hne
    have hin : attestation.attesterDid ∈ attesters := (hmem _).mpr ⟨attestation, hattestation, rfl⟩
    rw [hempty] at hin
    exact Std.ExtTreeSet.not_mem_empty hin
  have hfield : (s.reindexPendingSubject subjectDid).pendingSubjectAttesters =
      s.pendingSubjectAttesters.insert subjectDid attesters := by
    rw [reindexPendingSubject, h]
    exact if_neg (by rw [hnonempty]; exact Bool.false_ne_true)
  unfold Relates
  rw [hfield, OrdMap.get?_insert]
  by_cases hdid : did = subjectDid
  · rw [if_pos hdid.symm, if_pos hdid]
    simp [hmem]
  · rw [if_neg (Ne.symm hdid), if_neg hdid]

/-- The state that `replace_pending_attestations` reindexes. -/
private def withList (s : AgentDiscovery P) (subjectDid : String) (l : List CapabilityAttestation) : AgentDiscovery P :=
  { s with
    pendingAttestationCount := min (s.pendingAttestationCount + l.length) u64Max
    pendingAttestations := s.pendingAttestations.insert subjectDid l }

theorem replacePendingAttestations_nil (A : Ambient) (s : AgentDiscovery P) (subjectDid : String) :
    s.replacePendingAttestations A subjectDid [] = (s.takePendingAttestations A subjectDid).2 := rfl

theorem replacePendingAttestations_of_ne (A : Ambient) (s : AgentDiscovery P) (subjectDid : String) (hne : l ≠ []) :
    s.replacePendingAttestations A subjectDid l =
      (withList (s.takePendingAttestations A subjectDid).2 subjectDid l).reindexPendingSubject subjectDid := by
  rw [replacePendingAttestations, if_neg (by simpa using hne)]
  rfl

theorem replacePendingAttestations_beside (A : Ambient) (s : AgentDiscovery P) (subjectDid : String)
    (l : List CapabilityAttestation) : Beside s (s.replacePendingAttestations A subjectDid l) := by
  by_cases hne : l = []
  · subst hne
    exact takePendingAttestations_beside A s subjectDid
  · rw [replacePendingAttestations_of_ne A s subjectDid hne]
    have hwith : Beside (s.takePendingAttestations A subjectDid).2
        (withList (s.takePendingAttestations A subjectDid).2 subjectDid l) := ⟨rfl, rfl, rfl, rfl⟩
    exact ((takePendingAttestations_beside A s subjectDid).trans hwith).trans (reindexPendingSubject_beside _ _)

theorem replacePendingAttestations_get? (A : Ambient) (s : AgentDiscovery P) (subjectDid : String)
    (l : List CapabilityAttestation) (did : String) :
    (s.replacePendingAttestations A subjectDid l).pendingAttestations[did]? =
      if did = subjectDid then (if l = [] then none else some l) else s.pendingAttestations[did]? := by
  by_cases hne : l = []
  · subst hne
    rw [replacePendingAttestations_nil, takePendingAttestations_pendingAttestations, OrdMap.get?_erase]
    simp [eq_comm]
  · rw [replacePendingAttestations_of_ne A s subjectDid hne, reindexPendingSubject_pendingAttestations, withList,
      takePendingAttestations_pendingAttestations, OrdMap.get?_insert, OrdMap.get?_erase]
    by_cases hdid : did = subjectDid
    · simp [hdid, hne]
    · simp [hdid, Ne.symm hdid]

theorem replacePendingAttestations_pendingOf (A : Ambient) (s : AgentDiscovery P) (subjectDid : String)
    (l : List CapabilityAttestation) (did : String) :
    (s.replacePendingAttestations A subjectDid l).pendingOf did = if did = subjectDid then l else s.pendingOf did := by
  rw [pendingOf, replacePendingAttestations_get?]
  by_cases hdid : did = subjectDid
  · rw [if_pos hdid, if_pos hdid]
    split_ifs with hne
    · exact hne.symm
    · rfl
  · rw [if_neg hdid, if_neg hdid]
    rfl

theorem replacePendingAttestations_total (A : Ambient) (s : AgentDiscovery P) (subjectDid : String)
    (l : List CapabilityAttestation) :
    (s.replacePendingAttestations A subjectDid l).totalPending + (s.pendingOf subjectDid).length =
      s.totalPending + l.length := by
  have htake := takePendingAttestations_total A s subjectDid
  by_cases hne : l = []
  · subst hne
    rw [replacePendingAttestations_nil, List.length_nil]
    omega
  · have hwith : (s.replacePendingAttestations A subjectDid l).totalPending =
        l.length + (s.takePendingAttestations A subjectDid).2.totalPending := by
      rw [replacePendingAttestations_of_ne A s subjectDid hne, totalPending, reindexPendingSubject_pendingAttestations,
        withList, OrdMap.total_insert, takePendingAttestations_pendingAttestations,
        OrdMap.erase_of_get?_eq_none (by simp), totalPending, takePendingAttestations_pendingAttestations]
    omega

theorem awaits_replace (A : Ambient) (s : AgentDiscovery P) (subjectDid : String) (l : List CapabilityAttestation)
    (attesterDid did : String) :
    (s.replacePendingAttestations A subjectDid l).Awaits attesterDid did ↔
      if did = subjectDid then ∃ attestation ∈ l, attestation.attesterDid = attesterDid else s.Awaits attesterDid did := by
  unfold Awaits
  rw [replacePendingAttestations_pendingOf]
  split_ifs <;> rfl

theorem replacePendingAttestations_pended (h : Pended s lost) (hl : l = [] ∨ Waiting l)
    (hfound : ∀ attestation ∈ l, ¬ lost attestation.attesterDid subjectDid)
    (hroom : s.totalPending + l.length ≤ u64Max) : Pended (s.replacePendingAttestations A subjectDid l) lost := by
  have htaken : Pended (s.takePendingAttestations A subjectDid).2 lost := takePendingAttestations_pended h
  rcases hl with rfl | hwaiting
  · exact htaken
  · have hne := hwaiting.nonempty
    have hcount := replacePendingAttestations_total A s subjectDid l
    have htake := takePendingAttestations_total A s subjectDid
    have hget : (withList (s.takePendingAttestations A subjectDid).2 subjectDid l).pendingAttestations[subjectDid]? =
        some l := by simp [withList]
    constructor
    case count =>
      have hleft : (s.replacePendingAttestations A subjectDid l).pendingAttestationCount =
          min ((s.takePendingAttestations A subjectDid).2.totalPending + l.length) u64Max := by
        rw [replacePendingAttestations_of_ne A s subjectDid hne, reindexPendingSubject_count, withList, htaken.count]
      rw [hleft]
      omega
    case lists =>
      intro did l' hl'
      rw [replacePendingAttestations_get?] at hl'
      split_ifs at hl'
      · cases hl'
        exact hwaiting
      · exact h.lists did l' hl'
    case attesters =>
      intro did attesterDid
      rw [awaits_replace, replacePendingAttestations_of_ne A s subjectDid hne,
        reindexPendingSubject_attesters hget hne]
      by_cases hdid : did = subjectDid
      · rw [if_pos hdid, if_pos hdid]
      · rw [if_neg hdid, if_neg hdid]
        refine (htaken.attesters did attesterDid).trans ?_
        rw [awaits_take]
        exact and_iff_left hdid
    case index =>
      intro attesterDid did
      rw [awaits_replace, replacePendingAttestations_of_ne A s subjectDid hne, reindexPendingSubject_index hget]
      refine (or_congr_left (htaken.index attesterDid did)).trans ?_
      rw [awaits_take]
      by_cases hdid : did = subjectDid
      · subst hdid
        rw [if_pos rfl]
        constructor
        · rintro (⟨⟨-, hself⟩, -⟩ | ⟨⟨attestation, hin, rfl⟩, -⟩)
          · exact absurd rfl hself
          · exact ⟨⟨attestation, hin, rfl⟩, hfound attestation hin⟩
        · rintro ⟨hin, -⟩
          exact .inr ⟨hin, rfl⟩
      · simp [hdid]

end Replace

/-! ### Keeping a part of a list -/

theorem mergeSort_byVerifiedAt (h : l.Pairwise fun a b => a.verifiedAt ≤ b.verifiedAt) : l.mergeSort byVerifiedAt = l :=
  List.mergeSort_of_pairwise (h.imp fun hab => decide_eq_true hab)

theorem sorted_mergeSort (l : List CapabilityAttestation) :
    (l.mergeSort byVerifiedAt).Pairwise fun a b => a.verifiedAt ≤ b.verifiedAt := by
  refine (List.pairwise_mergeSort (fun a b c hab hbc => ?_) (fun a b => ?_) l).imp of_decide_eq_true
  · exact decide_eq_true (UInt64.le_trans (of_decide_eq_true hab) (of_decide_eq_true hbc))
  · rcases UInt64.le_total a.verifiedAt b.verifiedAt with hab | hba
    · simp [hab]
    · simp [hba]

theorem Waiting.of_sublist {l' : List CapabilityAttestation} (h : Waiting l) (hsub : l'.Sublist l) :
    l' = [] ∨ Waiting l' := by
  by_cases hne : l' = []
  · exact .inl hne
  · exact .inr ⟨hne, h.sorted.sublist hsub, hsub.length_le.trans h.length_le⟩

/-- A list is taken out, and a part of it put back. -/
def keepPart (A : Ambient) (s : AgentDiscovery P) (subjectDid : String)
    (part : List CapabilityAttestation → List CapabilityAttestation) : AgentDiscovery P :=
  (s.takePendingAttestations A subjectDid).2.replacePendingAttestations A subjectDid (part (s.pendingOf subjectDid))

section KeepPart

variable {part : List CapabilityAttestation → List CapabilityAttestation}

theorem keepPart_beside (A : Ambient) (s : AgentDiscovery P) (subjectDid : String)
    (part : List CapabilityAttestation → List CapabilityAttestation) : Beside s (s.keepPart A subjectDid part) :=
  (takePendingAttestations_beside A s subjectDid).trans (replacePendingAttestations_beside A _ _ _)

theorem keepPart_pendingOf (A : Ambient) (s : AgentDiscovery P) (subjectDid : String)
    (part : List CapabilityAttestation → List CapabilityAttestation) (did : String) :
    (s.keepPart A subjectDid part).pendingOf did =
    if did = subjectDid then part (s.pendingOf subjectDid) else s.pendingOf did := by
  rw [keepPart, replacePendingAttestations_pendingOf, takePendingAttestations_pendingOf]
  split_ifs <;> rfl

theorem keepPart_total (A : Ambient) (s : AgentDiscovery P) (subjectDid : String)
    (part : List CapabilityAttestation → List CapabilityAttestation) :
    (s.keepPart A subjectDid part).totalPending + (s.pendingOf subjectDid).length =
    s.totalPending + (part (s.pendingOf subjectDid)).length := by
  have htake := takePendingAttestations_total A s subjectDid
  have hreplace := replacePendingAttestations_total A (s.takePendingAttestations A subjectDid).2 subjectDid
    (part (s.pendingOf subjectDid))
  rw [takePendingAttestations_pendingOf, if_pos rfl, List.length_nil, Nat.add_zero] at hreplace
  rw [keepPart, hreplace]
  omega

theorem keepPart_shrinks (hpart : (part (s.pendingOf subjectDid)).Sublist (s.pendingOf subjectDid)) :
    Shrinks s (s.keepPart A subjectDid part) where
  known did announcement h := by rwa [(keepPart_beside A s subjectDid part).knownAgents] at h
  pending did := by
    rw [keepPart_pendingOf]
    split_ifs with hdid
    · rw [hdid]
      exact hpart.subset
    · exact List.Subset.refl _
  total := by
    have htotal := keepPart_total A s subjectDid part
    have hlen := hpart.length_le
    omega

theorem keepPart_pended (h : Pended s lost) (hroom : s.totalPending ≤ u64Max)
    (hpart : (part (s.pendingOf subjectDid)).Sublist (s.pendingOf subjectDid))
    (hfound : ∀ attestation ∈ part (s.pendingOf subjectDid), ¬ lost attestation.attesterDid subjectDid) :
    Pended (s.keepPart A subjectDid part) lost := by
  have htotal := takePendingAttestations_total A s subjectDid
  have hlen := hpart.length_le
  refine replacePendingAttestations_pended (takePendingAttestations_pended h) ?_ hfound (by omega)
  by_cases hne : s.pendingOf subjectDid = []
  · left
    rw [hne] at hpart ⊢
    exact List.sublist_nil.mp hpart
  · exact (h.waiting hne).of_sublist hpart

end KeepPart

end AgentHalo.Discovery.AgentDiscovery
