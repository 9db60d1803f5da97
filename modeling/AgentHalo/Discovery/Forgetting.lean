import AgentHalo.Discovery.Pending

/-!
# Forgetting agents and attestations

Removing an agent takes its announcement, what waits under it, and what it has attested that waits elsewhere. Pruning
removes the expired agents and the attestations that have waited too long. The two eviction loops remove the agent with
the oldest timestamp, or the oldest pending attestations, until the limits hold.

Each operation has a lemma that says what it leaves, for states whose indices agree (`Core`).
-/

namespace AgentHalo.Discovery.AgentDiscovery

variable {P : Platform} {A : Ambient} {s t : AgentDiscovery P} {did subjectDid : String}

/-- Nothing is missing from the index by attester. -/
def noneLost : String → String → Prop := fun _ _ => False

/-- The agents are ordered by their timestamps, and the indices of the pending attestations agree. -/
structure Core (s : AgentDiscovery P) : Prop where
  order : ∀ time did, (time, did) ∈ s.knownAgentOrder ↔
    ∃ announcement, s.knownAgents[did]? = some announcement ∧ announcement.timestamp = time
  pended : Pended s noneLost

structure SameTopics (s t : AgentDiscovery P) : Prop where
  subscribedTopics : t.subscribedTopics = s.subscribedTopics
  subscriptionOrder : t.subscriptionOrder = s.subscriptionOrder

theorem SameTopics.refl (s : AgentDiscovery P) : SameTopics s s := ⟨rfl, rfl⟩

theorem SameTopics.trans {u : AgentDiscovery P} (h : SameTopics s t) (h' : SameTopics t u) : SameTopics s u :=
  ⟨h'.subscribedTopics.trans h.subscribedTopics, h'.subscriptionOrder.trans h.subscriptionOrder⟩

theorem Beside.sameTopics (h : Beside s t) : SameTopics s t := ⟨h.subscribedTopics, h.subscriptionOrder⟩

theorem Core.of_beside (h : Core s) (hbeside : Beside s t) (hpended : Pended t noneLost) : Core t where
  order time did := by
    rw [hbeside.knownAgentOrder, hbeside.knownAgents]
    exact h.order time did
  pended := hpended

/-! ### Parts of lists -/

theorem takePendingAttestations_again (A : Ambient) (s : AgentDiscovery P) (subjectDid : String) :
    ((s.takePendingAttestations A subjectDid).2.takePendingAttestations A subjectDid).2 =
      (s.takePendingAttestations A subjectDid).2 := by
  have hnone : (s.takePendingAttestations A subjectDid).2.pendingSubjectAttesters[subjectDid]? = none := by
    have hfield : (s.takePendingAttestations A subjectDid).2.pendingSubjectAttesters =
        (s.clearPendingSubjectIndex A subjectDid).pendingSubjectAttesters := rfl
    rw [hfield, clearPendingSubjectIndex]
    split
    · assumption
    · simp
  have hcleared : (s.takePendingAttestations A subjectDid).2.clearPendingSubjectIndex A subjectDid =
      (s.takePendingAttestations A subjectDid).2 := by
    rw [clearPendingSubjectIndex, hnone]
  have hempty : (s.takePendingAttestations A subjectDid).2.pendingAttestations[subjectDid]? = none := by simp
  have htaken : ∀ t : AgentDiscovery P, t.clearPendingSubjectIndex A subjectDid = t →
      t.pendingAttestations[subjectDid]? = none → (t.takePendingAttestations A subjectDid).2 = t := by
    intro t hclear habsent
    simp only [takePendingAttestations, hclear, habsent, OrdMap.erase_of_get?_eq_none habsent]
    rfl
  exact htaken _ hcleared hempty

theorem keepPart_nil (A : Ambient) (s : AgentDiscovery P) (subjectDid : String) :
    s.keepPart A subjectDid (fun _ => []) = (s.takePendingAttestations A subjectDid).2 :=
  takePendingAttestations_again A s subjectDid

/-- What is left of a list without the attestations of an agent. -/
def withoutAttester (did : String) (l : List CapabilityAttestation) : List CapabilityAttestation :=
  (l.filter (·.attesterDid ≠ did)).mergeSort byVerifiedAt

theorem withoutAttester_nil (did : String) : withoutAttester did [] = [] := List.mergeSort_nil

theorem forgetAttester_eq (A : Ambient) (s : AgentDiscovery P) (did subjectDid : String) :
    s.forgetAttester A did subjectDid = s.keepPart A subjectDid (withoutAttester did) := by
  unfold forgetAttester keepPart
  simp only [takePendingAttestations_fst]
  split_ifs with hempty
  · rw [List.isEmpty_iff.mp hempty, withoutAttester_nil]
    exact (keepPart_nil A s subjectDid).symm
  · rfl

theorem prunePending_eq (A : Ambient) (s : AgentDiscovery P) (subjectDid : String) :
    s.prunePending A subjectDid = s.keepPart A subjectDid fun l =>
      if s.knownAgents.contains subjectDid then l.filter (recent A.prune) else [] := by
  unfold prunePending keepPart
  simp only [takePendingAttestations_fst]
  split_ifs
  · rfl
  · exact (keepPart_nil A s subjectDid).symm

theorem withoutAttester_of_sorted {l : List CapabilityAttestation}
    (h : l.Pairwise fun a b => a.verifiedAt ≤ b.verifiedAt) (did : String) :
    withoutAttester did l = l.filter (·.attesterDid ≠ did) := mergeSort_byVerifiedAt (h.filter _)

/-! ### Removing an agent -/

theorem Pended.eraseIndex {subjects : Names} (h : Pended s noneLost) (hget : s.pendingAttesterIndex[did]? = some subjects) :
    Pended { s with pendingAttesterIndex := s.pendingAttesterIndex.erase did }
      fun attesterDid subjectDid => attesterDid = did ∧ subjectDid ∈ A.order subjects.toList where
  count := h.count
  lists := h.lists
  attesters := h.attesters
  index attesterDid subjectDid := by
    refine OrdMap.relates_erase.trans ?_
    rw [h.index]
    have hsame : Awaits { s with pendingAttesterIndex := s.pendingAttesterIndex.erase did } attesterDid subjectDid ↔
        s.Awaits attesterDid subjectDid := Iff.rfl
    rw [hsame]
    constructor
    · rintro ⟨⟨hawaits, -⟩, hne⟩
      exact ⟨hawaits, fun hlost => hne hlost.1⟩
    · rintro ⟨hawaits, hlost⟩
      refine ⟨⟨hawaits, fun h => h⟩, ?_⟩
      rintro rfl
      have hrelates := (h.index attesterDid subjectDid).mpr ⟨hawaits, fun h => h⟩
      rw [OrdMap.relates_of_get? hget] at hrelates
      exact hlost ⟨rfl, (mem_order A).mpr (Std.ExtTreeSet.mem_toList.mpr hrelates)⟩

variable {s : AgentDiscovery P} {fuel : Nat}

theorem forgetAttesters (A : Ambient) {subjects : List String} {did : String}
    (h : Pended s fun attesterDid subjectDid => attesterDid = did ∧ subjectDid ∈ subjects) (hroom : s.totalPending ≤ u64Max) :
    let r := subjects.foldl (fun s subjectDid => s.forgetAttester A did subjectDid) s
    Pended r noneLost ∧ Beside s r ∧ r.totalPending ≤ s.totalPending ∧
      ∀ subjectDid, r.pendingOf subjectDid = (s.pendingOf subjectDid).filter fun attestation =>
        subjectDid ∉ subjects || attestation.attesterDid ≠ did := by
  induction subjects generalizing s with
  | nil =>
    refine ⟨h.congr fun attesterDid subjectDid _ => ?_, .refl s, le_rfl, fun subjectDid => ?_⟩
    · simp [noneLost]
    · exact (List.filter_eq_self.mpr fun attestation _ => by simp).symm
  | cons subjectDid rest ih =>
    have heq := forgetAttester_eq A s did subjectDid
    have hpart : withoutAttester did (s.pendingOf subjectDid) = (s.pendingOf subjectDid).filter (·.attesterDid ≠ did) :=
      withoutAttester_of_sorted (h.sorted subjectDid) did
    have hsub : (withoutAttester did (s.pendingOf subjectDid)).Sublist (s.pendingOf subjectDid) := by
      rw [hpart]
      exact List.filter_sublist
    have hpended : Pended (s.forgetAttester A did subjectDid)
        fun attesterDid subjectDid' => attesterDid = did ∧ subjectDid' ∈ rest := by
      rw [heq]
      refine (keepPart_pended h hroom hsub ?_).congr fun attesterDid subjectDid' hawaits => ?_
      · rintro attestation hin ⟨hattester, -⟩
        rw [hpart, List.mem_filter] at hin
        exact of_decide_eq_true hin.2 hattester
      · refine and_congr_right fun hattester => ?_
        subst hattester
        rw [List.mem_cons, or_iff_right_iff_imp]
        rintro rfl
        obtain ⟨attestation, hin, hattester⟩ := hawaits
        rw [keepPart_pendingOf, if_pos rfl, hpart, List.mem_filter] at hin
        exact absurd hattester (of_decide_eq_true hin.2)
    have htotal : (s.forgetAttester A did subjectDid).totalPending ≤ s.totalPending := by
      rw [heq]
      exact (keepPart_shrinks hsub).total
    obtain ⟨hr, hbeside, hle, hof⟩ := ih hpended (htotal.trans hroom)
    refine ⟨hr, ?_, hle.trans htotal, fun subjectDid' => ?_⟩
    · have hstep : Beside s (s.forgetAttester A did subjectDid) := by
        rw [heq]
        exact keepPart_beside A s subjectDid _
      exact hstep.trans hbeside
    · rw [List.foldl_cons, hof, heq, keepPart_pendingOf]
      split_ifs with hsame
      · rw [hsame, hpart, List.filter_filter]
        refine List.filter_congr fun attestation _ => ?_
        by_cases hattester : attestation.attesterDid = did
        · simp [hattester]
        · simp [hattester]
      · refine List.filter_congr fun attestation _ => ?_
        simp [List.mem_cons, hsame]

private def withoutKnown (s : AgentDiscovery P) (did : String) : AgentDiscovery P :=
  match s.knownAgents[did]? with
  | none => s
  | some announcement =>
    { s with
      knownAgents := s.knownAgents.erase did
      knownAgentOrder := s.knownAgentOrder.erase (announcement.timestamp, did) }

private theorem withoutKnown_core (h : Core s) (did : String) : (s.withoutKnown did).knownAgents = s.knownAgents.erase did ∧
    SameTopics s (s.withoutKnown did) ∧ (s.withoutKnown did).pendingOf = s.pendingOf ∧
    (s.withoutKnown did).totalPending = s.totalPending ∧ Core (s.withoutKnown did) := by
  unfold withoutKnown
  split
  · rename_i hnone
    exact ⟨(OrdMap.erase_of_get?_eq_none hnone).symm, .refl s, rfl, rfl, h⟩
  · rename_i announcement hsome
    refine ⟨rfl, ⟨rfl, rfl⟩, rfl, rfl, ?_, ⟨h.pended.count, h.pended.lists, h.pended.attesters, h.pended.index⟩⟩
    intro time other
    dsimp only
    rw [Std.ExtTreeSet.mem_erase, h.order, OrdMap.get?_erase, ne_eq, Std.LawfulEqCmp.compare_eq_iff_eq, Prod.mk.injEq]
    by_cases hother : did = other
    · subst hother
      rw [if_pos rfl, hsome]
      constructor
      · rintro ⟨hne, other, hother, htime⟩
        cases hother
        exact absurd ⟨htime, rfl⟩ hne
      · rintro ⟨other, hother, -⟩
        cases hother
    · rw [if_neg hother]
      exact and_iff_right fun heq => hother heq.2

/-- The state once what waits for the agent elsewhere is gone. -/
private def withoutWaiting (A : Ambient) (s : AgentDiscovery P) (did : String) : AgentDiscovery P :=
  match s.pendingAttesterIndex[did]? with
  | none => s
  | some subjects =>
    (A.order subjects.toList).foldl (fun s subjectDid => s.forgetAttester A did subjectDid)
      { s with pendingAttesterIndex := s.pendingAttesterIndex.erase did }

theorem removeKnownAgent_spec (A : Ambient) (h : Core s) (hroom : s.totalPending ≤ u64Max) (did : String) :
    let r := s.removeKnownAgent A did
    Core r ∧ SameTopics s r ∧ r.totalPending ≤ s.totalPending ∧ r.knownAgents = s.knownAgents.erase did ∧
      ∀ subjectDid, r.pendingOf subjectDid =
        if subjectDid = did then [] else (s.pendingOf subjectDid).filter (·.attesterDid ≠ did) := by
  obtain ⟨hknown, htopics, hpending, htotal, hcore⟩ := withoutKnown_core h did
  let removed := s.withoutKnown did
  let cleared := if removed.pendingAttestations.contains did then removed.replacePendingAttestations A did [] else removed
  have hcleared : Pended cleared noneLost ∧ Beside removed cleared ∧ cleared.totalPending ≤ removed.totalPending ∧
      ∀ subjectDid, cleared.pendingOf subjectDid = if subjectDid = did then [] else removed.pendingOf subjectDid := by
    unfold cleared
    split_ifs with hcontains
    · rw [replacePendingAttestations_nil]
      exact ⟨takePendingAttestations_pended hcore.pended, takePendingAttestations_beside A removed did,
        (takePendingAttestations_shrinks A removed did).total, takePendingAttestations_pendingOf A removed did⟩
    · refine ⟨hcore.pended, .refl _, le_rfl, fun subjectDid => ?_⟩
      split_ifs with hsubject
      · subst hsubject
        rw [Std.ExtTreeMap.contains_eq_isSome_getElem?, Option.not_isSome_iff_eq_none] at hcontains
        exact pendingOf_eq_nil hcontains
      · rfl
  obtain ⟨hpended, hbeside, hle, hof⟩ := hcleared
  have hroom' : cleared.totalPending ≤ u64Max := by
    rw [htotal] at hle
    exact hle.trans hroom
  have hresult : s.removeKnownAgent A did = withoutWaiting A cleared did := rfl
  have hself : cleared.pendingOf did = [] := by rw [hof, if_pos rfl]
  -- Whether or not the agent is in the index, what waits elsewhere for it is dropped.
  obtain ⟨hr, hrbeside, hrle, hrof⟩ : Pended (s.removeKnownAgent A did) noneLost ∧
      Beside cleared (s.removeKnownAgent A did) ∧ (s.removeKnownAgent A did).totalPending ≤ cleared.totalPending ∧
      ∀ subjectDid, (s.removeKnownAgent A did).pendingOf subjectDid =
        (cleared.pendingOf subjectDid).filter (·.attesterDid ≠ did) := by
    rw [hresult, withoutWaiting]
    cases hindex : cleared.pendingAttesterIndex[did]? with
    | none =>
      refine ⟨hpended, .refl _, le_rfl, fun subjectDid => (List.filter_eq_self.mpr ?_).symm⟩
      intro attestation hin
      refine decide_eq_true fun hattester => ?_
      obtain ⟨subjects, hsubjects, -⟩ := (hpended.index did subjectDid).mpr ⟨⟨attestation, hin, hattester⟩, fun h => h⟩
      rw [hindex] at hsubjects
      cases hsubjects
    | some subjects =>
      have herased := hpended.eraseIndex (A := A) hindex
      obtain ⟨hr, hrbeside, hrle, hrof⟩ := forgetAttesters A herased hroom'
      refine ⟨hr, ⟨hrbeside.1, hrbeside.2, hrbeside.3, hrbeside.4⟩, hrle, fun subjectDid => ?_⟩
      refine (hrof subjectDid).trans (List.filter_congr fun attestation hin => ?_)
      by_cases hmem : subjectDid ∈ A.order subjects.toList
      · simp [hmem]
      · have hother : attestation.attesterDid ≠ did := by
          intro hattester
          have hrelates := (hpended.index did subjectDid).mpr ⟨⟨attestation, hin, hattester⟩, fun h => h⟩
          rw [OrdMap.relates_of_get? hindex] at hrelates
          exact hmem ((mem_order A).mpr (Std.ExtTreeSet.mem_toList.mpr hrelates))
        simp [hmem, hother]
  have hfrom : Beside removed (s.removeKnownAgent A did) := hbeside.trans hrbeside
  refine ⟨hcore.of_beside hfrom hr, htopics.trans hfrom.sameTopics, ?_, hfrom.knownAgents.trans hknown, ?_⟩
  · rw [← htotal]
    exact hrle.trans hle
  · intro subjectDid
    rw [hrof, hof]
    split_ifs
    · rfl
    · exact congrArg (List.filter _) (congrFun hpending subjectDid)

theorem Shrinks.of_filter (hknown : ∀ (did : String) announcement, t.knownAgents[did]? = some announcement →
      s.knownAgents[did]? = some announcement)
    (hpending : ∀ did attestation, attestation ∈ t.pendingOf did → attestation ∈ s.pendingOf did)
    (htotal : t.totalPending ≤ s.totalPending) : Shrinks s t :=
  ⟨hknown, fun did _ hin => hpending did _ hin, htotal⟩

theorem removeKnownAgent_shrinks (A : Ambient) (h : Core s) (hroom : s.totalPending ≤ u64Max) (did : String) :
    Shrinks s (s.removeKnownAgent A did) := by
  obtain ⟨-, -, htotal, hknown, hof⟩ := removeKnownAgent_spec A h hroom did
  refine .of_filter (fun other announcement hother => ?_) (fun other attestation hin => ?_) htotal
  · rw [hknown, OrdMap.get?_erase] at hother
    split_ifs at hother
    exact hother
  · rw [hof] at hin
    split_ifs at hin
    · cases hin
    · exact (List.mem_filter.mp hin).1

/-! ### Pruning -/

theorem removeKnownAgents (A : Ambient) (h : Core s) (hroom : s.totalPending ≤ u64Max) (dids : List String) :
    let r := dids.foldl (fun s did => s.removeKnownAgent A did) s
    Core r ∧ SameTopics s r ∧ r.totalPending ≤ s.totalPending ∧
      (∀ did : String, r.knownAgents[did]? = if did ∈ dids then none else s.knownAgents[did]?) ∧
      ∀ did, r.pendingOf did =
        if did ∈ dids then [] else (s.pendingOf did).filter fun attestation => attestation.attesterDid ∉ dids := by
  induction dids generalizing s with
  | nil =>
    refine ⟨h, .refl s, le_rfl, fun did => rfl, fun did => ?_⟩
    exact (List.filter_eq_self.mpr fun attestation _ => by simp).symm
  | cons did rest ih =>
    obtain ⟨hcore, htopics, htotal, hknown, hof⟩ := removeKnownAgent_spec A h hroom did
    obtain ⟨hcore', htopics', htotal', hknown', hof'⟩ := ih hcore (htotal.trans hroom)
    refine ⟨hcore', htopics.trans htopics', htotal'.trans htotal, fun other => ?_, fun other => ?_⟩
    · rw [List.foldl_cons, hknown', hknown, OrdMap.get?_erase]
      by_cases hother : other = did
      · simp [hother]
      · simp [hother, Ne.symm hother]
    · rw [List.foldl_cons, hof', hof]
      by_cases hother : other = did
      · simp [hother]
      · simp only [hother, if_false, List.mem_cons, false_or, List.filter_filter]
        split_ifs
        · rfl
        · refine List.filter_congr fun attestation _ => ?_
          simp [Bool.and_comm]

theorem prunePendings (A : Ambient) (h : Core s) (hroom : s.totalPending ≤ u64Max) (subjects : List String) :
    let r := subjects.foldl (fun s subjectDid => s.prunePending A subjectDid) s
    Core r ∧ Beside s r ∧ r.totalPending ≤ s.totalPending ∧
      ∀ did, r.pendingOf did =
        if did ∈ subjects then (if s.knownAgents.contains did then (s.pendingOf did).filter (recent A.prune) else [])
        else s.pendingOf did := by
  induction subjects generalizing s with
  | nil => exact ⟨h, .refl s, le_rfl, fun did => rfl⟩
  | cons subjectDid rest ih =>
    let part (l : List CapabilityAttestation) : List CapabilityAttestation :=
      if s.knownAgents.contains subjectDid then l.filter (recent A.prune) else []
    have heq : s.prunePending A subjectDid = s.keepPart A subjectDid part := prunePending_eq A s subjectDid
    have hpart (l : List CapabilityAttestation) : (part l).Sublist l := by
      unfold part
      split_ifs
      · exact List.filter_sublist
      · exact List.nil_sublist l
    have hbeside : Beside s (s.prunePending A subjectDid) := by
      rw [heq]
      exact keepPart_beside A s subjectDid _
    have htotal : (s.prunePending A subjectDid).totalPending ≤ s.totalPending := by
      rw [heq]
      exact (keepPart_shrinks (hpart _)).total
    have hcore : Core (s.prunePending A subjectDid) := by
      refine h.of_beside hbeside ?_
      rw [heq]
      exact keepPart_pended h.pended hroom (hpart _) fun _ _ h => h
    obtain ⟨hcore', hbeside', htotal', hof'⟩ := ih hcore (htotal.trans hroom)
    refine ⟨hcore', hbeside.trans hbeside', htotal'.trans htotal, fun did => ?_⟩
    rw [List.foldl_cons, hof', hbeside.knownAgents, heq, keepPart_pendingOf]
    by_cases hdid : did = subjectDid
    · subst hdid
      simp only [if_true, List.mem_cons, true_or, part]
      by_cases hknown : s.knownAgents.contains did = true
      · simp [hknown, List.filter_filter]
      · simp [hknown]
    · simp [hdid]

/-- Pruning leaves the agents that have not expired, and what waits under one of them, recent enough, for an attester
that has not just expired. -/
theorem pruneExpired_spec (A : Ambient) (h : Core s) (hroom : s.totalPending ≤ u64Max) :
    let r := s.pruneExpired A
    let expired (did : String) : Bool := (s.knownAgents[did]?).any (isExpired A.prune)
    Core r ∧ SameTopics s r ∧ r.totalPending ≤ s.totalPending ∧
      (∀ did : String, r.knownAgents[did]? = if expired did then none else s.knownAgents[did]?) ∧
      ∀ did, r.pendingOf did = if r.knownAgents.contains did then
        (s.pendingOf did).filter fun attestation => recent A.prune attestation && !expired attestation.attesterDid
        else [] := by
  let expired := (A.order s.knownAgents.keys).filter fun did => (s.knownAgents[did]?).any (isExpired A.prune)
  have hexpired (did : String) : did ∈ expired ↔ (s.knownAgents[did]?).any (isExpired A.prune) = true := by
    unfold expired
    rw [List.mem_filter, mem_order, Std.ExtTreeMap.mem_keys, Std.ExtTreeMap.mem_iff_isSome_getElem?]
    refine and_iff_right_of_imp fun hany => ?_
    cases hget : s.knownAgents[did]? with
    | none =>
      rw [hget] at hany
      cases hany
    | some announcement => rfl
  obtain ⟨hcore, htopics, htotal, hknown, hof⟩ := removeKnownAgents A h hroom expired
  let pruned := expired.foldl (fun s did => s.removeKnownAgent A did) s
  obtain ⟨hcore', hbeside, htotal', hof'⟩ := prunePendings A hcore (htotal.trans hroom)
    (A.order pruned.pendingAttestations.keys)
  have hresult : s.pruneExpired A =
      (A.order pruned.pendingAttestations.keys).foldl (fun s subjectDid => s.prunePending A subjectDid) pruned := rfl
  have hknown' (did : String) : (s.pruneExpired A).knownAgents[did]? =
      if (s.knownAgents[did]?).any (isExpired A.prune) then none else s.knownAgents[did]? := by
    rw [hresult, hbeside.knownAgents, hknown]
    by_cases hmem : did ∈ expired
    · rw [if_pos hmem, if_pos ((hexpired did).mp hmem)]
    · rw [if_neg hmem, if_neg (fun hany => hmem ((hexpired did).mpr hany))]
  refine ⟨hcore', htopics.trans hbeside.sameTopics, htotal'.trans htotal, hknown', fun did => ?_⟩
  have hcontains : (s.pruneExpired A).knownAgents.contains did = pruned.knownAgents.contains did := by
    rw [hresult, hbeside.knownAgents]
  -- A subject without a key has nothing that waits.
  have hstep : (s.pruneExpired A).pendingOf did =
      if pruned.knownAgents.contains did then (pruned.pendingOf did).filter (recent A.prune) else [] := by
    rw [hresult, hof']
    by_cases hmem : did ∈ A.order pruned.pendingAttestations.keys
    · rw [if_pos hmem]
    · have hnone : pruned.pendingOf did = [] := by
        refine pendingOf_eq_nil (Option.not_isSome_iff_eq_none.mp fun hsome => hmem ?_)
        rw [mem_order, Std.ExtTreeMap.mem_keys, Std.ExtTreeMap.mem_iff_isSome_getElem?]
        exact hsome
      rw [if_neg hmem, hnone]
      simp
  rw [hstep, hcontains]
  by_cases hcontained : pruned.knownAgents.contains did = true
  · rw [if_pos hcontained, if_pos hcontained]
    have hmem : did ∉ expired := by
      intro hmem
      rw [Std.ExtTreeMap.contains_eq_isSome_getElem?, hknown, if_pos hmem] at hcontained
      cases hcontained
    rw [hof, if_neg hmem, List.filter_filter]
    refine List.filter_congr fun attestation _ => ?_
    simp only [hexpired, decide_not, Bool.decide_eq_true]
  · rw [if_neg hcontained, if_neg hcontained]

theorem pruneExpired_shrinks (A : Ambient) (h : Core s) (hroom : s.totalPending ≤ u64Max) :
    Shrinks s (s.pruneExpired A) := by
  obtain ⟨-, -, htotal, hknown, hof⟩ := pruneExpired_spec A h hroom
  refine .of_filter (fun did announcement hget => ?_) (fun did attestation hin => ?_) htotal
  · rw [hknown] at hget
    split_ifs at hget
    exact hget
  · rw [hof] at hin
    split_ifs at hin
    · exact (List.mem_filter.mp hin).1
    · cases hin

/-! ### Too many agents -/

theorem evictKnown_step (h : Core s) (hroom : s.totalPending ≤ u64Max) (hstep : evictKnown A s = some t) :
    Core t ∧ SameTopics s t ∧ Shrinks s t ∧ t.knownAgents.size < s.knownAgents.size := by
  unfold evictKnown at hstep
  split_ifs at hstep
  obtain ⟨⟨time, did⟩, holdest, rfl⟩ := Option.map_eq_some_iff.mp hstep
  obtain ⟨hcore, htopics, -, hknown, -⟩ := removeKnownAgent_spec A h hroom did
  refine ⟨hcore, htopics, removeKnownAgent_shrinks A h hroom did, ?_⟩
  obtain ⟨announcement, hget, -⟩ := (h.order time did).mp (Std.ExtTreeSet.min?_mem holdest)
  have hin : did ∈ s.knownAgents := by
    rw [Std.ExtTreeMap.mem_iff_isSome_getElem?, hget]
    rfl
  have hpos : s.knownAgents.size ≠ 0 := by
    intro hzero
    rw [← Std.ExtTreeMap.eq_empty_iff_size_eq_zero] at hzero
    rw [hzero] at hin
    exact Std.ExtTreeMap.not_mem_empty hin
  rw [hknown, Std.ExtTreeMap.size_erase, if_pos (Std.ExtTreeMap.mem_iff_contains.mp hin)]
  omega

theorem size_le_of_evictKnown (h : Core s) (hover : evictKnown A s = none) : s.knownAgents.size ≤ maxKnownAgents := by
  unfold evictKnown at hover
  split_ifs at hover with hle
  · exact hle
  · rw [Option.map_eq_none_iff, Std.ExtTreeSet.min?_eq_none_iff] at hover
    have hempty : s.knownAgents = ∅ := by
      refine Std.ExtTreeMap.ext_getElem? fun did => ?_
      rw [Std.ExtTreeMap.getElem?_empty, ← Option.not_isSome_iff_eq_none]
      intro hsome
      obtain ⟨announcement, hget⟩ := Option.isSome_iff_exists.mp hsome
      have hin := (h.order announcement.timestamp did).mpr ⟨announcement, hget, rfl⟩
      rw [hover] at hin
      exact Std.ExtTreeSet.not_mem_empty hin
    rw [hempty, Std.ExtTreeMap.size_empty]
    exact Nat.zero_le _

theorem enforceKnownAgentLimit_spec (h : Core s) (hroom : s.totalPending ≤ u64Max)
    (hrun : s.enforceKnownAgentLimit A fuel = some t) :
    Core t ∧ SameTopics s t ∧ Shrinks s t ∧ t.knownAgents.size ≤ maxKnownAgents := by
  obtain ⟨⟨hcore, -⟩, ⟨htopics, hshrinks⟩, hover⟩ := While.run_related
    (I := fun s => Core s ∧ s.totalPending ≤ u64Max) (R := fun s t => SameTopics s t ∧ Shrinks s t)
    (fun s => ⟨.refl s, .refl s⟩) (fun _ _ _ h h' => ⟨h.1.trans h'.1, h.2.trans h'.2⟩)
    (fun s t hs hstep => by
      obtain ⟨hcore, htopics, hshrinks, -⟩ := evictKnown_step hs.1 hs.2 hstep
      exact ⟨⟨hcore, hshrinks.total.trans hs.2⟩, htopics, hshrinks⟩) ⟨h, hroom⟩ hrun
  exact ⟨hcore, htopics, hshrinks, size_le_of_evictKnown hcore hover⟩

theorem exists_enforceKnownAgentLimit (A : Ambient) (h : Core s) (hroom : s.totalPending ≤ u64Max)
    (hfuel : s.knownAgents.size < fuel) : ∃ t, s.enforceKnownAgentLimit A fuel = some t :=
  While.exists_run (I := fun s => Core s ∧ s.totalPending ≤ u64Max) (fun s => s.knownAgents.size)
    (fun s t hs hstep => by
      obtain ⟨hcore, -, hshrinks, hlt⟩ := evictKnown_step hs.1 hs.2 hstep
      exact ⟨⟨hcore, hshrinks.total.trans hs.2⟩, hlt⟩) ⟨h, hroom⟩ hfuel

theorem enforceKnownAgentLimit_of_le (hfuel : 0 < fuel) (hle : s.knownAgents.size ≤ maxKnownAgents) :
    s.enforceKnownAgentLimit A fuel = some s := While.run_of_none hfuel (if_pos hle)

/-! ### Too many pending attestations -/

theorem mem_of_minByKey {α : Type} {key : α → UInt64} {l : List α} {a : α} (h : minByKey key l = some a) : a ∈ l := by
  cases l with
  | nil => cases h
  | cons first rest =>
    have hfold : ∀ (rest : List α) (best : α),
        rest.foldl (fun best b => if key b < key best then b else best) best ∈ best :: rest := by
      intro rest
      induction rest with
      | nil => exact fun best => List.mem_singleton.mpr rfl
      | cons b rest ih =>
        intro best
        rw [List.foldl_cons]
        split_ifs
        · exact List.mem_cons_of_mem best (ih b)
        · exact (List.mem_cons.mp (ih best)).elim (fun heq => List.mem_cons.mpr (.inl heq))
            fun hin => List.mem_cons_of_mem best (List.mem_cons_of_mem b hin)
    rw [minByKey, Option.some.injEq] at h
    rw [← h]
    exact hfold rest first

theorem pendingOf_of_oldest (h : s.oldestPendingSubject A = some subjectDid) : s.pendingOf subjectDid ≠ [] := by
  unfold oldestPendingSubject at h
  obtain ⟨⟨did, time⟩, hmin, rfl⟩ := Option.map_eq_some_iff.mp h
  obtain ⟨key, -, hfirst⟩ := List.mem_filterMap.mp (mem_of_minByKey hmin)
  obtain ⟨attestation, hhead, heq⟩ := Option.map_eq_some_iff.mp hfirst
  obtain ⟨l, hl, hhead'⟩ := Option.bind_eq_some_iff.mp hhead
  obtain ⟨rfl, -⟩ := Prod.mk.inj heq
  rw [pendingOf_of_get? hl]
  rintro rfl
  cases hhead'

theorem evictPending_step (h : Core s) (hroom : s.totalPending ≤ u64Max) (hstep : evictPending A s = some t) :
    Core t ∧ Beside s t ∧ Shrinks s t ∧ t.totalPending < s.totalPending := by
  unfold evictPending at hstep
  split_ifs at hstep with hcount
  obtain ⟨subjectDid, holdest, hround⟩ := Option.map_eq_some_iff.mp hstep
  have hlen : 0 < (s.pendingOf subjectDid).length := List.length_pos_iff.mpr (pendingOf_of_oldest holdest)
  have htake := takePendingAttestations_total A s subjectDid
  have htaken : (s.takePendingAttestations A subjectDid).2.pendingAttestationCount =
      (s.takePendingAttestations A subjectDid).2.totalPending := (takePendingAttestations_pended h.pended).count
  simp only [takePendingAttestations_fst, htaken] at hround
  rw [h.pended.count] at hcount
  split_ifs at hround with hall
  · subst hround
    have hbeside := takePendingAttestations_beside A s subjectDid
    exact ⟨h.of_beside hbeside (takePendingAttestations_pended h.pended), hbeside,
      takePendingAttestations_shrinks A s subjectDid, by omega⟩
  · subst hround
    let overflow := min ((s.takePendingAttestations A subjectDid).2.totalPending + (s.pendingOf subjectDid).length)
      u64Max - maxTotalPendingAttestations
    have hpart : ((s.pendingOf subjectDid).drop overflow).Sublist (s.pendingOf subjectDid) := List.drop_sublist _ _
    have hbeside := keepPart_beside A s subjectDid (List.drop overflow)
    refine ⟨h.of_beside hbeside (keepPart_pended h.pended hroom hpart fun _ _ h => h), hbeside,
      keepPart_shrinks hpart, ?_⟩
    have htotal := keepPart_total A s subjectDid (List.drop overflow)
    rw [List.length_drop] at htotal
    have hoverflow : 0 < overflow := by
      unfold overflow
      omega
    change (s.keepPart A subjectDid (List.drop overflow)).totalPending < s.totalPending
    omega

theorem total_le_of_evictPending (h : Core s) (hover : evictPending A s = none) :
    s.totalPending ≤ maxTotalPendingAttestations := by
  unfold evictPending at hover
  split_ifs at hover with hle
  · rw [← h.pended.count]
    exact hle
  · -- No list is empty, so without an oldest subject there is none.
    have hempty : s.pendingAttestations = ∅ := by
      refine Std.ExtTreeMap.ext_getElem? fun did => ?_
      rw [Std.ExtTreeMap.getElem?_empty, ← Option.not_isSome_iff_eq_none]
      intro hsome
      obtain ⟨l, hl⟩ := Option.isSome_iff_exists.mp hsome
      obtain ⟨attestation, hhead⟩ := List.exists_cons_of_ne_nil (h.pended.lists did l hl).nonempty
      obtain ⟨rest, rfl⟩ := hhead
      rw [Option.map_eq_none_iff, oldestPendingSubject, Option.map_eq_none_iff] at hover
      have hin : (did, attestation.verifiedAt) ∈ (A.order s.pendingAttestations.keys).filterMap fun subjectDid =>
          ((s.pendingAttestations[subjectDid]?).bind List.head?).map fun attestation =>
            (subjectDid, attestation.verifiedAt) := by
        refine List.mem_filterMap.mpr ⟨did, ?_, by rw [hl]; rfl⟩
        rw [mem_order, Std.ExtTreeMap.mem_keys, Std.ExtTreeMap.mem_iff_isSome_getElem?]
        exact hsome
      cases hfirsts : (A.order s.pendingAttestations.keys).filterMap fun subjectDid =>
          ((s.pendingAttestations[subjectDid]?).bind List.head?).map fun attestation =>
            (subjectDid, attestation.verifiedAt) with
      | nil =>
        rw [hfirsts] at hin
        cases hin
      | cons first others =>
        rw [hfirsts] at hover
        cases hover
    rw [totalPending, hempty, OrdMap.total_empty]
    exact Nat.zero_le _

theorem enforcePendingAttestationLimit_spec (h : Core s) (hroom : s.totalPending ≤ u64Max)
    (hrun : s.enforcePendingAttestationLimit A fuel = some t) :
    Core t ∧ Beside s t ∧ Shrinks s t ∧ t.totalPending ≤ maxTotalPendingAttestations := by
  obtain ⟨⟨hcore, -⟩, ⟨hbeside, hshrinks⟩, hover⟩ := While.run_related
    (I := fun s => Core s ∧ s.totalPending ≤ u64Max) (R := fun s t => Beside s t ∧ Shrinks s t)
    (fun s => ⟨.refl s, .refl s⟩) (fun _ _ _ h h' => ⟨h.1.trans h'.1, h.2.trans h'.2⟩)
    (fun s t hs hstep => by
      obtain ⟨hcore, hbeside, hshrinks, -⟩ := evictPending_step hs.1 hs.2 hstep
      exact ⟨⟨hcore, hshrinks.total.trans hs.2⟩, hbeside, hshrinks⟩) ⟨h, hroom⟩ hrun
  exact ⟨hcore, hbeside, hshrinks, total_le_of_evictPending hcore hover⟩

theorem exists_enforcePendingAttestationLimit (A : Ambient) (h : Core s) (hroom : s.totalPending ≤ u64Max)
    (hfuel : s.totalPending < fuel) : ∃ t, s.enforcePendingAttestationLimit A fuel = some t :=
  While.exists_run (I := fun s => Core s ∧ s.totalPending ≤ u64Max) totalPending
    (fun s t hs hstep => by
      obtain ⟨hcore, -, hshrinks, hlt⟩ := evictPending_step hs.1 hs.2 hstep
      exact ⟨⟨hcore, hshrinks.total.trans hs.2⟩, hlt⟩) ⟨h, hroom⟩ hfuel

theorem enforcePendingAttestationLimit_of_le (hfuel : 0 < fuel) (h : Core s)
    (hle : s.totalPending ≤ maxTotalPendingAttestations) : s.enforcePendingAttestationLimit A fuel = some s := by
  refine While.run_of_none hfuel (if_pos ?_)
  rw [h.pended.count]
  exact hle

end AgentHalo.Discovery.AgentDiscovery
