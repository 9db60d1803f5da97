import AgentHalo.Discovery.Forgetting

/-!
# What an arrival does

An accepted announcement prunes the state, takes its place among the known agents, leaves its deferred attestations to
wait, and has what waits for its agent replayed. `upsertVerifiedInner_stages` names the state after each of these steps.

`Bounded` states are those whose indices agree and whose two limits hold; an arrival keeps them so and, with enough
rounds for its loops, always comes to an end.
-/

namespace AgentHalo.Discovery.AgentDiscovery

open Pod (DIDDocument)

variable {P : Platform} {W : Wire P} {A : Ambient} {s t : AgentDiscovery P} {did subjectDid attesterDid : String}
  {document : DIDDocument} {announcement : AgentAnnouncement P} {deferred : List CapabilityAttestation} {fuel : Nat}

/-- The indices agree, and the limits hold. -/
structure Bounded (s : AgentDiscovery P) : Prop extends Core s where
  known_le : s.knownAgents.size ≤ maxKnownAgents
  pending_le : s.totalPending ≤ maxTotalPendingAttestations

theorem Bounded.room (h : Bounded s) : s.totalPending ≤ u64Max := h.pending_le.trans (by decide)

theorem insertKnown_spec (h : Core s) (announcement : AgentAnnouncement P) :
    Core (s.insertKnown announcement) ∧ SameTopics s (s.insertKnown announcement) ∧
      (s.insertKnown announcement).pendingOf = s.pendingOf ∧
      (s.insertKnown announcement).totalPending = s.totalPending := by
  refine ⟨⟨?_, ⟨h.pended.count, h.pended.lists, h.pended.attesters, h.pended.index⟩⟩, ⟨rfl, rfl⟩, rfl, rfl⟩
  intro time did
  have hothers : ∀ others : AgentOrder, (time, did) ∈ others.insert (announcement.timestamp, announcement.did) ↔
      (announcement.timestamp = time ∧ announcement.did = did) ∨ (time, did) ∈ others := by
    intro others
    rw [Std.ExtTreeSet.mem_insert, Std.LawfulEqCmp.compare_eq_iff_eq, Prod.mk.injEq]
  -- The entry of the announcement that is replaced goes; every other one stays.
  obtain ⟨others, horder, hold⟩ : ∃ others : AgentOrder,
      (s.insertKnown announcement).knownAgentOrder = others.insert (announcement.timestamp, announcement.did) ∧
      ((time, did) ∈ others ↔ did ≠ announcement.did ∧ (time, did) ∈ s.knownAgentOrder) := by
    refine ⟨_, rfl, ?_⟩
    split
    · rename_i hnone
      refine (and_iff_right_of_imp fun hin => ?_).symm
      rintro rfl
      obtain ⟨previous, hprevious, -⟩ := (h.order _ _).mp hin
      rw [hnone] at hprevious
      cases hprevious
    · rename_i previous hsome
      rw [Std.ExtTreeSet.mem_erase, ne_eq, Std.LawfulEqCmp.compare_eq_iff_eq, Prod.mk.injEq]
      refine and_congr_left fun hin => ?_
      constructor
      · rintro hne rfl
        obtain ⟨previous', hprevious, htime⟩ := (h.order _ _).mp hin
        rw [hsome] at hprevious
        cases hprevious
        exact hne ⟨htime, rfl⟩
      · rintro hne ⟨-, rfl⟩
        exact hne rfl
  have hfield : (s.insertKnown announcement).knownAgents = s.knownAgents.insert announcement.did announcement := rfl
  rw [hfield, OrdMap.get?_insert, horder, hothers, hold, h.order]
  by_cases hdid : announcement.did = did
  · simp [hdid]
  · simp [hdid, Ne.symm hdid]

/-! ### Waiting -/

/-- The list that waits under the subject once the deferred attestations have joined it. -/
def joinedPending (A : Ambient) (s : AgentDiscovery P) (subjectDid : String) (deferred : List CapabilityAttestation) :
    List CapabilityAttestation :=
  (s.pendingOf subjectDid ++ deferred.filter (recent A.store)).mergeSort byVerifiedAt

/-- The newest of a list, as many as may wait under a subject. -/
def capped (l : List CapabilityAttestation) : List CapabilityAttestation :=
  if maxPendingAttestationsPerSubject < l.length then l.drop (l.length - maxPendingAttestationsPerSubject) else l

theorem capped_sublist (l : List CapabilityAttestation) : (capped l).Sublist l := by
  unfold capped
  split_ifs
  · exact List.drop_sublist _ _
  · exact .refl l

theorem length_capped_le (l : List CapabilityAttestation) : (capped l).length ≤ maxPendingAttestationsPerSubject := by
  unfold capped
  split_ifs with hlong
  · rw [List.length_drop]
    omega
  · exact Nat.le_of_not_lt hlong

theorem capped_nil_iff (l : List CapabilityAttestation) : capped l = [] ↔ l = [] := by
  unfold capped
  split_ifs with hlong
  · have hpos : 0 < maxPendingAttestationsPerSubject := by decide
    rw [List.drop_eq_nil_iff]
    constructor
    · intro hle
      omega
    · rintro rfl
      exact Nat.zero_le _
  · rfl

def afterStore (A : Ambient) (s : AgentDiscovery P) (subjectDid : String) (deferred : List CapabilityAttestation) :
    AgentDiscovery P :=
  (s.takePendingAttestations A subjectDid).2.replacePendingAttestations A subjectDid
    (capped (s.joinedPending A subjectDid deferred))

theorem storePendingAttestations_eq (A : Ambient) (s : AgentDiscovery P) (subjectDid : String) (fuel : Nat)
    (deferred : List CapabilityAttestation) :
    s.storePendingAttestations A subjectDid fuel deferred = if s.joinedPending A subjectDid deferred = []
      then some (s.afterStore A subjectDid deferred)
      else (s.afterStore A subjectDid deferred).enforcePendingAttestationLimit A fuel := by
  have hsorted : s.joinedPending A subjectDid deferred = [] ↔
      s.pendingOf subjectDid ++ deferred.filter (recent A.store) = [] := by
    unfold joinedPending
    rw [← List.length_eq_zero_iff, List.length_mergeSort, List.length_eq_zero_iff]
  unfold storePendingAttestations
  simp only [takePendingAttestations_fst, List.isEmpty_iff]
  by_cases hempty : s.pendingOf subjectDid ++ deferred.filter (recent A.store) = []
  · rw [if_pos hempty, if_pos (hsorted.mpr hempty), afterStore, (capped_nil_iff _).mpr (hsorted.mpr hempty), hempty]
  · rw [if_neg hempty, if_neg fun h => hempty (hsorted.mp h)]
    rfl

theorem afterStore_spec (A : Ambient) (h : Core s) (hle : s.totalPending ≤ maxTotalPendingAttestations)
    (subjectDid : String) (deferred : List CapabilityAttestation) :
    let r := s.afterStore A subjectDid deferred
    Core r ∧ Beside s r ∧ r.totalPending ≤ maxTotalPendingAttestations + maxPendingAttestationsPerSubject ∧
      r.totalPending + (s.pendingOf subjectDid).length =
        s.totalPending + (capped (s.joinedPending A subjectDid deferred)).length ∧
      ∀ did, r.pendingOf did =
        if did = subjectDid then capped (s.joinedPending A subjectDid deferred) else s.pendingOf did := by
  have hbeside : Beside s (s.afterStore A subjectDid deferred) :=
    keepPart_beside A s subjectDid fun _ => capped (s.joinedPending A subjectDid deferred)
  have htotal : (s.afterStore A subjectDid deferred).totalPending + (s.pendingOf subjectDid).length =
      s.totalPending + (capped (s.joinedPending A subjectDid deferred)).length :=
    keepPart_total A s subjectDid fun _ => capped (s.joinedPending A subjectDid deferred)
  have hlen := length_capped_le (s.joinedPending A subjectDid deferred)
  have htake := takePendingAttestations_total A s subjectDid
  refine ⟨h.of_beside hbeside ?_, hbeside, by omega, htotal,
    keepPart_pendingOf A s subjectDid fun _ => capped (s.joinedPending A subjectDid deferred)⟩
  refine replacePendingAttestations_pended (takePendingAttestations_pended h.pended) ?_ (fun _ _ h => h) ?_
  · by_cases hne : s.joinedPending A subjectDid deferred = []
    · exact .inl ((capped_nil_iff _).mpr hne)
    · exact .inr ⟨fun hnil => hne ((capped_nil_iff _).mp hnil),
        (sorted_mergeSort _).sublist (capped_sublist _), hlen⟩
  · have hmax : maxTotalPendingAttestations + maxPendingAttestationsPerSubject ≤ u64Max := by decide
    omega

theorem storePendingAttestations_spec (h : Core s) (hle : s.totalPending ≤ maxTotalPendingAttestations)
    (hrun : s.storePendingAttestations A subjectDid fuel deferred = some t) :
    Core t ∧ Beside s t ∧ t.totalPending ≤ maxTotalPendingAttestations ∧
      ∀ did, ∀ attestation ∈ t.pendingOf did, attestation ∈ s.pendingOf did ∨
        (did = subjectDid ∧ attestation ∈ deferred ∧ recent A.store attestation = true) := by
  obtain ⟨hcore, hbeside, hbound, htotal, hof⟩ := afterStore_spec A h hle subjectDid deferred
  have hmem : ∀ did, ∀ attestation ∈ (s.afterStore A subjectDid deferred).pendingOf did, attestation ∈ s.pendingOf did ∨
      (did = subjectDid ∧ attestation ∈ deferred ∧ recent A.store attestation = true) := by
    intro did attestation hin
    rw [hof] at hin
    split_ifs at hin with hdid
    · subst hdid
      have hin' := (capped_sublist _).subset hin
      unfold joinedPending at hin'
      rw [List.mem_mergeSort, List.mem_append, List.mem_filter] at hin'
      exact hin'.imp_right fun hnew => ⟨rfl, hnew⟩
    · exact .inl hin
  rw [storePendingAttestations_eq] at hrun
  split_ifs at hrun with hempty
  · cases hrun
    refine ⟨hcore, hbeside, ?_, hmem⟩
    rw [hempty, (capped_nil_iff []).mpr rfl, List.length_nil] at htotal
    omega
  · obtain ⟨hcore', hbeside', hshrinks, hle'⟩ := enforcePendingAttestationLimit_spec hcore (hbound.trans (by decide)) hrun
    exact ⟨hcore', hbeside.trans hbeside', hle', fun did attestation hin => hmem did attestation (hshrinks.pending did hin)⟩

theorem exists_storePendingAttestations (A : Ambient) (h : Core s) (hle : s.totalPending ≤ maxTotalPendingAttestations)
    (hfuel : maxTotalPendingAttestations + maxPendingAttestationsPerSubject < fuel) (subjectDid : String)
    (deferred : List CapabilityAttestation) : ∃ t, s.storePendingAttestations A subjectDid fuel deferred = some t := by
  obtain ⟨hcore, -, hbound, -, -⟩ := afterStore_spec A h hle subjectDid deferred
  rw [storePendingAttestations_eq]
  split_ifs
  · exact ⟨_, rfl⟩
  · exact exists_enforcePendingAttestationLimit A hcore (hbound.trans (by decide)) (by omega)

theorem storePendingAttestations_within (hfuel : 0 < fuel) (h : Core s)
    (hle : s.totalPending ≤ maxTotalPendingAttestations)
    (hfits : (s.joinedPending A subjectDid deferred).length ≤ maxPendingAttestationsPerSubject)
    (htotal : s.totalPending + (s.joinedPending A subjectDid deferred).length ≤
      maxTotalPendingAttestations + (s.pendingOf subjectDid).length) :
    ∃ t, s.storePendingAttestations A subjectDid fuel deferred = some t ∧ Core t ∧ Beside s t ∧
      t.totalPending ≤ maxTotalPendingAttestations ∧
      ∀ did, t.pendingOf did = if did = subjectDid then s.joinedPending A subjectDid deferred else s.pendingOf did := by
  obtain ⟨hcore, hbeside, hbound, hsum, hof⟩ := afterStore_spec A h hle subjectDid deferred
  have hcapped : capped (s.joinedPending A subjectDid deferred) = s.joinedPending A subjectDid deferred :=
    if_neg (Nat.not_lt.mpr hfits)
  rw [hcapped] at hsum hof
  have hle' : (s.afterStore A subjectDid deferred).totalPending ≤ maxTotalPendingAttestations := by omega
  refine ⟨s.afterStore A subjectDid deferred, ?_, hcore, hbeside, hle', hof⟩
  rw [storePendingAttestations_eq]
  split_ifs
  · rfl
  · exact enforcePendingAttestationLimit_of_le hfuel hcore hle'

/-! ### Replaying -/

/-- One attestation of the attester that is replayed. -/
def joinAttestation (W : Wire P) (document : DIDDocument) (specs : List (CapabilitySpec P))
    (attestation : CapabilityAttestation) : List (CapabilitySpec P) :=
  if attested W attestation document then
    specs.replaceF fun spec =>
      if spec.capabilityId = attestation.capabilityId then some (joinSpec attestation spec) else none
  else specs

/-- What waits under a subject for the attester, and is recent enough. -/
def waitingFor (A : Ambient) (s : AgentDiscovery P) (attesterDid subjectDid : String) : List CapabilityAttestation :=
  (s.pendingOf subjectDid).filter fun attestation => recent A.replay attestation && attestation.attesterDid = attesterDid

/-- The announcement with the attestations of the attester that have waited for it. -/
def rejoin (W : Wire P) (document : DIDDocument) (waiting : List CapabilityAttestation)
    (announcement : AgentAnnouncement P) : AgentAnnouncement P :=
  { announcement with capabilitySpecs := waiting.foldl (joinAttestation W document) announcement.capabilitySpecs }

theorem foldl_replayAttestation (W : Wire P) (attesterDid : String) (document : DIDDocument)
    (l : List CapabilityAttestation) (specs : List (CapabilitySpec P)) (unresolved : List CapabilityAttestation) :
    l.foldl (replayAttestation W attesterDid document) (specs, unresolved) =
      ((l.filter (·.attesterDid = attesterDid)).foldl (joinAttestation W document) specs,
        unresolved ++ l.filter (·.attesterDid ≠ attesterDid)) := by
  induction l generalizing specs unresolved with
  | nil => simp
  | cons attestation rest ih =>
    rw [List.foldl_cons, replayAttestation]
    by_cases hattester : attestation.attesterDid = attesterDid
    · have hjoin : (if attested W attestation document then
          (specs.replaceF fun spec =>
            if spec.capabilityId = attestation.capabilityId then some (joinSpec attestation spec) else none, unresolved)
          else (specs, unresolved)) = (joinAttestation W document specs attestation, unresolved) := by
        unfold joinAttestation
        split_ifs <;> rfl
      rw [if_neg (not_not.mpr hattester), hjoin, ih]
      simp [hattester]
    · rw [if_pos hattester, ih]
      simp [hattester]

/-- What stays pending under a subject when the attester has been replayed. -/
def stillWaiting (A : Ambient) (s : AgentDiscovery P) (attesterDid subjectDid : String) : List CapabilityAttestation :=
  if s.knownAgents.contains subjectDid then
    (s.pendingOf subjectDid).filter fun attestation =>
      recent A.replay attestation && attestation.attesterDid ≠ attesterDid
  else []

/-- The state in which the announcement of a subject has what waited for the attester. -/
def joinedTo (W : Wire P) (A : Ambient) (s : AgentDiscovery P) (attesterDid : String) (document : DIDDocument)
    (subjectDid : String) (announcement : AgentAnnouncement P) : AgentDiscovery P :=
  { (s.takePendingAttestations A subjectDid).2 with
    knownAgents := s.knownAgents.insert subjectDid
      (rejoin W document (s.waitingFor A attesterDid subjectDid) announcement) }

theorem replaySubject_of_empty (hempty : s.pendingOf subjectDid = []) :
    replaySubject W A s attesterDid document subjectDid = (s.takePendingAttestations A subjectDid).2 := by
  unfold replaySubject
  simp only [takePendingAttestations_fst]
  rw [hempty]
  rfl

theorem replaySubject_of_unknown (hunknown : s.knownAgents[subjectDid]? = none) :
    replaySubject W A s attesterDid document subjectDid = (s.takePendingAttestations A subjectDid).2 := by
  have htaken : (s.takePendingAttestations A subjectDid).2.knownAgents[subjectDid]? = none := by
    rwa [(takePendingAttestations_beside A s subjectDid).knownAgents]
  simp only [replaySubject, htaken, ite_self]

theorem replaySubject_of_known (hsorted : (s.pendingOf subjectDid).Pairwise fun a b => a.verifiedAt ≤ b.verifiedAt)
    (hne : s.pendingOf subjectDid ≠ []) (hknown : s.knownAgents[subjectDid]? = some announcement) :
    replaySubject W A s attesterDid document subjectDid =
      (joinedTo W A s attesterDid document subjectDid announcement).replacePendingAttestations A subjectDid
        (s.stillWaiting A attesterDid subjectDid) := by
  have hbeside := takePendingAttestations_beside A s subjectDid
  have hfold := foldl_replayAttestation W attesterDid document ((s.pendingOf subjectDid).filter (recent A.replay))
    announcement.capabilitySpecs []
  have hwaiting : ((s.pendingOf subjectDid).filter (recent A.replay)).filter (·.attesterDid = attesterDid) =
      s.waitingFor A attesterDid subjectDid := by
    rw [List.filter_filter]
    exact List.filter_congr fun attestation _ => Bool.and_comm _ _
  have hstill : ((s.pendingOf subjectDid).filter (recent A.replay)).filter (·.attesterDid ≠ attesterDid) =
      s.stillWaiting A attesterDid subjectDid := by
    rw [stillWaiting, Std.ExtTreeMap.contains_eq_isSome_getElem?, hknown, Option.isSome_some, if_pos rfl,
      List.filter_filter]
    exact List.filter_congr fun attestation _ => Bool.and_comm _ _
  have hsub : (s.stillWaiting A attesterDid subjectDid).Sublist (s.pendingOf subjectDid) := by
    rw [← hstill]
    exact List.filter_sublist.trans List.filter_sublist
  have hmerge : (s.stillWaiting A attesterDid subjectDid).mergeSort byVerifiedAt =
      s.stillWaiting A attesterDid subjectDid := mergeSort_byVerifiedAt (hsorted.sublist hsub)
  rw [hwaiting, hstill, List.nil_append] at hfold
  have hjoined : joinedTo W A s attesterDid document subjectDid announcement =
      { (s.takePendingAttestations A subjectDid).2 with
        knownAgents := (s.takePendingAttestations A subjectDid).2.knownAgents.insert subjectDid
          (rejoin W document (s.waitingFor A attesterDid subjectDid) announcement) } := by
    rw [hbeside.knownAgents]
    rfl
  have hresult : replaySubject W A s attesterDid document subjectDid =
      if s.stillWaiting A attesterDid subjectDid = [] then joinedTo W A s attesterDid document subjectDid announcement
      else (joinedTo W A s attesterDid document subjectDid announcement).replacePendingAttestations A subjectDid
        ((s.stillWaiting A attesterDid subjectDid).mergeSort byVerifiedAt) := by
    unfold replaySubject
    simp only [takePendingAttestations_fst, List.isEmpty_iff]
    rw [if_neg hne, hbeside.knownAgents, hknown, hjoined, hbeside.knownAgents]
    dsimp only
    rw [hfold]
    rfl
  rw [hresult, hmerge]
  split_ifs with hnil
  · -- Putting an empty list back is the same as leaving it out.
    rw [hnil, replacePendingAttestations_nil]
    have hcongr : ((joinedTo W A s attesterDid document subjectDid announcement).takePendingAttestations A subjectDid).2 =
        { ((s.takePendingAttestations A subjectDid).2.takePendingAttestations A subjectDid).2 with
          knownAgents := (joinedTo W A s attesterDid document subjectDid announcement).knownAgents } := by
      simp only [takePendingAttestations, clearPendingSubjectIndex, joinedTo]
      split <;> rfl
    rw [hcongr, takePendingAttestations_again]
    rfl
  · rfl

theorem replaySubject_spec (W : Wire P) (A : Ambient) {lost : String → String → Prop} (h : Pended s lost)
    (subjectDid : String) (hlost : ∀ other, lost other subjectDid → other = attesterDid)
    (hroom : s.totalPending ≤ u64Max) (document : DIDDocument) :
    let r := replaySubject W A s attesterDid document subjectDid
    Pended r lost ∧ SameTopics s r ∧ r.knownAgentOrder = s.knownAgentOrder ∧ r.totalPending ≤ s.totalPending ∧
      (∀ did : String, r.knownAgents[did]? = if did = subjectDid then
        (s.knownAgents[did]?).map (rejoin W document (s.waitingFor A attesterDid did)) else s.knownAgents[did]?) ∧
      ∀ did, r.pendingOf did = if did = subjectDid then s.stillWaiting A attesterDid did else s.pendingOf did := by
  have hbeside := takePendingAttestations_beside A s subjectDid
  have htaken : Pended (s.takePendingAttestations A subjectDid).2 lost := takePendingAttestations_pended h
  have htake := takePendingAttestations_total A s subjectDid
  have hof := takePendingAttestations_pendingOf A s subjectDid
  by_cases hempty : s.pendingOf subjectDid = []
  · rw [replaySubject_of_empty hempty]
    refine ⟨htaken, hbeside.sameTopics, hbeside.knownAgentOrder, by omega, fun did => ?_, fun did => ?_⟩
    · rw [hbeside.knownAgents]
      split_ifs with hdid
      · have hnothing : s.waitingFor A attesterDid did = [] := by simp [waitingFor, hdid, hempty]
        rw [hnothing]
        cases s.knownAgents[did]? <;> rfl
      · rfl
    · rw [hof]
      split_ifs with hdid
      · simp [stillWaiting, hdid, hempty]
      · rfl
  · cases hget : s.knownAgents[subjectDid]? with
    | none =>
      rw [replaySubject_of_unknown hget]
      refine ⟨htaken, hbeside.sameTopics, hbeside.knownAgentOrder, by omega, fun did => ?_, fun did => ?_⟩
      · rw [hbeside.knownAgents]
        split_ifs with hdid
        · rw [hdid, hget]
          rfl
        · rfl
      · rw [hof]
        split_ifs with hdid
        · rw [hdid, stillWaiting, Std.ExtTreeMap.contains_eq_isSome_getElem?, hget]
          rfl
        · rfl
    | some announcement =>
      rw [replaySubject_of_known (h.sorted subjectDid) hempty hget]
      let joined := joinedTo W A s attesterDid document subjectDid announcement
      have hjoined : Pended joined lost := ⟨htaken.count, htaken.lists, htaken.attesters, htaken.index⟩
      have hstill : s.stillWaiting A attesterDid subjectDid = (s.pendingOf subjectDid).filter fun attestation =>
          recent A.replay attestation && attestation.attesterDid ≠ attesterDid := by
        rw [stillWaiting, Std.ExtTreeMap.contains_eq_isSome_getElem?, hget]
        rfl
      have hsub : (s.stillWaiting A attesterDid subjectDid).Sublist (s.pendingOf subjectDid) := by
        rw [hstill]
        exact List.filter_sublist
      have hbeside' := replacePendingAttestations_beside A joined subjectDid (s.stillWaiting A attesterDid subjectDid)
      have hsum := replacePendingAttestations_total A joined subjectDid (s.stillWaiting A attesterDid subjectDid)
      have hnone : joined.pendingOf subjectDid = [] := (hof subjectDid).trans (if_pos rfl)
      have htotal : joined.totalPending = (s.takePendingAttestations A subjectDid).2.totalPending := rfl
      have hlen := hsub.length_le
      rw [hnone, List.length_nil, Nat.add_zero, htotal] at hsum
      have hle : (joined.replacePendingAttestations A subjectDid (s.stillWaiting A attesterDid subjectDid)).totalPending ≤
          s.totalPending := by omega
      refine ⟨?_, hbeside.sameTopics.trans ⟨hbeside'.subscribedTopics, hbeside'.subscriptionOrder⟩,
        hbeside'.knownAgentOrder.trans hbeside.knownAgentOrder, hle, fun did => ?_, fun did => ?_⟩
      · refine replacePendingAttestations_pended hjoined ?_ (fun attestation hin hlost' => ?_) (by rw [htotal]; omega)
        · exact (h.waiting hempty).of_sublist hsub
        · rw [hstill, List.mem_filter, Bool.and_eq_true] at hin
          exact of_decide_eq_true hin.2.2 (hlost _ hlost')
      · rw [hbeside'.knownAgents]
        refine (OrdMap.get?_insert s.knownAgents subjectDid did _).trans ?_
        by_cases hdid : did = subjectDid
        · rw [if_pos hdid.symm, if_pos hdid, hdid, hget]
          rfl
        · rw [if_neg (Ne.symm hdid), if_neg hdid]
      · rw [replacePendingAttestations_pendingOf]
        split_ifs with hdid
        · rw [hdid]
        · refine (hof did).trans ?_
          rw [if_neg hdid]

theorem replaySubjects (W : Wire P) (A : Ambient) (document : DIDDocument) {subjects : List String}
    {s : AgentDiscovery P} (hnodup : subjects.Nodup)
    (h : Pended s fun other did => other = attesterDid ∧ did ∈ subjects) (hroom : s.totalPending ≤ u64Max) :
    let r := subjects.foldl (fun s subjectDid => replaySubject W A s attesterDid document subjectDid) s
    Pended r noneLost ∧ SameTopics s r ∧ r.knownAgentOrder = s.knownAgentOrder ∧ r.totalPending ≤ s.totalPending ∧
      (∀ did : String, r.knownAgents[did]? = if did ∈ subjects then
        (s.knownAgents[did]?).map (rejoin W document (s.waitingFor A attesterDid did)) else s.knownAgents[did]?) ∧
      ∀ did, r.pendingOf did = if did ∈ subjects then s.stillWaiting A attesterDid did else s.pendingOf did := by
  induction subjects generalizing s with
  | nil =>
    refine ⟨h.congr fun other did _ => ?_, .refl s, rfl, le_rfl, fun did => rfl, fun did => rfl⟩
    simp [noneLost]
  | cons subjectDid rest ih =>
    obtain ⟨habsent, hrest⟩ := List.nodup_cons.mp hnodup
    obtain ⟨hpended, htopics, horder, htotal, hknown, hof⟩ :=
      replaySubject_spec W A h subjectDid (fun other hlost => hlost.1) hroom document
    let next := replaySubject W A s attesterDid document subjectDid
    have hnext : Pended next fun other did => other = attesterDid ∧ did ∈ rest := by
      refine hpended.congr fun other did hawaits => and_congr_right fun hother => ?_
      rw [List.mem_cons, or_iff_right_iff_imp]
      rintro rfl
      obtain ⟨attestation, hin, hattester⟩ := hawaits
      rw [hof, if_pos rfl, stillWaiting] at hin
      split_ifs at hin
      · rw [List.mem_filter, Bool.and_eq_true] at hin
        exact absurd (hattester.trans hother) (of_decide_eq_true hin.2.2)
      · cases hin
    obtain ⟨hr, htopics', horder', htotal', hknown', hof'⟩ := ih hrest hnext (htotal.trans hroom)
    -- What is replayed for the first subject does not show under the others.
    have hsame : ∀ did, did ∈ rest → next.pendingOf did = s.pendingOf did ∧
        next.knownAgents[did]? = s.knownAgents[did]? := by
      intro did hdid
      have hne : did ≠ subjectDid := fun heq => habsent (heq ▸ hdid)
      exact ⟨(hof did).trans (if_neg hne), (hknown did).trans (if_neg hne)⟩
    refine ⟨hr, htopics.trans htopics', horder'.trans horder, htotal'.trans htotal, fun did => ?_, fun did => ?_⟩
    · refine (hknown' did).trans ?_
      by_cases hdid : did ∈ rest
      · rw [if_pos hdid, if_pos (List.mem_cons_of_mem _ hdid), (hsame did hdid).2, waitingFor, (hsame did hdid).1]
        rfl
      · rw [if_neg hdid, hknown]
        simp [hdid]
    · refine (hof' did).trans ?_
      by_cases hdid : did ∈ rest
      · rw [if_pos hdid, if_pos (List.mem_cons_of_mem _ hdid), stillWaiting, stillWaiting,
          Std.ExtTreeMap.contains_eq_isSome_getElem?, Std.ExtTreeMap.contains_eq_isSome_getElem?, (hsame did hdid).1,
          (hsame did hdid).2]
      · rw [if_neg hdid, hof]
        simp [hdid]

def documentOf (s : AgentDiscovery P) (did : String) : Option DIDDocument := (s.knownAgents[did]?).bind (·.didDocument)

/-- The state after the replay for an attester, from the state before. -/
structure Replayed (W : Wire P) (A : Ambient) (attesterDid : String) (s t : AgentDiscovery P) : Prop where
  known : ∀ did : String, t.knownAgents[did]? = (s.knownAgents[did]?).map fun announcement =>
    (s.documentOf attesterDid).elim announcement fun document =>
      rejoin W document (s.waitingFor A attesterDid did) announcement
  pending : ∀ did, t.pendingOf did =
    if (s.documentOf attesterDid).isSome && (s.pendingOf did).any (·.attesterDid = attesterDid) then
      s.stillWaiting A attesterDid did else s.pendingOf did

theorem Replayed.refl (h : ∀ document, s.documentOf attesterDid = some document → ∀ did, ¬ s.Awaits attesterDid did) :
    Replayed W A attesterDid s s where
  known did := by
    cases hdocument : s.documentOf attesterDid with
    | none => cases s.knownAgents[did]? <;> rfl
    | some document =>
      have hnone : s.waitingFor A attesterDid did = [] := by
        refine List.filter_eq_nil_iff.mpr fun attestation hin htrue => h document hdocument did ⟨attestation, hin, ?_⟩
        exact of_decide_eq_true (Bool.and_eq_true_iff.mp htrue).2
      rw [hnone]
      cases s.knownAgents[did]? <;> rfl
  pending did := by
    refine (if_neg fun hboth => ?_).symm
    rw [Bool.and_eq_true, List.any_eq_true] at hboth
    obtain ⟨hdocument, attestation, hin, hattester⟩ := hboth
    obtain ⟨document, hdocument⟩ := Option.isSome_iff_exists.mp hdocument
    exact h document hdocument did ⟨attestation, hin, of_decide_eq_true hattester⟩

theorem Core.of_knownAgents (h : Core s) (horder : t.knownAgentOrder = s.knownAgentOrder) (hpended : Pended t noneLost)
    {f : String → AgentAnnouncement P → AgentAnnouncement P} (hf : ∀ did a, (f did a).timestamp = a.timestamp)
    (hknown : ∀ did : String, t.knownAgents[did]? = (s.knownAgents[did]?).map (f did)) : Core t where
  order time did := by
    rw [horder, hknown, h.order]
    cases s.knownAgents[did]? with
    | none => simp
    | some announcement => simp [hf]
  pended := hpended

theorem replayPendingAttestationsForAttester_spec (W : Wire P) (A : Ambient) (h : Core s)
    (hle : s.totalPending ≤ maxTotalPendingAttestations) (hfuel : 0 < fuel) (attesterDid : String) :
    ∃ t, s.replayPendingAttestationsForAttester W A fuel attesterDid = some t ∧ Core t ∧ SameTopics s t ∧
      t.totalPending ≤ s.totalPending ∧ Replayed W A attesterDid s t := by
  have hroom : s.totalPending ≤ u64Max := hle.trans (by decide)
  unfold replayPendingAttestationsForAttester
  cases hdocument : (s.knownAgents[attesterDid]?).bind (·.didDocument) with
  | none =>
    refine ⟨s, rfl, h, .refl s, le_rfl, .refl fun document hsome => ?_⟩
    rw [documentOf, hdocument] at hsome
    cases hsome
  | some document =>
    cases hindex : s.pendingAttesterIndex[attesterDid]? with
    | none =>
      refine ⟨s, rfl, h, .refl s, le_rfl, .refl fun document _ did hawaits => ?_⟩
      obtain ⟨subjects, hsubjects, -⟩ := (h.pended.index attesterDid did).mpr ⟨hawaits, fun h => h⟩
      rw [hindex] at hsubjects
      cases hsubjects
    | some subjects =>
      let erased : AgentDiscovery P := { s with pendingAttesterIndex := s.pendingAttesterIndex.erase attesterDid }
      let order := A.order subjects.toList
      have hnodup : order.Nodup := by
        refine (A.order_perm subjects.toList).nodup_iff.mpr (Std.ExtTreeSet.distinct_toList.imp ?_)
        rintro a b hne rfl
        exact hne (by simp)
      have hmem : ∀ did, did ∈ order ↔ s.Awaits attesterDid did := by
        intro did
        rw [mem_order, Std.ExtTreeSet.mem_toList, ← OrdMap.relates_of_get? hindex, h.pended.index]
        exact and_iff_left fun h => h
      have herased : Pended erased fun other did => other = attesterDid ∧ did ∈ order := h.pended.eraseIndex hindex
      obtain ⟨hr, htopics, horder, htotal, hknown, hof⟩ := replaySubjects W A document hnodup herased hroom
      let replayed := order.foldl (fun s subjectDid => replaySubject W A s attesterDid document subjectDid) erased
      have hknown' (did : String) : replayed.knownAgents[did]? =
          (s.knownAgents[did]?).map (rejoin W document (s.waitingFor A attesterDid did)) := by
        refine (hknown did).trans ?_
        split_ifs with hdid
        · rfl
        · have hnone : s.waitingFor A attesterDid did = [] := by
            refine List.filter_eq_nil_iff.mpr fun attestation hin htrue => hdid ((hmem did).mpr ⟨attestation, hin, ?_⟩)
            exact of_decide_eq_true (Bool.and_eq_true_iff.mp htrue).2
          rw [hnone]
          exact Option.map_id'.symm
      have hcore : Core replayed := h.of_knownAgents horder hr
        (f := fun did => rejoin W document (s.waitingFor A attesterDid did)) (fun _ _ => rfl) hknown'
      have hlimit := enforcePendingAttestationLimit_of_le (A := A) hfuel hcore (htotal.trans hle)
      refine ⟨replayed, hlimit, hcore, ⟨htopics.1, htopics.2⟩, htotal, ?_, ?_⟩
      · intro did
        rw [hknown', documentOf, hdocument]
        rfl
      · intro did
        refine (hof did).trans ?_
        have hany : (s.pendingOf did).any (·.attesterDid = attesterDid) = true ↔ did ∈ order := by
          rw [hmem, List.any_eq_true]
          exact exists_congr fun attestation => and_congr_right fun _ => decide_eq_true_iff
        rw [documentOf, hdocument, Option.isSome_some, Bool.true_and]
        split_ifs with hdid hsome hsome
        · rfl
        · exact absurd (hany.mpr hdid) hsome
        · exact absurd (hany.mp hsome) hdid
        · rfl

/-! ### The whole arrival -/

/-- Rounds that are enough for the loops of one arrival. -/
def enoughRounds : Nat := maxTotalPendingAttestations + maxPendingAttestationsPerSubject + 1

/-- The agent has been evicted again, or what it brings has been stored and what waits for it replayed. -/
inductive Settles (W : Wire P) (A : Ambient) (announcement : AgentAnnouncement P)
    (deferred : List CapabilityAttestation) (limited : AgentDiscovery P) : AgentDiscovery P → Prop where
  | evicted (hgone : limited.knownAgents[announcement.did]? = none) :
    Settles W A announcement deferred limited limited
  | stored {stored t : AgentDiscovery P} (hknown : limited.knownAgents[announcement.did]? = some announcement)
    (hbounded : Bounded stored) (hbeside : Beside limited stored)
    (hpending : ∀ did, ∀ attestation ∈ stored.pendingOf did, attestation ∈ limited.pendingOf did ∨
      (did = announcement.did ∧ attestation ∈ deferred ∧ recent A.store attestation = true))
    (hreplayed : Replayed W A announcement.did stored t) : Settles W A announcement deferred limited t

theorem insertKnown_get? (s : AgentDiscovery P) (announcement : AgentAnnouncement P) (did : String) :
    (s.insertKnown announcement).knownAgents[did]? =
      if announcement.did = did then some announcement else s.knownAgents[did]? := OrdMap.get?_insert _ _ _ _

theorem size_le_of_known (h : ∀ did : String, (t.knownAgents[did]?).isSome → (s.knownAgents[did]?).isSome) :
    t.knownAgents.size ≤ s.knownAgents.size := by
  have hsub : t.knownAgents.keys ⊆ s.knownAgents.keys := by
    intro did hdid
    rw [Std.ExtTreeMap.mem_keys, Std.ExtTreeMap.mem_iff_isSome_getElem?] at hdid ⊢
    exact h did hdid
  rw [← Std.ExtTreeMap.length_keys, ← Std.ExtTreeMap.length_keys]
  exact (Std.ExtTreeMap.nodup_keys.subperm hsub).length_le

theorem Replayed.size_le {attesterDid : String} (h : Replayed W A attesterDid s t) :
    t.knownAgents.size ≤ s.knownAgents.size :=
  size_le_of_known fun did hsome => by rwa [h.known, Option.isSome_map] at hsome

theorem upsertVerifiedInner_stages (h : Bounded s)
    (hrun : s.upsertVerifiedInner W A fuel announcement deferred = some t) :
    Bounded t ∧ SameTopics s t ∧ ∃ limited, Bounded limited ∧
      Shrinks ((s.pruneExpired A).insertKnown announcement) limited ∧ Settles W A announcement deferred limited t := by
  obtain ⟨hpruned, hprunedTopics, htotal, -, -⟩ := pruneExpired_spec A h.toCore h.room
  obtain ⟨hinserted, hinsertedTopics, -, htotal'⟩ := insertKnown_spec hpruned announcement
  unfold upsertVerifiedInner at hrun
  obtain ⟨limited, hlimited, hrest⟩ := Option.bind_eq_some_iff.mp hrun
  have hfuel : 0 < fuel := by
    rcases Nat.eq_zero_or_pos fuel with rfl | hpos
    · cases hlimited
    · exact hpos
  have hroom : ((s.pruneExpired A).insertKnown announcement).totalPending ≤ u64Max := by
    rw [htotal']
    exact htotal.trans h.room
  obtain ⟨hcore, hlimitedTopics, hshrinks, hsize⟩ := enforceKnownAgentLimit_spec hinserted hroom hlimited
  have hpending : limited.totalPending ≤ maxTotalPendingAttestations := by
    have hle := hshrinks.total
    rw [htotal'] at hle
    exact hle.trans (htotal.trans h.pending_le)
  have hbounded : Bounded limited := ⟨hcore, hsize, hpending⟩
  have hsame := (hprunedTopics.trans hinsertedTopics).trans hlimitedTopics
  split_ifs at hrest with hcontains
  · rw [Std.ExtTreeMap.contains_eq_isSome_getElem?] at hcontains
    obtain ⟨found, hfound⟩ := Option.isSome_iff_exists.mp hcontains
    have hself := hshrinks.known _ _ hfound
    rw [insertKnown_get?, if_pos rfl, Option.some.injEq] at hself
    subst hself
    obtain ⟨stored, hstored, hreplay⟩ := Option.bind_eq_some_iff.mp hrest
    obtain ⟨hcore', hbeside, hle, hmem⟩ := storePendingAttestations_spec hcore hpending hstored
    have hbounded' : Bounded stored := ⟨hcore', by rw [hbeside.knownAgents]; exact hsize, hle⟩
    obtain ⟨t', hrun', hreplayedCore, hreplayedTopics, hle', hreplayed⟩ :=
      replayPendingAttestationsForAttester_spec W A hcore' hle hfuel announcement.did
    rw [hreplay, Option.some.injEq] at hrun'
    subst hrun'
    exact ⟨⟨hreplayedCore, hreplayed.size_le.trans hbounded'.known_le, hle'.trans hle⟩,
      (hsame.trans hbeside.sameTopics).trans hreplayedTopics, limited, hbounded, hshrinks,
      .stored hfound hbounded' hbeside hmem hreplayed⟩
  · rw [Std.ExtTreeMap.contains_eq_isSome_getElem?, Option.not_isSome_iff_eq_none] at hcontains
    obtain rfl := Option.some.inj hrest
    exact ⟨hbounded, hsame, limited, hbounded, hshrinks, .evicted hcontains⟩

theorem exists_upsertVerifiedInner (W : Wire P) (A : Ambient) (h : Bounded s) (hfuel : enoughRounds ≤ fuel)
    (announcement : AgentAnnouncement P) (deferred : List CapabilityAttestation) :
    ∃ t, s.upsertVerifiedInner W A fuel announcement deferred = some t := by
  obtain ⟨hpruned, -, htotal, hknown, -⟩ := pruneExpired_spec A h.toCore h.room
  obtain ⟨hinserted, -, -, htotal'⟩ := insertKnown_spec hpruned announcement
  have hroom : ((s.pruneExpired A).insertKnown announcement).totalPending ≤ u64Max := by
    rw [htotal']
    exact htotal.trans h.room
  have hpruneSize : (s.pruneExpired A).knownAgents.size ≤ s.knownAgents.size := by
    refine size_le_of_known fun did hsome => ?_
    rw [hknown] at hsome
    split_ifs at hsome
    · cases hsome
    · exact hsome
  have hsize : ((s.pruneExpired A).insertKnown announcement).knownAgents.size < fuel := by
    have hinsert : ((s.pruneExpired A).insertKnown announcement).knownAgents.size ≤
        (s.pruneExpired A).knownAgents.size + 1 := Std.ExtTreeMap.size_insert_le
    have hle := h.known_le
    have hrounds : maxKnownAgents + 1 < enoughRounds := by decide
    omega
  obtain ⟨limited, hlimited⟩ := exists_enforceKnownAgentLimit A hinserted hroom hsize
  obtain ⟨hcore, -, hshrinks, -⟩ := enforceKnownAgentLimit_spec hinserted hroom hlimited
  have hpending : limited.totalPending ≤ maxTotalPendingAttestations := by
    have hle := hshrinks.total
    rw [htotal'] at hle
    exact hle.trans (htotal.trans h.pending_le)
  unfold upsertVerifiedInner
  rw [hlimited, Option.bind_eq_bind, Option.bind_some]
  split_ifs
  · obtain ⟨stored, hstored⟩ := exists_storePendingAttestations A hcore hpending (Nat.lt_of_succ_le hfuel)
      announcement.did deferred
    obtain ⟨hcore', -, hle, -⟩ := storePendingAttestations_spec hcore hpending hstored
    obtain ⟨t, ht, -⟩ := replayPendingAttestationsForAttester_spec W A hcore' hle
      (Nat.lt_of_lt_of_le (by decide) hfuel) announcement.did
    rw [hstored, Option.bind_some]
    exact ⟨t, ht⟩
  · exact ⟨limited, rfl⟩

/-! ### Within the limits -/

/-- Nothing that is stored is out of date. -/
structure Current (A : Ambient) (s : AgentDiscovery P) : Prop where
  known : ∀ (did : String) announcement, s.knownAgents[did]? = some announcement → isExpired A.prune announcement = false
  pending : ∀ did, ∀ attestation ∈ s.pendingOf did,
    recent A.prune attestation = true ∧ (s.knownAgents[did]?).isSome = true

theorem pruneExpired_of_current (h : Bounded s) (hcurrent : Current A s) :
    Core (s.pruneExpired A) ∧ (s.pruneExpired A).knownAgents = s.knownAgents ∧
      (s.pruneExpired A).pendingOf = s.pendingOf ∧ (s.pruneExpired A).totalPending ≤ s.totalPending := by
  obtain ⟨hcore, -, htotal, hknown, hof⟩ := pruneExpired_spec A h.toCore h.room
  have hnone (did : String) : (s.knownAgents[did]?).any (isExpired A.prune) = false := by
    cases hget : s.knownAgents[did]? with
    | none => rfl
    | some announcement => exact hcurrent.known did announcement hget
  have hsame : (s.pruneExpired A).knownAgents = s.knownAgents := by
    exact Std.ExtTreeMap.ext_getElem? fun did => (hknown did).trans (if_neg (Bool.eq_false_iff.mp (hnone did)))
  refine ⟨hcore, hsame, funext fun did => ?_, htotal⟩
  rw [hof, Std.ExtTreeMap.contains_eq_isSome_getElem?, hsame]
  cases hpending : s.pendingOf did with
  | nil => simp
  | cons first rest =>
    have hin (attestation : CapabilityAttestation) (hmem : attestation ∈ first :: rest) :
        recent A.prune attestation = true ∧ (s.knownAgents[did]?).isSome = true :=
      hcurrent.pending did attestation (hpending ▸ hmem)
    rw [if_pos (hin first List.mem_cons_self).2]
    refine List.filter_eq_self.mpr fun attestation hmem => ?_
    dsimp only
    rw [hnone, (hin attestation hmem).1]
    rfl

/-- An arrival within the limits: the announcement is inserted, what it defers joins what waits, and what waits for its
agent is replayed. -/
theorem upsertVerifiedInner_within (W : Wire P) (hfuel : 0 < fuel) (h : Bounded s) (hcurrent : Current A s)
    (hroom : (s.knownAgents.insert announcement.did announcement).size ≤ maxKnownAgents)
    (hfits : (s.joinedPending A announcement.did deferred).length ≤ maxPendingAttestationsPerSubject)
    (htotal : s.totalPending + (s.joinedPending A announcement.did deferred).length ≤
      maxTotalPendingAttestations + (s.pendingOf announcement.did).length) :
    ∃ t stored, s.upsertVerifiedInner W A fuel announcement deferred = some t ∧ Bounded t ∧
      stored.knownAgents = s.knownAgents.insert announcement.did announcement ∧
      (∀ did, stored.pendingOf did =
        if did = announcement.did then s.joinedPending A announcement.did deferred else s.pendingOf did) ∧
      Replayed W A announcement.did stored t := by
  obtain ⟨hpruned, hsame, hpending, hle⟩ := pruneExpired_of_current h hcurrent
  obtain ⟨hinserted, -, hinsertedOf, hinsertedTotal⟩ := insertKnown_spec hpruned announcement
  let inserted := (s.pruneExpired A).insertKnown announcement
  have hof : inserted.pendingOf = s.pendingOf := hinsertedOf.trans hpending
  have hknown : inserted.knownAgents = s.knownAgents.insert announcement.did announcement := by
    change (s.pruneExpired A).knownAgents.insert announcement.did announcement = _
    rw [hsame]
  have hlimit : inserted.enforceKnownAgentLimit A fuel = some inserted := by
    refine enforceKnownAgentLimit_of_le hfuel ?_
    rw [hknown]
    exact hroom
  have hjoined : inserted.joinedPending A announcement.did deferred = s.joinedPending A announcement.did deferred := by
    unfold joinedPending
    rw [hof]
  have hinsertedLe : inserted.totalPending ≤ s.totalPending := hinsertedTotal.trans_le hle
  have hbound : inserted.totalPending ≤ maxTotalPendingAttestations := hinsertedLe.trans h.pending_le
  have hinsertedFits : (inserted.joinedPending A announcement.did deferred).length ≤ maxPendingAttestationsPerSubject := by
    rw [hjoined]
    exact hfits
  have hinsertedRoom : inserted.totalPending + (inserted.joinedPending A announcement.did deferred).length ≤
      maxTotalPendingAttestations + (inserted.pendingOf announcement.did).length := by
    rw [hjoined, hof]
    omega
  obtain ⟨stored, hstored, hcore, hbeside, hstoredLe, hstoredOf⟩ :=
    storePendingAttestations_within hfuel hinserted hbound hinsertedFits hinsertedRoom
  obtain ⟨t, ht, htCore, -, htLe, hreplayed⟩ :=
    replayPendingAttestationsForAttester_spec W A hcore hstoredLe hfuel announcement.did
  have hcontains : inserted.knownAgents.contains announcement.did = true := by
    rw [hknown]
    exact Std.ExtTreeMap.contains_insert_self
  have hstoredKnown : stored.knownAgents = s.knownAgents.insert announcement.did announcement :=
    hbeside.knownAgents.trans hknown
  refine ⟨t, stored, ?_, ⟨htCore, ?_, htLe.trans hstoredLe⟩, hstoredKnown, fun did => ?_, hreplayed⟩
  · unfold upsertVerifiedInner
    rw [hlimit, Option.bind_eq_bind, Option.bind_some, if_pos hcontains, hstored]
    exact ht
  · refine hreplayed.size_le.trans ?_
    rw [hstoredKnown]
    exact hroom
  · rw [hstoredOf, hjoined, hof]

theorem upsertVerifiedInner_quiet (W : Wire P) (hfuel : 0 < fuel) (h : Bounded s)
    (hlive : ∀ (did : String) known, s.knownAgents[did]? = some known → isExpired A.prune known = false)
    (hquiet : ∀ did, s.pendingOf did = [])
    (hroom : (s.knownAgents.insert announcement.did announcement).size ≤ maxKnownAgents) :
    ∃ t, s.upsertVerifiedInner W A fuel announcement [] = some t ∧ Bounded t ∧ (∀ did, t.pendingOf did = []) ∧
      t.knownAgents = s.knownAgents.insert announcement.did announcement := by
  have hcurrent : Current A s := ⟨hlive, fun did attestation hin => by
    rw [hquiet] at hin
    cases hin⟩
  have hjoined : s.joinedPending A announcement.did [] = [] := by
    unfold joinedPending
    rw [hquiet]
    exact List.mergeSort_nil
  have hpending : s.totalPending ≤ maxTotalPendingAttestations := h.pending_le
  have hfits : (s.joinedPending A announcement.did []).length ≤ maxPendingAttestationsPerSubject := by
    rw [hjoined]
    exact Nat.zero_le _
  have htotal : s.totalPending + (s.joinedPending A announcement.did []).length ≤
      maxTotalPendingAttestations + (s.pendingOf announcement.did).length := by
    rw [hjoined, List.length_nil]
    omega
  obtain ⟨t, stored, hrun, hbounded, hknown, hof, hreplayed⟩ :=
    upsertVerifiedInner_within W hfuel h hcurrent hroom hfits htotal
  have hnone (did : String) : stored.pendingOf did = [] := by
    rw [hof, hjoined, hquiet, ite_self]
  refine ⟨t, hrun, hbounded, fun did => ?_, Std.ExtTreeMap.ext_getElem? fun did => ?_⟩
  · rw [hreplayed.pending, hnone, List.any_nil, Bool.and_false]
    rfl
  · have hwaiting : stored.waitingFor A announcement.did did = [] := by
      unfold waitingFor
      rw [hnone]
      rfl
    rw [hreplayed.known, hwaiting, hknown]
    cases stored.documentOf announcement.did with
    | none => exact Option.map_id'
    | some document => exact Option.map_id'

end AgentHalo.Discovery.AgentDiscovery
