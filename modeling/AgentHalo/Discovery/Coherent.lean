import AgentHalo.Discovery.Arrival

/-!
# The state of discovery is coherent

From the empty state on, through any sequence of calls with any messages, clocks and gossipsub outcomes, the redundant
parts of the state agree and the limits hold (`reached_coherent`). A call made in such a state comes to an end: none of
its eviction loops takes more than `enoughRounds` rounds.
-/

namespace AgentHalo.Discovery

open OrdMap (Relates)

variable {P : Platform} {W : Wire P}

namespace AgentDiscovery

variable {A : Ambient} {G : Gossipsub} {s t : AgentDiscovery P} {topic : String}

/-! ### Subscriptions -/

/-- The order lists the subscribed topics, each once, and there are not too many. -/
structure Subscribed (s : AgentDiscovery P) : Prop where
  nodup : s.subscriptionOrder.Nodup
  mem_iff : ∀ topic, topic ∈ s.subscriptionOrder ↔ topic ∈ s.subscribedTopics
  length_le : s.subscriptionOrder.length ≤ maxDynamicSubscriptions

theorem SameTopics.subscribed (h : SameTopics s t) (hs : Subscribed s) : Subscribed t where
  nodup := by rw [h.subscriptionOrder]; exact hs.nodup
  mem_iff := by rw [h.subscriptionOrder, h.subscribedTopics]; exact hs.mem_iff
  length_le := by rw [h.subscriptionOrder]; exact hs.length_le

theorem Subscribed.size_eq (h : Subscribed s) : s.subscribedTopics.size = s.subscriptionOrder.length := by
  have hnodup : s.subscribedTopics.toList.Nodup := by
    refine Std.ExtTreeSet.distinct_toList.imp ?_
    rintro a b hne rfl
    exact hne (by simp)
  rw [← Std.ExtTreeSet.length_toList]
  refine ((List.perm_ext_iff_of_nodup hnodup h.nodup).mpr fun topic => ?_).length_eq
  rw [Std.ExtTreeSet.mem_toList, h.mem_iff]

theorem Subscribed.remove (h : Subscribed s) (topic : String) (order : List String)
    (hnodup : order.Nodup) (hmem : ∀ other, other ∈ order ↔ other ∈ s.subscriptionOrder ∧ other ≠ topic)
    (hlen : order.length ≤ s.subscriptionOrder.length) :
    Subscribed { s with subscribedTopics := s.subscribedTopics.erase topic, subscriptionOrder := order } where
  nodup := hnodup
  mem_iff other := by
    have herase : other ∈ s.subscribedTopics.erase topic ↔ topic ≠ other ∧ other ∈ s.subscribedTopics := by
      rw [Std.ExtTreeSet.mem_erase, ne_eq, Std.LawfulEqCmp.compare_eq_iff_eq]
    rw [hmem, h.mem_iff, herase, and_comm, ne_comm]
  length_le := hlen.trans h.length_le

theorem Subscribed.touch (h : Subscribed s) (hin : topic ∈ s.subscribedTopics) : Subscribed (s.touchSubscription topic) := by
  have hlisted := (h.mem_iff topic).mpr hin
  have herase : s.subscriptionOrder.filter (· ≠ topic) = s.subscriptionOrder.erase topic := by
    rw [h.nodup.erase_eq_filter]
    exact List.filter_congr fun other _ => by simp [bne, beq_eq_decide]
  have hpos := List.length_pos_of_mem hlisted
  have hle := h.length_le
  refine ⟨?_, fun other => ?_, ?_⟩
  · refine List.Nodup.append (h.nodup.filter _) (List.nodup_singleton topic) ?_
    intro other hother hsame
    rw [List.mem_singleton] at hsame
    exact of_decide_eq_true (List.mem_filter.mp hother).2 hsame
  · unfold touchSubscription
    rw [List.mem_append, List.mem_filter, List.mem_singleton, h.mem_iff]
    by_cases hother : other = topic
    · simp [hother, hin]
    · simp [hother]
  · unfold touchSubscription
    rw [List.length_append, List.length_singleton, herase, List.length_erase_of_mem hlisted]
    omega

theorem Subscribed.add (h : Subscribed s) (hnew : topic ∉ s.subscribedTopics)
    (hroom : s.subscriptionOrder.length < maxDynamicSubscriptions) :
    Subscribed ({ s with subscribedTopics := s.subscribedTopics.insert topic }.touchSubscription topic) := by
  have habsent : topic ∉ s.subscriptionOrder := fun hin => hnew ((h.mem_iff topic).mp hin)
  have hfilter : s.subscriptionOrder.filter (· ≠ topic) = s.subscriptionOrder := by
    refine List.filter_eq_self.mpr fun other hother => decide_eq_true ?_
    rintro rfl
    exact habsent hother
  have horder : ({ s with subscribedTopics := s.subscribedTopics.insert topic }.touchSubscription topic).subscriptionOrder =
      s.subscriptionOrder ++ [topic] := by
    unfold touchSubscription
    dsimp only
    rw [hfilter]
  refine ⟨?_, fun other => ?_, ?_⟩
  · rw [horder]
    exact List.Nodup.append h.nodup (List.nodup_singleton topic) (by simpa using habsent)
  · rw [horder, List.mem_append, List.mem_singleton, h.mem_iff]
    change _ ↔ other ∈ s.subscribedTopics.insert topic
    rw [Std.ExtTreeSet.mem_insert, Std.compare_eq_iff_eq, or_comm, eq_comm]
  · rw [horder, List.length_append, List.length_singleton]
    exact hroom

theorem evictOldestSubscription_subscribed (G : Gossipsub) (h : Subscribed s)
    (hfull : maxDynamicSubscriptions ≤ s.subscribedTopics.size) :
    Subscribed (s.evictOldestSubscription G).2 ∧
      (s.evictOldestSubscription G).2.subscriptionOrder.length < maxDynamicSubscriptions ∧
      ∀ topic, topic ∉ s.subscribedTopics → topic ∉ (s.evictOldestSubscription G).2.subscribedTopics := by
  rw [h.size_eq] at hfull
  have hpos : 0 < s.subscriptionOrder.length := Nat.lt_of_lt_of_le (by decide) hfull
  have hsomewhere : ∃ evictIdx, evictIdx < s.subscriptionOrder.length ∧
      (s.subscriptionOrder.findIdx? (· ≠ topicGeneral)).or
        (if s.subscriptionOrder.isEmpty then none else some 0) = some evictIdx := by
    cases hfind : s.subscriptionOrder.findIdx? (· ≠ topicGeneral) with
    | some evictIdx => exact ⟨evictIdx, (List.findIdx?_eq_some_iff_findIdx_eq.mp hfind).1, rfl⟩
    | none =>
      refine ⟨0, hpos, ?_⟩
      rw [if_neg]
      · rfl
      · rw [List.isEmpty_iff]
        exact List.length_pos_iff.mp hpos
  obtain ⟨evictIdx, hlt, hidx⟩ := hsomewhere
  let evicted := s.subscriptionOrder[evictIdx]
  have hresult : (s.evictOldestSubscription G).2 = { s with
      subscriptionOrder := s.subscriptionOrder.eraseIdx evictIdx
      subscribedTopics := s.subscribedTopics.erase evicted } := by
    unfold evictOldestSubscription
    simp only [hidx, List.getElem?_eq_getElem hlt]
    rfl
  have hlen : (s.subscriptionOrder.eraseIdx evictIdx).length + 1 = s.subscriptionOrder.length := by
    rw [List.length_eraseIdx_of_lt hlt]
    omega
  have hle := h.length_le
  have herase : s.subscriptionOrder.eraseIdx evictIdx = s.subscriptionOrder.erase evicted :=
    (h.nodup.erase_getElem evictIdx hlt).symm
  rw [hresult]
  refine ⟨h.remove evicted _ (h.nodup.eraseIdx evictIdx) (fun other => ?_) (by omega), ?_, fun topic hnot hin => ?_⟩
  · rw [herase, h.nodup.mem_erase_iff, and_comm]
  · dsimp only
    omega
  · exact hnot (Std.ExtTreeSet.mem_of_mem_erase hin)

theorem subscribeNew_subscribed (G : Gossipsub) (h : Subscribed s) (hnew : topic ∉ s.subscribedTopics)
    (hroom : s.subscriptionOrder.length < maxDynamicSubscriptions) : Subscribed (s.subscribeNew G topic).2 := by
  unfold subscribeNew
  split
  · exact h
  · exact h.add hnew hroom

theorem subscribe_subscribed (G : Gossipsub) (h : Subscribed s) (topic : String) : Subscribed (s.subscribe G topic).2 := by
  unfold subscribe
  split_ifs with hinvalid hcontains hfull
  · exact h
  · exact h.touch (Std.ExtTreeSet.mem_iff_contains.mpr hcontains)
  · obtain ⟨hevicted, hroom, hnew⟩ := evictOldestSubscription_subscribed G h hfull
    have hnot : topic ∉ s.subscribedTopics := fun hin => hcontains (Std.ExtTreeSet.mem_iff_contains.mp hin)
    split
    · rename_i heq
      rw [heq] at hevicted
      exact hevicted
    · rename_i heq
      rw [heq] at hevicted hroom hnew
      exact subscribeNew_subscribed G hevicted (hnew topic hnot) hroom
  · refine subscribeNew_subscribed G h (fun hin => hcontains (Std.ExtTreeSet.mem_iff_contains.mp hin)) ?_
    rw [← h.size_eq]
    omega

theorem unsubscribe_subscribed (G : Gossipsub) (h : Subscribed s) (topic : String) :
    Subscribed (s.unsubscribe G topic).2 := by
  unfold unsubscribe
  split_ifs
  · exact h.remove topic _ (h.nodup.filter _) (fun other => by simp) (List.length_filter_le _ _)
  · exact h

structure SameAgents (s t : AgentDiscovery P) : Prop where
  knownAgents : t.knownAgents = s.knownAgents
  knownAgentOrder : t.knownAgentOrder = s.knownAgentOrder
  pendingAttestations : t.pendingAttestations = s.pendingAttestations
  pendingAttesterIndex : t.pendingAttesterIndex = s.pendingAttesterIndex
  pendingSubjectAttesters : t.pendingSubjectAttesters = s.pendingSubjectAttesters
  pendingAttestationCount : t.pendingAttestationCount = s.pendingAttestationCount

theorem SameAgents.refl (s : AgentDiscovery P) : SameAgents s s := ⟨rfl, rfl, rfl, rfl, rfl, rfl⟩

theorem SameAgents.trans {u : AgentDiscovery P} (h : SameAgents s t) (h' : SameAgents t u) : SameAgents s u where
  knownAgents := h'.1.trans h.1
  knownAgentOrder := h'.2.trans h.2
  pendingAttestations := h'.3.trans h.3
  pendingAttesterIndex := h'.4.trans h.4
  pendingSubjectAttesters := h'.5.trans h.5
  pendingAttestationCount := h'.6.trans h.6

theorem subscribeNew_sameAgents (G : Gossipsub) (s : AgentDiscovery P) (topic : String) :
    SameAgents s (s.subscribeNew G topic).2 := by
  unfold subscribeNew
  split
  · exact .refl s
  · exact ⟨rfl, rfl, rfl, rfl, rfl, rfl⟩

theorem evictOldestSubscription_sameAgents (G : Gossipsub) (s : AgentDiscovery P) :
    SameAgents s (s.evictOldestSubscription G).2 := by
  unfold evictOldestSubscription
  split
  · exact .refl s
  · split
    · exact .refl s
    · exact ⟨rfl, rfl, rfl, rfl, rfl, rfl⟩

theorem subscribe_sameAgents (G : Gossipsub) (s : AgentDiscovery P) (topic : String) :
    SameAgents s (s.subscribe G topic).2 := by
  have hevict := evictOldestSubscription_sameAgents G s
  unfold subscribe
  split_ifs
  · exact .refl s
  · exact ⟨rfl, rfl, rfl, rfl, rfl, rfl⟩
  · split
    · rename_i heq
      rw [heq] at hevict
      exact hevict
    · rename_i heq
      rw [heq] at hevict
      exact hevict.trans (subscribeNew_sameAgents G _ topic)
  · exact subscribeNew_sameAgents G s topic

theorem unsubscribe_sameAgents (G : Gossipsub) (s : AgentDiscovery P) (topic : String) :
    SameAgents s (s.unsubscribe G topic).2 := by
  unfold unsubscribe
  split_ifs
  · exact ⟨rfl, rfl, rfl, rfl, rfl, rfl⟩
  · exact .refl s

theorem SameAgents.bounded (h : SameAgents s t) (hs : Bounded s) : Bounded t := by
  obtain ⟨_, _, _, _, _, _, _, _⟩ := s
  obtain ⟨_, _, _, _, _, _, _, _⟩ := t
  obtain ⟨rfl, rfl, rfl, rfl, rfl, rfl⟩ := h
  exact ⟨⟨hs.order, hs.pended.count, hs.pended.lists, hs.pended.attesters, hs.pended.index⟩, hs.known_le, hs.pending_le⟩

/-! ### Coherence -/

/-- All that is stored twice agrees, and the limits hold. -/
structure Coherent (s : AgentDiscovery P) : Prop where
  order : ∀ time did, (time, did) ∈ s.knownAgentOrder ↔
    ∃ announcement, s.knownAgents[did]? = some announcement ∧ announcement.timestamp = time
  known_le : s.knownAgents.size ≤ maxKnownAgents
  count : s.pendingAttestationCount = (s.pendingAttestations.toList.map fun entry => entry.2.length).sum
  count_le : s.pendingAttestationCount ≤ maxTotalPendingAttestations
  lists : ∀ (did : String) l, s.pendingAttestations[did]? = some l → l ≠ [] ∧
    l.Pairwise (fun a b => a.verifiedAt ≤ b.verifiedAt) ∧ l.length ≤ maxPendingAttestationsPerSubject
  index : ∀ attesterDid subjectDid, Relates s.pendingAttesterIndex attesterDid subjectDid ↔
    ∃ l, s.pendingAttestations[subjectDid]? = some l ∧ ∃ attestation ∈ l, attestation.attesterDid = attesterDid
  attesters : ∀ subjectDid attesterDid, Relates s.pendingSubjectAttesters subjectDid attesterDid ↔
    ∃ l, s.pendingAttestations[subjectDid]? = some l ∧ ∃ attestation ∈ l, attestation.attesterDid = attesterDid
  topics_nodup : s.subscriptionOrder.Nodup
  mem_topics : ∀ topic, topic ∈ s.subscriptionOrder ↔ topic ∈ s.subscribedTopics
  topics_le : s.subscriptionOrder.length ≤ maxDynamicSubscriptions

theorem awaits_iff {attesterDid subjectDid : String} : s.Awaits attesterDid subjectDid ↔
    ∃ l, s.pendingAttestations[subjectDid]? = some l ∧ ∃ attestation ∈ l, attestation.attesterDid = attesterDid := by
  unfold Awaits pendingOf
  cases s.pendingAttestations[subjectDid]? <;> simp

theorem Bounded.coherent (h : Bounded s) (hsubscribed : Subscribed s) : Coherent s where
  order := h.order
  known_le := h.known_le
  count := h.pended.count
  count_le := by
    rw [h.pended.count]
    exact h.pending_le
  lists did l hl := ⟨(h.pended.lists did l hl).nonempty, (h.pended.lists did l hl).sorted,
    (h.pended.lists did l hl).length_le⟩
  index attesterDid subjectDid := by
    rw [h.pended.index, awaits_iff]
    exact and_iff_left fun h => h
  attesters subjectDid attesterDid := by
    rw [h.pended.attesters, awaits_iff]
  topics_nodup := hsubscribed.nodup
  mem_topics := hsubscribed.mem_iff
  topics_le := hsubscribed.length_le

theorem known_new (did : String) : (new : AgentDiscovery P).knownAgents[did]? = none := Std.ExtTreeMap.getElem?_empty

theorem pending_new (did : String) : (new : AgentDiscovery P).pendingAttestations[did]? = none :=
  Std.ExtTreeMap.getElem?_empty

theorem not_awaits_new (attesterDid subjectDid : String) : ¬ (new : AgentDiscovery P).Awaits attesterDid subjectDid := by
  rw [awaits_iff]
  rintro ⟨l, hl, -⟩
  rw [pending_new] at hl
  cases hl

theorem bounded_new : Bounded (new : AgentDiscovery P) where
  order time did := by
    rw [known_new]
    exact iff_of_false Std.ExtTreeSet.not_mem_empty (by simp)
  pended := {
    count := rfl
    lists := fun did l hl => by
      rw [pending_new] at hl
      cases hl
    attesters := fun subjectDid attesterDid =>
      iff_of_false (OrdMap.not_relates_empty subjectDid attesterDid) (not_awaits_new attesterDid subjectDid)
    index := fun attesterDid subjectDid => iff_of_false (OrdMap.not_relates_empty attesterDid subjectDid)
      fun h => not_awaits_new attesterDid subjectDid h.1 }
  known_le := Nat.zero_le _
  pending_le := Nat.zero_le _

theorem subscribed_new : Subscribed (new : AgentDiscovery P) where
  nodup := List.nodup_nil
  mem_iff _ := iff_of_false List.not_mem_nil Std.ExtTreeSet.not_mem_empty
  length_le := Nat.zero_le _

/-! ### Calls -/

theorem verifyAndUpsert_bounded {fuel : Nat} {resolveDocument : Resolver} {announcement : AgentAnnouncement P}
    {outcome : Except String (AgentAnnouncement P)} (h : Bounded s)
    (hrun : s.verifyAndUpsert W A fuel resolveDocument announcement = some (outcome, t)) :
    Bounded t ∧ SameTopics s t := by
  unfold verifyAndUpsert at hrun
  split at hrun
  · obtain ⟨-, rfl⟩ := Prod.mk.inj (Option.some.inj hrun)
    exact ⟨h, .refl s⟩
  · obtain ⟨t', hupsert, heq⟩ := Option.map_eq_some_iff.mp hrun
    obtain ⟨-, rfl⟩ := Prod.mk.inj heq
    obtain ⟨hbounded, htopics, -⟩ := upsertVerifiedInner_stages h hupsert
    exact ⟨hbounded, htopics⟩

theorem exists_verifyAndUpsert (W : Wire P) (A : Ambient) {fuel : Nat} (hfuel : enoughRounds ≤ fuel) (h : Bounded s)
    (resolveDocument : Resolver) (announcement : AgentAnnouncement P) :
    ∃ result, s.verifyAndUpsert W A fuel resolveDocument announcement = some result := by
  unfold verifyAndUpsert
  split
  · exact ⟨_, rfl⟩
  · obtain ⟨t, ht⟩ := exists_upsertVerifiedInner W A h hfuel (s.sanitized W resolveDocument announcement).1
      (s.sanitized W resolveDocument announcement).2
    exact ⟨_, Option.map_eq_some_iff.mpr ⟨t, ht, rfl⟩⟩

end AgentDiscovery

open AgentDiscovery

inductive Call (P : Platform) where
  | handleGossipsubMessage (resolveDocument : Resolver) (data : Bytes)
  | ingestKadRecord (value : Bytes)
  | upsertTrustedAnnouncement (announcement : AgentAnnouncement P)
  | pruneExpired
  | subscribe (topic : String)
  | unsubscribe (topic : String)
  | queryCapabilities (query : CapabilityQuery P) (now attestationMaxAgeSecs : UInt64)

def Call.apply (W : Wire P) (A : Ambient) (G : Gossipsub) (fuel : Nat) (s : AgentDiscovery P) :
    Call P → Option (AgentDiscovery P)
  | .handleGossipsubMessage resolveDocument data => (s.handleGossipsubMessage W A fuel resolveDocument data).map Prod.snd
  | .ingestKadRecord value => (s.ingestKadRecord W A fuel value).map Prod.snd
  | .upsertTrustedAnnouncement announcement => s.upsertTrustedAnnouncement W A fuel announcement
  | .pruneExpired => some (s.pruneExpired A)
  | .subscribe topic => some (s.subscribe G topic).2
  | .unsubscribe topic => some (s.unsubscribe G topic).2
  | .queryCapabilities query now attestationMaxAgeSecs =>
    some (s.queryCapabilities A G query now attestationMaxAgeSecs).2

inductive Reached (W : Wire P) : AgentDiscovery P → Prop where
  | new : Reached W .new
  | call {s t : AgentDiscovery P} (A : Ambient) (G : Gossipsub) (fuel : Nat) (call : Call P) (before : Reached W s)
    (hrun : call.apply W A G fuel s = some t) : Reached W t

variable {A : Ambient} {G : Gossipsub} {fuel : Nat} {s t : AgentDiscovery P}

variable {resolveDocument : Resolver} {result : Except String (AgentAnnouncement P) × AgentDiscovery P}

theorem ingestKadRecordWithResolver_cases {value : Bytes}
    (h : s.ingestKadRecordWithResolver W A fuel resolveDocument value = some result) :
    result.2 = s ∨ ∃ announcement, W.announcementFromSlice value = .ok announcement ∧
      s.verifyAndUpsert W A fuel resolveDocument announcement = some result := by
  unfold ingestKadRecordWithResolver at h
  split_ifs at h
  · exact .inl (congrArg Prod.snd (Option.some.inj h)).symm
  · split at h
    · exact .inl (congrArg Prod.snd (Option.some.inj h)).symm
    · rename_i announcement hparsed
      exact .inr ⟨announcement, hparsed, h⟩

theorem handleGossipsubMessage_cases {data : Bytes}
    (h : s.handleGossipsubMessage W A fuel resolveDocument data = some result) :
    result.2 = s ∨ ∃ announcement, W.announcementFromSlice data = .ok announcement ∧
      s.verifyAndUpsert W A fuel resolveDocument announcement = some result := by
  unfold handleGossipsubMessage at h
  split_ifs at h
  · exact .inl (congrArg Prod.snd (Option.some.inj h)).symm
  · split at h
    · exact .inl (congrArg Prod.snd (Option.some.inj h)).symm
    · rename_i announcement hparsed
      exact .inr ⟨announcement, hparsed, h⟩

theorem queryCapabilities_state (A : Ambient) (G : Gossipsub) (s : AgentDiscovery P) (query : CapabilityQuery P)
    (now attestationMaxAgeSecs : UInt64) :
    (s.queryCapabilities A G query now attestationMaxAgeSecs).2 = s ∨
      (∃ topic, topic ∈ s.subscribedTopics ∧
        (s.queryCapabilities A G query now attestationMaxAgeSecs).2 = s.touchSubscription topic) ∨
      ∃ topic, (s.queryCapabilities A G query now attestationMaxAgeSecs).2 = (s.subscribe G topic).2 := by
  have hstate : (s.queryCapabilities A G query now attestationMaxAgeSecs).2 =
      if query.count.toNat ≤ (s.rankedMatches A query now attestationMaxAgeSecs).length then s
      else if s.subscribedTopics.contains (dynamicTopicForDomain (CapabilityDomain.new query.domainPrefix 1)) then
        s.touchSubscription (dynamicTopicForDomain (CapabilityDomain.new query.domainPrefix 1))
      else (s.subscribe G (dynamicTopicForDomain (CapabilityDomain.new query.domainPrefix 1))).2 := by
    unfold queryCapabilities
    exact apply_ite Prod.snd _ _ _
  rw [hstate]
  split_ifs with henough hcontains
  · exact .inl rfl
  · exact .inr (.inl ⟨_, Std.ExtTreeSet.mem_iff_contains.mpr hcontains, rfl⟩)
  · exact .inr (.inr ⟨_, rfl⟩)

theorem queryCapabilities_sameAgents (A : Ambient) (G : Gossipsub) (s : AgentDiscovery P) (query : CapabilityQuery P)
    (now attestationMaxAgeSecs : UInt64) :
    SameAgents s (s.queryCapabilities A G query now attestationMaxAgeSecs).2 := by
  rcases queryCapabilities_state A G s query now attestationMaxAgeSecs with hsame | ⟨domainTopic, -, htouch⟩ |
    ⟨domainTopic, hsubscribe⟩
  · rw [hsame]
    exact .refl s
  · rw [htouch]
    exact ⟨rfl, rfl, rfl, rfl, rfl, rfl⟩
  · rw [hsubscribe]
    exact subscribe_sameAgents G s domainTopic

theorem Call.apply_bounded {call : Call P} (h : Bounded s) (hsubscribed : Subscribed s)
    (hrun : call.apply W A G fuel s = some t) : Bounded t ∧ Subscribed t := by
  cases call with
  | handleGossipsubMessage resolveDocument data =>
    obtain ⟨⟨outcome, t'⟩, hresult, rfl⟩ := Option.map_eq_some_iff.mp hrun
    rcases handleGossipsubMessage_cases hresult with hsame | ⟨announcement, -, hupsert⟩
    · rw [hsame]
      exact ⟨h, hsubscribed⟩
    · obtain ⟨hbounded, htopics⟩ := verifyAndUpsert_bounded h hupsert
      exact ⟨hbounded, htopics.subscribed hsubscribed⟩
  | ingestKadRecord value =>
    obtain ⟨outcome, hresult, rfl⟩ := Option.map_eq_some_iff.mp hrun
    obtain ⟨⟨inner, t'⟩, hinner, rfl⟩ := Option.map_eq_some_iff.mp hresult
    rcases ingestKadRecordWithResolver_cases hinner with hsame | ⟨announcement, -, hupsert⟩
    · dsimp only at hsame ⊢
      rw [hsame]
      exact ⟨h, hsubscribed⟩
    · obtain ⟨hbounded, htopics⟩ := verifyAndUpsert_bounded h hupsert
      exact ⟨hbounded, htopics.subscribed hsubscribed⟩
  | upsertTrustedAnnouncement announcement =>
    unfold Call.apply AgentDiscovery.upsertTrustedAnnouncement at hrun
    dsimp only at hrun
    split at hrun
    · cases hrun
      exact ⟨h, hsubscribed⟩
    · obtain ⟨hbounded, htopics, -⟩ := upsertVerifiedInner_stages h hrun
      exact ⟨hbounded, htopics.subscribed hsubscribed⟩
  | pruneExpired =>
    cases hrun
    obtain ⟨hcore, htopics, htotal, hknown, -⟩ := pruneExpired_spec A h.toCore h.room
    refine ⟨⟨hcore, ?_, htotal.trans h.pending_le⟩, htopics.subscribed hsubscribed⟩
    refine (size_le_of_known fun did hsome => ?_).trans h.known_le
    rw [hknown] at hsome
    split_ifs at hsome
    · cases hsome
    · exact hsome
  | subscribe topic =>
    cases hrun
    exact ⟨(subscribe_sameAgents G s topic).bounded h, subscribe_subscribed G hsubscribed topic⟩
  | unsubscribe topic =>
    cases hrun
    exact ⟨(unsubscribe_sameAgents G s topic).bounded h, unsubscribe_subscribed G hsubscribed topic⟩
  | queryCapabilities query now attestationMaxAgeSecs =>
    cases hrun
    refine ⟨(queryCapabilities_sameAgents A G s query now attestationMaxAgeSecs).bounded h, ?_⟩
    rcases queryCapabilities_state A G s query now attestationMaxAgeSecs with hsame | ⟨domainTopic, hin, htouch⟩ |
      ⟨domainTopic, hsubscribe⟩
    · rw [hsame]
      exact hsubscribed
    · rw [htouch]
      exact hsubscribed.touch hin
    · rw [hsubscribe]
      exact subscribe_subscribed G hsubscribed _

theorem Reached.bounded (h : Reached W s) : Bounded s ∧ Subscribed s := by
  induction h with
  | new => exact ⟨bounded_new, subscribed_new⟩
  | call A G fuel call before hrun ih => exact Call.apply_bounded ih.1 ih.2 hrun

theorem Call.exists_apply (W : Wire P) (A : Ambient) (G : Gossipsub) (hfuel : enoughRounds ≤ fuel) (h : Bounded s)
    (call : Call P) : ∃ t, call.apply W A G fuel s = some t := by
  cases call with
  | handleGossipsubMessage resolveDocument data =>
    have hresult : ∃ result, s.handleGossipsubMessage W A fuel resolveDocument data = some result := by
      unfold AgentDiscovery.handleGossipsubMessage
      split_ifs
      · exact ⟨_, rfl⟩
      · split
        · exact ⟨_, rfl⟩
        · exact exists_verifyAndUpsert W A hfuel h resolveDocument _
    obtain ⟨result, hresult⟩ := hresult
    exact ⟨result.2, congrArg (Option.map Prod.snd) hresult⟩
  | ingestKadRecord value =>
    have hresult : ∃ result, s.ingestKadRecordWithResolver W A fuel (fun _ => none) value = some result := by
      unfold ingestKadRecordWithResolver
      split_ifs
      · exact ⟨_, rfl⟩
      · split
        · exact ⟨_, rfl⟩
        · exact exists_verifyAndUpsert W A hfuel h _ _
    obtain ⟨result, hresult⟩ := hresult
    refine ⟨result.2, ?_⟩
    unfold Call.apply AgentDiscovery.ingestKadRecord
    dsimp only
    rw [hresult]
    rfl
  | upsertTrustedAnnouncement announcement =>
    unfold Call.apply AgentDiscovery.upsertTrustedAnnouncement
    dsimp only
    split
    · exact ⟨s, rfl⟩
    · exact exists_upsertVerifiedInner W A h hfuel _ _
  | pruneExpired => exact ⟨_, rfl⟩
  | subscribe _ => exact ⟨_, rfl⟩
  | unsubscribe _ => exact ⟨_, rfl⟩
  | queryCapabilities _ _ _ => exact ⟨_, rfl⟩

/-- **The state of discovery is coherent**, and no eviction loop of a call runs for ever. -/
theorem reached_coherent (W : Wire P) {s : AgentDiscovery P} (h : Reached W s) :
    s.Coherent ∧ ∀ (A : Ambient) (G : Gossipsub) (fuel : Nat) (call : Call P), enoughRounds ≤ fuel →
      ∃ t, call.apply W A G fuel s = some t :=
  ⟨h.bounded.1.coherent h.bounded.2, fun A G _ call hfuel => Call.exists_apply W A G hfuel h.bounded.1 call⟩

/-- An announcement with a statement of an agent that nobody has announced. -/
def awaiting : AgentAnnouncement .reference :=
  ⟨⟨"peer", "did:key:a", "", "", [], [⟨"cap", ⟨"prove", 1⟩, [], [], [], ⟨0, 0, (0 : Rat), 0, 0, 0, 0, none⟩,
    [⟨"did:key:b", "did:key:a", "cap", "challenge", true, 5, [1], [1]⟩]⟩], [], [], "1", 10, 300, none, none, none, none⟩,
    none, none⟩

/-- After a subscription and that announcement, with the statement pending. -/
theorem subscribed_coherent : ∃ s : AgentDiscovery .reference, s.Coherent ∧
    (s.subscriptionOrder, s.knownAgents.keys, s.pendingAttestations.keys) =
      (["/agenthalo/capabilities/prove"], ["did:key:a"], ["did:key:a"]) := by
  let G : Gossipsub := ⟨fun _ => .ok (), fun _ => .ok ()⟩
  have hrun : ((((new : AgentDiscovery .reference).subscribe G "/agenthalo/capabilities/prove").2.upsertTrustedAnnouncement
      (Wire.reference []) (.at 10) 3 awaiting).map fun s =>
        (s.subscriptionOrder, s.knownAgents.keys, s.pendingAttestations.keys)) =
      some (["/agenthalo/capabilities/prove"], ["did:key:a"], ["did:key:a"]) := by decide +kernel
  obtain ⟨s, hs, hparts⟩ := Option.map_eq_some_iff.mp hrun
  exact ⟨s, (reached_coherent (Wire.reference []) (.call (.at 10) G 3 (.upsertTrustedAnnouncement awaiting)
    (.call (.at 0) G 0 (.subscribe "/agenthalo/capabilities/prove") .new rfl) hs)).1, hparts⟩

end AgentHalo.Discovery
