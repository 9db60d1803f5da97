import AgentHalo.Discovery.Genuine

/-!
# Honest counts

A specification goes under an identifier that is supposed to be the hash of its content, and the attestations in it are
counted. The announcer supplies both: nothing compares the identifier with the content, and an attestation is kept as
often as the announcer repeats it. The counts are honest in every state reached by messages that carry honest
specifications (`received_honest`), and only these are stored with honest ones (`carriesHonestSpecs_iff`).
-/

namespace AgentHalo.Discovery

open AgentDiscovery

variable {P : Platform} {W : Wire P} {s : AgentDiscovery P} {did : String} {announcement : AgentAnnouncement P}
  {resolveDocument : Resolver} {spec : CapabilitySpec P}

def CapabilityAttestation.answer (attestation : CapabilityAttestation) : String × String :=
  (attestation.attesterDid, attestation.challengeHash)

def Identified (W : Wire P) (spec : CapabilitySpec P) : Prop :=
  spec.capabilityId =
    CapabilitySpec.computeId P W.spec spec.domain spec.inputTypes spec.outputTypes spec.constraints

/-- No time and no age at which more attestations count than there are distinct answers. -/
def HonestlyCounted (spec : CapabilitySpec P) : Prop :=
  ∀ now maxAgeSecs, spec.verifiedAttestationCount now maxAgeSecs ≤
    (spec.attestations.map CapabilityAttestation.answer).toFinset.card

/-- An identifier of the content, and an honest count. -/
structure HonestSpec (W : Wire P) (spec : CapabilitySpec P) : Prop where
  identified : Identified W spec
  counted : HonestlyCounted spec

theorem verifiedAttestationCount_le (spec : CapabilitySpec P) (now maxAgeSecs : UInt64) :
    spec.verifiedAttestationCount now maxAgeSecs ≤ spec.attestations.length :=
  (List.length_filter_le _ _).trans (List.length_filter_le _ _)

theorem honestlyCounted_of_nodup (h : (spec.attestations.map CapabilityAttestation.answer).Nodup) :
    HonestlyCounted spec := by
  intro now maxAgeSecs
  rw [List.toFinset_card_of_nodup h, List.length_map]
  exact verifiedAttestationCount_le spec now maxAgeSecs

theorem honestlyCounted_iff (hvalid : ∀ attestation ∈ spec.attestations,
    spec.attestationIsStructurallyValid attestation = true) :
    HonestlyCounted spec ↔ (spec.attestations.map CapabilityAttestation.answer).Nodup := by
  refine ⟨fun h => ?_, honestlyCounted_of_nodup⟩
  have hall : spec.verifiedAttestationCount 0 0 = spec.attestations.length := by
    unfold CapabilitySpec.verifiedAttestationCount
    rw [List.filter_eq_self.mpr hvalid, List.filter_eq_self.mpr fun attestation _ => by simp [age]]
  have hle := h 0 0
  rw [hall, List.card_toFinset, ← List.length_map CapabilityAttestation.answer] at hle
  rw [← (List.dedup_sublist _).eq_of_length_le hle]
  exact List.nodup_dedup _

/-- Every specification has the identifier of its content, and of the attestations that are kept no two are the answer
of one attester for one challenge. -/
def carriesHonestSpecs (W : Wire P) : Condition P := fun s _ resolveDocument announcement =>
  ∀ spec ∈ announcement.capabilitySpecs, Identified W spec ∧
    ((s.kept W resolveDocument announcement.did spec.capabilityId spec.attestations).map
      CapabilityAttestation.answer).Nodup

theorem valid_of_mem_kept {capabilityId : String} {attestations : List CapabilityAttestation}
    {attestation : CapabilityAttestation} (hid : spec.capabilityId = capabilityId)
    (h : attestation ∈ s.kept W resolveDocument did capabilityId attestations) :
    spec.attestationIsStructurallyValid attestation = true := by
  obtain ⟨-, heligible, -⟩ := mem_kept.mp h
  obtain ⟨hpassed, hcapability, hchallenge, hself, hed, hpq, -⟩ := eligible_iff.mp heligible
  unfold CapabilitySpec.attestationIsStructurallyValid
  simp [hpassed, hcapability, hchallenge, hself, hed, hpq, hid]

theorem carriesHonestSpecs_iff (W : Wire P) (s : AgentDiscovery P) (A : Ambient) (resolveDocument : Resolver)
    (announcement : AgentAnnouncement P) : carriesHonestSpecs W s A resolveDocument announcement ↔
      ∀ spec ∈ (s.sanitized W resolveDocument announcement).1.capabilitySpecs, HonestSpec W spec := by
  rw [sanitized_eq]
  dsimp only
  rw [List.forall_mem_map]
  refine forall₂_congr fun spec _ => ?_
  have hvalid : ∀ attestation ∈ (s.storedSpec W resolveDocument announcement.did spec).attestations,
      (s.storedSpec W resolveDocument announcement.did spec).attestationIsStructurallyValid attestation = true :=
    fun attestation hin => valid_of_mem_kept rfl hin
  have hcounted := honestlyCounted_iff hvalid
  exact ⟨fun ⟨hid, hnodup⟩ => ⟨hid, hcounted.mpr hnodup⟩, fun ⟨hid, hhonest⟩ => ⟨hid, hcounted.mp hhonest⟩⟩

theorem Received.honest (h : Received W (carriesHonestSpecs W) s) :
    Held (fun _ stored => ∀ spec ∈ stored.capabilitySpecs, Identified W spec ∧
      (spec.attestations.map CapabilityAttestation.answer).Nodup) (fun _ _ => True) s := by
  refine h.held fun s A resolveDocument announcement _ hcarries _ => ⟨?_, fun _ _ => trivial, ?_⟩
  · rw [sanitized_eq]
    dsimp only
    rw [List.forall_mem_map]
    exact hcarries
  · intro document _ did known attestation hknown _ _ spec hspec
    rcases mem_joinAttestation hspec with hin | ⟨before, hin, -, -, rfl⟩
    · exact hknown spec hin
    · obtain ⟨hid, hnodup⟩ := hknown before hin
      rcases joinSpec_cases attestation before with hsame | ⟨hadded, hnew⟩
      · rw [hsame]
        exact ⟨hid, hnodup⟩
      · -- The attestation that joins is the first answer of its attester for its challenge.
        rw [hadded]
        refine ⟨hid, ?_⟩
        rw [List.map_append]
        refine hnodup.append (List.nodup_singleton _) fun answer hold hsame => ?_
        obtain ⟨existing, hexisting, rfl⟩ := List.mem_map.mp hold
        have heq := Prod.mk.inj (List.mem_singleton.mp hsame)
        exact hnew existing hexisting ⟨heq.2, heq.1⟩

/-- **Counts are honest** as long as announcements carry honest specifications. -/
theorem received_honest (h : Received W (carriesHonestSpecs W) s) (hget : s.knownAgents[did]? = some announcement)
    (hspec : spec ∈ announcement.capabilitySpecs) : HonestSpec W spec := by
  obtain ⟨hid, hnodup⟩ := h.honest.known did announcement hget spec hspec
  exact ⟨hid, honestlyCounted_of_nodup hnodup⟩

namespace Sample

/-- The identifier of a specification without content. -/
def contentId : String := CapabilitySpec.computeId .reference (Wire.reference []).spec ⟨"prove", 1⟩ [] [] []

theorem size_computeId (J : SpecJson) (domain : CapabilityDomain) (inputTypes outputTypes : List TypeSpec)
    (constraints : List CapabilityConstraint) :
    size (CapabilitySpec.computeId .reference J domain inputTypes outputTypes constraints) = 64 := by
  unfold CapabilitySpec.computeId
  rw [size, Text.utf8_hexEncode_length, Vector.length_toList]

theorem identified_contentId (announcements : List (AgentAnnouncement .reference))
    (statements : List CapabilityAttestation) : Identified (Wire.reference announcements) (Sample.spec contentId statements) := by
  unfold Identified
  rfl

theorem carriesHonestSpecs_contentId (W : Wire .reference) (A : Ambient) (resolveDocument : Resolver)
    (hid : ∀ statements, Identified W (Sample.spec contentId statements)) :
    carriesHonestSpecs W .new A resolveDocument (signed 1 (attestedDraft 1 2 1 "peer" contentId)) := by
  obtain ⟨-, edSig, pqSig, -, -, hsigned⟩ := signAnnouncement_signed [] 1 (attestedDraft 1 2 1 "peer" contentId)
  rw [hsigned]
  intro other hother
  obtain rfl := List.mem_singleton.mp hother
  refine ⟨hid _, List.Nodup.sublist (List.filter_sublist.map _) ?_⟩
  rw [Sample.spec, List.map_replicate]
  exact List.nodup_replicate.mpr le_rfl

end Sample

/-- One honest message. -/
theorem sample_honest : ∃ (W : Wire .reference) (s : AgentDiscovery .reference)
    (announcement : AgentAnnouncement .reference) (spec : CapabilitySpec .reference),
      Received W (carriesHonestSpecs W) s ∧ s.knownAgents[Sample.did 1]? = some announcement ∧
      announcement.capabilitySpecs = [spec] ∧ spec.attestations.length = 1 ∧ HonestSpec W spec := by
  have hshort : Sample.size Sample.contentId ≤ 900 := (Sample.size_computeId _ _ _ _ _).trans_le (by decide)
  obtain ⟨s, stored, hreceives, hget, hspecs⟩ := Sample.exists_attested 1 (by decide) (by decide : (2 : UInt8) ≠ 1)
    Sample.contentId hshort
    (Sample.carriesHonestSpecs_contentId _ (.at 1000) (Sample.resolver [1, 2]) (Sample.identified_contentId
      [Sample.signed 1 (Sample.attestedDraft 1 2 1 "peer" Sample.contentId)]))
  have hreceived := Received.message .new hreceives
  refine ⟨_, s, stored, _, hreceived, hget, hspecs, List.length_replicate, received_honest hreceived hget ?_⟩
  rw [hspecs]
  exact List.mem_singleton_self _

/-- One attester's answer that the announcer repeats, for a capability under a name of the announcer's choice. -/
theorem dishonest_spec_stored : ∃ (W : Wire .reference) (s : AgentDiscovery .reference)
    (announcement : AgentAnnouncement .reference) (spec : CapabilitySpec .reference),
      Received W anyMessage s ∧ s.knownAgents[Sample.did 1]? = some announcement ∧
      spec ∈ announcement.capabilitySpecs ∧ ¬ Identified W spec ∧ ¬ HonestlyCounted spec := by
  have hne : (2 : UInt8) ≠ 1 := by decide
  obtain ⟨s, stored, hreceives, hget, hspecs⟩ :=
    Sample.exists_attested (C := anyMessage) 2 (by decide) hne "capability" (by decide) trivial
  refine ⟨_, s, stored, _, .message .new hreceives, hget, hspecs ▸ List.mem_singleton_self _, fun hid => ?_,
    fun hcounted => ?_⟩
  · have hsize := congrArg Sample.size hid
    rw [Sample.size_computeId] at hsize
    exact absurd hsize (by decide)
  · have hvalid : ∀ attestation ∈ List.replicate 2 (Sample.attestation 2 1 "capability" "challenge" 900),
        (Sample.spec "capability" []).attestationIsStructurallyValid attestation = true := by
      intro attestation hin
      obtain rfl := List.eq_of_mem_replicate hin
      obtain ⟨hpassed, hcapability, hchallenge, hself, hed, hpq, -⟩ := eligible_iff.mp
        (Sample.eligible_attestation "capability" "challenge" 900 hne (by decide))
      unfold CapabilitySpec.attestationIsStructurallyValid
      simp [hpassed, hcapability, hchallenge, hself, hed, hpq, Sample.spec]
    have hnodup := (honestlyCounted_iff hvalid).mp hcounted
    rw [Sample.spec, List.map_replicate] at hnodup
    exact absurd (List.nodup_replicate.mp hnodup) (by decide)

end AgentHalo.Discovery
