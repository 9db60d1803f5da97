import AgentHalo.Discovery.Coherent

/-!
# Messages from the network

Anybody can send anything on either channel. A message that is not refused is stored after its metrics and attestations
have been sanitized (`sanitized_eq` says what is left of them), and the attestations whose attester has no document yet
wait. `Received` are the states to which messages lead, and `Held` is a fact about all that a state stores: it is enough
to establish it for what one accepted message brings in and for what the replay joins (`Held.upsert`).
-/

namespace AgentHalo.Discovery

open Pod (DIDDocument)
open Outcome

variable {P : Platform} {W : Wire P}

variable {announcement : AgentAnnouncement P} {now : UInt64}

theorem validateAnnouncementFreshness_ok (h : validateAnnouncementFreshness now announcement = .ok ()) :
    age now announcement.timestamp ≤ (boundedAnnouncementTtl announcement.ttl).toNat := by
  unfold validateAnnouncementFreshness at h
  simp only [bind, bind_eq_ok, require_eq_ok, exists_const] at h
  exact of_decide_eq_true h.2

theorem fresh_of_verifyIncoming {resolveDocument : Resolver}
    (h : verifyIncoming W now resolveDocument announcement = .ok ()) :
    validateAnnouncementFreshness now announcement = .ok () := by
  unfold verifyIncoming at h
  obtain ⟨_, -, hrest⟩ := bind_eq_ok.mp h
  obtain ⟨_, hfresh, -⟩ := bind_eq_ok.mp hrest
  exact hfresh

/-- Where a message comes in. -/
inductive Channel where
  | gossipsub
  | kad
deriving DecidableEq, Repr

variable {bytes : Bytes}

namespace AgentDiscovery

variable {A : Ambient} {s t : AgentDiscovery P} {fuel : Nat} {resolveDocument : Resolver}
  {announcement : AgentAnnouncement P} {deferred : List CapabilityAttestation}

def receive (W : Wire P) (A : Ambient) (fuel : Nat) (s : AgentDiscovery P) (resolveDocument : Resolver) (bytes : Bytes) :
    Channel → Option (Except String (AgentAnnouncement P) × AgentDiscovery P)
  | .gossipsub => s.handleGossipsubMessage W A fuel resolveDocument bytes
  | .kad => s.ingestKadRecordWithResolver W A fuel resolveDocument bytes

/-! ### What is stored -/

/-- The document of the attester is at hand, and the attestation verifies under it. -/
def confirmed (W : Wire P) (s : AgentDiscovery P) (resolveDocument : Resolver) (attestation : CapabilityAttestation) :
    Bool :=
  (s.attesterDocument resolveDocument attestation.attesterDid).any (attested W attestation)

def kept (W : Wire P) (s : AgentDiscovery P) (resolveDocument : Resolver) (subjectDid capabilityId : String)
    (attestations : List CapabilityAttestation) : List CapabilityAttestation :=
  attestations.filter fun attestation =>
    eligible subjectDid capabilityId attestation && s.confirmed W resolveDocument attestation

/-- The attestations that are left to wait for their attester. -/
def undecided (s : AgentDiscovery P) (resolveDocument : Resolver) (subjectDid capabilityId : String)
    (attestations : List CapabilityAttestation) : List CapabilityAttestation :=
  attestations.filter fun attestation => eligible subjectDid capabilityId attestation &&
    (s.attesterDocument resolveDocument attestation.attesterDid).isNone

def storedSpec (W : Wire P) (s : AgentDiscovery P) (resolveDocument : Resolver) (subjectDid : String)
    (spec : CapabilitySpec P) : CapabilitySpec P :=
  { spec with
    metrics := spec.metrics.sanitize
    attestations := s.kept W resolveDocument subjectDid spec.capabilityId spec.attestations }

theorem foldl_sanitizeAttestation (W : Wire P) (s : AgentDiscovery P) (resolveDocument : Resolver)
    (subjectDid capabilityId : String) (attestations before waiting : List CapabilityAttestation) :
    attestations.foldl (s.sanitizeAttestation W resolveDocument subjectDid capabilityId) (before, waiting) =
      (before ++ s.kept W resolveDocument subjectDid capabilityId attestations,
        waiting ++ s.undecided resolveDocument subjectDid capabilityId attestations) := by
  induction attestations generalizing before waiting with
  | nil => simp [kept, undecided]
  | cons attestation rest ih =>
    rw [List.foldl_cons, sanitizeAttestation]
    by_cases heligible : eligible subjectDid capabilityId attestation = true
    · cases hdocument : s.attesterDocument resolveDocument attestation.attesterDid with
      | none => simp [heligible, hdocument, ih, kept, undecided, confirmed]
      | some document =>
        by_cases hattested : attested W attestation document = true
        · simp [heligible, hdocument, hattested, ih, kept, undecided, confirmed]
        · simp [heligible, hdocument, hattested, ih, kept, undecided, confirmed]
    · simp [heligible, ih, kept, undecided]

theorem foldl_sanitizeSpec (W : Wire P) (s : AgentDiscovery P) (resolveDocument : Resolver) (subjectDid : String)
    (specs before : List (CapabilitySpec P)) (waiting : List CapabilityAttestation) :
    (specs.map fun spec => { spec with metrics := spec.metrics.sanitize }).foldl (fun progress spec =>
        let (kept, deferred) := spec.attestations.foldl
          (s.sanitizeAttestation W resolveDocument subjectDid spec.capabilityId) ([], progress.2)
        (progress.1 ++ [{ spec with attestations := kept }], deferred)) (before, waiting) =
      (before ++ specs.map (s.storedSpec W resolveDocument subjectDid),
        waiting ++ specs.flatMap fun spec =>
          s.undecided resolveDocument subjectDid spec.capabilityId spec.attestations) := by
  induction specs generalizing before waiting with
  | nil => simp
  | cons spec rest ih =>
    rw [List.map_cons, List.foldl_cons, foldl_sanitizeAttestation]
    dsimp only
    rw [ih]
    simp [storedSpec]

theorem sanitized_eq (W : Wire P) (s : AgentDiscovery P) (resolveDocument : Resolver)
    (announcement : AgentAnnouncement P) :
    s.sanitized W resolveDocument announcement =
      ({ clampTtl announcement with
          capabilitySpecs := announcement.capabilitySpecs.map (s.storedSpec W resolveDocument announcement.did) },
        announcement.capabilitySpecs.flatMap fun spec =>
          s.undecided resolveDocument announcement.did spec.capabilityId spec.attestations) := by
  unfold sanitized sanitizeAttestations
  have hfold := foldl_sanitizeSpec W s resolveDocument announcement.did announcement.capabilitySpecs [] []
  rw [List.nil_append, List.nil_append] at hfold
  exact congrArg (fun specs : List (CapabilitySpec P) × List CapabilityAttestation =>
    ({ clampTtl announcement with capabilitySpecs := specs.1 }, specs.2)) hfold

theorem sanitized_did (W : Wire P) (s : AgentDiscovery P) (resolveDocument : Resolver)
    (announcement : AgentAnnouncement P) : (s.sanitized W resolveDocument announcement).1.did = announcement.did := by
  rw [sanitized_eq]
  rfl

variable {capabilityId subjectDid : String} {attestation : CapabilityAttestation}

variable {attestations : List CapabilityAttestation} {specs : List (CapabilitySpec P)} {spec : CapabilitySpec P}
  {document : DIDDocument}

theorem mem_kept :
    attestation ∈ s.kept W resolveDocument subjectDid capabilityId attestations ↔ attestation ∈ attestations ∧
      eligible subjectDid capabilityId attestation = true ∧
        ∃ document, s.attesterDocument resolveDocument attestation.attesterDid = some document ∧
          attested W attestation document = true := by
  simp only [kept, confirmed, List.mem_filter, Bool.and_eq_true, Option.any_eq_true]

theorem mem_undecided :
    attestation ∈ s.undecided resolveDocument subjectDid capabilityId attestations ↔ attestation ∈ attestations ∧
      eligible subjectDid capabilityId attestation = true ∧
        s.attesterDocument resolveDocument attestation.attesterDid = none := by
  simp only [undecided, List.mem_filter, Bool.and_eq_true, Option.isNone_iff_eq_none]

theorem eligible_iff : eligible subjectDid capabilityId attestation = true ↔ attestation.passed = true ∧
      attestation.capabilityId = capabilityId ∧ attestation.challengeHash ≠ "" ∧
      attestation.attesterDid ≠ attestation.subjectDid ∧ attestation.ed25519Signature ≠ [] ∧
      attestation.mldsa65Signature ≠ [] ∧ attestation.subjectDid = subjectDid := by
  simp only [eligible, Bool.and_eq_true, decide_eq_true_eq, and_assoc]

theorem mem_replaced (h : spec ∈ specs.replaceF fun spec =>
      if spec.capabilityId = attestation.capabilityId then some (joinSpec attestation spec) else none) :
    spec ∈ specs ∨ ∃ before ∈ specs, before.capabilityId = attestation.capabilityId ∧
      spec = joinSpec attestation before := by
  induction specs with
  | nil => exact .inl h
  | cons first rest ih =>
    rw [List.replaceF] at h
    by_cases hfirst : first.capabilityId = attestation.capabilityId
    · rw [if_pos hfirst] at h
      rcases List.mem_cons.mp h with rfl | hrest
      · exact .inr ⟨first, List.mem_cons_self, hfirst, rfl⟩
      · exact .inl (List.mem_cons_of_mem _ hrest)
    · rw [if_neg hfirst] at h
      rcases List.mem_cons.mp h with rfl | hrest
      · exact .inl List.mem_cons_self
      · exact (ih hrest).imp (List.mem_cons_of_mem _) fun ⟨before, hin, hmore⟩ =>
          ⟨before, List.mem_cons_of_mem _ hin, hmore⟩

theorem mem_joinAttestation (h : spec ∈ joinAttestation W document specs attestation) :
    spec ∈ specs ∨ ∃ before ∈ specs, attested W attestation document = true ∧
      before.capabilityId = attestation.capabilityId ∧ spec = joinSpec attestation before := by
  unfold joinAttestation at h
  split_ifs at h with hattested
  · have hjoined : spec ∈ specs ∨ ∃ before ∈ specs, before.capabilityId = attestation.capabilityId ∧
        spec = joinSpec attestation before := mem_replaced h
    exact hjoined.imp_right fun ⟨before, hin, hid, heq⟩ => ⟨before, hin, hattested, hid, heq⟩
  · exact .inl h

theorem joinSpec_cases (attestation : CapabilityAttestation) (spec : CapabilitySpec P) :
    joinSpec attestation spec = spec ∨
      (joinSpec attestation spec = { spec with attestations := spec.attestations ++ [attestation] } ∧
        ∀ existing ∈ spec.attestations, ¬ (existing.challengeHash = attestation.challengeHash ∧
          existing.attesterDid = attestation.attesterDid)) := by
  unfold joinSpec
  split_ifs with hany
  · exact .inl rfl
  · refine .inr ⟨rfl, fun existing hin hsame => hany ?_⟩
    exact List.any_eq_true.mpr ⟨existing, hin, by simp [hsame]⟩
  · exact .inl rfl

/-! ### Facts about all that is stored -/

/-- The announcements known and the attestations pending are as they should be. -/
structure Held (K : String → AgentAnnouncement P → Prop) (Q : String → CapabilityAttestation → Prop)
    (s : AgentDiscovery P) : Prop where
  known : ∀ (did : String) announcement, s.knownAgents[did]? = some announcement → K did announcement
  pending : ∀ did, ∀ attestation ∈ s.pendingOf did, Q did attestation

variable {K : String → AgentAnnouncement P → Prop} {Q : String → CapabilityAttestation → Prop}

theorem Held.of_shrinks (h : Held K Q s) (hshrinks : Shrinks s t) : Held K Q t where
  known did announcement hget := h.known did announcement (hshrinks.known did announcement hget)
  pending did attestation hin := h.pending did attestation (hshrinks.pending did hin)

theorem Held.of_sameAgents (h : Held K Q s) (hsame : SameAgents s t) : Held K Q t where
  known did announcement hget := h.known did announcement (hsame.knownAgents ▸ hget)
  pending did attestation hin := by
    unfold pendingOf at hin
    rw [hsame.pendingAttestations] at hin
    exact h.pending did attestation hin

theorem Held.insertKnown (h : Held K Q s) (hann : K announcement.did announcement) :
    Held K Q (s.insertKnown announcement) where
  known did announcement' hget := by
    rw [insertKnown_get?] at hget
    split_ifs at hget with hdid
    · obtain rfl := Option.some.inj hget
      rwa [← hdid]
    · exact h.known did announcement' hget
  pending := h.pending

theorem foldl_joinAttestation {did attesterDid : String} {waiting : List CapabilityAttestation}
    (hjoin : ∀ known attestation, K did known → Q did attestation → attestation.attesterDid = attesterDid →
      K did { known with capabilitySpecs := joinAttestation W document known.capabilitySpecs attestation })
    (hwaiting : ∀ attestation ∈ waiting, Q did attestation ∧ attestation.attesterDid = attesterDid)
    {known : AgentAnnouncement P} (h : K did known) : K did (rejoin W document waiting known) := by
  induction waiting generalizing known with
  | nil => exact h
  | cons attestation rest ih =>
    obtain ⟨hQ, hattester⟩ := hwaiting attestation List.mem_cons_self
    exact ih (fun other hother => hwaiting other (List.mem_cons_of_mem _ hother)) (hjoin known attestation h hQ hattester)

theorem Held.upsert (hbounded : Bounded s) (h : Held K Q s) (hann : K announcement.did announcement)
    (hdeferred : ∀ attestation ∈ deferred, Q announcement.did attestation)
    (hjoin : ∀ document, announcement.didDocument = some document → ∀ did known attestation, K did known →
      Q did attestation → attestation.attesterDid = announcement.did →
      K did { known with capabilitySpecs := joinAttestation W document known.capabilitySpecs attestation })
    (hrun : s.upsertVerifiedInner W A fuel announcement deferred = some t) : Held K Q t := by
  obtain ⟨-, -, limited, -, hshrinks, hsettles⟩ := upsertVerifiedInner_stages hbounded hrun
  have hlimited : Held K Q limited :=
    ((h.of_shrinks (pruneExpired_shrinks A hbounded.toCore hbounded.room)).insertKnown hann).of_shrinks hshrinks
  cases hsettles with
  | evicted => exact hlimited
  | @stored stored _ hknown _ hbeside hpending hreplayed =>
    have hstored : Held K Q stored := by
      refine ⟨fun did known hget => hlimited.known did known (hbeside.knownAgents ▸ hget), fun did attestation hin => ?_⟩
      rcases hpending did attestation hin with hbefore | ⟨rfl, hnew, -⟩
      · exact hlimited.pending did attestation hbefore
      · exact hdeferred attestation hnew
    refine ⟨fun did known hget => ?_, fun did attestation hin => ?_⟩
    · rw [hreplayed.known] at hget
      obtain ⟨before, hbefore, rfl⟩ := Option.map_eq_some_iff.mp hget
      cases hdocument : stored.documentOf announcement.did with
      | none => exact hstored.known did before hbefore
      | some document =>
        rw [documentOf, hbeside.knownAgents, hknown] at hdocument
        refine foldl_joinAttestation (hjoin document hdocument did) (fun attestation hin => ?_)
          (hstored.known did before hbefore)
        rw [waitingFor, List.mem_filter, Bool.and_eq_true] at hin
        exact ⟨hstored.pending did attestation hin.1, of_decide_eq_true hin.2.2⟩
    · refine hstored.pending did attestation ?_
      rw [hreplayed.pending] at hin
      split_ifs at hin with hreplay
      · rw [stillWaiting] at hin
        split_ifs at hin
        · exact (List.mem_filter.mp hin).1
        · cases hin
      · exact hin

theorem Held.arrive (hbounded : Bounded s) (h : Held K Q s)
    (hann : K announcement.did (s.sanitized W resolveDocument announcement).1)
    (hdeferred : ∀ attestation ∈ (s.sanitized W resolveDocument announcement).2, Q announcement.did attestation)
    (hjoin : ∀ document, announcement.didDocument = some document → ∀ did known attestation, K did known →
      Q did attestation → attestation.attesterDid = announcement.did →
      K did { known with capabilitySpecs := joinAttestation W document known.capabilitySpecs attestation })
    (hrun : s.upsertVerifiedInner W A fuel (s.sanitized W resolveDocument announcement).1
      (s.sanitized W resolveDocument announcement).2 = some t) : Held K Q t := by
  have hdid := sanitized_did W s resolveDocument announcement
  refine h.upsert hbounded ?_ ?_ ?_ hrun
  · rw [hdid]
    exact hann
  · rw [hdid]
    exact hdeferred
  · intro document hdocument
    rw [hdid]
    rw [sanitized_eq] at hdocument
    exact hjoin document hdocument

theorem held_new : Held K Q (new : AgentDiscovery P) where
  known did announcement hget := by
    rw [known_new] at hget
    cases hget
  pending did attestation hin := by
    rw [pendingOf_eq_nil (pending_new did)] at hin
    cases hin

/-! ### Runs -/

theorem receive_cases {channel : Channel} {outcome : Except String (AgentAnnouncement P)}
    (h : s.receive W A fuel resolveDocument bytes channel = some (outcome, t)) :
    t = s ∨ ∃ announcement, W.announcementFromSlice bytes = .ok announcement ∧
      verifyIncoming W A.freshness resolveDocument announcement = .ok () ∧
      s.upsertVerifiedInner W A fuel (s.sanitized W resolveDocument announcement).1
        (s.sanitized W resolveDocument announcement).2 = some t := by
  have hparsed : t = s ∨ ∃ announcement, W.announcementFromSlice bytes = .ok announcement ∧
      s.verifyAndUpsert W A fuel resolveDocument announcement = some (outcome, t) := by
    cases channel with
    | gossipsub => exact handleGossipsubMessage_cases h
    | kad => exact ingestKadRecordWithResolver_cases h
  rcases hparsed with hsame | ⟨announcement, hparsed, hrun⟩
  · exact .inl hsame
  · unfold verifyAndUpsert at hrun
    cases hverify : verifyIncoming W A.freshness resolveDocument announcement with
    | error e =>
      rw [hverify] at hrun
      exact .inl (Prod.mk.inj (Option.some.inj hrun)).2.symm
    | ok u =>
      rw [hverify] at hrun
      obtain ⟨t', hupsert, heq⟩ := Option.map_eq_some_iff.mp hrun
      obtain ⟨-, rfl⟩ := Prod.mk.inj heq
      exact .inr ⟨announcement, hparsed, hverify, hupsert⟩

end AgentDiscovery

open AgentDiscovery

/-- A condition on a message that is about to be stored: the state, the clocks, the resolver and the announcement. -/
abbrev Condition (P : Platform) := AgentDiscovery P → Ambient → Resolver → AgentAnnouncement P → Prop

/-- One message, and if it passes the checks it meets the condition. -/
def Receives (W : Wire P) (C : Condition P) (s t : AgentDiscovery P) : Prop :=
  ∃ (A : Ambient) (fuel : Nat) (resolveDocument : Resolver) (bytes : Bytes) (channel : Channel)
    (outcome : Except String (AgentAnnouncement P)),
    s.receive W A fuel resolveDocument bytes channel = some (outcome, t) ∧
      ∀ announcement, W.announcementFromSlice bytes = .ok announcement →
        verifyIncoming W A.freshness resolveDocument announcement = .ok () → C s A resolveDocument announcement

/-- The states to which messages lead that meet the condition when they are stored. -/
inductive Received (W : Wire P) (C : Condition P) : AgentDiscovery P → Prop
  | new : Received W C .new
  | message {s t : AgentDiscovery P} (before : Received W C s) (receives : Receives W C s t) : Received W C t

abbrev anyMessage : Condition P := fun _ _ _ _ => True

variable {C : Condition P} {s t : AgentDiscovery P}

theorem Receives.cases (h : Receives W C s t) : t = s ∨ ∃ (A : Ambient) (fuel : Nat) (resolveDocument : Resolver)
    (announcement : AgentAnnouncement P), C s A resolveDocument announcement ∧
      verifyIncoming W A.freshness resolveDocument announcement = .ok () ∧
      s.upsertVerifiedInner W A fuel (s.sanitized W resolveDocument announcement).1
        (s.sanitized W resolveDocument announcement).2 = some t := by
  obtain ⟨A, fuel, resolveDocument, bytes, channel, outcome, hrun, hcondition⟩ := h
  rcases receive_cases hrun with hsame | ⟨announcement, hparsed, hverify, hupsert⟩
  · exact .inl hsame
  · exact .inr ⟨A, fuel, resolveDocument, announcement, hcondition announcement hparsed hverify, hverify, hupsert⟩

theorem Receives.of_verified {announcement : AgentAnnouncement P} (hsize : bytes.length ≤ maxAnnouncementBytes)
    (hparsed : W.announcementFromSlice bytes = .ok announcement)
    (hverify : verifyIncoming W A.freshness resolveDocument announcement = .ok ())
    (hcondition : C s A resolveDocument announcement)
    (hupsert : s.upsertVerifiedInner W A fuel (s.sanitized W resolveDocument announcement).1
      (s.sanitized W resolveDocument announcement).2 = some t) : Receives W C s t := by
  refine ⟨A, fuel, resolveDocument, bytes, .gossipsub, .ok (s.sanitized W resolveDocument announcement).1, ?_,
    fun other hother _ => ?_⟩
  · unfold receive handleGossipsubMessage verifyAndUpsert
    rw [if_neg (Nat.not_lt.mpr hsize), hparsed]
    dsimp only
    rw [hverify]
    dsimp only
    rw [hupsert]
    rfl
  · obtain rfl := Except.ok.inj (hparsed.symm.trans hother)
    exact hcondition

theorem Received.bounded (h : Received W C s) : Bounded s := by
  induction h with
  | new => exact bounded_new
  | message before receives ih =>
    rcases receives.cases with rfl | ⟨A, fuel, resolveDocument, announcement, -, -, hupsert⟩
    · exact ih
    · exact (upsertVerifiedInner_stages ih hupsert).1

/-- **Induction over messages** for facts about all that is stored. -/
theorem Received.held
    (hstored : ∀ (s : AgentDiscovery P) (A : Ambient) (resolveDocument : Resolver) (announcement : AgentAnnouncement P),
      Held K Q s → C s A resolveDocument announcement →
      verifyIncoming W A.freshness resolveDocument announcement = .ok () →
      K announcement.did (s.sanitized W resolveDocument announcement).1 ∧
        (∀ attestation ∈ (s.sanitized W resolveDocument announcement).2, Q announcement.did attestation) ∧
        ∀ document, announcement.didDocument = some document → ∀ did known attestation, K did known →
          Q did attestation → attestation.attesterDid = announcement.did →
          K did { known with capabilitySpecs := joinAttestation W document known.capabilitySpecs attestation })
    (h : Received W C s) : Held K Q s := by
  induction h with
  | new => exact held_new
  | @message s t before receives ih =>
    rcases receives.cases with rfl | ⟨A, fuel, resolveDocument, announcement, hcondition, hverify, hupsert⟩
    · exact ih
    · obtain ⟨hann, hdeferred, hjoin⟩ := hstored s A resolveDocument announcement ih hcondition hverify
      exact ih.arrive before.bounded hann hdeferred hjoin hupsert

/-! ### Calls -/

/-- **Induction over calls** for facts about all that is stored. A call need not check what it is given to store. -/
theorem Reached.held (hstored : ∀ (s : AgentDiscovery P) (resolveDocument : Resolver) (announcement : AgentAnnouncement P),
      K announcement.did (s.sanitized W resolveDocument announcement).1 ∧
        (∀ attestation ∈ (s.sanitized W resolveDocument announcement).2, Q announcement.did attestation) ∧
        ∀ document, announcement.didDocument = some document → ∀ did known attestation, K did known →
          Q did attestation → attestation.attesterDid = announcement.did →
          K did { known with capabilitySpecs := joinAttestation W document known.capabilitySpecs attestation })
    (h : Reached W s) : Held K Q s := by
  induction h with
  | new => exact held_new
  | @call s t A G fuel call before hrun ih =>
    have hbounded := before.bounded.1
    have hverified {resolveDocument : Resolver} {announcement : AgentAnnouncement P}
        {outcome : Except String (AgentAnnouncement P)} {t : AgentDiscovery P}
        (hverify : s.verifyAndUpsert W A fuel resolveDocument announcement = some (outcome, t)) : Held K Q t := by
      unfold verifyAndUpsert at hverify
      split at hverify
      · obtain ⟨-, rfl⟩ := Prod.mk.inj (Option.some.inj hverify)
        exact ih
      · obtain ⟨t', hupsert, heq⟩ := Option.map_eq_some_iff.mp hverify
        obtain ⟨-, rfl⟩ := Prod.mk.inj heq
        obtain ⟨hann, hdeferred, hjoin⟩ := hstored s resolveDocument announcement
        exact ih.arrive hbounded hann hdeferred hjoin hupsert
    cases call with
    | handleGossipsubMessage resolveDocument data =>
      obtain ⟨⟨outcome, t'⟩, hresult, rfl⟩ := Option.map_eq_some_iff.mp hrun
      rcases handleGossipsubMessage_cases hresult with hsame | ⟨announcement, -, hverify⟩
      · rw [hsame]
        exact ih
      · exact hverified hverify
    | ingestKadRecord value =>
      obtain ⟨outcome, hresult, rfl⟩ := Option.map_eq_some_iff.mp hrun
      obtain ⟨⟨inner, t'⟩, hinner, rfl⟩ := Option.map_eq_some_iff.mp hresult
      rcases ingestKadRecordWithResolver_cases hinner with hsame | ⟨announcement, -, hverify⟩
      · dsimp only at hsame ⊢
        rw [hsame]
        exact ih
      · exact hverified hverify
    | upsertTrustedAnnouncement announcement =>
      unfold Call.apply AgentDiscovery.upsertTrustedAnnouncement at hrun
      dsimp only at hrun
      split at hrun
      · cases hrun
        exact ih
      · obtain ⟨hann, hdeferred, hjoin⟩ := hstored s (fun _ => none) announcement
        exact ih.arrive hbounded hann hdeferred hjoin hrun
    | pruneExpired =>
      cases hrun
      exact ih.of_shrinks (pruneExpired_shrinks A hbounded.toCore hbounded.room)
    | subscribe topic =>
      cases hrun
      exact ih.of_sameAgents (subscribe_sameAgents G s topic)
    | unsubscribe topic =>
      cases hrun
      exact ih.of_sameAgents (unsubscribe_sameAgents G s topic)
    | queryCapabilities query now attestationMaxAgeSecs =>
      cases hrun
      exact ih.of_sameAgents (queryCapabilities_sameAgents A G s query now attestationMaxAgeSecs)

theorem receive_state (A : Ambient) (fuel : Nat) (s : AgentDiscovery P) (resolveDocument : Resolver) (bytes : Bytes)
    (channel : Channel) : (s.receive W A fuel resolveDocument bytes channel).map Prod.snd =
      (s.handleGossipsubMessage W A fuel resolveDocument bytes).map Prod.snd := by
  cases channel with
  | gossipsub => rfl
  | kad =>
    change (s.ingestKadRecordWithResolver W A fuel resolveDocument bytes).map Prod.snd = _
    unfold ingestKadRecordWithResolver handleGossipsubMessage
    split_ifs
    · rfl
    · cases W.announcementFromSlice bytes with
      | error e => rfl
      | ok announcement => rfl

theorem Reached.receive {channel : Channel} {outcome : Except String (AgentAnnouncement P)} (h : Reached W s)
    (hrun : s.receive W A fuel resolveDocument bytes channel = some (outcome, t)) : Reached W t := by
  refine .call A ⟨fun _ => .ok (), fun _ => .ok ()⟩ fuel (.handleGossipsubMessage resolveDocument bytes) h ?_
  change (s.handleGossipsubMessage W A fuel resolveDocument bytes).map Prod.snd = some t
  rw [← receive_state A fuel s resolveDocument bytes channel, hrun]
  rfl

theorem Received.reached (h : Received W C s) : Reached W s := by
  induction h with
  | new => exact .new
  | @message s t before receives ih =>
    obtain ⟨A, fuel, resolveDocument, bytes, channel, outcome, hrun, -⟩ := receives
    exact ih.receive hrun

end AgentHalo.Discovery
