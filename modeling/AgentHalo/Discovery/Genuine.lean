import AgentHalo.Discovery.Signing
import AgentHalo.Pod.Authenticity

/-!
# What is stored is genuine

The key that checks a signature comes from a document: from the announcement itself, from the stored announcement of the
attester, or from the resolver. The first is compared with its identifier before it is stored
(`verifyDidDocumentBinding`), so the second is bound as long as everything stored is; the third is an assumption on the
resolver (`Honest`). `madeBy` records which signatures were made behind which Ed25519 key (`OnlyMade`).
-/

namespace AgentHalo.Discovery

open Pod (DIDDocument DidCodec dualVerify decodeDocument_of_decodeMultibaseKey dualVerify_ok_true)
open Outcome
open AgentDiscovery

variable {P : Platform} {W : Wire P} {madeBy : Vector UInt8 32 → Bytes → Vector UInt8 64 → Prop} {s : AgentDiscovery P}
  {did : String} {document : DIDDocument} {announcement : AgentAnnouncement P} {attestation : CapabilityAttestation}
  {resolveDocument : Resolver}

/-- Unforgeability: what verifies under a key was made with its secret. -/
def OnlyMade (C : DidCodec P) (madeBy : Vector UInt8 32 → Bytes → Vector UInt8 64 → Prop) : Prop :=
  ∀ key vk message signature, C.ed25519KeyFromBytes key = .ok vk → P.ed25519.verify vk message signature = true →
    madeBy key message signature

/-- The signature over the message was made with the secret behind the key that the identifier encodes. -/
def SignedBy (W : Wire P) (madeBy : Vector UInt8 32 → Bytes → Vector UInt8 64 → Prop) (did : String)
    (message edSig : Bytes) : Prop :=
  ∃ key signature, decodeDidKeyEd25519Public W did = .ok key ∧
    W.did.ed25519SignatureFromSlice edSig = .ok signature ∧ madeBy key message signature

/-- The attestation is signed by its attester, about the given agent and capability. -/
structure GenuineAttestation (W : Wire P) (madeBy : Vector UInt8 32 → Bytes → Vector UInt8 64 → Prop)
    (did capabilityId : String) (attestation : CapabilityAttestation) : Prop where
  signed : ∃ message, attestationPayloadBytes W attestation.payload = .ok message ∧
    SignedBy W madeBy attestation.attesterDid message attestation.ed25519Signature
  subject : attestation.subjectDid = did
  capability : attestation.capabilityId = capabilityId
  passed : attestation.passed = true
  not_self : attestation.attesterDid ≠ attestation.subjectDid

/-- The fields are those of the original, apart from the clamped time to live, the sanitized metrics and the lists of
attestations. -/
structure FieldsOf (original stored : AgentAnnouncement P) : Prop where
  announcement : stored = { clampTtl original with capabilitySpecs := stored.capabilitySpecs }
  specs : List.Forall₂ (fun spec storedSpec : CapabilitySpec P => storedSpec =
    { spec with metrics := spec.metrics.sanitize, attestations := storedSpec.attestations })
    original.capabilitySpecs stored.capabilitySpecs

/-- The announcement is, in the fields that are kept, one that its agent signed, and so are the attestations in it. -/
structure Genuine (W : Wire P) (madeBy : Vector UInt8 32 → Bytes → Vector UInt8 64 → Prop) (did : String)
    (stored : AgentAnnouncement P) : Prop where
  signed : ∃ original message edSig, FieldsOf original stored ∧ original.did = did ∧
    payloadBytes W original = .ok message ∧ original.ed25519Signature = some edSig ∧ SignedBy W madeBy did message edSig
  attestations : ∀ spec ∈ stored.capabilitySpecs, ∀ attestation ∈ spec.attestations,
    GenuineAttestation W madeBy did spec.capabilityId attestation

/-! ### Signatures and documents -/

theorem signedBy_of_dualVerify (hmade : OnlyMade W.did madeBy) (hbinds : Binds W did document)
    {message edSig pqSig : Bytes} (hverify : dualVerify W.did document message edSig pqSig = .ok true) :
    SignedBy W madeBy did message edSig := by
  obtain ⟨key, hkey, hdocument⟩ := hbinds
  obtain ⟨method, raw, key', vk, signature, hmethod, hraw, hkey', hvk, hsignature, hok⟩ := dualVerify_ok_true hverify
  have hsame := decodeDocument_of_decodeMultibaseKey hmethod hraw hkey'
  obtain rfl := Except.ok.inj (hdocument.symm.trans hsame)
  exact ⟨key, signature, hkey, hsignature, hmade key vk message signature hvk hok⟩

theorem verifyAnnouncement_ok_true (h : verifyAnnouncement W announcement document = .ok true) :
    ∃ message edSig pqSig, payloadBytes W announcement = .ok message ∧ announcement.ed25519Signature = some edSig ∧
      dualVerify W.did document message edSig pqSig = .ok true := by
  unfold verifyAnnouncement at h
  simp only [bind, bind_eq_ok, okOr_eq_ok] at h
  obtain ⟨message, hmessage, edSig, hed, pqSig, -, hverify⟩ := h
  exact ⟨message, edSig, pqSig, hmessage, hed, hverify⟩

theorem attested_eq_true (h : attested W attestation document = true) :
    ∃ message, attestationPayloadBytes W attestation.payload = .ok message ∧
      dualVerify W.did document message attestation.ed25519Signature attestation.mldsa65Signature = .ok true := by
  unfold attested at h
  cases hverify : verifyCapabilityAttestation W attestation document with
  | error e =>
    rw [hverify] at h
    cases h
  | ok verified =>
    rw [hverify] at h
    obtain rfl : verified = true := h
    unfold verifyCapabilityAttestation at hverify
    simp only [bind, bind_eq_ok] at hverify
    exact hverify

theorem verifyIncoming_ok {now : UInt64} (h : verifyIncoming W now resolveDocument announcement = .ok ()) :
    ∃ document message edSig pqSig, announcement.didDocument.or (resolveDocument announcement.did) = some document ∧
      Binds W announcement.did document ∧ payloadBytes W announcement = .ok message ∧
      announcement.ed25519Signature = some edSig ∧ dualVerify W.did document message edSig pqSig = .ok true := by
  unfold verifyIncoming at h
  simp only [bind, bind_eq_ok, okOr_eq_ok, require_eq_ok, exists_const] at h
  obtain ⟨_, -, _, -, document, hdocument, _, hbinding, verified, hverify, hverified, -⟩ := h
  obtain rfl : verified = true := hverified
  obtain ⟨message, edSig, pqSig, hmessage, hed, hdual⟩ := verifyAnnouncement_ok_true hverify
  exact ⟨document, message, edSig, pqSig, hdocument, (verifyDidDocumentBinding_ok_iff.mp hbinding).2, hmessage, hed, hdual⟩

/-! ### What the messages keep -/

/-- A genuine announcement whose document, if it has one, is bound to the DID it is stored under. -/
structure Vouched (W : Wire P) (madeBy : Vector UInt8 32 → Bytes → Vector UInt8 64 → Prop) (did : String)
    (stored : AgentAnnouncement P) : Prop extends Genuine W madeBy did stored where
  bound : ∀ document, stored.didDocument = some document → Binds W did document

/-- A pending attestation is about the agent it waits under, and not by it. -/
structure Plausible (did : String) (attestation : CapabilityAttestation) : Prop where
  subject : attestation.subjectDid = did
  passed : attestation.passed = true
  not_self : attestation.attesterDid ≠ attestation.subjectDid

variable {capabilityId : String} {R : CapabilitySpec P → CapabilitySpec P → Prop} {specs : List (CapabilitySpec P)}

theorem genuineAttestation_of_attested (hmade : OnlyMade W.did madeBy) (hbinds : Binds W attestation.attesterDid document)
    (hattested : attested W attestation document = true) (hlikely : Plausible did attestation)
    (hcapability : attestation.capabilityId = capabilityId) :
    GenuineAttestation W madeBy did capabilityId attestation := by
  obtain ⟨message, hmessage, hverify⟩ := attested_eq_true hattested
  exact ⟨⟨message, hmessage, signedBy_of_dualVerify hmade hbinds hverify⟩, hlikely.subject, hcapability,
    hlikely.passed, hlikely.not_self⟩

theorem Plausible.of_eligible (h : eligible did capabilityId attestation = true) :
    Plausible did attestation ∧ attestation.capabilityId = capabilityId := by
  obtain ⟨hpassed, hcapability, -, hself, -, -, hsubject⟩ := eligible_iff.mp h
  exact ⟨⟨hsubject, hpassed, hself⟩, hcapability⟩

theorem FieldsOf.sanitized (W : Wire P) (s : AgentDiscovery P) (resolveDocument : Resolver)
    (announcement : AgentAnnouncement P) : FieldsOf announcement (s.sanitized W resolveDocument announcement).1 := by
  rw [sanitized_eq]
  refine ⟨rfl, ?_⟩
  rw [List.forall₂_map_right_iff, List.forall₂_same]
  exact fun spec _ => rfl

theorem forall₂_replaceF {f : CapabilitySpec P → Option (CapabilitySpec P)}
    (hf : ∀ spec stored joined, R spec stored → f stored = some joined → R spec joined) {stored : List (CapabilitySpec P)}
    (h : List.Forall₂ R specs stored) : List.Forall₂ R specs (stored.replaceF f) := by
  induction h with
  | nil => exact .nil
  | @cons spec first specs rest hfirst hrest ih =>
    rw [List.replaceF]
    cases hreplaced : f first with
    | none => exact .cons hfirst ih
    | some joined => exact .cons (hf spec first joined hfirst hreplaced) hrest

theorem forall₂_joinAttestation (hR : ∀ spec stored attestations, R spec stored → R spec { stored with attestations })
    (W : Wire P) (document : DIDDocument) (attestation : CapabilityAttestation) {stored : List (CapabilitySpec P)}
    (h : List.Forall₂ R specs stored) : List.Forall₂ R specs (joinAttestation W document stored attestation) := by
  unfold joinAttestation
  split_ifs
  · refine forall₂_replaceF (fun spec before joined hbefore hjoined => ?_) h
    split_ifs at hjoined
    obtain rfl := Option.some.inj hjoined
    rcases joinSpec_cases attestation before with hsame | ⟨hadded, -⟩
    · rwa [hsame]
    · rw [hadded]
      exact hR spec before _ hbefore
  · exact h

theorem FieldsOf.join {original stored : AgentAnnouncement P} (h : FieldsOf original stored) (W : Wire P)
    (document : DIDDocument) (attestation : CapabilityAttestation) : FieldsOf original
      { stored with capabilitySpecs := joinAttestation W document stored.capabilitySpecs attestation } where
  announcement := by rw [h.announcement]
  specs := forall₂_joinAttestation (fun spec before _ hbefore => by rw [hbefore]) W document attestation h.specs

theorem Vouched.join (hmade : OnlyMade W.did madeBy) {known : AgentAnnouncement P} (h : Vouched W madeBy did known)
    (hbinds : Binds W attestation.attesterDid document) (hlikely : Plausible did attestation) :
    Vouched W madeBy did
      { known with capabilitySpecs := joinAttestation W document known.capabilitySpecs attestation } := by
  obtain ⟨original, message, edSig, hfields, hsigned⟩ := h.signed
  refine ⟨⟨⟨original, message, edSig, hfields.join W document attestation, hsigned⟩, fun spec hspec other hother => ?_⟩,
    h.bound⟩
  rcases mem_joinAttestation hspec with hin | ⟨before, hin, hattested, hid, rfl⟩
  · exact h.attestations spec hin other hother
  · rcases joinSpec_cases attestation before with hsame | ⟨hadded, -⟩
    · rw [hsame] at hother ⊢
      exact h.attestations before hin other hother
    · rw [hadded] at hother ⊢
      rcases List.mem_append.mp hother with hold | hnew
      · exact h.attestations before hin other hold
      · rw [List.mem_singleton] at hnew
        subst hnew
        exact genuineAttestation_of_attested hmade hbinds hattested hlikely hid.symm

/-- The resolver is honest whenever a message is accepted. -/
def honestResolver (W : Wire P) : Condition P := fun _ _ resolveDocument _ => Honest W resolveDocument

theorem Received.vouched (hmade : OnlyMade W.did madeBy) (h : Received W (honestResolver W) s) :
    Held (Vouched W madeBy) Plausible s := by
  refine h.held fun s A resolveDocument announcement hheld hhonest hverify => ?_
  obtain ⟨document, message, edSig, pqSig, hdocument, hbinds, hmessage, hed, hdual⟩ := verifyIncoming_ok hverify
  have hbound : ∀ document', announcement.didDocument = some document' → Binds W announcement.did document' := by
    intro document' hdocument'
    rw [hdocument', Option.some_or, Option.some.injEq] at hdocument
    rwa [hdocument]
  -- A document at hand for an attester is bound to it, whether it was stored or resolved.
  have hattester : ∀ other document', s.attesterDocument resolveDocument other = some document' →
      Binds W other document' := by
    intro other document' hother
    unfold attesterDocument at hother
    rcases Option.or_eq_some_iff.mp hother with hstored | ⟨-, hresolved⟩
    · obtain ⟨known, hknown, hin⟩ := Option.bind_eq_some_iff.mp hstored
      exact (hheld.known other known hknown).bound document' hin
    · exact hhonest other document' hresolved
  have hsigned := signedBy_of_dualVerify hmade hbinds hdual
  refine ⟨⟨⟨⟨announcement, message, edSig, .sanitized W s resolveDocument announcement, rfl, hmessage, hed, hsigned⟩,
    fun spec hspec attestation hin => ?_⟩, fun document' hdocument' => ?_⟩, fun attestation hin => ?_,
    fun document' hdocument' did known attestation hknown hlikely hby => ?_⟩
  · rw [sanitized_eq] at hspec
    obtain ⟨original, -, rfl⟩ := List.mem_map.mp hspec
    obtain ⟨-, heligible, document', hother, hattested⟩ := mem_kept.mp hin
    obtain ⟨hlikely, hcapability⟩ := Plausible.of_eligible heligible
    exact genuineAttestation_of_attested hmade (hattester _ document' hother) hattested hlikely hcapability
  · rw [sanitized_eq] at hdocument'
    exact hbound document' hdocument'
  · rw [sanitized_eq] at hin
    obtain ⟨spec, -, hundecided⟩ := List.mem_flatMap.mp hin
    exact (Plausible.of_eligible (mem_undecided.mp hundecided).2.1).1
  · refine hknown.join hmade ?_ hlikely
    rw [hby]
    exact hbound document' hdocument'

/-- **Only what is genuine is stored**, as long as the resolver answers with documents of the DID it is asked for. -/
theorem received_genuine (hmade : OnlyMade W.did madeBy) (h : Received W (honestResolver W) s)
    (hget : s.knownAgents[did]? = some announcement) : Genuine W madeBy did announcement :=
  ((h.vouched hmade).known did announcement hget).toGenuine

/-- One agent, attested by another, after its first message. -/
theorem sample_genuine : ∃ (W : Wire .reference) (s : AgentDiscovery .reference)
    (announcement : AgentAnnouncement .reference), Received W (honestResolver W) s ∧
      s.knownAgents[Sample.did 1]? = some announcement ∧
      announcement.capabilitySpecs.map (·.attestations) = [[Sample.attestation 2 1 "capability" "challenge" 900]] ∧
      Genuine W Pod.referenceMadeBy (Sample.did 1) announcement := by
  let W := Wire.reference [Sample.signed 1 (Sample.attestedDraft 1 2 1 "peer" "capability")]
  obtain ⟨s, stored, hreceives, hget, hspecs⟩ := Sample.exists_attested (C := honestResolver W) 1 (by decide)
    (by decide : (2 : UInt8) ≠ 1) "capability" (by decide) (Sample.resolver_honest [1, 2] _)
  have hreceived := Received.message .new hreceives
  refine ⟨W, s, stored, hreceived, hget, ?_, received_genuine Pod.referenceMadeBy_unforgeable.made hreceived hget⟩
  rw [hspecs]
  rfl

end AgentHalo.Discovery
