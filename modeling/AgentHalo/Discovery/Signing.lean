import AgentHalo.Discovery.Network

/-!
# What an agent signs is accepted

An identity signs its own announcements and its statements about others. Its announcement passes every check on arrival
while it is in date, from the document inside it or from a resolved one (`verifyIncoming_signAnnouncement`), and its
attestations verify under its document (`attested_attestCapability`).

`Sample` are agents on the reference platform, with messages that are signed and short enough.
-/

namespace AgentHalo.Discovery

open Pod (DIDDocument DIDIdentity DidCodec MlDsa65Correct dualSign dualVerify decodeDocumentEd25519Public)
open Outcome Text
open AgentDiscovery

variable {P : Platform}

/-! ### Documents -/

/-- The first Ed25519 key of the document is the one that the identifier encodes. -/
def Binds (W : Wire P) (did : String) (document : DIDDocument) : Prop :=
  ∃ key, decodeDidKeyEd25519Public W did = .ok key ∧ decodeDocumentEd25519Public W.did document = .ok key

/-- The resolver answers with documents of the DID it is asked for. -/
def Honest (W : Wire P) (resolveDocument : Resolver) : Prop :=
  ∀ did document, resolveDocument did = some document → Binds W did document

variable {announcement : AgentAnnouncement P}

theorem verifyDidDocumentBinding_ok_iff {W : Wire P} {document : DIDDocument} :
    verifyDidDocumentBinding W announcement document = .ok () ↔
      document.id = announcement.did ∧ Binds W announcement.did document := by
  unfold verifyDidDocumentBinding Binds
  simp only [bind, bind_eq_ok, require_eq_ok, exists_const]
  constructor
  · rintro ⟨hid, key, hkey, key', hdocument, hsame⟩
    obtain rfl := of_decide_eq_true hsame
    exact ⟨of_decide_eq_true hid, key, hkey, hdocument⟩
  · rintro ⟨hid, key, hkey, hdocument⟩
    exact ⟨decide_eq_true hid, key, hkey, key, hdocument, decide_eq_true rfl⟩

/-! ### Signing -/

section Signing

variable (W : Wire P) (identity : DIDIdentity P)

def signAnnouncement (announcement : AgentAnnouncement P) : Except String (AgentAnnouncement P) := do
  let payload ← payloadBytes W announcement
  let (edSig, pqSig) ← okOr "ML-DSA signing failed" (dualSign identity payload)
  return { announcement with ed25519Signature := some edSig, mldsa65Signature := some pqSig }

def attestCapability (subjectDid capabilityId challengeHash : String) (passed : Bool) (verifiedAt : UInt64) :
    Except String CapabilityAttestation := do
  require (identity.did ≠ subjectDid) "self-attestation is not allowed"
  let payload ← attestationPayloadBytes W
    { attesterDid := identity.did, subjectDid, capabilityId, challengeHash, passed, verifiedAt }
  let (ed25519Signature, mldsa65Signature) ← okOr "ML-DSA signing failed" (dualSign identity payload)
  return { attesterDid := identity.did, subjectDid, capabilityId, challengeHash, passed, verifiedAt, ed25519Signature,
           mldsa65Signature }

variable {W identity}

variable {signed : AgentAnnouncement P} {subjectDid capabilityId challengeHash : String} {passed : Bool} {verifiedAt : UInt64}
  {attestation : CapabilityAttestation}

theorem signAnnouncement_ok (h : signAnnouncement W identity announcement = .ok signed) :
    ∃ message edSig pqSig, payloadBytes W announcement = .ok message ∧ dualSign identity message = some (edSig, pqSig) ∧
      signed = { announcement with ed25519Signature := some edSig, mldsa65Signature := some pqSig } := by
  unfold signAnnouncement at h
  simp only [bind, bind_eq_ok, okOr_eq_ok, pure, Except.pure, Except.ok.injEq] at h
  obtain ⟨message, hmessage, ⟨edSig, pqSig⟩, hsign, rfl⟩ := h
  exact ⟨message, edSig, pqSig, hmessage, hsign, rfl⟩

theorem attestCapability_ok
    (h : attestCapability W identity subjectDid capabilityId challengeHash passed verifiedAt = .ok attestation) :
    ∃ message edSig pqSig, identity.did ≠ subjectDid ∧ attestationPayloadBytes W attestation.payload = .ok message ∧
      dualSign identity message = some (edSig, pqSig) ∧ attestation =
        { attesterDid := identity.did, subjectDid, capabilityId, challengeHash, passed, verifiedAt,
          ed25519Signature := edSig, mldsa65Signature := pqSig } := by
  unfold attestCapability at h
  simp only [bind, bind_eq_ok, require_eq_ok, exists_const, okOr_eq_ok, pure, Except.pure, Except.ok.injEq] at h
  obtain ⟨hself, message, hmessage, ⟨edSig, pqSig⟩, hsign, rfl⟩ := h
  exact ⟨message, edSig, pqSig, of_decide_eq_true hself, hmessage, hsign, rfl⟩

variable (hC : W.did.Lawful) (hE : P.ed25519.Correct) (hM : MlDsa65Correct P.mldsa65)
include hC

theorem binds_of_wellFormed (hidentity : identity.WellFormed W.did) : Binds W identity.did identity.didDocument := by
  refine ⟨identity.ed25519PublicKey W.did, ?_, hidentity.document.decodeDocument hC⟩
  rw [hidentity.did, decodeDidKeyEd25519Public, Pod.didFromEd25519PublicKey, stripPrefix_append, Pod.encodeMultibaseKey]
  simp only [okOr, bind, Except.bind, hC.multibase, Except.mapError, Pod.ed25519PublicOf_multicodec]

include hE hM

theorem dualVerify_of_dualSign (hidentity : identity.WellFormed W.did) {message edSig pqSig : Bytes}
    (hsign : dualSign identity message = some (edSig, pqSig)) :
    dualVerify W.did identity.didDocument message edSig pqSig = .ok true :=
  hidentity.document.dualVerify_dualSign hC hE hM hsign

theorem verifyIncoming_signAnnouncement (hidentity : identity.WellFormed W.did) {now : UInt64} {resolveDocument : Resolver}
    (hdid : announcement.did = identity.did)
    (hdocument : announcement.didDocument.or (resolveDocument announcement.did) = some identity.didDocument)
    (hshape : validateAnnouncementShape announcement = .ok ())
    (hfresh : validateAnnouncementFreshness now announcement = .ok ())
    (hmember : announcement.anonymousMembershipProof = none) (hsign : signAnnouncement W identity announcement = .ok signed) :
    verifyIncoming W now resolveDocument signed = .ok () := by
  obtain ⟨message, edSig, pqSig, hmessage, hdual, rfl⟩ := signAnnouncement_ok hsign
  have hbinding : verifyDidDocumentBinding W announcement identity.didDocument = .ok () := by
    refine verifyDidDocumentBinding_ok_iff.mpr ⟨hidentity.document.id.trans hdid.symm, ?_⟩
    rw [hdid]
    exact binds_of_wellFormed hC hidentity
  have hverify : verifyAnnouncement W
      { announcement with ed25519Signature := some edSig, mldsa65Signature := some pqSig } identity.didDocument =
      .ok true := by
    unfold verifyAnnouncement
    change payloadBytes W { announcement with ed25519Signature := some edSig, mldsa65Signature := some pqSig } = _
      at hmessage
    rw [hmessage]
    exact dualVerify_of_dualSign hC hE hM hidentity hdual
  have hoptional : verifyOptionalAnonymousMembership W
      { announcement with ed25519Signature := some edSig, mldsa65Signature := some pqSig } = .ok () := by
    unfold verifyOptionalAnonymousMembership
    dsimp only
    rw [hmember]
  unfold verifyIncoming
  change validateAnnouncementShape { announcement with ed25519Signature := some edSig, mldsa65Signature := some pqSig } =
    _ at hshape
  change validateAnnouncementFreshness now
    { announcement with ed25519Signature := some edSig, mldsa65Signature := some pqSig } = _ at hfresh
  change verifyDidDocumentBinding W
    { announcement with ed25519Signature := some edSig, mldsa65Signature := some pqSig } identity.didDocument = _
    at hbinding
  rw [hshape, hfresh]
  simp only [hdocument, okOr, bind, Except.bind, hbinding, hverify, require, if_true, hoptional]

theorem attested_attestCapability (hidentity : identity.WellFormed W.did)
    (h : attestCapability W identity subjectDid capabilityId challengeHash passed verifiedAt = .ok attestation) :
    attested W attestation identity.didDocument = true := by
  obtain ⟨message, edSig, pqSig, -, hmessage, hdual, rfl⟩ := attestCapability_ok h
  unfold attested verifyCapabilityAttestation
  rw [hmessage]
  simp only [bind, Except.bind, dualVerify_of_dualSign hC hE hM hidentity hdual, Except.toOption, Option.getD_some]

end Signing

theorem isExpired_eq_false {now : UInt64} (h : now ≤ announcement.timestamp) : isExpired now announcement = false := by
  have hword := now.toNat_lt
  have hle := UInt64.le_iff_toNat_le.mp h
  refine decide_eq_false ?_
  unfold u64Max
  omega

/-! ### Agents to compute with -/

namespace Sample

open Pod (referenceIdentity referenceIdentity_ownDocument reference_mldsa65_correct)

def key (n : UInt8) : Vector UInt8 32 := Vector.replicate 32 n

def identity (n : UInt8) : DIDIdentity .reference :=
  referenceIdentity (Pod.didFromEd25519PublicKey .reference (key n)) (key n)

def did (n : UInt8) : String := (identity n).did

theorem identity_wellFormed (n : UInt8) : (identity n).WellFormed .reference := ⟨rfl, referenceIdentity_ownDocument _ _⟩

variable {n : UInt8}

theorem did_inj {m : UInt8} (h : did m = did n) : m = n := by
  have hkeys : (Except.ok (key m) : Except String (Vector UInt8 32)) = .ok (key n) := by
    rw [← Pod.decodeDidKey_did DidCodec.reference_lawful (key m), ← Pod.decodeDidKey_did DidCodec.reference_lawful (key n)]
    exact congrArg (Pod.decodeDidKeyEd25519Public DidCodec.reference) h
  have hfirst : (key m)[0] = (key n)[0] := congrArg (fun v : Vector UInt8 32 => v[0]) (Except.ok.inj hkeys)
  simpa [key] using hfirst

def resolver (numbers : List UInt8) : Resolver := fun other =>
  (numbers.find? fun n => did n = other).map fun n => (identity n).didDocument

theorem resolver_honest (numbers : List UInt8) (announcements : List (AgentAnnouncement .reference)) :
    Honest (Wire.reference announcements) (resolver numbers) := by
  intro other document h
  obtain ⟨n, hn, rfl⟩ := Option.map_eq_some_iff.mp h
  have hfound := List.find?_some hn
  obtain rfl := of_decide_eq_true hfound
  exact binds_of_wellFormed DidCodec.reference_lawful (identity_wellFormed n)

variable {numbers : List UInt8}

theorem resolver_get (h : n ∈ numbers) : resolver numbers (did n) = some (identity n).didDocument := by
  have hsome : (numbers.find? fun m => did m = did n).isSome = true :=
    List.find?_isSome.mpr ⟨n, h, decide_eq_true rfl⟩
  obtain ⟨m, hm⟩ := Option.isSome_iff_exists.mp hsome
  have hfound := List.find?_some hm
  obtain rfl := did_inj (of_decide_eq_true hfound)
  unfold resolver
  rw [hm]
  rfl

def draft (n : UInt8) (peerId : String) (timestamp : UInt64) (specs : List (CapabilitySpec .reference)) :
    AgentAnnouncement .reference where
  peerId := peerId
  did := did n
  name := ""
  description := ""
  capabilities := []
  capabilitySpecs := specs
  multiaddrs := []
  protocols := []
  version := "1"
  timestamp := timestamp
  ttl := 300
  didDocument := none
  evmAddress := none
  bindingProofHash := none
  anonymousMembershipProof := none
  ed25519Signature := none
  mldsa65Signature := none

theorem exists_dualSign (n : UInt8) (message : Bytes) : ∃ edSig pqSig,
    dualSign (identity n) message = some (edSig, pqSig) ∧ edSig.length = 64 ∧ pqSig.length = 3309 := by
  have hcontext : Pod.mldsa65Context.length ≤ 255 := by decide
  refine ⟨(Reference.digest 64 (message ++ (key n).toList)).toList,
    (Reference.digest 3309 (Pod.mldsa65Context ++ message ++ (key n).toList)).toList, ?_, by simp, by simp⟩
  unfold dualSign
  simp only [Platform.reference, Reference.mldsa65, if_pos hcontext]
  rfl

def signed (n : UInt8) (draft : AgentAnnouncement .reference) : AgentAnnouncement .reference :=
  ((signAnnouncement (Wire.reference []) (identity n) draft).toOption).getD draft

theorem signAnnouncement_signed (announcements : List (AgentAnnouncement .reference)) (n : UInt8)
    (draft : AgentAnnouncement .reference) :
    signAnnouncement (Wire.reference announcements) (identity n) draft = .ok (signed n draft) ∧
      ∃ edSig pqSig, edSig.length = 64 ∧ pqSig.length = 3309 ∧
        signed n draft = { draft with ed25519Signature := some edSig, mldsa65Signature := some pqSig } := by
  obtain ⟨edSig, pqSig, hsign, hed, hpq⟩ := exists_dualSign n (utf8 (Json.payload draft.toAgentAnnouncementPayload))
  have hresult (announcements : List (AgentAnnouncement .reference)) :
      signAnnouncement (Wire.reference announcements) (identity n) draft =
        .ok { draft with ed25519Signature := some edSig, mldsa65Signature := some pqSig } := by
    unfold signAnnouncement payloadBytes
    simp only [Wire.reference, Except.mapError, bind, Except.bind, hsign, okOr, pure, Except.pure]
  have hsigned : signed n draft = { draft with ed25519Signature := some edSig, mldsa65Signature := some pqSig } := by
    unfold signed
    rw [hresult]
    rfl
  rw [hsigned]
  exact ⟨hresult announcements, edSig, pqSig, hed, hpq, rfl⟩

variable {timestamp : UInt64} {specs : List (CapabilitySpec .reference)}

theorem verifyIncoming_signed (announcements : List (AgentAnnouncement .reference)) (hn : n ∈ numbers)
    (peerId : String) {now : UInt64}
    (hshape : validateAnnouncementShape (draft n peerId timestamp specs) = .ok ())
    (hfresh : validateAnnouncementFreshness now (draft n peerId timestamp specs) = .ok ()) :
    verifyIncoming (Wire.reference announcements) now (resolver numbers) (signed n (draft n peerId timestamp specs)) =
      .ok () := by
  obtain ⟨hsign, -⟩ := signAnnouncement_signed announcements n (draft n peerId timestamp specs)
  refine verifyIncoming_signAnnouncement DidCodec.reference_lawful Reference.ed25519_correct reference_mldsa65_correct
    (identity_wellFormed n) rfl ?_ hshape hfresh rfl hsign
  exact resolver_get hn

def attestation (attester subject : UInt8) (capabilityId challengeHash : String) (verifiedAt : UInt64) :
    CapabilityAttestation :=
  let message := utf8 (Json.object (Json.attestationPayload
    { attesterDid := did attester, subjectDid := did subject, capabilityId, challengeHash, passed := true, verifiedAt }))
  let signatures := (dualSign (identity attester) message).getD ([], [])
  { attesterDid := did attester, subjectDid := did subject, capabilityId, challengeHash, passed := true, verifiedAt,
    ed25519Signature := signatures.1, mldsa65Signature := signatures.2 }

section Attestations

variable {attester subject : UInt8} (capabilityId challengeHash : String) (verifiedAt : UInt64)

theorem attestCapability_attestation (announcements : List (AgentAnnouncement .reference))
    (hne : attester ≠ subject) :
    attestCapability (Wire.reference announcements) (identity attester) (did subject) capabilityId challengeHash true
        verifiedAt = .ok (attestation attester subject capabilityId challengeHash verifiedAt) ∧
      ∃ edSig pqSig, edSig.length = 64 ∧ pqSig.length = 3309 ∧
        attestation attester subject capabilityId challengeHash verifiedAt =
          { attesterDid := did attester, subjectDid := did subject, capabilityId, challengeHash, passed := true,
            verifiedAt, ed25519Signature := edSig, mldsa65Signature := pqSig } := by
  obtain ⟨edSig, pqSig, hsign, hed, hpq⟩ := exists_dualSign attester (utf8 (Json.object (Json.attestationPayload
    { attesterDid := did attester, subjectDid := did subject, capabilityId, challengeHash, passed := true, verifiedAt })))
  have hself : (identity attester).did ≠ did subject := fun h => hne (did_inj h)
  have hresult : attestation attester subject capabilityId challengeHash verifiedAt =
      { attesterDid := did attester, subjectDid := did subject, capabilityId, challengeHash, passed := true,
        verifiedAt, ed25519Signature := edSig, mldsa65Signature := pqSig } := by
    unfold attestation
    dsimp only
    rw [hsign]
    rfl
  refine ⟨?_, edSig, pqSig, hed, hpq, hresult⟩
  rw [hresult]
  have hpayload : attestationPayloadBytes (Wire.reference announcements)
      { attesterDid := (identity attester).did, subjectDid := did subject, capabilityId, challengeHash, passed := true,
        verifiedAt } = .ok (utf8 (Json.object (Json.attestationPayload
      { attesterDid := did attester, subjectDid := did subject, capabilityId, challengeHash, passed := true,
        verifiedAt }))) := rfl
  unfold attestCapability
  rw [hpayload]
  simp only [require, hself, ne_eq, not_false_eq_true, decide_true, if_true, bind, Except.bind, hsign, okOr, pure,
    Except.pure]
  rfl

theorem attested_attestation (announcements : List (AgentAnnouncement .reference)) (hne : attester ≠ subject) :
    attested (Wire.reference announcements) (attestation attester subject capabilityId challengeHash verifiedAt)
      (identity attester).didDocument = true :=
  attested_attestCapability DidCodec.reference_lawful Reference.ed25519_correct reference_mldsa65_correct
    (identity_wellFormed attester)
    (attestCapability_attestation capabilityId challengeHash verifiedAt announcements hne).1

theorem eligible_attestation (hne : attester ≠ subject) (hchallenge : challengeHash ≠ "") :
    eligible (did subject) capabilityId (attestation attester subject capabilityId challengeHash verifiedAt) = true := by
  obtain ⟨-, edSig, pqSig, hed, hpq, hresult⟩ :=
    attestCapability_attestation capabilityId challengeHash verifiedAt [] hne
  rw [hresult]
  have hpos : 0 < edSig.length ∧ 0 < pqSig.length := by omega
  exact eligible_iff.mpr ⟨rfl, rfl, hchallenge, fun h => hne (did_inj h), List.ne_nil_of_length_pos hpos.1,
    List.ne_nil_of_length_pos hpos.2, rfl⟩

end Attestations

def spec (capabilityId : String) (attestations : List CapabilityAttestation) : CapabilitySpec .reference where
  capabilityId := capabilityId
  domain := ⟨"prove", 1⟩
  inputTypes := []
  outputTypes := []
  constraints := []
  metrics := ⟨0, 0, (0 : Rat), 0, 0, 0, 0, none⟩
  attestations := attestations

/-! ### Messages that are short enough -/

def size (s : String) : Nat := (utf8 s).length

@[simp] theorem size_append (s t : String) : size (s ++ t) = size s + size t := by
  rw [size, utf8_append, List.length_append]
  rfl

theorem size_quote (s : String) : size (Json.quote s) = size s + 2 := by
  have hmark : size "\"" = 1 := by decide
  rw [Json.quote, size_append, size_append, hmark]
  omega

theorem size_commaSeparated_le (items : List String) :
    size (Json.commaSeparated items) ≤ (items.map fun item => size item + 1).sum := by
  have hcomma : size "," = 1 := by decide
  induction items with
  | nil => exact Nat.zero_le _
  | cons item rest ih =>
    cases rest with
    | nil => simp [Json.commaSeparated]
    | cons next rest =>
      rw [Json.commaSeparated, size_append, size_append, hcomma, List.map_cons, List.sum_cons]
      · omega
      · simp

theorem size_array_le (items : List String) :
    size (Json.array items) ≤ (items.map fun item => size item + 1).sum + 2 := by
  have hopen : size "[" = 1 ∧ size "]" = 1 := by decide
  have hitems := size_commaSeparated_le items
  rw [Json.array, size_append, size_append]
  omega

theorem size_singleton_le (item : String) : size (Json.array [item]) ≤ size item + 3 := by
  have hitems := size_array_le [item]
  rw [List.map_singleton, List.sum_singleton] at hitems
  exact hitems

theorem size_object_le {fields : List (String × String)} (h : ∀ field ∈ fields, size field.1 ≤ 20) :
    size (Json.object fields) ≤ (fields.map fun field => size field.2 + 24).sum + 2 := by
  have hopen : size "\x7b" = 1 ∧ size "\x7d" = 1 ∧ size ":" = 1 := by decide
  have hfields := size_commaSeparated_le (fields.map fun field => Json.quote field.1 ++ ":" ++ field.2)
  have hsum : ((fields.map fun field => Json.quote field.1 ++ ":" ++ field.2).map fun item => size item + 1).sum ≤
      (fields.map fun field => size field.2 + 24).sum := by
    rw [List.map_map]
    refine List.sum_le_sum fun field hfield => ?_
    have hname := h field hfield
    simp only [Function.comp, size_append, size_quote]
    omega
  rw [Json.object, size_append, size_append]
  omega

theorem size_bytes_le (bytes : Bytes) : size (Json.bytes bytes) ≤ 4 * bytes.length + 2 := by
  have hbyte : ∀ b : Fin 256, size (toString b.val) ≤ 3 := by decide +kernel
  have harray := size_array_le (bytes.map fun b => toString b.toNat)
  have hsum : ((bytes.map fun b => toString b.toNat).map fun item => size item + 1).sum ≤ (bytes.map fun _ => 4).sum := by
    rw [List.map_map]
    exact List.sum_le_sum fun b _ => Nat.succ_le_succ (hbyte ⟨b.toNat, b.toNat_lt⟩)
  rw [List.map_const', List.sum_replicate, smul_eq_mul] at hsum
  rw [Json.bytes]
  omega

theorem size_did (n : UInt8) : size (did n) = 77 := by
  have hpre : size Pod.didKeyPrefix = 8 ∧ size "f" = 1 := by decide
  have hhex : size (hexEncode (Pod.multicodecEd25519Pub ++ (key n).toList)) = 68 := by
    rw [size, utf8_hexEncode_length, List.length_append, Vector.length_toList]
    rfl
  change size (Pod.didKeyPrefix ++ ("f" ++ hexEncode (Pod.multicodecEd25519Pub ++ (key n).toList))) = 77
  rw [size_append, size_append]
  omega

theorem size_announcement_le (n : UInt8) (peerId : String) (timestamp : UInt64)
    (specs : List (CapabilitySpec .reference)) :
    size (Json.announcement (signed n (draft n peerId timestamp specs))) ≤
      15000 + size peerId + size (toString timestamp.toNat) + size (Json.array (specs.map Json.spec)) := by
  obtain ⟨-, edSig, pqSig, hed, hpq, hsigned⟩ := signAnnouncement_signed [] n (draft n peerId timestamp specs)
  have hedSize := size_bytes_le edSig
  have hpqSize := size_bytes_le pqSig
  have hdid := size_did n
  have hliterals : size "" = 0 ∧ size "1" = 1 ∧ size (toString (300 : UInt64).toNat) = 3 ∧ size (Json.array []) = 2 := by
    decide
  obtain ⟨hempty, hversion, httl, hlist⟩ := hliterals
  rw [hsigned]
  have hnames : ["peer_id", "did", "name", "description", "capabilities", "capability_specs", "multiaddrs", "protocols",
      "version", "timestamp", "ttl", "ed25519_signature", "mldsa65_signature"].all fun name => size name ≤ 20 := by
    decide
  unfold Json.announcement
  refine (size_object_le ?_).trans ?_
  · cases specs with
    | nil => simp_all [draft]
    | cons spec rest => simpa [draft] using hnames
  · cases specs with
    | nil =>
      simp only [draft, size_quote, Json.option, hdid, hempty, hversion, hlist, List.isEmpty_nil, if_true,
        List.map_nil, Option.toList_none, List.cons_append, List.nil_append, List.map_cons, List.sum_cons, List.sum_nil]
      omega
    | cons spec rest =>
      simp only [draft, size_quote, Json.option, hdid, hempty, hversion, hlist, List.isEmpty_cons, Bool.false_eq_true,
        if_false, List.map_nil, Option.toList_none, List.cons_append, List.nil_append, List.map_cons, List.sum_cons,
        List.sum_nil]
      omega

variable {s : AgentDiscovery .reference}

theorem size_attestation_le {subject : UInt8} (hne : attester ≠ subject) (capabilityId challengeHash : String)
    (verifiedAt : UInt64) : size (Json.attestation (attestation attester subject capabilityId challengeHash verifiedAt)) ≤
      14000 + size capabilityId + size challengeHash + size (toString verifiedAt.toNat) := by
  obtain ⟨-, edSig, pqSig, hed, hpq, hresult⟩ :=
    attestCapability_attestation capabilityId challengeHash verifiedAt [] hne
  have hedSize := size_bytes_le edSig
  have hpqSize := size_bytes_le pqSig
  have hattester := size_did attester
  have hsubject := size_did subject
  have htrue : size (toString true) = 4 := by decide
  have hnames : ["attester_did", "subject_did", "capability_id", "challenge_hash", "passed", "verified_at",
      "ed25519_signature", "mldsa65_signature"].all fun name => size name ≤ 20 := by decide
  rw [hresult]
  unfold Json.attestation
  refine (size_object_le ?_).trans ?_
  · simpa [Json.attestationPayload] using hnames
  · simp only [Json.attestationPayload, CapabilityAttestation.payload, List.cons_append, List.nil_append, List.map_cons,
      List.map_nil, List.sum_cons, List.sum_nil, size_quote]
    omega

theorem size_metrics_le (latencyP99Ms : UInt64) :
    size (Json.metrics ⟨0, 0, (0 : Rat), 0, latencyP99Ms, 0, 0, none⟩) ≤ 200 + size (toString latencyP99Ms.toNat) := by
  have hzero : size (toString (0 : UInt64).toNat) = 1 ∧ size (Json.double (0 : Rat)) = 3 := by decide +kernel
  have hnames : ["tasks_completed", "tasks_failed", "success_rate", "latency_p50_ms", "latency_p99_ms",
      "cost_microdollars", "last_active"].all fun name => size name ≤ 20 := by decide
  unfold Json.metrics
  refine (size_object_le ?_).trans ?_
  · simpa using hnames
  · simp only [Option.toList_none, List.map_nil, List.append_nil, List.map_cons, List.sum_cons, List.sum_nil, hzero]
    omega

theorem size_spec_le (capabilityId : String) (latencyP99Ms : UInt64) (attestations : List CapabilityAttestation) :
    size (Json.spec
        { spec capabilityId attestations with metrics := ⟨0, 0, (0 : Rat), 0, latencyP99Ms, 0, 0, none⟩ }) ≤
      700 + size capabilityId + size (toString latencyP99Ms.toNat) +
        size (Json.array (attestations.map Json.attestation)) := by
  have hdomain : size (Json.domain ⟨"prove", 1⟩) ≤ 60 ∧ size (Json.array []) = 2 := by decide
  have hmetrics := size_metrics_le latencyP99Ms
  have hnames : ["capability_id", "domain", "input_types", "output_types", "constraints", "metrics",
      "attestations"].all fun name => size name ≤ 20 := by decide
  unfold Json.spec
  refine (size_object_le ?_).trans ?_
  · simpa using hnames
  · simp only [spec, List.map_nil, List.map_cons, List.sum_cons, List.sum_nil, size_quote]
    omega

/-- A draft with one specification and copies of one statement about it. -/
def attestedDraft (copies : Nat) (attester n : UInt8) (peerId capabilityId : String) :
    AgentAnnouncement .reference :=
  draft n peerId 1000 [spec capabilityId (List.replicate copies (attestation attester n capabilityId "challenge" 900))]

variable {copies : Nat} {peerId : String}

theorem size_attestedDraft_le (hcopies : copies ≤ 2) (hne : attester ≠ n) (hshort : size peerId + size capabilityId ≤ 1000) :
    size (Json.announcement (signed n (attestedDraft copies attester n peerId capabilityId))) ≤ maxAnnouncementBytes := by
  obtain ⟨statement, hstatement⟩ : ∃ statement, attestation attester n capabilityId "challenge" 900 = statement := ⟨_, rfl⟩
  have hannouncement := size_announcement_le n peerId 1000 [spec capabilityId (List.replicate copies statement)]
  have hspec : size (Json.spec (spec capabilityId (List.replicate copies statement))) ≤ _ :=
    size_spec_le capabilityId 0 (List.replicate copies statement)
  have hsigned := size_attestation_le hne capabilityId "challenge" 900
  have hspecs := size_array_le [Json.spec (spec capabilityId (List.replicate copies statement))]
  have hstatements := size_array_le ((List.replicate copies statement).map Json.attestation)
  have hwords : size "challenge" = 9 ∧ size (toString (1000 : UInt64).toNat) = 4 ∧
    size (toString (900 : UInt64).toNat) = 3 ∧ size (toString (0 : UInt64).toNat) = 1 := by decide
  have hmax : maxAnnouncementBytes = 262144 := by decide
  rw [hstatement] at hsigned
  unfold attestedDraft
  rw [hstatement]
  simp only [List.map_cons, List.map_nil, List.sum_cons, List.sum_nil, List.map_replicate, List.sum_replicate,
    smul_eq_mul] at hannouncement hspec hspecs hstatements
  have hcopied : copies * (size (Json.attestation statement) + 1) ≤ 2 * (size (Json.attestation statement) + 1) :=
    Nat.mul_le_mul_right _ hcopies
  omega

/-! ### Messages that are stored -/

theorem validate_draft (hlength : specs.length ≤ maxAnnouncedCapabilitySpecs)
    (hattestations : ∀ spec ∈ specs, spec.attestations.length ≤ maxAttestationsPerSpec) :
    validateAnnouncementShape (draft n peerId timestamp specs) = .ok () := by
  have hall : (draft n peerId timestamp specs).capabilitySpecs.all
      (fun spec => spec.attestations.length ≤ maxAttestationsPerSpec) = true :=
    List.all_eq_true.mpr fun spec hspec => decide_eq_true (hattestations spec hspec)
  unfold validateAnnouncementShape
  change (require (decide (specs.length ≤ maxAnnouncedCapabilitySpecs)) _ >>= fun _ => require _ _) = _
  rw [hall, decide_eq_true hlength]
  rfl

theorem fresh_draft {now : UInt64} (hpast : timestamp.toNat ≤ now.toNat) (hrecent : now.toNat ≤ timestamp.toNat + 300) :
    validateAnnouncementFreshness now (draft n peerId timestamp specs) = .ok () := by
  have hword := timestamp.toNat_lt
  have hfuture : timestamp.toNat ≤ min (now.toNat + maxAnnouncementClockSkewSecs) u64Max := by
    unfold u64Max
    omega
  have httl : (boundedAnnouncementTtl 300).toNat = 300 := by decide
  have hage : age now timestamp ≤ (boundedAnnouncementTtl 300).toNat := by
    unfold age
    omega
  unfold validateAnnouncementFreshness
  change (require (decide (timestamp.toNat ≤ min (now.toNat + maxAnnouncementClockSkewSecs) u64Max)) _ >>= fun _ =>
    require (decide (age now timestamp ≤ (boundedAnnouncementTtl 300).toNat)) _) = _
  rw [decide_eq_true hfuture, decide_eq_true hage]
  rfl

theorem signed_fields (n : UInt8) (peerId : String) (timestamp : UInt64)
    (specs : List (CapabilitySpec .reference)) :
    (signed n (draft n peerId timestamp specs)).peerId = peerId ∧
      (signed n (draft n peerId timestamp specs)).did = did n ∧
      (signed n (draft n peerId timestamp specs)).timestamp = timestamp ∧
      (signed n (draft n peerId timestamp specs)).ttl = 300 ∧
      (signed n (draft n peerId timestamp specs)).didDocument = none ∧
      (signed n (draft n peerId timestamp specs)).capabilitySpecs = specs := by
  obtain ⟨-, edSig, pqSig, -, -, hsigned⟩ := signAnnouncement_signed [] n (draft n peerId timestamp specs)
  rw [hsigned]
  exact ⟨rfl, rfl, rfl, rfl, rfl, rfl⟩

theorem stored_fields (announcement : AgentAnnouncement .reference)
    (specs : List (CapabilitySpec .reference)) :
    { clampTtl announcement with capabilitySpecs := specs }.did = announcement.did ∧
      { clampTtl announcement with capabilitySpecs := specs }.timestamp = announcement.timestamp ∧
      { clampTtl announcement with capabilitySpecs := specs }.didDocument = announcement.didDocument :=
  ⟨rfl, rfl, rfl⟩

theorem commaSeparated_cons_cons (item next : String) (rest : List String) :
    Json.commaSeparated (item :: next :: rest) = item ++ ("," ++ Json.commaSeparated (next :: rest)) :=
  String.append_assoc ..

theorem announcement_text (announcement : AgentAnnouncement .reference) :
    ∃ rest, utf8 (Json.announcement announcement) =
      utf8 "\x7b" ++ (utf8 "\"" ++ (utf8 "peer_id" ++ (utf8 "\"" ++ (utf8 ":" ++ (utf8 "\"" ++
        (utf8 announcement.peerId ++ rest)))))) := by
  unfold Json.announcement Json.object
  simp only [List.cons_append, List.map_cons, commaSeparated_cons_cons, Json.quote, utf8_append, List.append_assoc]
  exact ⟨_, rfl⟩

theorem text_ne {announcement other : AgentAnnouncement .reference} {p q : String} (hp : announcement.peerId = p)
    (hq : other.peerId = q) (hlength : (utf8 p).length = (utf8 q).length) (hne : utf8 p ≠ utf8 q) :
    utf8 (Json.announcement announcement) ≠ utf8 (Json.announcement other) := by
  obtain ⟨rest, htext⟩ := announcement_text announcement
  obtain ⟨rest', htext'⟩ := announcement_text other
  rw [htext, htext', hp, hq]
  intro heq
  simp only [List.append_cancel_left_eq] at heq
  exact hne (List.append_inj_left heq hlength)

variable {C : Condition .reference}

section Receiving

variable (announcements : List (AgentAnnouncement .reference)) (A : Ambient)
  (numbers : List UInt8) (hn : n ∈ numbers)
  (hsize : size (Json.announcement (signed n (draft n peerId timestamp specs))) ≤ maxAnnouncementBytes)
  (hfind : (announcements.find? fun announcement => utf8 (Json.announcement announcement) =
    utf8 (Json.announcement (signed n (draft n peerId timestamp specs)))) =
      some (signed n (draft n peerId timestamp specs)))
  (hshape : validateAnnouncementShape (draft n peerId timestamp specs) = .ok ())
  (hfresh : validateAnnouncementFreshness A.freshness (draft n peerId timestamp specs) = .ok ())
  (hattesters : ∀ spec ∈ specs, ∀ attestation ∈ spec.attestations, ∃ m ∈ numbers, attestation.attesterDid = did m)

include hn hsize hfind hshape hfresh hattesters

theorem exists_receives (h : Bounded s)
    (hlive : ∀ (did : String) known, s.knownAgents[did]? = some known → isExpired A.prune known = false)
    (hquiet : ∀ did, s.pendingOf did = []) (hroom : s.knownAgents.size < maxKnownAgents)
    (hcondition : C s A (resolver numbers) (signed n (draft n peerId timestamp specs))) :
    ∃ t, Receives (Wire.reference announcements) C s t ∧ Bounded t ∧ (∀ did, t.pendingOf did = []) ∧
      t.knownAgents = s.knownAgents.insert (did n)
        { clampTtl (signed n (draft n peerId timestamp specs)) with
          capabilitySpecs := specs.map (s.storedSpec (Wire.reference announcements) (resolver numbers) (did n)) } := by
  obtain ⟨-, edSig, pqSig, -, -, hsigned⟩ := signAnnouncement_signed announcements n (draft n peerId timestamp specs)
  have hdid : (signed n (draft n peerId timestamp specs)).did = did n := by
    rw [hsigned]
    rfl
  have hspecs : (signed n (draft n peerId timestamp specs)).capabilitySpecs = specs := by
    rw [hsigned]
    rfl
  have hsanitized := sanitized_eq (Wire.reference announcements) s (resolver numbers)
    (signed n (draft n peerId timestamp specs))
  rw [hdid, hspecs] at hsanitized
  have hnone : (specs.flatMap fun spec =>
      s.undecided (resolver numbers) (did n) spec.capabilityId spec.attestations) = [] := by
    refine List.flatMap_eq_nil_iff.mpr fun spec hspec => List.filter_eq_nil_iff.mpr fun attestation hin => ?_
    obtain ⟨m, hm, hattester⟩ := hattesters spec hspec attestation hin
    have hdocument : (s.attesterDocument (resolver numbers) attestation.attesterDid).isNone = false := by
      unfold attesterDocument
      rw [hattester, resolver_get hm]
      cases (s.knownAgents[did m]?).bind (·.didDocument) <;> rfl
    rw [hdocument, Bool.and_false]
    exact Bool.false_ne_true
  rw [hnone] at hsanitized
  obtain ⟨stored, hstored⟩ : ∃ stored : AgentAnnouncement .reference, stored =
      { clampTtl (signed n (draft n peerId timestamp specs)) with
        capabilitySpecs := specs.map (s.storedSpec (Wire.reference announcements) (resolver numbers) (did n)) } := ⟨_, rfl⟩
  rw [← hstored] at hsanitized ⊢
  have hstoredDid : stored.did = did n := by
    rw [hstored]
    exact hdid
  obtain ⟨t, hrun, hbounded, hpending, hknown⟩ := upsertVerifiedInner_quiet (A := A) (Wire.reference announcements)
    Nat.one_pos h hlive hquiet (Std.ExtTreeMap.size_insert_le.trans hroom)
  rw [hstoredDid] at hknown
  have hparsed : (Wire.reference announcements).announcementFromSlice
      (utf8 (Json.announcement (signed n (draft n peerId timestamp specs)))) =
        .ok (signed n (draft n peerId timestamp specs)) := by
    unfold Wire.reference
    dsimp only
    rw [hfind]
  have hupsert : s.upsertVerifiedInner (Wire.reference announcements) A 1
      (s.sanitized (Wire.reference announcements) (resolver numbers) (signed n (draft n peerId timestamp specs))).1
      (s.sanitized (Wire.reference announcements) (resolver numbers) (signed n (draft n peerId timestamp specs))).2 =
        some t := by
    rw [hsanitized]
    exact hrun
  exact ⟨t, .of_verified hsize hparsed (verifyIncoming_signed announcements hn peerId hshape hfresh) hcondition hupsert,
    hbounded, hpending, hknown⟩

theorem exists_receives_new (hcondition : C .new A (resolver numbers) (signed n (draft n peerId timestamp specs))) :
    ∃ t, Receives (Wire.reference announcements) C .new t ∧ Bounded t ∧ (∀ did, t.pendingOf did = []) ∧
      t.knownAgents = (∅ : OrdMap String (AgentAnnouncement .reference)).insert (did n)
        { clampTtl (signed n (draft n peerId timestamp specs)) with
          capabilitySpecs := specs.map (new.storedSpec (Wire.reference announcements) (resolver numbers) (did n)) } := by
  refine exists_receives announcements A numbers hn hsize hfind hshape hfresh hattesters bounded_new
    (fun did known hget => ?_) (fun did => pendingOf_eq_nil (pending_new did)) (by decide) hcondition
  rw [known_new] at hget
  cases hget

end Receiving

theorem storedSpec_attested (announcements : List (AgentAnnouncement .reference)) (copies : Nat) (hne : attester ≠ n)
    (hattester : attester ∈ numbers) (capabilityId : String)
    (hunknown : (s.knownAgents[did attester]?).bind (·.didDocument) = none) :
    s.storedSpec (Wire.reference announcements) (resolver numbers) (did n)
      (spec capabilityId (List.replicate copies (attestation attester n capabilityId "challenge" 900))) =
      { spec capabilityId (List.replicate copies (attestation attester n capabilityId "challenge" 900)) with
        metrics := (spec capabilityId []).metrics.sanitize } := by
  suffices hkept : s.kept (Wire.reference announcements) (resolver numbers) (did n) capabilityId (List.replicate copies
      (attestation attester n capabilityId "challenge" 900)) =
        List.replicate copies (attestation attester n capabilityId "challenge" 900) by
    unfold storedSpec
    rw [spec, hkept]
    rfl
  refine List.filter_eq_self.mpr fun statement hin => ?_
  obtain rfl := List.eq_of_mem_replicate hin
  have hdocument : s.attesterDocument (resolver numbers) (did attester) = some (identity attester).didDocument := by
    unfold attesterDocument
    rw [hunknown, resolver_get hattester]
    rfl
  have hconfirmed : s.confirmed (Wire.reference announcements) (resolver numbers)
      (attestation attester n capabilityId "challenge" 900) = true := by
    unfold confirmed
    change (s.attesterDocument (resolver numbers) (did attester)).any _ = true
    rw [hdocument]
    exact attested_attestation capabilityId "challenge" 900 announcements hne
  rw [hconfirmed, Bool.and_true]
  exact eligible_attestation capabilityId "challenge" 900 hne (by decide)

theorem validate_attestedDraft (hcopies : copies ≤ 2) (attester n : UInt8) (peerId capabilityId : String) :
    validateAnnouncementShape (attestedDraft copies attester n peerId capabilityId) = .ok () := by
  refine validate_draft (Nat.succ_le_succ (Nat.zero_le _)) fun other hother => ?_
  obtain rfl := List.mem_singleton.mp hother
  rw [spec, List.length_replicate]
  exact hcopies.trans (by decide)

theorem attester_of_mem (hattester : attester ∈ numbers) : ∀ other ∈ [spec capabilityId (List.replicate copies
      (attestation attester n capabilityId "challenge" 900))], ∀ statement ∈ other.attestations,
        ∃ m ∈ numbers, statement.attesterDid = did m := by
  intro other hother statement hin
  obtain rfl := List.mem_singleton.mp hother
  obtain rfl := List.eq_of_mem_replicate hin
  exact ⟨attester, hattester, rfl⟩

theorem exists_attested (copies : Nat) (hcopies : copies ≤ 2) (hne : attester ≠ n) (capabilityId : String)
    (hshort : size capabilityId ≤ 900)
    (hcondition : C .new (.at 1000) (resolver [n, attester]) (signed n (attestedDraft copies attester n "peer" capabilityId))) :
    ∃ t stored, Receives (Wire.reference [signed n (attestedDraft copies attester n "peer" capabilityId)]) C .new t ∧
      t.knownAgents[did n]? = some stored ∧ stored.capabilitySpecs = [{ spec capabilityId (List.replicate copies
        (attestation attester n capabilityId "challenge" 900)) with
          metrics := (spec capabilityId []).metrics.sanitize }] := by
  have hpeer : size "peer" = 4 := by decide
  obtain ⟨t, hreceives, -, -, hknown⟩ := exists_receives_new
    [signed n (attestedDraft copies attester n "peer" capabilityId)] (.at 1000) [n, attester] List.mem_cons_self
    (size_attestedDraft_le hcopies hne (by omega)) (List.find?_cons_of_pos (decide_eq_true rfl))
    (validate_attestedDraft hcopies ..) (fresh_draft le_rfl (Nat.le_add_right _ _)) (attester_of_mem (by simp)) hcondition
  have hget := congrArg (fun known => known[did n]?) hknown
  dsimp only at hget
  rw [OrdMap.get?_insert, if_pos rfl] at hget
  refine ⟨t, _, hreceives, hget, congrArg (fun stored => [stored]) ?_⟩
  exact storedSpec_attested _ copies hne (by simp) capabilityId (by rw [known_new]; rfl)

end Sample

end AgentHalo.Discovery
