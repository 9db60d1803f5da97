import AgentHalo.Discovery.Spec
import AgentHalo.Credential.Membership

/-!
# Announcements

An agent signs what it announces with the key that its DID encodes. An announcement brings its DID document along or has
it resolved; the document is bound to the DID by its Ed25519 key. An attestation is a signed statement of one agent about
another, and is checked against the document of the attester.

Everything that is decoded, serialised or proved outside the repository is a field of `Wire`.
-/

namespace AgentHalo.Discovery

open Outcome Text
open Pod (DIDDocument DidCodec dualVerify decodeDocumentEd25519Public ed25519PublicOf didKeyPrefix)

def zkCredentialDidHashDomain : String := "agenthalo.zk_credential.did_hash.v1"
def maxDynamicSubscriptions : Nat := 64
def maxAnnouncedCapabilitySpecs : Nat := 64
def maxAttestationsPerSpec : Nat := 32
def maxAnnouncementTtlSecs : UInt64 := 86400
def maxAnnouncementClockSkewSecs : Nat := 300
def maxAnnouncementBytes : Nat := 256 * 1024
def maxKnownAgents : Nat := 8192
def maxPendingAttestationsPerSubject : Nat := 256
def maxTotalPendingAttestations : Nat := 65536
def maxPendingAttestationAgeSecs : Nat := 86400

structure AgentCapability where
  id : String
  name : String
  description : String
  inputTypes : List String
  outputTypes : List String
deriving DecidableEq, Repr

variable (P : Platform)

structure AgentAnnouncementPayload where
  peerId : String
  did : String
  name : String
  description : String
  capabilities : List AgentCapability
  capabilitySpecs : List (CapabilitySpec P)
  multiaddrs : List String
  protocols : List String
  version : String
  timestamp : UInt64
  ttl : UInt64
  didDocument : Option DIDDocument
  evmAddress : Option String
  bindingProofHash : Option String
  anonymousMembershipProof : Option Credential.AnonymousCredentialProofBundle

structure AgentAnnouncement extends AgentAnnouncementPayload P where
  ed25519Signature : Option Bytes
  mldsa65Signature : Option Bytes

structure CapabilityAttestationPayload where
  attesterDid : String
  subjectDid : String
  capabilityId : String
  challengeHash : String
  passed : Bool
  verifiedAt : UInt64
deriving DecidableEq, Repr

/-- What comes from other packages: the encodings of keys, `serde_json`, and the keys of the credential circuit, which
are the same for the life of the process. -/
structure Wire where
  did : DidCodec P
  spec : SpecJson
  attestationToVec : CapabilityAttestationPayload → Except String Bytes
  payloadToVec : AgentAnnouncementPayload P → Except String Bytes
  announcementFromSlice : Bytes → Except String (AgentAnnouncement P)
  field : Nat
  credentialKeys : Except String (Credential.Groth16 field)

abbrev Resolver := String → Option DIDDocument

variable {P} (W : Wire P)

/-! ### Keys and signatures -/

def payloadBytes (announcement : AgentAnnouncement P) : Except String Bytes :=
  (W.payloadToVec announcement.toAgentAnnouncementPayload).mapError ("serialize announcement payload: " ++ ·)

def decodeDidKeyEd25519Public (did : String) : Except String (Vector UInt8 32) := do
  let encoded ← okOr "announcement DID is not a did:key identifier" (stripPrefix did didKeyPrefix)
  let decoded ← (W.did.multibaseDecode encoded).mapError ("multibase decode failed for did:key identifier: " ++ ·)
  ed25519PublicOf "did:key payload must be Ed25519 multicodec + 32-byte key"
    "did:key payload must use Ed25519 multicodec prefix" decoded

def verifyDidDocumentBinding (announcement : AgentAnnouncement P) (didDocument : DIDDocument) : Except String Unit := do
  require (didDocument.id = announcement.did) "announcement DID document id does not match announcement DID"
  let didKeyEd25519 ← decodeDidKeyEd25519Public W announcement.did
  let documentEd25519 ← decodeDocumentEd25519Public W.did didDocument
  require (didKeyEd25519 = documentEd25519)
    "announcement DID document Ed25519 key does not match did:key identifier"

def verifyAnnouncement (announcement : AgentAnnouncement P) (didDocument : DIDDocument) : Except String Bool := do
  let payload ← payloadBytes W announcement
  let edSig ← okOr "announcement missing Ed25519 signature" announcement.ed25519Signature
  let pqSig ← okOr "announcement missing ML-DSA-65 signature" announcement.mldsa65Signature
  dualVerify W.did didDocument payload edSig pqSig

def CapabilityAttestation.payload (attestation : CapabilityAttestation) : CapabilityAttestationPayload where
  attesterDid := attestation.attesterDid
  subjectDid := attestation.subjectDid
  capabilityId := attestation.capabilityId
  challengeHash := attestation.challengeHash
  passed := attestation.passed
  verifiedAt := attestation.verifiedAt

def attestationPayloadBytes (payload : CapabilityAttestationPayload) : Except String Bytes :=
  (W.attestationToVec payload).mapError ("serialize capability attestation payload: " ++ ·)

def verifyCapabilityAttestation (attestation : CapabilityAttestation) (attesterDocument : DIDDocument) :
    Except String Bool := do
  let payload ← attestationPayloadBytes W attestation.payload
  dualVerify W.did attesterDocument payload attestation.ed25519Signature attestation.mldsa65Signature

/-- An error of the check counts as a failure. -/
def attested (attestation : CapabilityAttestation) (attesterDocument : DIDDocument) : Bool :=
  ((verifyCapabilityAttestation W attestation attesterDocument).toOption).getD false

def didHashForZkMembership (did : String) : String :=
  hexEncode (Credential.digestBytes P zkCredentialDidHashDomain (utf8 did)).toList

def verifyOptionalAnonymousMembership (announcement : AgentAnnouncement P) : Except String Unit :=
  match announcement.anonymousMembershipProof with
  | none => .ok ()
  | some bundle =>
    if bundle.leafDidHash ≠ didHashForZkMembership (P := P) announcement.did then
      .error ("anonymous membership proof leaf hash does not match announcement DID `" ++ announcement.did ++ "`")
    else
      match W.credentialKeys with
      | .error e => .error e
      | .ok keys => do
        let ok ← Credential.verifyAnonymousMembershipProof P keys bundle
        require ok "anonymous membership proof verification failed"

/-! ### The checks on arrival -/

def boundedAnnouncementTtl (ttlSecs : UInt64) : UInt64 := min ttlSecs maxAnnouncementTtlSecs

def validateAnnouncementShape (announcement : AgentAnnouncement P) : Except String Unit := do
  require (announcement.capabilitySpecs.length ≤ maxAnnouncedCapabilitySpecs)
    ("announcement for `" ++ announcement.did ++ "` exceeds max capability_specs (" ++
      toString maxAnnouncedCapabilitySpecs ++ ")")
  require (announcement.capabilitySpecs.all fun spec => spec.attestations.length ≤ maxAttestationsPerSpec)
    ("announcement for `" ++ announcement.did ++ "` exceeds max attestations per capability (" ++
      toString maxAttestationsPerSpec ++ ")")

def validateAnnouncementFreshness (now : UInt64) (announcement : AgentAnnouncement P) : Except String Unit := do
  require (announcement.timestamp.toNat ≤ min (now.toNat + maxAnnouncementClockSkewSecs) u64Max)
    ("announcement for `" ++ announcement.did ++ "` is too far in the future")
  require (age now announcement.timestamp ≤ (boundedAnnouncementTtl announcement.ttl).toNat)
    ("announcement for `" ++ announcement.did ++ "` expired before ingress verification")

/-- The first half of `verify_and_upsert`: the checks, none of which reads the state. -/
def verifyIncoming (now : UInt64) (resolveDocument : Resolver) (announcement : AgentAnnouncement P) :
    Except String Unit := do
  validateAnnouncementShape announcement
  validateAnnouncementFreshness now announcement
  let didDocument ← okOr ("announcement for `" ++ announcement.did ++
    "` missing DID document for signature verification")
    (announcement.didDocument.or (resolveDocument announcement.did))
  verifyDidDocumentBinding W announcement didDocument
  let verified ← verifyAnnouncement W announcement didDocument
  require verified ("announcement signatures failed verification for `" ++ announcement.did ++ "`")
  verifyOptionalAnonymousMembership W announcement

/-! ### A wire to compute with -/

namespace Json

def quote (s : String) : String := "\"" ++ s ++ "\""

def commaSeparated : List String → String
  | [] => ""
  | [item] => item
  | item :: rest => item ++ "," ++ commaSeparated rest

def array (items : List String) : String := "[" ++ commaSeparated items ++ "]"

def object (fields : List (String × String)) : String :=
  "\x7b" ++ commaSeparated (fields.map fun field => quote field.1 ++ ":" ++ field.2) ++ "\x7d"

def option {α : Type} (write : α → String) : Option α → String
  | none => "null"
  | some a => write a

def bytes (bytes : Bytes) : String := array (bytes.map fun b => toString b.toNat)

def typeSpec : TypeSpec → String
  | .bytes mime => object [("Bytes", object [("mime", quote mime)])]
  | .jsonSchema schemaId => object [("JsonSchema", object [("schema_id", quote schemaId)])]
  | .leanTerm => quote "LeanTerm"
  | .coqTerm => quote "CoqTerm"
  | .text language => object [("Text", object [("language", option quote language)])]
  | .vector dimensions => object [("Vector", object [("dimensions", toString dimensions.toNat)])]

def constraint : CapabilityConstraint → String
  | .kernelFaithful kernel => object [("KernelFaithful", object [("kernel", quote kernel)])]
  | .zeroSorry => quote "ZeroSorry"
  | .maxLatencyMs bound => object [("MaxLatencyMs", toString bound.toNat)]
  | .requiresIndex indexName => object [("RequiresIndex", object [("index_name", quote indexName)])]
  | .custom key value => object [("Custom", object [("key", quote key), ("value", quote value)])]

def domain (domain : CapabilityDomain) : String :=
  object [("path", quote domain.path), ("schema_version", toString domain.schemaVersion.toNat)]

def capability (capability : AgentCapability) : String :=
  object [("id", quote capability.id), ("name", quote capability.name), ("description", quote capability.description),
    ("input_types", array (capability.inputTypes.map quote)), ("output_types", array (capability.outputTypes.map quote))]

def attestationPayload (payload : CapabilityAttestationPayload) : List (String × String) :=
  [("attester_did", quote payload.attesterDid), ("subject_did", quote payload.subjectDid),
    ("capability_id", quote payload.capabilityId), ("challenge_hash", quote payload.challengeHash),
    ("passed", toString payload.passed), ("verified_at", toString payload.verifiedAt.toNat)]

def attestation (attestation : CapabilityAttestation) : String :=
  object (attestationPayload attestation.payload ++
    [("ed25519_signature", bytes attestation.ed25519Signature), ("mldsa65_signature", bytes attestation.mldsa65Signature)])

def double (x : Platform.reference.f64.F) : String := Platform.reference.f64.display x ++ ".0"

def metrics (metrics : LiveMetrics .reference) : String :=
  object ([("tasks_completed", toString metrics.tasksCompleted.toNat), ("tasks_failed", toString metrics.tasksFailed.toNat),
    ("success_rate", double metrics.successRate), ("latency_p50_ms", toString metrics.latencyP50Ms.toNat),
    ("latency_p99_ms", toString metrics.latencyP99Ms.toNat),
    ("cost_microdollars", toString metrics.costMicrodollars.toNat), ("last_active", toString metrics.lastActive.toNat)] ++
    (metrics.onchainReputation.toList.map fun value => ("onchain_reputation", double value)))

def spec (spec : CapabilitySpec .reference) : String :=
  object [("capability_id", quote spec.capabilityId), ("domain", domain spec.domain),
    ("input_types", array (spec.inputTypes.map typeSpec)), ("output_types", array (spec.outputTypes.map typeSpec)),
    ("constraints", array (spec.constraints.map constraint)), ("metrics", metrics spec.metrics),
    ("attestations", array (spec.attestations.map attestation))]

def method (id type controller publicKeyMultibase : String) : String :=
  object [("id", quote id), ("type", quote type), ("controller", quote controller),
    ("publicKeyMultibase", quote publicKeyMultibase)]

def didDocument (document : DIDDocument) : String :=
  object ([("id", quote document.id)] ++
    (if document.alsoKnownAs = [] then [] else [("alsoKnownAs", array (document.alsoKnownAs.map quote))]) ++
    [("verificationMethod", array (document.verificationMethod.map fun m =>
        method m.id m.type m.controller m.publicKeyMultibase)),
      ("keyAgreement", array (document.keyAgreement.map fun m => method m.id m.type m.controller m.publicKeyMultibase)),
      ("authentication", array (document.authentication.map quote)),
      ("assertionMethod", array (document.assertionMethod.map quote))])

/-- The signed part, which writes every option. -/
def payload (announcement : AgentAnnouncementPayload .reference) : String :=
  object [("peer_id", quote announcement.peerId), ("did", quote announcement.did), ("name", quote announcement.name),
    ("description", quote announcement.description), ("capabilities", array (announcement.capabilities.map capability)),
    ("capability_specs", array (announcement.capabilitySpecs.map spec)),
    ("multiaddrs", array (announcement.multiaddrs.map quote)), ("protocols", array (announcement.protocols.map quote)),
    ("version", quote announcement.version), ("timestamp", toString announcement.timestamp.toNat),
    ("ttl", toString announcement.ttl.toNat), ("did_document", option didDocument announcement.didDocument),
    ("evm_address", option quote announcement.evmAddress),
    ("binding_proof_hash", option quote announcement.bindingProofHash), ("anonymous_membership_proof", "null")]

/-- The whole announcement, which leaves empty options out, but for the signatures. -/
def announcement (announcement : AgentAnnouncement .reference) : String :=
  object ([("peer_id", quote announcement.peerId), ("did", quote announcement.did), ("name", quote announcement.name),
    ("description", quote announcement.description), ("capabilities", array (announcement.capabilities.map capability))] ++
    (if announcement.capabilitySpecs.isEmpty then []
      else [("capability_specs", array (announcement.capabilitySpecs.map spec))]) ++
    [("multiaddrs", array (announcement.multiaddrs.map quote)), ("protocols", array (announcement.protocols.map quote)),
      ("version", quote announcement.version), ("timestamp", toString announcement.timestamp.toNat),
      ("ttl", toString announcement.ttl.toNat)] ++
    (announcement.didDocument.toList.map fun document => ("did_document", didDocument document)) ++
    (announcement.evmAddress.toList.map fun address => ("evm_address", quote address)) ++
    (announcement.bindingProofHash.toList.map fun hash => ("binding_proof_hash", quote hash)) ++
    [("ed25519_signature", option bytes announcement.ed25519Signature),
      ("mldsa65_signature", option bytes announcement.mldsa65Signature)])

end Json

/-- JSON without escapes, for announcements without a membership proof; of the messages, those that say one of the given
announcements. -/
def Wire.reference (announcements : List (AgentAnnouncement .reference)) : Wire .reference where
  did := .reference
  spec := {
    constraintToString := fun constraint => .ok (Json.constraint constraint)
    canonicalToVec := fun domain inputTypes outputTypes constraints => .ok (utf8 (Json.object [
      ("constraints", Json.array (constraints.map Json.quote)), ("domain", Json.domain domain),
      ("input_types", Json.array (inputTypes.map Json.typeSpec)),
      ("output_types", Json.array (outputTypes.map Json.typeSpec))])) }
  attestationToVec payload := .ok (utf8 (Json.object (Json.attestationPayload payload)))
  payloadToVec payload := .ok (utf8 (Json.payload payload))
  announcementFromSlice bytes :=
    match announcements.find? fun announcement => utf8 (Json.announcement announcement) = bytes with
    | some announcement => .ok announcement
    | none => .error "expected value at line 1 column 1"
  field := 7
  credentialKeys := .error "credential keys unavailable"

end AgentHalo.Discovery
