import AgentHalo.Credential.Proof

/-!
# Issuing a credential

A request brings a bundle and, beside it, the resource and the action that the issued credential will name. The handler
checks that the bundle verifies and that the two texts are not blank. It compares nothing in the bundle with the sender,
the resource, the action or the clock: any of them goes with any bundle that verifies.
-/

namespace AgentHalo.Credential

open Outcome Text
open Pod (AccessGrant GrantPermissions keyPatternMatches)

inductive JsonValue where
  | null
  | bool (value : Bool)
  | number (text : String)
  | string (text : String)
  | array (items : List JsonValue)
  | object (fields : List (String × JsonValue))

inductive AttachmentData where
  | json (value : JsonValue)
  | base64 (text : String)
  | links (links : List String)

structure DIDCommAttachment where
  id : String
  mediaType : String
  data : AttachmentData

structure DIDCommMessage where
  id : String
  type : String
  sender : Option String
  recipients : List String
  createdTime : Option UInt64
  expiresTime : Option UInt64
  body : JsonValue
  attachments : Option (List DIDCommAttachment)

structure DIDCommCredentialAttachment where
  proofBundle : CredentialProofBundle
  resourceUri : String
  requestedAction : String
deriving DecidableEq

/-- The derived conversions of a credential attachment. -/
structure AttachmentCodec where
  fromValue : JsonValue → Except String DIDCommCredentialAttachment
  toValue : DIDCommCredentialAttachment → Except String JsonValue

def credentialIssueType : String := "https://agenthalo.dev/didcomm/credential-issue/1.0"
def errorType : String := "https://agenthalo.dev/didcomm/error/1.0"
def credentialAttachmentMediaType : String := "application/agenthalo.credential-proof+json"

/-- `DIDCommMessage::new`, with the id and the time that it takes. -/
def DIDCommMessage.new (id : String) (now : UInt64) (type : String) (sender : Option String)
    (recipients : List String) (body : JsonValue) : DIDCommMessage where
  id
  type
  sender
  recipients
  createdTime := some now
  expiresTime := none
  body
  attachments := none

def DIDCommMessage.withAttachment (message : DIDCommMessage) (attachment : DIDCommAttachment) : DIDCommMessage :=
  { message with attachments := some (message.attachments.getD [] ++ [attachment]) }

/-- The permissions that an action names. -/
def requestedPermissions (action : String) : Except String GrantPermissions :=
  match toAsciiLowercase (trim action) with
  | "read" => .ok ⟨true, false, false, false⟩
  | "write" => .ok ⟨false, true, false, false⟩
  | "append" => .ok ⟨false, false, true, false⟩
  | "control" => .ok ⟨false, false, false, true⟩
  | other => .error ("unsupported requested_action " ++ "`" ++ other ++ "` (expected read|write|append|control)")

/-- The first attachment of the media type. -/
def extractCredentialAttachment (C : AttachmentCodec) (message : DIDCommMessage) :
    Except String DIDCommCredentialAttachment := do
  let attachment ← okOr "credential request missing credential proof attachment"
    (message.attachments.bind fun items => items.find? fun item => item.mediaType == credentialAttachmentMediaType)
  match attachment.data with
  | .json value => (C.fromValue value).mapError ("parse credential attachment: " ++ ·)
  | _ => .error "credential proof attachment must use JSON payload"

def validateCredentialAttachmentForRequest (attachment : DIDCommCredentialAttachment) : Except String Unit := do
  require (attachment.proofBundle.schemaVersion == 2)
    ("unsupported credential proof schema " ++ "`" ++ toString attachment.proofBundle.schemaVersion ++ "` (expected 2)")
  require (trim attachment.resourceUri != "") "credential attachment missing resource_uri"
  require (trim attachment.requestedAction != "") "credential attachment missing requested_action"

def buildCredentialAttachment (C : AttachmentCodec) (attachment : DIDCommCredentialAttachment) :
    Except String DIDCommAttachment := do
  let payload ← (C.toValue attachment).mapError ("serialize credential attachment: " ++ ·)
  return { id := "credential-proof-1", mediaType := credentialAttachmentMediaType, data := .json payload }

def issueBody (replyTo resourceUri requestedAction : String) : JsonValue :=
  .object [("reply_to", .string replyTo), ("status", .string "issued"), ("verified", .bool true),
    ("resource_uri", .string resourceUri), ("requested_action", .string requestedAction)]

/-- The issued credential without its attachment. -/
def issueMessage (id : String) (now : UInt64) (message : DIDCommMessage) (attachment : DIDCommCredentialAttachment) :
    DIDCommMessage :=
  .new id now credentialIssueType none message.sender.toList
    (issueBody message.id attachment.resourceUri attachment.requestedAction)

/-- `setup` is the answer of setting up the keys; `id` and `now` are for the message that is made. -/
def handleCredentialRequest {p : Nat} (C : AttachmentCodec) (setup : Except String Unit) (G : Groth16 p) (id : String)
    (now : UInt64) (message : DIDCommMessage) : Except String DIDCommMessage := do
  let attachment ← extractCredentialAttachment C message
  validateCredentialAttachmentForRequest attachment
  setup
  let verified ← verifyCredentialProof G attachment.proofBundle
  require verified "credential proof verification failed"
  let built ← buildCredentialAttachment C attachment
  return (issueMessage id now message attachment).withAttachment built

/-- What the handler that is registered for credential requests answers. -/
def answerCredentialRequest {p : Nat} (C : AttachmentCodec) (setup : Except String Unit) (G : Groth16 p) (id : String)
    (now : UInt64) (message : DIDCommMessage) : DIDCommMessage :=
  match handleCredentialRequest C setup G id now message with
  | .ok response => response
  | .error error => .new id now errorType none [] (.object [("error", .string error)])

/-! ### What is issued -/

section Issued

variable {p : Nat} {C : AttachmentCodec} {setup : Except String Unit} {G : Groth16 p} {id : String} {now : UInt64}
  {message response : DIDCommMessage} {attachment : DIDCommCredentialAttachment}

/-- The attachment passes the checks on it: the bundle verifies, and the texts beside it are not blank. -/
structure Acceptable (G : Groth16 p) (attachment : DIDCommCredentialAttachment) : Prop where
  verified : verifyCredentialProof G attachment.proofBundle = .ok true
  resource : trim attachment.resourceUri ≠ ""
  action : trim attachment.requestedAction ≠ ""

theorem handleCredentialRequest_eq_ok : handleCredentialRequest C setup G id now message = .ok response ↔
    ∃ attachment payload, extractCredentialAttachment C message = .ok attachment ∧ setup = .ok () ∧
      Acceptable G attachment ∧ C.toValue attachment = .ok payload ∧
      response = (issueMessage id now message attachment).withAttachment
        { id := "credential-proof-1", mediaType := credentialAttachmentMediaType, data := .json payload } := by
  unfold handleCredentialRequest validateCredentialAttachmentForRequest buildCredentialAttachment
  simp only [bind, pure, Except.pure, bind_eq_ok, require_eq_ok, mapError_eq_ok, Except.ok.injEq, bne_iff_ne, beq_iff_eq]
  constructor
  · rintro ⟨attachment, hextract, -, ⟨-, -, -, hresource, haction⟩, u, hsetup, verified, hverified, -, htrue, built,
      ⟨payload, hpayload, rfl⟩, rfl⟩
    exact ⟨attachment, payload, hextract, hsetup, ⟨htrue ▸ hverified, hresource, haction⟩, hpayload, rfl⟩
  · rintro ⟨attachment, payload, hextract, hsetup, hacceptable, hpayload, rfl⟩
    have hschema : attachment.proofBundle.schemaVersion = 2 := by
      obtain ⟨_, _, _, _, _, hreads, -⟩ := verifyCredentialProof_eq_true.mp hacceptable.verified
      exact hreads.schema
    exact ⟨attachment, hextract, (), ⟨(), hschema, (), hacceptable.resource, hacceptable.action⟩, (), hsetup, true,
      hacceptable.verified, (), rfl, _, ⟨payload, hpayload, rfl⟩, rfl⟩

/-- A credential is issued exactly if the attachment of the request passes the checks on it. It names the resource and the
action of the attachment and goes to the sender; what a sound proof system adds is a grant for what the bundle carries. -/
theorem issued_iff_acceptable {P : Platform} (hsound : G.Sound P) :
    (answerCredentialRequest C setup G id now message).type = credentialIssueType ↔
      ∃ attachment payload grant granteeDid, extractCredentialAttachment C message = .ok attachment ∧ setup = .ok () ∧
        Acceptable G attachment ∧ Covers P attachment.proofBundle grant granteeDid ∧
        C.toValue attachment = .ok payload ∧
        answerCredentialRequest C setup G id now message = (issueMessage id now message attachment).withAttachment
          { id := "credential-proof-1", mediaType := credentialAttachmentMediaType, data := .json payload } := by
  unfold answerCredentialRequest
  cases hanswer : handleCredentialRequest C setup G id now message with
  | ok response =>
    obtain ⟨attachment, payload, hextract, hsetup, hacceptable, hpayload, hresponse⟩ :=
      handleCredentialRequest_eq_ok.mp hanswer
    obtain ⟨grant, granteeDid, hcovers⟩ := hsound _ hacceptable.verified
    refine iff_of_true ?_ ⟨attachment, payload, grant, granteeDid, hextract, hsetup, hacceptable, hcovers, hpayload,
      hresponse⟩
    rw [hresponse]
    rfl
  | error error =>
    have hne : errorType ≠ credentialIssueType := by decide
    refine iff_of_false hne ?_
    rintro ⟨attachment, payload, grant, granteeDid, -, -, -, -, -, hresponse⟩
    exact hne (congrArg (·.type) hresponse)

/-- What would tie an issued credential to its request: the bundle is about the sender, a pattern for the resource, the
action and the time of the verifier. -/
structure BoundToRequest (P : Platform) (now : UInt64) (message : DIDCommMessage)
    (attachment : DIDCommCredentialAttachment) : Prop where
  grantee : ∃ sender, message.sender = some sender ∧
    hexDecode32 attachment.proofBundle.granteeDidHash = .ok (digestBytes P credentialDidHashDomain (utf8 sender))
  resource : ∃ pattern, keyPatternMatches pattern attachment.resourceUri = true ∧
    hexDecode32 attachment.proofBundle.keyPatternHash = .ok (digestBytes P credentialKeyHashDomain (utf8 pattern))
  action : ∃ requested flags, requestedPermissions attachment.requestedAction = .ok requested ∧
    flagsToPermissions attachment.proofBundle.permissionFlags = .ok flags ∧ permissionsSubset requested flags = true
  time : attachment.proofBundle.currentTime = now

end Issued

/-! ### A bundle of somebody else -/

section Borrowed

namespace JsonValue

def field (name : String) : JsonValue → Except String JsonValue
  | object fields => okOr ("missing field " ++ name) (fields.lookup name)
  | _ => .error "invalid type"

def asString : JsonValue → Except String String
  | string text => .ok text
  | _ => .error "invalid type"

def asU64 : JsonValue → Except String UInt64
  | number text => okOr "invalid value" (parseU64 text)
  | _ => .error "invalid type"

end JsonValue

/-- Attachments as objects with their fields. -/
def objectCodec : AttachmentCodec where
  fromValue value := do
    let bundle ← value.field "proof_bundle"
    let proofHex ← (← bundle.field "proof_hex").asString
    let granteeDidHash ← (← bundle.field "grantee_did_hash").asString
    let keyPatternHash ← (← bundle.field "key_pattern_hash").asString
    let permissionFlags ← (← bundle.field "permission_flags").asU64
    let currentTime ← (← bundle.field "current_time").asU64
    let schemaVersion ← (← bundle.field "schema_version").asU64
    let resourceUri ← (← value.field "resource_uri").asString
    let requestedAction ← (← value.field "requested_action").asString
    return ⟨⟨proofHex, granteeDidHash, keyPatternHash, permissionFlags.toUInt8, currentTime, schemaVersion.toUInt32⟩,
      resourceUri, requestedAction⟩
  toValue attachment := .ok <| .object
    [("proof_bundle", .object
        [("proof_hex", .string attachment.proofBundle.proofHex),
          ("grantee_did_hash", .string attachment.proofBundle.granteeDidHash),
          ("key_pattern_hash", .string attachment.proofBundle.keyPatternHash),
          ("permission_flags", .number (toString attachment.proofBundle.permissionFlags)),
          ("current_time", .number (toString attachment.proofBundle.currentTime)),
          ("schema_version", .number (toString attachment.proofBundle.schemaVersion))]),
      ("resource_uri", .string attachment.resourceUri),
      ("requested_action", .string attachment.requestedAction)]

def sampleGrant : AccessGrant where
  grantId := computeId .reference (Vector.replicate 32 1) (Vector.replicate 32 2) "results/*" 3 7
  grantorPuf := Vector.replicate 32 1
  granteePuf := Vector.replicate 32 2
  keyPattern := "results/*"
  permissions := ⟨true, false, false, false⟩
  expiresAt := some 9
  createdAt := 3
  nonce := 7
  revoked := false

def sampleDidHash : NodeHash := digestBytes .reference credentialDidHashDomain (utf8 "did:key:holder")

def sampleKeyHash : NodeHash := digestBytes .reference credentialKeyHashDomain (utf8 "results/*")

def sampleBundle : CredentialProofBundle where
  proofHex := "00"
  granteeDidHash := hexEncode sampleDidHash.toList
  keyPatternHash := hexEncode sampleKeyHash.toList
  permissionFlags := 1
  currentTime := 5
  schemaVersion := 2

/-- A proof system in which proofs are accepted for the inputs of the bundle only. -/
def sampleGroth16 (p : Nat) : Groth16 p where
  Proof := Unit
  deserializeCompressed _ := .ok ()
  verifyWithProcessedVk inputs _ :=
    .ok (inputs == publicInputs p sampleDidHash sampleKeyHash ⟨true, false, false, false⟩ 5)

theorem validate_sampleGrant :
    validateGrantForProof .reference sampleGrant ⟨true, false, false, false⟩ 5 = .ok () := by
  unfold validateGrantForProof
  simp [sampleGrant, require, bind, Except.bind, permissionsSubset]

theorem sampleGroth16_sound {p : Nat} (hp : 2 ^ 130 < p) : (sampleGroth16 p).Sound .reference := by
  intro bundle hverified
  obtain ⟨granteeHash, keyHash, requested, _, _, hreads, _, _, haccepted⟩ := verifyCredentialProof_eq_true.mp hverified
  have hinputs : publicInputs p granteeHash keyHash requested bundle.currentTime =
      publicInputs p sampleDidHash sampleKeyHash ⟨true, false, false, false⟩ 5 := beq_iff_eq.mp (Except.ok.inj haccepted)
  obtain ⟨rfl, rfl, rfl, htime⟩ := publicInputs_inj hp hinputs
  refine ⟨sampleGrant, "did:key:holder", hreads.grantee, hreads.key, _, hreads.flags, ?_⟩
  rw [htime]
  exact validate_sampleGrant

/-- The bundle beside another resource and another action. -/
def borrowedAttachment : DIDCommCredentialAttachment := ⟨sampleBundle, "pod://vault/keys", "write"⟩

/-- A request of somebody else with the holder's bundle. -/
def borrowedRequest : DIDCommMessage where
  id := "m-1"
  type := "https://agenthalo.dev/didcomm/credential-request/1.0"
  sender := some "did:key:thief"
  recipients := ["did:key:issuer"]
  createdTime := some 1000
  expiresTime := none
  body := .null
  attachments := (objectCodec.toValue borrowedAttachment).toOption.map fun value =>
    [⟨"a-1", credentialAttachmentMediaType, .json value⟩]

theorem extract_borrowedRequest :
    extractCredentialAttachment objectCodec borrowedRequest = .ok borrowedAttachment := rfl

theorem acceptable_borrowedAttachment (p : Nat) : Acceptable (sampleGroth16 p) borrowedAttachment where
  verified := verifyCredentialProof_eq_true.mpr ⟨sampleDidHash, sampleKeyHash, ⟨true, false, false, false⟩, [0], (),
    ⟨rfl, hexDecode32_hexEncode _, hexDecode32_hexEncode _, rfl⟩, rfl, rfl, congrArg Except.ok (beq_self_eq_true _)⟩
  resource := by decide
  action := by decide

theorem issued_iff_acceptable_borrowed :
    (answerCredentialRequest objectCodec (.ok ()) (sampleGroth16 samplePrime) "m-2" 1000 borrowedRequest).type =
        credentialIssueType ↔
      ∃ attachment payload grant granteeDid,
        extractCredentialAttachment objectCodec borrowedRequest = .ok attachment ∧ Except.ok () = (.ok () : Except String Unit) ∧
        Acceptable (sampleGroth16 samplePrime) attachment ∧
        Covers .reference attachment.proofBundle grant granteeDid ∧
        objectCodec.toValue attachment = .ok payload ∧
        answerCredentialRequest objectCodec (.ok ()) (sampleGroth16 samplePrime) "m-2" 1000 borrowedRequest =
          (issueMessage "m-2" 1000 borrowedRequest attachment).withAttachment
            { id := "credential-proof-1", mediaType := credentialAttachmentMediaType, data := .json payload } :=
  issued_iff_acceptable (sampleGroth16_sound lt_samplePrime)

def borrowedAnswer : DIDCommMessage :=
  answerCredentialRequest objectCodec (.ok ()) (sampleGroth16 samplePrime) "m-2" 1000 borrowedRequest

/-- The thief is issued a credential to write to the vault on the holder's proof that it may read its results. -/
theorem borrowed_issued_not_bound :
    (sampleGroth16 samplePrime).Sound .reference ∧
      extractCredentialAttachment objectCodec borrowedRequest = .ok borrowedAttachment ∧
      borrowedAnswer.type = credentialIssueType ∧ borrowedAnswer.recipients = ["did:key:thief"] ∧
      borrowedAnswer.body = issueBody "m-1" "pod://vault/keys" "write" ∧
      ¬ BoundToRequest .reference 1000 borrowedRequest borrowedAttachment := by
  have hissued : ∃ built : DIDCommAttachment,
      handleCredentialRequest objectCodec (.ok ()) (sampleGroth16 samplePrime) "m-2" 1000 borrowedRequest =
        .ok ((issueMessage "m-2" 1000 borrowedRequest borrowedAttachment).withAttachment built) :=
    ⟨_, handleCredentialRequest_eq_ok.mpr
      ⟨borrowedAttachment, _, extract_borrowedRequest, rfl, acceptable_borrowedAttachment samplePrime, rfl, rfl⟩⟩
  obtain ⟨built, hbuilt⟩ := hissued
  have hanswer : borrowedAnswer = (issueMessage "m-2" 1000 borrowedRequest borrowedAttachment).withAttachment built := by
    unfold borrowedAnswer answerCredentialRequest
    rw [hbuilt]
  rw [hanswer]
  refine ⟨sampleGroth16_sound lt_samplePrime, extract_borrowedRequest, rfl, rfl, rfl, fun hbound => ?_⟩
  · obtain ⟨sender, hsender, hhash⟩ := hbound.grantee
    obtain rfl : "did:key:thief" = sender := Option.some.inj hsender
    have hdecoded : hexDecode32 borrowedAttachment.proofBundle.granteeDidHash = .ok sampleDidHash :=
      hexDecode32_hexEncode sampleDidHash
    rw [hdecoded] at hhash
    exact absurd (Except.ok.inj hhash) (by decide)

end Borrowed

end AgentHalo.Credential
