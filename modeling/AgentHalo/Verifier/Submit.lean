import AgentHalo.Pod.Authenticity
import AgentHalo.Verifier.Signing

/-!
# Submitting a certificate

A node takes a certificate in if it passes the checker, if its signature is valid where it has one, if the signer that it
names is the node itself, and if it meets the requirements of the gate for the theorems that it has. The name, the key and
the signature are three lines of metadata, and nothing compares the key with the name: a certificate that names the node is
signed by the node exactly if the key that it names is the node's (`signedBy_iff`).
-/

namespace AgentHalo.Verifier

open Outcome
open Pod (DidCodec DIDIdentity Unforgeable decodeDocumentEd25519Public multicodecEd25519Pub)
open Text (utf8 toArray)

/-! ### The gate -/

/-- What a requirement asks of a certificate. -/
structure ProofRequirement where
  requiredTheorem : String
  expectedStatementHash : Option String
  expectedCommitHash : Option String
  requireSignature : Bool
  minTrustTier : Option TrustTier
deriving DecidableEq

structure RequirementCheck where
  theoremName : String
  found : Bool
  verified : Bool
  trustTier : Option TrustTier
  statementHashMatch : Option Bool
  commitHashMatch : Option Bool
  signatureValid : Option Bool
  certificatePath : Option String
  error : Option String
deriving DecidableEq

/-- The requirements in the order in which the map is walked. -/
structure ProofGateConfig where
  certificateDir : String
  requirements : List (String × List ProofRequirement)

def ProofGateConfig.requirementsForTool (gate : ProofGateConfig) : Option String → List ProofRequirement
  | some name => (gate.requirements.lookup name).getD []
  | none => gate.requirements.flatMap (·.2)

def trustTierMeets (actual : TrustTier) : TrustTier → Bool
  | .standard => actual = .standard
  | .cryptoExtended => actual = .standard ∨ actual = .cryptoExtended
  | .legacy => actual ≠ .untrusted
  | .untrusted => true

def hasTheorem (result : VerificationResult) (theoremName : String) : Bool := result.theoremNames.any (· == theoremName)

def requirementCheckFromVerification (path : String) (result : VerificationResult) (req : ProofRequirement) :
    RequirementCheck :=
  let statementHashMatch := req.expectedStatementHash.map fun expected =>
    (result.metadata.theoremStatementSha256.map (· == expected)).getD false
  let commitHashMatch := req.expectedCommitHash.map fun expected =>
    (result.metadata.commitHash.map (· == expected)).getD false
  let signatureValid := result.metadata.signatureValid
  let statementOk := statementHashMatch.getD true
  let commitOk := commitHashMatch.getD true
  let signatureOk := if req.requireSignature then signatureValid.getD false else signatureValid.getD true
  let tierOk := (req.minTrustTier.map (trustTierMeets result.trustTier)).getD true
  let verified := result.allChecked && result.axiomsTrusted && statementOk && commitOk && signatureOk && tierOk
  let error :=
    if verified then none
    else if !result.allChecked then some "certificate parse/metadata checks failed"
    else if !result.axiomsTrusted then some "untrusted axioms used"
    else if !statementOk then some "theorem statement hash mismatch"
    else if !commitOk then some "certificate commit hash mismatch"
    else if !signatureOk then some "certificate signature missing or invalid"
    else if !tierOk then some "certificate trust tier does not satisfy requirement"
    else some "unknown gate verification failure"
  { theoremName := req.requiredTheorem
    found := true
    verified
    trustTier := some result.trustTier
    statementHashMatch
    commitHashMatch
    signatureValid
    certificatePath := some path
    error }

/-! ### The submission -/

variable {P : Platform}

/-- The node: the identity of its genesis seed, and the gate's configuration as it is loaded. -/
structure Node (P : Platform) where
  localIdentity : Option (DIDIdentity P)
  loadGateConfig : Except String ProofGateConfig

/-- A certificate file, and what becomes of it: its path, its last component, whether it is there, what reading gives, and
what making a directory and copying to a path give. -/
structure CertificateFile where
  path : String
  fileName : Option String
  pathExists : Bool
  read : Except String String
  createDirAll : String → Except String Unit
  copyTo : String → Except String Unit

def join (dir base : String) : String :=
  if dir = "" then base else if dir.toList.getLast? = some '/' then dir ++ base else dir ++ "/" ++ base

/-- The checks of the certificate itself, in the order in which they are made. -/
def checkCertificate (node : Node P) (path : String) (verification : VerificationResult) : Except String Unit := do
  require verification.allChecked
    ("certificate " ++ path ++ " failed metadata checks: " ++ String.intercalate "; " verification.errors)
  require (!((verification.metadata.signatureEd25519.isSome || verification.metadata.signingKeyMultibase.isSome) &&
      verification.metadata.signatureValid != some true))
    ("certificate " ++ path ++ " has invalid Ed25519 signature metadata")
  match verification.metadata.signingDid, node.localIdentity.map (·.did) with
  | some certDid, some localDid =>
    require (certDid == localDid)
      ("certificate signer DID mismatch: cert `" ++ certDid ++ "` != local `" ++ localDid ++ "`")
  | _, _ => return

/-- One round over the requirements of the gate. -/
def checkRequirement (path : String) (verification : VerificationResult) (req : ProofRequirement) : Except String Unit :=
  let check := requirementCheckFromVerification path verification req
  require check.verified ("certificate " ++ path ++ " failed proof requirement `" ++ req.requiredTheorem ++ "`: " ++
    check.error.getD "unknown gate verification failure")

def submitCertificate (C : DidCodec P) (B : Base64) (node : Node P) (file : CertificateFile) : Except String String := do
  require file.pathExists ("certificate " ++ file.path ++ " does not exist")
  let verification ← verifyExport C B file.path file.read
  checkCertificate node file.path verification
  let gate ← node.loadGateConfig
  ((gate.requirementsForTool none).filter fun req => hasTheorem verification req.requiredTheorem).forM
    (checkRequirement file.path verification)
  (file.createDirAll gate.certificateDir).mapError (("create proof certificate dir " ++ gate.certificateDir ++ ": ") ++ ·)
  let base := (file.fileName.filter fun s => Text.trim s != "").getD "certificate.lean4export"
  let dest := join gate.certificateDir base
  (file.copyTo dest).mapError (("copy certificate " ++ file.path ++ " -> " ++ dest ++ ": ") ++ ·)
  return dest

/-! ### The signature of an accepted certificate -/

section Provenance

variable {C : DidCodec P} {B : Base64} {madeBy : Vector UInt8 32 → Bytes → Vector UInt8 64 → Prop}

/-- The certificate carries a signature that is valid under the key and was made with its secret. -/
def CarriesSignature (C : DidCodec P) (B : Base64) (madeBy : Vector UInt8 32 → Bytes → Vector UInt8 64 → Prop)
    (scan : Scan) (key : Vector UInt8 32) : Prop :=
  ∃ vk sigB64 sigBytes signature, C.ed25519KeyFromBytes key = .ok vk ∧ scan.metadata.signatureEd25519 = some sigB64 ∧
    B.decode sigB64 = .ok sigBytes ∧ C.ed25519SignatureFromSlice sigBytes = .ok signature ∧
    P.ed25519.verify vk (utf8 scan.payload) signature = true ∧ madeBy key (utf8 scan.payload) signature

/-- The certificate carries a signature of the identity, under the key of its own document. -/
def SignedBy (C : DidCodec P) (B : Base64) (madeBy : Vector UInt8 32 → Bytes → Vector UInt8 64 → Prop)
    (identity : DIDIdentity P) (raw : String) : Prop :=
  ∃ key, decodeDocumentEd25519Public C identity.didDocument = .ok key ∧ CarriesSignature C B madeBy (scanText raw) key

/-- The certificate names a key, which is this one. -/
def NamesKey (C : DidCodec P) (scan : Scan) (key : Vector UInt8 32) : Prop :=
  ∃ keyMb decoded, scan.metadata.signingKeyMultibase = some keyMb ∧
    Pod.decodeMultibaseKey C keyMb multicodecEd25519Pub = .ok decoded ∧ toArray 32 decoded = some key

variable {vk : P.ed25519.VerifyingKey} {node : Node P}

theorem decodeEd25519VerifyingKey_ok {keyMb : String} (h : decodeEd25519VerifyingKey C keyMb = .ok vk) :
    ∃ decoded key, Pod.decodeMultibaseKey C keyMb multicodecEd25519Pub = .ok decoded ∧ toArray 32 decoded = some key ∧
      C.ed25519KeyFromBytes key = .ok vk := by
  unfold decodeEd25519VerifyingKey at h
  simp only [bind, bind_eq_ok, mapError_eq_ok, require_eq_ok, okOr_eq_ok] at h
  obtain ⟨bytes, hbytes, _, hpre, key, hkey, hvk⟩ := h
  refine ⟨_, key, ?_, hkey, hvk⟩
  have hlength := (List.isPrefixOf_iff_prefix.mp hpre).length_le
  rw [Pod.decodeMultibaseKey, hbytes]
  simp [hpre, Nat.not_lt.mpr hlength]

theorem checkSignature_valid {sigB64 payload : String} (h : (checkSignature C B vk sigB64 payload).1 = true) :
    ∃ sigBytes signature, B.decode sigB64 = .ok sigBytes ∧ C.ed25519SignatureFromSlice sigBytes = .ok signature ∧
      P.ed25519.verify vk (utf8 payload) signature = true := by
  unfold checkSignature at h
  split at h
  · cases h
  · rename_i sigBytes hbytes
    split_ifs at h
    split at h
    · cases h
    · rename_i signature hsignature
      exact ⟨sigBytes, signature, hbytes, hsignature, h⟩

theorem checkCertificate_result {path : String} {scan : Scan} (h : checkCertificate node path (scan.result C B) = .ok ()) :
    (scan.metadata.signatureEd25519 = none ∧ scan.metadata.signingKeyMultibase = none) ∨
    ∃ sigB64 keyMb vk, scan.metadata.signatureEd25519 = some sigB64 ∧ scan.metadata.signingKeyMultibase = some keyMb ∧
      decodeEd25519VerifyingKey C keyMb = .ok vk ∧ (checkSignature C B vk sigB64 scan.payload).1 = true := by
  unfold checkCertificate at h
  simp only [bind, bind_eq_ok, require_eq_ok] at h
  obtain ⟨_, hchecked, _, hvalid, -⟩ := h
  cases hsig : scan.metadata.signatureEd25519 with
  | none =>
    cases hkey : scan.metadata.signingKeyMultibase with
    | none => exact .inl ⟨rfl, rfl⟩
    | some keyMb => simp [Scan.result, Scan.conclude, hsig, hkey] at hvalid
  | some sigB64 =>
    cases hkey : scan.metadata.signingKeyMultibase with
    | none => simp [Scan.result, Scan.conclude, hsig, hkey] at hvalid
    | some keyMb =>
      cases hdecode : decodeEd25519VerifyingKey C keyMb with
      | error e => simp [Scan.result, Scan.abort, hsig, hkey, hdecode] at hchecked
      | ok vk =>
        refine .inr ⟨sigB64, keyMb, vk, rfl, rfl, hdecode, ?_⟩
        simpa [Scan.result, Scan.conclude, hsig, hkey, hdecode] using hvalid

theorem submitCertificate_ok {file : CertificateFile} {raw dest : String} (hread : file.read = .ok raw)
    (h : submitCertificate C B node file = .ok dest) :
    checkCertificate node file.path ((scanText raw).result C B) = .ok () := by
  unfold submitCertificate verifyExport at h
  simp only [bind, bind_eq_ok, hread] at h
  obtain ⟨_, -, verification, ⟨raw', hraw, hverification⟩, _, hcheck, -⟩ := h
  obtain rfl := Except.ok.inj hraw
  obtain rfl := Except.ok.inj hverification
  exact hcheck

/-- **Who signed an accepted certificate**: whatever node accepts it and whatever signer it names, it is signed by an identity,
the node's own for one, exactly if the key that it names is the key of the identity's document. -/
theorem signedBy_iff (hunforgeable : Unforgeable C madeBy) {node : Node P} {file : CertificateFile} {raw dest : String}
    (hread : file.read = .ok raw) (haccepted : submitCertificate C B node file = .ok dest) (identity : DIDIdentity P) :
    SignedBy C B madeBy identity raw ↔
      ∃ key, decodeDocumentEd25519Public C identity.didDocument = .ok key ∧ NamesKey C (scanText raw) key := by
  have hchecks := checkCertificate_result (submitCertificate_ok hread haccepted)
  constructor
  · rintro ⟨key, hdocument, vk, sigB64, sigBytes, signature, -, hsig, hbytes, hsignature, -, hmade⟩
    refine ⟨key, hdocument, ?_⟩
    obtain ⟨hnone, -⟩ | ⟨sigB64', keyMb, vk', hsig', hkeyMb, hdecode, hvalid⟩ := hchecks
    · rw [hsig] at hnone
      cases hnone
    · obtain rfl := Option.some.inj (hsig.symm.trans hsig')
      obtain ⟨sigBytes', signature', hbytes', hsignature', hverify⟩ := checkSignature_valid hvalid
      obtain rfl := Except.ok.inj (hbytes.symm.trans hbytes')
      obtain rfl := Except.ok.inj (hsignature.symm.trans hsignature')
      obtain ⟨decoded, key', hdecoded, hkey', hvk⟩ := decodeEd25519VerifyingKey_ok hdecode
      -- the signature has one maker only
      obtain rfl := hunforgeable.unique key key' _ _ hmade (hunforgeable.made key' vk' _ _ hvk hverify)
      exact ⟨keyMb, decoded, hkeyMb, hdecoded, hkey'⟩
  · rintro ⟨key, hdocument, keyMb, decoded, hkeyMb, hdecoded, hkey⟩
    obtain ⟨-, hnone⟩ | ⟨sigB64, keyMb', vk, hsig, hkeyMb', hdecode, hvalid⟩ := hchecks
    · rw [hkeyMb] at hnone
      cases hnone
    · obtain rfl := Option.some.inj (hkeyMb.symm.trans hkeyMb')
      obtain ⟨decoded', key', hdecoded', hkey', hvk⟩ := decodeEd25519VerifyingKey_ok hdecode
      obtain rfl := Except.ok.inj (hdecoded.symm.trans hdecoded')
      obtain rfl := Option.some.inj (hkey.symm.trans hkey')
      obtain ⟨sigBytes, signature, hbytes, hsignature, hverify⟩ := checkSignature_valid hvalid
      exact ⟨key, hdocument, vk, sigB64, sigBytes, signature, hvk, hsig, hbytes, hsignature, hverify,
        hunforgeable.made key vk _ _ hvk hverify⟩

theorem checkCertificate_signed (hC : C.Lawful) (hB : B.Lawful) (hprint : Printable C) {identity : DIDIdentity P}
    (hid : identity.WellFormed C) (hE : P.ed25519.Correct) (hlocal : node.localIdentity = some identity)
    {body signed : String} (hsigned : signCertificateText B body identity = .ok signed)
    (hlines : (scanText body).signableLines = bodyLines body) (herrors : (scanText body).errors = []) (path : String) :
    checkCertificate node path ((scanText signed).result C B) = .ok () ∧
      (scanText signed).metadata.signingKeyMultibase = some (keyMultibase C identity) := by
  have hdid := word_did hprint hid
  have hsig : Word (B.encode (P.ed25519.sign identity.ed25519SigningKey
      (utf8 (signedPayload body identity.did (keyMultibase C identity)))).toList) :=
    hB.word _ (List.ne_nil_of_length_pos (by simp))
  have hscan := @scanText_signed body _ _ _ hdid (word_keyMultibase hprint identity) hsig
  rw [← signCertificateText_eq_ok hid hsigned] at hscan
  have hpayload : (scanText signed).payload = signedPayload body identity.did (keyMultibase C identity) := by
    rw [hscan]
    exact (payload_eq_iff hdid (word_keyMultibase hprint identity)).mpr hlines
  have hkeyMb : (scanText signed).metadata.signingKeyMultibase = some (keyMultibase C identity) := by rw [hscan]
  have hsigB64 : (scanText signed).metadata.signatureEd25519 = some (B.encode (P.ed25519.sign
      identity.ed25519SigningKey (utf8 (signedPayload body identity.did (keyMultibase C identity)))).toList) := by rw [hscan]
  have hsigningDid : (scanText signed).metadata.signingDid = some identity.did := by rw [hscan]
  have hnone : (scanText signed).errors = [] := by rw [hscan, ← herrors]
  refine ⟨?_, hkeyMb⟩
  unfold checkCertificate Scan.result
  rw [hkeyMb, hsigB64]
  simp only [decodeEd25519VerifyingKey_keyMultibase hC, checkSignature_sign hC hB, hpayload, hE.verify_sign, hnone]
  simp [Scan.conclude, hsigningDid, hlocal, require, bind, Except.bind]

end Provenance

/-! ### With a signature and without -/

def nodeKey : Vector UInt8 32 := Vector.replicate 32 1

def nodeIdentity : DIDIdentity .reference :=
  Pod.referenceIdentity (Pod.didFromEd25519PublicKey .reference nodeKey) nodeKey

def openNode : Node .reference := ⟨some nodeIdentity, .ok ⟨"certs", []⟩⟩

def certificateFile (raw : String) : CertificateFile where
  path := "c.lean4export"
  fileName := some "c.lean4export"
  pathExists := true
  read := .ok raw
  createDirAll _ := .ok ()
  copyTo _ := .ok ()

def unsignedText : String := "#THM T\n#META signing_did " ++ nodeIdentity.did ++ "\n"

/-- It is accepted in the name of the node, and nobody has signed it. -/
theorem unsigned_accepted : nodeIdentity.WellFormed .reference ∧ openNode.localIdentity = some nodeIdentity ∧
    submitCertificate .reference hexText openNode (certificateFile unsignedText) = .ok "certs/c.lean4export" ∧
    (scanText unsignedText).metadata.signingDid = some nodeIdentity.did ∧
    Unforgeable .reference Pod.referenceMadeBy ∧
    ¬ SignedBy .reference hexText Pod.referenceMadeBy nodeIdentity unsignedText := by
  refine ⟨⟨rfl, Pod.referenceIdentity_ownDocument _ _⟩, rfl, by decide, by decide,
    Pod.referenceMadeBy_unforgeable, ?_⟩
  rintro ⟨key, -, vk, sigB64, sigBytes, signature, -, hsig, -⟩
  have hnone : (scanText unsignedText).metadata.signatureEd25519 = none := by decide
  rw [hnone] at hsig
  cases hsig

/-- A theorem, as the node signs it. -/
theorem signed_by_node : ∃ signed dest, signCertificateText hexText "#THM T\n" nodeIdentity = .ok signed ∧
    submitCertificate .reference hexText openNode (certificateFile signed) = .ok dest ∧
    SignedBy .reference hexText Pod.referenceMadeBy nodeIdentity signed := by
  have hid : nodeIdentity.WellFormed .reference := ⟨rfl, Pod.referenceIdentity_ownDocument _ _⟩
  have hprint : Printable Pod.DidCodec.reference := fun payload => lengthCodec_printable payload
  obtain ⟨signed, hsigned⟩ : ∃ signed, signCertificateText hexText "#THM T\n" nodeIdentity = .ok signed := by
    have hok : (signCertificateText hexText "#THM T\n" nodeIdentity).isOk = true := by decide
    cases hsign : signCertificateText hexText "#THM T\n" nodeIdentity with
    | error e =>
      rw [hsign] at hok
      cases hok
    | ok signed => exact ⟨signed, rfl⟩
  have hlocal : openNode.localIdentity = some nodeIdentity := rfl
  obtain ⟨hchecks, hkeyMb⟩ := checkCertificate_signed Pod.DidCodec.reference_lawful hexText_lawful hprint hid
    Reference.ed25519_correct hlocal hsigned (by decide) (by decide) "c.lean4export"
  have hgate : openNode.loadGateConfig = .ok ⟨"certs", []⟩ := rfl
  have haccepted : submitCertificate .reference hexText openNode (certificateFile signed) =
      .ok (join "certs" "c.lean4export") := by
    simp [submitCertificate, verifyExport, certificateFile, hchecks, hgate, ProofGateConfig.requirementsForTool, require,
      bind, Except.bind, Except.mapError, pure, Except.pure]
    exact congrArg (join "certs") (by decide)
  have hread : (certificateFile signed).read = .ok signed := rfl
  exact ⟨signed, _, hsigned, haccepted, (signedBy_iff Pod.referenceMadeBy_unforgeable hread haccepted nodeIdentity).mpr
    ⟨_, hid.document.decodeDocument Pod.DidCodec.reference_lawful, _, _, hkeyMb,
      Pod.decodeMultibaseKey_encode Pod.DidCodec.reference_lawful _ _, Text.toArray_toList _⟩⟩

end AgentHalo.Verifier
