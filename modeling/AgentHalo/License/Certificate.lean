import AgentHalo.Base.Platform
import AgentHalo.Base.Scan
import AgentHalo.Lib.HashTree
import AgentHalo.Lib.Outcome

/-!
# License certificates

A certificate states a licensee, an expiry and features, and in its second version compliance inputs. It is accepted if
the commitments it carries are the hashes of what it states, its digest is the hash of the commitments, it has not
expired, its proof verifies if there is one, and the device has the fingerprint that the certificate asks for, if it asks
for one. The process environment and the clock are arguments; curve arithmetic is the record `Groth16`.
-/

namespace AgentHalo.License

open HashTree (root)
open Outcome
open Text (utf8 trim eqIgnoreAsciiCase stripPrefix toBeBytes hexNibble hexEncode)

inductive ProFeature where
  | multiTenant
  | mcpServer
  | tui
  | ipaBackend
  | kzgBackend
  | certificateTransparency
  | walReplay
  | export
  | batchSql
  | configurableQuorum
  | unlimitedEntries
deriving DecidableEq, Repr

/-- The feature that a string names; other strings are ignored. -/
def ProFeature.ofString : String → Option ProFeature
  | "multi_tenant" => some .multiTenant
  | "mcp_server" => some .mcpServer
  | "tui" => some .tui
  | "ipa_backend" => some .ipaBackend
  | "kzg_backend" => some .kzgBackend
  | "certificate_transparency" => some .certificateTransparency
  | "wal_replay" => some .walReplay
  | "export" => some .export
  | "batch_sql" => some .batchSql
  | "configurable_quorum" => some .configurableQuorum
  | "unlimited_entries" => some .unlimitedEntries
  | _ => none

inductive LicenseLevel where
  | community
  | pro (features : List ProFeature) (licensee : String) (expiryUnixSecs : UInt64)
deriving DecidableEq, Repr

structure SnarkProof where
  protocol : String
  curve : String
  piA : List String
  piB : List (List String)
  piC : List String
  publicSignals : List String
deriving DecidableEq, Repr

structure CompliancePublicInputs where
  feasibilityRoot : String
  replaySeq : UInt64
  pufDigest : Option String
deriving DecidableEq, Repr

structure LicenseCertificate where
  version : String
  foundationCommitment : String
  rulesRoot : String
  licenseeCommitment : String
  proofDigest : String
  licensee : String
  expiryUnixSecs : UInt64
  features : List String
  proofDigestPoseidon : Option String
  snarkProof : Option SnarkProof
  pufDigest : Option String
  complianceInputs : Option CompliancePublicInputs
  complianceCommitment : Option String
deriving DecidableEq, Repr

inductive LicenseError where
  | foundationMismatch
  | rulesRootMismatch
  | proofDigestMismatch
  | licenseeCommitmentMismatch
  | expired
  | unsupportedVersion (version : String)
  | emptyFeatures
  | snarkVerificationFailed
  | snarkPublicSignalMismatch
  | pufUnavailable
  | pufDigestMismatch
  | missingComplianceInputs
  | complianceInputMalformed
  | complianceCommitmentMismatch
deriving DecidableEq, Repr

/-! ### Hashes -/

def knownFoundation : NodeHash :=
  #v[0xde, 0xca, 0x4e, 0x53, 0xfb, 0x61, 0x34, 0xb0, 0x00, 0x70, 0x53, 0x41, 0xd5, 0xdb, 0x3d, 0xe0,
    0x23, 0xdc, 0xd8, 0xa9, 0x5e, 0x17, 0x4b, 0xce, 0x0c, 0x4e, 0x21, 0xbc, 0xab, 0x6e, 0x8c, 0xf9]

def knownFoundationPoseidon : String :=
  "10498408604190631903661670351841509167761295075626051572612706182854256519760"

def domainLicenseV1 : String := "NucleusDB.License|"

def domainLicenseV2 : String := "NucleusDB.License.v2|"

def domainCompliance : String := "NucleusDB.License.Compliance|"

def domainLicensee : String := "NucleusDB.Licensee|"

def hcatText (domain : String) (parts : List Bytes) : Bytes := utf8 domain ++ parts.flatten

def featureText (feature : String) : Bytes := 0x00 :: utf8 ("NucleusDB.License.Feature|" ++ feature)

def nodeText (left right : NodeHash) : Bytes := 0x01 :: (left.toList ++ right.toList)

variable (P : Platform)

def hcat (domain : String) (parts : List Bytes) : NodeHash := P.sha256 (hcatText domain parts)

def featureLeaf (feature : String) : NodeHash := P.sha256 (featureText feature)

def merkleNode (left right : NodeHash) : NodeHash := P.sha256 (nodeText left right)

def merkleRoot (leaves : List NodeHash) : NodeHash := (root (merkleNode P) leaves).getD (.replicate 32 0)

/-- `u8::from_str_radix` of two bytes to the base 16, which lets a digit have a plus sign. -/
def hexPair (hi lo : UInt8) : Option UInt8 :=
  if hi = 43 then hexNibble lo
  else do
    let h ← hexNibble hi
    let l ← hexNibble lo
    return (h <<< 4) ||| l

def hexPairs : Bytes → Option Bytes
  | hi :: lo :: rest => do
    let b ← hexPair hi lo
    let tail ← hexPairs rest
    return b :: tail
  | [] => some []
  | [_] => none

/-- Hex text of 32 bytes. A text with a character cut by a pair, on which the source panics, is none here. -/
def hexTo32 (hex : String) : Option NodeHash :=
  let s := utf8 ((stripPrefix hex "0x").getD hex)
  if s.length ≠ 64 then none else (hexPairs s).bind (Text.toArray 32)

def toHex (bytes : NodeHash) : String := "0x" ++ hexEncode bytes.toList

def isNullDigestSentinel (raw : String) : Bool :=
  let v := trim raw
  v.isEmpty || eqIgnoreAsciiCase v "none" || eqIgnoreAsciiCase v "null"

def compliancePuf : Option String → Except LicenseError NodeHash
  | some digest => do
    require (!isNullDigestSentinel digest) .complianceInputMalformed
    okOr .complianceInputMalformed (hexTo32 digest)
  | none => .ok (.replicate 32 0)

def complianceParts (inputs : CompliancePublicInputs) : Except LicenseError (List Bytes) := do
  let feasibility ← okOr .complianceInputMalformed (hexTo32 inputs.feasibilityRoot)
  let puf ← compliancePuf inputs.pufDigest
  return [feasibility.toList, toBeBytes inputs.replaySeq, [if inputs.pufDigest.isSome then 1 else 0], puf.toList]

def buildComplianceCommitment (inputs : CompliancePublicInputs) : Except LicenseError NodeHash := do
  let parts ← complianceParts inputs
  return hcat P domainCompliance parts

/-! ### The proof -/

/-- `ark-groth16` over BN254. Numbers are parsed into the scalar field and the base field of the curve, and `verify` is
the pairing check under the embedded key, `none` for its error. -/
structure Groth16 where
  parseFr : String → Option Nat
  parseFq : String → Option Nat
  verify : List Nat → Nat × Nat → (Nat × Nat) × (Nat × Nat) → Nat × Nat → Option Bool

variable (G : Groth16)

def parsePair (coords : List String) : Option (Nat × Nat) :=
  match coords with
  | x :: y :: _ => do
    let x ← G.parseFq x
    let y ← G.parseFq y
    return (x, y)
  | _ => none

def parseTwist (coords : List (List String)) : Option ((Nat × Nat) × (Nat × Nat)) :=
  match coords with
  | x :: y :: _ => do
    let x ← parsePair G x
    let y ← parsePair G y
    return (x, y)
  | _ => none

def verifySnarkProof (proof : SnarkProof) (expectedDigestPoseidon : Option String) : Except LicenseError Unit := do
  require (proof.protocol == "groth16" && proof.curve == "bn128") .snarkVerificationFailed
  match proof.publicSignals with
  | [foundation, digest] =>
    require (foundation == knownFoundationPoseidon) .snarkVerificationFailed
    require (expectedDigestPoseidon.all (digest == ·)) .snarkPublicSignalMismatch
  | _ => .error .snarkVerificationFailed
  let publicInputs ← okOr .snarkVerificationFailed (proof.publicSignals.mapM G.parseFr)
  let a ← okOr .snarkVerificationFailed (parsePair G proof.piA)
  let b ← okOr .snarkVerificationFailed (parseTwist G proof.piB)
  let c ← okOr .snarkVerificationFailed (parsePair G proof.piC)
  let valid ← okOr .snarkVerificationFailed (G.verify publicInputs a b c)
  require valid .snarkVerificationFailed

/-! ### Verification -/

def versionV1 : String := "nucleusdb-license-cab-1"

def versionV2 : String := "nucleusdb-license-cab-2"

def expectedRoot (cert : LicenseCertificate) : NodeHash :=
  merkleRoot P ((cert.features.mergeSort fun a b => decide (a ≤ b)).map (featureLeaf P))

def licenseeParts (cert : LicenseCertificate) : List Bytes := [utf8 cert.licensee, toBeBytes cert.expiryUnixSecs]

def expectedLicensee (cert : LicenseCertificate) : NodeHash := hcat P domainLicensee (licenseeParts cert)

/-- The fingerprints of a certificate and of its compliance inputs, compared as texts if both are there. -/
def comparePuf : Option String → Option String → Except LicenseError Unit
  | some certPuf, some compPuf => require (certPuf == compPuf) .pufDigestMismatch
  | _, _ => .ok ()

/-- The digest of the second version, and the fingerprint in the compliance inputs. -/
def checkCompliance (cert : LicenseCertificate) (foundation gotRoot gotLicensee : NodeHash) :
    Except LicenseError (NodeHash × Option String) := do
  let compliance ← okOr .missingComplianceInputs cert.complianceInputs
  let expectedCompliance ← buildComplianceCommitment P compliance
  let gotCompliance ← okOr .complianceCommitmentMismatch (cert.complianceCommitment.bind hexTo32)
  require (gotCompliance == expectedCompliance) .complianceCommitmentMismatch
  comparePuf cert.pufDigest compliance.pufDigest
  return (hcat P domainLicenseV2 [foundation.toList, gotRoot.toList, gotLicensee.toList, expectedCompliance.toList],
    compliance.pufDigest)

/-- The digest that a certificate has, with the fingerprint that its compliance inputs ask for. -/
def expectedDigest (cert : LicenseCertificate) (foundation gotRoot gotLicensee : NodeHash) :
    Except LicenseError (NodeHash × Option String) :=
  if cert.version = versionV1 then
    .ok (hcat P domainLicenseV1 [foundation.toList, gotRoot.toList, gotLicensee.toList], none)
  else checkCompliance P cert foundation gotRoot gotLicensee

/-- The checks up to the digest. What is returned is the fingerprint that the compliance inputs ask for. -/
def checkCommitments (cert : LicenseCertificate) : Except LicenseError (Option String) := do
  require (cert.version == versionV1 || cert.version == versionV2) (.unsupportedVersion cert.version)
  require (!cert.features.isEmpty) .emptyFeatures
  let foundation ← okOr .foundationMismatch (hexTo32 cert.foundationCommitment)
  require (foundation == knownFoundation) .foundationMismatch
  let gotRoot ← okOr .rulesRootMismatch (hexTo32 cert.rulesRoot)
  require (gotRoot == expectedRoot P cert) .rulesRootMismatch
  let gotLicensee ← okOr .licenseeCommitmentMismatch (hexTo32 cert.licenseeCommitment)
  require (gotLicensee == expectedLicensee P cert) .licenseeCommitmentMismatch
  let expected ← expectedDigest P cert foundation gotRoot gotLicensee
  let gotDigest ← okOr .proofDigestMismatch (hexTo32 cert.proofDigest)
  require (gotDigest == expected.1) .proofDigestMismatch
  return expected.2

/-- The fingerprint of the device; `envPuf` is the variable `NUCLEUSDB_PUF_DIGEST`. -/
def collectLocalPufEvidence (envPuf : Option String) : Option NodeHash := do
  let raw ← envPuf
  hexTo32 (trim raw)

def checkDevice (envPuf : Option String) : Option String → Except LicenseError Unit
  | none => .ok ()
  | some pufDigestHex => do
    require (!isNullDigestSentinel pufDigestHex) .pufDigestMismatch
    let expected ← okOr .pufDigestMismatch (hexTo32 pufDigestHex)
    let current ← okOr .pufUnavailable (collectLocalPufEvidence envPuf)
    require (current == expected) .pufDigestMismatch

def checkSnark (cert : LicenseCertificate) : Except LicenseError Unit :=
  match cert.snarkProof with
  | some snark => verifySnarkProof G snark cert.proofDigestPoseidon
  | none => .ok ()

def verifyCertificate (envPuf : Option String) (now : UInt64) (cert : LicenseCertificate) :
    Except LicenseError LicenseLevel := do
  let complianceBoundPuf ← checkCommitments P cert
  require (!decide (cert.expiryUnixSecs ≤ now)) .expired
  checkSnark G cert
  checkDevice envPuf (cert.pufDigest.or complianceBoundPuf)
  return .pro (cert.features.filterMap ProFeature.ofString) cert.licensee cert.expiryUnixSecs

end AgentHalo.License
