import AgentHalo.Credential.Proof

/-!
# Capability specifications

What an agent announces that it can do: a domain in a hierarchy, the types it takes and returns, the constraints it
meets, the metrics it reports of itself and the attestations of others. A specification goes under an identifier that
`computeId` derives from its content, and `satisfiesAt` decides whether it answers a query. Only attestations in date
count, and `verifiedAttestationCount` counts them as they stand in the list.
-/

namespace AgentHalo.Discovery

open Text

def capabilityIdDomain : String := "agenthalo.capability.id.v1"
def capabilityTopicPrefix : String := "/agenthalo/capabilities/"
def maxCapabilityTopicLen : Nat := 160
def maxCapabilityTopicSegments : Nat := 8

def u64Max : Nat := 2 ^ 64 - 1

/-! ### Domains and topics -/

/-- Rust's `str::split` at slashes. -/
def splitSlash (s : String) : List String := (s.toList.splitOn '/').map String.ofList

def normalizeDomainPath (path : String) : String :=
  String.intercalate "/" (((splitSlash path).map trim).filter (· ≠ "") |>.map toAsciiLowercase)

structure CapabilityDomain where
  path : String
  schemaVersion : UInt32
deriving DecidableEq, Repr

namespace CapabilityDomain

def new (path : String) (schemaVersion : UInt32) : CapabilityDomain := ⟨normalizeDomainPath path, schemaVersion⟩

def matchesPrefix (domain : CapabilityDomain) (pre : String) : Bool :=
  let normalizedPrefix := normalizeDomainPath pre
  if normalizedPrefix = "" then true
  else domain.path = normalizedPrefix ||
    (startsWith domain.path normalizedPrefix && startsWith (after normalizedPrefix domain.path) "/")

end CapabilityDomain

def dynamicTopicForDomain (domain : CapabilityDomain) : String :=
  capabilityTopicPrefix ++ normalizeDomainPath domain.path

/-- A lower-case letter, a digit, a hyphen or an underscore. -/
def isTopicByte (b : UInt8) : Bool := (97 ≤ b && b ≤ 122) || (48 ≤ b && b ≤ 57) || b = 45 || b = 95

def isDynamicCapabilityTopic (topic : String) : Bool :=
  match stripPrefix topic capabilityTopicPrefix with
  | none => false
  | some rest =>
    let segments := splitSlash rest
    rest ≠ "" && (utf8 rest).length ≤ maxCapabilityTopicLen && segments.length ≤ maxCapabilityTopicSegments &&
      !startsWith rest "/" && !endsWith rest "/" &&
      segments.all fun segment => segment ≠ "" && (utf8 segment).all isTopicByte

/-! ### Specifications -/

inductive TypeSpec where
  | bytes (mime : String)
  | jsonSchema (schemaId : String)
  | leanTerm
  | coqTerm
  | text (language : Option String)
  | vector (dimensions : UInt32)
deriving DecidableEq, Repr

inductive CapabilityConstraint where
  | kernelFaithful (kernel : String)
  | zeroSorry
  | maxLatencyMs (bound : UInt64)
  | requiresIndex (indexName : String)
  | custom (key value : String)
deriving DecidableEq, Repr

structure CapabilityAttestation where
  attesterDid : String
  subjectDid : String
  capabilityId : String
  challengeHash : String
  passed : Bool
  verifiedAt : UInt64
  ed25519Signature : Bytes
  mldsa65Signature : Bytes
deriving DecidableEq, Repr

/-- Seconds since the given time, by Rust's `u64::saturating_sub`. -/
def age (now time : UInt64) : Nat := now.toNat - time.toNat

def isFinite (F : F64) (x : F.F) : Bool := (F.toBits x >>> 52) &&& 0x7ff ≠ 0x7ff

/-- Rust's `f64::clamp` to the unit interval. -/
def clampUnit (F : F64) (x : F.F) : F.F :=
  let x := if F.lt x (F.lit 0 0) then F.lit 0 0 else x
  if F.lt (F.lit 1 0) x then F.lit 1 0 else x

/-- The signed word by which `f64::total_cmp` compares. -/
def totalOrderKey (F : F64) (x : F.F) : Int :=
  let bits := F.toBits x
  if bits < 0x8000000000000000 then bits.toInt64.toInt else (bits ^^^ 0x7fffffffffffffff).toInt64.toInt

variable (P : Platform)

/-- What discovery takes from `serde_json`. -/
structure SpecJson where
  constraintToString : CapabilityConstraint → Except String String
  /-- `to_vec` of the object of a domain, input types, output types and written constraints. -/
  canonicalToVec : CapabilityDomain → List TypeSpec → List TypeSpec → List String → Except String Bytes

structure LiveMetrics where
  tasksCompleted : UInt64
  tasksFailed : UInt64
  successRate : P.f64.F
  latencyP50Ms : UInt64
  latencyP99Ms : UInt64
  costMicrodollars : UInt64
  lastActive : UInt64
  onchainReputation : Option P.f64.F

structure CapabilitySpec where
  capabilityId : String
  domain : CapabilityDomain
  inputTypes : List TypeSpec
  outputTypes : List TypeSpec
  constraints : List CapabilityConstraint
  metrics : LiveMetrics P
  attestations : List CapabilityAttestation

structure CapabilityQuery where
  domainPrefix : String
  requiredInputs : List TypeSpec
  requiredOutputs : List TypeSpec
  requiredConstraints : List CapabilityConstraint
  minSuccessRate : Option P.f64.F
  maxLatencyP99Ms : Option UInt64
  maxCostMicrodollars : Option UInt64
  minAttestations : Option Nat
  minOnchainReputation : Option P.f64.F
  count : UInt32
  queryTimeoutMs : UInt64

variable {P}

def normalizedSuccessRate (rate : P.f64.F) : P.f64.F := if isFinite P.f64 rate then clampUnit P.f64 rate else P.f64.lit 0 0

def normalizedOnchainReputation (score : Option P.f64.F) : Option P.f64.F :=
  score.bind fun value => if isFinite P.f64 value then some (P.f64.max value (P.f64.lit 0 0)) else none

def LiveMetrics.sanitize (metrics : LiveMetrics P) : LiveMetrics P :=
  { metrics with
    successRate := normalizedSuccessRate metrics.successRate
    onchainReputation := normalizedOnchainReputation metrics.onchainReputation }

namespace CapabilitySpec

/-- The hash of the content; a failure to write it leaves an empty text. -/
def computeId (P : Platform) (J : SpecJson) (domain : CapabilityDomain) (inputTypes outputTypes : List TypeSpec)
    (constraints : List CapabilityConstraint) : String :=
  let canonicalConstraints := (constraints.map fun c => ((J.constraintToString c).toOption).getD "").mergeSort
  let raw := ((J.canonicalToVec domain inputTypes outputTypes canonicalConstraints).toOption).getD []
  hexEncode (Credential.digestBytes P capabilityIdDomain raw).toList

def attestationIsStructurallyValid (spec : CapabilitySpec P) (attestation : CapabilityAttestation) : Bool :=
  attestation.passed && attestation.capabilityId = spec.capabilityId && attestation.challengeHash ≠ "" &&
    attestation.attesterDid ≠ attestation.subjectDid && attestation.ed25519Signature ≠ [] &&
    attestation.mldsa65Signature ≠ []

def verifiedAttestationCount (spec : CapabilitySpec P) (now maxAgeSecs : UInt64) : Nat :=
  ((spec.attestations.filter spec.attestationIsStructurallyValid).filter fun attestation =>
    age now attestation.verifiedAt ≤ maxAgeSecs.toNat).length

def satisfiesAt (spec : CapabilitySpec P) (query : CapabilityQuery P) (now attestationMaxAgeSecs : UInt64) : Bool :=
  spec.domain.matchesPrefix query.domainPrefix &&
  query.requiredInputs.all (fun required => spec.inputTypes.any (· = required)) &&
  query.requiredOutputs.all (fun required => spec.outputTypes.any (· = required)) &&
  query.requiredConstraints.all (fun required => spec.constraints.any (· = required)) &&
  query.minSuccessRate.all (fun least => !P.f64.lt (normalizedSuccessRate spec.metrics.successRate) least) &&
  query.maxLatencyP99Ms.all (fun most => spec.metrics.latencyP99Ms ≤ most) &&
  query.maxCostMicrodollars.all (fun most => spec.metrics.costMicrodollars ≤ most) &&
  query.minAttestations.all (fun least => least ≤ spec.verifiedAttestationCount now attestationMaxAgeSecs) &&
  query.minOnchainReputation.all fun least =>
    !P.f64.lt ((normalizedOnchainReputation spec.metrics.onchainReputation).getD (P.f64.lit 0 0)) least

end CapabilitySpec

example : normalizeDomainPath " Prove//lean / Algebra/" = "prove/lean/algebra" := by decide

end AgentHalo.Discovery
