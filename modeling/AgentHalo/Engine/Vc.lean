import AgentHalo.Engine.Security

/-!
# Vector commitments

The three backends that turn a state vector into its root: a Pedersen vector commitment over Ristretto, a KZG
commitment to the interpolating polynomial (under the validated ceremony artifact when one is loaded), and a binary
Merkle tree over indexed leaves. The KZG path can fail, by degree or by a malformed seed, and the engine treats that
failure as a panic.
-/

namespace AgentHalo.Engine.Vc

open Text (utf8 toLeBytes fromLeBytes)
open Transparency (leafHash merkleTreeHash hasher)

variable (P : Platform)

/-! ### IPA -/

def pointDigest (point : Vector UInt8 32) : NodeHash :=
  Text.firstHalf (P.sha512 (utf8 "nucleusdb.ipa.digest.v1" ++ point.toList))

def generatorForIndex (i : Nat) : P.ristretto.Point :=
  P.ristretto.fromHash (P.sha512 (utf8 "nucleusdb.ipa.generator.v1" ++ toLeBytes (UInt64.ofNat i)))

def pedersenVectorCommit (v : List UInt64) : Vector UInt8 32 :=
  P.ristretto.compress (v.zipIdx.foldl
    (fun acc (value, i) => P.ristretto.add acc (P.ristretto.mulScalar (generatorForIndex P i) value))
    P.ristretto.identity)

/-- The IPA backend: `digest` of `commit`. -/
def ipaRoot (v : List UInt64) : NodeHash := pointDigest P (pedersenVectorCommit P v)

/-! ### KZG -/

def domainPoint (i : Nat) : P.kzg.Fr := P.kzg.ofU64 (UInt64.ofNat i + 1)

/-- The Lagrange basis polynomial of point `j` among `n`, with its denominator. -/
def lagrangeBasis (n j : Nat) : P.kzg.Polynomial × P.kzg.Fr :=
  let xj := domainPoint P j
  ((List.range n).filter (· ≠ j)).foldl
    (fun (basis, denom) m =>
      let xm := domainPoint P m
      (P.kzg.polyMul basis (P.kzg.new [P.kzg.neg xm, P.kzg.ofU64 1]), P.kzg.mul denom (P.kzg.sub xj xm)))
    (P.kzg.new [P.kzg.ofU64 1], P.kzg.ofU64 1)

def interpolateVector (values : List UInt64) : P.kzg.Polynomial :=
  values.zipIdx.foldl
    (fun poly (yRaw, j) =>
      let (basis, denom) := lagrangeBasis P values.length j
      let inv := (P.kzg.inverse denom).getD (P.kzg.ofU64 0)
      P.kzg.polyAdd poly (P.kzg.scale basis (P.kzg.mul (P.kzg.ofU64 yRaw) inv)))
    P.kzg.zero

def setupWithDegree (degree : Nat) : P.kzg.Ceremony :=
  let digest := P.sha512 (utf8 "nucleusdb.kzg.setup.v1" ++ toLeBytes (UInt64.ofNat degree))
  P.kzg.setup (max degree 1) (P.kzg.ofU64 (fromLeBytes digest.toList))

def setupFromArtifact (degree : Nat) (artifact : TrustedSetupArtifact) : Except TrustedSetupError P.kzg.Ceremony :=
  if degree > artifact.maxDegree then .error (.degreeExceedsSetup degree artifact.maxDegree)
  else
    match Text.decodeHexExact 8 artifact.tauSeedHex with
    | none => .error (.invalidTauSeedHex artifact.tauSeedHex)
    | some tauSeed => .ok (P.kzg.setup (max degree 1) (P.kzg.ofU64 (fromLeBytes tauSeed.toList)))

def digestBytes (bytes : Bytes) : NodeHash := Text.firstHalf (P.sha512 (utf8 "nucleusdb.kzg.digest.v1" ++ bytes))

def kzgRoot (v : List UInt64) : NodeHash :=
  let poly := interpolateVector P v
  digestBytes P (P.kzg.serializeCompressed (P.kzg.commit (setupWithDegree P (P.kzg.coeffs poly).length) poly))

def kzgTrustedRoot (v : List UInt64) (setup : TrustedSetupArtifact) : Except TrustedSetupError NodeHash :=
  let poly := interpolateVector P v
  (setupFromArtifact P (P.kzg.coeffs poly).length setup).map fun ceremony =>
    digestBytes P (P.kzg.serializeCompressed (P.kzg.commit ceremony poly))

def resolveTrustedSetupPath (path : String) : String :=
  if Text.startsWith path "/" then path else P.manifestDir ++ "/" ++ path

def computeTrustedSetupAttestationHex (setupId curve : String) (maxDegree : Nat) (tauSeedHex : String) :
    Except TrustedSetupError String :=
  match Text.decodeHexExact 8 tauSeedHex with
  | none => .error (.invalidTauSeedHex tauSeedHex)
  | some tauSeed =>
    .ok (Text.hexEncode (P.sha512 (utf8 "nucleusdb.kzg.attestation.v1" ++ utf8 setupId ++ [0] ++ utf8 curve ++ [0]
      ++ toLeBytes (UInt64.ofNat maxDegree) ++ tauSeed.toList)).toList)

def loadTrustedSetupArtifact (path : String) : Except TrustedSetupError TrustedSetupArtifact :=
  match P.readToString path with
  | .error e => .error (.io ("failed to read trusted setup " ++ path ++ ": " ++ e))
  | .ok raw =>
    match P.parseSetupArtifact raw with
    | .error e => .error (.parse ("failed to parse trusted setup " ++ path ++ ": " ++ e))
    | .ok artifact => .ok artifact

def validateTrustedSetupArtifact (artifact : TrustedSetupArtifact) (expectedSetupId expectedAttestation : String) :
    Except TrustedSetupError Unit :=
  if artifact.curve ≠ "bls12-381" then .error (.curveMismatch "bls12-381" artifact.curve)
  else if artifact.maxDegree = 0 then .error (.invalidMaxDegree 0)
  else if artifact.setupId ≠ expectedSetupId then .error (.setupIdMismatch expectedSetupId artifact.setupId)
  else
    match computeTrustedSetupAttestationHex P artifact.setupId artifact.curve artifact.maxDegree
        artifact.tauSeedHex with
    | .error e => .error e
    | .ok recomputed =>
      if artifact.attestationSha512 ≠ recomputed then
        .error (.artifactAttestationMismatch recomputed artifact.attestationSha512)
      else if artifact.attestationSha512 ≠ expectedAttestation then
        .error (.expectedAttestationMismatch expectedAttestation artifact.attestationSha512)
      else .ok ()

def loadAndValidateTrustedSetup (path expectedSetupId expectedAttestation : String) :
    Except TrustedSetupError TrustedSetupArtifact :=
  match loadTrustedSetupArtifact P (resolveTrustedSetupPath P path) with
  | .error e => .error e
  | .ok artifact =>
    match validateTrustedSetupArtifact P artifact expectedSetupId expectedAttestation with
    | .error e => .error e
    | .ok () => .ok artifact

/-! ### Binary Merkle -/

def valueLeaf (index : Nat) (value : UInt64) : NodeHash :=
  leafHash P (utf8 ("nucleusdb.vc.binary_merkle.leaf.v1|idx=" ++ toString index ++ "|value=" ++ toString value))

def valueLeaves (v : List UInt64) : List NodeHash := v.zipIdx.map fun (value, i) => valueLeaf P i value

def binaryMerkleRoot (v : List UInt64) : NodeHash := merkleTreeHash (hasher P) (valueLeaves P v)

end AgentHalo.Engine.Vc
