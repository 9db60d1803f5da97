import AgentHalo.Engine.Protocol

/-!
# Queries

A query opens the state vector at an index under the database's backend and returns the value, the opening and the root.
`verifyQuery` recomputes the root from the current state before it looks at the opening. The IPA opening carries the
whole vector, the KZG opening one curve point, the binary Merkle opening an inclusion path.
-/

namespace AgentHalo.Engine

namespace Vc

open Transparency (inclusionPath merkleTreeHash verifyInclusionProof hasher)

variable (P : Platform)

/-! ### IPA -/

structure IpaProof where
  index : Nat
  value : UInt64
  vector : List UInt64
deriving DecidableEq, Repr

def ipaOpen (v : List UInt64) (i : Nat) : IpaProof := ⟨i, v[i]?.getD 0, v⟩

/-- The commitment is the encoded point with the vector's length. -/
def ipaVerify (encoded : Vector UInt8 32) (len i : Nat) (value : UInt64) (p : IpaProof) : Bool :=
  if p.index ≠ i ∨ p.value ≠ value then false
  else if p.vector.length ≠ len then false
  else if p.vector[i]?.getD 0 ≠ value then false
  else pedersenVectorCommit P p.vector == encoded

/-! ### KZG -/

structure KzgProof where
  index : Nat
  value : UInt64
  degree : Nat
  proofEncoded : Bytes
deriving DecidableEq, Repr

structure KzgCommitment where
  encoded : Bytes
  degree : Nat
deriving DecidableEq, Repr

/-- The ceremony a vector of this degree is committed under: the artifact's when there is one. -/
def kzgCeremony (setup : Option TrustedSetupArtifact) (degree : Nat) : Except TrustedSetupError P.kzg.Ceremony :=
  match setup with
  | some artifact => setupFromArtifact P degree artifact
  | none => .ok (setupWithDegree P degree)

def kzgCommit (v : List UInt64) (setup : Option TrustedSetupArtifact) : Except TrustedSetupError KzgCommitment :=
  let poly := interpolateVector P v
  let degree := (P.kzg.coeffs poly).length
  (kzgCeremony P setup degree).map fun ceremony =>
    ⟨P.kzg.serializeCompressed (P.kzg.commit ceremony poly), degree⟩

def kzgOpen (v : List UInt64) (i : Nat) (setup : Option TrustedSetupArtifact) : Except TrustedSetupError KzgProof :=
  let poly := interpolateVector P v
  let degree := (P.kzg.coeffs poly).length
  (kzgCeremony P setup degree).map fun ceremony =>
    ⟨i, v[i]?.getD 0, degree, P.kzg.serializeCompressed (P.kzg.openAt ceremony poly (domainPoint P i))⟩

/-- `verify` and `verify_trusted`. The decoded proof is rebuilt at the claimed index and value, so the source's
comparison of its point and value with the expected ones cannot fail. -/
def kzgVerify (c : KzgCommitment) (i : Nat) (value : UInt64) (p : KzgProof) (setup : Option TrustedSetupArtifact) :
    Except TrustedSetupError Bool :=
  if p.index ≠ i ∨ p.value ≠ value then .ok false
  else if p.degree ≠ c.degree then .ok false
  else
    match kzgCeremony P setup c.degree with
    | .error e => .error e
    | .ok ceremony =>
      match P.kzg.deserializeCompressed c.encoded, P.kzg.deserializeCompressed p.proofEncoded with
      | some commitment, some proof =>
        .ok (P.kzg.verify ceremony commitment (domainPoint P i) (P.kzg.ofU64 value) proof)
      | _, _ => .ok false

/-! ### Binary Merkle -/

structure MerkleProof where
  index : Nat
  leafHash : NodeHash
  path : List NodeHash
  treeSize : Nat
deriving DecidableEq, Repr

def merkleOpen (v : List UInt64) (i : Nat) : MerkleProof :=
  let leaves := valueLeaves P v
  { index := i
    leafHash := leaves[i]?.getD (valueLeaf P i 0)
    path := (inclusionPath (hasher P) leaves i).getD []
    treeSize := leaves.length }

def merkleVerify (root : NodeHash) (leafCount i : Nat) (value : UInt64) (p : MerkleProof) : Bool :=
  if p.index ≠ i ∨ p.treeSize ≠ leafCount then false
  else if p.leafHash ≠ valueLeaf P i value then false
  else if p.treeSize = 0 then root == merkleTreeHash (hasher P) []
  else verifyInclusionProof (hasher P) ⟨p.index, p.treeSize, p.leafHash, p.path⟩ root

end Vc

inductive QueryProof where
  | ipa (p : Vc.IpaProof)
  | kzg (p : Vc.KzgProof)
  | binaryMerkle (p : Vc.MerkleProof)
deriving DecidableEq, Repr

/-- What a query returns: nothing, the value with its opening and root, or a panic of the trusted-setup path. -/
inductive QueryOutcome where
  | absent
  | found (value : UInt64) (proof : QueryProof) (stateRoot : NodeHash)
  | panicked
deriving DecidableEq, Repr

namespace NucleusDb

variable {P : Platform}

/-- The opening of the state vector; `none` is the panic of the trusted-setup path. -/
def openAt (db : NucleusDb P) (vec : List UInt64) (idx : Nat) : Option QueryProof :=
  match db.backend with
  | .ipa => some (.ipa (Vc.ipaOpen vec idx))
  | .kzg => (Vc.kzgOpen P vec idx db.kzgTrustedSetup).toOption.map .kzg
  | .binaryMerkle => some (.binaryMerkle (Vc.merkleOpen P vec idx))

def query (db : NucleusDb P) (idx : Nat) : QueryOutcome :=
  let vec := materialize db.state
  match vec[idx]? with
  | none => .absent
  | some value =>
    match db.stateRootFor vec, db.openAt vec idx with
    | some stateRoot, some proof => .found value proof stateRoot
    | _, _ => .panicked

/-- `none` is the panic of the root computation. -/
def verifyQuery (db : NucleusDb P) (idx : Nat) (value : UInt64) (proof : QueryProof) (stateRoot : NodeHash) :
    Option Bool :=
  let vec := materialize db.state
  (db.stateRootFor vec).map fun expectedRoot =>
    if expectedRoot ≠ stateRoot then false
    else
      match db.backend, proof with
      | .ipa, .ipa p =>
        let encoded := Vc.pedersenVectorCommit P vec
        Vc.pointDigest P encoded == stateRoot && Vc.ipaVerify P encoded vec.length idx value p
      | .kzg, .kzg p =>
        match Vc.kzgCommit P vec db.kzgTrustedSetup with
        | .error _ => false
        | .ok c =>
          if Vc.digestBytes P c.encoded ≠ stateRoot then false
          else (Vc.kzgVerify P c idx value p db.kzgTrustedSetup).toOption.getD false
      | .binaryMerkle, .binaryMerkle p =>
        Vc.binaryMerkleRoot P vec == stateRoot &&
          Vc.merkleVerify P (Vc.binaryMerkleRoot P vec) (Vc.valueLeaves P vec).length idx value p
      | _, _ => false

end NucleusDb

end AgentHalo.Engine
