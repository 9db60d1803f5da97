import AgentHalo.Base.Reference
import AgentHalo.Engine.Query
import AgentHalo.Lib.StableSort

/-!
# Proof envelopes

A `ProofEnvelope` bundles a typed value with an opening of the committed state vector, the root the opening is against,
and references to the envelopes the value was derived from. A consumer checks it with `verifyLocally`, which looks at
the envelope alone, and names it by `provenanceHash`, a digest of its JSON without the transport metadata.

The JSON encoder is a parameter: `EnvelopeJson` gives the bytes of the hashed fields, or the error of the encoder.
-/

namespace AgentHalo.Pod

open Engine (NucleusDb QueryProof VcBackend)
open Store (TypedValue)
open Text (utf8)
open Transparency (hasher merkleTreeHash verifyInclusionProof)

/-- Reference to an upstream envelope used as provenance input. -/
structure EnvelopeRef where
  envelopeHash : NodeHash
  key : Option String
  commitHeight : Option UInt64
deriving DecidableEq

structure AnonymousMembershipStep where
  siblingHash : String
  siblingIsLeft : Bool
deriving DecidableEq, Repr

structure AnonymousMembershipProof where
  membershipRoot : String
  leafHash : String
  treeSize : UInt64
  leafIndex : UInt64
  steps : List AnonymousMembershipStep
deriving DecidableEq, Repr

structure AttestationResult where
  sessionId : Option String
  blindedSessionRef : Option String
  merkleRoot : String
  eventCount : UInt64
  contentHashes : List String
  witnessAlgorithm : String
  attestationDigest : String
  timestamp : UInt64
  anonymous : Bool
  proofType : String
  anonymousMembershipProof : Option AnonymousMembershipProof
  groth16Proof : Option String
  groth16PublicInputs : Option String
  txHash : Option String
  contractAddress : Option String
  blockNumber : Option UInt64
  chain : Option String
deriving DecidableEq, Repr

structure ProofEnvelope (P : Platform) where
  version : UInt32
  key : String
  value : TypedValue P
  backend : VcBackend
  proof : QueryProof
  stateRoot : NodeHash
  commitHeight : UInt64
  witnessSigs : List (String × String)
  attestation : Option AttestationResult
  authorPuf : Option NodeHash
  leanProofRef : Option String
  upstreamEnvelopes : List EnvelopeRef
  grantToken : Option String
  createdAt : UInt64

structure EnvelopeVerification where
  versionSupported : Bool
  proofValid : Bool
  backendConsistent : Bool
  witnessCount : Nat
  upstreamRefsValid : Bool
  upstreamRefCount : Nat
  softVerified : Bool
  accepted : Bool
  rejectionReason : Option String
deriving DecidableEq, Repr

def envelopeVersion : UInt32 := 1

def provenanceHashDomain : String := "nucleusdb.pod.provenance.envelope.v1"

/-! ### Upstream references -/

/-- Rust's order on arrays of bytes. -/
def cmpHash (a b : NodeHash) : Ordering := compare a.toList b.toList

/-- By hash, then by key, then by height. -/
def cmpRef (a b : EnvelopeRef) : Ordering :=
  (cmpHash a.envelopeHash b.envelopeHash).then ((compare a.key b.key).then (compare a.commitHeight b.commitHeight))

def canonicalUpstreamRefs (references : List EnvelopeRef) : List EnvelopeRef :=
  references.mergeSort fun a b => (cmpRef a b).isLE

def hexEncode32 (bytes : NodeHash) : String := Text.hexEncode bytes.toList

def canonicalUpstreamHashes (references : List EnvelopeRef) : List String :=
  ((references.map (·.envelopeHash)).mergeSort fun a b => (cmpHash a b).isLE).map hexEncode32

/-- The loop of `validate_upstream_refs`; `seen` holds the hashes met so far. -/
def validateUpstreamRefsFrom (seen : List NodeHash) : List EnvelopeRef → Except String Unit
  | [] => .ok ()
  | reference :: rest =>
    if reference.envelopeHash = Vector.replicate 32 0 then
      .error "upstream envelope reference contains zero hash"
    else if reference.envelopeHash ∈ seen then
      .error ("duplicate upstream envelope reference " ++ hexEncode32 reference.envelopeHash)
    else validateUpstreamRefsFrom (reference.envelopeHash :: seen) rest

def validateUpstreamRefs (references : List EnvelopeRef) : Except String Unit := validateUpstreamRefsFrom [] references

instance : Std.TransCmp cmpHash :=
  inferInstanceAs (Std.TransCmp (compareOn fun hash : NodeHash => hash.toList))

instance : Std.LawfulEqCmp cmpHash where
  eq_of_compare h := Vector.toList_inj.mp (Std.compare_eq_iff_eq.mp h)

instance : Std.TransCmp cmpRef :=
  inferInstanceAs (Std.TransCmp (compareLex (compareOn fun reference : EnvelopeRef => reference.envelopeHash.toList)
    (compareLex (compareOn (·.key)) (compareOn (·.commitHeight)))))

instance : Std.LawfulEqCmp cmpRef where
  eq_of_compare {a b} h := by
    obtain ⟨hhash, hrest⟩ := Ordering.then_eq_eq.mp h
    obtain ⟨hkey, hheight⟩ := Ordering.then_eq_eq.mp hrest
    cases a
    cases b
    rw [EnvelopeRef.mk.injEq]
    exact ⟨Std.LawfulEqCmp.eq_of_compare hhash, Std.compare_eq_iff_eq.mp hkey, Std.compare_eq_iff_eq.mp hheight⟩

variable {references references' : List EnvelopeRef}

theorem canonicalUpstreamRefs_eq_of_perm (h : references.Perm references') :
    canonicalUpstreamRefs references = canonicalUpstreamRefs references' :=
  StableSort.mergeSort_eq_of_perm h

theorem canonicalUpstreamHashes_eq_iff :
    canonicalUpstreamHashes references = canonicalUpstreamHashes references' ↔
      (references.map (·.envelopeHash)).Perm (references'.map (·.envelopeHash)) := by
  constructor
  · intro h
    have hinj : Function.Injective hexEncode32 := fun _ _ heq => Vector.toList_inj.mp (Text.hexEncode_inj heq)
    have hsorted := List.map_injective_iff.mpr hinj h
    refine (List.mergeSort_perm _ fun a b => (cmpHash a b).isLE).symm.trans ?_
    rw [hsorted]
    exact List.mergeSort_perm _ _
  · intro h
    exact congrArg (List.map hexEncode32) (StableSort.mergeSort_eq_of_perm h)

theorem mem_canonicalUpstreamRefs {reference : EnvelopeRef} :
    reference ∈ canonicalUpstreamRefs references ↔ reference ∈ references :=
  List.mem_mergeSort

theorem validateUpstreamRefs_ok_iff (references : List EnvelopeRef) :
    (validateUpstreamRefs references).isOk ↔
      (∀ r ∈ references, r.envelopeHash ≠ Vector.replicate 32 0) ∧ (references.map (·.envelopeHash)).Nodup := by
  have hloop : ∀ seen, (validateUpstreamRefsFrom seen references).isOk ↔
      (∀ r ∈ references, r.envelopeHash ≠ Vector.replicate 32 0 ∧ r.envelopeHash ∉ seen) ∧
        (references.map (·.envelopeHash)).Nodup := by
    induction references with
    | nil => simp [validateUpstreamRefsFrom, Except.isOk, Except.toBool]
    | cons reference rest ih =>
      intro seen
      unfold validateUpstreamRefsFrom
      by_cases hzero : reference.envelopeHash = Vector.replicate 32 0
      · rw [if_pos hzero]
        simp [Except.isOk, Except.toBool, hzero]
      by_cases hseen : reference.envelopeHash ∈ seen
      · rw [if_neg hzero, if_pos hseen]
        simp [Except.isOk, Except.toBool, hseen]
      rw [if_neg hzero, if_neg hseen, ih]
      simp only [List.mem_cons, forall_eq_or_imp, List.map_cons, List.nodup_cons, List.mem_map, not_exists, not_and,
        not_or]
      constructor
      · rintro ⟨hrest, hnodup⟩
        exact ⟨⟨⟨hzero, hseen⟩, fun r hr => ⟨(hrest r hr).1, (hrest r hr).2.2⟩⟩, fun r hr => (hrest r hr).2.1, hnodup⟩
      · rintro ⟨⟨-, hrest⟩, hfresh, hnodup⟩
        exact ⟨fun r hr => ⟨(hrest r hr).1, hfresh r hr, (hrest r hr).2⟩, hnodup⟩
  simpa [validateUpstreamRefs] using hloop []

/-! ### The provenance hash -/

/-- The fields of an envelope that its provenance hash covers. -/
structure EnvelopeHashInput (P : Platform) where
  domain : String
  version : UInt32
  key : String
  value : TypedValue P
  backend : VcBackend
  proof : QueryProof
  stateRoot : NodeHash
  commitHeight : UInt64
  witnessSigs : List (String × String)
  attestation : Option AttestationResult
  authorPuf : Option NodeHash
  leanProofRef : Option String
  upstreamHashes : List String

/-- `serde_json` on the hashed fields. -/
structure EnvelopeJson (P : Platform) where
  toVec : EnvelopeHashInput P → Except String Bytes

namespace ProofEnvelope

variable {P : Platform}

/-- The envelope of a query; the outer `none` is the panic of the query. The caller's value stands in the envelope
whatever word the query found. -/
def fromQuery (db : NucleusDb P) (keyName : String) (keyIndex : Nat) (value : TypedValue P) (now : UInt64) :
    Option (Option (ProofEnvelope P)) :=
  match db.query keyIndex with
  | .panicked => none
  | .absent => some none
  | .found _ proof stateRoot => some (some {
      version := envelopeVersion
      key := keyName
      value := value
      backend := db.backend
      proof := proof
      stateRoot := stateRoot
      commitHeight := UInt64.ofNat db.entries.length
      witnessSigs := (db.entries.getLast?.map (·.witnessSigs)).getD []
      attestation := none
      authorPuf := none
      leanProofRef := none
      upstreamEnvelopes := []
      grantToken := none
      createdAt := now })

def hashInput (e : ProofEnvelope P) : EnvelopeHashInput P where
  domain := provenanceHashDomain
  version := e.version
  key := e.key
  value := e.value
  backend := e.backend
  proof := e.proof
  stateRoot := e.stateRoot
  commitHeight := e.commitHeight
  witnessSigs := e.witnessSigs
  attestation := e.attestation
  authorPuf := e.authorPuf
  leanProofRef := e.leanProofRef
  upstreamHashes := canonicalUpstreamHashes e.upstreamEnvelopes

def provenanceHash (J : EnvelopeJson P) (e : ProofEnvelope P) : Except String NodeHash :=
  (J.toVec e.hashInput).map fun encoded => P.sha256 (utf8 provenanceHashDomain ++ [0] ++ encoded)

/-! ### Local verification -/

def backendConsistent (e : ProofEnvelope P) : Bool :=
  match e.backend, e.proof with
  | .ipa, .ipa _ | .kzg, .kzg _ | .binaryMerkle, .binaryMerkle _ => true
  | _, _ => false

/-- The check of the proof against the state root, and whether it is a soft one. -/
def proofCheck (e : ProofEnvelope P) : Bool × Bool :=
  match e.proof with
  | .binaryMerkle p =>
    if p.treeSize = 0 then (e.stateRoot == merkleTreeHash (hasher P) [], false)
    else (verifyInclusionProof (hasher P) ⟨p.index, p.treeSize, p.leafHash, p.path⟩ e.stateRoot, false)
  | .ipa p =>
    let encoded := Engine.Vc.pedersenVectorCommit P p.vector
    (Engine.Vc.pointDigest P encoded == e.stateRoot &&
      Engine.Vc.ipaVerify P encoded p.vector.length p.index p.value p, false)
  | .kzg p => (p.proofEncoded.length == 48 && p.proofEncoded.any (· != 0), true)

def verifyLocally (e : ProofEnvelope P) : EnvelopeVerification :=
  let upstreamRefCount := e.upstreamEnvelopes.length
  let upstreamRefValidation := validateUpstreamRefs e.upstreamEnvelopes
  let upstreamRefsValid := upstreamRefValidation.isOk
  if e.version ≠ envelopeVersion then
    { versionSupported := false
      proofValid := false
      backendConsistent := false
      witnessCount := e.witnessSigs.length
      upstreamRefsValid
      upstreamRefCount
      softVerified := false
      accepted := false
      rejectionReason := some ("unsupported envelope version " ++ toString e.version) }
  else if !e.backendConsistent then
    { versionSupported := true
      proofValid := false
      backendConsistent := false
      witnessCount := e.witnessSigs.length
      upstreamRefsValid
      upstreamRefCount
      softVerified := false
      accepted := false
      rejectionReason := some "backend tag does not match proof variant" }
  else
    let (proofValid, softVerified) := e.proofCheck
    { versionSupported := true
      proofValid
      backendConsistent := true
      witnessCount := e.witnessSigs.length
      upstreamRefsValid
      upstreamRefCount
      softVerified
      accepted := proofValid && upstreamRefsValid
      rejectionReason :=
        if !proofValid then
          some (if softVerified then "kzg soft verification failed basic encoding checks"
            else "cryptographic proof verification failed")
        else
          match upstreamRefValidation with
          | .error e => some e
          | .ok () => none }

/-- An envelope is accepted when its version is the supported one, its backend is that of its proof, the proof checks
against the root and the references are well formed. -/
theorem accepted_iff (e : ProofEnvelope P) :
    e.verifyLocally.accepted = true ↔ e.version = envelopeVersion ∧ e.backendConsistent = true ∧
      e.proofCheck.1 = true ∧ (validateUpstreamRefs e.upstreamEnvelopes).isOk = true := by
  unfold verifyLocally
  by_cases hversion : e.version = envelopeVersion
  · by_cases hbackend : e.backendConsistent = true
    · simp [hversion, hbackend]
    · simp [hversion, hbackend]
  · simp [hversion]

/-! ### A concrete envelope -/

/-- The envelope of the word `5` alone in the vector, with any value. -/
def ofFive (value : TypedValue .reference) : ProofEnvelope .reference where
  version := envelopeVersion
  key := "k"
  value := value
  backend := .binaryMerkle
  proof := .binaryMerkle ⟨0, Engine.Vc.valueLeaf .reference 0 5, [], 1⟩
  stateRoot := Engine.Vc.binaryMerkleRoot .reference [5]
  commitHeight := 1
  witnessSigs := []
  attestation := none
  authorPuf := none
  leanProofRef := none
  upstreamEnvelopes := []
  grantToken := none
  createdAt := 0

theorem ofFive_accepted (value : TypedValue .reference) : (ofFive value).verifyLocally.accepted = true := by
  refine (accepted_iff _).mpr ⟨rfl, rfl, ?_, rfl⟩
  simp [proofCheck, ofFive, verifyInclusionProof, Transparency.inclusionLoop, Engine.Vc.binaryMerkleRoot,
    Engine.Vc.valueLeaves, merkleTreeHash]

end ProofEnvelope

end AgentHalo.Pod
