import AgentHalo.Credential.Issuance
import AgentHalo.Lib.Bn254

/-!
# The honest prover

The prover checks a grant as numbers and options, and fills the circuit with field elements. The closures that compute the
differences and inverses give up where there is none. For a grant that passed the check they all find their value, the
values satisfy the constraints, and the verifier rebuilds from the bundle the public inputs that were proved.
-/

namespace AgentHalo.Credential

open CredentialVariable
open Outcome R1cs Text
open Pod (AccessGrant GrantPermissions hexDecode)

def credentialProveDomain : String := "agenthalo.zk_credential.prove.v1"

inductive SynthesisError where
  | assignmentMissing
  | unsatisfiable
deriving DecidableEq, Repr

/-- What the prover puts into the circuit; a field for each mode stands for four. -/
structure CredentialCircuit (F : Type) where
  granteeDidLoPublic : Option F
  granteeDidHiPublic : Option F
  keyPatternLoPublic : Option F
  keyPatternHiPublic : Option F
  reqPublic : AccessMode → Option F
  currentTimePublic : Option F
  granteeDidLoWitness : Option F
  granteeDidHiWitness : Option F
  keyPatternLoWitness : Option F
  keyPatternHiWitness : Option F
  grantWitness : AccessMode → Option F
  revokedWitness : Option F
  expiresAtWitness : Option F
  createdAtWitness : Option F
  nonceWitness : Option F
  grantIdLoWitness : Option F
  grantIdHiWitness : Option F
  grantorHashLoWitness : Option F
  grantorHashHiWitness : Option F

section Closures

variable {p : Nat}

/-- The number that an element is, if it has 64 bits. -/
def frToU64 (value : ZMod p) : Option UInt64 := if value.val < 2 ^ 64 then some (UInt64.ofNat value.val) else none

def inverse (value : ZMod p) : Option (ZMod p) := if value = 0 then none else some value⁻¹

namespace CredentialCircuit

variable (circuit : CredentialCircuit (ZMod p))

def assigned (value : Option (ZMod p)) : Except SynthesisError (ZMod p) := okOr .assignmentMissing value

def assignedU64 (value : Option (ZMod p)) : Except SynthesisError UInt64 := do
  okOr .unsatisfiable (frToU64 (← assigned value))

/-- The inverse of the sum of two limbs and one. -/
def mixInverse (lo hi : Option (ZMod p)) : Except SynthesisError (ZMod p) := do
  let lo ← assigned lo
  let hi ← assigned hi
  okOr .unsatisfiable (inverse (lo + hi + 1))

def value : CredentialVariable → Except SynthesisError (ZMod p)
  | .granteeDidLoPublic => assigned circuit.granteeDidLoPublic
  | .granteeDidHiPublic => assigned circuit.granteeDidHiPublic
  | .keyPatternLoPublic => assigned circuit.keyPatternLoPublic
  | .keyPatternHiPublic => assigned circuit.keyPatternHiPublic
  | .reqPublic mode => assigned (circuit.reqPublic mode)
  | .currentTimePublic => assigned circuit.currentTimePublic
  | .granteeDidLoWitness => assigned circuit.granteeDidLoWitness
  | .granteeDidHiWitness => assigned circuit.granteeDidHiWitness
  | .keyPatternLoWitness => assigned circuit.keyPatternLoWitness
  | .keyPatternHiWitness => assigned circuit.keyPatternHiWitness
  | .grantWitness mode => assigned (circuit.grantWitness mode)
  | .revokedWitness => assigned circuit.revokedWitness
  | .expiresAtWitness => assigned circuit.expiresAtWitness
  | .createdAtWitness => assigned circuit.createdAtWitness
  | .nonceWitness => assigned circuit.nonceWitness
  | .grantIdLoWitness => assigned circuit.grantIdLoWitness
  | .grantIdHiWitness => assigned circuit.grantIdHiWitness
  | .grantorHashLoWitness => assigned circuit.grantorHashLoWitness
  | .grantorHashHiWitness => assigned circuit.grantorHashHiWitness
  | .nonceInvWitness => do okOr .unsatisfiable (inverse (← assigned circuit.nonceWitness))
  | .createdDeltaWitness => do
    let current ← assignedU64 circuit.currentTimePublic
    let created ← assignedU64 circuit.createdAtWitness
    require (created ≤ current) .unsatisfiable
    return ((current - created).toNat : ZMod p)
  | .hasExpiryWitness => do
    let expires ← assignedU64 circuit.expiresAtWitness
    return if expires = 0 then 0 else 1
  | .expiryDeltaWitness => do
    let expires ← assignedU64 circuit.expiresAtWitness
    if expires = 0 then return 0
    let current ← assignedU64 circuit.currentTimePublic
    require (current < expires) .unsatisfiable
    return ((expires - current - 1).toNat : ZMod p)
  | .grantIdMixInv => mixInverse circuit.grantIdLoWitness circuit.grantIdHiWitness
  | .grantorMixInv => mixInverse circuit.grantorHashLoWitness circuit.grantorHashHiWitness

/-- The values of the variables, where the closures give them. -/
def assignment (v : CredentialVariable) : ZMod p :=
  match circuit.value v with
  | .ok x => x
  | .error _ => 0

/-- The public inputs, in the order in which they are allocated. -/
def inputs : Except SynthesisError (List (ZMod p)) :=
  ([CredentialVariable.granteeDidLoPublic, .granteeDidHiPublic, .keyPatternLoPublic, .keyPatternHiPublic] ++
    AccessMode.all.map CredentialVariable.reqPublic ++ [CredentialVariable.currentTimePublic]).mapM circuit.value

end CredentialCircuit

end Closures

/-! ### The prover -/

section Prover

/-- The proof system under a proving key: a seed makes the randomness. -/
structure ProvingKey {p : Nat} (G : Groth16 p) where
  prove : CredentialCircuit (ZMod p) → NodeHash → Except String G.Proof
  serializeCompressed : G.Proof → Except String Bytes

variable (P : Platform) {p : Nat}

def bitFr (b : Bool) : ZMod p := if b then 1 else 0

variable (p) in
/-- The circuit that the prover fills for a grant. -/
def grantCircuit (grant : AccessGrant) (granteeDid : String) (requested : GrantPermissions) (currentTime : UInt64) :
    CredentialCircuit (ZMod p) :=
  let granteeHash := splitHashU128 (digestBytes P credentialDidHashDomain (utf8 granteeDid))
  let keyHash := splitHashU128 (digestBytes P credentialKeyHashDomain (utf8 grant.keyPattern))
  let grantorHash := splitHashU128 (digestBytes P credentialDidHashDomain grant.grantorPuf.toList)
  let grantId := splitHashU128 grant.grantId
  { granteeDidLoPublic := some granteeHash.1
    granteeDidHiPublic := some granteeHash.2
    keyPatternLoPublic := some keyHash.1
    keyPatternHiPublic := some keyHash.2
    reqPublic := fun mode => some (bitFr (permissionBit requested mode))
    currentTimePublic := some currentTime.toNat
    granteeDidLoWitness := some granteeHash.1
    granteeDidHiWitness := some granteeHash.2
    keyPatternLoWitness := some keyHash.1
    keyPatternHiWitness := some keyHash.2
    grantWitness := fun mode => some (bitFr (permissionBit grant.permissions mode))
    revokedWitness := some (bitFr grant.revoked)
    expiresAtWitness := some (grant.expiresAt.getD 0).toNat
    createdAtWitness := some grant.createdAt.toNat
    nonceWitness := some grant.nonce.toNat
    grantIdLoWitness := some grantId.1
    grantIdHiWitness := some grantId.2
    grantorHashLoWitness := some grantorHash.1
    grantorHashHiWitness := some grantorHash.2 }

def proveSeed (grant : AccessGrant) (granteeDid : String) (requested : GrantPermissions) (currentTime : UInt64) : NodeHash :=
  digestBytes P credentialProveDomain
    (grant.grantId.toList ++ (digestBytes P credentialDidHashDomain (utf8 granteeDid)).toList ++
      (digestBytes P credentialKeyHashDomain (utf8 grant.keyPattern)).toList ++ [permissionFlags requested] ++
      toLeBytes currentTime)

def grantBundle (grant : AccessGrant) (granteeDid : String) (requested : GrantPermissions) (currentTime : UInt64)
    (proofRaw : Bytes) : CredentialProofBundle where
  proofHex := hexEncode proofRaw
  granteeDidHash := hexEncode (digestBytes P credentialDidHashDomain (utf8 granteeDid)).toList
  keyPatternHash := hexEncode (digestBytes P credentialKeyHashDomain (utf8 grant.keyPattern)).toList
  permissionFlags := permissionFlags requested
  currentTime
  schemaVersion := credentialSchemaVersion

def proveCredential {G : Groth16 p} (K : ProvingKey G) (grant : AccessGrant) (granteeDid : String)
    (requested : GrantPermissions) (currentTime : UInt64) : Except String CredentialProofBundle := do
  validateGrantForProof P grant requested currentTime
  require (permissionFlags requested != 0) "requested permissions must include at least one mode"
  let proof ← (K.prove (grantCircuit P p grant granteeDid requested currentTime)
    (proveSeed P grant granteeDid requested currentTime)).mapError ("prove failed: " ++ ·)
  let proofRaw ← (K.serializeCompressed proof).mapError ("encode credential proof: " ++ ·)
  return grantBundle P grant granteeDid requested currentTime proofRaw

end Prover

/-! ### The closures on a grant that was checked -/

section Honest

variable {P : Platform} {p : Nat} {grant : AccessGrant} {requested : GrantPermissions} {currentTime : UInt64}

/-- What the check leaves to the circuit. -/
structure Provable (grant : AccessGrant) (requested : GrantPermissions) (currentTime : UInt64) : Prop where
  revoked : grant.revoked = false
  expiry : grant.expiresAt.getD 0 = 0 ∨ currentTime < grant.expiresAt.getD 0
  created : grant.createdAt ≤ currentTime
  nonce : grant.nonce ≠ 0
  subset : ∀ mode, permissionBit requested mode = true → permissionBit grant.permissions mode = true

theorem provable_of_validate (h : validateGrantForProof P grant requested currentTime = .ok ()) :
    Provable grant requested currentTime := by
  unfold validateGrantForProof at h
  cases hexp : grant.expiresAt with
  | none =>
    rw [hexp] at h
    simp only [bind, bind_eq_ok, require_eq_ok] at h
    obtain ⟨-, hrevoked, -, hcreated, -, hnonce, -, hsubset, -⟩ := h
    exact ⟨by simpa using hrevoked, .inl (by rw [hexp]; rfl), of_decide_eq_true hcreated, by simpa using hnonce,
      permissionsSubset_iff.mp hsubset⟩
  | some exp =>
    rw [hexp] at h
    simp only [bind, bind_eq_ok, require_eq_ok] at h
    obtain ⟨-, hrevoked, -, hexpiry, -, hcreated, -, hnonce, -, hsubset, -⟩ := h
    exact ⟨by simpa using hrevoked, .inr (by rw [hexp]; exact of_decide_eq_true hexpiry), of_decide_eq_true hcreated,
      by simpa using hnonce, permissionsSubset_iff.mp hsubset⟩

theorem frToU64_natCast (hp : 2 ^ 130 < p) (n : UInt64) : frToU64 ((n.toNat : ZMod p)) = some n := by
  have hn := n.toNat_lt
  unfold frToU64
  rw [ZMod.val_natCast_of_lt (by omega), if_pos hn, UInt64.ofNat_toNat]

theorem natCast_ne_zero (hp : 2 ^ 130 < p) {n : Nat} (hpos : 0 < n) (hn : n < 2 ^ 130) : (n : ZMod p) ≠ 0 := by
  intro hzero
  have hval := congrArg ZMod.val hzero
  rw [ZMod.val_natCast_of_lt (by omega), ZMod.val_zero] at hval
  omega

theorem mix_ne_zero (hp : 2 ^ 130 < p) (hash : NodeHash) :
    ((splitHashU128 hash).1 : ZMod p) + ((splitHashU128 hash).2 : ZMod p) + 1 ≠ 0 := by
  obtain ⟨hlo, hhi⟩ := splitHashU128_lt hash
  have hne := natCast_ne_zero hp (n := (splitHashU128 hash).1 + (splitHashU128 hash).2 + 1) (Nat.succ_pos _) (by omega)
  push_cast at hne
  exact hne

theorem inverse_of_ne_zero {x : ZMod p} (h : x ≠ 0) : inverse x = some x⁻¹ := if_neg h

variable (P p) in
/-- The values of the variables for a grant that was checked. -/
def grantValues (grant : AccessGrant) (granteeDid : String) (requested : GrantPermissions) (currentTime : UInt64) :
    CredentialVariable → ZMod p :=
  let granteeHash := splitHashU128 (digestBytes P credentialDidHashDomain (utf8 granteeDid))
  let keyHash := splitHashU128 (digestBytes P credentialKeyHashDomain (utf8 grant.keyPattern))
  let grantorHash := splitHashU128 (digestBytes P credentialDidHashDomain grant.grantorPuf.toList)
  let grantId := splitHashU128 grant.grantId
  let expires := grant.expiresAt.getD 0
  fun
  | .granteeDidLoPublic | .granteeDidLoWitness => granteeHash.1
  | .granteeDidHiPublic | .granteeDidHiWitness => granteeHash.2
  | .keyPatternLoPublic | .keyPatternLoWitness => keyHash.1
  | .keyPatternHiPublic | .keyPatternHiWitness => keyHash.2
  | .reqPublic mode => bitFr (permissionBit requested mode)
  | .currentTimePublic => currentTime.toNat
  | .grantWitness mode => bitFr (permissionBit grant.permissions mode)
  | .revokedWitness => bitFr grant.revoked
  | .expiresAtWitness => expires.toNat
  | .createdAtWitness => grant.createdAt.toNat
  | .nonceWitness => grant.nonce.toNat
  | .grantIdLoWitness => grantId.1
  | .grantIdHiWitness => grantId.2
  | .grantorHashLoWitness => grantorHash.1
  | .grantorHashHiWitness => grantorHash.2
  | .nonceInvWitness => (grant.nonce.toNat : ZMod p)⁻¹
  | .createdDeltaWitness => (currentTime - grant.createdAt).toNat
  | .hasExpiryWitness => if expires = 0 then 0 else 1
  | .expiryDeltaWitness => if expires = 0 then 0 else (expires - currentTime - 1).toNat
  | .grantIdMixInv => ((grantId.1 : ZMod p) + (grantId.2 : ZMod p) + 1)⁻¹
  | .grantorMixInv => ((grantorHash.1 : ZMod p) + (grantorHash.2 : ZMod p) + 1)⁻¹

theorem Provable.nonce_ne_zero (h : Provable grant requested currentTime) (hp : 2 ^ 130 < p) :
    (grant.nonce.toNat : ZMod p) ≠ 0 := by
  have hpos : 0 < grant.nonce.toNat := Nat.pos_of_ne_zero fun hzero => h.nonce (UInt64.toNat_inj.mp hzero)
  exact natCast_ne_zero hp hpos (grant.nonce.toNat_lt.trans (by norm_num))

theorem value_grantCircuit (hp : 2 ^ 130 < p) (h : Provable grant requested currentTime) (granteeDid : String)
    (v : CredentialVariable) :
    (grantCircuit P p grant granteeDid requested currentTime).value v =
      .ok (grantValues P p grant granteeDid requested currentTime v) := by
  have htime : CredentialCircuit.assignedU64 (grantCircuit P p grant granteeDid requested currentTime).currentTimePublic =
      .ok currentTime := congrArg (okOr _) (frToU64_natCast hp currentTime)
  have hexpires : CredentialCircuit.assignedU64 (grantCircuit P p grant granteeDid requested currentTime).expiresAtWitness =
      .ok (grant.expiresAt.getD 0) := congrArg (okOr _) (frToU64_natCast hp _)
  cases v with
  | nonceInvWitness => exact congrArg (okOr _) (inverse_of_ne_zero (h.nonce_ne_zero hp))
  | createdDeltaWitness =>
    have hcreated : CredentialCircuit.assignedU64 (grantCircuit P p grant granteeDid requested currentTime).createdAtWitness =
        .ok grant.createdAt := congrArg (okOr _) (frToU64_natCast hp grant.createdAt)
    unfold CredentialCircuit.value
    simp only [htime, hcreated, bind, Except.bind, require, decide_eq_true h.created, if_true]
    rfl
  | hasExpiryWitness =>
    unfold CredentialCircuit.value
    rw [hexpires]
    rfl
  | expiryDeltaWitness =>
    unfold CredentialCircuit.value
    simp only [hexpires, htime, bind, Except.bind, require, grantValues]
    by_cases hnone : grant.expiresAt.getD 0 = 0
    · rw [if_pos hnone, if_pos hnone]
      rfl
    · rw [if_neg hnone, if_neg hnone, decide_eq_true (h.expiry.resolve_left hnone), if_pos rfl]
      rfl
  | grantIdMixInv => exact congrArg (okOr _) (inverse_of_ne_zero (mix_ne_zero hp _))
  | grantorMixInv => exact congrArg (okOr _) (inverse_of_ne_zero (mix_ne_zero hp _))
  | _ => rfl

theorem bitFr_eq (b : Bool) : (bitFr b : ZMod p) = 0 ∨ (bitFr b : ZMod p) = 1 := by
  cases b
  · exact .inl rfl
  · exact .inr rfl

theorem natCast_sub {a b : UInt64} (h : b ≤ a) : (b.toNat : ZMod p) + ((a - b).toNat : ZMod p) = a.toNat := by
  rw [UInt64.toNat_sub_of_le _ _ h, ← Nat.cast_add, Nat.add_sub_cancel' (UInt64.le_iff_toNat_le.mp h)]

theorem constrained_grantValues [Fact p.Prime] (hp : 2 ^ 130 < p) (h : Provable grant requested currentTime)
    (granteeDid : String) : Constrained (grantValues P p grant granteeDid requested currentTime) where
  granteeDidLo := rfl
  granteeDidHi := rfl
  keyPatternLo := rfl
  keyPatternHi := rfl
  req _ := bitFr_eq _
  grant _ := bitFr_eq _
  subset mode := by
    cases hreq : permissionBit requested mode with
    | false => exact .inl (congrArg bitFr hreq)
    | true => exact .inr (congrArg bitFr (h.subset mode hreq))
  revoked := congrArg bitFr h.revoked
  nonce := mul_inv_cancel₀ (h.nonce_ne_zero hp)
  createdDelta := natCast_sub h.created
  hasExpiry := by
    dsimp only [grantValues]
    split_ifs
    · exact .inl rfl
    · exact .inr rfl
  noExpiry := by
    dsimp only [grantValues]
    split_ifs with hnone
    · exact .inl (by rw [hnone, UInt64.toNat_zero, Nat.cast_zero])
    · exact .inr rfl
  expiryDelta := by
    dsimp only [grantValues]
    split_ifs with hnone
    · exact .inr rfl
    · left
      have hlt := h.expiry.resolve_left hnone
      have hone : (1 : UInt64) ≤ grant.expiresAt.getD 0 - currentTime := by
        rw [UInt64.le_iff_toNat_le, UInt64.toNat_sub_of_le _ _ (UInt64.le_of_lt hlt)]
        exact Nat.sub_pos_of_lt (UInt64.lt_iff_toNat_lt.mp hlt)
      have hdelta := natCast_sub (p := p) hone
      rw [show ((1 : UInt64).toNat : ZMod p) = 1 from Nat.cast_one] at hdelta
      rw [add_assoc, hdelta, natCast_sub (UInt64.le_of_lt hlt)]
  grantId := mul_inv_cancel₀ (mix_ne_zero hp _)
  grantor := mul_inv_cancel₀ (mix_ne_zero hp _)

end Honest

/-! ### The bundle -/

section Bundle

variable (P : Platform) (G : Groth16 Bn254.scalarModulus) (K : ProvingKey G)

theorem two_pow_130_lt : 2 ^ 130 < Bn254.scalarModulus :=
  Nat.lt_trans (by norm_num) Bn254.two_pow_lt_scalarModulus

theorem proveCredential_eq_ok {P : Platform} {p : Nat} {G : Groth16 p} {K : ProvingKey G} {grant : AccessGrant}
    {granteeDid : String} {requested : GrantPermissions} {currentTime : UInt64} {bundle : CredentialProofBundle}
    (h : proveCredential P K grant granteeDid requested currentTime = .ok bundle) :
    Reads bundle (digestBytes P credentialDidHashDomain (utf8 granteeDid))
      (digestBytes P credentialKeyHashDomain (utf8 grant.keyPattern)) requested ∧ bundle.currentTime = currentTime := by
  unfold proveCredential at h
  simp only [bind, pure, bind_eq_ok, Except.pure, Except.ok.injEq] at h
  obtain ⟨-, -, -, -, proof, -, proofRaw, -, rfl⟩ := h
  exact ⟨⟨rfl, hexDecode32_hexEncode _, hexDecode32_hexEncode _, flagsToPermissions_permissionFlags _⟩, rfl⟩

/-- **Completeness**: for a grant and a request that the check accepts, no closure gives up, the values satisfy all constraints,
nothing but the proof system can fail, and the verifier checks the proof in the bundle against the public inputs that were
proved. -/
theorem proveCredential_complete (grant : AccessGrant) (granteeDid : String) (requested : GrantPermissions)
    (currentTime : UInt64) (hvalid : validateGrantForProof P grant requested currentTime = .ok ())
    (hmode : permissionFlags requested ≠ 0) :
    let circuit := grantCircuit P Bn254.scalarModulus grant granteeDid requested currentTime
    (∀ v, circuit.value v = .ok (circuit.assignment v)) ∧
    Satisfies (credentialConstraints (ZMod Bn254.scalarModulus)) circuit.assignment ∧
    (∀ proof proofRaw, K.prove circuit (proveSeed P grant granteeDid requested currentTime) = .ok proof →
      K.serializeCompressed proof = .ok proofRaw →
      proveCredential P K grant granteeDid requested currentTime =
        .ok (grantBundle P grant granteeDid requested currentTime proofRaw)) ∧
    ∀ bundle, proveCredential P K grant granteeDid requested currentTime = .ok bundle →
      ∃ inputs, circuit.inputs = .ok inputs ∧ verifyCredentialProof G bundle = (do
        let proofRaw ← hexDecode bundle.proofHex
        let proof ← (G.deserializeCompressed proofRaw).mapError ("decode credential proof: " ++ ·)
        (G.verifyWithProcessedVk inputs proof).mapError ("verify credential proof failed: " ++ ·)) := by
  intro circuit
  have hprovable := provable_of_validate hvalid
  have hvalue : ∀ v, circuit.value v = .ok (grantValues P Bn254.scalarModulus grant granteeDid requested currentTime v) :=
    value_grantCircuit two_pow_130_lt hprovable granteeDid
  have hassignment : circuit.assignment = grantValues P Bn254.scalarModulus grant granteeDid requested currentTime := by
    funext v
    unfold CredentialCircuit.assignment
    rw [hvalue]
  refine ⟨fun v => by rw [hvalue, hassignment], ?_, fun proof proofRaw hprove hserialize => ?_, fun bundle hbundle => ?_⟩
  · rw [hassignment]
    exact satisfies_credentialConstraints.mpr (constrained_grantValues two_pow_130_lt hprovable granteeDid)
  · replace hprove : K.prove (grantCircuit P Bn254.scalarModulus grant granteeDid requested currentTime)
        (proveSeed P grant granteeDid requested currentTime) = .ok proof := hprove
    unfold proveCredential
    simp only [bind, hvalid, Except.bind, require, bne_iff_ne.mpr hmode, if_true, hprove, Except.mapError, hserialize]
    rfl
  · obtain ⟨hreads, htime⟩ := proveCredential_eq_ok hbundle
    refine ⟨publicInputs Bn254.scalarModulus (digestBytes P credentialDidHashDomain (utf8 granteeDid))
      (digestBytes P credentialKeyHashDomain (utf8 grant.keyPattern)) requested currentTime, ?_, ?_⟩
    · unfold CredentialCircuit.inputs
      rw [mapM_eq_ok fun v _ => hvalue v]
      rfl
    · unfold verifyCredentialProof
      simp only [bind, hreads.schema, require, beq_self_eq_true, if_true, Except.bind, hreads.grantee, hreads.key, hreads.flags,
        htime]

def sampleProvingKey : ProvingKey (sampleGroth16 Bn254.scalarModulus) := ⟨fun _ _ => .ok (), fun _ => .ok [0]⟩

theorem proveCredential_sampleGrant :
    Satisfies (credentialConstraints (ZMod Bn254.scalarModulus))
      (grantCircuit .reference Bn254.scalarModulus sampleGrant "did:key:holder" ⟨true, false, false, false⟩ 5).assignment ∧
    proveCredential .reference sampleProvingKey sampleGrant "did:key:holder" ⟨true, false, false, false⟩ 5 =
      .ok (grantBundle .reference sampleGrant "did:key:holder" ⟨true, false, false, false⟩ 5 [0]) := by
  obtain ⟨-, hsatisfies, hbundle, -⟩ := proveCredential_complete .reference (sampleGroth16 Bn254.scalarModulus)
    sampleProvingKey sampleGrant "did:key:holder" ⟨true, false, false, false⟩ 5 validate_sampleGrant (by decide)
  exact ⟨hsatisfies, hbundle () [0] rfl rfl⟩

end Bundle

end AgentHalo.Credential
