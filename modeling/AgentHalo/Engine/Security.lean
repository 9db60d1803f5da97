import AgentHalo.Engine.Witness
import AgentHalo.Transparency.Ct6962

/-!
# Security parameters, reduction contracts and refinement

The policy layer of the engine: the parameters a database is opened under and their validation against the witness
configuration, the reduction contracts, the shape limits of a commit, and the refinement check made on the entry a
commit has built. The constructors validate, and every commit validates again.
-/

namespace AgentHalo.Engine

open Transparency (sthSignature)

variable {P : Platform}

inductive VcProfile where
  | ipa
  | kzg
  | binaryMerkle
deriving DecidableEq, Repr

/-! ### Commitment policy -/

structure CommitmentPolicy where
  schemeId : String
  domainSeparator : String
  maxDegree : Nat
deriving DecidableEq, Repr

inductive CommitmentPolicyError where
  | emptySchemeId
  | emptyDomainSeparator
  | zeroMaxDegree
  | schemeProfileMismatch (profile : VcProfile) (schemeId : String)
  | degreeBoundInsufficient (required maxDegree : Nat)
deriving DecidableEq, Repr

def VcProfile.schemeId : VcProfile → String
  | .ipa => "ipa"
  | .kzg => "kzg"
  | .binaryMerkle => "binary_merkle"

def VcProfile.defaultDomainSeparator : VcProfile → String
  | .ipa => "nucleusdb.vc.ipa.v1"
  | .kzg => "nucleusdb.vc.kzg.v1"
  | .binaryMerkle => "nucleusdb.vc.binary_merkle.v1"

def validateCommitmentPolicy (profile : VcProfile) (maxVectorLen : Nat) (policy : CommitmentPolicy) :
    Except CommitmentPolicyError Unit :=
  if Text.trim policy.schemeId = "" then .error .emptySchemeId
  else if Text.trim policy.domainSeparator = "" then .error .emptyDomainSeparator
  else if policy.maxDegree = 0 then .error .zeroMaxDegree
  else if policy.schemeId ≠ "auto" ∧ policy.schemeId ≠ profile.schemeId then
    .error (.schemeProfileMismatch profile policy.schemeId)
  else if maxVectorLen > policy.maxDegree then .error (.degreeBoundInsufficient maxVectorLen policy.maxDegree)
  else .ok ()

def defaultCommitmentPolicy (profile : VcProfile) (maxDegree : Nat) : CommitmentPolicy where
  schemeId := profile.schemeId
  domainSeparator := profile.defaultDomainSeparator
  maxDegree := maxDegree

/-! ### Parameters -/

structure ParameterSet where
  fieldBits : Nat
  maxVectorLen : Nat
  maxDeltaWrites : Nat
  maxWitnesses : Nat
  minWitnessThreshold : Nat
  maxWitnessThreshold : Nat
  requireKzgTrustedSetup : Bool
  kzgTrustedSetupId : Option String
  kzgTrustedSetupPath : Option String
  kzgTrustedSetupAttestationSha512 : Option String
  commitmentPolicy : CommitmentPolicy
deriving DecidableEq, Repr

inductive ParameterError where
  | zeroFieldBits
  | fieldBitsTooLarge (bits maxBits : Nat)
  | maxVectorLenZero
  | maxDeltaWritesZero
  | witnessSetTooLarge (witnesses max : Nat)
  | witnessThresholdTooSmall (threshold min : Nat)
  | witnessThresholdTooLarge (threshold max : Nat)
  | thresholdExceedsWitnessSet (threshold witnesses : Nat)
  | missingKzgTrustedSetup
  | missingKzgTrustedSetupPath
  | missingKzgTrustedSetupAttestation
  | commitmentPolicy (e : CommitmentPolicyError)
deriving DecidableEq, Repr

def ParameterSet.default : ParameterSet where
  fieldBits := 64
  maxVectorLen := 1048576
  maxDeltaWrites := 65536
  maxWitnesses := 128
  minWitnessThreshold := 1
  maxWitnessThreshold := 128
  requireKzgTrustedSetup := true
  kzgTrustedSetupId := some "demo-trusted-setup-v1"
  kzgTrustedSetupPath := some "artifacts/kzg/demo-trusted-setup-v1.json"
  kzgTrustedSetupAttestationSha512 := some ("b1ba68a25d64fb0e29348404c7ef8ece8503ae5bd2eb0d8a172ddbc726d70df6"
    ++ "94cb5f6d323e7435649c35fa365339e93b354262735da11e01c00ad8b17923f1")
  commitmentPolicy := { schemeId := "auto", domainSeparator := "nucleusdb.vc.auto.v1", maxDegree := 1048576 }

def validateParameters (params : ParameterSet) (profile : VcProfile) (cfg : WitnessConfig P) :
    Except ParameterError Unit :=
  let maxFieldBits := 4096
  if params.fieldBits = 0 then .error .zeroFieldBits
  else if params.fieldBits > maxFieldBits then .error (.fieldBitsTooLarge params.fieldBits maxFieldBits)
  else if params.maxVectorLen = 0 then .error .maxVectorLenZero
  else if params.maxDeltaWrites = 0 then .error .maxDeltaWritesZero
  else if cfg.witnesses.length > params.maxWitnesses then
    .error (.witnessSetTooLarge cfg.witnesses.length params.maxWitnesses)
  else if cfg.threshold < params.minWitnessThreshold then
    .error (.witnessThresholdTooSmall cfg.threshold params.minWitnessThreshold)
  else if cfg.threshold > params.maxWitnessThreshold then
    .error (.witnessThresholdTooLarge cfg.threshold params.maxWitnessThreshold)
  else if cfg.threshold > cfg.witnesses.length then
    .error (.thresholdExceedsWitnessSet cfg.threshold cfg.witnesses.length)
  else if profile = .kzg ∧ params.requireKzgTrustedSetup ∧ params.kzgTrustedSetupId.isNone then
    .error .missingKzgTrustedSetup
  else if profile = .kzg ∧ params.requireKzgTrustedSetup ∧ params.kzgTrustedSetupPath.isNone then
    .error .missingKzgTrustedSetupPath
  else if profile = .kzg ∧ params.requireKzgTrustedSetup ∧ params.kzgTrustedSetupAttestationSha512.isNone then
    .error .missingKzgTrustedSetupAttestation
  else (validateCommitmentPolicy profile params.maxVectorLen params.commitmentPolicy).mapError .commitmentPolicy

theorem guard_eq_ok {ε α : Type} {c : Prop} [Decidable c] {e : ε} {r : Except ε α} {a : α}
    (h : (if c then .error e else r) = .ok a) : ¬c ∧ r = .ok a := by
  by_cases hc : c
  · rw [if_pos hc] at h
    cases h
  · rw [if_neg hc] at h
    exact ⟨hc, h⟩

theorem validateParameters_ok {params : ParameterSet} {profile : VcProfile} {cfg : WitnessConfig P}
    (h : validateParameters params profile cfg = .ok ()) :
    cfg.threshold ≤ cfg.witnesses.length ∧
      validateCommitmentPolicy profile params.maxVectorLen params.commitmentPolicy = .ok () := by
  unfold validateParameters at h
  dsimp only at h
  obtain ⟨-, h⟩ := guard_eq_ok h
  obtain ⟨-, h⟩ := guard_eq_ok h
  obtain ⟨-, h⟩ := guard_eq_ok h
  obtain ⟨-, h⟩ := guard_eq_ok h
  obtain ⟨-, h⟩ := guard_eq_ok h
  obtain ⟨-, h⟩ := guard_eq_ok h
  obtain ⟨-, h⟩ := guard_eq_ok h
  obtain ⟨hthreshold, h⟩ := guard_eq_ok h
  obtain ⟨-, h⟩ := guard_eq_ok h
  obtain ⟨-, h⟩ := guard_eq_ok h
  obtain ⟨-, h⟩ := guard_eq_ok h
  refine ⟨not_lt.mp hthreshold, ?_⟩
  cases hpolicy : validateCommitmentPolicy profile params.maxVectorLen params.commitmentPolicy with
  | error e => rw [hpolicy] at h; cases h
  | ok u => rfl

theorem validateCommitmentPolicy_ok {profile : VcProfile} {maxVectorLen : Nat} {policy : CommitmentPolicy}
    (h : validateCommitmentPolicy profile maxVectorLen policy = .ok ()) :
    Text.trim policy.schemeId ≠ "" ∧ Text.trim policy.domainSeparator ≠ "" ∧ policy.maxDegree ≠ 0 := by
  unfold validateCommitmentPolicy at h
  obtain ⟨hscheme, h⟩ := guard_eq_ok h
  obtain ⟨hdomain, h⟩ := guard_eq_ok h
  obtain ⟨hdegree, -⟩ := guard_eq_ok h
  exact ⟨hscheme, hdomain, hdegree⟩

/-! ### Reduction contracts -/

inductive SecurityAssumption where
  | collisionResistance
  | witnessUnforgeability
  | ctAppendOnly
  | ipaBinding
  | kzgTrustedSetup
  | merkleBinding
deriving DecidableEq, Repr

structure ReductionContract where
  claim : String
  assumption : SecurityAssumption
  lossBits : Nat
  maxQueries : Nat
deriving DecidableEq, Repr

inductive TrustedSetupError where
  | io (message : String)
  | parse (message : String)
  | curveMismatch (expected got : String)
  | invalidMaxDegree (maxDegree : Nat)
  | invalidTauSeedHex (tauSeedHex : String)
  | setupIdMismatch (expected got : String)
  | artifactAttestationMismatch (expected got : String)
  | expectedAttestationMismatch (expected got : String)
  | degreeExceedsSetup (requested max : Nat)
deriving DecidableEq, Repr

inductive SecurityPolicyError where
  | parameter (e : ParameterError)
  | missingReductionContracts
  | reductionLossTooLarge (claim : String) (lossBits : Nat)
  | reductionMaxQueriesZero (claim : String)
  | kzgTrustedSetup (e : TrustedSetupError)
  | kzgSetupDegreeInsufficient (setupId : String) (setupMaxDegree requiredMaxVectorLen : Nat)
deriving DecidableEq, Repr

def defaultReductionContracts (profile : VcProfile) : List ReductionContract :=
  [{ claim := "state_authentication_soundness", assumption := .collisionResistance, lossBits := 16,
     maxQueries := 1000000 },
   { claim := "ct_append_only_history", assumption := .ctAppendOnly, lossBits := 8, maxQueries := 1000000 },
   { claim := "witness_quorum_unforgeability", assumption := .witnessUnforgeability, lossBits := 8,
     maxQueries := 1000000 },
   match profile with
   | .ipa => { claim := "ipa_binding", assumption := .ipaBinding, lossBits := 24, maxQueries := 1000000 }
   | .kzg => { claim := "kzg_binding", assumption := .kzgTrustedSetup, lossBits := 24, maxQueries := 1000000 }
   | .binaryMerkle =>
     { claim := "binary_merkle_binding", assumption := .merkleBinding, lossBits := 24, maxQueries := 1000000 }]

/-- The loop over the contracts, stopping at the first bad one. -/
def validateContracts : List ReductionContract → Except SecurityPolicyError Unit
  | [] => .ok ()
  | c :: rest =>
    if c.lossBits > 128 then .error (.reductionLossTooLarge c.claim c.lossBits)
    else if c.maxQueries = 0 then .error (.reductionMaxQueriesZero c.claim)
    else validateContracts rest

def validateReductionContracts (contracts : List ReductionContract) : Except SecurityPolicyError Unit :=
  if contracts.isEmpty then .error .missingReductionContracts else validateContracts contracts

/-! ### Commit shape and refinement -/

inductive RefinementError where
  | deltaTooLarge (writes max : Nat)
  | stateVectorTooLarge (len max : Nat)
  | commitHeightMismatch (expected got : Nat)
  | prevRootMismatch (expected got : NodeHash)
  | sthSizeMismatch (expected got : Nat)
  | invalidSthSignature (expected got : String)
deriving DecidableEq, Repr

def validateCommitShape (params : ParameterSet) (writes projectedStateLen : Nat) : Except RefinementError Unit :=
  if writes > params.maxDeltaWrites then .error (.deltaTooLarge writes params.maxDeltaWrites)
  else if projectedStateLen > params.maxVectorLen then
    .error (.stateVectorTooLarge projectedStateLen params.maxVectorLen)
  else .ok ()

def verifyPostCommitRefinement (P : Platform) (expectedHeight : Nat) (expectedPrevRoot : NodeHash) (entryHeight : Nat)
    (entryPrevRoot : NodeHash) (sthSize : Nat) (sthRoot : NodeHash) (sthTimestampUnixSecs : Nat) (sthSig : String) :
    Except RefinementError Unit :=
  if entryHeight ≠ expectedHeight then .error (.commitHeightMismatch expectedHeight entryHeight)
  else if entryPrevRoot ≠ expectedPrevRoot then .error (.prevRootMismatch expectedPrevRoot entryPrevRoot)
  else if sthSize ≠ expectedHeight then .error (.sthSizeMismatch expectedHeight sthSize)
  else
    let expectedSig := sthSignature P sthSize sthRoot sthTimestampUnixSecs
    if sthSig ≠ expectedSig then .error (.invalidSthSignature expectedSig sthSig) else .ok ()

end AgentHalo.Engine
