import AgentHalo.Lib.Outcome
import AgentHalo.Lib.Circom
import AgentHalo.Pod.Capability
import Mathlib.NumberTheory.LucasLehmer

/-!
# The credential circuit

A credential proof says that a grant exists which covers the request. The circuit compares times through witnesses for
their differences. The prover that is honest computes these as numbers and gives up where a difference would be negative;
no constraint bounds them, and every element of the field is a difference. So the constraints enforce the permissions and
that the grant is not revoked, and they enforce the times exactly when the differences are below 2^64.
-/

namespace AgentHalo.Credential

open Outcome Pod R1cs

inductive AccessMode where
  | read
  | write
  | append
  | control
deriving DecidableEq

def AccessMode.all : List AccessMode := [read, write, append, control]

theorem AccessMode.mem_all (mode : AccessMode) : mode ∈ all := by cases mode <;> decide

/-- The variables in the order in which they are allocated: the public ones first. -/
inductive CredentialVariable where
  | granteeDidLoPublic
  | granteeDidHiPublic
  | keyPatternLoPublic
  | keyPatternHiPublic
  | reqPublic (mode : AccessMode)
  | currentTimePublic
  | granteeDidLoWitness
  | granteeDidHiWitness
  | keyPatternLoWitness
  | keyPatternHiWitness
  | grantWitness (mode : AccessMode)
  | revokedWitness
  | expiresAtWitness
  | createdAtWitness
  | nonceWitness
  | grantIdLoWitness
  | grantIdHiWitness
  | grantorHashLoWitness
  | grantorHashHiWitness
  | nonceInvWitness
  | createdDeltaWitness
  | hasExpiryWitness
  | expiryDeltaWitness
  | grantIdMixInv
  | grantorMixInv
deriving DecidableEq

open CredentialVariable

section Gadgets

variable (F : Type) {V : Type} [Ring F]

abbrev lc : LinearCombination F V := .empty

def enforceEqual (left right : Variable V) : Constraint F V := ⟨((lc F).add left).sub right, (lc F).add .one, lc F⟩

/-- `v * (v - 1) = 0`. -/
def enforceBoolean (v : Variable V) : Constraint F V := ⟨(lc F).add v, ((lc F).add v).sub .one, lc F⟩

/-- `requested * (1 - granted) = 0`. -/
def enforceSubset (requested granted : Variable V) : Constraint F V :=
  ⟨(lc F).add requested, ((lc F).add .one).sub granted, lc F⟩

/-- `generate_constraints`: the constraints in the order in which they are emitted. -/
def credentialConstraints : List (Constraint F CredentialVariable) :=
  [enforceEqual F granteeDidLoPublic granteeDidLoWitness,
    enforceEqual F granteeDidHiPublic granteeDidHiWitness,
    enforceEqual F keyPatternLoPublic keyPatternLoWitness,
    enforceEqual F keyPatternHiPublic keyPatternHiWitness] ++
  AccessMode.all.map (fun mode => enforceBoolean F (reqPublic mode)) ++
  AccessMode.all.map (fun mode => enforceBoolean F (grantWitness mode)) ++
  [enforceBoolean F revokedWitness] ++
  AccessMode.all.map (fun mode => enforceSubset F (reqPublic mode) (grantWitness mode)) ++
  [⟨(lc F).add revokedWitness, (lc F).add .one, lc F⟩,
    ⟨(lc F).add nonceWitness, (lc F).add nonceInvWitness, (lc F).add .one⟩,
    -- current_time = created_at + created_delta
    ⟨(((lc F).add currentTimePublic).sub createdAtWitness).sub createdDeltaWitness, (lc F).add .one, lc F⟩,
    enforceBoolean F hasExpiryWitness,
    -- has_expiry = 0 -> expires_at = 0
    ⟨(lc F).add expiresAtWitness, ((lc F).add .one).sub hasExpiryWitness, lc F⟩,
    -- has_expiry = 1 -> expires_at = current_time + expiry_delta + 1
    ⟨((((lc F).add expiresAtWitness).sub currentTimePublic).sub expiryDeltaWitness).sub .one,
      (lc F).add hasExpiryWitness, lc F⟩,
    ⟨(((lc F).add grantIdLoWitness).add grantIdHiWitness).add .one, (lc F).add grantIdMixInv, (lc F).add .one⟩,
    ⟨(((lc F).add grantorHashLoWitness).add grantorHashHiWitness).add .one, (lc F).add grantorMixInv, (lc F).add .one⟩]

end Gadgets

section Constraints

variable {F V : Type} [Field F] {z : V → F}

theorem enforceEqual_holds {left right : V} : (enforceEqual F (left : Variable V) right).Holds z ↔ z left = z right := by
  simp [enforceEqual, Constraint.Holds, lc, sub_eq_zero]

theorem enforceBoolean_holds {v : V} : (enforceBoolean F (v : Variable V)).Holds z ↔ z v = 0 ∨ z v = 1 := by
  simp [enforceBoolean, Constraint.Holds, lc, sub_eq_zero]

theorem enforceSubset_holds {requested granted : V} :
    (enforceSubset F (requested : Variable V) granted).Holds z ↔ z requested = 0 ∨ z granted = 1 := by
  simp [enforceSubset, Constraint.Holds, lc, sub_eq_zero, eq_comm (a := z granted)]

/-- What the constraints say of the values of the variables. -/
structure Constrained (z : CredentialVariable → F) : Prop where
  granteeDidLo : z granteeDidLoPublic = z granteeDidLoWitness
  granteeDidHi : z granteeDidHiPublic = z granteeDidHiWitness
  keyPatternLo : z keyPatternLoPublic = z keyPatternLoWitness
  keyPatternHi : z keyPatternHiPublic = z keyPatternHiWitness
  req : ∀ mode, z (reqPublic mode) = 0 ∨ z (reqPublic mode) = 1
  grant : ∀ mode, z (grantWitness mode) = 0 ∨ z (grantWitness mode) = 1
  subset : ∀ mode, z (reqPublic mode) = 0 ∨ z (grantWitness mode) = 1
  revoked : z revokedWitness = 0
  nonce : z nonceWitness * z nonceInvWitness = 1
  createdDelta : z createdAtWitness + z createdDeltaWitness = z currentTimePublic
  hasExpiry : z hasExpiryWitness = 0 ∨ z hasExpiryWitness = 1
  noExpiry : z expiresAtWitness = 0 ∨ z hasExpiryWitness = 1
  expiryDelta : z currentTimePublic + 1 + z expiryDeltaWitness = z expiresAtWitness ∨ z hasExpiryWitness = 0
  grantId : (z grantIdLoWitness + z grantIdHiWitness + 1) * z grantIdMixInv = 1
  grantor : (z grantorHashLoWitness + z grantorHashHiWitness + 1) * z grantorMixInv = 1

theorem satisfies_credentialConstraints {z : CredentialVariable → F} :
    Satisfies (credentialConstraints F) z ↔ Constrained z := by
  have hmodes (P : AccessMode → Prop) : (∀ mode ∈ AccessMode.all, P mode) ↔ ∀ mode, P mode :=
    ⟨fun h mode => h mode mode.mem_all, fun h mode _ => h mode⟩
  unfold credentialConstraints
  simp only [satisfies_append, satisfies_cons, satisfies_nil, and_true, satisfies_map, enforceEqual_holds,
    enforceBoolean_holds, enforceSubset_holds, hmodes]
  simp only [Constraint.Holds, lc, LinearCombination.eval_empty, LinearCombination.eval_add, LinearCombination.eval_sub,
    Variable.value_one, Variable.value_var, zero_add, mul_one, mul_eq_zero, sub_eq_zero]
  constructor
  · rintro ⟨⟨⟨⟨⟨⟨hdidLo, hdidHi, hkeyLo, hkeyHi⟩, hreq⟩, hgrant⟩, -⟩, hsubset⟩, hrevoked, hnonce, hcreated, hhas, hno,
      hexpiry, hid, hgrantor⟩
    refine ⟨hdidLo, hdidHi, hkeyLo, hkeyHi, hreq, hgrant, hsubset, hrevoked, hnonce, ?_, hhas, hno.imp_right Eq.symm,
      hexpiry.imp_left fun h => ?_, hid, hgrantor⟩
    · linear_combination -hcreated
    · linear_combination -h
  · intro h
    refine ⟨⟨⟨⟨⟨⟨h.granteeDidLo, h.granteeDidHi, h.keyPatternLo, h.keyPatternHi⟩, h.req⟩, h.grant⟩, .inl h.revoked⟩,
      h.subset⟩, h.revoked, h.nonce, ?_, h.hasExpiry, h.noExpiry.imp_right Eq.symm, h.expiryDelta.imp_left fun he => ?_,
      h.grantId, h.grantor⟩
    · linear_combination -h.createdDelta
    · linear_combination -he

end Constraints

/-! ### What the constraints enforce of a grant -/

section Sound

variable {p : Nat}

/-- The grant covers the request, is not revoked, and is valid at the time. -/
structure GrantValid (z : CredentialVariable → ZMod p) : Prop where
  subset : ∀ mode, z (reqPublic mode) = 1 → z (grantWitness mode) = 1
  revoked : z revokedWitness = 0
  created : (z createdAtWitness).val ≤ (z currentTimePublic).val
  expiry : z expiresAtWitness = 0 ∨ (z currentTimePublic).val < (z expiresAtWitness).val

/-- The witnesses for the differences of times are numbers of 64 bits; the second one counts if the grant expires. -/
structure DifferencesBounded (z : CredentialVariable → ZMod p) : Prop where
  created : (z createdDeltaWitness).val < 2 ^ 64
  expiry : z expiresAtWitness ≠ 0 → (z expiryDeltaWitness).val < 2 ^ 64

theorem val_add_one [NeZero p] {a : ZMod p} (h : a.val + 1 < p) : (a + 1).val = a.val + 1 := by
  have hone : (1 : ZMod p).val = 1 := ZMod.val_one'' (by omega)
  rw [ZMod.val_add_of_lt (by rw [hone]; exact h), hone]

variable [Fact p.Prime] {z : CredentialVariable → ZMod p}

theorem Constrained.created_iff (h : Constrained z) (hp : 2 ^ 130 < p) (hcurrent : (z currentTimePublic).val < 2 ^ 64)
    (hcreated : (z createdAtWitness).val < 2 ^ 64) :
    (z createdAtWitness).val ≤ (z currentTimePublic).val ↔ (z createdDeltaWitness).val < 2 ^ 64 :=
  val_le_iff_of_add_eq h.createdDelta hcreated.le hcurrent (by omega)

theorem Constrained.expiry_iff (h : Constrained z) (hp : 2 ^ 130 < p) (hcurrent : (z currentTimePublic).val < 2 ^ 64)
    (hexpires : (z expiresAtWitness).val < 2 ^ 64) (hset : z expiresAtWitness ≠ 0) :
    (z currentTimePublic).val < (z expiresAtWitness).val ↔ (z expiryDeltaWitness).val < 2 ^ 64 := by
  have hhas : z hasExpiryWitness = 1 := h.noExpiry.resolve_left hset
  have hdelta : z currentTimePublic + 1 + z expiryDeltaWitness = z expiresAtWitness :=
    h.expiryDelta.resolve_right (by rw [hhas]; exact one_ne_zero)
  have hsucc : (z currentTimePublic + 1).val = (z currentTimePublic).val + 1 := val_add_one (by omega)
  rw [← val_le_iff_of_add_eq hdelta (by omega) hexpires (by omega), hsucc]
  exact Nat.succ_le_iff.symm

/-- What satisfies the constraints, with times of 64 bits, describes a valid grant if and only if the two differences are
numbers of 64 bits as well. -/
theorem grantValid_iff_differencesBounded (hp : 2 ^ 130 < p) (hsat : Satisfies (credentialConstraints (ZMod p)) z)
    (hcurrent : (z currentTimePublic).val < 2 ^ 64) (hcreated : (z createdAtWitness).val < 2 ^ 64)
    (hexpires : (z expiresAtWitness).val < 2 ^ 64) : GrantValid z ↔ DifferencesBounded z := by
  have h : Constrained z := satisfies_credentialConstraints.mp hsat
  constructor
  · intro hvalid
    refine ⟨(h.created_iff hp hcurrent hcreated).mp hvalid.created, fun hset => ?_⟩
    exact (h.expiry_iff hp hcurrent hexpires hset).mp (hvalid.expiry.resolve_left hset)
  · intro hbounded
    refine ⟨fun mode hreq => ?_, h.revoked, (h.created_iff hp hcurrent hcreated).mpr hbounded.created, ?_⟩
    · exact (h.subset mode).resolve_left (by rw [hreq]; exact one_ne_zero)
    · by_cases hset : z expiresAtWitness = 0
      · exact .inl hset
      · exact .inr ((h.expiry_iff hp hcurrent hexpires hset).mpr (hbounded.expiry hset))

/-- A request to read under a grant to read, with the given times and differences. -/
def readAssignment (F : Type) [Ring F] (currentTime createdAt createdDelta expiresAt hasExpiry expiryDelta : F) :
    CredentialVariable → F
  | reqPublic .read | grantWitness .read | nonceWitness | nonceInvWitness | grantIdMixInv | grantorMixInv => 1
  | currentTimePublic => currentTime
  | createdAtWitness => createdAt
  | createdDeltaWitness => createdDelta
  | expiresAtWitness => expiresAt
  | hasExpiryWitness => hasExpiry
  | expiryDeltaWitness => expiryDelta
  | _ => 0

theorem satisfies_readAssignment {F : Type} [Field F]
    {currentTime createdAt createdDelta expiresAt hasExpiry expiryDelta : F}
    (hcreated : createdAt + createdDelta = currentTime)
    (hexpiry : (expiresAt = 0 ∧ hasExpiry = 0) ∨ (currentTime + 1 + expiryDelta = expiresAt ∧ hasExpiry = 1)) :
    Satisfies (credentialConstraints F)
      (readAssignment F currentTime createdAt createdDelta expiresAt hasExpiry expiryDelta) := by
  refine satisfies_credentialConstraints.mpr
    ⟨rfl, rfl, rfl, rfl, ?_, ?_, ?_, rfl, mul_one 1, hcreated, ?_, ?_, ?_, ?_, ?_⟩
  · intro mode
    cases mode <;> simp [readAssignment]
  · intro mode
    cases mode <;> simp [readAssignment]
  · intro mode
    cases mode <;> simp [readAssignment]
  · exact hexpiry.imp (·.2) (·.2)
  · exact hexpiry.imp (·.1) (·.2)
  · exact hexpiry.symm.imp (·.1) (·.2)
  · simp [readAssignment]
  · simp [readAssignment]

end Sound

/-! ### A forged grant -/

@[irreducible] def samplePrime : Nat := mersenne 521

theorem samplePrime_prime : samplePrime.Prime := by
  unfold samplePrime
  exact lucas_lehmer_sufficiency _ (by norm_num) (by norm_num)

instance : Fact samplePrime.Prime := ⟨samplePrime_prime⟩

theorem lt_samplePrime : 2 ^ 130 < samplePrime := by
  have hlt (n : Nat) (hn : 131 ≤ n) : 2 ^ 130 < mersenne n := by
    have hpow : 2 ^ 131 ≤ 2 ^ n := Nat.pow_le_pow_right two_pos hn
    unfold mersenne
    omega
  unfold samplePrime
  exact hlt 521 (by norm_num)

theorem val_samplePrime {n : Nat} (h : n < 2 ^ 64) : ((n : ZMod samplePrime)).val = n :=
  ZMod.val_natCast_of_lt (by have := lt_samplePrime; omega)

/-- At the time 5 a grant made at 3 that expires at 9. -/
theorem grantValid_iff_differencesBounded_sample :
    GrantValid (readAssignment (ZMod samplePrime) (5 : Nat) (3 : Nat) (2 : Nat) (9 : Nat) (1 : Nat) (3 : Nat)) ↔
      DifferencesBounded
        (readAssignment (ZMod samplePrime) (5 : Nat) (3 : Nat) (2 : Nat) (9 : Nat) (1 : Nat) (3 : Nat)) := by
  have hval (n : Nat) (h : n < 2 ^ 64) : ((n : ZMod samplePrime)).val < 2 ^ 64 := (val_samplePrime h).trans_lt h
  exact grantValid_iff_differencesBounded lt_samplePrime
    (satisfies_readAssignment (by norm_num) (.inr ⟨by norm_num, by norm_num⟩))
    (hval 5 (by norm_num)) (hval 3 (by norm_num)) (hval 9 (by norm_num))

/-- At the time 0 a grant that will be made at 1 is accepted, with the difference −1. -/
theorem forged_not_grantValid :
    ¬ ∀ (p : Nat) [Fact p.Prime] (z : CredentialVariable → ZMod p), 2 ^ 130 < p →
      Satisfies (credentialConstraints (ZMod p)) z → (z currentTimePublic).val < 2 ^ 64 →
      (z createdAtWitness).val < 2 ^ 64 → (z expiresAtWitness).val < 2 ^ 64 → GrantValid z := by
  intro h
  have hzero : ((0 : ZMod samplePrime)).val = 0 := ZMod.val_zero
  have hone : ((1 : ZMod samplePrime)).val = 1 := by simpa using val_samplePrime (n := 1) (by norm_num)
  have hcreated := (h samplePrime (readAssignment _ 0 1 (-1) 0 0 0) lt_samplePrime
    (satisfies_readAssignment (by norm_num) (.inl ⟨rfl, rfl⟩))
    (hzero.trans_lt (by norm_num)) (hone.trans_lt (by norm_num)) (hzero.trans_lt (by norm_num))).created
  change ((1 : ZMod samplePrime)).val ≤ ((0 : ZMod samplePrime)).val at hcreated
  rw [hone, hzero] at hcreated
  omega

end AgentHalo.Credential
