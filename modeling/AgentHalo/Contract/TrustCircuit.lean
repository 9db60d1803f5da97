import AgentHalo.Contract.Spending
import AgentHalo.Lib.Bn254
import AgentHalo.Lib.Circom

/-!
# What the contract records of a trust proof

The circuit bounds the tier and the sequence number by the comparators of the circuit library, and the contract cuts both
to the width of their fields. The tier lies in `[1, 4]`. The comparator of the sequence number is not given a number that
is known to have 64 bits: it accepts `[1, 2 ^ 64]`, and `2 ^ 64` is recorded as zero (`records_iff`).
-/

namespace AgentHalo.Contract

open Circom Outcome

abbrev Fr := ZMod Bn254.scalarModulus

/-! ### The circuit -/

structure TrustSignals where
  pufDigestLimb0 : Fr
  pufDigestLimb1 : Fr
  pufDigestLimb2 : Fr
  pufDigestLimb3 : Fr
  tier : Fr
  replaySeq : Fr

/-- The inputs, the output of the hasher, the bits of the comparators and the outputs. -/
structure TrustWitness where
  pufResponse : List Fr
  tierIn : Fr
  replaySeqIn : Fr
  hasherOut : List Fr
  tierGeBits : List Fr
  tierLeBits : List Fr
  seqGtBits : List Fr
  publicSignals : TrustSignals

def limbBits (hasherOut : List Fr) (k : Nat) : List Fr := (hasherOut.drop (64 * k)).take 64

/-- The constraints; `sha256` are those of the hasher between its input and its output. -/
structure TrustAttestation (sha256 : List Fr → List Fr → Prop) (w : TrustWitness) : Prop where
  length_pufResponse : w.pufResponse.length = 256
  pufResponse : ∀ b ∈ w.pufResponse, b * (1 - b) = 0
  length_hasherOut : w.hasherOut.length = 256
  hasher : sha256 w.pufResponse w.hasherOut
  pufDigestLimb0 : w.publicSignals.pufDigestLimb0 = bits2Num (limbBits w.hasherOut 0)
  pufDigestLimb1 : w.publicSignals.pufDigestLimb1 = bits2Num (limbBits w.hasherOut 1)
  pufDigestLimb2 : w.publicSignals.pufDigestLimb2 = bits2Num (limbBits w.hasherOut 2)
  pufDigestLimb3 : w.publicSignals.pufDigestLimb3 = bits2Num (limbBits w.hasherOut 3)
  tierGe : GreaterEqThan 8 w.tierIn 1 1 w.tierGeBits
  tierLe : LessEqThan 8 w.tierIn 4 1 w.tierLeBits
  tier : w.publicSignals.tier = w.tierIn
  seqGt : GreaterThan 64 w.replaySeqIn 0 1 w.seqGtBits
  replaySeq : w.publicSignals.replaySeq = w.replaySeqIn

theorem two_pow_le_scalarModulus {n : Nat} (h : n ≤ 253) : 2 ^ n ≤ Bn254.scalarModulus :=
  (Nat.pow_le_pow_right Nat.two_pos h).trans Bn254.two_pow_lt_scalarModulus.le

theorem tierGe_shift {tier : Fr} : (1 + 2 ^ 8 - (tier + 1) : Fr).val < 2 ^ 8 ↔ 1 ≤ tier.val ∧ tier.val ≤ 2 ^ 8 := by
  rw [show (1 + 2 ^ 8 - (tier + 1) : Fr) = ((2 ^ 8 : Nat) : Fr) - tier by push_cast; ring,
    val_natCast_sub_lt_iff (by decide)]

theorem tierLe_shift {tier : Fr} (h : tier.val ≤ 2 ^ 8) : (tier + 2 ^ 8 - (4 + 1) : Fr).val < 2 ^ 8 ↔ tier.val ≤ 4 := by
  have hshift : (tier + 2 ^ 8 - (4 + 1) : Fr) = ((tier.val + 251 : Nat) : Fr) := by
    rw [Nat.cast_add, ZMod.natCast_zmod_val]
    push_cast
    ring
  have hsmall : tier.val + 251 < Bn254.scalarModulus :=
    (show tier.val + 251 < 2 ^ 253 by omega).trans Bn254.two_pow_lt_scalarModulus
  rw [hshift, ZMod.val_natCast_of_lt hsmall]
  omega

theorem seqGt_shift {replaySeq : Fr} :
    (0 + 2 ^ 64 - replaySeq : Fr).val < 2 ^ 64 ↔ 1 ≤ replaySeq.val ∧ replaySeq.val ≤ 2 ^ 64 := by
  rw [show (0 + 2 ^ 64 - replaySeq : Fr) = ((2 ^ 64 : Nat) : Fr) - replaySeq by push_cast; ring,
    val_natCast_sub_lt_iff (by decide)]

section Bounds

variable {sha256 : List Fr → List Fr → Prop} {w : TrustWitness}

theorem TrustAttestation.tier_bounds (h : TrustAttestation sha256 w) :
    1 ≤ w.publicSignals.tier.val ∧ w.publicSignals.tier.val ≤ 4 := by
  rw [h.tier]
  have hge := tierGe_shift.mp ((LessThan.out_eq_one_iff h.tierGe (two_pow_le_scalarModulus (by decide))).mp rfl)
  have hle := (LessThan.out_eq_one_iff h.tierLe (two_pow_le_scalarModulus (by decide))).mp rfl
  exact ⟨hge.1, (tierLe_shift hge.2).mp hle⟩

theorem TrustAttestation.replaySeq_bounds (h : TrustAttestation sha256 w) :
    1 ≤ w.publicSignals.replaySeq.val ∧ w.publicSignals.replaySeq.val ≤ 2 ^ 64 := by
  rw [h.replaySeq]
  exact seqGt_shift.mp ((LessThan.out_eq_one_iff h.seqGt (two_pow_le_scalarModulus (by decide))).mp rfl)

end Bounds

/-- What the generator computes from the inputs and the hash. -/
def TrustWitness.generate (pufResponse hasherOut : List Fr) (tierIn replaySeqIn : Fr) : TrustWitness where
  pufResponse
  tierIn
  replaySeqIn
  hasherOut
  tierGeBits := lessThanBits 8 1 (tierIn + 1)
  tierLeBits := lessThanBits 8 tierIn (4 + 1)
  seqGtBits := lessThanBits 64 0 replaySeqIn
  publicSignals :=
    { pufDigestLimb0 := bits2Num (limbBits hasherOut 0)
      pufDigestLimb1 := bits2Num (limbBits hasherOut 1)
      pufDigestLimb2 := bits2Num (limbBits hasherOut 2)
      pufDigestLimb3 := bits2Num (limbBits hasherOut 3)
      tier := tierIn
      replaySeq := replaySeqIn }

theorem generate_satisfies {sha256 : List Fr → List Fr → Prop} {pufResponse hasherOut : List Fr} {tierIn replaySeqIn : Fr}
    (hresponse : pufResponse.length = 256) (hbits : ∀ b ∈ pufResponse, b * (1 - b) = 0) (hout : hasherOut.length = 256)
    (hsha : sha256 pufResponse hasherOut) (htier : 1 ≤ tierIn.val ∧ tierIn.val ≤ 4)
    (hseq : 1 ≤ replaySeqIn.val ∧ replaySeqIn.val ≤ 2 ^ 64) :
    TrustAttestation sha256 (.generate pufResponse hasherOut tierIn replaySeqIn) where
  length_pufResponse := hresponse
  pufResponse := hbits
  length_hasherOut := hout
  hasher := hsha
  pufDigestLimb0 := rfl
  pufDigestLimb1 := rfl
  pufDigestLimb2 := rfl
  pufDigestLimb3 := rfl
  tierGe := lessThan_lessThanBits (two_pow_le_scalarModulus (by decide)) (tierGe_shift.mpr ⟨htier.1, htier.2.trans (by decide)⟩)
  tierLe := lessThan_lessThanBits (two_pow_le_scalarModulus (by decide))
    ((tierLe_shift (htier.2.trans (by decide))).mpr htier.2)
  tier := rfl
  seqGt := lessThan_lessThanBits (two_pow_le_scalarModulus (by decide)) (seqGt_shift.mpr hseq)
  replaySeq := rfl

/-! ### The contract -/

def TrustSignals.words (signals : TrustSignals) : List Uint256 :=
  [signals.pufDigestLimb0, signals.pufDigestLimb1, signals.pufDigestLimb2, signals.pufDigestLimb3, signals.tier,
    signals.replaySeq].map fun x => BitVec.ofNat 256 x.val

/-- A call that certifies its sender, and the token that it finds. -/
inductive TrustCall where
  | attestAndPay (token : Transfer Storage)
  | submitCompositeAttestation (token : Transfer MultiStorage) (chains : List Uint256)

def TrustCall.perform (m : MultiChain) (ctx : Context) (proof : Bytes) (publicSignals : List Uint256) (s : MultiStorage) :
    TrustCall → Except Revert MultiStorage
  | attestAndPay token =>
    (Contract.attestAndPay m.deployment token ctx proof publicSignals s.base).map fun base => { s with base }
  | submitCompositeAttestation token chains =>
    Contract.submitCompositeAttestation m.keccak256 m.deployment token ctx proof publicSignals chains s

/-- Whatever the token does, it leaves what is recorded of the agent that pays. -/
def TrustCall.Keeps (agent : Address) : TrustCall → Prop
  | attestAndPay token =>
    ∀ treasury fee s answer s', token agent treasury fee s = some (answer, s') → s'.registry agent = s.registry agent
  | submitCompositeAttestation token _ =>
    ∀ treasury fee s answer s', token agent treasury fee s = some (answer, s') →
      s'.base.registry agent = s.base.registry agent

/-- The record has the tier and the sequence number of the signals, and they are in their ranges. -/
structure Records (signals : TrustSignals) (record : AgentRecord) : Prop where
  tier : record.tier.toNat = signals.tier.val
  tier_pos : 1 ≤ signals.tier.val
  tier_le : signals.tier.val ≤ 4
  replaySeq : record.lastReplaySeq.toNat = signals.replaySeq.val
  replaySeq_pos : 0 < signals.replaySeq.val
  replaySeq_lt : signals.replaySeq.val < 2 ^ 64

theorem TrustCall.perform_registry {m : MultiChain} {ctx : Context} {proof : Bytes} {publicSignals : List Uint256}
    {s s' : MultiStorage} {call : TrustCall} (hkeeps : call.Keeps ctx.msgSender)
    (h : call.perform m ctx proof publicSignals s = .ok s') :
    s'.base.registry ctx.msgSender = (Claim.ofSignals publicSignals).record ctx := by
  cases call with
  | attestAndPay token =>
    obtain ⟨base, hbase, rfl⟩ := map_eq_ok.mp h
    obtain ⟨claim, paid, hclaim, hpaid, hregistry⟩ := attestAndPay_ok hbase
    have hwritten : (s.base.certify ctx claim).registry ctx.msgSender = claim.record ctx := Function.update_self ..
    rw [← (checkTrustProof_ok hclaim).claim_eq, ← hwritten, hregistry]
    obtain rfl | hanswer := payFee_cases hpaid
    · rfl
    · exact hkeeps _ _ _ _ _ hanswer
  | submitCompositeAttestation token chains =>
    obtain ⟨claim, totalFee, written, paid, hclaim, hwritten, hpaid, hregistry⟩ := submitCompositeAttestation_ok h
    replace hwritten : written.base.registry ctx.msgSender = claim.record ctx := by rw [hwritten, Function.update_self]
    rw [← (checkTrustProof_ok hclaim).claim_eq, ← hwritten, hregistry]
    obtain rfl | hanswer := payFee_cases hpaid
    · rfl
    · exact hkeeps _ _ _ _ _ hanswer

theorem toNat_setWidth_ofNat {n k : Nat} (hk : k < 2 ^ 256) :
    ((BitVec.ofNat 256 k).setWidth n).toNat = k % 2 ^ n := by
  rw [BitVec.toNat_setWidth, BitVec.toNat_ofNat, Nat.mod_eq_of_lt hk]

/-- **What the contract records of a proof**: what the circuit has bounded, unless the sequence number is `2 ^ 64`. -/
theorem records_iff {sha256 : List Fr → List Fr → Prop} {w : TrustWitness} (hw : TrustAttestation sha256 w)
    {m : MultiChain} {ctx : Context} {proof : Bytes} {s s' : MultiStorage} {call : TrustCall}
    (hkeeps : call.Keeps ctx.msgSender) (h : call.perform m ctx proof w.publicSignals.words s = .ok s') :
    Records w.publicSignals (s'.base.registry ctx.msgSender) ↔ w.publicSignals.replaySeq.val ≠ 2 ^ 64 := by
  obtain ⟨htierPos, htierLe⟩ := hw.tier_bounds
  obtain ⟨hseqPos, hseqLe⟩ := hw.replaySeq_bounds
  rw [TrustCall.perform_registry hkeeps h]
  constructor
  · intro hrecords heq
    exact hrecords.replaySeq_lt.ne heq
  · intro hne
    have htier : ((Claim.ofSignals w.publicSignals.words).record ctx).tier.toNat = w.publicSignals.tier.val % 2 ^ 8 :=
      toNat_setWidth_ofNat (by omega)
    have hseq : ((Claim.ofSignals w.publicSignals.words).record ctx).lastReplaySeq.toNat =
        w.publicSignals.replaySeq.val % 2 ^ 64 := toNat_setWidth_ofNat (by omega)
    exact ⟨by omega, htierPos, htierLe, by omega, hseqPos, by omega⟩

/-! ### The bound of the comparator -/

/-- The bits of a byte, the highest first. -/
def msbBits (b : UInt8) : List Nat := (natBits 8 b.toNat).reverse

/-- The bits of a digest in the order in which the hasher of the circuit library has them. -/
def digestBits (digest : Bytes) : List Fr := (digest.flatMap msbBits).map Nat.cast

theorem length_digestBits (digest : Bytes) : (digestBits digest).length = 8 * digest.length := by
  simp [digestBits, msbBits, List.length_flatMap, mul_comm]

def zeroResponseDigest : Bytes :=
  [0x66, 0x68, 0x7a, 0xad, 0xf8, 0x62, 0xbd, 0x77, 0x6c, 0x8f, 0xc1, 0x8b, 0x8e, 0x9f, 0x8e, 0x20,
    0x08, 0x97, 0x14, 0x85, 0x6e, 0xe2, 0x33, 0xb3, 0x90, 0x2a, 0x59, 0x1d, 0x0d, 0x5f, 0x29, 0x25]

def zeroSha256 (input output : List Fr) : Prop := input = List.replicate 256 0 ∧ output = digestBits zeroResponseDigest

/-- The zero response of a consumer device under a sequence number. -/
def zeroWitness (replaySeq : Fr) : TrustWitness :=
  .generate (List.replicate 256 0) (digestBits zeroResponseDigest) 1 replaySeq

theorem zeroWitness_satisfies {replaySeq : Fr} (h : 1 ≤ replaySeq.val ∧ replaySeq.val ≤ 2 ^ 64) :
    TrustAttestation zeroSha256 (zeroWitness replaySeq) := by
  refine generate_satisfies List.length_replicate (fun b hb => ?_) (length_digestBits _) ⟨rfl, rfl⟩ (by decide) h
  rw [List.eq_of_mem_replicate hb, zero_mul]

def zeroContext : Context := { (sampleTransaction 1).ctx with verifyProof := fun _ _ => true }

/-- The sender of the context certified with the signals of the zero response. -/
def zeroCall (replaySeq : Fr) : Except Revert MultiStorage :=
  (TrustCall.attestAndPay (.plain (some true))).perform sampleChain zeroContext []
    (zeroWitness replaySeq).publicSignals.words (.initial 9 0)

theorem keeps_plain (agent : Address) (answer : Option Bool) : (TrustCall.attestAndPay (.plain answer)).Keeps agent := by
  intro treasury fee s answer' s' h
  obtain ⟨_, -, hpair⟩ := Option.map_eq_some_iff.mp h
  rw [← (Prod.mk.inj hpair).2]

theorem exists_ok_of_isOk {ε α : Type} {x : Except ε α} (h : x.isOk = true) : ∃ a, x = .ok a := by
  cases x with
  | error e => cases h
  | ok a => exact ⟨a, rfl⟩

/-- Sequence number 7 is recorded. -/
theorem records_seven :
    ∃ s', zeroCall 7 = .ok s' ∧ Records (zeroWitness 7).publicSignals (s'.base.registry zeroContext.msgSender) := by
  obtain ⟨s', hs'⟩ := exists_ok_of_isOk (x := zeroCall 7) (by decide +kernel)
  exact ⟨s', hs', (records_iff (zeroWitness_satisfies (by decide)) (keeps_plain _ _) hs').mpr (by decide)⟩

/-- The sequence number `2 ^ 64` has a witness and is accepted, and zero is recorded. -/
theorem zero_recorded :
    TrustAttestation zeroSha256 (zeroWitness (2 ^ 64)) ∧ ∃ s', zeroCall (2 ^ 64) = .ok s' ∧
      (s'.base.registry zeroContext.msgSender).lastReplaySeq = 0 ∧
      ¬ Records (zeroWitness (2 ^ 64)).publicSignals (s'.base.registry zeroContext.msgSender) := by
  have hval : (zeroWitness (2 ^ 64)).publicSignals.replaySeq.val = 2 ^ 64 := by decide
  refine ⟨zeroWitness_satisfies (by decide), ?_⟩
  obtain ⟨s', hs'⟩ := exists_ok_of_isOk (x := zeroCall (2 ^ 64)) (by decide +kernel)
  refine ⟨s', hs', ?_, fun hrecords => hrecords.replaySeq_lt.ne hval⟩
  rw [TrustCall.perform_registry (keeps_plain _ _) hs']
  decide

end AgentHalo.Contract
