import AgentHalo.Base.Text
import AgentHalo.Lib.Outcome

/-!
# The trust verifier contract

The contract keeps what is certified of each agent (`attestAndPay`) and which session attestations were recorded
(`verifyAndRecord`). A call that reverts leaves nothing behind, so a call is a function to the storage after it or to the
reason of the revert. The token may do what it likes before it answers: it is a function of the storage that it finds, to
its answer and the storage that it leaves.
-/

namespace AgentHalo.Contract

open Outcome

abbrev Address := BitVec 160
abbrev Uint256 := BitVec 256
abbrev Bytes32 := BitVec 256
abbrev Uint64 := BitVec 64
abbrev Uint8 := BitVec 8

/-- The conversions of Solidity, which drop the high bits. -/
def uint64 (x : Uint256) : Uint64 := x.setWidth 64
def uint8 (x : Uint256) : Uint8 := x.setWidth 8
def uint256 {n : Nat} (x : BitVec n) : Uint256 := x.setWidth 256

def wordBytes (x : Uint256) : Bytes := (List.range 32).map fun i => UInt8.ofNat (x.toNat / 256 ^ (31 - i))

/-- The errors of the contracts, a failed check of the compiler's, and a revert of a contract that was called. -/
inductive Revert where
  | invalidProof
  | transferFailed
  | invalidDigest
  | invalidTier
  | sequenceRegression
  | invalidPublicInputs
  | attestationAlreadyRecorded
  | unauthorized
  | emptyChainSet
  | tooManyChains (provided maxAllowed : Nat)
  | chainNotRegistered (chainId : Uint256)
  | invalidMetadataHash
  | panic
  | external
deriving DecidableEq

inductive Event where
  | agentCertified (agent : Address) (pufDigest : Bytes32) (tier : Uint8) (timestamp replaySeq : Uint64) (feePaid : Uint256)
  | attestationRecorded (merkleRoot attestationDigest : Bytes32) (eventCount : Uint64) (attester : Address)
      (timestamp : Uint256)
  | anonymousAttestationRecorded (merkleRoot attestationDigest : Bytes32) (eventCount : Uint64) (timestamp : Uint256)
  | ownershipTransferred (previousOwner newOwner : Address)
  | chainRegistered (chainId : Uint256) (verifierAddress : Address) (metadataHash : Bytes32) (registeredAt : Uint64)
  | chainFeeUpdated (chainId fee : Uint256)
  | defaultFeeUpdated (fee : Uint256)
  | chainVerificationUpdated (agent : Address) (chainId : Uint256) (verified : Bool)
  | compositeAttestationSubmitted (agent : Address) (compositeCabHash : Bytes32) (timestamp : Uint64)
      (totalFee chainCount : Uint256)
deriving DecidableEq

structure AgentRecord where
  pufDigest : Bytes32
  lastAttestation : Uint64
  lastReplaySeq : Uint64
  tier : Uint8
  active : Bool
deriving DecidableEq

structure AttestationRecord where
  merkleRoot : Bytes32
  attestationDigest : Bytes32
  eventCount : Uint64
  attester : Address
  blockTimestamp : Uint64
  verified : Bool
deriving DecidableEq

/-- What a mapping holds where nothing was written. -/
def AgentRecord.unset : AgentRecord := ⟨0, 0, 0, 0, false⟩
def AttestationRecord.unset : AttestationRecord := ⟨0, 0, 0, 0, 0, false⟩

structure Deployment where
  verifier : Address
  usdc : Address
  treasury : Address
  feeWei : Uint256

/-- The storage, and the events that were emitted. -/
structure Storage where
  registry : Address → AgentRecord
  attestations : Bytes32 → AttestationRecord
  totalAttestations : Uint256
  totalVerifiedAttestations : Uint256
  logs : List Event

/-- The constructor leaves everything unset. -/
def Storage.initial : Storage := ⟨fun _ => .unset, fun _ => .unset, 0, 0, []⟩

/-- What a call sees: its sender, its block and what the verifier answers. A block has a time between 0 and 2^64. -/
structure Context where
  msgSender : Address
  blockTimestamp : Uint256
  verifyProof : Bytes → List Uint256 → Bool
  timestamp_pos : 0 < blockTimestamp.toNat
  timestamp_lt : blockTimestamp.toNat < 2 ^ 64

/-- `usdc.transferFrom(from, to, value)`: the answer and what it leaves, or a revert. -/
abbrev Transfer (S : Type) := Address → Address → Uint256 → S → Option (Bool × S)

/-- A token that answers without a call back; `none` is a revert. -/
def Transfer.plain {S : Type} (answer : Option Bool) : Transfer S := fun _ _ _ s => answer.map (·, s)

/-- A fee of zero is not asked for. -/
def payFee {S : Type} (token : Transfer S) (sender treasury : Address) (fee : Uint256) (s : S) : Except Revert S :=
  if 0 < fee then
    match token sender treasury fee s with
    | none => .error .external
    | some (false, _) => .error .transferFailed
    | some (true, s) => .ok s
  else .ok s

def Storage.emit (s : Storage) (event : Event) : Storage := { s with logs := s.logs ++ [event] }

/-- `x++` under the compiler's check for overflow. -/
def increment (x : Uint256) : Except Revert Uint256 := do
  require (x != BitVec.allOnes 256) .panic
  return x + 1

/-! ### Agents -/

def decodeDigest (sigs : List Uint256) : Bytes32 :=
  let a := uint64 (sigs.getD 0 0)
  let b := uint64 (sigs.getD 1 0)
  let c := uint64 (sigs.getD 2 0)
  let d := uint64 (sigs.getD 3 0)
  uint256 d <<< 192 ||| uint256 c <<< 128 ||| uint256 b <<< 64 ||| uint256 a

structure Claim where
  pufDigest : Bytes32
  tier : Uint8
  replaySeq : Uint64
deriving DecidableEq

def Claim.ofSignals (publicSignals : List Uint256) : Claim where
  pufDigest := decodeDigest publicSignals
  tier := uint8 (publicSignals.getD 4 0)
  replaySeq := uint64 (publicSignals.getD 5 0)

/-- The checks with which the calls that certify an agent begin. -/
def checkTrustProof (ctx : Context) (proof : Bytes) (publicSignals : List Uint256) (registry : Address → AgentRecord) :
    Except Revert Claim := do
  require (6 ≤ publicSignals.length) .invalidDigest
  require (ctx.verifyProof proof publicSignals) .invalidProof
  let claim := Claim.ofSignals publicSignals
  require (claim.pufDigest != 0) .invalidDigest
  require (!(claim.tier == 0 || 4 < claim.tier)) .invalidTier
  let prev := registry ctx.msgSender
  require (!(prev.active && claim.replaySeq ≤ prev.lastReplaySeq)) .sequenceRegression
  return claim

def Claim.record (claim : Claim) (ctx : Context) : AgentRecord where
  pufDigest := claim.pufDigest
  lastAttestation := uint64 ctx.blockTimestamp
  lastReplaySeq := claim.replaySeq
  tier := claim.tier
  active := true

def Storage.certify (s : Storage) (ctx : Context) (claim : Claim) : Storage :=
  { s with registry := Function.update s.registry ctx.msgSender (claim.record ctx) }

def attestAndPay (c : Deployment) (token : Transfer Storage) (ctx : Context) (proof : Bytes)
    (publicSignals : List Uint256) (s : Storage) : Except Revert Storage := do
  let claim ← checkTrustProof ctx proof publicSignals s.registry
  let s ← payFee token ctx.msgSender c.treasury c.feeWei (s.certify ctx claim)
  return s.emit
    (.agentCertified ctx.msgSender claim.pufDigest claim.tier (uint64 ctx.blockTimestamp) claim.replaySeq c.feeWei)

/-! ### Attestations -/

def packBytes32 (lo hi : Uint256) : Bytes32 :=
  (hi &&& (1 <<< 128 - 1)) <<< 128 ||| (lo &&& (1 <<< 128 - 1))

/-- What a call wants to record: the first two public inputs are the root, the next two the digest. -/
structure Attestation where
  merkleRoot : Bytes32
  digest : Bytes32
  eventCount : Uint64
deriving DecidableEq

def Attestation.ofInputs (publicInputs : List Uint256) : Attestation where
  merkleRoot := packBytes32 (publicInputs.getD 0 0) (publicInputs.getD 1 0)
  digest := packBytes32 (publicInputs.getD 2 0) (publicInputs.getD 3 0)
  eventCount := uint64 (publicInputs.getD 4 0)

/-- `abi.encode` of the points of a proof, whose arrays all have fixed lengths. -/
def proofBytes (proofWords : Vector Uint256 8) : Bytes := proofWords.toList.flatMap wordBytes

def checkAttestation (ctx : Context) (proofWords : Vector Uint256 8) (publicInputs : List Uint256) (s : Storage) :
    Except Revert Attestation := do
  require (5 ≤ publicInputs.length) .invalidPublicInputs
  require (ctx.verifyProof (proofBytes proofWords) publicInputs) .invalidProof
  let attestation := Attestation.ofInputs publicInputs
  require (attestation.digest != 0) .invalidDigest
  require ((s.attestations attestation.digest).blockTimestamp == 0) .attestationAlreadyRecorded
  return attestation

/-- What is written after the fee is paid. -/
def Storage.record (s : Storage) (ctx : Context) (attestation : Attestation) (attester : Address) :
    Except Revert Storage := do
  let totalAttestations ← increment s.totalAttestations
  let totalVerifiedAttestations ← increment s.totalVerifiedAttestations
  return { s with
    attestations := Function.update s.attestations attestation.digest
      { merkleRoot := attestation.merkleRoot
        attestationDigest := attestation.digest
        eventCount := attestation.eventCount
        attester
        blockTimestamp := uint64 ctx.blockTimestamp
        verified := true }
    totalAttestations
    totalVerifiedAttestations }

/-- `_verifyAndRecordInternal`; the attestation stands for the digest that it returns. -/
def verifyAndRecordInternal (c : Deployment) (token : Transfer Storage) (ctx : Context) (proofWords : Vector Uint256 8)
    (publicInputs : List Uint256) (attester : Address) (s : Storage) : Except Revert (Attestation × Storage) := do
  let attestation ← checkAttestation ctx proofWords publicInputs s
  let s ← payFee token ctx.msgSender c.treasury c.feeWei s
  let s ← s.record ctx attestation attester
  return (attestation, s)

def verifyAndRecord (c : Deployment) (token : Transfer Storage) (ctx : Context) (proofWords : Vector Uint256 8)
    (publicInputs : List Uint256) (s : Storage) : Except Revert Storage := do
  let (a, s) ← verifyAndRecordInternal c token ctx proofWords publicInputs ctx.msgSender s
  return s.emit (.attestationRecorded a.merkleRoot a.digest a.eventCount ctx.msgSender ctx.blockTimestamp)

/-- The attester is not kept. -/
def verifyAndRecordAnonymous (c : Deployment) (token : Transfer Storage) (ctx : Context)
    (proofWords : Vector Uint256 8) (publicInputs : List Uint256) (s : Storage) : Except Revert Storage := do
  let (a, s) ← verifyAndRecordInternal c token ctx proofWords publicInputs 0 s
  return s.emit (.anonymousAttestationRecorded a.merkleRoot a.digest a.eventCount ctx.blockTimestamp)

inductive Request where
  | attestAndPay (proof : Bytes) (publicSignals : List Uint256)
  | verifyAndRecord (proofWords : Vector Uint256 8) (publicInputs : List Uint256)
  | verifyAndRecordAnonymous (proofWords : Vector Uint256 8) (publicInputs : List Uint256)

def Request.perform (c : Deployment) (token : Transfer Storage) (ctx : Context) (s : Storage) :
    Request → Except Revert Storage
  | attestAndPay proof publicSignals => Contract.attestAndPay c token ctx proof publicSignals s
  | verifyAndRecord proofWords publicInputs => Contract.verifyAndRecord c token ctx proofWords publicInputs s
  | verifyAndRecordAnonymous proofWords publicInputs =>
    Contract.verifyAndRecordAnonymous c token ctx proofWords publicInputs s

def isVerified (s : Storage) (attestationDigest : Bytes32) : Bool := (s.attestations attestationDigest).verified

end AgentHalo.Contract
