import AgentHalo.Contract.TrustVerifier
import AgentHalo.Lib.Run

/-!
# The multi-chain verifier

The contract extends the trust verifier: an agent names chains with its proof and pays a fee for each, and an owner keeps
the list of chains and their fees. Both ways to certify an agent write to the one registry. A transaction is a call of an
entry point; one that reverts changes nothing.
-/

namespace AgentHalo.Contract

open Outcome

structure ChainRegistration where
  registered : Bool
  verifierAddress : Address
  metadataHash : Bytes32
  registeredAt : Uint64
deriving DecidableEq

structure CompositeAttestation where
  agent : Address
  chains : List Uint256
  compositeCabHash : Bytes32
  timestamp : Uint64
  valid : Bool
deriving DecidableEq

def ChainRegistration.unset : ChainRegistration := ⟨false, 0, 0, 0⟩
def CompositeAttestation.unset : CompositeAttestation := ⟨0, [], 0, 0, false⟩

structure MultiStorage where
  base : Storage
  owner : Address
  chainRegistry : Uint256 → ChainRegistration
  chainFees : Uint256 → Uint256
  defaultFee : Uint256
  chainVerification : Address → Uint256 → Bool
  compositeAttestations : Address → CompositeAttestation
  chainSeen : Uint256 → Bool
  registeredChains : List Uint256

def MultiStorage.initial (owner : Address) (defaultFee : Uint256) : MultiStorage where
  base := Storage.initial.emit (.ownershipTransferred 0 owner)
  owner
  chainRegistry _ := .unset
  chainFees _ := 0
  defaultFee
  chainVerification _ _ := false
  compositeAttestations _ := .unset
  chainSeen _ := false
  registeredChains := []

namespace MultiStorage

def emit (s : MultiStorage) (event : Event) : MultiStorage := { s with base := s.base.emit event }

end MultiStorage

def maxChainsPerAttestation : Nat := 8

/-! ### The owner -/

def transferOwnership (ctx : Context) (newOwner : Address) (s : MultiStorage) : Except Revert MultiStorage := do
  require (ctx.msgSender == s.owner) .unauthorized
  require (newOwner != 0) .unauthorized
  return { s.emit (.ownershipTransferred s.owner newOwner) with owner := newOwner }

def registerChain (ctx : Context) (chainId : Uint256) (verifierAddress : Address) (metadataHash : Bytes32)
    (s : MultiStorage) : Except Revert MultiStorage := do
  require (ctx.msgSender == s.owner) .unauthorized
  require (verifierAddress != 0) .unauthorized
  require (metadataHash != 0) .invalidMetadataHash
  let registeredAt := uint64 ctx.blockTimestamp
  let s := { s with
    chainSeen := Function.update s.chainSeen chainId true
    registeredChains := if s.chainSeen chainId then s.registeredChains else s.registeredChains ++ [chainId]
    chainRegistry := Function.update s.chainRegistry chainId ⟨true, verifierAddress, metadataHash, registeredAt⟩ }
  return s.emit (.chainRegistered chainId verifierAddress metadataHash registeredAt)

def setChainFee (ctx : Context) (chainId fee : Uint256) (s : MultiStorage) : Except Revert MultiStorage := do
  require (ctx.msgSender == s.owner) .unauthorized
  return { s with chainFees := Function.update s.chainFees chainId fee }.emit (.chainFeeUpdated chainId fee)

def setDefaultFee (ctx : Context) (fee : Uint256) (s : MultiStorage) : Except Revert MultiStorage := do
  require (ctx.msgSender == s.owner) .unauthorized
  return { s with defaultFee := fee }.emit (.defaultFeeUpdated fee)

/-! ### Composite attestations -/

/-- A chain without a fee of its own has the default fee. -/
def MultiStorage.feeOf (s : MultiStorage) (chainId : Uint256) : Uint256 :=
  if s.chainFees chainId = 0 then s.defaultFee else s.chainFees chainId

/-- One round of the loop over the chains, with the fees so far. -/
def verifyChain (ctx : Context) (acc : Uint256 × MultiStorage) (chainId : Uint256) :
    Except Revert (Uint256 × MultiStorage) := do
  let (totalFee, s) := acc
  require (s.chainRegistry chainId).registered (.chainNotRegistered chainId)
  let ofAgent := Function.update (s.chainVerification ctx.msgSender) chainId true
  let s := { s with chainVerification := Function.update s.chainVerification ctx.msgSender ofAgent }
  let fee := s.feeOf chainId
  require (totalFee.toNat + fee.toNat < 2 ^ 256) .panic
  return (totalFee + fee, s.emit (.chainVerificationUpdated ctx.msgSender chainId true))

/-- `abi.encode` of the certificate's parts: the offsets of the two arrays stand in the head. -/
def compositePreimage (sender : Address) (claim : Claim) (chains publicSignals : List Uint256) : Bytes :=
  let chainsOffset := 6 * 32
  let signalsOffset := chainsOffset + (chains.length + 1) * 32
  let head := [uint256 sender, claim.pufDigest, uint256 claim.tier, uint256 claim.replaySeq,
    BitVec.ofNat 256 chainsOffset, BitVec.ofNat 256 signalsOffset]
  let array (words : List Uint256) := BitVec.ofNat 256 words.length :: words
  (head ++ array chains ++ array publicSignals).flatMap wordBytes

def submitCompositeAttestation (keccak256 : Bytes → Bytes32) (c : Deployment) (token : Transfer MultiStorage)
    (ctx : Context) (proof : Bytes) (publicSignals chains : List Uint256) (s : MultiStorage) :
    Except Revert MultiStorage := do
  require (!chains.isEmpty) .emptyChainSet
  require (chains.length ≤ maxChainsPerAttestation) (.tooManyChains chains.length maxChainsPerAttestation)
  let claim ← checkTrustProof ctx proof publicSignals s.base.registry
  let (totalFee, s) ← chains.foldlM (verifyChain ctx) (0, s)
  let s ← payFee token ctx.msgSender c.treasury totalFee { s with base := s.base.certify ctx claim }
  let compositeCabHash := keccak256 (compositePreimage ctx.msgSender claim chains publicSignals)
  let timestamp := uint64 ctx.blockTimestamp
  let s := { s with
    compositeAttestations := Function.update s.compositeAttestations ctx.msgSender
      { agent := ctx.msgSender, chains, compositeCabHash, timestamp, valid := true } }
  return (s.emit (.compositeAttestationSubmitted ctx.msgSender compositeCabHash timestamp totalFee
    (BitVec.ofNat 256 chains.length))).emit
      (.agentCertified ctx.msgSender claim.pufDigest claim.tier timestamp claim.replaySeq totalFee)

/-! ### Transactions -/

inductive Entry where
  | inherited (request : Request)
  | transferOwnership (newOwner : Address)
  | registerChain (chainId : Uint256) (verifierAddress : Address) (metadataHash : Bytes32)
  | setChainFee (chainId fee : Uint256)
  | setDefaultFee (fee : Uint256)
  | submitCompositeAttestation (proof : Bytes) (publicSignals chains : List Uint256)

/-- A call with what it sees, and the answer of the token, which does not call back. -/
structure Transaction where
  ctx : Context
  entry : Entry
  transferred : Option Bool

structure MultiChain where
  deployment : Deployment
  keccak256 : Bytes → Bytes32

namespace MultiChain

variable (m : MultiChain)

def perform (s : MultiStorage) (tx : Transaction) : Except Revert MultiStorage :=
  match tx.entry with
  | .inherited request =>
    (request.perform m.deployment (.plain tx.transferred) tx.ctx s.base).map fun base => { s with base }
  | .transferOwnership newOwner => Contract.transferOwnership tx.ctx newOwner s
  | .registerChain chainId verifierAddress metadataHash =>
    Contract.registerChain tx.ctx chainId verifierAddress metadataHash s
  | .setChainFee chainId fee => Contract.setChainFee tx.ctx chainId fee s
  | .setDefaultFee fee => Contract.setDefaultFee tx.ctx fee s
  | .submitCompositeAttestation proof publicSignals chains =>
    Contract.submitCompositeAttestation m.keccak256 m.deployment (.plain tx.transferred) tx.ctx proof publicSignals chains s

def step (s : MultiStorage) (tx : Transaction) : MultiStorage :=
  match m.perform s tx with
  | .ok s' => s'
  | .error _ => s

end MultiChain

end AgentHalo.Contract
