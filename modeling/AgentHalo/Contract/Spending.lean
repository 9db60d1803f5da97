import AgentHalo.Contract.MultiChain

/-!
# How often a trust proof is spent

The contract keeps, for each agent, the sequence number of the last proof that it accepted from that agent, and accepts
only larger ones. Nothing in a proof names the sender, so a pair of proof and signals is accepted at most once from each
sender (`spent_once_by_sender`), whichever of the two entry points it comes through, and once from as many senders as
care to send it (`spent_by_two`).
-/

namespace AgentHalo.Contract

open Outcome Run

/-- The proof and the signals that a call certifies its sender by. -/
def Entry.trustProof : Entry → Option (Bytes × List Uint256)
  | .inherited (.attestAndPay proof publicSignals) => some (proof, publicSignals)
  | .submitCompositeAttestation proof publicSignals _ => some (proof, publicSignals)
  | _ => none

/-! ### What a call does to the registry -/

/-- What the checks let pass. -/
structure Certifies (ctx : Context) (proof : Bytes) (publicSignals : List Uint256) (registry : Address → AgentRecord)
    (claim : Claim) : Prop where
  claim_eq : claim = .ofSignals publicSignals
  length : 6 ≤ publicSignals.length
  verified : ctx.verifyProof proof publicSignals = true
  digest : claim.pufDigest ≠ 0
  tier_ne : claim.tier ≠ 0
  tier_le : claim.tier ≤ 4
  passes : (registry ctx.msgSender).active = true → (registry ctx.msgSender).lastReplaySeq < claim.replaySeq

variable {ctx : Context} {S : Type} {sender treasury : Address} {fee : Uint256} {s s' : S}

theorem checkTrustProof_ok {proof : Bytes} {publicSignals : List Uint256} {registry : Address → AgentRecord} {claim : Claim}
    (h : checkTrustProof ctx proof publicSignals registry = .ok claim) :
    Certifies ctx proof publicSignals registry claim := by
  unfold checkTrustProof at h
  simp only [bind, bind_eq_ok, require_eq_ok, pure, Except.pure, Except.ok.injEq, Bool.not_or, Bool.and_eq_true,
    Bool.not_eq_true', beq_eq_false_iff_ne, decide_eq_false_iff_not] at h
  obtain ⟨_, hlength, _, hverified, _, hdigest, _, ⟨htier, hle⟩, _, hseq, rfl⟩ := h
  refine ⟨rfl, by simpa using hlength, hverified, by simpa using hdigest, htier, BitVec.not_lt.mp hle, fun hactive => ?_⟩
  rw [hactive] at hseq
  simpa using hseq

theorem payFee_cases {token : Transfer S} (h : payFee token sender treasury fee s = .ok s') :
    s' = s ∨ token sender treasury fee s = some (true, s') := by
  unfold payFee at h
  split_ifs at h
  · split at h
    · cases h
    · cases h
    · rename_i hanswer
      exact .inr (by rw [hanswer, Except.ok.inj h])
  · exact .inl (Except.ok.inj h).symm

theorem payFee_plain {answer : Option Bool} (h : payFee (.plain answer) sender treasury fee s = .ok s') : s' = s := by
  obtain rfl | hanswer := payFee_cases h
  · rfl
  · obtain ⟨_, -, hpair⟩ := Option.map_eq_some_iff.mp hanswer
    exact (Prod.mk.inj hpair).2.symm

theorem verifyChains_registry {chains : List Uint256} {acc acc' : Uint256 × MultiStorage}
    (h : chains.foldlM (verifyChain ctx) acc = .ok acc') : acc'.2.base.registry = acc.2.base.registry := by
  induction chains generalizing acc with
  | nil =>
    obtain rfl := Except.ok.inj h
    rfl
  | cons chainId chains ih =>
    rw [List.foldlM_cons] at h
    obtain ⟨next, hnext, hrest⟩ := bind_eq_ok.mp h
    unfold verifyChain at hnext
    simp only [bind, bind_eq_ok, require_eq_ok, pure, Except.pure, Except.ok.injEq] at hnext
    obtain ⟨_, -, _, -, rfl⟩ := hnext
    exact (ih hrest).trans rfl

section Registry

variable {c : Deployment} {ctx : Context}

theorem attestAndPay_ok {token : Transfer Storage} {proof : Bytes} {publicSignals : List Uint256} {s s' : Storage}
    (h : attestAndPay c token ctx proof publicSignals s = .ok s') :
    ∃ claim paid, checkTrustProof ctx proof publicSignals s.registry = .ok claim ∧
      payFee token ctx.msgSender c.treasury c.feeWei (s.certify ctx claim) = .ok paid ∧ s'.registry = paid.registry := by
  unfold attestAndPay at h
  simp only [bind, bind_eq_ok, pure, Except.pure, Except.ok.injEq] at h
  obtain ⟨claim, hclaim, paid, hpaid, rfl⟩ := h
  exact ⟨claim, paid, hclaim, hpaid, rfl⟩

theorem submitCompositeAttestation_ok {keccak256 : Bytes → Bytes32} {token : Transfer MultiStorage} {proof : Bytes}
    {publicSignals chains : List Uint256} {s s' : MultiStorage}
    (h : submitCompositeAttestation keccak256 c token ctx proof publicSignals chains s = .ok s') :
    ∃ claim totalFee written paid, checkTrustProof ctx proof publicSignals s.base.registry = .ok claim ∧
      written.base.registry = Function.update s.base.registry ctx.msgSender (claim.record ctx) ∧
      payFee token ctx.msgSender c.treasury totalFee written = .ok paid ∧ s'.base.registry = paid.base.registry := by
  unfold submitCompositeAttestation at h
  simp only [bind, bind_eq_ok, pure, Except.pure, Except.ok.injEq] at h
  obtain ⟨_, -, _, -, claim, hclaim, ⟨totalFee, s₁⟩, hchains, paid, hpaid, rfl⟩ := h
  refine ⟨claim, totalFee, _, paid, hclaim, ?_, hpaid, rfl⟩
  rw [← (verifyChains_registry hchains : s₁.base.registry = s.base.registry)]
  rfl

theorem verifyAndRecordInternal_registry {answer : Option Bool} {proofWords : Vector Uint256 8}
    {publicInputs : List Uint256} {attester : Address} {s : Storage} {result : Attestation × Storage}
    (h : verifyAndRecordInternal c (.plain answer) ctx proofWords publicInputs attester s = .ok result) :
    result.2.registry = s.registry := by
  unfold verifyAndRecordInternal Storage.record at h
  simp only [bind, bind_eq_ok, pure, Except.pure, Except.ok.injEq] at h
  obtain ⟨_, -, _, hpaid, _, ⟨_, -, _, -, rfl⟩, rfl⟩ := h
  obtain rfl := payFee_plain hpaid
  rfl

end Registry

namespace MultiChain

variable {m : MultiChain} {s s' : MultiStorage} {tx : Transaction}

theorem perform_registry (h : m.perform s tx = .ok s') :
    (∃ pair claim, tx.entry.trustProof = some pair ∧
      checkTrustProof tx.ctx pair.1 pair.2 s.base.registry = .ok claim ∧
      s'.base.registry = Function.update s.base.registry tx.ctx.msgSender (claim.record tx.ctx)) ∨
    tx.entry.trustProof = none ∧ s'.base.registry = s.base.registry := by
  obtain ⟨ctx, entry, transferred⟩ := tx
  cases entry with
  | inherited request =>
    obtain ⟨base, hbase, rfl⟩ := map_eq_ok.mp h
    cases request with
    | attestAndPay proof publicSignals =>
      obtain ⟨claim, paid, hclaim, hpaid, hregistry⟩ := attestAndPay_ok hbase
      rw [payFee_plain hpaid] at hregistry
      exact .inl ⟨_, claim, rfl, hclaim, hregistry⟩
    | verifyAndRecord proofWords publicInputs =>
      obtain ⟨result, hresult, hemitted⟩ := bind_eq_ok.mp hbase
      obtain rfl := Except.ok.inj hemitted
      exact .inr ⟨rfl, verifyAndRecordInternal_registry hresult⟩
    | verifyAndRecordAnonymous proofWords publicInputs =>
      obtain ⟨result, hresult, hemitted⟩ := bind_eq_ok.mp hbase
      obtain rfl := Except.ok.inj hemitted
      exact .inr ⟨rfl, verifyAndRecordInternal_registry hresult⟩
  | transferOwnership newOwner =>
    simp only [perform, transferOwnership, bind, bind_eq_ok, pure, Except.pure, Except.ok.injEq] at h
    obtain ⟨_, -, _, -, rfl⟩ := h
    exact .inr ⟨rfl, rfl⟩
  | registerChain chainId verifierAddress metadataHash =>
    simp only [perform, registerChain, bind, bind_eq_ok, pure, Except.pure, Except.ok.injEq] at h
    obtain ⟨_, -, _, -, _, -, rfl⟩ := h
    exact .inr ⟨rfl, rfl⟩
  | setChainFee chainId fee =>
    simp only [perform, setChainFee, bind, bind_eq_ok, pure, Except.pure, Except.ok.injEq] at h
    obtain ⟨_, -, rfl⟩ := h
    exact .inr ⟨rfl, rfl⟩
  | setDefaultFee fee =>
    simp only [perform, setDefaultFee, bind, bind_eq_ok, pure, Except.pure, Except.ok.injEq] at h
    obtain ⟨_, -, rfl⟩ := h
    exact .inr ⟨rfl, rfl⟩
  | submitCompositeAttestation proof publicSignals chains =>
    obtain ⟨claim, _, written, paid, hclaim, hwritten, hpaid, hregistry⟩ := submitCompositeAttestation_ok h
    rw [payFee_plain hpaid, hwritten] at hregistry
    exact .inl ⟨_, claim, rfl, hclaim, hregistry⟩

/-- The transaction certifies the sender by the pair and is accepted. -/
def spends (m : MultiChain) (sender : Address) (pair : Bytes × List Uint256) (s : MultiStorage) (tx : Transaction) : Bool :=
  tx.entry.trustProof = some pair && tx.ctx.msgSender = sender && (m.perform s tx).isOk

/-- The agent is certified with a sequence number that is not below the given one. -/
def Passed (sender : Address) (seq : Uint64) (s : MultiStorage) : Prop :=
  (s.base.registry sender).active = true ∧ seq ≤ (s.base.registry sender).lastReplaySeq

theorem step_of_ok (h : m.perform s tx = .ok s') : m.step s tx = s' := by rw [step, h]

theorem Passed.step {sender : Address} {seq : Uint64} (h : Passed sender seq s) (tx : Transaction) :
    Passed sender seq (m.step s tx) := by
  cases hperform : m.perform s tx with
  | error e => rwa [MultiChain.step, hperform]
  | ok s' =>
    rw [step_of_ok hperform]
    obtain ⟨pair, claim, -, hclaim, hregistry⟩ | ⟨-, hregistry⟩ := perform_registry hperform
    · have hpasses := (checkTrustProof_ok hclaim).passes
      by_cases hsender : sender = tx.ctx.msgSender
      · subst hsender
        rw [Passed, hregistry, Function.update_self]
        exact ⟨rfl, BitVec.le_trans h.2 (BitVec.le_of_lt (hpasses h.1))⟩
      · rwa [Passed, hregistry, Function.update_of_ne hsender]
    · rwa [Passed, hregistry]

variable {sender : Address} {pair : Bytes × List Uint256}

theorem passed_of_spends (h : m.spends sender pair s tx = true) :
    Passed sender (uint64 (pair.2.getD 5 0)) (m.step s tx) := by
  simp only [spends, Bool.and_eq_true, decide_eq_true_eq] at h
  obtain ⟨⟨hpair, rfl⟩, hok⟩ := h
  cases hperform : m.perform s tx with
  | error e =>
    rw [hperform] at hok
    cases hok
  | ok s' =>
    rw [step_of_ok hperform]
    obtain ⟨pair', claim, hpair', hclaim, hregistry⟩ | ⟨hnone, -⟩ := perform_registry hperform
    · obtain rfl := Option.some.inj (hpair.symm.trans hpair')
      rw [Passed, hregistry, Function.update_self, (checkTrustProof_ok hclaim).claim_eq]
      exact ⟨rfl, BitVec.le_refl _⟩
    · rw [hpair] at hnone
      cases hnone

theorem not_spends_of_passed (h : Passed sender (uint64 (pair.2.getD 5 0)) s) (tx : Transaction) :
    m.spends sender pair s tx = false := by
  by_contra hspends
  rw [Bool.not_eq_false] at hspends
  simp only [spends, Bool.and_eq_true, decide_eq_true_eq] at hspends
  obtain ⟨⟨hpair, rfl⟩, hok⟩ := hspends
  cases hperform : m.perform s tx with
  | error e =>
    rw [hperform] at hok
    cases hok
  | ok s' =>
    obtain ⟨pair', claim, hpair', hclaim, -⟩ | ⟨hnone, -⟩ := perform_registry hperform
    · obtain rfl := Option.some.inj (hpair.symm.trans hpair')
      have hlt := (checkTrustProof_ok hclaim).passes h.1
      rw [(checkTrustProof_ok hclaim).claim_eq] at hlt
      exact BitVec.not_lt.mpr h.2 hlt
    · rw [hpair] at hnone
      cases hnone

/-- **How often a trust proof is spent**: at most once by each sender, over all transactions. -/
theorem spent_once_by_sender (m : MultiChain) (owner : Address) (defaultFee : Uint256) (run : List Transaction)
    (sender : Address) (pair : Bytes × List Uint256) :
    tally m.step (m.spends sender pair) (.initial owner defaultFee) run ≤ 1 :=
  tally_le_one (Q := Passed sender (uint64 (pair.2.getD 5 0))) (fun _ tx h => Passed.step h tx)
    (fun _ _ => passed_of_spends) (fun _ tx h => not_spends_of_passed h tx) _ run

end MultiChain

/-! ### Two senders -/

/-- The transaction carries the pair and is accepted, whoever sends it. -/
def MultiChain.accepts (m : MultiChain) (pair : Bytes × List Uint256) (s : MultiStorage) (tx : Transaction) : Bool :=
  tx.entry.trustProof = some pair && (m.perform s tx).isOk

def samplePair : Bytes × List Uint256 := ([1], [1, 2, 3, 4, 1, 1])

/-- The pair in a transaction of a sender; the verifier answers for this pair only, and the token pays. -/
def sampleTransaction (msgSender : Address) : Transaction where
  ctx := { msgSender, blockTimestamp := 1, verifyProof proof signals := (proof, signals) = samplePair,
           timestamp_pos := by decide, timestamp_lt := by decide }
  entry := .inherited (.attestAndPay samplePair.1 samplePair.2)
  transferred := some true

def sampleChain : MultiChain := ⟨⟨1, 2, 3, 10⟩, fun _ => 0⟩

/-- The proof of one agent certifies another. -/
theorem spent_by_two :
    tally sampleChain.step (sampleChain.accepts samplePair) (.initial 9 0) [sampleTransaction 1, sampleTransaction 2] = 2 := by
  decide

end AgentHalo.Contract
