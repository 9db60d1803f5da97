import AgentHalo.Contract.Spending

/-!
# Recording under re-entry

`verifyAndRecord` checks that a digest is new, asks the token for the fee, and then writes. The token may call the contract
before it answers, so a call is a tree: with the calls that are made back during its fee. The totals count the recordings
(`Booked`), and no digest is recorded twice exactly if none is recorded while a call for it waits for the token
(`recordedOnce_iff_undisturbed`).
-/

namespace AgentHalo.Contract

open Outcome Run

/-- A call, and what the token does while it is asked for the fee: the calls it makes back, in turn, and its answer. -/
inductive Call where
  | mk (ctx : Context) (request : Request) (callbacks : List Call) (transferred : Option Bool)

theorem Call.ind {P : Call → Prop}
    (h : ∀ ctx request callbacks transferred, (∀ call ∈ callbacks, P call) → P (.mk ctx request callbacks transferred))
    (call : Call) : P call :=
  Call.rec (motive_1 := P) (motive_2 := fun callbacks => ∀ call ∈ callbacks, P call) h (fun _ hmem => nomatch hmem)
    (fun _ _ hhead htail => List.forall_mem_cons.mpr ⟨hhead, htail⟩) call

section Execution

variable (c : Deployment)

mutual

/-- The storage after a call, or why it reverts. -/
def Call.perform : Call → Storage → Except Revert Storage
  | .mk ctx request callbacks transferred, s =>
    request.perform c (fun _ _ _ s => transferred.map (·, Call.performAll callbacks s)) ctx s

/-- The storage after the calls, of which each may revert. -/
def Call.performAll : List Call → Storage → Storage
  | [], s => s
  | call :: rest, s =>
    match Call.perform call s with
    | .ok s' => Call.performAll rest s'
    | .error _ => Call.performAll rest s

end

/-- The storage after a call; a revert undoes everything. -/
def Call.step (s : Storage) (call : Call) : Storage :=
  match call.perform c s with
  | .ok s' => s'
  | .error _ => s

theorem Call.performAll_eq (calls : List Call) (s : Storage) : Call.performAll c calls s = exec (Call.step c) s calls := by
  induction calls generalizing s with
  | nil => rfl
  | cons call rest ih =>
    rw [Call.performAll, exec_cons, Call.step]
    split <;> exact ih _

end Execution

/-! ### What a call does -/

def Request.checked (ctx : Context) (s : Storage) : Request → Bool
  | .attestAndPay proof publicSignals => (checkTrustProof ctx proof publicSignals s.registry).isOk
  | .verifyAndRecord proofWords publicInputs => (checkAttestation ctx proofWords publicInputs s).isOk
  | .verifyAndRecordAnonymous proofWords publicInputs => (checkAttestation ctx proofWords publicInputs s).isOk

/-- What the request has written when the token is asked. -/
def Request.before (ctx : Context) (s : Storage) : Request → Storage
  | .attestAndPay _ publicSignals => s.certify ctx (.ofSignals publicSignals)
  | _ => s

/-- What a request is about to record, and for whom. -/
def Request.recording (ctx : Context) : Request → Option (Attestation × Address)
  | .attestAndPay _ _ => none
  | .verifyAndRecord _ publicInputs => some (.ofInputs publicInputs, ctx.msgSender)
  | .verifyAndRecordAnonymous _ publicInputs => some (.ofInputs publicInputs, 0)

/-- The storage when the token has answered. -/
def Call.during (c : Deployment) (s : Storage) : Call → Storage
  | .mk ctx request callbacks _ =>
    if 0 < c.feeWei then exec (Call.step c) (request.before ctx s) callbacks else request.before ctx s

/-- The digests of the recordings that were made, in order. -/
def Event.recordedDigest : Event → Option Bytes32
  | .attestationRecorded _ digest _ _ _ => some digest
  | .anonymousAttestationRecorded _ digest _ _ => some digest
  | _ => none

def Storage.recorded (s : Storage) : List Bytes32 := s.logs.filterMap Event.recordedDigest

/-- `s'` has the same attestations, and the same books of them. -/
structure SameBooks (s s' : Storage) : Prop where
  attestations : s'.attestations = s.attestations
  total : s'.totalAttestations = s.totalAttestations
  totalVerified : s'.totalVerifiedAttestations = s.totalVerifiedAttestations
  recorded : s'.recorded = s.recorded

/-- `s'` has one attestation more than `s`, in the place of what was there. -/
structure Recorded (s s' : Storage) (attestation : Attestation) (attester : Address) (ctx : Context) : Prop where
  attestations : s'.attestations = Function.update s.attestations attestation.digest
    ⟨attestation.merkleRoot, attestation.digest, attestation.eventCount, attester, uint64 ctx.blockTimestamp, true⟩
  total : s'.totalAttestations.toNat = s.totalAttestations.toNat + 1
  totalVerified : s'.totalVerifiedAttestations.toNat = s.totalVerifiedAttestations.toNat + 1
  recorded : s'.recorded = s.recorded ++ [attestation.digest]

theorem increment_ok {x y : Uint256} (h : increment x = .ok y) : y.toNat = x.toNat + 1 := by
  unfold increment at h
  simp only [bind, bind_eq_ok, require_eq_ok, pure, Except.pure, Except.ok.injEq, bne_iff_ne, ne_eq] at h
  obtain ⟨_, hne, rfl⟩ := h
  have hlt : x.toNat + 1 < 2 ^ 256 := by
    have hmax : x.toNat ≠ 2 ^ 256 - 1 := fun heq => hne (BitVec.eq_of_toNat_eq (by simpa using heq))
    have hx := x.isLt
    omega
  exact (BitVec.toNat_add x 1).trans (Nat.mod_eq_of_lt hlt)

variable {callbacks : List Call} {transferred : Option Bool} {request : Request}

section Spec

variable {c : Deployment} {ctx : Context} {s s' : Storage}

theorem before_sameBooks (ctx : Context) (s : Storage) (request : Request) : SameBooks s (request.before ctx s) := by
  cases request <;> exact ⟨rfl, rfl, rfl, rfl⟩

theorem payFee_eq_ok {sender treasury : Address} :
    payFee (fun _ _ _ s => transferred.map (·, Call.performAll c callbacks s)) sender treasury c.feeWei s = .ok s' ↔
      (0 < c.feeWei → transferred = some true) ∧ s' = if 0 < c.feeWei then exec (Call.step c) s callbacks else s := by
  unfold payFee
  by_cases hfee : 0 < c.feeWei
  · rw [if_pos hfee, if_pos hfee]
    match transferred with
    | none => exact ⟨nofun, fun h => nomatch h.1 hfee⟩
    | some false => exact ⟨nofun, fun h => nomatch h.1 hfee⟩
    | some true =>
      rw [← Call.performAll_eq]
      exact ⟨fun h => ⟨fun _ => rfl, (Except.ok.inj h).symm⟩, fun h => congrArg _ h.2.symm⟩
  · rw [if_neg hfee, if_neg hfee]
    exact ⟨fun h => ⟨fun h' => absurd h' hfee, (Except.ok.inj h).symm⟩, fun h => congrArg _ h.2.symm⟩

theorem record_ok {attestation : Attestation} {attester : Address} {event : Event}
    (h : s.record ctx attestation attester = .ok s') (hevent : event.recordedDigest = some attestation.digest) :
    Recorded s (s'.emit event) attestation attester ctx := by
  unfold Storage.record at h
  simp only [bind, bind_eq_ok, pure, Except.pure, Except.ok.injEq] at h
  obtain ⟨total, htotal, totalVerified, htotalVerified, rfl⟩ := h
  refine ⟨rfl, increment_ok htotal, increment_ok htotalVerified, ?_⟩
  simp [Storage.recorded, Storage.emit, hevent]

theorem verifyAndRecordInternal_ok {proofWords : Vector Uint256 8}
    {publicInputs : List Uint256} {attester : Address} {result : Attestation × Storage}
    (h : verifyAndRecordInternal c (fun _ _ _ s => transferred.map (·, Call.performAll c callbacks s)) ctx proofWords
      publicInputs attester s = .ok result) (event : Event) (hevent : event.recordedDigest = some result.1.digest) :
    (checkAttestation ctx proofWords publicInputs s).isOk = true ∧ result.1 = .ofInputs publicInputs ∧
      (s.attestations result.1.digest).blockTimestamp = 0 ∧
      Recorded (if 0 < c.feeWei then exec (Call.step c) s callbacks else s) (result.2.emit event) result.1 attester ctx := by
  unfold verifyAndRecordInternal at h
  simp only [bind, bind_eq_ok, pure, Except.pure, Except.ok.injEq] at h
  obtain ⟨a, hcheck, paid, hpaid, s', hrecord, rfl⟩ := h
  have hok : (checkAttestation ctx proofWords publicInputs s).isOk = true := by rw [hcheck]; rfl
  unfold checkAttestation at hcheck
  simp only [bind, bind_eq_ok, pure, Except.pure, Except.ok.injEq, require_eq_ok, beq_iff_eq] at hcheck
  obtain ⟨_, -, _, -, _, -, _, hnew, rfl⟩ := hcheck
  rw [← (payFee_eq_ok.mp hpaid).2]
  exact ⟨hok, rfl, hnew, record_ok hrecord hevent⟩

/-- What an accepted call has done: it certified an agent and left the books as the calls back left them, or it found its
digest unused and recorded it after them. -/
theorem perform_ok (h : (Call.mk ctx request callbacks transferred).perform c s = .ok s') : request.checked ctx s = true ∧
      ((request.recording ctx = none ∧ SameBooks ((Call.mk ctx request callbacks transferred).during c s) s') ∨
      ∃ a attester, request.recording ctx = some (a, attester) ∧ (s.attestations a.digest).blockTimestamp = 0 ∧
        Recorded ((Call.mk ctx request callbacks transferred).during c s) s' a attester ctx) := by
  rw [Call.perform] at h
  cases request with
  | attestAndPay proof publicSignals =>
    unfold Request.perform attestAndPay at h
    simp only [bind, bind_eq_ok, pure, Except.pure, Except.ok.injEq] at h
    obtain ⟨claim, hclaim, paid, hpaid, rfl⟩ := h
    refine ⟨by rw [Request.checked, hclaim]; rfl, .inl ⟨rfl, ?_⟩⟩
    obtain rfl := (checkTrustProof_ok hclaim).claim_eq
    have hduring : paid = (Call.mk ctx (.attestAndPay proof publicSignals) callbacks transferred).during c s :=
      (payFee_eq_ok.mp hpaid).2
    rw [← hduring]
    exact ⟨rfl, rfl, rfl, by simp [Storage.recorded, Storage.emit, Event.recordedDigest]⟩
  | verifyAndRecord proofWords publicInputs =>
    obtain ⟨⟨a, recorded⟩, hresult, hemitted⟩ := bind_eq_ok.mp h
    obtain rfl := Except.ok.inj hemitted
    obtain ⟨hok, rfl, hnew, hrecorded⟩ := verifyAndRecordInternal_ok hresult (.attestationRecorded ..) rfl
    exact ⟨hok, .inr ⟨_, _, rfl, hnew, hrecorded⟩⟩
  | verifyAndRecordAnonymous proofWords publicInputs =>
    obtain ⟨⟨a, recorded⟩, hresult, hemitted⟩ := bind_eq_ok.mp h
    obtain rfl := Except.ok.inj hemitted
    obtain ⟨hok, rfl, hnew, hrecorded⟩ := verifyAndRecordInternal_ok hresult (.anonymousAttestationRecorded ..) rfl
    exact ⟨hok, .inr ⟨_, _, rfl, hnew, hrecorded⟩⟩

end Spec

/-! ### The books at every depth -/

/-- What is recorded has a time, and the totals count the recordings. -/
structure Booked (s : Storage) : Prop where
  verified : ∀ d, isVerified s d = true ↔ d ∈ s.recorded
  fresh : ∀ d, (s.attestations d).blockTimestamp = 0 ↔ d ∉ s.recorded
  total : s.totalAttestations.toNat = s.recorded.length
  totalVerified : s.totalVerifiedAttestations.toNat = s.recorded.length

/-- Recordings are added at the end, and other digests keep what is recorded of them. -/
def Grown (s s' : Storage) : Prop :=
  ∃ added, s'.recorded = s.recorded ++ added ∧ ∀ d ∉ added, s'.attestations d = s.attestations d

theorem Grown.refl (s : Storage) : Grown s s := ⟨[], by simp, fun _ _ => rfl⟩

theorem Grown.trans {s t u : Storage} (hst : Grown s t) (htu : Grown t u) : Grown s u := by
  obtain ⟨added, hrecorded, hkept⟩ := hst
  obtain ⟨added', hrecorded', hkept'⟩ := htu
  refine ⟨added ++ added', by rw [hrecorded', hrecorded, List.append_assoc], fun d hd => ?_⟩
  rw [List.mem_append, not_or] at hd
  rw [hkept' d hd.2, hkept d hd.1]

theorem booked_initial : Booked .initial where
  verified d := by simp [isVerified, Storage.initial, AttestationRecord.unset, Storage.recorded]
  fresh d := by simp [Storage.initial, AttestationRecord.unset, Storage.recorded]
  total := rfl
  totalVerified := rfl

theorem uint64_blockTimestamp_ne_zero (ctx : Context) : uint64 ctx.blockTimestamp ≠ 0 := by
  intro hzero
  have hmod : ctx.blockTimestamp.toNat % 2 ^ 64 = 0 := by simpa [uint64] using congrArg BitVec.toNat hzero
  rw [Nat.mod_eq_of_lt ctx.timestamp_lt] at hmod
  exact ctx.timestamp_pos.ne' hmod

section Books

variable {c : Deployment} {s s' : Storage}

theorem SameBooks.booked (h : SameBooks s s') (hs : Booked s) : Booked s' where
  verified d := by rw [isVerified, h.attestations, h.recorded]; exact hs.verified d
  fresh d := by rw [h.attestations, h.recorded]; exact hs.fresh d
  total := by rw [h.total, h.recorded, hs.total]
  totalVerified := by rw [h.totalVerified, h.recorded, hs.totalVerified]

theorem SameBooks.grown (h : SameBooks s s') : Grown s s' :=
  ⟨[], by rw [h.recorded, List.append_nil], fun d _ => by rw [h.attestations]⟩

section Recorded

variable {a : Attestation} {attester : Address} {ctx : Context}

theorem Recorded.booked (h : Recorded s s' a attester ctx) (hs : Booked s) : Booked s' where
  verified d := by
    rw [isVerified, h.attestations, h.recorded, List.mem_append, List.mem_singleton]
    by_cases hd : d = a.digest
    · simp [hd]
    · simpa [hd, isVerified] using hs.verified d
  fresh d := by
    rw [h.attestations, h.recorded, List.mem_append, List.mem_singleton]
    by_cases hd : d = a.digest
    · simpa [hd] using uint64_blockTimestamp_ne_zero ctx
    · simpa [hd] using hs.fresh d
  total := by rw [h.total, hs.total, h.recorded, List.length_append, List.length_singleton]
  totalVerified := by rw [h.totalVerified, hs.totalVerified, h.recorded, List.length_append, List.length_singleton]

theorem Recorded.grown (h : Recorded s s' a attester ctx) : Grown s s' := by
  refine ⟨[a.digest], h.recorded, fun d hd => ?_⟩
  rw [h.attestations, Function.update_of_ne (by simpa using hd)]

end Recorded

theorem during_invariant {I : Storage → Prop} {ctx : Context} (hcallbacks : ∀ call ∈ callbacks, ∀ s, I s → I (call.step c s))
    (hs : I (request.before ctx s)) : I ((Call.mk ctx request callbacks transferred).during c s) := by
  rw [Call.during]
  split
  · exact exec_invariant_along (G := fun _ call => call ∈ callbacks) (fun s call hI hmem => hcallbacks call hmem s hI) hs
      (along_iff.mpr fun front call back heq => by rw [heq]; simp)
  · exact hs

theorem step_booked (call : Call) : ∀ s, Booked s → Booked (call.step c s) ∧ Grown s (call.step c s) := by
  induction call using Call.ind with
  | h ctx request callbacks transferred ih =>
    intro s hs
    have hbefore := before_sameBooks ctx s request
    have hduring : Booked ((Call.mk ctx request callbacks transferred).during c s) ∧
        Grown s ((Call.mk ctx request callbacks transferred).during c s) :=
      during_invariant (I := fun t => Booked t ∧ Grown s t)
        (fun call hmem t ht => ⟨(ih call hmem t ht.1).1, ht.2.trans (ih call hmem t ht.1).2⟩)
        ⟨hbefore.booked hs, hbefore.grown⟩
    rw [Call.step]
    split
    · rename_i s' hperform
      obtain ⟨-, ⟨-, hsame⟩ | ⟨a, attester, -, -, hrecorded⟩⟩ := perform_ok hperform
      · exact ⟨hsame.booked hduring.1, hduring.2.trans hsame.grown⟩
      · exact ⟨hrecorded.booked hduring.1, hduring.2.trans hrecorded.grown⟩
    · exact ⟨hs, .refl s⟩

theorem exec_booked (calls : List Call) (hs : Booked s) :
    Booked (exec (Call.step c) s calls) ∧ Grown s (exec (Call.step c) s calls) :=
  ⟨exec_invariant (fun s call h => (step_booked call s h).1) hs calls,
    exec_related Grown.refl (fun _ _ _ => Grown.trans) (fun s call h => step_booked call s h) hs calls⟩

end Books

/-! ### Recorded once -/

/-- A storage that is reached in the run, at any depth, with the calls that are still to come at that depth. -/
inductive Reached (c : Deployment) (run : List Call) : Storage → List Call → Prop
  | start : Reached c run .initial run
  | next {s : Storage} {call : Call} {rest : List Call} (h : Reached c run s (call :: rest)) :
      Reached c run (call.step c s) rest
  | back {s : Storage} {ctx : Context} {request : Request} {callbacks : List Call} {transferred : Option Bool}
      {rest : List Call} (h : Reached c run s (.mk ctx request callbacks transferred :: rest)) (hfee : 0 < c.feeWei)
      (hchecked : request.checked ctx s = true) : Reached c run (request.before ctx s) callbacks

/-- No digest is recorded twice, the totals are the number of recorded digests, and what is recorded stays. -/
structure Storage.Once (c : Deployment) (s : Storage) (rest : List Call) : Prop where
  nodup : s.recorded.Nodup
  total : s.totalAttestations.toNat = {d | isVerified s d = true}.ncard
  totalVerified : s.totalVerifiedAttestations.toNat = {d | isVerified s d = true}.ncard
  kept : ∀ front, front <+: rest → ∀ d, isVerified s d = true →
    ((exec (Call.step c) s front).attestations d).attester = (s.attestations d).attester ∧
      ((exec (Call.step c) s front).attestations d).merkleRoot = (s.attestations d).merkleRoot

def RecordedOnce (c : Deployment) (run : List Call) : Prop := ∀ s rest, Reached c run s rest → s.Once c rest

def Storage.full (s : Storage) : Prop :=
  s.totalAttestations = BitVec.allOnes 256 ∨ s.totalVerifiedAttestations = BitVec.allOnes 256

/-- A recording whose checks pass and whose fee is paid finds, when the token has answered, that its digest is still not
recorded. -/
def Call.Undisturbed (c : Deployment) (s : Storage) : Call → Prop
  | .mk ctx request callbacks transferred =>
    let paid := (Call.mk ctx request callbacks transferred).during c s
    ∀ a attester, request.recording ctx = some (a, attester) → request.checked ctx s = true →
      (0 < c.feeWei → transferred = some true) → ¬ paid.full → isVerified paid a.digest = false

def Undisturbed (c : Deployment) (run : List Call) : Prop :=
  ∀ s call rest, Reached c run s (call :: rest) → call.Undisturbed c s

section Once

variable {c : Deployment} {run : List Call}

variable {rest : List Call}

variable {front : List Call} {call : Call}

theorem Reached.exec {s : Storage} (h : Reached c run s (front ++ rest)) :
    Reached c run (exec (Call.step c) s front) rest := by
  induction front generalizing s with
  | nil => exact h
  | cons call front ih => exact ih h.next

theorem Reached.booked {s : Storage} (h : Reached c run s rest) : Booked s := by
  induction h with
  | start => exact booked_initial
  | next _ ih => exact (step_booked _ _ ih).1
  | back _ _ _ ih => exact (before_sameBooks _ _ _).booked ih

theorem exists_increment_iff {x : Uint256} : (∃ y, increment x = .ok y) ↔ x ≠ BitVec.allOnes 256 := by
  simp [increment, bind, bind_eq_ok, pure, Except.pure]

theorem exists_record_iff {a : Attestation} {attester : Address} {s : Storage} :
    (∃ s', s.record ctx a attester = .ok s') ↔ ¬ s.full := by
  simp [Storage.record, Storage.full, bind, bind_eq_ok, pure, Except.pure, exists_increment_iff]

theorem exists_internal_iff {proofWords : Vector Uint256 8} {publicInputs : List Uint256} {s : Storage} (attester : Address) :
    (∃ result, verifyAndRecordInternal c (fun _ _ _ s => transferred.map (·, Call.performAll c callbacks s)) ctx
        proofWords publicInputs attester s = .ok result) ↔
      (checkAttestation ctx proofWords publicInputs s).isOk = true ∧ (0 < c.feeWei → transferred = some true) ∧
        ¬ (if 0 < c.feeWei then exec (Call.step c) s callbacks else s).full := by
  unfold verifyAndRecordInternal
  cases checkAttestation ctx proofWords publicInputs s with
  | error e => simp [bind, Except.bind, Except.isOk, Except.toBool]
  | ok a =>
    simp [bind, bind_eq_ok, Except.isOk, Except.toBool, payFee_eq_ok, pure, Except.pure, exists_record_iff]

theorem exists_perform_iff {s : Storage} {recording : Attestation × Address} (h : request.recording ctx = some recording) :
    (∃ s', (Call.mk ctx request callbacks transferred).perform c s = .ok s') ↔
      request.checked ctx s = true ∧ (0 < c.feeWei → transferred = some true) ∧
        ¬ ((Call.mk ctx request callbacks transferred).during c s).full := by
  cases request with
  | attestAndPay proof publicSignals => cases h
  | verifyAndRecord proofWords publicInputs =>
    refine Iff.trans ?_ (exists_internal_iff ctx.msgSender)
    simp only [Call.perform, Request.perform, verifyAndRecord, bind, bind_eq_ok, pure, Except.pure, Except.ok.injEq]
    exact ⟨fun ⟨_, result, h, _⟩ => ⟨result, h⟩, fun ⟨result, h⟩ => ⟨_, result, h, rfl⟩⟩
  | verifyAndRecordAnonymous proofWords publicInputs =>
    refine Iff.trans ?_ (exists_internal_iff 0)
    simp only [Call.perform, Request.perform, verifyAndRecordAnonymous, bind, bind_eq_ok, pure, Except.pure,
      Except.ok.injEq]
    exact ⟨fun ⟨_, result, h, _⟩ => ⟨result, h⟩, fun ⟨result, h⟩ => ⟨_, result, h, rfl⟩⟩

theorem Reached.during_booked {s : Storage} (h : Reached c run s (call :: rest)) :
    Booked (call.during c s) := by
  obtain ⟨ctx, request, callbacks, transferred⟩ := call
  exact during_invariant (I := Booked) (fun call _ t ht => (step_booked call t ht).1)
    ((before_sameBooks ctx s request).booked h.booked)

theorem step_nodup (hrun : Undisturbed c run) (call : Call) :
    ∀ s rest, Reached c run s (call :: rest) → s.recorded.Nodup → (call.step c s).recorded.Nodup := by
  induction call using Call.ind with
  | h ctx request callbacks transferred ih =>
    intro s rest hreached hs
    rw [Call.step]
    split
    · rename_i s' hperform
      obtain ⟨hchecked, hdone⟩ := perform_ok hperform
      have hduring : ((Call.mk ctx request callbacks transferred).during c s).recorded.Nodup := by
        have hbefore : (request.before ctx s).recorded.Nodup := by rwa [(before_sameBooks ctx s request).recorded]
        rw [Call.during]
        split_ifs with hfee
        · refine exec_invariant_along (I := fun t : Storage => t.recorded.Nodup)
            (G := fun t call => call ∈ callbacks ∧ ∃ rest, Reached c run t (call :: rest))
            (fun t call ht hG => ih call hG.1 t hG.2.choose hG.2.choose_spec ht) hbefore (along_iff.mpr ?_)
          rintro front call back rfl
          exact ⟨by simp, back, (hreached.back hfee hchecked).exec⟩
        · exact hbefore
      obtain ⟨-, hsame⟩ | ⟨a, attester, hrecording, -, hrecorded⟩ := hdone
      · rwa [hsame.recorded]
      · obtain ⟨-, hpaid, hroom⟩ := (exists_perform_iff hrecording).mp ⟨s', hperform⟩
        have hnew := hrun s _ rest hreached a attester hrecording hchecked hpaid hroom
        rw [hrecorded.recorded, List.nodup_append]
        refine ⟨hduring, List.nodup_singleton _, fun d hd d' hd' heq => ?_⟩
        obtain rfl := List.mem_singleton.mp hd'
        rw [heq, ← hreached.during_booked.verified, hnew] at hd
        cases hd
    · exact hs

theorem Reached.nodup (hrun : Undisturbed c run) {s : Storage} (h : Reached c run s rest) : s.recorded.Nodup := by
  induction h with
  | start => exact List.nodup_nil
  | next h ih => exact step_nodup hrun _ _ _ h ih
  | back _ _ _ ih => rwa [(before_sameBooks _ _ _).recorded]

theorem Reached.kept {s : Storage} (h : Reached c run s (front ++ rest))
    (hnodup : (Run.exec (Call.step c) s front).recorded.Nodup) {d : Bytes32} (hd : isVerified s d = true) :
    (Run.exec (Call.step c) s front).attestations d = s.attestations d := by
  obtain ⟨added, hrecorded, hkept⟩ := (exec_booked front h.booked).2
  refine hkept d fun hadded => ?_
  rw [hrecorded, List.nodup_append] at hnodup
  exact hnodup.2.2 d ((h.booked.verified d).mp hd) d hadded rfl

theorem not_nodup_of_disturbed {s : Storage} (h : Reached c run s (call :: rest)) (hdisturbed : ¬ call.Undisturbed c s) :
    ¬ (call.step c s).recorded.Nodup := by
  obtain ⟨ctx, request, callbacks, transferred⟩ := call
  simp only [Call.Undisturbed, not_forall, Bool.not_eq_false] at hdisturbed
  obtain ⟨a, attester, hrecording, hchecked, hpaid, hroom, hverified⟩ := hdisturbed
  obtain ⟨s', hperform⟩ := (exists_perform_iff hrecording).mpr ⟨hchecked, hpaid, hroom⟩
  obtain ⟨-, ⟨hnone, -⟩ | ⟨a', attester', hrecording', -, hrecorded⟩⟩ := perform_ok hperform
  · rw [hrecording] at hnone
    cases hnone
  · obtain ⟨rfl, rfl⟩ := Prod.mk.inj (Option.some.inj (hrecording.symm.trans hrecording'))
    rw [Call.step, hperform, hrecorded.recorded, List.nodup_append]
    exact fun hnodup => hnodup.2.2 a.digest ((h.during_booked.verified _).mp hverified) _ List.mem_cons_self rfl

/-- **Recording under re-entry**: in a run, at every depth, no digest is recorded twice, the totals are the number of
recorded digests and what is recorded stays, exactly if no recording finds at the token's answer that its digest was
recorded meanwhile. -/
theorem recordedOnce_iff_undisturbed (c : Deployment) (run : List Call) : RecordedOnce c run ↔ Undisturbed c run := by
  constructor
  · intro honce s call rest hreached
    by_contra hdisturbed
    exact not_nodup_of_disturbed hreached hdisturbed (honce _ _ hreached.next).nodup
  · intro hrun s rest hreached
    have hnodup := hreached.nodup hrun
    have hcount : {d | isVerified s d = true}.ncard = s.recorded.length := by
      rw [show {d | isVerified s d = true} = ↑s.recorded.toFinset by ext d; simp [hreached.booked.verified],
        Set.ncard_coe_finset, List.toFinset_card_of_nodup hnodup]
    refine ⟨hnodup, ?_, ?_, ?_⟩
    · rw [hcount, hreached.booked.total]
    · rw [hcount, hreached.booked.totalVerified]
    · rintro front ⟨rest', rfl⟩ d hd
      rw [hreached.kept (hreached.exec.nodup hrun) hd]
      exact ⟨rfl, rfl⟩

end Once

/-! ### A digest that is recorded twice -/

def sampleDeployment : Deployment := ⟨1, 2, 3, 10⟩

theorem sampleTimestamp_pos : 0 < (1 : Uint256).toNat := by decide

theorem sampleTimestamp_lt : (1 : Uint256).toNat < 2 ^ 64 := by decide

def sampleContext (msgSender : Address) : Context where
  msgSender
  blockTimestamp := 1
  verifyProof _ _ := true
  timestamp_pos := sampleTimestamp_pos
  timestamp_lt := sampleTimestamp_lt

/-- A call that records the sample digest, for a fee that the token takes after the calls back. -/
def sampleCall (msgSender : Address) (callbacks : List Call) : Call :=
  .mk (sampleContext msgSender) (.verifyAndRecord (Vector.replicate 8 0) [1, 0, 2, 0, 3]) callbacks (some true)

/-- The token lets another sender record the digest before it answers. -/
theorem recorded_twice : ¬ RecordedOnce sampleDeployment [sampleCall 1 [sampleCall 2 []]] := by
  intro honce
  have hnodup := (honce _ _ (Reached.start.next)).nodup
  revert hnodup
  decide

end AgentHalo.Contract
