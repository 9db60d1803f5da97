import AgentHalo.Engine.CommitSpec

/-!
# Whether a commit installs its state

A commit that returns has either installed the new state or left the old one in place, and which of the two it is
depends on the database before the call and on the delta: the state is installed exactly if the checks pass and the
witnesses can sign (`Installs`). Otherwise the commit fails, and its error is known too (`refusal`). Nothing here
depends on whether the transparency log is in step; a log that is not makes the commit fail after the state is in.
-/

namespace AgentHalo.Engine.NucleusDb

open Transparency (SignedTreeHead makeSth)

variable {P : Platform}

/-- The checks pass and the witnesses can sign. -/
structure Installs (db : NucleusDb P) (delta : Delta) : Prop where
  admissible : db.Admissible delta []
  usable : db.witnessCfg.Usable

def refusal (db : NucleusDb P) (delta : Delta) : CommitError :=
  match db.precheck delta [] with
  | .error e => e
  | .ok _ =>
    match signAll db.witnessCfg "" db.witnessCfg.signers with
    | .error e => .witnessSigningFailed e
    | .ok _ => .witnessQuorumFailed

/-- Why a commit fails that has installed its state, with a log that is out of step. -/
def lateRefusal (db : NucleusDb P) : CommitError :=
  .securityRefinementFailed (.sthSizeMismatch (db.entries.length + 1) (db.ctLeaves.length + 1))

/-! ### Signing -/

variable {cfg : WitnessConfig P} {message : String} {e : WitnessError} {db' : NucleusDb P} {now : Nat}
  {r : Except CommitError CommitEntry}

theorem signMessage_error (hP : P.SignaturesCorrect) {w : String} (h : signMessage cfg w message = .error e)
    (other : String) : signMessage cfg w other = .error e := by
  cases hkey : hasSigningKey cfg w with
  | true =>
    obtain ⟨sig, hsig, -⟩ := signMessage_of_hasSigningKey hP hkey message
    rw [hsig] at h
    cases h
  | false =>
    unfold hasSigningKey at hkey
    unfold signMessage signMessageWithAlgorithm at h ⊢
    cases halg : cfg.signingAlgorithm with
    | ed25519 =>
      rw [halg] at h hkey
      dsimp only at h hkey ⊢
      have hnone : cfg.ed25519SigningKeys[w]? = none :=
        Option.not_isSome_iff_eq_none.mp (by rw [hkey]; decide)
      rw [hnone] at h ⊢
      exact h
    | mlDsa65 =>
      rw [halg] at h hkey
      dsimp only at h hkey ⊢
      have hnone : cfg.mldsa65SigningKeys[w]? = none :=
        Option.not_isSome_iff_eq_none.mp (by rw [hkey]; decide)
      rw [hnone] at h ⊢
      exact h

theorem signAll_error (hP : P.SignaturesCorrect) {names : List String} (h : signAll cfg message names = .error e)
    (other : String) :
    signAll cfg other names = .error e := by
  induction names with
  | nil =>
    rw [signAll] at h
    cases h
  | cons w rest ih =>
    rw [signAll] at h ⊢
    cases hw : signMessage cfg w message with
    | error e' =>
      rw [hw] at h
      rw [signMessage_error hP hw other]
      exact h
    | ok sig =>
      rw [hw] at h
      obtain ⟨sig', hw', -⟩ := signMessage_of_hasSigningKey hP (hasSigningKey_of_signMessage hw) other
      rw [hw']
      cases hrest : signAll cfg message rest with
      | error e' =>
        rw [hrest] at h
        rw [ih (hrest.trans h)]
        rfl
      | ok sigs =>
        rw [hrest] at h
        cases h

/-! ### The two outcomes -/

theorem settle_of_quorum (db : NucleusDb P) (p : Proposal) (leaves : List NodeHash) (now : Nat)
    {sigs : List (String × String)}
    (hsign : signAll db.witnessCfg (p.message (makeSth P leaves now)) db.witnessCfg.signers = .ok sigs)
    (hquorum : verifyQuorumForAlgorithm db.witnessCfg db.witnessCfg.signingAlgorithm (p.message (makeSth P leaves now))
      sigs = true) :
    (db.settle p (makeSth P leaves now)).2.state = p.next ∧
      ((∃ entry, (db.settle p (makeSth P leaves now)).1 = .ok entry) ∧ leaves.length = p.height ∨
        (db.settle p (makeSth P leaves now)).1 =
          .error (.securityRefinementFailed (.sthSizeMismatch p.height leaves.length)) ∧ leaves.length ≠ p.height) := by
  by_cases hsize : leaves.length = p.height
  · rw [settle_eq_ok db p leaves now sigs hsign hquorum hsize]
    exact ⟨pushSeal_state _, .inl ⟨⟨_, rfl⟩, hsize⟩⟩
  · have hcheck : verifyPostCommitRefinement P p.height p.prevStateRoot p.height p.prevStateRoot
        (makeSth P leaves now).treeSize (makeSth P leaves now).rootHash (makeSth P leaves now).timestampUnixSecs
        (makeSth P leaves now).sig = .error (.sthSizeMismatch p.height leaves.length) := by
      unfold verifyPostCommitRefinement
      rw [if_neg (not_not.mpr rfl), if_neg (not_not.mpr rfl)]
      exact if_pos hsize
    unfold WitnessConfig.signers at hsign
    unfold settle
    dsimp only
    rw [hsign]
    dsimp only
    rw [hquorum, if_neg (by decide)]
    dsimp only [buildEntry]
    rw [hcheck]
    exact ⟨rfl, .inr ⟨rfl, hsize⟩⟩

theorem settle_of_not_usable (hP : P.SignaturesCorrect) (db : NucleusDb P) (p : Proposal) (sth : SignedTreeHead)
    (hlen : db.witnessCfg.threshold ≤ db.witnessCfg.witnesses.length) (hbad : ¬ db.witnessCfg.Usable) :
    db.settle p sth =
      (.error (match signAll db.witnessCfg "" db.witnessCfg.signers with
        | .error e => .witnessSigningFailed e
        | .ok _ => .witnessQuorumFailed), db) := by
  have hsigners : db.witnessCfg.witnesses.take db.witnessCfg.threshold = db.witnessCfg.signers := rfl
  unfold settle
  dsimp only
  rw [hsigners]
  cases hsign : signAll db.witnessCfg (p.message sth) db.witnessCfg.signers with
  | error e =>
    rw [signAll_error hP hsign ""]
  | ok sigs =>
    have hquorum : verifyQuorumForAlgorithm db.witnessCfg db.witnessCfg.signingAlgorithm (p.message sth) sigs = false := by
      by_contra hmet
      exact hbad (WitnessConfig.usable_of_quorum hlen hsign (by simpa using hmet))
    dsimp only
    rw [hquorum, if_pos (by decide)]
    cases hblank : signAll db.witnessCfg "" db.witnessCfg.signers with
    | error e =>
      rw [signAll_error hP hblank (p.message sth)] at hsign
      cases hsign
    | ok sigs' => rfl

variable {db : NucleusDb P} {delta delta' : Delta}

theorem commit_of_installs (hP : P.SignaturesCorrect) (h : db.Installs delta)
    (hcommit : db.commit delta [] now = some (r, db')) :
    db'.state = apply db.state delta ∧
      ((∃ entry, r = .ok entry) ∧ db.ctLeaves.length = db.entries.length ∨
        r = .error db.lateRefusal ∧ db.ctLeaves.length ≠ db.entries.length) := by
  rw [commit_of_admissible now h.admissible] at hcommit
  obtain ⟨rs, -, hsettle⟩ := Option.map_eq_some_iff.mp hcommit
  obtain ⟨sigs, hsign, hquorum⟩ := WitnessConfig.quorum_of_usable hP (validateParameters_ok h.admissible.parameters).1
    h.usable ((db.proposal delta [] rs).message (db.stagedSth (db.proposal delta [] rs) now))
  have hstate := settle_of_quorum (db.stage (db.proposal delta [] rs) now) (db.proposal delta [] rs)
    (db.ctLeaves ++ [(db.proposal delta [] rs).leaf P]) now hsign hquorum
  have hstep := length_staged_eq_height_iff db delta [] rs ((db.proposal delta [] rs).leaf P)
  have hsettled : (db.stage (db.proposal delta [] rs) now).settle (db.proposal delta [] rs)
      (makeSth P (db.ctLeaves ++ [(db.proposal delta [] rs).leaf P]) now) = (r, db') := hsettle
  rw [hsettled, Ne, hstep, List.length_append, List.length_singleton] at hstate
  exact hstate

theorem commit_of_not_installs (hP : P.SignaturesCorrect) (h : ¬ db.Installs delta)
    (hcommit : db.commit delta [] now = some (r, db')) :
    r = .error (db.refusal delta) ∧ db'.state = db.state := by
  by_cases hadm : db.Admissible delta []
  · have hbad : ¬ db.witnessCfg.Usable := fun husable => h ⟨hadm, husable⟩
    rw [commit_of_admissible now hadm] at hcommit
    obtain ⟨rs, -, hsettle⟩ := Option.map_eq_some_iff.mp hcommit
    have hstop := settle_of_not_usable hP (db.stage (db.proposal delta [] rs) now) (db.proposal delta [] rs)
      (db.stagedSth (db.proposal delta [] rs) now) (validateParameters_ok hadm.parameters).1 hbad
    obtain ⟨rfl, rfl⟩ := Prod.mk.inj (hstop.symm.trans hsettle)
    unfold refusal
    rw [(precheck_eq_ok_iff db delta [] _).mpr ⟨hadm, rfl⟩]
    exact ⟨rfl, rfl⟩
  · obtain ⟨e, hcheck⟩ := precheck_isError_of_not_admissible hadm
    unfold commit at hcommit
    rw [hcheck] at hcommit
    obtain ⟨rfl, rfl⟩ := Prod.mk.inj (Option.some.inj hcommit)
    unfold refusal
    rw [hcheck]
    exact ⟨rfl, rfl⟩

/-! ### Two deltas of one shape -/

theorem precheck_of_same_shape (hwrites : delta.writes.length = delta'.writes.length)
    (hlen : (apply db.state delta).values.length = (apply db.state delta').values.length)
    (hbad : ¬ db.Admissible delta' []) :
    db.Admissible delta [] ∧ db.precheck delta' [] = .error .monotoneViolation ∨
      ¬ db.Admissible delta [] ∧ db.precheck delta [] = db.precheck delta' [] := by
  -- past the size check only the monotone check is left to fail
  have hmono : ∀ d : Delta, ¬ db.Admissible d [] →
      validateParameters db.securityParams db.backend.profile db.witnessCfg = .ok () →
      validateReductionContracts db.reductionContracts = .ok () → db.witnessCfg.witnesses.isEmpty = false →
      validateCommitShape db.securityParams d.writes.length (apply db.state d).values.length = .ok () →
      db.precheck d [] = .error .monotoneViolation := by
    intro d hd hparams hcontracts hwitnesses hshape
    unfold precheck
    rw [hparams, hcontracts]
    dsimp only
    rw [hwitnesses, if_neg (by decide), hshape]
    dsimp only
    rw [if_pos]
    by_contra hpass
    refine hd ⟨hparams, hcontracts, hwitnesses, hshape, fun hmode => ?_, rfl⟩
    simpa [hmode] using hpass
  by_cases hadm : db.Admissible delta []
  · left
    refine ⟨hadm, hmono delta' hbad hadm.parameters hadm.contracts hadm.witnesses ?_⟩
    rw [← hwrites, ← hlen]
    exact hadm.shape
  · right
    refine ⟨hadm, ?_⟩
    cases hparams : validateParameters db.securityParams db.backend.profile db.witnessCfg with
    | error e =>
      unfold precheck
      rw [hparams]
    | ok u =>
      cases hcontracts : validateReductionContracts db.reductionContracts with
      | error e =>
        unfold precheck
        rw [hparams, hcontracts]
      | ok u =>
        cases hwitnesses : db.witnessCfg.witnesses.isEmpty with
        | true =>
          unfold precheck
          rw [hparams, hcontracts, hwitnesses]
          rfl
        | false =>
          cases hshape : validateCommitShape db.securityParams delta.writes.length
              (apply db.state delta).values.length with
          | error e =>
            have hshape' := hshape
            rw [hwrites, hlen] at hshape'
            unfold precheck
            rw [hparams, hcontracts, hwitnesses]
            dsimp only
            rw [hshape, hshape']
          | ok u =>
            have hshape' := hshape
            rw [hwrites, hlen] at hshape'
            rw [hmono delta hadm hparams hcontracts hwitnesses hshape,
              hmono delta' hbad hparams hcontracts hwitnesses hshape']

theorem refusal_of_same_shape (hwrites : delta.writes.length = delta'.writes.length)
    (hlen : (apply db.state delta).values.length = (apply db.state delta').values.length)
    (hsame : db.Admissible delta [] ↔ db.Admissible delta' []) : db.refusal delta = db.refusal delta' := by
  unfold refusal
  by_cases hadm : db.Admissible delta' []
  · rw [(precheck_eq_ok_iff db delta [] _).mpr ⟨hsame.mpr hadm, rfl⟩,
      (precheck_eq_ok_iff db delta' [] _).mpr ⟨hadm, rfl⟩]
  · rcases precheck_of_same_shape hwrites hlen hadm with ⟨hother, -⟩ | ⟨-, hcheck⟩
    · exact absurd (hsame.mp hother) hadm
    · rw [hcheck]

theorem refusal_of_mixed (hwrites : delta.writes.length = delta'.writes.length)
    (hlen : (apply db.state delta).values.length = (apply db.state delta').values.length)
    (hadm : db.Admissible delta []) (hbad : ¬ db.Admissible delta' []) :
    db.refusal delta' = .monotoneViolation ∧ db.refusal delta ≠ .monotoneViolation := by
  unfold refusal
  constructor
  · rcases precheck_of_same_shape hwrites hlen hbad with ⟨-, hcheck⟩ | ⟨hother, -⟩
    · rw [hcheck]
    · exact absurd hadm hother
  · rw [(precheck_eq_ok_iff db delta [] _).mpr ⟨hadm, rfl⟩]
    dsimp only
    split
    · exact fun h => nomatch h
    · exact fun h => nomatch h

end AgentHalo.Engine.NucleusDb
