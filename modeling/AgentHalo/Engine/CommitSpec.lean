import AgentHalo.Base.Reference
import AgentHalo.Engine.Protocol

/-!
# What one commit does

Every later result about commits starts from the lemmas here and none of them opens `commit` again. `Admissible` lists
the checks that precede the first write; `commit_cases` splits a commit into a rejection that leaves the database alone,
a failure after the leaf was staged, and a success; `commit_ok` spells the success out. The last section says which
fields no commit touches at all.
-/

namespace AgentHalo.Engine.NucleusDb

open Transparency (makeSth)

variable {P : Platform}

/-- The checks made before the first write, as the source makes them. -/
structure Admissible (db : NucleusDb P) (delta : Delta) (localViews : List LocalSection) : Prop where
  parameters : validateParameters db.securityParams db.backend.profile db.witnessCfg = .ok ()
  contracts : validateReductionContracts db.reductionContracts = .ok ()
  witnesses : db.witnessCfg.witnesses.isEmpty = false
  shape : validateCommitShape db.securityParams delta.writes.length (apply db.state delta).values.length = .ok ()
  monotone : db.writeMode = .appendOnly →
    verifyMonotoneExtension db.state db.keymap (apply db.state delta) db.keymap = true
  sheaf : verifySheafCoherence (apply db.state delta) (buildSheafCoherence localViews) = true

theorem precheck_eq_ok_iff (db : NucleusDb P) (delta : Delta) (localViews : List LocalSection)
    (r : State × SheafCoherenceProof) :
    db.precheck delta localViews = .ok r ↔
      db.Admissible delta localViews ∧ r = (apply db.state delta, buildSheafCoherence localViews) := by
  unfold precheck
  constructor
  · intro h
    split at h
    · cases h
    rename_i hparams
    split at h
    · cases h
    rename_i hcontracts
    obtain ⟨hwitnesses, h⟩ := guard_eq_ok h
    dsimp only at h
    split at h
    · cases h
    rename_i hshape
    obtain ⟨hmonotone, h⟩ := guard_eq_ok h
    obtain ⟨hsheaf, h⟩ := guard_eq_ok h
    refine ⟨⟨hparams, hcontracts, by simpa using hwitnesses, hshape, ?_, by simpa using hsheaf⟩, ?_⟩
    · intro hmode
      by_contra hfail
      exact hmonotone ⟨hmode, by simpa using hfail⟩
    · exact (Except.ok.inj h).symm
  · rintro ⟨hadm, rfl⟩
    rw [hadm.parameters, hadm.contracts]
    dsimp only
    rw [hadm.witnesses, hadm.shape, hadm.sheaf]
    dsimp only
    rw [if_neg Bool.false_ne_true, if_neg, if_neg (by decide)]
    rintro ⟨hmode, hfail⟩
    rw [hadm.monotone hmode] at hfail
    exact absurd hfail (by decide)

variable {delta : Delta} {localViews : List LocalSection}

theorem precheck_isError_of_not_admissible {db : NucleusDb P}
    (h : ¬ db.Admissible delta localViews) : ∃ e, db.precheck delta localViews = .error e := by
  cases hcheck : db.precheck delta localViews with
  | error e => exact ⟨e, rfl⟩
  | ok r => exact absurd ((precheck_eq_ok_iff db delta localViews r).mp hcheck).1 h

/-! ### The seal touches nothing else -/

section PushSeal

variable (db : NucleusDb P)

@[simp] theorem pushSeal_backend : db.pushSeal.backend = db.backend := by unfold pushSeal; split_ifs <;> rfl
@[simp] theorem pushSeal_state : db.pushSeal.state = db.state := by unfold pushSeal; split_ifs <;> rfl
@[simp] theorem pushSeal_keymap : db.pushSeal.keymap = db.keymap := by unfold pushSeal; split_ifs <;> rfl
@[simp] theorem pushSeal_entries : db.pushSeal.entries = db.entries := by unfold pushSeal; split_ifs <;> rfl
@[simp] theorem pushSeal_witnessCfg : db.pushSeal.witnessCfg = db.witnessCfg := by unfold pushSeal; split_ifs <;> rfl
@[simp] theorem pushSeal_kzgTrustedSetup : db.pushSeal.kzgTrustedSetup = db.kzgTrustedSetup := by
  unfold pushSeal; split_ifs <;> rfl
@[simp] theorem pushSeal_securityParams : db.pushSeal.securityParams = db.securityParams := by
  unfold pushSeal; split_ifs <;> rfl
@[simp] theorem pushSeal_reductionContracts : db.pushSeal.reductionContracts = db.reductionContracts := by
  unfold pushSeal; split_ifs <;> rfl
@[simp] theorem pushSeal_ctLeaves : db.pushSeal.ctLeaves = db.ctLeaves := by unfold pushSeal; split_ifs <;> rfl
@[simp] theorem pushSeal_currentSth : db.pushSeal.currentSth = db.currentSth := by unfold pushSeal; split_ifs <;> rfl
@[simp] theorem pushSeal_writeMode : db.pushSeal.writeMode = db.writeMode := by unfold pushSeal; split_ifs <;> rfl
@[simp] theorem pushSeal_typeMap : db.pushSeal.typeMap = db.typeMap := by unfold pushSeal; split_ifs <;> rfl
@[simp] theorem pushSeal_blobStore : db.pushSeal.blobStore = db.blobStore := by unfold pushSeal; split_ifs <;> rfl
@[simp] theorem pushSeal_vectorIndex : db.pushSeal.vectorIndex = db.vectorIndex := by unfold pushSeal; split_ifs <;> rfl

end PushSeal

/-! ### After the leaf is staged -/

/-- The refinement check of a commit comes down to the tree size: its other comparisons are of a value with itself, and
the head was signed by the function it is checked against. -/
theorem verifyPostCommitRefinement_stagedSth (P : Platform) (height : Nat) (prevRoot : NodeHash)
    (leaves : List NodeHash) (now : Nat) :
    verifyPostCommitRefinement P height prevRoot height prevRoot (makeSth P leaves now).treeSize
        (makeSth P leaves now).rootHash (makeSth P leaves now).timestampUnixSecs (makeSth P leaves now).sig = .ok () ↔
      leaves.length = height := by
  unfold verifyPostCommitRefinement
  rw [if_neg (not_not.mpr rfl), if_neg (not_not.mpr rfl)]
  constructor
  · intro h
    exact not_not.mp (guard_eq_ok h).1
  · intro h
    have hsize : (makeSth P leaves now).treeSize = height := h
    rw [if_neg (not_not.mpr hsize)]
    exact if_neg (not_not.mpr rfl)

theorem settle_eq_ok (db : NucleusDb P) (p : Proposal) (leaves : List NodeHash) (now : Nat)
    (sigs : List (String × String))
    (hsign : signAll db.witnessCfg (p.message (makeSth P leaves now)) db.witnessCfg.signers = .ok sigs)
    (hquorum : verifyQuorumForAlgorithm db.witnessCfg db.witnessCfg.signingAlgorithm (p.message (makeSth P leaves now))
      sigs = true)
    (hsize : leaves.length = p.height) :
    db.settle p (makeSth P leaves now) =
      (.ok (db.buildEntry p (makeSth P leaves now) sigs),
        { db with state := p.next, entries := db.entries ++ [db.buildEntry p (makeSth P leaves now) sigs] }.pushSeal) := by
  have hcheck := (verifyPostCommitRefinement_stagedSth P p.height p.prevStateRoot leaves now).mpr hsize
  unfold WitnessConfig.signers at hsign
  unfold settle
  dsimp only
  rw [hsign]
  dsimp only
  rw [hquorum, if_neg (by decide)]
  dsimp only [buildEntry]
  rw [hcheck]

/-- The outcomes of `settle` at the head that `stage` built: a failure that leaves the staged leaf behind, perhaps with
the new state installed, or the new entry. -/
theorem settle_cases (db : NucleusDb P) (p : Proposal) (leaves : List NodeHash) (now : Nat) :
    (∃ e, db.settle p (makeSth P leaves now) = (.error e, db)) ∨
    (∃ e, db.settle p (makeSth P leaves now) = (.error e, { db with state := p.next }) ∧ leaves.length ≠ p.height) ∨
    (∃ sigs, signAll db.witnessCfg (p.message (makeSth P leaves now)) db.witnessCfg.signers = .ok sigs ∧
      verifyQuorumForAlgorithm db.witnessCfg db.witnessCfg.signingAlgorithm (p.message (makeSth P leaves now)) sigs
        = true ∧
      leaves.length = p.height ∧
      db.settle p (makeSth P leaves now) =
        (.ok (db.buildEntry p (makeSth P leaves now) sigs),
          { db with state := p.next, entries := db.entries ++ [db.buildEntry p (makeSth P leaves now) sigs] }.pushSeal)) := by
  cases hsign : signAll db.witnessCfg (p.message (makeSth P leaves now)) db.witnessCfg.signers with
  | error e =>
    left
    unfold WitnessConfig.signers at hsign
    unfold settle
    dsimp only
    rw [hsign]
    exact ⟨_, rfl⟩
  | ok sigs =>
    cases hquorum : verifyQuorumForAlgorithm db.witnessCfg db.witnessCfg.signingAlgorithm
        (p.message (makeSth P leaves now)) sigs with
    | false =>
      left
      unfold WitnessConfig.signers at hsign
      unfold settle
      dsimp only
      rw [hsign]
      dsimp only
      rw [hquorum, if_pos (by decide)]
      exact ⟨_, rfl⟩
    | true =>
      right
      by_cases hsize : leaves.length = p.height
      · exact .inr ⟨sigs, rfl, hquorum, hsize, settle_eq_ok db p leaves now sigs hsign hquorum hsize⟩
      · left
        have hcheck := mt (verifyPostCommitRefinement_stagedSth P p.height p.prevStateRoot leaves now).mp hsize
        unfold WitnessConfig.signers at hsign
        unfold settle
        dsimp only
        rw [hsign]
        dsimp only
        rw [hquorum, if_neg (by decide)]
        dsimp only [buildEntry]
        split
        · exact ⟨_, rfl, hsize⟩
        · rename_i h
          exact absurd h hcheck

/-! ### The whole commit -/

/-- The proposal a commit makes once it is admitted and its roots are known. -/
def proposal (db : NucleusDb P) (delta : Delta) (localViews : List LocalSection) (rs : NodeHash × NodeHash) :
    Proposal :=
  db.propose delta (apply db.state delta) (buildSheafCoherence localViews) rs.1 rs.2

theorem commit_of_not_admissible {db : NucleusDb P} (now : Nat)
    (h : ¬ db.Admissible delta localViews) : ∃ e, db.commit delta localViews now = some (.error e, db) := by
  obtain ⟨e, hcheck⟩ := precheck_isError_of_not_admissible h
  unfold commit
  rw [hcheck]
  exact ⟨e, rfl⟩

theorem commit_of_admissible {db : NucleusDb P} (now : Nat) (h : db.Admissible delta localViews) :
    db.commit delta localViews now = (db.roots (apply db.state delta)).map fun rs =>
      (db.stage (db.proposal delta localViews rs) now).settle (db.proposal delta localViews rs)
        (db.stagedSth (db.proposal delta localViews rs) now) := by
  have hcheck := (precheck_eq_ok_iff db delta localViews _).mpr ⟨h, rfl⟩
  unfold commit
  rw [hcheck]
  dsimp only
  cases db.roots (apply db.state delta) with
  | none => rfl
  | some rs => rfl

/-- What a successful commit has checked and what it returns. -/
structure Committed (db : NucleusDb P) (delta : Delta) (localViews : List LocalSection) (now : Nat)
    (rs : NodeHash × NodeHash) (sigs : List (String × String)) (entry : CommitEntry) (db' : NucleusDb P) : Prop where
  admissible : db.Admissible delta localViews
  roots : db.roots (apply db.state delta) = some rs
  signed : signAll db.witnessCfg
    ((db.proposal delta localViews rs).message (db.stagedSth (db.proposal delta localViews rs) now))
    db.witnessCfg.signers = .ok sigs
  quorum : verifyQuorumForAlgorithm db.witnessCfg db.witnessCfg.signingAlgorithm
    ((db.proposal delta localViews rs).message (db.stagedSth (db.proposal delta localViews rs) now)) sigs = true
  inStep : db.ctLeaves.length = db.entries.length
  entry_eq : entry =
    db.buildEntry (db.proposal delta localViews rs) (db.stagedSth (db.proposal delta localViews rs) now) sigs
  db_eq : db' = { db with
    state := apply db.state delta
    entries := db.entries ++ [entry]
    ctLeaves := db.ctLeaves ++ [(db.proposal delta localViews rs).leaf P]
    currentSth := some (db.stagedSth (db.proposal delta localViews rs) now) }.pushSeal

theorem length_staged_eq_height_iff (db : NucleusDb P) (delta : Delta) (localViews : List LocalSection)
    (rs : NodeHash × NodeHash) (leaf : NodeHash) :
    (db.ctLeaves ++ [leaf]).length = (db.proposal delta localViews rs).height ↔
      db.ctLeaves.length = db.entries.length := by
  have hheight : (db.proposal delta localViews rs).height = db.entries.length + 1 := rfl
  rw [hheight, List.length_append, List.length_singleton]
  exact Nat.add_right_cancel_iff

variable {now : Nat}

variable {r : Except CommitError CommitEntry} {sigs : List (String × String)}

theorem commit_cases {db db' : NucleusDb P} (h : db.commit delta localViews now = some (r, db')) :
    (¬ db.Admissible delta localViews ∧ (∃ e, r = .error e) ∧ db' = db) ∨
    (db.Admissible delta localViews ∧ (∃ e, r = .error e) ∧ ∃ rs, db.roots (apply db.state delta) = some rs ∧
      (db' = db.stage (db.proposal delta localViews rs) now ∨
        db' = { db.stage (db.proposal delta localViews rs) now with state := apply db.state delta })) ∨
    (∃ rs sigs entry, r = .ok entry ∧ Committed db delta localViews now rs sigs entry db') := by
  by_cases hadm : db.Admissible delta localViews
  · right
    rw [commit_of_admissible now hadm] at h
    obtain ⟨rs, hrs, hsettle⟩ := Option.map_eq_some_iff.mp h
    rcases settle_cases (db.stage (db.proposal delta localViews rs) now) (db.proposal delta localViews rs)
        (db.ctLeaves ++ [(db.proposal delta localViews rs).leaf P]) now with
      ⟨e, hcase⟩ | ⟨e, hcase, -⟩ | ⟨sigs, hsign, hquorum, hsize, hcase⟩
    · obtain ⟨rfl, rfl⟩ := Prod.mk.inj (hcase.symm.trans hsettle)
      exact .inl ⟨hadm, ⟨e, rfl⟩, rs, hrs, .inl rfl⟩
    · obtain ⟨rfl, rfl⟩ := Prod.mk.inj (hcase.symm.trans hsettle)
      exact .inl ⟨hadm, ⟨e, rfl⟩, rs, hrs, .inr rfl⟩
    · obtain ⟨rfl, rfl⟩ := Prod.mk.inj (hcase.symm.trans hsettle)
      exact .inr ⟨rs, sigs, _, rfl, hadm, hrs, hsign, hquorum,
        (length_staged_eq_height_iff db delta localViews rs _).mp hsize, rfl, rfl⟩
  · left
    obtain ⟨e, hcommit⟩ := commit_of_not_admissible now hadm
    obtain ⟨rfl, rfl⟩ := Prod.mk.inj (Option.some.inj (hcommit.symm.trans h))
    exact ⟨hadm, ⟨e, rfl⟩, rfl⟩

variable {entry : CommitEntry}

theorem commit_ok {db db' : NucleusDb P} (h : db.commit delta localViews now = some (.ok entry, db')) :
    ∃ rs sigs, Committed db delta localViews now rs sigs entry db' := by
  rcases commit_cases h with ⟨-, ⟨e, he⟩, -⟩ | ⟨-, ⟨e, he⟩, -⟩ | ⟨rs, sigs, entry', he, hc⟩
  · cases he
  · cases he
  · obtain rfl := Except.ok.inj he
    exact ⟨rs, sigs, hc⟩

theorem commit_error_entries {db db' : NucleusDb P}
    {e : CommitError} (h : db.commit delta localViews now = some (.error e, db')) : db'.entries = db.entries := by
  rcases commit_cases h with ⟨-, -, rfl⟩ | ⟨-, -, rs, -, rfl | rfl⟩ | ⟨rs, sigs, entry, he, -⟩
  · rfl
  · rfl
  · rfl
  · cases he

/-- What a successful commit adds to the history. -/
structure Advanced (db : NucleusDb P) (delta : Delta) (entry : CommitEntry) (db' : NucleusDb P) : Prop where
  state : db'.state = apply db.state delta
  entries : db'.entries = db.entries ++ [entry]
  ctLeaves : ∃ leaf, db'.ctLeaves = db.ctLeaves ++ [leaf]
  currentSth : db'.currentSth = some entry.sth
  height : entry.height = db.entries.length + 1
  inStep : db.ctLeaves.length = db.entries.length

variable {rs : NodeHash × NodeHash}

theorem Committed.advanced {db db' : NucleusDb P} (hc : Committed db delta localViews now rs sigs entry db') :
    Advanced db delta entry db' := by
  constructor
  case state => rw [hc.db_eq, pushSeal_state]
  case entries => rw [hc.db_eq, pushSeal_entries]
  case ctLeaves => exact ⟨_, by rw [hc.db_eq, pushSeal_ctLeaves]⟩
  case currentSth => rw [hc.db_eq, pushSeal_currentSth, hc.entry_eq]; rfl
  case height => rw [hc.entry_eq]; rfl
  case inStep => exact hc.inStep

theorem commit_advanced {db db' : NucleusDb P} (h : db.commit delta localViews now = some (.ok entry, db')) :
    Advanced db delta entry db' := by
  obtain ⟨rs, sigs, hc⟩ := commit_ok h
  exact hc.advanced

theorem commit_ok_of_usable (hP : P.SignaturesCorrect) {db : NucleusDb P} (now : Nat) (hadm : db.Admissible delta localViews)
    (hroots : db.roots (apply db.state delta) = some rs) (husable : db.witnessCfg.Usable)
    (hstep : db.ctLeaves.length = db.entries.length) :
    ∃ entry db', db.commit delta localViews now = some (.ok entry, db') := by
  obtain ⟨sigs, hsign, hquorum⟩ := WitnessConfig.quorum_of_usable hP (validateParameters_ok hadm.parameters).1 husable
    ((db.proposal delta localViews rs).message (db.stagedSth (db.proposal delta localViews rs) now))
  have hsize := (length_staged_eq_height_iff db delta localViews rs
    ((db.proposal delta localViews rs).leaf P)).mpr hstep
  rw [commit_of_admissible now hadm, hroots]
  have hsettle := settle_eq_ok (db.stage (db.proposal delta localViews rs) now) (db.proposal delta localViews rs)
    _ now sigs hsign hquorum hsize
  exact ⟨_, _, congrArg some hsettle⟩

/-! ### The fields a commit leaves alone -/

/-- The configuration and the typed layer are the same in both databases. -/
structure SameFrame (db db' : NucleusDb P) : Prop where
  backend : db'.backend = db.backend
  keymap : db'.keymap = db.keymap
  witnessCfg : db'.witnessCfg = db.witnessCfg
  securityParams : db'.securityParams = db.securityParams
  reductionContracts : db'.reductionContracts = db.reductionContracts
  kzgTrustedSetup : db'.kzgTrustedSetup = db.kzgTrustedSetup
  writeMode : db'.writeMode = db.writeMode
  typeMap : db'.typeMap = db.typeMap
  blobStore : db'.blobStore = db.blobStore
  vectorIndex : db'.vectorIndex = db.vectorIndex

theorem Committed.sameFrame {db db' : NucleusDb P} (h : Committed db delta localViews now rs sigs entry db') :
    SameFrame db db' := by
  rw [h.db_eq]
  constructor <;> simp

theorem commit_sameFrame {db db' : NucleusDb P} (h : db.commit delta localViews now = some (r, db')) : SameFrame db db' := by
  rcases commit_cases h with ⟨-, -, rfl⟩ | ⟨-, -, rs, -, rfl | rfl⟩ | ⟨rs, sigs, entry, -, hc⟩
  · constructor <;> rfl
  · constructor <;> rfl
  · constructor <;> rfl
  · exact hc.sameFrame

theorem SameFrame.stateRootFor {db db' : NucleusDb P} (h : SameFrame db db') (vec : List UInt64) :
    db'.stateRootFor vec = db.stateRootFor vec := by
  unfold NucleusDb.stateRootFor
  rw [h.backend, h.kzgTrustedSetup]

/-! ### A database to run

Witnesses of the results about runs start from this database. -/

/-- One witness, with a key, over the default parameters. -/
def singleWitnessCfg : WitnessConfig .reference :=
  WitnessConfig.withSeed .reference none 1 ["w"] "seed"

def singleWitnessDb : NucleusDb .reference :=
  fresh ⟨[]⟩ .binaryMerkle singleWitnessCfg (defaultParams .binaryMerkle) (defaultReductionContracts .binaryMerkle)
    none ⟨0, 0⟩

theorem singleWitnessDb_new : new ⟨[]⟩ .binaryMerkle singleWitnessCfg ⟨0, 0⟩ = some singleWitnessDb := rfl

theorem singleWitnessDb_admissible : singleWitnessDb.Admissible ⟨[(0, 1)]⟩ [] where
  parameters := rfl
  contracts := rfl
  witnesses := rfl
  shape := rfl
  monotone h := by cases h
  sheaf := by decide

theorem singleWitnessCfg_usable : singleWitnessCfg.Usable := by decide

/-- A database with this configuration, whatever it holds. -/
structure Ready (db : NucleusDb .reference) : Prop where
  backend : db.backend = .binaryMerkle
  witnessCfg : db.witnessCfg = singleWitnessCfg
  securityParams : db.securityParams = defaultParams .binaryMerkle
  reductionContracts : db.reductionContracts = defaultReductionContracts .binaryMerkle
  writeMode : db.writeMode = .normal
  inStep : db.ctLeaves.length = db.entries.length

theorem singleWitnessDb_ready : Ready singleWitnessDb := ⟨rfl, rfl, rfl, rfl, rfl, rfl⟩

theorem Ready.admissible {db : NucleusDb .reference} (h : Ready db)
    (hshape : validateCommitShape (defaultParams .binaryMerkle) delta.writes.length
      (apply db.state delta).values.length = .ok ()) : db.Admissible delta [] where
  parameters := by
    rw [h.securityParams, h.backend, h.witnessCfg]
    exact singleWitnessDb_admissible.parameters
  contracts := by
    rw [h.reductionContracts]
    exact singleWitnessDb_admissible.contracts
  witnesses := by
    rw [h.witnessCfg]
    exact singleWitnessDb_admissible.witnesses
  shape := by
    rw [h.securityParams]
    exact hshape
  monotone hmode := by
    rw [h.writeMode] at hmode
    cases hmode
  sheaf := rfl

theorem Ready.commit {db : NucleusDb .reference} (h : Ready db) (now : Nat)
    (hshape : validateCommitShape (defaultParams .binaryMerkle) delta.writes.length
      (apply db.state delta).values.length = .ok ()) :
    ∃ entry db', db.commit delta [] now = some (.ok entry, db') := by
  have husable : db.witnessCfg.Usable := by
    rw [h.witnessCfg]
    exact singleWitnessCfg_usable
  have hroots : ∃ rs, db.roots (apply db.state delta) = some rs := by
    unfold roots stateRootFor
    rw [h.backend]
    cases db.entries.getLast? with
    | none => exact ⟨_, rfl⟩
    | some e => exact ⟨_, rfl⟩
  obtain ⟨rs, hroots⟩ := hroots
  exact commit_ok_of_usable Platform.reference_signaturesCorrect now (h.admissible hshape) hroots husable h.inStep

theorem Ready.of_commit {db db' : NucleusDb .reference} (h : Ready db)
    (hcommit : db.commit delta localViews now = some (.ok entry, db')) : Ready db' := by
  have hframe := commit_sameFrame hcommit
  have hadv := commit_advanced hcommit
  obtain ⟨leaf, hleaves⟩ := hadv.ctLeaves
  constructor
  · exact hframe.backend.trans h.backend
  · exact hframe.witnessCfg.trans h.witnessCfg
  · exact hframe.securityParams.trans h.securityParams
  · exact hframe.reductionContracts.trans h.reductionContracts
  · exact hframe.writeMode.trans h.writeMode
  · rw [hleaves, hadv.entries, List.length_append, List.length_append, h.inStep]
    rfl

theorem singleWitnessDb_commit : ∃ entry db', singleWitnessDb.commit ⟨[(0, 1)]⟩ [] 0 = some (.ok entry, db') :=
  commit_ok_of_usable Platform.reference_signaturesCorrect 0 singleWitnessDb_admissible rfl singleWitnessCfg_usable rfl

theorem singleWitnessDb_commit_commit : ∃ entry db entry' db',
    singleWitnessDb.commit ⟨[(0, 1)]⟩ [] 0 = some (.ok entry, db) ∧ db.commit ⟨[(1, 2)]⟩ [] 5 = some (.ok entry', db') := by
  obtain ⟨entry, db, hcommit⟩ := singleWitnessDb_commit
  have hshape : validateCommitShape (defaultParams .binaryMerkle) (⟨[(1, 2)]⟩ : Delta).writes.length
      (apply db.state ⟨[(1, 2)]⟩).values.length = .ok () := by
    rw [(commit_advanced hcommit).state]
    decide
  obtain ⟨entry', db', hcommit'⟩ := (singleWitnessDb_ready.of_commit hcommit).commit 5 hshape
  exact ⟨entry, db, entry', db', hcommit, hcommit'⟩

end AgentHalo.Engine.NucleusDb

/-!
## When a failed commit changes nothing

A commit that fails its checks returns the database it was given. A commit that fails later has already pushed its leaf
and moved the head, so it never does. Hence a commit is atomic exactly when it cannot fail that late: the checks reject
it, or the backend panics, or the witnesses are sure to reach their quorum and the log is in step with the history. The
last two are facts about the database before the call, which makes the boundary exact (`commit_atomic_iff`).
-/

namespace AgentHalo.Engine.NucleusDb

variable {P : Platform}

/-- If the commit returns an error, every field of the database is what it was. -/
def CommitAtomic (db : NucleusDb P) (delta : Delta) (localViews : List LocalSection) (now : Nat) : Prop :=
  ∀ e db', db.commit delta localViews now = some (.error e, db') → db' = db

theorem not_commitAtomic_of_late_failure {db : NucleusDb P} {delta : Delta} {localViews : List LocalSection} (now : Nat)
    {rs : NodeHash × NodeHash} (hadm : db.Admissible delta localViews)
    (hroots : db.roots (apply db.state delta) = some rs)
    (hbad : ¬ (db.witnessCfg.Usable ∧ db.ctLeaves.length = db.entries.length)) :
    ¬ CommitAtomic db delta localViews now := by
  intro hatomic
  -- The outcome exists because the roots do; its database has one leaf more in both failing cases.
  obtain ⟨r, db', hcommit⟩ : ∃ r db', db.commit delta localViews now = some (r, db') := by
    rw [commit_of_admissible now hadm, hroots]
    exact ⟨_, _, rfl⟩
  rcases commit_cases hcommit with ⟨hnot, -⟩ | ⟨-, ⟨e, rfl⟩, rs', -, hdb⟩ | ⟨rs', sigs, entry, -, hc⟩
  · exact hnot hadm
  · have hsame := hatomic e db' hcommit
    have hgrown : db'.ctLeaves = db.ctLeaves ++ [(db.proposal delta localViews rs').leaf P] := by
      rcases hdb with rfl | rfl <;> rfl
    rw [hsame] at hgrown
    exact absurd hgrown (by simp)
  · exact hbad ⟨WitnessConfig.usable_of_quorum (validateParameters_ok hadm.parameters).1 hc.signed hc.quorum, hc.inStep⟩

/-- **Atomicity of commit, exactly.** Over correct signature schemes, a failing commit leaves every field as it was if
and only if one of these holds before the call: the checks that precede the first write reject it; the commitment
backend panics, so that nothing is returned; or the witness configuration is usable and the transparency log has as many
leaves as the history has entries. -/
theorem commit_atomic_iff (hP : P.SignaturesCorrect) (db : NucleusDb P) (delta : Delta) (localViews : List LocalSection)
    (now : Nat) :
    CommitAtomic db delta localViews now ↔
      ¬ db.Admissible delta localViews ∨ db.roots (apply db.state delta) = none ∨
        (db.witnessCfg.Usable ∧ db.ctLeaves.length = db.entries.length) := by
  constructor
  · intro hatomic
    by_cases hadm : db.Admissible delta localViews
    · right
      cases hroots : db.roots (apply db.state delta) with
      | none => exact .inl rfl
      | some rs =>
        right
        by_contra hbad
        exact not_commitAtomic_of_late_failure now hadm hroots hbad hatomic
    · exact .inl hadm
  · intro hsafe e db' hcommit
    rcases commit_cases hcommit with ⟨-, -, rfl⟩ | ⟨hadm, -, rs, hroots, -⟩ | ⟨-, -, entry, he, -⟩
    · rfl
    · -- An admitted commit that returned an error contradicts each of the three conditions.
      rcases hsafe with hnot | hpanic | ⟨husable, hstep⟩
      · exact absurd hadm hnot
      · rw [hroots] at hpanic
        cases hpanic
      · obtain ⟨entry, db'', hok⟩ := commit_ok_of_usable hP now hadm hroots husable hstep
        rw [hok] at hcommit
        cases hcommit
    · cases he

/-! ### A quorum that cannot be met -/

/-- Two witnesses of one name and a threshold of two, which the parameters accept. -/
def duplicateWitnessCfg : WitnessConfig .reference :=
  WitnessConfig.withSeed .reference none 2 ["w", "w"] "seed"

def duplicateWitnessDb : NucleusDb .reference :=
  fresh ⟨[]⟩ .binaryMerkle duplicateWitnessCfg (defaultParams .binaryMerkle) (defaultReductionContracts .binaryMerkle)
    none ⟨0, 0⟩

theorem duplicateWitnessDb_admissible : duplicateWitnessDb.Admissible ⟨[(0, 1)]⟩ [] where
  parameters := rfl
  contracts := rfl
  witnesses := rfl
  shape := rfl
  monotone h := by cases h
  sheaf := by decide

/-- The second signature of `w` adds nothing to the quorum, and the leaf of the failed commit stays in the log. -/
theorem not_commitAtomic_duplicateWitnessDb :
    new ⟨[]⟩ .binaryMerkle duplicateWitnessCfg ⟨0, 0⟩ = some duplicateWitnessDb ∧
      ¬ CommitAtomic duplicateWitnessDb ⟨[(0, 1)]⟩ [] 0 := by
  refine ⟨rfl, not_commitAtomic_of_late_failure 0 duplicateWitnessDb_admissible rfl ?_⟩
  rintro ⟨⟨-, hnodup, -⟩, -⟩
  revert hnodup
  decide

/-- With a single witness that has a key, the commit is atomic. -/
theorem commit_atomic_iff_single : CommitAtomic singleWitnessDb ⟨[(0, 1)]⟩ [] 0 :=
  (commit_atomic_iff Platform.reference_signaturesCorrect singleWitnessDb ⟨[(0, 1)]⟩ [] 0).mpr
    (.inr (.inr ⟨singleWitnessCfg_usable, rfl⟩))

end AgentHalo.Engine.NucleusDb
