import AgentHalo.Audit.Evidence

/-!
# The engine's evidence replays

Each record of a run passes each check of the replay: the header because `makeSth` built the head over a log in step with
the history, the link because an entry starts at the root the previous one ended at, the quorum because the committer ran
the same check on the same message. No assumption on the signature schemes is needed.
-/

namespace AgentHalo.Audit

open Engine Engine.NucleusDb
open Text (hexEncode decodeHexExact)
open Transparency (hasher merkleTreeHash verifyConsistencyProof makeConsistencyProof_isSome_iff verifyConsistencyProof_of_make)
open CommitEvidence (fromEntry)

variable {P : Platform}

/-! ### The auditor's checks on written evidence -/

theorem decodePath_hexEncode (height : Nat) (path : List NodeHash) :
    decodePath height (path.map fun h => hexEncode h.toList) = .ok path := by
  induction path with
  | nil => rfl
  | cons node rest ih =>
    rw [List.map_cons, decodePath, Text.decodeHexExact_hexEncode]
    dsimp only
    rw [ih]

theorem trim_backendId (b : VcBackend) : Text.trim b.backendId = b.backendId := by
  cases b <;> decide

theorem normalizeBackendId_of_backendId {e : CommitEvidence} {b : VcBackend} (h : e.vcBackendId = b.backendId) :
    normalizeBackendId e = some b.backendId ∧
      ¬ (b.backendId ≠ "ipa" ∧ b.backendId ≠ "kzg" ∧ b.backendId ≠ "binary_merkle") := by
  unfold normalizeBackendId
  rw [h, trim_backendId]
  cases b
  · exact ⟨rfl, by decide⟩
  · exact ⟨rfl, by decide⟩
  · exact ⟨rfl, by decide⟩

theorem checkLink_eq_ok {prev e : CommitEvidence} {c : ConsistencyEvidence} {oldRoot newRoot : NodeHash}
    {path : List NodeHash} (hstate : e.prevStateRoot = prev.stateRoot) (hc : e.consistencyWithPrev = some c)
    (hsizes : c.oldSize = prev.sthSize ∧ c.newSize = e.sthSize) (hroots : c.oldRoot = prev.sthRoot ∧ c.newRoot = e.sthRoot)
    (hold : decodeHexExact 32 c.oldRoot = some oldRoot) (hnew : decodeHexExact 32 c.newRoot = some newRoot)
    (hpath : decodePath e.height c.proof = .ok path)
    (hverify : verifyConsistencyProof (hasher P) ⟨c.oldSize, c.newSize, path⟩ oldRoot newRoot = true) :
    checkLink P prev e = .ok () := by
  unfold checkLink
  rw [if_neg (not_not.mpr hstate), hc]
  dsimp only
  rw [if_neg (not_or.mpr ⟨not_not.mpr hsizes.1, not_not.mpr hsizes.2⟩),
    if_neg (not_or.mpr ⟨not_not.mpr hroots.1, not_not.mpr hroots.2⟩), hold, hnew]
  dsimp only
  rw [hpath]
  dsimp only
  rw [hverify]
  rfl

section Committed

variable {db db' : NucleusDb P} {delta : Delta} {localViews : List LocalSection} {now : Nat}
  {rs : NodeHash × NodeHash} {sigs : List (String × String)} {entry : CommitEntry}

theorem checkHeader_fromEntry (hc : Committed db delta localViews now rs sigs entry db')
    (prev : Option CommitEntry) (c : Option (Transparency.ConsistencyProof NodeHash)) :
    checkHeader P db.entries.length (fromEntry prev entry c) = .ok db.witnessCfg.signingAlgorithm := by
  obtain ⟨-, hpolicy⟩ := validateParameters_ok hc.admissible.parameters
  obtain ⟨hscheme, hdomain, hdegree⟩ := validateCommitmentPolicy_ok hpolicy
  have hentry := hc.entry_eq
  have hsize : (fromEntry prev entry c).sthSize = (fromEntry prev entry c).height := by
    rw [hentry]
    exact (length_staged_eq_height_iff db delta localViews rs _).mpr hc.inStep
  have hheight : (fromEntry prev entry c).height = db.entries.length + 1 := by rw [hentry]; rfl
  have hroot : decodeHexExact 32 (fromEntry prev entry c).sthRoot = some entry.sth.rootHash :=
    Text.decodeHexExact_hexEncode _
  have hsig : (fromEntry prev entry c).sthSig =
      Transparency.sthSignature P (fromEntry prev entry c).sthSize entry.sth.rootHash
        (fromEntry prev entry c).sthTimestampUnixSecs := by
    rw [hentry]
    rfl
  have hscheme' : ¬ (Text.trim (fromEntry prev entry c).vcSchemeId = "" ∨
      Text.trim (fromEntry prev entry c).vcDomainSeparator = "") := by
    rw [hentry]
    exact not_or.mpr ⟨hscheme, hdomain⟩
  have hdegree' : (fromEntry prev entry c).vcMaxDegree ≠ 0 := by rw [hentry]; exact hdegree
  have hbackend : (fromEntry prev entry c).vcBackendId = db.backend.backendId := by rw [hentry]; rfl
  obtain ⟨hnormal, haccepted⟩ := normalizeBackendId_of_backendId hbackend
  have htag : parseAlgorithmTag (fromEntry prev entry c).witnessSignatureAlgorithm =
      .ok db.witnessCfg.signingAlgorithm := by
    have hword : (fromEntry prev entry c).witnessSignatureAlgorithm =
        db.witnessCfg.signingAlgorithm.asTag := by rw [hentry]; rfl
    unfold parseAlgorithmTag
    rw [hword, WitnessSignatureAlgorithm.fromTag_asTag]
  unfold checkHeader
  rw [if_neg (not_not.mpr hheight), if_neg (not_not.mpr hsize), hroot]
  dsimp only
  rw [if_neg (not_not.mpr hsig), if_neg hscheme', if_neg hdegree', hnormal]
  dsimp only
  rw [if_neg haccepted, htag]

theorem quorum_fromEntry (hc : Committed db delta localViews now rs sigs entry db')
    (prev : Option CommitEntry) (c : Option (Transparency.ConsistencyProof NodeHash)) :
    verifyQuorumForAlgorithm db.witnessCfg db.witnessCfg.signingAlgorithm
      (msgForEntry (fromEntry prev entry c)) (fromEntry prev entry c).witnessSigs
        = true := by
  rw [hc.entry_eq]
  exact hc.quorum

/-- A previous record carries what the link check reads of its entry. -/
structure Records (ev : CommitEvidence) (e : CommitEntry) : Prop where
  stateRoot : ev.stateRoot = hexEncode e.stateRoot.toList
  sthSize : ev.sthSize = e.sth.treeSize
  sthRoot : ev.sthRoot = hexEncode e.sth.rootHash.toList

theorem records_lastEvidence (db : NucleusDb P) (entry : CommitEntry) : Records (lastEvidence db entry) entry :=
  ⟨rfl, rfl, rfl⟩

theorem previousEntry_of_nil (hc : Committed db delta localViews now rs sigs entry db') (hempty : db.entries = []) :
    previousEntry db' = none := by
  have hentries : db'.entries = [entry] := by rw [hc.db_eq, pushSeal_entries, hempty]; rfl
  unfold previousEntry
  rw [hentries]
  exact if_neg (by simp)

variable {e₀ : CommitEntry} {initial : State} {deltas : List Delta}

theorem previousEntry_of_last (hc : Committed db delta localViews now rs sigs entry db')
    (hlast : db.entries.getLast? = some e₀) : previousEntry db' = some e₀ := by
  have hentries : db'.entries = db.entries ++ [entry] := by rw [hc.db_eq, pushSeal_entries]
  have hpos : 0 < db.entries.length := by
    cases hcase : db.entries with
    | nil => rw [hcase] at hlast; cases hlast
    | cons e rest => exact Nat.succ_pos _
  rw [List.getLast?_eq_getElem?] at hlast
  unfold previousEntry
  rw [hentries, List.length_append, List.length_singleton, if_pos (by omega),
    show db.entries.length + 1 - 2 = db.entries.length - 1 by omega]
  exact getElem?_concat_of_some hlast

theorem checkLink_lastEvidence (hchain : Chain initial deltas db) (hc : Committed db delta localViews now rs sigs entry db')
    {ev₀ : CommitEvidence} (hlast : db.entries.getLast? = some e₀) (hrec : Records ev₀ e₀) :
    checkLink P ev₀ (lastEvidence db' entry) = .ok () := by
  have hchain' := hchain.step hc
  have hat : db.entries[db.entries.length - 1]? = some e₀ := by rwa [← List.getLast?_eq_getElem?]
  have hpos : db.entries.length - 1 + 1 = db.entries.length := by
    have hlt := (List.getElem?_eq_some_iff.mp hat).1
    omega
  have hentries : db'.entries = db.entries ++ [entry] := by rw [hc.db_eq, pushSeal_entries]
  have hat₀ : db'.entries[db.entries.length - 1]? = some e₀ := by rw [hentries]; exact getElem?_concat_of_some hat
  have hat₁ : db'.entries[db.entries.length]? = some entry := by rw [hentries, List.getElem?_concat_length]
  have hleaves : db'.ctLeaves.length = db.entries.length + 1 := by
    rw [← hchain'.length_eq, hentries, List.length_append, List.length_singleton]
  -- The two heads are those of the log before and after the new leaf.
  have hsize₀ : e₀.sth.treeSize = db.entries.length := by rw [hchain'.treeSize_eq _ _ hat₀, hpos]
  have hsize₁ : entry.sth.treeSize = db'.ctLeaves.length := by rw [hchain'.treeSize_eq _ _ hat₁, hleaves]
  have hroot₀ : e₀.sth.rootHash = merkleTreeHash (hasher P) (db'.ctLeaves.take e₀.sth.treeSize) := by
    rw [hchain'.rootHash_eq _ _ hat₀, hpos, hsize₀]
  have hroot₁ : entry.sth.rootHash = merkleTreeHash (hasher P) db'.ctLeaves := by
    rw [hchain'.rootHash_eq _ _ hat₁, ← hleaves, List.take_length]
  have hlinked : entry.prevStateRoot = e₀.stateRoot := hchain'.linked _ _ _ hat₀ (by rwa [hpos])
  have hsth : db'.currentSth = some entry.sth := by
    rw [hchain'.currentSth_eq, hentries, List.getLast?_concat, Option.map_some]
  -- So the log proves the one consistent with the other.
  obtain ⟨proof, hproof⟩ := Option.isSome_iff_exists.mp
    ((makeConsistencyProof_isSome_iff (hasher P) db'.ctLeaves e₀.sth.treeSize).mpr (by omega))
  obtain ⟨hold, hnew, hverify⟩ := verifyConsistencyProof_of_make (hasher P) hproof
  rw [← hroot₀, ← hroot₁] at hverify
  have hevidence : lastEvidence db' entry = fromEntry (some e₀) entry (some proof) := by
    unfold lastEvidence consistencyFrom
    rw [previousEntry_of_last hc hlast, hsth]
    dsimp only [Option.bind_some]
    rw [hproof]
    rfl
  rw [hevidence]
  refine checkLink_eq_ok ?_ rfl ⟨?_, ?_⟩ ⟨?_, rfl⟩ (Text.decodeHexExact_hexEncode e₀.sth.rootHash)
    (Text.decodeHexExact_hexEncode entry.sth.rootHash) (decodePath_hexEncode _ proof.path) hverify
  · rw [hrec.stateRoot, ← hlinked]
    rfl
  · exact hold.trans hrec.sthSize.symm
  · exact hnew.trans hsize₁.symm
  · exact hrec.sthRoot.symm

theorem checkRecord_lastEvidence (hchain : Chain initial deltas db) (hc : Committed db delta localViews now rs sigs entry db')
    {prev : Option CommitEvidence} (hprev : (prev = none ∧ db.entries = []) ∨
      ∃ ev₀ e₀, prev = some ev₀ ∧ db.entries.getLast? = some e₀ ∧ Records ev₀ e₀) :
    checkRecord db.witnessCfg db.entries.length prev (lastEvidence db' entry) = .ok () := by
  have hposition : checkPosition P prev (lastEvidence db' entry) = .ok () := by
    rcases hprev with ⟨rfl, hempty⟩ | ⟨ev₀, e₀, rfl, hlast, hrec⟩
    · have hnone : (lastEvidence db' entry).consistencyWithPrev = none := by
        unfold lastEvidence
        rw [previousEntry_of_nil hc hempty]
        rfl
      unfold checkPosition checkGenesis
      dsimp only
      rw [hnone]
      rfl
    · exact checkLink_lastEvidence hchain hc hlast hrec
  have hheader : checkHeader P db.entries.length (lastEvidence db' entry) = .ok db.witnessCfg.signingAlgorithm :=
    checkHeader_fromEntry hc _ _
  have hquorum : verifyQuorumForAlgorithm db.witnessCfg db.witnessCfg.signingAlgorithm
      (msgForEntry (lastEvidence db' entry)) (lastEvidence db' entry).witnessSigs = true := quorum_fromEntry hc _ _
  unfold checkRecord
  rw [hheader]
  dsimp only
  rw [hposition]
  dsimp only
  rw [hquorum]
  rfl

end Committed

/-! ### Runs -/

/-- The record after the ones in `l`, the first of which follows `prev`. -/
def lastOr (prev : Option CommitEvidence) (l : List CommitEvidence) : Option CommitEvidence := l.getLast?.or prev

theorem replayFrom_concat (cfg : WitnessConfig P) (l : List CommitEvidence) (e : CommitEvidence) (i : Nat)
    (prev : Option CommitEvidence) (hl : replayFrom cfg i prev l = .ok ())
    (he : checkRecord cfg (i + l.length) (lastOr prev l) e = .ok ()) : replayFrom cfg i prev (l ++ [e]) = .ok () := by
  induction l generalizing i prev with
  | nil =>
    rw [List.nil_append, replayFrom, show checkRecord cfg i prev e = .ok () from he]
    rfl
  | cons a rest ih =>
    rw [replayFrom] at hl
    rw [List.cons_append, replayFrom]
    cases hcheck : checkRecord cfg i prev a with
    | error err => rw [hcheck] at hl; cases hl
    | ok u =>
      rw [hcheck] at hl
      dsimp only at hl ⊢
      refine ih (i + 1) (some a) hl ?_
      have hlast : lastOr (some a) rest = lastOr prev (a :: rest) := by
        unfold lastOr
        rw [List.getLast?_cons]
        cases rest.getLast? <;> rfl
      rw [hlast, show i + 1 + rest.length = i + (a :: rest).length by rw [List.length_cons]; omega]
      exact he

/-- A run of successful `commit_with_evidence` calls and the evidence it returned, oldest first. -/
inductive EvidenceRun (start : NucleusDb P) : List CommitEvidence → NucleusDb P → Prop where
  | nil : EvidenceRun start [] start
  | snoc {evidence : List CommitEvidence} {db db' : NucleusDb P} {delta : Delta} {localViews : List LocalSection}
      {now : Nat} {entry : CommitEntry} {ev : CommitEvidence} (run : EvidenceRun start evidence db)
      (commit : commitWithEvidence db delta localViews now = some (.ok (entry, ev), db')) :
      EvidenceRun start (evidence ++ [ev]) db'

theorem commitWithEvidence_ok {ev : CommitEvidence}
    (h : commitWithEvidence db delta localViews now = some (.ok (entry, ev), db')) :
    db.commit delta localViews now = some (.ok entry, db') ∧ ev = lastEvidence db' entry := by
  unfold commitWithEvidence at h
  split at h
  · cases h
  · cases h
  · rename_i entry' db'' hcommit
    obtain ⟨hok, rfl⟩ := Prod.mk.inj (Option.some.inj h)
    obtain ⟨rfl, rfl⟩ := Prod.mk.inj (Except.ok.inj hok)
    exact ⟨hcommit, rfl⟩

theorem commitWithEvidence_of_commit (h : db.commit delta localViews now = some (.ok entry, db')) :
    commitWithEvidence db delta localViews now = some (.ok (entry, lastEvidence db' entry), db') := by
  unfold commitWithEvidence
  rw [h]

/-- What a run has established: the chain, the configuration, the replay so far, and that the last record is that of the
last entry. -/
structure Replayed (initial : State) (start : NucleusDb P) (evidence : List CommitEvidence) (db : NucleusDb P) :
    Prop where
  chain : ∃ deltas, Chain initial deltas db
  witnessCfg : db.witnessCfg = start.witnessCfg
  replay : replayFrom start.witnessCfg 0 none evidence = .ok ()
  count : evidence.length = db.entries.length
  last : (evidence.getLast? = none ∧ db.entries = []) ∨
    ∃ ev e, evidence.getLast? = some ev ∧ db.entries.getLast? = some e ∧ Records ev e

theorem replayed_of_run {initial : State} {start : NucleusDb P} {evidence : List CommitEvidence}
    (hfresh : FreshlyBuilt initial start) (hrun : EvidenceRun start evidence db) :
    Replayed initial start evidence db := by
  induction hrun with
  | nil =>
    have hempty : start.entries = [] := hfresh.fresh.2.1
    exact ⟨⟨[], Chain.of_fresh hfresh⟩, rfl, rfl, by rw [hempty]; rfl, .inl ⟨rfl, hempty⟩⟩
  | @snoc evidence db db' delta localViews now entry ev run commit ih =>
    obtain ⟨hcommit, rfl⟩ := commitWithEvidence_ok commit
    obtain ⟨rs, sigs, hc⟩ := commit_ok hcommit
    obtain ⟨deltas, hchain⟩ := ih.chain
    have hentries : db'.entries = db.entries ++ [entry] := by rw [hc.db_eq, pushSeal_entries]
    constructor
    case chain => exact ⟨_, hchain.step hc⟩
    case witnessCfg => exact hc.sameFrame.witnessCfg.trans ih.witnessCfg
    case count => rw [hentries, List.length_append, List.length_append, ih.count]; rfl
    case last =>
      refine .inr ⟨_, entry, List.getLast?_concat, ?_, records_lastEvidence db' entry⟩
      rw [hentries, List.getLast?_concat]
    case replay =>
      refine replayFrom_concat _ _ _ _ _ ih.replay ?_
      rw [Nat.zero_add, ih.count, ← ih.witnessCfg]
      apply checkRecord_lastEvidence hchain hc
      unfold lastOr
      rcases ih.last with ⟨hnone, hempty⟩ | ⟨ev₀, e₀, hev, he, hrec⟩
      · exact .inl ⟨by rw [hnone]; rfl, hempty⟩
      · exact .inr ⟨ev₀, e₀, by rw [hev]; rfl, he, hrec⟩

/-- **The engine's evidence replays.** For every run of successful `commit_with_evidence` calls on a freshly built
database, under any backend and configuration, the evidence it returned is accepted by the auditor under the same
witness configuration, provided there was at least one call. -/
theorem replayVerifyEvidence_of_run {initial : State} {start db : NucleusDb P} {evidence : List CommitEvidence}
    (hfresh : FreshlyBuilt initial start) (hrun : EvidenceRun start evidence db) (hne : evidence ≠ []) :
    replayVerifyEvidence evidence start.witnessCfg = .ok () := by
  unfold replayVerifyEvidence
  rw [if_neg (by simpa using hne)]
  exact (replayed_of_run hfresh hrun).replay

/-- The evidence of two commits, replayed. -/
theorem replayVerifyEvidence_of_run_two :
    ∃ evidence db, evidence.length = 2 ∧ EvidenceRun singleWitnessDb evidence db ∧
      replayVerifyEvidence evidence singleWitnessDb.witnessCfg = .ok () := by
  obtain ⟨_, _, _, db, hcommit, hcommit'⟩ := singleWitnessDb_commit_commit
  have hrun := (EvidenceRun.nil.snoc (commitWithEvidence_of_commit hcommit)).snoc (commitWithEvidence_of_commit hcommit')
  refine ⟨_, db, rfl, hrun, ?_⟩
  exact replayVerifyEvidence_of_run (.inl ⟨_, _, _, singleWitnessDb_new⟩) hrun (List.cons_ne_nil _ _)

/-- The run without calls returns no evidence, and the auditor rejects the empty list. -/
theorem replayVerifyEvidence_empty_run :
    new ⟨[]⟩ .binaryMerkle singleWitnessCfg ⟨0, 0⟩ = some singleWitnessDb ∧
      EvidenceRun singleWitnessDb [] singleWitnessDb ∧
      replayVerifyEvidence [] singleWitnessDb.witnessCfg = .error .emptyEvidence :=
  ⟨singleWitnessDb_new, EvidenceRun.nil, rfl⟩

end AgentHalo.Audit
