import AgentHalo.Audit.Replay
import AgentHalo.Lib.Words

/-!
# What an edited record can still say

An auditor is given another list with the same heights and signatures as the evidence of a run. The signatures are over the
height, the two state roots, and the root and the timestamp of the tree head, and the size of the head is checked against
the height: none of these can be edited, whatever characters a record uses. The three digests of a record are not in the
signed text, and the replay does not read them at all (`replayVerifyEvidence_of_sameButDigests`).
-/

namespace AgentHalo.Audit

open Engine Engine.NucleusDb Separators
open Text (colon_not_mem_hexEncode colon_not_mem_toString)

variable {P : Platform}

/-! ### The signed text -/

theorem commitMessage_toList (height : Nat) (prevStateRoot stateRoot sthRoot : String) (timestamp : Nat) :
    (commitMessage height prevStateRoot stateRoot sthRoot timestamp).toList =
      (toString height).toList ++ ':' :: (prevStateRoot.toList ++ ':' :: (stateRoot.toList ++ ':' ::
        (sthRoot.toList ++ ':' :: (toString timestamp).toList))) := by
  unfold commitMessage
  simp only [String.toList_append, String.reduceToList, List.append_assoc, List.cons_append, List.nil_append]

theorem commitMessage_inj {height height' timestamp timestamp' : Nat}
    {prevStateRoot prevStateRoot' stateRoot stateRoot' sthRoot sthRoot' : String}
    (hprev : ':' ∉ prevStateRoot.toList) (hstate : ':' ∉ stateRoot.toList) (hroot : ':' ∉ sthRoot.toList)
    (h : commitMessage height' prevStateRoot' stateRoot' sthRoot' timestamp' =
      commitMessage height prevStateRoot stateRoot sthRoot timestamp) :
    prevStateRoot' = prevStateRoot ∧ stateRoot' = stateRoot ∧ sthRoot' = sthRoot ∧ timestamp' = timestamp := by
  have hlist := congrArg String.toList h
  rw [commitMessage_toList, commitMessage_toList] at hlist
  have hrest := (append_cons_inj_of_not_mem (colon_not_mem_toString _) (colon_not_mem_toString _) hlist).2
  -- three colons are accounted for, so the other record has none in its fields either
  have hcount := congrArg (List.count ':') hrest
  simp only [List.count_append, List.count_cons_self, List.count_eq_zero_of_not_mem hprev,
    List.count_eq_zero_of_not_mem hstate, List.count_eq_zero_of_not_mem hroot,
    List.count_eq_zero_of_not_mem (colon_not_mem_toString _)] at hcount
  have hprev' : ':' ∉ prevStateRoot'.toList := List.count_eq_zero.mp (by omega)
  have hstate' : ':' ∉ stateRoot'.toList := List.count_eq_zero.mp (by omega)
  have hroot' : ':' ∉ sthRoot'.toList := List.count_eq_zero.mp (by omega)
  obtain ⟨heq₁, hrest⟩ := append_cons_inj_of_not_mem hprev' hprev hrest
  obtain ⟨heq₂, hrest⟩ := append_cons_inj_of_not_mem hstate' hstate hrest
  obtain ⟨heq₃, hrest⟩ := append_cons_inj_of_not_mem hroot' hroot hrest
  exact ⟨String.toList_inj.mp heq₁, String.toList_inj.mp heq₂, String.toList_inj.mp heq₃,
    Text.toString_nat_inj (String.toList_inj.mp hrest)⟩

/-! ### Accepted records -/

variable {i : Nat} {e : CommitEvidence} {sigAlg : WitnessSignatureAlgorithm} {cfg : WitnessConfig P}
  {prev : Option CommitEvidence}

theorem checkHeader_ok (h : checkHeader P i e = .ok sigAlg) : e.sthSize = e.height := by
  unfold checkHeader at h
  obtain ⟨-, h⟩ := guard_eq_ok h
  obtain ⟨hsize, -⟩ := guard_eq_ok h
  exact not_not.mp hsize

theorem checkRecord_ok (h : checkRecord cfg i prev e = .ok ()) :
    ∃ sigAlg, checkHeader P i e = .ok sigAlg ∧ checkPosition P prev e = .ok () ∧
      verifyQuorumForAlgorithm cfg sigAlg (msgForEntry e) e.witnessSigs = true := by
  unfold checkRecord at h
  split at h
  · cases h
  rename_i sigAlg hheader
  split at h
  · cases h
  rename_i hposition
  obtain ⟨hquorum, -⟩ := guard_eq_ok h
  exact ⟨sigAlg, hheader, hposition, by simpa using hquorum⟩

theorem replayFrom_cons_ok {rest : List CommitEvidence} (h : replayFrom cfg i prev (e :: rest) = .ok ()) :
    checkRecord cfg i prev e = .ok () ∧ replayFrom cfg (i + 1) (some e) rest = .ok () := by
  rw [replayFrom] at h
  split at h
  · cases h
  · rename_i hcheck
    exact ⟨hcheck, h⟩

theorem checkRecord_of_replayFrom {l : List CommitEvidence} {k : Nat} (h : replayFrom cfg i prev l = .ok ())
    (hk : l[k]? = some e) :
    ∃ j prev', checkRecord cfg j prev' e = .ok () := by
  induction l generalizing i k prev with
  | nil => cases hk
  | cons a rest ih =>
    obtain ⟨hcheck, hrest⟩ := replayFrom_cons_ok h
    cases k with
    | zero =>
      obtain rfl := Option.some.inj hk
      exact ⟨i, prev, hcheck⟩
    | succ k => exact ih hrest hk

theorem replayVerifyEvidence_ok {evidence : List CommitEvidence} (h : replayVerifyEvidence evidence cfg = .ok ()) :
    evidence ≠ [] ∧ replayFrom cfg 0 none evidence = .ok () := by
  unfold replayVerifyEvidence at h
  obtain ⟨hne, h⟩ := guard_eq_ok h
  exact ⟨by simpa using hne, h⟩

theorem exists_countsFor {message : String} {sigs : List (String × String)}
    (h : verifyQuorumForAlgorithm cfg sigAlg message sigs = true) (hpos : 0 < cfg.threshold) :
    ∃ pair ∈ sigs, countsFor cfg sigAlg message pair = true := by
  obtain ⟨-, hcard⟩ := (verifyQuorumForAlgorithm_iff _ _ _ _).mp h
  obtain ⟨name, hname⟩ := Finset.card_pos.mp (hpos.trans_le hcard)
  rw [List.mem_toFinset, List.mem_map] at hname
  obtain ⟨pair, hpair, -⟩ := hname
  exact ⟨pair, List.mem_filter.mp hpair⟩

/-! ### Exported records -/

/-- The record was returned by a successful `commit_with_evidence` of a database with these witnesses. -/
def Exported (cfg : WitnessConfig P) (e : CommitEvidence) : Prop :=
  ∃ (db : NucleusDb P) (delta : Delta) (localViews : List LocalSection) (now : Nat) (entry : CommitEntry)
    (db' : NucleusDb P), db.witnessCfg = cfg ∧ commitWithEvidence db delta localViews now = some (.ok (entry, e), db')

/-- What an edit has to reckon with: the fields have no colons, the size is the height, and one signature was made for each
witness up to the threshold. -/
structure WellExported (cfg : WitnessConfig P) (e : CommitEvidence) : Prop where
  prevStateRoot : ':' ∉ e.prevStateRoot.toList
  stateRoot : ':' ∉ e.stateRoot.toList
  sthRoot : ':' ∉ e.sthRoot.toList
  sthSize : e.sthSize = e.height
  witnessSigs : cfg.threshold = 0 → e.witnessSigs = []

theorem Exported.wellExported (h : Exported cfg e) : WellExported cfg e := by
  obtain ⟨db, delta, localViews, now, entry, db', rfl, hexport⟩ := h
  obtain ⟨hcommit, rfl⟩ := commitWithEvidence_ok hexport
  obtain ⟨rs, sigs, hc⟩ := commit_ok hcommit
  constructor
  · exact colon_not_mem_hexEncode _
  · exact colon_not_mem_hexEncode _
  · exact colon_not_mem_hexEncode _
  · exact checkHeader_ok (checkHeader_fromEntry hc _ _)
  · intro hzero
    have hsigs : (lastEvidence db' entry).witnessSigs = sigs := by
      rw [hc.entry_eq]
      rfl
    have hsigned := hc.signed
    unfold WitnessConfig.signers at hsigned
    rw [hzero, List.take_zero] at hsigned
    rw [hsigs]
    exact (Except.ok.inj hsigned).symm

/-! ### Edits -/

/-- No signature of a record counts for another text than its own, among the texts of the edited records. -/
def Unforged (cfg : WitnessConfig P) (evidence edited : List CommitEvidence) : Prop :=
  ∀ (i : Nat) (e e' : CommitEvidence), evidence[i]? = some e → edited[i]? = some e' → ∀ sigAlg, ∀ pair ∈ e.witnessSigs,
    countsFor cfg sigAlg (msgForEntry e') pair = true → msgForEntry e' = msgForEntry e

/-- A list that the auditor accepts in the place of another, with the same heights and the same signatures. -/
structure Passes (cfg : WitnessConfig P) (evidence edited : List CommitEvidence) : Prop where
  heights : edited.map (·.height) = evidence.map (·.height)
  witnessSigs : edited.map (·.witnessSigs) = evidence.map (·.witnessSigs)
  accepted : replayVerifyEvidence edited cfg = .ok ()
  unforged : Unforged cfg evidence edited

structure AuditedFields where
  prevStateRoot : String
  stateRoot : String
  deltaDigest : UInt64
  certDigest : UInt64
  sheafCoherenceDigest : UInt64
  sthSize : Nat
  sthRoot : String
  sthTimestampUnixSecs : Nat
deriving DecidableEq, Repr

def CommitEvidence.audited (e : CommitEvidence) : AuditedFields where
  prevStateRoot := e.prevStateRoot
  stateRoot := e.stateRoot
  deltaDigest := e.deltaDigest
  certDigest := e.certDigest
  sheafCoherenceDigest := e.sheafCoherenceDigest
  sthSize := e.sthSize
  sthRoot := e.sthRoot
  sthTimestampUnixSecs := e.sthTimestampUnixSecs

def CommitEvidence.digests (e : CommitEvidence) : UInt64 × UInt64 × UInt64 :=
  (e.deltaDigest, e.certDigest, e.sheafCoherenceDigest)

section Passes

variable {cfg : WitnessConfig P} {evidence edited : List CommitEvidence} {i : Nat} {e e' : CommitEvidence}

theorem Passes.length_eq (h : Passes cfg evidence edited) : edited.length = evidence.length := by
  have hlength := congrArg List.length h.heights
  rwa [List.length_map, List.length_map] at hlength

theorem Passes.height_eq (h : Passes cfg evidence edited) (he : evidence[i]? = some e) (he' : edited[i]? = some e') :
    e'.height = e.height := by
  have hget := congrArg (·[i]?) h.heights
  simpa [he, he'] using hget

theorem Passes.witnessSigs_eq (h : Passes cfg evidence edited) (he : evidence[i]? = some e)
    (he' : edited[i]? = some e') : e'.witnessSigs = e.witnessSigs := by
  have hget := congrArg (·[i]?) h.witnessSigs
  simpa [he, he'] using hget

theorem Passes.message_eq (h : Passes cfg evidence edited) (hpos : 0 < cfg.threshold) (he : evidence[i]? = some e)
    (he' : edited[i]? = some e') : msgForEntry e' = msgForEntry e := by
  obtain ⟨j, prev, hcheck⟩ := checkRecord_of_replayFrom (replayVerifyEvidence_ok h.accepted).2 he'
  obtain ⟨sigAlg, -, -, hquorum⟩ := checkRecord_ok hcheck
  obtain ⟨pair, hpair, hcounts⟩ := exists_countsFor hquorum hpos
  rw [h.witnessSigs_eq he he'] at hpair
  exact h.unforged i e e' he he' sigAlg pair hpair hcounts

theorem Passes.audited_eq (h : Passes cfg evidence edited) (hpos : 0 < cfg.threshold) (hexported : WellExported cfg e)
    (he : evidence[i]? = some e) (he' : edited[i]? = some e') (hdigests : e'.digests = e.digests) :
    e'.audited = e.audited := by
  obtain ⟨hprev, hstate, hroot, htime⟩ := commitMessage_inj hexported.prevStateRoot hexported.stateRoot hexported.sthRoot
    (h.message_eq hpos he he')
  obtain ⟨j, prev, hcheck⟩ := checkRecord_of_replayFrom (replayVerifyEvidence_ok h.accepted).2 he'
  obtain ⟨sigAlg, hheader, -, -⟩ := checkRecord_ok hcheck
  have hsize : e'.sthSize = e.sthSize := by
    rw [checkHeader_ok hheader, h.height_eq he he', hexported.sthSize]
  obtain ⟨hdelta, hcert, hsheaf⟩ : e'.deltaDigest = e.deltaDigest ∧ e'.certDigest = e.certDigest ∧
      e'.sheafCoherenceDigest = e.sheafCoherenceDigest := by
    simpa [CommitEvidence.digests] using hdigests
  unfold CommitEvidence.audited
  rw [hprev, hstate, hroot, htime, hsize, hdelta, hcert, hsheaf]

theorem Passes.map_audited_eq_iff (h : Passes cfg evidence edited) (hpos : 0 < cfg.threshold)
    (hexported : ∀ e ∈ evidence, WellExported cfg e) :
    edited.map (·.audited) = evidence.map (·.audited) ↔ edited.map (·.digests) = evidence.map (·.digests) := by
  constructor
  · intro haudited
    have hdigests : CommitEvidence.digests =
        (fun f : AuditedFields => (f.deltaDigest, f.certDigest, f.sheafCoherenceDigest)) ∘ CommitEvidence.audited := rfl
    rw [hdigests, ← List.map_map, ← List.map_map, haudited]
  · intro hdigests
    apply List.ext_getElem?
    intro i
    have hget := congrArg (·[i]?) hdigests
    simp only [List.getElem?_map] at hget ⊢
    cases he : evidence[i]? with
    | none =>
      have hnone : edited[i]? = none := by
        rw [List.getElem?_eq_none_iff] at he ⊢
        rw [h.length_eq]
        exact he
      rw [hnone]
    | some e =>
      cases he' : edited[i]? with
      | none =>
        rw [he, he'] at hget
        cases hget
      | some e' =>
        rw [he, he'] at hget
        have hsame : e'.digests = e.digests := Option.some.inj hget
        have haudited := h.audited_eq hpos (hexported e (List.mem_of_getElem? he)) he he' hsame
        exact congrArg some haudited

end Passes

/-! ### What the replay does not read -/

/-- The records agree on everything but the digests. -/
def SameButDigests (e e' : CommitEvidence) : Prop :=
  ∃ deltaDigest certDigest sheafCoherenceDigest, e' = { e with deltaDigest, certDigest, sheafCoherenceDigest }

variable {prev prev' : Option CommitEvidence}

theorem checkRecord_of_sameButDigests (cfg : WitnessConfig P) (i : Nat) (hprev : Option.Rel SameButDigests prev prev')
    (he : SameButDigests e e') :
    checkRecord cfg i prev' e' = checkRecord cfg i prev e := by
  obtain ⟨deltaDigest, certDigest, sheafCoherenceDigest, rfl⟩ := he
  cases hprev with
  | none => rfl
  | some hprev =>
    obtain ⟨deltaDigest', certDigest', sheafCoherenceDigest', rfl⟩ := hprev
    rfl

theorem replayFrom_of_sameButDigests (cfg : WitnessConfig P) (h : List.Forall₂ SameButDigests evidence edited) (i : Nat)
    (hprev : Option.Rel SameButDigests prev prev') :
    replayFrom cfg i prev' edited = replayFrom cfg i prev evidence := by
  induction h generalizing i prev prev' with
  | nil => rfl
  | cons he _ ih =>
    rw [replayFrom, replayFrom, checkRecord_of_sameButDigests cfg i hprev he, ih (i + 1) (Option.Rel.some he)]

theorem replayVerifyEvidence_of_sameButDigests (cfg : WitnessConfig P) (h : List.Forall₂ SameButDigests evidence edited) :
    replayVerifyEvidence edited cfg = replayVerifyEvidence evidence cfg := by
  unfold replayVerifyEvidence
  rw [replayFrom_of_sameButDigests cfg h 0 Option.Rel.none]
  cases h with
  | nil => rfl
  | cons => rfl

theorem replayVerifyEvidence_of_zero (hzero : cfg.threshold = 0) {rest : List CommitEvidence}
    (h : replayVerifyEvidence (e :: rest) cfg = .ok ()) (prevStateRoot : String) :
    replayVerifyEvidence ({ e with prevStateRoot } :: rest) cfg = .ok () := by
  obtain ⟨hcheck, hrest⟩ := replayFrom_cons_ok (replayVerifyEvidence_ok h).2
  obtain ⟨sigAlg, hheader, hposition, hquorum⟩ := checkRecord_ok hcheck
  have hallowed := ((verifyQuorumForAlgorithm_iff _ _ _ _).mp hquorum).1
  have hquorum' : verifyQuorumForAlgorithm cfg sigAlg (msgForEntry { e with prevStateRoot }) e.witnessSigs = true := by
    rw [verifyQuorumForAlgorithm_iff, hzero]
    exact ⟨hallowed, Nat.zero_le _⟩
  have hcheck' : checkRecord cfg 0 none { e with prevStateRoot } = .ok () := by
    unfold checkRecord
    rw [show checkHeader P 0 { e with prevStateRoot } = .ok sigAlg from hheader]
    dsimp only
    rw [show checkPosition P none { e with prevStateRoot } = .ok () from hposition]
    dsimp only
    rw [hquorum']
    rfl
  have hrest' : replayFrom cfg 1 (some { e with prevStateRoot }) rest = .ok () := by
    cases rest with
    | nil => rfl
    | cons next rest => exact hrest
  unfold replayVerifyEvidence
  rw [if_neg (by simp), replayFrom, hcheck']
  exact hrest'

/-- **What edited evidence can still say.** Take any exported records and any list that the auditor accepts under the same
witnesses, with the same heights and signatures, no signature of which was forged. With a threshold of at least one, the
two agree on every audited field exactly if they agree on the three digests. With a threshold of zero the auditor also
accepts lists that disagree on a state root. -/
theorem edited_agrees_iff {cfg : WitnessConfig P} {evidence edited : List CommitEvidence}
    (hexported : ∀ e ∈ evidence, Exported cfg e) (h : Passes cfg evidence edited) :
    (0 < cfg.threshold →
      (edited.map (·.audited) = evidence.map (·.audited) ↔ edited.map (·.digests) = evidence.map (·.digests))) ∧
    (cfg.threshold = 0 →
      ∃ other, Passes cfg evidence other ∧ other.map (·.prevStateRoot) ≠ evidence.map (·.prevStateRoot)) := by
  constructor
  · intro hpos
    exact h.map_audited_eq_iff hpos fun e he => (hexported e he).wellExported
  · intro hzero
    have haccepted := h.accepted
    have hheights := h.heights
    have hsigs := h.witnessSigs
    cases edited with
    | nil => exact absurd rfl (replayVerifyEvidence_ok haccepted).1
    | cons e' rest =>
      cases evidence with
      | nil => cases hheights
      | cons e tail =>
        refine ⟨{ e' with prevStateRoot := e.prevStateRoot ++ ":" } :: rest, ⟨hheights, hsigs, ?_, ?_⟩, ?_⟩
        · exact replayVerifyEvidence_of_zero hzero haccepted _
        · -- there are no signatures
          intro i original other horiginal _ sigAlg pair hpair
          rw [(hexported original (List.mem_of_getElem? horiginal)).wellExported.witnessSigs hzero] at hpair
          cases hpair
        · intro heq
          have hhead : e.prevStateRoot ++ ":" = e.prevStateRoot := (List.cons.inj heq).1
          have hlength := congrArg String.length hhead
          rw [String.length_append] at hlength
          simp at hlength

/-! ### One record -/

theorem singleWitness_evidence :
    ∃ ev, Exported singleWitnessCfg ev ∧ replayVerifyEvidence [ev] singleWitnessCfg = .ok () := by
  obtain ⟨entry, db, hcommit⟩ := singleWitnessDb_commit
  have hexport := commitWithEvidence_of_commit hcommit
  have hrun := EvidenceRun.nil.snoc hexport
  have hreplay := (replayed_of_run (.inl ⟨_, _, _, singleWitnessDb_new⟩) hrun).replay
  exact ⟨_, ⟨singleWitnessDb, _, _, _, _, _, rfl, hexport⟩, hreplay⟩

theorem unforged_of_message_eq (h : msgForEntry e' = msgForEntry e) :
    Unforged cfg [e] [e'] := by
  intro i a a' ha ha' _ _ _ _
  obtain rfl := List.mem_singleton.mp (List.mem_of_getElem? ha)
  obtain rfl := List.mem_singleton.mp (List.mem_of_getElem? ha')
  exact h

/-- The digest of the writes is edited, and the record is accepted with its signatures. -/
theorem exists_editedDigest : ∃ ev, Exported singleWitnessCfg ev ∧
    Passes singleWitnessCfg [ev] [{ ev with deltaDigest := ev.deltaDigest + 1 }] := by
  obtain ⟨ev, hexported, haccepted⟩ := singleWitness_evidence
  have hsame : SameButDigests ev { ev with deltaDigest := ev.deltaDigest + 1 } := ⟨_, _, _, rfl⟩
  refine ⟨ev, hexported, rfl, rfl, ?_, unforged_of_message_eq rfl⟩
  rw [replayVerifyEvidence_of_sameButDigests singleWitnessCfg (List.Forall₂.cons hsame List.Forall₂.nil)]
  exact haccepted

theorem edited_agrees_digest : ∃ ev edited, Exported singleWitnessCfg ev ∧ Passes singleWitnessCfg [ev] [edited] ∧
    edited ≠ ev ∧ ([edited].map (·.audited) = [ev].map (·.audited) ↔ [edited].map (·.digests) = [ev].map (·.digests)) := by
  obtain ⟨ev, hexported, hpasses⟩ := exists_editedDigest
  have hall : ∀ e ∈ [ev], Exported singleWitnessCfg e := by
    intro e he
    rw [List.mem_singleton.mp he]
    exact hexported
  refine ⟨ev, _, hexported, hpasses, fun heq => ?_, (edited_agrees_iff hall hpasses).1 (by decide)⟩
  have hdigest : ev.deltaDigest + 1 = ev.deltaDigest := congrArg CommitEvidence.deltaDigest heq
  simp at hdigest

theorem edited_digest_accepted :
    ∃ ev, Exported singleWitnessCfg ev ∧
      Passes singleWitnessCfg [ev] [{ ev with deltaDigest := ev.deltaDigest + 1 }] ∧
      [{ ev with deltaDigest := ev.deltaDigest + 1 }].map (·.audited) ≠ [ev].map (·.audited) := by
  obtain ⟨ev, hexported, hpasses⟩ := exists_editedDigest
  refine ⟨ev, hexported, hpasses, fun heq => ?_⟩
  have hdigest : ev.deltaDigest + 1 = ev.deltaDigest := congrArg AuditedFields.deltaDigest (List.cons.inj heq).1
  simp at hdigest

end AgentHalo.Audit
