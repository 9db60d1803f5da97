import AgentHalo.Audit.Replay
import AgentHalo.Engine.Extension
import AgentHalo.Persistence.Checkpoint

/-!
# Durable heads

One process after another opens the database of a path, works on it and saves it by checkpoints that may fail at any
step or be cut. A head is durable once a checkpoint of a database that publishes it has returned `Ok`: every database
that is up later extends it. A head that was published and not saved has no such promise. The evidence of commits that
were lost is worthless, but of what was issued enough is left for the history that came back (`audited_replays`).
-/

namespace AgentHalo.Persistence

open Engine Engine.NucleusDb
open Audit (CommitEvidence EvidenceRun commitWithEvidence replayVerifyEvidence)
open Transparency (SignedTreeHead)

variable {P : Platform} {S : Serde P} {path : String} {disk disk' : S.Files} {db db' : NucleusDb P}
  {leaves : List NodeHash}

structure Session (S : Serde P) where
  up : Option (NucleusDb P)
  disk : S.Files

namespace Session

/-- What can happen next. A checkpoint that is cut takes the process with it, and a crash between two operations is a
checkpoint that is cut before it begins. -/
inductive Step (path : String) : Session S → Session S → Prop where
  | op {db : NucleusDb P} {disk : S.Files} (op : DbOp P) : Step path ⟨some db, disk⟩ ⟨some (db.applyOp op), disk⟩
  | persist {db : NucleusDb P} {disk disk' : S.Files} {r : Except PersistenceError Unit} (nanos : Nat)
      (faults : PersistFaults)
      (call : persistSnapshotAndSyncWal S path (defaultWalPath path) db nanos faults disk = (r, disk')) :
      Step path ⟨some db, disk⟩ ⟨some db, disk'⟩
  | cut {db : NucleusDb P} {disk disk' : S.Files} (nanos : Nat) {point : CrashPoint}
      (crash : Crashed S path (defaultWalPath path) db nanos disk point disk') : Step path ⟨some db, disk⟩ ⟨none, disk'⟩
  | reopen {db : NucleusDb P} {disk : S.Files} (cfg : WitnessConfig P) (clock : Clock)
      (load : loadSnapshot S path cfg clock disk = some (.ok db)) : Step path ⟨none, disk⟩ ⟨some db, disk⟩

abbrev Steps (path : String) : Session S → Session S → Prop := Relation.ReflTransGen (Step path)

/-- What is true of the database that is up and of every one that can be loaded. -/
structure Keeps (path : String) (I : NucleusDb P → Prop) (s : Session S) : Prop where
  up : ∀ db, s.up = some db → I db
  stored : ∀ cfg clock db, loadSnapshot S path cfg clock s.disk = some (.ok db) → I db

/-- The log is sound and begins with `leaves`. -/
def Continues (leaves : List NodeHash) (db : NucleusDb P) : Prop := LogSound db ∧ leaves <+: db.ctLeaves

end Session

/-! ### What a checkpoint leaves to be loaded -/

variable {cfg : WitnessConfig P} {clock : Clock}

theorem SnapshotAt.loaded (h : SnapshotAt S disk path db) (hload : loadSnapshot S path cfg clock disk = some (.ok db')) :
    snapshotOf db' = snapshotOf db := by
  by_cases hopen : Openable db.backend cfg
  · obtain ⟨loaded, hloaded, hsame, -⟩ := h.loadSnapshot_ok hopen clock
    obtain rfl := Except.ok.inj (Option.some.inj (hload.symm.trans hloaded))
    exact hsame
  · rw [h.loadSnapshot_none hopen clock] at hload
    cases hload

theorem loadSnapshot_of_file (hfile : Disk.file disk' path = Disk.file disk path)
    (hload : loadSnapshot S path cfg clock disk' = some (.ok db)) : loadSnapshot S path cfg clock disk = some (.ok db) := by
  have hread (d : S.Files) (hd : ∃ db, loadSnapshot S path cfg clock d = some (.ok db)) : d[path]? = some (Disk.file d path) := by
    obtain ⟨db, hd⟩ := hd
    unfold Disk.file
    cases hget : d[path]? with
    | none =>
      unfold loadSnapshot at hd
      rw [hget] at hd
      cases hd
    | some f => rfl
  have hfound := hread disk' ⟨db, hload⟩
  cases hget : disk[path]? with
  | some f =>
    have hf : Disk.file disk path = f := by
      unfold Disk.file
      rw [hget]
      rfl
    unfold loadSnapshot at hload ⊢
    rwa [hget, ← hf, ← hfile, ← hfound]
  | none =>
    have hempty : Disk.file disk path = RedbFile.empty := by
      unfold Disk.file
      rw [hget]
      rfl
    unfold loadSnapshot at hload
    rw [hfound, hfile, hempty] at hload
    cases hload

theorem crashed_cases (hS : S.RoundTrips) (hpath : path ≠ defaultWalPath path) {nanos : Nat} {point : CrashPoint}
    (h : Crashed S path (defaultWalPath path) db nanos disk point disk') :
    Disk.file disk' path = Disk.file disk path ∨ SnapshotAt S disk' path db := by
  have hswap : swapPath (defaultWalPath path) nanos ≠ path := (swapPath_ne_snapshot path nanos).symm
  cases h with
  | beforeSnapshot => exact .inl rfl
  | beforeSwap save => exact .inr (saveSnapshot_holds hS save).1
  | beforeRename save create swap => exact .inr ((saveSnapshot_holds hS save).1.congr (initWal_frame swap hswap))
  | afterRename save create swap =>
    refine .inr ((saveSnapshot_holds hS save).1.congr ?_)
    rw [Disk.get?_rename_ne _ hswap hpath.symm, initWal_frame swap hswap]

namespace Session

variable {I : NucleusDb P → Prop} {s s' : Session S}

theorem Continues.saved (db db' : NucleusDb P) (hsame : snapshotOf db' = snapshotOf db) (h : Continues leaves db) :
    Continues leaves db' := by
  have hleaves : db'.ctLeaves = db.ctLeaves := congrArg SnapshotV1.ctLeaves hsame
  exact ⟨h.1.congr hleaves (congrArg SnapshotV1.currentSth hsame) (congrArg SnapshotV1.entries hsame), hleaves ▸ h.2⟩

theorem Continues.applyOp (h : Continues leaves db) (op : DbOp P) : Continues leaves (db.applyOp op) :=
  ⟨logSound_invariant.applyOp h.1 op, h.2.trans (ctLeaves_prefix_applyOp db op)⟩

theorem Keeps.saved (hI : ∀ db db', snapshotOf db' = snapshotOf db → I db → I db') (h : s.Keeps path I)
    (hup : s.up = some db) (hcases : Disk.file disk' path = Disk.file s.disk path ∨ SnapshotAt S disk' path db)
    (up : Option (NucleusDb P)) (hsame : ∀ d, up = some d → s.up = some d) : Keeps path I ⟨up, disk'⟩ := by
  refine ⟨fun d hd => h.up d (hsame d hd), ?_⟩
  intro cfg clock loaded hload
  rcases hcases with hfile | hsnapshot
  · exact h.stored cfg clock loaded (loadSnapshot_of_file hfile hload)
  · exact hI db loaded (hsnapshot.loaded hload) (h.up db hup)

theorem Keeps.step (hS : S.RoundTrips) (hpath : path ≠ defaultWalPath path)
    (hI : ∀ db db', snapshotOf db' = snapshotOf db → I db → I db') (h : s.Keeps path I) (hstep : Step path s s')
    (hop : ∀ db op, s.up = some db → s'.up = some (db.applyOp op) → I (db.applyOp op)) : s'.Keeps path I := by
  cases hstep with
  | op op =>
    refine ⟨?_, h.stored⟩
    intro d hd
    obtain rfl := Option.some.inj hd
    exact hop _ op rfl rfl
  | persist nanos faults call =>
    exact h.saved hI rfl
      (persistSnapshotAndSyncWal_cases hS hpath (swapPath_ne_snapshot path nanos) call |>.imp And.right id) _ fun _ hd => hd
  | cut nanos crash => exact h.saved hI rfl (crashed_cases hS hpath crash) none fun _ hd => nomatch hd
  | reopen cfg clock load =>
    refine ⟨?_, h.stored⟩
    intro d hd
    obtain rfl := Option.some.inj hd
    exact h.stored cfg clock _ load

theorem Keeps.steps (hS : S.RoundTrips) (hpath : path ≠ defaultWalPath path) (h : s.Keeps path (Continues leaves))
    (hsteps : Steps path s s') : s'.Keeps path (Continues leaves) := by
  induction hsteps with
  | refl => exact h
  | tail _ hstep ih => exact ih.step hS hpath Continues.saved hstep fun db op hup _ => (ih.up db hup).applyOp op

theorem keeps_of_unsaved {start : NucleusDb P} (hnone : disk[path]? = none) (h : I start) :
    Keeps path I (⟨some start, disk⟩ : Session S) := by
  constructor
  · intro d hd
    exact Option.some.inj hd ▸ h
  · intro cfg clock d hload
    unfold loadSnapshot at hload
    rw [hnone] at hload
    cases hload

/-- **A saved head is never rolled back.** A new database is opened where no file is, and used, saved, killed and opened
again in any way. When a checkpoint of it returns `Ok`, the head it publishes then is durable: every database that is up
later, whatever commits, failing checkpoints and crashes lie between, serves whoever kept that head and the entries of
then. -/
theorem durable_heads (hS : S.RoundTrips) (hpath : path ≠ defaultWalPath path) {initial : State} {start : NucleusDb P}
    (hfresh : FreshlyBuilt initial start) {disk₀ disk disk' disk'' : S.Files} (hnone : disk₀[path]? = none)
    {db db' : NucleusDb P} (hbefore : Steps path ⟨some start, disk₀⟩ ⟨some db, disk⟩) {nanos : Nat} {faults : PersistFaults}
    (hsave : persistSnapshotAndSyncWal S path (defaultWalPath path) db nanos faults disk = (.ok (), disk'))
    {old : SignedTreeHead} (hold : db.currentSth = some old) (hafter : Steps path ⟨some db, disk'⟩ ⟨some db', disk''⟩) :
    db'.Serves old db.entries := by
  have hstart : Continues [] start := ⟨LogSound.of_fresh hfresh, List.nil_prefix⟩
  obtain ⟨hsound, -⟩ := ((keeps_of_unsaved hnone hstart).steps hS hpath hbefore).up db rfl
  have hsaved : SnapshotAt S disk' path db := by
    rcases persistSnapshotAndSyncWal_cases hS hpath (swapPath_ne_snapshot path nanos) hsave with ⟨⟨e, he⟩, -⟩ | hsaved
    · cases he
    · exact hsaved
  have hcontinues : Continues db.ctLeaves db := ⟨hsound, List.prefix_refl _⟩
  have hthen : Keeps path (Continues db.ctLeaves) (⟨some db, disk'⟩ : Session S) := by
    refine ⟨?_, fun cfg clock d hload => hcontinues.saved db d (hsaved.loaded hload)⟩
    intro d hd
    exact Option.some.inj hd ▸ hcontinues
  obtain ⟨hsound', hbegins⟩ := (hthen.steps hS hpath hafter).up db' rfl
  exact hsound.serves hsound' hbegins hold

theorem exists_saved : ∃ entry db disk again,
    singleWitnessDb.commit ⟨[(0, 1)]⟩ [] 0 = some (.ok entry, db) ∧
      persistSnapshotAndSyncWal (Serde.identity .reference) "heads.ndb" (defaultWalPath "heads.ndb") db 0 {} ∅ =
        (.ok (), disk) ∧
      loadSnapshot _ "heads.ndb" singleWitnessCfg ⟨0, 0⟩ disk = some (.ok again) ∧ snapshotOf again = snapshotOf db ∧
        again.witnessCfg = singleWitnessCfg := by
  have hS := Serde.identity_roundTrips .reference
  obtain ⟨entry, db, hcommit⟩ := singleWitnessDb_commit
  obtain ⟨disk, hsave⟩ : ∃ disk, persistSnapshotAndSyncWal (Serde.identity .reference) "heads.ndb"
      (defaultWalPath "heads.ndb") db 0 {} ∅ = (.ok (), disk) :=
    exists_persist hS (Serde.identity_writes .reference) Std.ExtTreeMap.getElem?_empty db
  have hsaved := persistSnapshotAndSyncWal_snapshotAt hS (by decide) (swapPath_ne_defaultWalPath _ _ _)
    (swapPath_ne_snapshot _ _) hsave
  have hbackend : Openable db.backend singleWitnessCfg := by
    rw [(commit_sameFrame hcommit).backend]
    exact openable_of_new singleWitnessDb_new
  obtain ⟨again, hload, hsame, hcfg⟩ := hsaved.loadSnapshot_ok hbackend ⟨0, 0⟩
  exact ⟨entry, db, disk, again, hcommit, hsave, hload, hsame, hcfg⟩

/-- One commit, saved; then another that is not, a crash and a restart. -/
theorem durable_heads_single : ∃ (db db' : NucleusDb .reference) (old : SignedTreeHead),
    db.currentSth = some old ∧ snapshotOf db' = snapshotOf db ∧ db'.Serves old db.entries := by
  obtain ⟨entry, db, disk, db', hcommit, hsave, hload, hsame, -⟩ := exists_saved
  have hold := (commit_advanced hcommit).currentSth
  have hcommitted : singleWitnessDb.applyOp (.commit ⟨[(0, 1)]⟩ [] 0) = db := by rw [applyOp, hcommit]
  have hbefore : Steps "heads.ndb" (⟨some singleWitnessDb, ∅⟩ : Session (Serde.identity .reference)) ⟨some db, ∅⟩ :=
    hcommitted ▸ .single (.op _)
  have hafter : Steps "heads.ndb" (⟨some db, disk⟩ : Session (Serde.identity .reference)) ⟨some db', disk⟩ :=
    ((Relation.ReflTransGen.single (.op (.commit ⟨[(1, 2)]⟩ [] 5))).tail (.cut 0 .beforeSnapshot)).tail
      (.reopen singleWitnessCfg ⟨0, 0⟩ hload)
  exact ⟨db, db', entry.sth, hold, hsame, durable_heads (Serde.identity_roundTrips _) (by decide)
    singleWitnessDb_freshlyBuilt Std.ExtTreeMap.getElem?_empty hbefore hsave hold hafter⟩

/-! ### Evidence across restarts -/

/-- A session under one witness configuration, in which all commits are made with evidence and succeed, and the evidence that
was issued. The steps between them are not operations. -/
inductive Audited (path : String) (start : NucleusDb P) (disk : S.Files) : List CommitEvidence → Session S → Prop where
  | start : Audited path start disk [] ⟨some start, disk⟩
  | commit {issued : List CommitEvidence} {db db' : NucleusDb P} {disk' : S.Files} {delta : Delta}
      {localViews : List LocalSection} {now : Nat} {entry : CommitEntry} {ev : CommitEvidence}
      (run : Audited path start disk issued ⟨some db, disk'⟩)
      (call : commitWithEvidence db delta localViews now = some (.ok (entry, ev), db')) :
      Audited path start disk (issued ++ [ev]) ⟨some db', disk'⟩
  | rest {issued : List CommitEvidence} {s s' : Session S} (run : Audited path start disk issued s) (step : Step path s s')
      (idle : ∀ db db', s.up = some db → s'.up = some db' → db' = db)
      (same : ∀ db, s'.up = some db → db.witnessCfg = start.witnessCfg) : Audited path start disk issued s'

/-- The database has come about by commits whose evidence is among what was issued. -/
def Evidenced (start : NucleusDb P) (issued : List CommitEvidence) (db : NucleusDb P) : Prop :=
  ∃ evidence, evidence.Sublist issued ∧ EvidenceRun start evidence { db with witnessCfg := start.witnessCfg }

variable {start : NucleusDb P} {issued : List CommitEvidence}

theorem Evidenced.saved (db db' : NucleusDb P) (hsame : snapshotOf db' = snapshotOf db) (h : Evidenced start issued db) :
    Evidenced start issued db' := by
  obtain ⟨evidence, hsub, hrun⟩ := h
  exact ⟨evidence, hsub, eq_of_snapshotOf hsame ▸ hrun⟩

theorem Audited.keeps (hS : S.RoundTrips) (hpath : path ≠ defaultWalPath path) (hnone : disk[path]? = none)
    (h : Audited path start disk issued s) :
    s.Keeps path (Evidenced start issued) ∧ ∀ db, s.up = some db → db.witnessCfg = start.witnessCfg := by
  induction h with
  | start =>
    exact ⟨keeps_of_unsaved hnone ⟨[], List.nil_sublist _, .nil⟩, fun db hup => Option.some.inj hup ▸ rfl⟩
  | @commit issued db db' _ _ _ _ entry ev _ call ih =>
    obtain ⟨hkeeps, hcfg⟩ := ih
    obtain ⟨hcommit, -⟩ := Audit.commitWithEvidence_ok call
    have hcfg' : db'.witnessCfg = start.witnessCfg := (commit_sameFrame hcommit).witnessCfg.trans (hcfg db rfl)
    refine ⟨⟨?_, fun cfg clock d hload => ?_⟩, fun d hup => Option.some.inj hup ▸ hcfg'⟩
    · intro d hup
      obtain rfl := Option.some.inj hup
      obtain ⟨evidence, hsub, hrun⟩ := hkeeps.up db rfl
      rw [← hcfg db rfl] at hrun
      refine ⟨evidence ++ [ev], hsub.append (List.Sublist.refl _), ?_⟩
      rw [← hcfg']
      exact hrun.snoc call
    · obtain ⟨evidence, hsub, hrun⟩ := hkeeps.stored cfg clock d hload
      exact ⟨evidence, hsub.trans (List.sublist_append_left _ _), hrun⟩
  | rest _ step idle same ih =>
    refine ⟨ih.1.step hS hpath Evidenced.saved step fun db op hup hup' => ?_, same⟩
    rw [idle db _ hup hup']
    exact ih.1.up db hup

/-- **The history that comes back can be audited.** Whatever commits were lost in crashes, there is evidence among what was
issued, one record for each entry of the database that is up, that the auditor accepts. -/
theorem audited_replays (hS : S.RoundTrips) (hpath : path ≠ defaultWalPath path) {initial : State}
    (hfresh : FreshlyBuilt initial start) (hnone : disk[path]? = none) (h : Audited path start disk issued ⟨some db, disk'⟩)
    (hne : db.entries ≠ []) : ∃ evidence, evidence.Sublist issued ∧ evidence.length = db.entries.length ∧
      replayVerifyEvidence evidence start.witnessCfg = .ok () := by
  obtain ⟨evidence, hsub, hrun⟩ := (h.keeps hS hpath hnone).1.up db rfl
  have hcount : evidence.length = db.entries.length := (Audit.replayed_of_run hfresh hrun).count
  refine ⟨evidence, hsub, hcount, Audit.replayVerifyEvidence_of_run hfresh hrun ?_⟩
  rintro rfl
  exact hne (List.length_eq_zero_iff.mp hcount.symm)

/-- One commit saved, another lost in a crash. -/
theorem audited_replays_single : ∃ (db : NucleusDb .reference) (saved lost : CommitEvidence)
    (evidence : List CommitEvidence), evidence.Sublist [saved, lost] ∧ evidence.length = db.entries.length ∧
      replayVerifyEvidence evidence singleWitnessDb.witnessCfg = .ok () := by
  obtain ⟨entry, db, disk, again, hcommit, hsave, hload, hsame, hcfg⟩ := exists_saved
  have hready := singleWitnessDb_ready.of_commit hcommit
  obtain ⟨entry', db', hcommit'⟩ : ∃ entry' db', db.commit ⟨[(0, 1)]⟩ [] 1 = some (.ok entry', db') := by
    refine hready.commit 1 ?_
    rw [(commit_advanced hcommit).state]
    rfl
  have hstart : Audited "heads.ndb" singleWitnessDb ∅ []
      (⟨some singleWitnessDb, ∅⟩ : Session (Serde.identity .reference)) := .start
  have hcommits := ((hstart.commit (Audit.commitWithEvidence_of_commit hcommit)).rest (.persist 0 {} hsave)
    (fun _ _ h h' => Option.some.inj (h'.symm.trans h)) fun _ h => Option.some.inj h ▸ hready.witnessCfg).commit
      (Audit.commitWithEvidence_of_commit hcommit')
  have hrun := (hcommits.rest (.cut 0 .beforeSnapshot) (fun _ _ _ h => nomatch h) fun _ h => nomatch h).rest
    (.reopen singleWitnessCfg ⟨0, 0⟩ hload) (fun _ _ h => nomatch h) fun _ h => Option.some.inj h ▸ hcfg
  refine ⟨again, _, _, audited_replays (Serde.identity_roundTrips _) (by decide) singleWitnessDb_freshlyBuilt
    Std.ExtTreeMap.getElem?_empty hrun ?_⟩
  rw [show again.entries = db.entries from congrArg SnapshotV1.entries hsame, (commit_advanced hcommit).entries]
  simp

end Session

end AgentHalo.Persistence
