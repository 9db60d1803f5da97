import AgentHalo.Trace.Writer

/-!
# Restarting after a crash

A writer that is made compares the log with the snapshot: the state and the key map of the log's metadata must be those of
the snapshot. A checkpoint replaces the snapshot first and the log last. Between the two a new writer is refused, unless
nothing has changed since the last checkpoint (`reopens_iff`).
-/

namespace AgentHalo.Trace

open Engine Engine.NucleusDb
open Persistence

variable {P : Platform} {S : Serde P}

/-- A database that was reached from `db₀` by registering keys and committing. -/
inductive Later (db₀ : NucleusDb P) : NucleusDb P → Prop where
  | refl : Later db₀ db₀
  | register {db : NucleusDb P} (h : Later db₀ db) (key : String) :
      Later db₀ { db with keymap := (db.keymap.getOrCreate key).2 }
  | commit {db db' : NucleusDb P} {delta : Delta} {localViews : List LocalSection} {now : Nat} {entry : CommitEntry}
      (h : Later db₀ db) (hcommit : db.commit delta localViews now = some (.ok entry, db')) : Later db₀ db'

variable {db db₀ db₁ : NucleusDb P}

theorem Later.configured (h : Later db₀ db) :
    db.backend = db₀.backend ∧ db.securityParams = db₀.securityParams ∧ db.reductionContracts = db₀.reductionContracts ∧
      db.kzgTrustedSetup = db₀.kzgTrustedSetup := by
  induction h with
  | refl => exact ⟨rfl, rfl, rfl, rfl⟩
  | register _ _ ih => exact ih
  | commit _ hcommit ih =>
    have hframe := commit_sameFrame hcommit
    rw [hframe.backend, hframe.securityParams, hframe.reductionContracts, hframe.kzgTrustedSetup]
    exact ih

theorem matches_iff_of_later (hlater : Later db₀ db₁) :
    (walMetaOf db₀).matches (walMetaOf db₁) = true ↔ db₁.state = db₀.state ∧ db₁.keymap = db₀.keymap := by
  obtain ⟨hbackend, hparams, hcontracts, hsetup⟩ := hlater.configured
  simp only [WalMetaV1.matches, Bool.and_eq_true, decide_eq_true_eq]
  constructor
  · rintro ⟨⟨-, hstate⟩, hkeymap⟩
    exact ⟨hstate.symm, hkeymap.symm⟩
  · rintro ⟨hstate, hkeymap⟩
    exact ⟨⟨⟨⟨⟨hbackend.symm, hparams.symm⟩, hcontracts.symm⟩, hsetup.symm⟩, hstate.symm⟩, hkeymap.symm⟩

/-- The database has everything that was saved of the other one. -/
def Sees (db saved : NucleusDb P) : Prop := snapshotOf db = snapshotOf saved

theorem Sees.walMetaOf_eq {saved : NucleusDb P} (h : Sees db saved) : walMetaOf db = walMetaOf saved := by
  rw [eq_of_snapshotOf h]
  rfl

variable (E : TraceEnv P)

/-- `TraceWriter::new` succeeds, and its database sees one of two. -/
def Reopens (S : Serde P) (path : String) (cfg : WitnessConfig P) (clock : Clock)
    (pricing : Except String (String → Option (ModelPricing P))) (tick : Tick) (disk : S.Files) (db₀ db₁ : NucleusDb P) :
    Prop :=
  ∃ w disk', TraceWriter.new S E path cfg clock pricing tick disk = (some (.ok w), disk') ∧ (Sees w.db db₀ ∨ Sees w.db db₁)

variable {E}

variable {disk : S.Files} {path : String}

/-- Over a snapshot and a log, a writer that is made sees the snapshot, and one is made exactly if the database opens and the
log matches it. -/
theorem new_over_checkpoint {snapshotDb logDb : NucleusDb P}
    (hsnapshot : SnapshotAt S disk path snapshotDb) (hlog : MetaAt S disk (defaultWalPath path) logDb)
    (cfg : WitnessConfig P) (clock : Clock) (prices : String → Option (ModelPricing P)) (tick : Tick) :
    (∀ w disk', TraceWriter.new S E path cfg clock (.ok prices) tick disk = (some (.ok w), disk') → Sees w.db snapshotDb) ∧
      ((∃ w disk', TraceWriter.new S E path cfg clock (.ok prices) tick disk = (some (.ok w), disk')) ↔
        Openable snapshotDb.backend cfg ∧ (walMetaOf logDb).matches (walMetaOf snapshotDb) = true) := by
  have hexists : disk[path]?.isSome := by
    obtain ⟨f, _, hfile, -⟩ := hsnapshot
    rw [hfile]
    rfl
  by_cases hopen : Openable snapshotDb.backend cfg
  · obtain ⟨db, hload, hsees, -⟩ := hsnapshot.loadSnapshot_ok hopen clock
    have hloaded : loadDb S E path cfg clock disk = some (.ok db) := by
      rw [loadDb, if_pos hexists, hload]
      rfl
    have hinit := hlog.initWal_eq db
    rw [Sees.walMetaOf_eq hsees] at hinit
    unfold TraceWriter.new
    rw [hloaded, ← hinit]
    dsimp only
    cases hresult : initWal S (defaultWalPath path) db none disk with
    | mk result disk₁ =>
      cases result with
      | error e =>
        refine ⟨fun w disk' hnew => ?_, ⟨fun ⟨w, disk', hnew⟩ => ?_, fun ⟨_, disk', hinit⟩ => ?_⟩⟩
        · cases hnew
        · cases hnew
        · cases hinit
      | ok _ =>
        refine ⟨fun w disk' hnew => ?_, ⟨fun _ => ⟨hopen, disk₁, rfl⟩, fun _ => ⟨_, disk₁, rfl⟩⟩⟩
        obtain rfl := Except.ok.inj (Option.some.inj (Prod.mk.inj hnew).1)
        exact hsees
  · have hloaded : loadDb S E path cfg clock disk = none := by
      rw [loadDb, if_pos hexists, hsnapshot.loadSnapshot_none hopen clock]
      rfl
    unfold TraceWriter.new
    rw [hloaded]
    refine ⟨fun w disk' hnew => ?_, ⟨fun ⟨w, disk', hnew⟩ => ?_, fun h => absurd h.1 hopen⟩⟩
    · cases hnew
    · cases hnew

/-- The snapshot and the log are two files, last written by a checkpoint of the database. -/
structure Checkpointed (S : Serde P) (disk : S.Files) (path : String) (db : NucleusDb P) : Prop where
  paths : path ≠ defaultWalPath path
  written : ∃ before nanos faults, before[swapPath (defaultWalPath path) nanos]? = none ∧
    path ≠ swapPath (defaultWalPath path) nanos ∧
    persistSnapshotAndSyncWal S path (defaultWalPath path) db nanos faults before = (.ok (), disk)

theorem Checkpointed.checkpointAt (hS : S.RoundTrips)
    (h : Checkpointed S disk path db) : CheckpointAt S disk path (defaultWalPath path) db := by
  obtain ⟨before, nanos, faults, hcreate, hswap, hpersist⟩ := h.written
  exact persistSnapshotAndSyncWal_holds hS h.paths (swapPath_ne_defaultWalPath path _ nanos) hcreate hswap hpersist

theorem Crashed.onDisk (hS : S.RoundTrips) {nanos : Nat} {disk' : S.Files}
    {point : CrashPoint} (hpaths : path ≠ defaultWalPath path) (hold : CheckpointAt S disk path (defaultWalPath path) db₀)
    (h : Crashed S path (defaultWalPath path) db₁ nanos disk point disk') :
    match point with
    | .beforeSnapshot => SnapshotAt S disk' path db₀ ∧ MetaAt S disk' (defaultWalPath path) db₀
    | .beforeSwap | .beforeRename => SnapshotAt S disk' path db₁ ∧ MetaAt S disk' (defaultWalPath path) db₀
    | .afterRename => SnapshotAt S disk' path db₁ ∧ MetaAt S disk' (defaultWalPath path) db₁ := by
  have hwal := swapPath_ne_defaultWalPath path (defaultWalPath path) nanos
  -- the swap file is not the snapshot, which is there
  have hfresh {saved : S.Files} (hsnapshot : SnapshotAt S saved path db₁)
      (hcreate : saved[swapPath (defaultWalPath path) nanos]? = none) : swapPath (defaultWalPath path) nanos ≠ path := by
    intro heq
    obtain ⟨f, _, hfile, -⟩ := hsnapshot
    rw [heq, hfile] at hcreate
    cases hcreate
  cases h with
  | beforeSnapshot => exact ⟨hold.snapshot, hold.log⟩
  | beforeSwap hsave =>
    obtain ⟨hsnapshot, hframe⟩ := saveSnapshot_holds hS hsave
    exact ⟨hsnapshot, hold.log.congr (hframe _ hpaths)⟩
  | beforeRename hsave hcreate hswap =>
    obtain ⟨hsnapshot, hframe⟩ := saveSnapshot_holds hS hsave
    obtain ⟨-, hinitFrame⟩ := initWal_created hS hswap hcreate
    exact ⟨hsnapshot.congr (hinitFrame _ (hfresh hsnapshot hcreate)),
      (hold.log.congr (hframe _ hpaths)).congr (hinitFrame _ hwal)⟩
  | afterRename hsave hcreate hswap =>
    obtain ⟨hsnapshot, hframe⟩ := saveSnapshot_holds hS hsave
    obtain ⟨hmeta, hinitFrame⟩ := initWal_created hS hswap hcreate
    have hne := hfresh hsnapshot hcreate
    constructor
    · refine hsnapshot.congr ?_
      rw [get?_rename _ hwal, if_neg hpaths.symm, if_neg hne, hinitFrame _ hne]
    · obtain ⟨raw, hraw, hslice⟩ := hmeta.file_eq
      exact ⟨_, raw, by rw [get?_rename _ hwal, if_pos rfl], hraw, hslice⟩

theorem reopens_over {snapshotDb logDb : NucleusDb P} (hlater : Later db₀ db₁)
    (hsnapshot : SnapshotAt S disk path snapshotDb) (hlog : MetaAt S disk (defaultWalPath path) logDb)
    (hsaved : snapshotDb = db₀ ∨ snapshotDb = db₁) (cfg : WitnessConfig P) (clock : Clock)
    (prices : String → Option (ModelPricing P)) (tick : Tick) :
    Reopens E S path cfg clock (.ok prices) tick disk db₀ db₁ ↔
      Openable db₀.backend cfg ∧ (walMetaOf logDb).matches (walMetaOf snapshotDb) = true := by
  have hbackend : snapshotDb.backend = db₀.backend := by
    obtain rfl | rfl := hsaved
    · rfl
    · exact hlater.configured.1
  obtain ⟨hsees, hmade⟩ := new_over_checkpoint (E := E) hsnapshot hlog cfg clock prices tick
  rw [← hbackend, ← hmade]
  constructor
  · rintro ⟨w, disk', hnew, -⟩
    exact ⟨w, disk', hnew⟩
  · rintro ⟨w, disk', hnew⟩
    refine ⟨w, disk', hnew, ?_⟩
    obtain rfl | rfl := hsaved
    · exact .inl (hsees w disk' hnew)
    · exact .inr (hsees w disk' hnew)

/-- After a crash inside a checkpoint a new writer is made and sees the old or the new database exactly if the witnesses are
taken at all and the crash was not between the snapshot and the rename, or neither the state nor the key map had changed. -/
theorem reopens_iff (hS : S.RoundTrips) {path : String} {db₀ db₁ : NucleusDb P} {disk disk' : S.Files} {nanos : Nat}
    {point : CrashPoint} (hold : Checkpointed S disk path db₀) (hlater : Later db₀ db₁)
    (hcrash : Crashed S path (defaultWalPath path) db₁ nanos disk point disk') (cfg : WitnessConfig P) (clock : Clock)
    (prices : String → Option (ModelPricing P)) (tick : Tick) :
    Reopens E S path cfg clock (.ok prices) tick disk' db₀ db₁ ↔
      Openable db₀.backend cfg ∧ (point = .beforeSnapshot ∨ point = .afterRename ∨
        db₁.state = db₀.state ∧ db₁.keymap = db₀.keymap) := by
  have hdisk := Crashed.onDisk hS hold.paths (hold.checkpointAt hS) hcrash
  cases point with
  | beforeSnapshot =>
    rw [reopens_over hlater hdisk.1 hdisk.2 (.inl rfl), WalMetaV1.matches_self]
    simp
  | beforeSwap =>
    rw [reopens_over hlater hdisk.1 hdisk.2 (.inr rfl), matches_iff_of_later hlater]
    simp
  | beforeRename =>
    rw [reopens_over hlater hdisk.1 hdisk.2 (.inr rfl), matches_iff_of_later hlater]
    simp
  | afterRename =>
    rw [reopens_over hlater hdisk.1 hdisk.2 (.inr rfl), WalMetaV1.matches_self]
    simp

/-! ### A trace that cannot be opened -/

section Reference

theorem exists_checkpointed (db : NucleusDb .reference) :
    ∃ disk, Checkpointed (Serde.identity .reference) disk "traces.ndb" db := by
  obtain ⟨disk, hpersist⟩ := exists_persist (Serde.identity_roundTrips .reference)
    (Serde.identity_writes .reference) Std.ExtTreeMap.getElem?_empty db
  exact ⟨disk, by decide, ∅, 0, {}, Std.ExtTreeMap.getElem?_empty, swapPath_ne_snapshot _ _, hpersist⟩

/-- One commit after a checkpoint, and a crash right after the snapshot of the next one. -/
theorem exists_crashed : ∃ disk db₁ disk',
    Checkpointed (Serde.identity .reference) disk "traces.ndb" singleWitnessDb ∧ Later singleWitnessDb db₁ ∧
      Crashed (Serde.identity .reference) "traces.ndb" (defaultWalPath "traces.ndb") db₁ 1 disk .beforeSwap disk' ∧
      db₁.state ≠ singleWitnessDb.state := by
  obtain ⟨disk, hold⟩ := exists_checkpointed singleWitnessDb
  obtain ⟨entry, db₁, hcommit⟩ := singleWitnessDb_commit
  obtain ⟨disk', hsave⟩ := saveSnapshot_of_writes (Serde.identity_writes .reference) "traces.ndb" db₁ disk
  refine ⟨disk, db₁, disk', hold, .commit .refl hcommit, .beforeSwap hsave, ?_⟩
  rw [(commit_advanced hcommit).state]
  decide

theorem reopens_changed : ∃ disk db₁, db₁.state ≠ singleWitnessDb.state ∧ ∀ E : TraceEnv .reference,
    Reopens E (Serde.identity .reference) "traces.ndb" (haloWitnessCfg .reference none none) ⟨0, 0⟩
        (.ok fun _ => none) ⟨0, 0, 0⟩ disk singleWitnessDb db₁ ↔
      Openable singleWitnessDb.backend (haloWitnessCfg .reference none none) ∧
        (CrashPoint.beforeSwap = .beforeSnapshot ∨ CrashPoint.beforeSwap = .afterRename ∨
          db₁.state = singleWitnessDb.state ∧ db₁.keymap = singleWitnessDb.keymap) := by
  obtain ⟨disk, db₁, disk', hold, hlater, hcrash, hstate⟩ := exists_crashed
  exact ⟨disk', db₁, hstate, fun E => reopens_iff (Serde.identity_roundTrips .reference) hold hlater hcrash _ _ _ _⟩

/-- No writer is made any more. -/
theorem refused_after_crash : ∃ disk db₁ disk',
    Checkpointed (Serde.identity .reference) disk "traces.ndb" singleWitnessDb ∧ Later singleWitnessDb db₁ ∧
      Crashed (Serde.identity .reference) "traces.ndb" (defaultWalPath "traces.ndb") db₁ 1 disk .beforeSwap disk' ∧
      ∀ E : TraceEnv .reference, ¬ Reopens E (Serde.identity .reference) "traces.ndb"
        (haloWitnessCfg .reference none none) ⟨0, 0⟩ (.ok fun _ => none) ⟨0, 0, 0⟩ disk' singleWitnessDb db₁ := by
  obtain ⟨disk, db₁, disk', hold, hlater, hcrash, hstate⟩ := exists_crashed
  refine ⟨disk, db₁, disk', hold, hlater, hcrash, fun E hreopens => hstate ?_⟩
  have hS := Serde.identity_roundTrips .reference
  obtain ⟨hsnapshot, hlog⟩ := Crashed.onDisk hS hold.paths (hold.checkpointAt hS) hcrash
  have hmatch := ((reopens_over hlater hsnapshot hlog (.inr rfl) _ _ _ _).mp hreopens).2
  exact ((matches_iff_of_later hlater).mp hmatch).1

end Reference

end AgentHalo.Trace
