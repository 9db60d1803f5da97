import AgentHalo.Engine.Chain
import AgentHalo.Persistence.Wal

/-!
# What the log operations do

A log, as it reads, is its metadata and its events in key order (`Log`); `LogAt` says that the file at a path holds it.
Each operation has one lemma in these terms: opening a log without events, appending above all keys, truncating, loading.
Loading a log is opening a database over the metadata and folding `applyEvent` over the events.
-/

namespace AgentHalo.Persistence

open Engine Engine.NucleusDb

variable {P : Platform} {S : Serde P}

structure Log (P : Platform) where
  walMeta : WalMetaV1 P
  events : List WalEventV1

/-- A row of the event table and the event it stands for. -/
def RowHolds (S : Serde P) (row : Nat × S.walEvent.Raw) (event : WalEventV1) : Prop :=
  row.1 = event.seq ∧ S.walEvent.fromSlice row.2 = .ok event

/-- The file at the path holds the log, and the log passes the checks of a replay. -/
structure LogAt (S : Serde P) (disk : S.Files) (path : String) (log : Log P) : Prop where
  walMeta : ∃ raw, (disk.file path).walMeta = some (some raw) ∧ S.walMeta.fromSlice raw = .ok log.walMeta
  schema : log.walMeta.schema = walMetaSchema
  events : ∃ table, (disk.file path).walEvents = some table ∧ List.Forall₂ (RowHolds S) table.toList log.events
  sound : ∀ event ∈ log.events, event.schema = walEventSchema ∧ event.entry.height = event.seq

def walKeys (S : Serde P) (disk : S.Files) (path : String) : List Nat :=
  (disk.file path).events.toList.map (·.1)

variable {disk disk' : S.Files} {path : String}

theorem walKeys_eq_nil_iff : walKeys S disk path = [] ↔ (disk.file path).events = ∅ := by
  unfold walKeys
  rw [List.map_eq_nil_iff, Std.ExtTreeMap.toList_eq_nil_iff]

variable {log : Log P}

theorem LogAt.meta?_eq (h : LogAt S disk path log) :
    ∃ raw, (disk.file path).meta? = some raw ∧ S.walMeta.fromSlice raw = .ok log.walMeta := by
  obtain ⟨raw, hraw, hslice⟩ := h.walMeta
  refine ⟨raw, ?_, hslice⟩
  unfold RedbFile.meta?
  rw [hraw]
  rfl

theorem LogAt.events_eq (h : LogAt S disk path log) :
    List.Forall₂ (RowHolds S) (disk.file path).events.toList log.events := by
  obtain ⟨table, htable, hrows⟩ := h.events
  unfold RedbFile.events
  rw [htable]
  exact hrows

theorem LogAt.walKeys_eq (h : LogAt S disk path log) : walKeys S disk path = log.events.map (·.seq) := by
  have hkeys : ∀ (rows : List (Nat × S.walEvent.Raw)) (events : List WalEventV1),
      List.Forall₂ (RowHolds S) rows events → rows.map (·.1) = events.map (·.seq) := by
    intro rows events hall
    induction hall with
    | nil => rfl
    | cons hrow _ ih => rw [List.map_cons, List.map_cons, hrow.1, ih]
  exact hkeys _ _ h.events_eq

theorem LogAt.congr {path' : String} (h : LogAt S disk path log)
    (hmeta : (disk'.file path').walMeta = (disk.file path).walMeta)
    (hevents : (disk'.file path').walEvents = (disk.file path).walEvents) : LogAt S disk' path' log := by
  constructor
  · rw [hmeta]
    exact h.walMeta
  · exact h.schema
  · rw [hevents]
    exact h.events
  · exact h.sound

/-! ### Opening -/

/-- The file at the path has both tables: readable metadata of the right schema, and the table of events. -/
structure Opened (S : Serde P) (disk : S.Files) (path : String) (walMeta : WalMetaV1 P)
    (table : OrdMap Nat S.walEvent.Raw) : Prop where
  raw : ∃ raw, (disk.file path).walMeta = some (some raw) ∧ S.walMeta.fromSlice raw = .ok walMeta
  schema : walMeta.schema = walMetaSchema
  events : (disk.file path).walEvents = some table

variable {db db' : NucleusDb P} {fault : Option Fault}

/-- Opening a log keeps the events that were there before, and the metadata: what was found, if it matches, else that of the
database. -/
theorem initWal_recorded (hS : S.RoundTrips) (h : initWal S path db fault disk = (.ok (), disk')) :
    ∃ walMeta, Opened S disk' path walMeta (disk.file path).events ∧
      ((∃ raw, (disk.file path).meta? = some raw ∧ S.walMeta.fromSlice raw = .ok walMeta ∧
          walMeta.matches (walMetaOf db) = true) ∨
        ((disk.file path).meta? = none ∧ walMeta = walMetaOf db)) := by
  obtain ⟨f, hbody, rfl⟩ := Disk.transact_ok h
  unfold initWalBody at hbody
  dsimp only at hbody
  split at hbody
  · -- metadata was there already
    rename_i raw hraw
    cases hslice : S.walMeta.fromSlice raw with
    | error e =>
      rw [hslice] at hbody
      cases hbody
    | ok got =>
      rw [hslice] at hbody
      dsimp only at hbody
      obtain ⟨hschema, hbody⟩ := guard_eq_ok hbody
      obtain ⟨hmatch, hbody⟩ := guard_eq_ok hbody
      obtain rfl := Except.ok.inj hbody
      refine ⟨got, ?_, .inl ⟨raw, hraw, hslice, by simpa using hmatch⟩⟩
      constructor
      · exact ⟨raw, by rw [Disk.file_put, if_pos rfl]; exact congrArg some hraw, hslice⟩
      · exact not_not.mp hschema
      · rw [Disk.file_put, if_pos rfl]
  · rename_i hnone
    cases hvec : S.walMeta.toVec (walMetaOf db) with
    | error e =>
      rw [hvec] at hbody
      cases hbody
    | ok raw =>
      rw [hvec] at hbody
      obtain rfl := Except.ok.inj hbody
      refine ⟨walMetaOf db, ?_, .inr ⟨hnone, rfl⟩⟩
      constructor
      · exact ⟨raw, by rw [Disk.file_put, if_pos rfl], hS.walMeta _ _ hvec⟩
      · rfl
      · rw [Disk.file_put, if_pos rfl]

theorem initWal_opened (hS : S.RoundTrips) (h : initWal S path db fault disk = (.ok (), disk')) :
    ∃ walMeta, Opened S disk' path walMeta (disk.file path).events ∧ walMeta.initialState = db.state ∧
      walMeta.backend = db.backend := by
  obtain ⟨walMeta, hopened, ⟨raw, -, -, hmatch⟩ | ⟨-, rfl⟩⟩ := initWal_recorded hS h
  · simp only [WalMetaV1.matches, Bool.and_eq_true, decide_eq_true_eq] at hmatch
    exact ⟨walMeta, hopened, hmatch.1.2, hmatch.1.1.1.1.1⟩
  · exact ⟨_, hopened, rfl, rfl⟩

theorem initWal_ok (hS : S.RoundTrips)
    (h : initWal S path db fault disk = (.ok (), disk')) (hempty : (disk.file path).events = ∅) :
    ∃ walMeta, LogAt S disk' path ⟨walMeta, []⟩ ∧ walMeta.initialState = db.state ∧ walMeta.backend = db.backend := by
  obtain ⟨walMeta, hopened, hspec⟩ := initWal_opened hS h
  rw [hempty] at hopened
  refine ⟨walMeta, ?_, hspec⟩
  constructor
  · exact hopened.raw
  · exact hopened.schema
  · exact ⟨∅, hopened.events, List.Forall₂.nil⟩
  · intro event hmem
    cases hmem

/-! ### Appending -/

def withEvents (S : Serde P) (f : S.File) (table : OrdMap Nat S.walEvent.Raw) : S.File :=
  { f with walMeta := some f.meta?, walEvents := some table }

theorem LogAt.appendWalEventBody_eq (h : LogAt S disk path log) (delta : Delta) (db : NucleusDb P) (entry : CommitEntry) :
    appendWalEventBody S delta db entry (disk.file path) =
      match db.ctLeaves.getLast? with
      | none => .error (.walMetaMismatch "cannot append WAL event: ct_leaves is empty after commit")
      | some ctLeaf =>
        match S.walEvent.toVec (eventOf delta db entry ctLeaf) with
        | .error e => .error (.json e)
        | .ok raw => .ok (withEvents S (disk.file path) ((disk.file path).events.insert db.entries.length raw)) := by
  obtain ⟨metaRaw, hmeta, hslice⟩ := h.meta?_eq
  unfold appendWalEventBody withEvents
  rw [hmeta]
  dsimp only
  rw [hslice]
  dsimp only
  exact if_neg (not_not.mpr h.schema)

variable {table : OrdMap Nat S.walEvent.Raw}

variable {events : List WalEventV1} {nanos now : Nat} {faults : TruncateFaults} {backend : VcBackend}
  {localViews : List LocalSection} {ctLeaf : NodeHash}

theorem LogAt.put_withEvents (h : LogAt S disk path log) (hrows : List.Forall₂ (RowHolds S) table.toList events)
    (hsound : ∀ event ∈ events, event.schema = walEventSchema ∧ event.entry.height = event.seq) :
    LogAt S (disk.put path (withEvents S (disk.file path) table)) path ⟨log.walMeta, events⟩ := by
  obtain ⟨metaRaw, hmeta, hslice⟩ := h.meta?_eq
  constructor
  · refine ⟨metaRaw, ?_, hslice⟩
    rw [Disk.file_put, if_pos rfl]
    exact congrArg some hmeta
  · exact h.schema
  · refine ⟨table, ?_, hrows⟩
    rw [Disk.file_put, if_pos rfl]
    rfl
  · exact hsound

variable {delta : Delta} {entry : CommitEntry}

theorem appendWalEvent_ok (hS : S.RoundTrips)
    (h : appendWalEvent S path delta db entry fault disk = (.ok (), disk')) (hlog : LogAt S disk path log)
    (habove : ∀ key ∈ walKeys S disk path, key < db.entries.length) (hheight : entry.height = db.entries.length) :
    ∃ ctLeaf, db.ctLeaves.getLast? = some ctLeaf ∧
      LogAt S disk' path ⟨log.walMeta, log.events ++ [eventOf delta db entry ctLeaf]⟩ := by
  obtain ⟨f, hbody, rfl⟩ := Disk.transact_ok h
  rw [hlog.appendWalEventBody_eq] at hbody
  split at hbody
  · cases hbody
  rename_i ctLeaf hleaf
  split at hbody
  · cases hbody
  rename_i raw hraw
  obtain rfl := Except.ok.inj hbody
  -- the new row is iterated last because its key is above the others
  have hlast : ((disk.file path).events.insert db.entries.length raw).toList =
      (disk.file path).events.toList ++ [(db.entries.length, raw)] := by
    apply OrdMap.toList_insert_of_lt
    intro row hrow
    rw [Nat.compare_eq_lt]
    apply habove
    unfold walKeys
    exact List.mem_map_of_mem hrow
  have hnew : RowHolds S (db.entries.length, raw) (eventOf delta db entry ctLeaf) := ⟨rfl, hS.walEvent _ _ hraw⟩
  refine ⟨ctLeaf, hleaf, hlog.put_withEvents ?_ ?_⟩
  · rw [hlast]
    exact List.rel_append hlog.events_eq (List.Forall₂.cons hnew List.Forall₂.nil)
  · intro event hmem
    rcases List.mem_append.mp hmem with hold | hmem
    · exact hlog.sound event hold
    · obtain rfl := List.mem_singleton.mp hmem
      exact ⟨rfl, hheight⟩

variable {walMeta : WalMetaV1 P}

theorem appendWalEvent_opened
    (h : appendWalEvent S path delta db entry fault disk = (.ok (), disk')) (hopened : Opened S disk path walMeta table) :
    ∃ table', Opened S disk' path walMeta table' := by
  obtain ⟨f, hbody, rfl⟩ := Disk.transact_ok h
  obtain ⟨metaRaw, hraw, hslice⟩ := hopened.raw
  have hmeta : (disk.file path).meta? = some metaRaw := by
    unfold RedbFile.meta?
    rw [hraw]
    rfl
  unfold appendWalEventBody at hbody
  rw [hmeta] at hbody
  dsimp only at hbody
  rw [hslice] at hbody
  dsimp only at hbody
  obtain ⟨-, hbody⟩ := guard_eq_ok hbody
  split at hbody
  · cases hbody
  split at hbody
  · cases hbody
  rename_i raw _
  obtain rfl := Except.ok.inj hbody
  refine ⟨(disk.file path).events.insert db.entries.length raw, ⟨metaRaw, ?_, hslice⟩, hopened.schema, ?_⟩
  · rw [Disk.file_put, if_pos rfl]
  · rw [Disk.file_put, if_pos rfl]

/-! ### Snapshots and truncation -/

theorem saveSnapshot_ok (h : saveSnapshot S path db fault disk = (.ok (), disk')) (other : String) :
    (disk'.file other).walMeta = (disk.file other).walMeta ∧
      (disk'.file other).walEvents = (disk.file other).walEvents := by
  obtain ⟨f, hbody, rfl⟩ := Disk.transact_ok h
  cases hvec : S.snapshot.toVec (snapshotOf db) with
  | error e =>
    rw [hvec] at hbody
    cases hbody
  | ok raw =>
    rw [hvec] at hbody
    obtain rfl := Except.ok.inj hbody
    rw [Disk.file_put]
    split_ifs with heq
    · subst heq
      exact ⟨rfl, rfl⟩
    · exact ⟨rfl, rfl⟩

theorem truncateWal_moved (h : truncateWal S path db nanos faults disk = (.ok (), disk')) :
    ∃ disk₁ disk₂ : S.Files, initWal S (swapPath path nanos) db faults.init disk = (.ok (), disk₁) ∧
      disk' = disk₂.rename (swapPath path nanos) path ∧ disk₂.file (swapPath path nanos) = disk₁.file (swapPath path nanos) ∧
      ∀ other, path ≠ other → disk₂[other]? = disk₁[other]? := by
  unfold truncateWal at h
  dsimp only at h
  split at h
  · cases h
  rename_i disk₁ hinit
  split at h
  · obtain rfl := (Prod.mk.inj h).2
    exact ⟨disk₁, disk₁, hinit, rfl, rfl, fun _ _ => rfl⟩
  · split at h
    · split at h
      · cases h
      · cases h
      · split at h
        · rename_i hexists
          obtain rfl := (Prod.mk.inj h).2
          have hne : path ≠ swapPath path nanos := by
            intro heq
            rw [← heq, OrdMap.get?_erase, if_pos rfl] at hexists
            cases hexists
          refine ⟨disk₁, disk₁.erase path, hinit, rfl, ?_, fun other hother => OrdMap.get?_erase_ne _ hother⟩
          unfold Disk.file
          rw [OrdMap.get?_erase_ne _ hne]
        · cases h
    · cases h

theorem truncateWal_ok (hS : S.RoundTrips) (h : truncateWal S path db nanos faults disk = (.ok (), disk'))
    (hunused : (disk.file (swapPath path nanos)).events = ∅) :
    ∃ walMeta, LogAt S disk' path ⟨walMeta, []⟩ ∧ walMeta.initialState = db.state ∧ walMeta.backend = db.backend := by
  obtain ⟨disk₁, disk₂, hinit, rfl, hfile, -⟩ := truncateWal_moved h
  obtain ⟨walMeta, hlog, hspec⟩ := initWal_ok hS hinit hunused
  refine ⟨walMeta, hlog.congr ?_ ?_, hspec⟩
  · rw [Disk.file_rename, hfile]
  · rw [Disk.file_rename, hfile]

/-! ### Loading -/

/-- The default parameters take the witness configuration, and the default ceremony artifact loads where the backend needs
one. -/
def Openable (backend : VcBackend) (cfg : WitnessConfig P) : Prop :=
  validateParameters (defaultParams backend) backend.profile cfg = .ok () ∧
    ∃ setup, loadKzgSetupIfRequired P backend (defaultParams backend) = .ok setup

variable {cfg : WitnessConfig P}

theorem new_of_openable (h : Openable backend cfg) (initial : State) (clock : Clock) :
    ∃ db, NucleusDb.new initial backend cfg clock = some db := by
  obtain ⟨hparams, setup, hsetup⟩ := h
  have hcontracts : validateReductionContracts (defaultReductionContracts backend.profile) = .ok () := by
    cases backend with
    | ipa => rfl
    | kzg => rfl
    | binaryMerkle => rfl
  unfold NucleusDb.new withSecurity
  rw [hparams, hcontracts, hsetup]
  exact ⟨_, rfl⟩

variable {clock : Clock}

theorem openable_of_new {initial : State} (h : NucleusDb.new initial backend cfg clock = some db) : Openable backend cfg := by
  unfold NucleusDb.new at h
  cases hopen : withSecurity initial backend cfg (defaultParams backend) (defaultReductionContracts backend.profile)
      clock with
  | error e =>
    rw [hopen] at h
    cases h
  | ok db' =>
    obtain ⟨hparams, -, setup, hsetup, -⟩ := withSecurity_ok hopen
    exact ⟨hparams, setup, hsetup⟩

theorem replayEvent_ok {keySeq : Nat} {event : WalEventV1}
    (h : replayEvent db keySeq event = .ok db') : db' = applyEvent db event := by
  unfold replayEvent at h
  obtain ⟨-, h⟩ := guard_eq_ok h
  obtain ⟨-, h⟩ := guard_eq_ok h
  obtain ⟨-, h⟩ := guard_eq_ok h
  exact (Except.ok.inj h).symm

variable {rows : List (Nat × S.walEvent.Raw)}

theorem replayEvents_invariant {I : NucleusDb P → Prop} (hevent : ∀ db event, I db → I (applyEvent db event))
    (h : replayEvents S db rows = .ok db') (hdb : I db) :
    I db' := by
  induction rows generalizing db with
  | nil =>
    rw [← Except.ok.inj h]
    exact hdb
  | cons row rest ih =>
    obtain ⟨key, raw⟩ := row
    unfold replayEvents at h
    split at h
    · cases h
    rename_i event _
    split at h
    · cases h
    rename_i next hnext
    rw [replayEvent_ok hnext] at h
    exact ih h (hevent db event hdb)

theorem replayEvents_length
    (h : replayEvents S db rows = .ok db') : db'.entries.length = db.entries.length + rows.length := by
  induction rows generalizing db with
  | nil =>
    rw [← Except.ok.inj h]
    rfl
  | cons row rest ih =>
    obtain ⟨key, raw⟩ := row
    unfold replayEvents at h
    split at h
    · cases h
    rename_i event hevent
    split at h
    · cases h
    rename_i next hnext
    obtain rfl := replayEvent_ok hnext
    have hone : (applyEvent db event).entries.length = db.entries.length + 1 := List.length_append
    rw [ih h, hone, List.length_cons, Nat.add_assoc, Nat.add_comm 1]

theorem replayEvents_ok (db : NucleusDb P) (hrows : List.Forall₂ (RowHolds S) rows events)
    (hsound : ∀ event ∈ events, event.schema = walEventSchema ∧ event.entry.height = event.seq) :
    replayEvents S db rows = .ok (events.foldl applyEvent db) := by
  induction hrows generalizing db with
  | nil => rfl
  | @cons row event rows events hrow _ ih =>
    obtain ⟨key, raw⟩ := row
    obtain ⟨hkey, hslice⟩ := hrow
    obtain ⟨hschema, hheight⟩ := hsound event List.mem_cons_self
    have hevent : replayEvent db key event = .ok (applyEvent db event) := by
      unfold replayEvent
      rw [if_neg (not_not.mpr hschema), if_neg (not_not.mpr hkey.symm),
        if_neg (not_not.mpr (hheight.trans hkey.symm))]
    unfold replayEvents
    dsimp only at hslice ⊢
    rw [hslice]
    dsimp only
    rw [hevent]
    exact ih (applyEvent db event) fun e he => hsound e (List.mem_cons_of_mem event he)

theorem Opened.loadWal_eq (h : Opened S disk path walMeta table) (cfg : WitnessConfig P) (clock : Clock) :
    loadWal S path cfg clock disk = (NucleusDb.new walMeta.initialState walMeta.backend cfg clock).map fun db =>
      replayEvents S (restoreMeta walMeta clock db) table.toList := by
  obtain ⟨raw, hraw, hslice⟩ := h.raw
  have hfile : disk[path]? = some (disk.file path) := Disk.exists_file hraw
  unfold loadWal
  rw [hfile]
  dsimp only
  rw [hraw, h.events]
  dsimp only
  rw [hslice]
  dsimp only
  rw [if_neg (not_not.mpr h.schema)]

theorem Opened.loadWal_ok (h : Opened S disk path walMeta table) (hload : loadWal S path cfg clock disk = some (.ok db)) :
    Openable walMeta.backend cfg ∧ db.entries.length = table.toList.length := by
  rw [h.loadWal_eq] at hload
  obtain ⟨opened, hopen, hreplay⟩ := Option.map_eq_some_iff.mp hload
  refine ⟨openable_of_new hopen, ?_⟩
  obtain ⟨setup, rfl⟩ := new_eq_some hopen
  rw [replayEvents_length hreplay]
  exact Nat.zero_add _

/-- What `load_wal` returns has the recorded write mode and no seals, whatever the events are: neither record has a field
for the seals. -/
theorem Opened.loadWal_seals (h : Opened S disk path walMeta table) (hload : loadWal S path cfg clock disk = some (.ok db)) :
    db.writeMode = walMeta.writeMode ∧ db.monotoneSeals = [] := by
  rw [h.loadWal_eq] at hload
  obtain ⟨opened, hopen, hreplay⟩ := Option.map_eq_some_iff.mp hload
  obtain ⟨setup, rfl⟩ := new_eq_some hopen
  exact replayEvents_invariant (I := fun db => db.writeMode = walMeta.writeMode ∧ db.monotoneSeals = [])
    (fun _ _ h => h) hreplay ⟨rfl, rfl⟩

theorem loadWal_eq (h : LogAt S disk path log) (cfg : WitnessConfig P) (clock : Clock) :
    loadWal S path cfg clock disk = (NucleusDb.new log.walMeta.initialState log.walMeta.backend cfg clock).map fun db =>
      .ok (log.events.foldl applyEvent (restoreMeta log.walMeta clock db)) := by
  obtain ⟨table, htable, hrows⟩ := h.events
  rw [Opened.loadWal_eq ⟨h.walMeta, h.schema, htable⟩]
  congr 1
  funext db
  exact replayEvents_ok _ hrows h.sound

/-- The database has the backend of the log and the state that its events lead to. -/
structure Restated (log : Log P) (db : NucleusDb P) : Prop where
  backend : db.backend = log.walMeta.backend
  state : db.state = log.events.foldl (fun s event => apply s event.delta) log.walMeta.initialState

/-- The database also has the history of the log, as a replay rebuilds it. -/
structure Rebuilt (log : Log P) (db : NucleusDb P) : Prop extends Restated log db where
  entries : db.entries = log.events.map (·.entry)
  ctLeaves : db.ctLeaves = log.events.map (·.ctLeaf)
  currentSth : db.currentSth = log.events.getLast?.map (·.entry.sth)

theorem Restated.of_empty (hstate : walMeta.initialState = db.state)
    (hbackend : walMeta.backend = db.backend) : Restated ⟨walMeta, []⟩ db := ⟨hbackend.symm, hstate.symm⟩

theorem Restated.commit (h : Restated log db) (hcommit : db.commit delta localViews now = some (.ok entry, db'))
    (ctLeaf : NodeHash) : Restated ⟨log.walMeta, log.events ++ [eventOf delta db' entry ctLeaf]⟩ db' := by
  constructor
  · rw [(commit_sameFrame hcommit).backend]
    exact h.backend
  · rw [(commit_advanced hcommit).state, h.state, List.foldl_append]
    rfl

theorem Rebuilt.commit (h : Rebuilt log db) (hcommit : db.commit delta localViews now = some (.ok entry, db'))
    (hleaf : db'.ctLeaves = db.ctLeaves ++ [ctLeaf]) :
    Rebuilt ⟨log.walMeta, log.events ++ [eventOf delta db' entry ctLeaf]⟩ db' := by
  have hadv := commit_advanced hcommit
  refine ⟨h.toRestated.commit hcommit ctLeaf, ?_, ?_, ?_⟩
  · rw [hadv.entries, h.entries, List.map_append]
    rfl
  · rw [hleaf, h.ctLeaves, List.map_append]
    rfl
  · rw [hadv.currentSth, List.getLast?_concat]
    rfl

theorem foldl_applyEvent (events : List WalEventV1) (db : NucleusDb P) :
    (events.foldl applyEvent db).backend = db.backend ∧
      (events.foldl applyEvent db).state = events.foldl (fun s event => apply s event.delta) db.state ∧
      (events.foldl applyEvent db).entries = db.entries ++ events.map (·.entry) ∧
      (events.foldl applyEvent db).ctLeaves = db.ctLeaves ++ events.map (·.ctLeaf) ∧
      (events.foldl applyEvent db).currentSth = (events.getLast?.map (·.entry.sth)).or db.currentSth := by
  induction events generalizing db with
  | nil => simp
  | cons event rest ih =>
    obtain ⟨hbackend, hstate, hentries, hleaves, hsth⟩ := ih (applyEvent db event)
    rw [List.foldl_cons]
    refine ⟨hbackend, hstate, ?_, ?_, ?_⟩
    · rw [hentries]
      simp [applyEvent]
    · rw [hleaves]
      simp [applyEvent]
    · rw [hsth, List.getLast?_cons]
      cases rest.getLast? with
      | none => rfl
      | some e => rfl

theorem loadWal_rebuilt (h : LogAt S disk path log) (hload : loadWal S path cfg clock disk = some (.ok db)) :
    Rebuilt log db := by
  rw [loadWal_eq h] at hload
  obtain ⟨opened, hopen, heq⟩ := Option.map_eq_some_iff.mp hload
  obtain ⟨setup, rfl⟩ := new_eq_some hopen
  obtain rfl := Except.ok.inj heq
  obtain ⟨hbackend, hstate, hentries, hleaves, hsth⟩ := foldl_applyEvent log.events (restoreMeta log.walMeta clock
    (NucleusDb.fresh log.walMeta.initialState log.walMeta.backend cfg (defaultParams log.walMeta.backend)
      (defaultReductionContracts log.walMeta.backend.profile) setup clock))
  refine ⟨⟨hbackend, hstate⟩, hentries, hleaves, ?_⟩
  rw [hsth]
  exact Option.or_none

theorem loadWal_of_openable (h : LogAt S disk path log) (hopen : Openable log.walMeta.backend cfg) (clock : Clock) :
    ∃ db, loadWal S path cfg clock disk = some (.ok db) ∧ Rebuilt log db := by
  obtain ⟨opened, hnew⟩ := new_of_openable hopen log.walMeta.initialState clock
  have hload : loadWal S path cfg clock disk =
      some (.ok (log.events.foldl applyEvent (restoreMeta log.walMeta clock opened))) := by
    rw [loadWal_eq h, hnew]
    rfl
  exact ⟨_, hload, loadWal_rebuilt h hload⟩

theorem foldl_applyEvent_sameFrame (events : List WalEventV1) (db : NucleusDb P) :
    SameFrame db (events.foldl applyEvent db) := by
  induction events generalizing db with
  | nil => constructor <;> rfl
  | cons event rest ih =>
    have h := ih (applyEvent db event)
    rw [List.foldl_cons]
    exact ⟨h.backend, h.keymap, h.witnessCfg, h.securityParams, h.reductionContracts, h.kzgTrustedSetup, h.writeMode,
      h.typeMap, h.blobStore, h.vectorIndex⟩

theorem loadWal_configured (h : LogAt S disk path log) (hload : loadWal S path cfg clock disk = some (.ok db)) :
    db.witnessCfg = cfg ∧ db.securityParams = log.walMeta.securityParams ∧
      db.reductionContracts = log.walMeta.reductionContracts ∧ db.writeMode = log.walMeta.writeMode := by
  rw [loadWal_eq h] at hload
  obtain ⟨opened, hopen, heq⟩ := Option.map_eq_some_iff.mp hload
  obtain ⟨setup, rfl⟩ := new_eq_some hopen
  obtain rfl := Except.ok.inj heq
  have hframe := foldl_applyEvent_sameFrame log.events (restoreMeta log.walMeta clock
    (NucleusDb.fresh log.walMeta.initialState log.walMeta.backend cfg (defaultParams log.walMeta.backend)
      (defaultReductionContracts log.walMeta.backend.profile) setup clock))
  exact ⟨hframe.witnessCfg, hframe.securityParams, hframe.reductionContracts, hframe.writeMode⟩

/-! ### When nothing fails

With serializers that take every record, and no faults, the operations succeed on the files the engine itself writes. -/

theorem initWal_of_blank (hS : S.RoundTrips) (hW : S.Writes) (hblank : (disk.file path).WalBlank) (db : NucleusDb P) :
    ∃ f, initWal S path db none disk = (.ok (), disk.put path f) ∧
      LogAt S (disk.put path f) path ⟨walMetaOf db, []⟩ := by
  obtain ⟨hmeta, hevents⟩ := hblank
  obtain ⟨raw, hraw⟩ := hW.walMeta (walMetaOf db)
  have hbody : initWalBody S db (disk.file path) =
      .ok { disk.file path with walMeta := some (some raw), walEvents := some ∅ } := by
    unfold initWalBody
    rw [hmeta]
    dsimp only
    rw [hraw, hevents]
  refine ⟨_, Disk.transact_of_ok hbody, ?_⟩
  constructor
  · exact ⟨raw, by rw [Disk.file_put, if_pos rfl], hS.walMeta _ _ hraw⟩
  · rfl
  · exact ⟨∅, by rw [Disk.file_put, if_pos rfl], List.Forall₂.nil⟩
  · intro event hmem
    cases hmem

theorem WalMetaV1.matches_self (walMeta : WalMetaV1 P) : walMeta.matches walMeta = true := by
  simp [WalMetaV1.matches]

theorem initWal_of_matches (hlog : LogAt S disk path log) (hmatch : log.walMeta.matches (walMetaOf db) = true) :
    ∃ f, initWal S path db none disk = (.ok (), disk.put path f) ∧ LogAt S (disk.put path f) path log := by
  obtain ⟨raw, hraw, hslice⟩ := hlog.meta?_eq
  have hbody : initWalBody S db (disk.file path) =
      .ok { disk.file path with walMeta := some (disk.file path).meta?, walEvents := some (disk.file path).events } := by
    unfold initWalBody
    rw [hraw]
    dsimp only
    rw [hslice]
    dsimp only
    rw [if_neg (not_not.mpr hlog.schema), hmatch]
    exact if_neg Bool.false_ne_true
  refine ⟨_, Disk.transact_of_ok hbody, ?_⟩
  obtain ⟨raw', hraw', -⟩ := hlog.walMeta
  obtain ⟨table, htable, -⟩ := hlog.events
  apply hlog.congr
  · rw [Disk.file_put, if_pos rfl]
    unfold RedbFile.meta?
    rw [hraw']
    rfl
  · rw [Disk.file_put, if_pos rfl]
    unfold RedbFile.events
    rw [htable]
    rfl

theorem appendWalEvent_of_logAt (hW : S.Writes) (hlog : LogAt S disk path log) (delta : Delta) (entry : CommitEntry)
    (hleaf : db.ctLeaves.getLast? = some ctLeaf) :
    ∃ raw, S.walEvent.toVec (eventOf delta db entry ctLeaf) = .ok raw ∧
      appendWalEvent S path delta db entry none disk = (.ok (), disk.put path
        (withEvents S (disk.file path) ((disk.file path).events.insert db.entries.length raw))) := by
  obtain ⟨raw, hraw⟩ := hW.walEvent (eventOf delta db entry ctLeaf)
  refine ⟨raw, hraw, Disk.transact_of_ok ?_⟩
  rw [hlog.appendWalEventBody_eq, hleaf]
  dsimp only
  rw [hraw]

theorem saveSnapshot_of_writes (hW : S.Writes) (path : String) (db : NucleusDb P) (disk : S.Files) :
    ∃ disk', saveSnapshot S path db none disk = (.ok (), disk') := by
  obtain ⟨raw, hraw⟩ := hW.snapshot (snapshotOf db)
  refine ⟨_, Disk.transact_of_ok (f := { disk.file path with snapshot := some (some raw) }) ?_⟩
  dsimp only
  rw [hraw]

theorem truncateWal_of_blank (hS : S.RoundTrips) (hW : S.Writes) (hblank : (disk.file (swapPath path nanos)).WalBlank)
    (db : NucleusDb P) :
    ∃ disk', truncateWal S path db nanos {} disk = (.ok (), disk') ∧ LogAt S disk' path ⟨walMetaOf db, []⟩ := by
  obtain ⟨f, hinit, hlog⟩ := initWal_of_blank hS hW hblank db
  refine ⟨(disk.put (swapPath path nanos) f).rename (swapPath path nanos) path, ?_, ?_⟩
  · unfold truncateWal
    dsimp only
    rw [hinit]
  · apply hlog.congr
    · rw [Disk.file_rename]
    · rw [Disk.file_rename]

end AgentHalo.Persistence
