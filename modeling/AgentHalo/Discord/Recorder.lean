import AgentHalo.Engine.Registration
import AgentHalo.Engine.TypedLaw
import AgentHalo.Lib.Outcome
import AgentHalo.Persistence.Checkpoint

/-!
# The Discord recorder

A call loads the database, puts a JSON value under a key for each record of its batch, commits and saves the whole. The key
of an edit or a deletion ends in the time, in whole seconds: two records of one message within a second have one key. In
one batch the second overwrites the first. In two batches the commit of the second fails, unless its payload is that of
the first. A run in which no batch repeats a key or takes one that is there, and in which the payload store has room, keeps
every record (`recorded_kept`).
-/

namespace AgentHalo.Discord

open Engine (NucleusDb WitnessConfig CommitError Clock apply defaultReductionContracts length_apply_le
  verifyMonotoneExtension_of_zero)
open Engine.NucleusDb (commit_sameFrame commit_ok_of_usable defaultParams getTyped_of_index
  putTyped_cases putTyped_of_accepted putTyped_ok singleWitnessCfg singleWitnessCfg_usable singleWitnessDb
  singleWitnessDb_admissible singleWitnessDb_new)
open Outcome
open Persistence
open Store (BlobStore KeyMap TypeMap TypedValue)
open Serde (identity)

structure DiscordAttachment where
  id : String
  filename : String
  size : UInt64
  url : String
  contentType : Option String
deriving DecidableEq, Repr

structure DiscordMessageRecord where
  messageId : String
  channelId : String
  channelName : String
  guildId : Option String
  guildName : Option String
  authorId : String
  authorName : String
  authorDiscriminator : Option String
  authorBot : Bool
  content : String
  timestamp : String
  editedTimestamp : Option String
  attachments : List DiscordAttachment
  embedsCount : Nat
  mentions : List String
  referenceMessageId : Option String
  threadId : Option String
  reactions : List String
  recordedAt : String
  recordSeal : String
deriving DecidableEq, Repr

/-- The JSON forms of the payloads and the derived `Debug` forms of errors. -/
structure RecorderEnv (P : Platform) where
  messageToValue : DiscordMessageRecord → Except String P.json.Value
  /-- The object of a deletion, from its `channel_id`, `message_id` and `deleted_at`. -/
  deletionValue : String → String → String → P.json.Value
  debugPersistence : PersistenceError → String
  debugCommit : CommitError → String

/-- A payload reads back. -/
structure RecorderEnv.Lawful {P : Platform} (E : RecorderEnv P) : Prop where
  message : ∀ record payload, E.messageToValue record = .ok payload →
    P.json.fromSlice (P.json.toVec payload) = .ok payload
  deletion : ∀ channelId messageId deletedAt,
    P.json.fromSlice (P.json.toVec (E.deletionValue channelId messageId deletedAt)) =
      .ok (E.deletionValue channelId messageId deletedAt)

/-- A call of the recorder. Each edit comes with the second it is keyed with, each deletion with its text of the time and
its second. -/
inductive Call where
  | messages (records : List DiscordMessageRecord)
  | edits (records : List (DiscordMessageRecord × Int))
  | deletes (records : List ((UInt64 × UInt64) × String × Int))

variable {P : Platform}

/-! ### Keys and payloads -/

def messageEntry (E : RecorderEnv P) (record : DiscordMessageRecord) : Except String (String × P.json.Value) := do
  let payload ← (E.messageToValue record).mapError ("serialize message: " ++ ·)
  return ("msg:" ++ record.channelId ++ ":" ++ record.messageId, payload)

def editEntry (E : RecorderEnv P) (edit : DiscordMessageRecord × Int) : Except String (String × P.json.Value) := do
  let key := "edit:" ++ edit.1.channelId ++ ":" ++ edit.1.messageId ++ ":" ++ toString edit.2
  let payload ← (E.messageToValue edit.1).mapError ("serialize edit payload: " ++ ·)
  return (key, payload)

def deleteEntry (E : RecorderEnv P) (deletion : (UInt64 × UInt64) × String × Int) : String × P.json.Value :=
  let channelId := toString deletion.1.1
  let messageId := toString deletion.1.2
  ("del:" ++ channelId ++ ":" ++ messageId ++ ":" ++ toString deletion.2.2, E.deletionValue channelId messageId deletion.2.1)

def Call.entries (E : RecorderEnv P) : Call → Except String (List (String × P.json.Value))
  | .messages records => records.mapM (messageEntry E)
  | .edits records => records.mapM (editEntry E)
  | .deletes records => .ok (records.map (deleteEntry E))

/-! ### The database -/

/-- What a call meets: the configuration, the clocks and the faults of the disk. `refreshed` is the outcome of refreshing the
status, which reads the database file and does not write it. -/
structure Circumstances (P : Platform) where
  cfg : WitnessConfig P
  openClock : Clock
  putClock : Nat → Clock
  now : Nat
  nanos : Nat
  snapshotFault : Option Fault
  walFault : Option Fault
  persistFaults : PersistFaults
  refreshed : Except String Unit

variable (S : Serde P) (E : RecorderEnv P) (path : String)

def ensureDb (c : Circumstances P) (disk : S.Files) : Option (Except String Unit) × S.Files :=
  if disk[path]?.isSome then (some (.ok ()), disk)
  else
    match NucleusDb.new ⟨[]⟩ .binaryMerkle c.cfg c.openClock with
    | none => (none, disk)
    | some db =>
      let db := db.setAppendOnly
      match saveSnapshot S path db c.snapshotFault disk with
      | (.error e, disk) => (some (.error ("save snapshot " ++ path ++ ": " ++ E.debugPersistence e)), disk)
      | (.ok (), disk) =>
        match initWal S (defaultWalPath path) db c.walFault disk with
        | (.error e, disk) => (some (.error ("init WAL " ++ defaultWalPath path ++ ": " ++ E.debugPersistence e)), disk)
        | (.ok (), disk) => (some (.ok ()), disk)

def loadDb (c : Circumstances P) (disk : S.Files) : Option (Except String (NucleusDb P)) × S.Files :=
  match ensureDb S E path c disk with
  | (none, disk) => (none, disk)
  | (some (.error e), disk) => (some (.error e), disk)
  | (some (.ok ()), disk) =>
    ((loadSnapshot S path c.cfg c.openClock disk).map fun r =>
      r.mapError fun e => "load snapshot " ++ path ++ ": " ++ E.debugPersistence e, disk)

def persistDb (c : Circumstances P) (db : NucleusDb P) (disk : S.Files) : Except String Unit × S.Files :=
  match persistSnapshotAndSyncWal S path (defaultWalPath path) db c.nanos c.persistFaults disk with
  | (r, disk) => (r.mapError fun e => "persist: " ++ E.debugPersistence e, disk)

def putEntries (clock : Nat → Clock) (db : NucleusDb P) (writes : List (Nat × UInt64)) :
    List (String × P.json.Value) → Except String (List (Nat × UInt64)) × NucleusDb P
  | [] => (.ok writes, db)
  | (key, payload) :: rest =>
    match db.putTyped key (.json payload) (clock writes.length) with
    | (.error e, db) => (.error ("put typed: " ++ e), db)
    | (.ok write, db) => putEntries clock db (writes ++ [write]) rest

/-- The writes and the commit of a batch, on the database that was loaded; `none` is a panic of the backend. -/
def commitEntries (c : Circumstances P) (db : NucleusDb P) (entries : List (String × P.json.Value)) :
    Option (Except String (NucleusDb P)) :=
  match putEntries c.putClock (if db.writeMode = .appendOnly then db else db.setAppendOnly) [] entries with
  | (.error e, _) => some (.error e)
  | (.ok writes, db) =>
    match db.commit ⟨writes⟩ [] c.now with
    | none => none
    | some (.error e, _) => some (.error ("commit failed: " ++ E.debugCommit e))
    | some (.ok _, db) => some (.ok db)

def recordJsonEntries (c : Circumstances P) (entries : List (String × P.json.Value)) (disk : S.Files) :
    Option (Except String Unit) × S.Files :=
  if entries.isEmpty then (some (.ok ()), disk)
  else
    match ensureDb S E path c disk with
    | (some (.ok ()), disk) =>
      match loadDb S E path c disk with
      | (none, disk) => (none, disk)
      | (some (.error e), disk) => (some (.error e), disk)
      | (some (.ok db), disk) =>
        match commitEntries E c db entries with
        | none => (none, disk)
        | some (.error e) => (some (.error e), disk)
        | some (.ok db) =>
          match persistDb S E path c db disk with
          | (.error e, disk) => (some (.error e), disk)
          | (.ok (), disk) => (some c.refreshed, disk)
    | (r, disk) => (r, disk)

/-- `record_messages`, `record_edits` and `record_deletes`. -/
def record (c : Circumstances P) (call : Call) (disk : S.Files) : Option (Except String Unit) × S.Files :=
  match call.entries E with
  | .error e => (some (.error e), disk)
  | .ok entries => recordJsonEntries S E path c entries disk

/-! ### Runs -/

/-- A file, and what the calls that returned `Ok` were given. -/
structure History where
  disk : S.Files
  recorded : List (String × P.json.Value)

def History.step (s : History S) (a : Call × Circumstances P) : History S :=
  match record S E path a.2 a.1 s.disk with
  | (some (.ok ()), disk) => ⟨disk, s.recorded ++ (a.1.entries E).toOption.getD []⟩
  | (_, disk) => { s with disk }

def Loads (c : Circumstances P) (disk : S.Files) (db : NucleusDb P) : Prop :=
  (loadDb S E path c (ensureDb S E path c disk).2).1 = some (.ok db)

/-- The keys differ from each other and from those of the database, and their payloads fit. -/
structure ClearFor (db : NucleusDb P) (keys : List String) : Prop where
  distinct : keys.Nodup
  absent : ∀ key ∈ keys, db.keymap.get key = none
  room : BlobStore.HasRoom db.blobStore keys

/-- A call that returns `Ok` or changes the file has a clear batch. -/
def History.Clear (s : History S) (a : Call × Circumstances P) : Prop :=
  ∀ entries db, a.1.entries E = .ok entries → Loads S E path a.2 s.disk db →
    ((record S E path a.2 a.1 s.disk).1 = some (.ok ()) ∨
      (record S E path a.2 a.1 s.disk).2.file path ≠ (ensureDb S E path a.2 s.disk).2.file path) →
    ClearFor db (entries.map Prod.fst)

/-- The database in the file has the payload under the key, and so has what is loaded from it. -/
def Retrievable (disk : S.Files) (entry : String × P.json.Value) : Prop :=
  ∃ saved, SnapshotAt S disk path saved ∧ saved.getTyped entry.1 = some (.json entry.2) ∧
    ∀ cfg clock, Openable saved.backend cfg →
      ∃ db, loadSnapshot S path cfg clock disk = some (.ok db) ∧ db.getTyped entry.1 = some (.json entry.2)

/-! ### What a batch leaves -/

structure Holds (db : NucleusDb P) (entry : String × P.json.Value) : Prop where
  indexed : (db.keymap.get entry.1).isSome
  tagged : db.typeMap.get entry.1 = .json
  payload : BlobStore.get db.blobStore entry.1 = some (P.json.toVec entry.2)
  decodes : P.json.fromSlice (P.json.toVec entry.2) = .ok entry.2

section Batches

variable {S E path} {db db' : NucleusDb P} {entry : String × P.json.Value} {entries : List (String × P.json.Value)}
  {c : Circumstances P} {disk disk' : S.Files}

theorem Holds.getTyped (h : Holds db entry) : db.getTyped entry.1 = some (.json entry.2) := by
  obtain ⟨idx, hidx⟩ := Option.isSome_iff_exists.mp h.indexed
  rw [getTyped_of_index hidx, h.tagged, h.payload]
  unfold TypedValue.decode
  dsimp only
  rw [h.decodes]
  rfl

theorem Holds.congr (h : Holds db entry) (hkeymap : db'.keymap = db.keymap) (htypes : db'.typeMap = db.typeMap)
    (hblobs : db'.blobStore = db.blobStore) : Holds db' entry :=
  ⟨hkeymap ▸ h.indexed, htypes ▸ h.tagged, hblobs ▸ h.payload, h.decodes⟩

theorem Holds.of_snapshot (h : Holds db entry) (hsame : snapshotOf db' = snapshotOf db) : Holds db' entry := by
  rw [eq_of_snapshotOf hsame]
  exact h.congr rfl rfl rfl

theorem holds_of_putTyped {key : String} {payload : P.json.Value} {clock : Clock} {write : Nat × UInt64}
    (h : db.putTyped key (.json payload) clock = (.ok write, db'))
    (hfits : BlobStore.Fits db.blobStore key (P.json.toVec payload))
    (hdecodes : P.json.fromSlice (P.json.toVec payload) = .ok payload) : Holds db' (key, payload) := by
  obtain ⟨-, -, -, hkeymap, htypes, hblobs⟩ := putTyped_ok h
  refine ⟨?_, ?_, ?_, hdecodes⟩
  · rw [hkeymap, KeyMap.get_getOrCreate_self]
    rfl
  · rw [htypes, TypeMap.get_set, if_pos rfl]
    rfl
  · rw [hblobs]
    refine Engine.NucleusDb.get_blobsAfter_self db key (.json payload) clock ?_
    rintro data ⟨⟩
    exact hfits

theorem Holds.putTyped {key : String} {payload : P.json.Value} {clock : Clock} {write : Nat × UInt64}
    (hholds : Holds db entry) (h : db.putTyped key (.json payload) clock = (.ok write, db'))
    (hfits : BlobStore.Fits db.blobStore key (P.json.toVec payload)) (hne : entry.1 ≠ key) : Holds db' entry := by
  obtain ⟨-, -, -, hkeymap, htypes, hblobs⟩ := putTyped_ok h
  refine ⟨?_, ?_, ?_, hholds.decodes⟩
  · rw [hkeymap, KeyMap.get_getOrCreate_other _ hne]
    exact hholds.indexed
  · rw [htypes, TypeMap.get_set, if_neg hne.symm]
    exact hholds.tagged
  · rw [hblobs, Engine.NucleusDb.get_blobsAfter_other db hne.symm (.json payload) clock]
    · exact hholds.payload
    · rintro data ⟨⟩
      exact hfits

theorem holds_putEntries {clock : Nat → Clock} {writes writes' : List (Nat × UInt64)}
    (h : putEntries clock db writes entries = (.ok writes', db')) (hdistinct : (entries.map Prod.fst).Nodup)
    (hroom : BlobStore.HasRoom db.blobStore (entries.map Prod.fst))
    (hdecodes : ∀ entry ∈ entries, P.json.fromSlice (P.json.toVec entry.2) = .ok entry.2) :
    (∀ entry ∈ entries, Holds db' entry) ∧ ∀ entry, Holds db entry → entry.1 ∉ entries.map Prod.fst → Holds db' entry := by
  induction entries generalizing db writes with
  | nil =>
    obtain rfl := (Prod.mk.inj h).2
    exact ⟨by simp, fun _ hholds _ => hholds⟩
  | cons first rest ih =>
    obtain ⟨key, payload⟩ := first
    obtain ⟨hnew, hdistinct⟩ := List.nodup_cons.mp hdistinct
    unfold putEntries at h
    split at h
    · cases h
    · rename_i write db₁ hput
      have hfits := hroom.fits (P.json.toVec payload)
      have hroom₁ : BlobStore.HasRoom db₁.blobStore (rest.map Prod.fst) := by
        rw [(putTyped_ok hput).2.2.2.2.2]
        exact hroom.put hnew (P.json.toVec payload) _
      obtain ⟨hall, hothers⟩ := ih h hdistinct hroom₁ fun entry hentry => hdecodes entry (List.mem_cons_of_mem _ hentry)
      constructor
      · intro entry hentry
        rcases List.mem_cons.mp hentry with rfl | hentry
        · exact hothers _ (holds_of_putTyped hput hfits (hdecodes _ List.mem_cons_self)) hnew
        · exact hall entry hentry
      · intro entry hholds hmem
        rw [List.map_cons, List.mem_cons, not_or] at hmem
        exact hothers entry (hholds.putTyped hput hfits hmem.1) hmem.2

theorem commitEntries_eq_ok (h : commitEntries E c db entries = some (.ok db')) : ∃ writes db₂ committed,
    putEntries c.putClock (if db.writeMode = .appendOnly then db else db.setAppendOnly) [] entries = (.ok writes, db₂) ∧
      db₂.commit ⟨writes⟩ [] c.now = some (.ok committed, db') := by
  unfold commitEntries at h
  split at h
  · cases h
  · rename_i writes db₂ hput
    split at h
    · cases h
    · cases h
    · rename_i committed db₃ hcommit
      obtain rfl := Except.ok.inj (Option.some.inj h)
      exact ⟨writes, db₂, committed, hput, hcommit⟩

theorem holds_commitEntries (h : commitEntries E c db entries = some (.ok db'))
    (hclear : ClearFor db (entries.map Prod.fst))
    (hdecodes : ∀ entry ∈ entries, P.json.fromSlice (P.json.toVec entry.2) = .ok entry.2) :
    (∀ entry ∈ entries, Holds db' entry) ∧ ∀ entry, Holds db entry → Holds db' entry := by
  obtain ⟨writes, db₂, committed, hput, hcommit⟩ := commitEntries_eq_ok h
  have hframe := commit_sameFrame hcommit
  have hlocked : (if db.writeMode = .appendOnly then db else db.setAppendOnly).keymap = db.keymap ∧
      (if db.writeMode = .appendOnly then db else db.setAppendOnly).typeMap = db.typeMap ∧
      (if db.writeMode = .appendOnly then db else db.setAppendOnly).blobStore = db.blobStore := by
    split_ifs
    · exact ⟨rfl, rfl, rfl⟩
    · exact ⟨rfl, rfl, rfl⟩
  obtain ⟨hkeymap, htypes, hblobs⟩ := hlocked
  obtain ⟨hall, hothers⟩ := holds_putEntries hput hclear.distinct (hblobs ▸ hclear.room) hdecodes
  have hkept {entry : String × P.json.Value} (hholds : Holds db₂ entry) : Holds db' entry :=
    hholds.congr hframe.keymap hframe.typeMap hframe.blobStore
  refine ⟨fun entry hentry => hkept (hall entry hentry), fun entry hholds => hkept ?_⟩
  refine hothers entry (hholds.congr hkeymap htypes hblobs) fun hmem => ?_
  -- the batch takes no key that is there
  have hindexed := hholds.indexed
  rw [hclear.absent _ hmem] at hindexed
  cases hindexed

/-! ### What a call leaves -/

theorem ensureDb_of_exists (h : disk[path]?.isSome) : ensureDb S E path c disk = (some (.ok ()), disk) := by
  unfold ensureDb
  rw [if_pos h]

theorem ensureDb_ok (h : ensureDb S E path c disk = (some (.ok ()), disk')) : disk'[path]?.isSome := by
  unfold ensureDb at h
  split_ifs at h with hexists
  · obtain rfl := (Prod.mk.inj h).2
    exact hexists
  · split at h
    · cases h
    · dsimp only at h
      split at h
      · cases h
      · rename_i saved hsave
        split at h
        · cases h
        · rename_i opened hopen
          obtain rfl := (Prod.mk.inj h).2
          obtain ⟨f, -, rfl⟩ := Disk.transact_ok hsave
          obtain ⟨f', -, rfl⟩ := Disk.transact_ok hopen
          rw [Disk.get?_put]
          split_ifs
          · rfl
          · rw [Disk.get?_put, if_pos rfl]
            rfl

/-- A call leaves the file as it was ensured and does not return `Ok`, or has an empty batch, or leaves the snapshot of its
commit. -/
theorem recordJsonEntries_cases (hS : S.RoundTrips) (hpaths : path ≠ defaultWalPath path) {r : Option (Except String Unit)}
    (h : recordJsonEntries S E path c entries disk = (r, disk')) :
    (disk'.file path = (ensureDb S E path c disk).2.file path ∧ r ≠ some (.ok ())) ∨
    (entries = [] ∧ disk' = disk) ∨
    ∃ db db', Loads S E path c disk db ∧ commitEntries E c db entries = some (.ok db') ∧ SnapshotAt S disk' path db' := by
  unfold recordJsonEntries at h
  split_ifs at h with hempty
  · exact .inr (.inl ⟨List.isEmpty_iff.mp hempty, (Prod.mk.inj h).2.symm⟩)
  · split at h
    · rename_i disk₁ hensure
      have hloaded : (loadDb S E path c disk₁).2 = disk₁ := by
        unfold loadDb
        rw [ensureDb_of_exists (ensureDb_ok hensure)]
      have hfile : (ensureDb S E path c disk).2 = disk₁ := congrArg Prod.snd hensure
      unfold Loads
      rw [hfile]
      split at h
      · rename_i disk₂ hload
        obtain ⟨rfl, rfl⟩ := Prod.mk.inj h
        rw [hload] at hloaded
        exact .inl ⟨congrArg (Disk.file · path) hloaded, nofun⟩
      · rename_i e disk₂ hload
        obtain ⟨rfl, rfl⟩ := Prod.mk.inj h
        rw [hload] at hloaded
        exact .inl ⟨congrArg (Disk.file · path) hloaded, nofun⟩
      · rename_i db disk₂ hload
        rw [hload] at hloaded
        obtain rfl : disk₂ = disk₁ := hloaded
        split at h
        · obtain ⟨rfl, rfl⟩ := Prod.mk.inj h
          exact .inl ⟨rfl, nofun⟩
        · obtain ⟨rfl, rfl⟩ := Prod.mk.inj h
          exact .inl ⟨rfl, nofun⟩
        · rename_i db' hcommit
          cases hpersist : persistSnapshotAndSyncWal S path (defaultWalPath path) db' c.nanos c.persistFaults disk₂ with
          | mk saved disk₃ =>
            rw [persistDb, hpersist] at h
            have hend : disk' = disk₃ := by
              split at h
              · rename_i hsaved
                exact (Prod.mk.inj h).2.symm.trans (Prod.mk.inj hsaved).2.symm
              · rename_i hsaved
                exact (Prod.mk.inj h).2.symm.trans (Prod.mk.inj hsaved).2.symm
            subst hend
            obtain ⟨⟨e, rfl⟩, hsame⟩ | hsnapshot :=
              persistSnapshotAndSyncWal_cases hS hpaths (swapPath_ne_snapshot path _) hpersist
            · obtain ⟨rfl, -⟩ := Prod.mk.inj h
              exact .inl ⟨hsame, nofun⟩
            · exact .inr (.inr ⟨db, db', by rw [hload], hcommit, hsnapshot⟩)
    · rename_i r₁ disk₁ hnot hensure
      obtain ⟨rfl, rfl⟩ := Prod.mk.inj h
      exact .inl ⟨congrArg (fun outcome => Disk.file outcome.2 path) hensure.symm, hnot⟩

theorem decodes_of_entries (hE : E.Lawful) {call : Call} (h : call.entries E = .ok entries) {entry : String × P.json.Value}
    (hmem : entry ∈ entries) : P.json.fromSlice (P.json.toVec entry.2) = .ok entry.2 := by
  cases call with
  | messages records =>
    obtain ⟨a, -, ha⟩ := exists_of_mapM_eq_ok h hmem
    simp only [messageEntry, bind, bind_eq_ok, mapError_eq_ok, pure, Except.pure, Except.ok.injEq] at ha
    obtain ⟨payload, hpayload, rfl⟩ := ha
    exact hE.message a payload hpayload
  | edits records =>
    obtain ⟨a, -, ha⟩ := exists_of_mapM_eq_ok h hmem
    simp only [editEntry, bind, bind_eq_ok, mapError_eq_ok, pure, Except.pure, Except.ok.injEq] at ha
    obtain ⟨payload, hpayload, rfl⟩ := ha
    exact hE.message a.1 payload hpayload
  | deletes records =>
    obtain rfl := Except.ok.inj h
    obtain ⟨deletion, -, rfl⟩ := List.mem_map.mp hmem
    exact hE.deletion _ _ _

theorem Holds.of_loads (hholds : Holds db entry) (hsnapshot : SnapshotAt S disk path db) {loaded : NucleusDb P}
    (hload : Loads S E path c disk loaded) : Holds loaded entry := by
  have hexists : disk[path]?.isSome := by
    obtain ⟨f, _, hfile, -⟩ := hsnapshot
    rw [hfile]
    rfl
  unfold Loads loadDb at hload
  rw [ensureDb_of_exists hexists] at hload
  dsimp only at hload
  rw [ensureDb_of_exists hexists] at hload
  obtain ⟨r, hr, hok⟩ := Option.map_eq_some_iff.mp hload
  rw [mapError_eq_ok] at hok
  subst hok
  have hopen : Openable db.backend c.cfg := by
    by_contra hclosed
    rw [hsnapshot.loadSnapshot_none hclosed] at hr
    cases hr
  obtain ⟨db', hdb', hsame, -⟩ := hsnapshot.loadSnapshot_ok hopen c.openClock
  obtain rfl := Except.ok.inj (Option.some.inj (hdb'.symm.trans hr))
  exact hholds.of_snapshot hsame

theorem Holds.retrievable (hholds : Holds db entry) (hsnapshot : SnapshotAt S disk path db) :
    Retrievable S path disk entry := by
  refine ⟨db, hsnapshot, hholds.getTyped, fun cfg clock hopen => ?_⟩
  obtain ⟨loaded, hload, hsame, -⟩ := hsnapshot.loadSnapshot_ok hopen clock
  exact ⟨loaded, hload, (hholds.of_snapshot hsame).getTyped⟩

end Batches

/-! ### Runs keep their records -/

/-- Everything that was recorded is held by the database in the file, under keys of their own. -/
structure History.Sound (s : History S) : Prop where
  held : s.recorded = [] ∨ ∃ db, SnapshotAt S s.disk path db ∧ ∀ entry ∈ s.recorded, Holds db entry
  distinct : (s.recorded.map Prod.fst).Nodup

section Runs

variable {S E path} {s : History S}

theorem History.Sound.of_file (h : s.Sound S path) {c : Circumstances P} {disk : S.Files}
    (hsame : disk.file path = (ensureDb S E path c s.disk).2.file path) :
    History.Sound S path { s with disk } := by
  refine ⟨?_, h.distinct⟩
  obtain hnone | ⟨db, hsnapshot, hheld⟩ := h.held
  · exact .inl hnone
  · have hexists : s.disk[path]?.isSome := by
      obtain ⟨f, _, hfile, -⟩ := hsnapshot
      rw [hfile]
      rfl
    rw [ensureDb_of_exists hexists] at hsame
    exact .inr ⟨db, hsnapshot.of_file hsame, hheld⟩

theorem History.step_of_ok {a : Call × Circumstances P} {disk : S.Files}
    (h : record S E path a.2 a.1 s.disk = (some (.ok ()), disk)) :
    s.step S E path a = ⟨disk, s.recorded ++ (a.1.entries E).toOption.getD []⟩ := by
  unfold History.step
  rw [h]

theorem History.step_of_not_ok {a : Call × Circumstances P} {r : Option (Except String Unit)} {disk : S.Files}
    (h : record S E path a.2 a.1 s.disk = (r, disk)) (hr : r ≠ some (.ok ())) :
    s.step S E path a = { s with disk } := by
  unfold History.step
  rw [h]
  split
  · rename_i hok
    exact absurd (Prod.mk.inj hok).1 hr
  · rename_i hsame
    rw [(Prod.mk.inj hsame).2]

theorem History.Sound.step (hS : S.RoundTrips) (hE : E.Lawful) (hpaths : path ≠ defaultWalPath path) (h : s.Sound S path)
    {a : Call × Circumstances P} (hclear : s.Clear S E path a) : (s.step S E path a).Sound S path := by
  cases hrecord : record S E path a.2 a.1 s.disk with
  | mk r disk =>
    have hcall := hrecord
    unfold record at hrecord
    cases hentries : a.1.entries E with
    | error e =>
      rw [hentries] at hrecord
      obtain ⟨rfl, rfl⟩ := Prod.mk.inj hrecord
      rw [step_of_not_ok hcall nofun]
      exact h
    | ok entries =>
      rw [hentries] at hrecord
      have hdecodes : ∀ entry ∈ entries, P.json.fromSlice (P.json.toVec entry.2) = .ok entry.2 :=
        fun _ hmem => decodes_of_entries hE hentries hmem
      obtain ⟨hsame, hr⟩ | ⟨rfl, rfl⟩ | ⟨db, db', hloads, hcommit, hsnapshot⟩ := recordJsonEntries_cases hS hpaths hrecord
      · rw [step_of_not_ok hcall hr]
        exact h.of_file hsame
      · obtain rfl := (Prod.mk.inj hrecord).1
        rw [step_of_ok hcall, hentries]
        simpa [Except.toOption] using h
      · by_cases hsaves : r = some (.ok ()) ∨ disk.file path ≠ (ensureDb S E path a.2 s.disk).2.file path
        · have hbatch : ClearFor db (entries.map Prod.fst) := hclear entries db hentries hloads (by rwa [hcall])
          obtain ⟨hall, hkept⟩ := holds_commitEntries hcommit hbatch hdecodes
          have hloaded : ∀ entry ∈ s.recorded, Holds db entry := by
            intro entry hmem
            obtain hnone | ⟨saved, hsaved, hheld⟩ := h.held
            · rw [hnone] at hmem
              cases hmem
            · exact (hheld entry hmem).of_loads hsaved hloads
          have hold : ∀ entry ∈ s.recorded, Holds db' entry := fun entry hmem => hkept entry (hloaded entry hmem)
          by_cases hok : r = some (.ok ())
          · subst hok
            rw [step_of_ok hcall, hentries]
            refine ⟨.inr ⟨db', hsnapshot, fun entry hmem => ?_⟩, ?_⟩
            · obtain hmem | hmem := List.mem_append.mp hmem
              · exact hold entry hmem
              · exact hall entry hmem
            · rw [List.map_append]
              refine List.nodup_append.mpr ⟨h.distinct, hbatch.distinct, ?_⟩
              rintro key hkey _ hother rfl
              obtain ⟨entry, hmem, rfl⟩ := List.mem_map.mp hkey
              have hindexed := (hloaded entry hmem).indexed
              rw [hbatch.absent _ hother] at hindexed
              cases hindexed
          · rw [step_of_not_ok hcall hok]
            exact ⟨.inr ⟨db', hsnapshot, hold⟩, h.distinct⟩
        · obtain ⟨hr, hsame⟩ := not_or.mp hsaves
          rw [step_of_not_ok hcall hr]
          exact h.of_file (not_not.mp hsame)

end Runs

/-- **Recorded entries are kept**, in every run in which each call that returns `Ok` or changes the file has a clear batch:
each record of each call that returned `Ok` can be retrieved at the end, under a key of its own. -/
theorem recorded_kept (hS : S.RoundTrips) (hE : E.Lawful) (hpaths : path ≠ defaultWalPath path) (disk : S.Files)
    (calls : List (Call × Circumstances P))
    (hclear : Run.Along (History.step S E path) (History.Clear S E path) ⟨disk, []⟩ calls) :
    (∀ entry ∈ (Run.exec (History.step S E path) ⟨disk, []⟩ calls).recorded,
      Retrievable S path (Run.exec (History.step S E path) ⟨disk, []⟩ calls).disk entry) ∧
      ((Run.exec (History.step S E path) ⟨disk, []⟩ calls).recorded.map Prod.fst).Nodup := by
  have hsound : (Run.exec (History.step S E path) ⟨disk, []⟩ calls).Sound S path :=
    Run.exec_invariant_along (fun s a h hclear => h.step hS hE hpaths hclear) ⟨.inl rfl, List.nodup_nil⟩ hclear
  refine ⟨fun entry hmem => ?_, hsound.distinct⟩
  obtain hnone | ⟨db, hsnapshot, hheld⟩ := hsound.held
  · rw [hnone] at hmem
    cases hmem
  · exact (hheld entry hmem).retrievable hsnapshot

/-! ### Two edits of a message -/

/-- A database without cells, with the configuration of `singleWitnessDb`. -/
structure Blank (db : NucleusDb .reference) : Prop where
  backend : db.backend = .binaryMerkle
  witnessCfg : db.witnessCfg = singleWitnessCfg
  securityParams : db.securityParams = defaultParams .binaryMerkle
  reductionContracts : db.reductionContracts = defaultReductionContracts .binaryMerkle
  state : db.state = ⟨[]⟩
  inStep : db.ctLeaves.length = db.entries.length

section Pairs

variable {db : NucleusDb .reference}

theorem Blank.putTyped (h : Blank db) (key : String) (value : TypedValue .reference) (clock : Clock) :
    Blank (db.putTyped key value clock).2 := by
  rcases putTyped_cases db key value clock with ⟨vectorIndex, hdb⟩ | ⟨-, vectorIndex, hdb⟩
  · rw [hdb]
    exact ⟨h.backend, h.witnessCfg, h.securityParams, h.reductionContracts, h.state, h.inStep⟩
  · rw [hdb]
    exact ⟨h.backend, h.witnessCfg, h.securityParams, h.reductionContracts, h.state, h.inStep⟩

theorem Blank.commit (h : Blank db) {writes : List (Nat × UInt64)} (hfew : writes.length ≤ 2)
    (hwrites : ∀ write ∈ writes, write.1 < 2) (now : Nat) :
    ∃ entry db', db.commit ⟨writes⟩ [] now = some (.ok entry, db') := by
  have hshort : (apply db.state ⟨writes⟩).values.length ≤ 2 := by
    refine length_apply_le ?_ hwrites
    rw [h.state]
    exact Nat.zero_le 2
  have hadm : db.Admissible ⟨writes⟩ [] := by
    refine ⟨?_, ?_, ?_, ?_, fun _ => ?_, rfl⟩
    · rw [h.securityParams, h.backend, h.witnessCfg]
      exact singleWitnessDb_admissible.parameters
    · rw [h.reductionContracts]
      exact singleWitnessDb_admissible.contracts
    · rw [h.witnessCfg]
      exact singleWitnessDb_admissible.witnesses
    · rw [h.securityParams]
      unfold Engine.validateCommitShape
      rw [if_neg (Nat.not_lt.mpr (Nat.le_trans hfew (by decide))), if_neg (Nat.not_lt.mpr (Nat.le_trans hshort (by decide)))]
    · refine verifyMonotoneExtension_of_zero fun write _ => ?_
      rw [h.state]
      rfl
  have hroots : ∃ rs, db.roots (apply db.state ⟨writes⟩) = some rs := by
    unfold Engine.NucleusDb.roots Engine.NucleusDb.stateRootFor
    rw [h.backend]
    cases db.entries.getLast? with
    | none => exact ⟨_, rfl⟩
    | some e => exact ⟨_, rfl⟩
  obtain ⟨rs, hroots⟩ := hroots
  refine commit_ok_of_usable Platform.reference_signaturesCorrect now hadm hroots ?_ h.inStep
  rw [h.witnessCfg]
  exact singleWitnessCfg_usable

theorem Blank.commitEntries (h : Blank db) (hkeymap : db.keymap = KeyMap.new) (hmode : db.writeMode = .appendOnly)
    (E : RecorderEnv .reference) (c : Circumstances .reference)
    (first second : String × Platform.reference.json.Value) :
    ∃ db', Discord.commitEntries E c db [first, second] = some (.ok db') := by
  have hput₁ := putTyped_of_accepted db first.1 (.json first.2) (c.putClock 0) id
  have hkeymap₁ := (putTyped_ok hput₁).2.2.2.1
  have hblank₁ := h.putTyped first.1 (.json first.2) (c.putClock 0)
  generalize (db.putTyped first.1 (.json first.2) (c.putClock 0)).2 = db₁ at hput₁ hkeymap₁ hblank₁
  have hput₂ := putTyped_of_accepted db₁ second.1 (.json second.2) (c.putClock 1) id
  have hblank₂ := hblank₁.putTyped second.1 (.json second.2) (c.putClock 1)
  generalize (db₁.putTyped second.1 (.json second.2) (c.putClock 1)).2 = db₂ at hput₂ hblank₂
  have hsound₁ := KeyMap.sound_new.getOrCreate first.1
  have hbelow₁ := hsound₁.below _ _ (KeyMap.get_getOrCreate_self KeyMap.new first.1)
  have hbelow₂ := (hsound₁.getOrCreate second.1).below _ _ (KeyMap.get_getOrCreate_self _ second.1)
  have hgrow₁ := KeyMap.nextIndex_register_le KeyMap.new [first.1]
  have hgrow₂ := KeyMap.nextIndex_register_le KeyMap.new [first.1, second.1]
  simp only [KeyMap.register_cons, KeyMap.register_nil, List.length_cons, List.length_nil,
    show KeyMap.new.nextIndex = 0 from rfl] at hgrow₁ hgrow₂
  rw [hkeymap] at hput₁ hkeymap₁
  rw [hkeymap₁] at hput₂
  have hwrites : ∀ write ∈ [((KeyMap.new.getOrCreate first.1).1, (TypedValue.json first.2).encode first.1 |>.1),
      (((KeyMap.new.getOrCreate first.1).2.getOrCreate second.1).1, (TypedValue.json second.2).encode second.1 |>.1)],
      write.1 < 2 := by
    intro write hmem
    rcases List.mem_pair.mp hmem with rfl | rfl
    · exact Nat.lt_of_lt_of_le hbelow₁ (by omega)
    · exact Nat.lt_of_lt_of_le hbelow₂ (by omega)
  obtain ⟨entry, db', hcommit⟩ := hblank₂.commit (by rfl) hwrites c.now
  refine ⟨db', ?_⟩
  unfold Discord.commitEntries
  rw [if_pos hmode, show putEntries c.putClock db [] [first, second] = (.ok _, db₂) from ?_]
  · dsimp only
    rw [hcommit]
  · unfold putEntries
    dsimp only [List.length_nil]
    rw [hput₁]
    unfold putEntries
    dsimp only [List.nil_append, List.length_singleton]
    rw [hput₂]
    rfl

variable (E : RecorderEnv .reference)

def quiet : Circumstances .reference :=
  ⟨singleWitnessCfg, ⟨0, 0⟩, fun _ => ⟨0, 0⟩, 0, 0, none, none, {}, .ok ()⟩

theorem exists_ensureDb : ∃ disk,
    ensureDb (identity .reference) E "d.ndb" quiet ∅ = (some (.ok ()), disk) ∧
      SnapshotAt (identity .reference) disk "d.ndb" singleWitnessDb.setAppendOnly ∧
      disk[swapPath (defaultWalPath "d.ndb") 0]? = none := by
  have hS := Serde.identity_roundTrips .reference
  have hW := Serde.identity_writes .reference
  have habsent (p : String) : (∅ : (identity .reference).Files)[p]? = none := Std.ExtTreeMap.getElem?_empty
  have hpaths : "d.ndb" ≠ defaultWalPath "d.ndb" := by decide
  obtain ⟨saved, hsave⟩ := saveSnapshot_of_writes hW "d.ndb" singleWitnessDb.setAppendOnly ∅
  obtain ⟨hsnapshot, hframe⟩ := saveSnapshot_holds hS hsave
  have hblank : (saved.file (defaultWalPath "d.ndb")).WalBlank := by
    unfold Disk.file
    rw [hframe _ hpaths, habsent]
    exact ⟨rfl, rfl⟩
  obtain ⟨f, hinit, -⟩ := initWal_of_blank hS hW hblank singleWitnessDb.setAppendOnly
  refine ⟨saved.put (defaultWalPath "d.ndb") f, ?_, hsnapshot.congr ?_, ?_⟩
  · unfold ensureDb
    rw [habsent, if_neg nofun, show NucleusDb.new ⟨[]⟩ .binaryMerkle quiet.cfg quiet.openClock = some singleWitnessDb from
      singleWitnessDb_new]
    dsimp only
    rw [show saveSnapshot (identity .reference) "d.ndb" singleWitnessDb.setAppendOnly quiet.snapshotFault ∅ =
      (.ok (), saved) from hsave]
    dsimp only
    rw [show initWal (identity .reference) (defaultWalPath "d.ndb") singleWitnessDb.setAppendOnly
      quiet.walFault saved = (.ok (), saved.put (defaultWalPath "d.ndb") f) from hinit]
  · rw [Disk.get?_put, if_neg hpaths.symm]
  · rw [Disk.get?_put, if_neg (swapPath_ne_defaultWalPath _ _ _).symm, hframe _ (swapPath_ne_snapshot _ _), habsent]

theorem loadDb_of_snapshotAt {disk : (identity .reference).Files}
    (h : SnapshotAt (identity .reference) disk "d.ndb" singleWitnessDb.setAppendOnly) :
    loadDb (identity .reference) E "d.ndb" quiet disk = (some (.ok singleWitnessDb.setAppendOnly), disk) := by
  have hexists : disk["d.ndb"]?.isSome := by
    obtain ⟨f, _, hfile, -⟩ := h
    rw [hfile]
    rfl
  have hopen : Openable singleWitnessDb.setAppendOnly.backend singleWitnessCfg := openable_of_new singleWitnessDb_new
  obtain ⟨db, hload, hsame, hcfg⟩ := h.loadSnapshot_ok hopen ⟨0, 0⟩
  obtain rfl : db = singleWitnessDb.setAppendOnly := (eq_of_snapshotOf hsame).trans (by rw [hcfg]; rfl)
  unfold loadDb
  rw [ensureDb_of_exists hexists]
  dsimp only
  rw [show loadSnapshot (identity .reference) "d.ndb" quiet.cfg quiet.openClock disk = _ from hload]
  rfl

theorem exists_record {call : Call} {first second : String × Platform.reference.json.Value}
    (hentries : call.entries E = .ok [first, second]) :
    ∃ disk db, record (identity .reference) E "d.ndb" quiet call ∅ = (some (.ok ()), disk) ∧
      commitEntries E quiet singleWitnessDb.setAppendOnly [first, second] = some (.ok db) ∧
      SnapshotAt (identity .reference) disk "d.ndb" db := by
  obtain ⟨disk, hensure, hsnapshot, hfree⟩ := exists_ensureDb E
  have hblank : Blank singleWitnessDb.setAppendOnly := ⟨rfl, rfl, rfl, rfl, rfl, rfl⟩
  obtain ⟨db, hcommit⟩ := hblank.commitEntries rfl rfl E quiet first second
  obtain ⟨disk', hpersist⟩ := exists_persist (Serde.identity_roundTrips .reference)
    (Serde.identity_writes .reference) hfree db
  have hrecord : record (identity .reference) E "d.ndb" quiet call ∅ = (some (.ok ()), disk') := by
    unfold record
    rw [hentries]
    dsimp only
    unfold recordJsonEntries
    rw [if_neg nofun, hensure]
    dsimp only
    rw [loadDb_of_snapshotAt E hsnapshot]
    dsimp only
    rw [hcommit]
    dsimp only
    rw [persistDb, show persistSnapshotAndSyncWal (identity .reference) "d.ndb" (defaultWalPath "d.ndb") db
      quiet.nanos quiet.persistFaults disk = (.ok (), disk') from hpersist]
    rfl
  refine ⟨disk', db, hrecord, hcommit, ?_⟩
  obtain ⟨⟨e, he⟩, -⟩ | hsaved := persistSnapshotAndSyncWal_cases (Serde.identity_roundTrips .reference)
    (by decide) (swapPath_ne_snapshot "d.ndb" _) hpersist
  · cases he
  · exact hsaved

variable {E}

theorem holds_second {first second : String × Platform.reference.json.Value}
    (h : commitEntries E quiet singleWitnessDb.setAppendOnly [first, second] = some (.ok db))
    (hdecodes : Platform.reference.json.fromSlice (Platform.reference.json.toVec second.2) = .ok second.2) :
    Holds db second := by
  obtain ⟨writes, db₂, committed, hput, hcommit⟩ := commitEntries_eq_ok h
  rw [show (if singleWitnessDb.setAppendOnly.writeMode = .appendOnly then singleWitnessDb.setAppendOnly
    else singleWitnessDb.setAppendOnly.setAppendOnly) = singleWitnessDb.setAppendOnly from rfl] at hput
  unfold putEntries at hput
  split at hput
  · cases hput
  · rename_i write₁ db₁ hput₁
    unfold putEntries at hput
    split at hput
    · cases hput
    · rename_i write₂ db₃ hput₂
      obtain rfl : db₃ = db₂ := (Prod.mk.inj hput).2
      have hblobs : db₁.blobStore =
          BlobStore.put singleWitnessDb.setAppendOnly.blobStore first.1 (Platform.reference.json.toVec first.2) 0 :=
        (putTyped_ok hput₁).2.2.2.2.2
      have hfits : BlobStore.Fits db₁.blobStore second.1 (Platform.reference.json.toVec second.2) := by
        have hone : BlobStore.Fits singleWitnessDb.setAppendOnly.blobStore first.1
            (Platform.reference.json.toVec first.2) := by
          unfold BlobStore.Fits
          refine Nat.le_trans Std.ExtTreeMap.size_insert_le ?_
          decide
        obtain ⟨hentries, hmax⟩ := BlobStore.put_spec singleWitnessDb.setAppendOnly.blobStore 0 hone
        unfold BlobStore.Fits
        rw [hblobs, hentries, hmax]
        refine Nat.le_trans Std.ExtTreeMap.size_insert_le ?_
        refine Nat.le_trans (Nat.succ_le_succ Std.ExtTreeMap.size_insert_le) ?_
        decide
      have hframe := commit_sameFrame hcommit
      exact (holds_of_putTyped hput₂ hfits hdecodes).congr hframe.keymap hframe.typeMap hframe.blobStore

end Pairs

/-- The messages of the runs below have one letter, or none. -/
def letterEnv : RecorderEnv .reference where
  messageToValue record :=
    if record.content = "a" then .ok "a" else if record.content = "b" then .ok "b" else .error "not a letter"
  deletionValue _ _ _ := "d"
  debugPersistence _ := "PersistenceError"
  debugCommit _ := "CommitError"

theorem letterEnv_lawful : letterEnv.Lawful where
  message record payload h := by
    change (if record.content = "a" then .ok "a" else if record.content = "b" then .ok "b" else .error "not a letter") =
      Except.ok payload at h
    split_ifs at h
    · obtain rfl := Except.ok.inj h
      rfl
    · obtain rfl := Except.ok.inj h
      rfl
  deletion _ _ _ := by
    change Platform.reference.json.fromSlice (Platform.reference.json.toVec "d") = .ok "d"
    rfl

def letter (content : String) : DiscordMessageRecord where
  messageId := "7"
  channelId := "4"
  channelName := "general"
  guildId := none
  guildName := none
  authorId := "1"
  authorName := "ada"
  authorDiscriminator := none
  authorBot := false
  content
  timestamp := "2026-01-01T00:00:00Z"
  editedTimestamp := some "2026-01-01T00:00:01Z"
  attachments := []
  embedsCount := 0
  mentions := []
  referenceMessageId := none
  threadId := none
  reactions := []
  recordedAt := "2026-01-01T00:00:01Z"
  recordSeal := ""

def twoEdits (first second : Int) : Call := .edits [(letter "a", first), (letter "b", second)]

def letterKey (second : Int) : String := "edit:" ++ "4" ++ ":" ++ "7" ++ ":" ++ toString second

theorem editEntry_letter (content : String) (second : Int) (h : content = "a" ∨ content = "b") :
    editEntry letterEnv (letter content, second) = .ok (letterKey second, content) := by
  unfold editEntry
  have hvalue : letterEnv.messageToValue (letter content) = .ok content := by
    change (if content = "a" then .ok "a" else if content = "b" then .ok "b" else .error "not a letter") = Except.ok content
    rcases h with rfl | rfl
    · rw [if_pos rfl]
    · rw [if_neg (by decide), if_pos rfl]
  rw [hvalue]
  rfl

theorem twoEdits_entries (first second : Int) :
    (twoEdits first second).entries letterEnv = .ok [(letterKey first, "a"), (letterKey second, "b")] := by
  unfold twoEdits Call.entries
  dsimp only
  rw [List.mapM_cons, editEntry_letter "a" first (.inl rfl), List.mapM_cons, editEntry_letter "b" second (.inr rfl)]
  rfl

/-- Edits in different seconds are both kept. -/
theorem recorded_kept_edits :
    (record (identity .reference) letterEnv "d.ndb" quiet (twoEdits 0 1) ∅).1 = some (.ok ()) ∧
      (∀ entry ∈ (Run.exec (History.step (identity .reference) letterEnv "d.ndb") ⟨∅, []⟩
          [(twoEdits 0 1, quiet)]).recorded,
        Retrievable (identity .reference) "d.ndb" (Run.exec (History.step (identity .reference)
          letterEnv "d.ndb") ⟨∅, []⟩ [(twoEdits 0 1, quiet)]).disk entry) ∧
      ((Run.exec (History.step (identity .reference) letterEnv "d.ndb") ⟨∅, []⟩
        [(twoEdits 0 1, quiet)]).recorded.map Prod.fst).Nodup := by
  obtain ⟨disk, db, hrecord, -, -⟩ := exists_record letterEnv (twoEdits_entries 0 1)
  refine ⟨congrArg Prod.fst hrecord, recorded_kept _ _ _ (Serde.identity_roundTrips _) letterEnv_lawful (by decide) ∅ _
    ⟨?_, trivial⟩⟩
  intro entries loaded hentries hloads _
  obtain rfl := Except.ok.inj ((twoEdits_entries 0 1).symm.trans hentries)
  obtain ⟨made, hensure, hsnapshot, -⟩ := exists_ensureDb letterEnv
  unfold Loads at hloads
  dsimp only at hloads
  rw [hensure, loadDb_of_snapshotAt letterEnv hsnapshot] at hloads
  obtain rfl := Except.ok.inj (Option.some.inj hloads)
  refine ⟨by decide, fun key _ => Std.ExtTreeMap.getElem?_empty, by decide⟩

/-- Of two edits within one second the first is lost. -/
theorem edit_overwritten :
    (record (identity .reference) letterEnv "d.ndb" quiet (twoEdits 0 0) ∅).1 = some (.ok ()) ∧
      ¬ (∀ entry ∈ (Run.exec (History.step (identity .reference) letterEnv "d.ndb") ⟨∅, []⟩
          [(twoEdits 0 0, quiet)]).recorded,
        Retrievable (identity .reference) "d.ndb" (Run.exec (History.step (identity .reference)
          letterEnv "d.ndb") ⟨∅, []⟩ [(twoEdits 0 0, quiet)]).disk entry) ∧
      ¬ ((Run.exec (History.step (identity .reference) letterEnv "d.ndb") ⟨∅, []⟩
        [(twoEdits 0 0, quiet)]).recorded.map Prod.fst).Nodup := by
  obtain ⟨disk, db, hrecord, hcommit, hsnapshot⟩ := exists_record letterEnv (twoEdits_entries 0 0)
  have hheld : Holds db (letterKey 0, "b") := holds_second hcommit rfl
  have hstep : History.step (identity .reference) letterEnv "d.ndb" ⟨∅, []⟩ (twoEdits 0 0, quiet) =
      ⟨disk, [] ++ ((twoEdits 0 0).entries letterEnv).toOption.getD []⟩ := History.step_of_ok hrecord
  rw [Run.exec_cons, Run.exec_nil, hstep, twoEdits_entries]
  refine ⟨congrArg Prod.fst hrecord, fun hall => ?_, fun hdistinct => ?_⟩
  · obtain ⟨saved, hsaved, hfirst, -⟩ := hall (letterKey 0, "a") List.mem_cons_self
    have hsecond := (hheld.of_snapshot (hsnapshot.snapshotOf_eq hsaved)).getTyped
    have hpayload : "a" = "b" := TypedValue.json.inj (Option.some.inj (hfirst.symm.trans hsecond))
    exact absurd hpayload (by decide)
  · have hkeys : [letterKey 0, letterKey 0].Nodup := hdistinct
    exact (List.nodup_cons.mp hkeys).1 (List.mem_singleton_self _)

end AgentHalo.Discord
