import AgentHalo.Engine.Protocol
import AgentHalo.Persistence.Redb

/-!
# Snapshots and the write-ahead log

A snapshot is one record with everything but the witness keys. The log of a database is a metadata record with the state
when the log was opened, and one event for each commit since, keyed by the number of entries after it. `loadWal` opens a
new database and applies the events in key order. `truncateWal` opens a new log beside the old one and renames it over it.
Both loads open the database under the default parameters first; `none` is the panic of `new` when these do not fit.
-/

namespace AgentHalo.Persistence

open Engine Engine.NucleusDb
open Store (KeyMap TypeMap BlobStore VectorIndex)
open Transparency (SignedTreeHead)

variable {P : Platform}

/-! ### Records -/

structure SnapshotV1 (P : Platform) where
  schema : String
  backend : VcBackend
  securityParams : ParameterSet
  reductionContracts : List ReductionContract
  kzgTrustedSetup : Option TrustedSetupArtifact
  state : State
  entries : List CommitEntry
  ctLeaves : List NodeHash
  currentSth : Option SignedTreeHead
  keymap : Option KeyMap
  writeMode : WriteMode
  monotoneSeals : List NodeHash
  typeMap : Option TypeMap
  blobStore : Option (BlobStore P.f64)
  vectorIndex : Option (VectorIndex P.f64)

structure WalMetaV1 (P : Platform) where
  schema : String
  backend : VcBackend
  securityParams : ParameterSet
  reductionContracts : List ReductionContract
  kzgTrustedSetup : Option TrustedSetupArtifact
  initialState : State
  keymap : Option KeyMap
  writeMode : WriteMode
  typeMap : Option TypeMap
  blobStore : Option (BlobStore P.f64)
  vectorIndex : Option (VectorIndex P.f64)

structure WalEventV1 where
  schema : String
  seq : Nat
  delta : Delta
  entry : CommitEntry
  ctLeaf : NodeHash

def snapshotSchema : String := "nucleusdb/persistence-snapshot/v1"
def walMetaSchema : String := "nucleusdb/persistence-wal-meta/v1"
def walEventSchema : String := "nucleusdb/persistence-wal-event/v1"

/-- The serializers of the three record types. -/
structure Serde (P : Platform) where
  snapshot : Codec (SnapshotV1 P)
  walMeta : Codec (WalMetaV1 P)
  walEvent : Codec WalEventV1

structure Serde.RoundTrips (S : Serde P) : Prop where
  snapshot : S.snapshot.RoundTrips
  walMeta : S.walMeta.RoundTrips
  walEvent : S.walEvent.RoundTrips

/-- Every record can be serialized. -/
structure Serde.Writes (S : Serde P) : Prop where
  snapshot : ∀ r, ∃ raw, S.snapshot.toVec r = .ok raw
  walMeta : ∀ r, ∃ raw, S.walMeta.toVec r = .ok raw
  walEvent : ∀ r, ∃ raw, S.walEvent.toVec r = .ok raw

def Serde.identity (P : Platform) : Serde P := ⟨.identity _, .identity _, .identity _⟩

theorem Serde.identity_roundTrips (P : Platform) : (Serde.identity P).RoundTrips :=
  ⟨Codec.identity_roundTrips _, Codec.identity_roundTrips _, Codec.identity_roundTrips _⟩

theorem Serde.identity_writes (P : Platform) : (Serde.identity P).Writes :=
  ⟨fun r => ⟨r, rfl⟩, fun r => ⟨r, rfl⟩, fun r => ⟨r, rfl⟩⟩

/-- Files holding the records of these serializers. -/
abbrev Serde.File (S : Serde P) := RedbFile S.snapshot.Raw S.walMeta.Raw S.walEvent.Raw

abbrev Serde.Files (S : Serde P) := Disk S.snapshot.Raw S.walMeta.Raw S.walEvent.Raw

variable (S : Serde P)

/-! ### Snapshots -/

def snapshotOf (db : NucleusDb P) : SnapshotV1 P where
  schema := snapshotSchema
  backend := db.backend
  securityParams := db.securityParams
  reductionContracts := db.reductionContracts
  kzgTrustedSetup := db.kzgTrustedSetup
  state := db.state
  entries := db.entries
  ctLeaves := db.ctLeaves
  currentSth := db.currentSth
  keymap := some db.keymap
  writeMode := db.writeMode
  monotoneSeals := db.monotoneSeals
  typeMap := some db.typeMap
  blobStore := some db.blobStore
  vectorIndex := some db.vectorIndex

def saveSnapshot (path : String) (db : NucleusDb P) (fault : Option Fault) (disk : S.Files) :
    Except PersistenceError Unit × S.Files :=
  disk.transact path fault fun f =>
    match S.snapshot.toVec (snapshotOf db) with
    | .error e => .error (.json e)
    | .ok raw => .ok { f with snapshot := some (some raw) }

def loadSnapshot (path : String) (witnessCfg : WitnessConfig P) (clock : Clock) (disk : S.Files) :
    Option (Except PersistenceError (NucleusDb P)) :=
  match disk[path]? with
  | none => some (.error (.redb "No such file or directory (os error 2)"))
  | some f =>
    match f.snapshot with
    | none => some (.error (.redb "Table 'nucleusdb_snapshot' does not exist"))
    | some none => some (.error .missingSnapshot)
    | some (some raw) =>
      match S.snapshot.fromSlice raw with
      | .error e => some (.error (.json e))
      | .ok snapshot =>
        if snapshot.schema ≠ snapshotSchema then some (.error (.schemaMismatch snapshotSchema snapshot.schema))
        else
          (NucleusDb.new snapshot.state snapshot.backend witnessCfg clock).map fun db =>
            .ok { db with
              securityParams := snapshot.securityParams
              reductionContracts := snapshot.reductionContracts
              kzgTrustedSetup := snapshot.kzgTrustedSetup
              state := snapshot.state
              entries := snapshot.entries
              ctLeaves := snapshot.ctLeaves
              currentSth := snapshot.currentSth
              keymap := snapshot.keymap.getD KeyMap.new
              writeMode := snapshot.writeMode
              monotoneSeals := snapshot.monotoneSeals
              typeMap := snapshot.typeMap.getD TypeMap.new
              blobStore := snapshot.blobStore.getD (BlobStore.new P.f64 clock.blob)
              vectorIndex := snapshot.vectorIndex.getD (VectorIndex.new P.f64 clock.vector) }

/-! ### The log -/

def walMetaOf (db : NucleusDb P) : WalMetaV1 P where
  schema := walMetaSchema
  backend := db.backend
  securityParams := db.securityParams
  reductionContracts := db.reductionContracts
  kzgTrustedSetup := db.kzgTrustedSetup
  initialState := db.state
  keymap := some db.keymap
  writeMode := db.writeMode
  typeMap := some db.typeMap
  blobStore := some db.blobStore
  vectorIndex := some db.vectorIndex

/-- What `init_wal` compares of the metadata it finds; the events are not looked at. -/
def WalMetaV1.matches (got expected : WalMetaV1 P) : Bool :=
  got.backend = expected.backend && got.securityParams = expected.securityParams &&
    got.reductionContracts = expected.reductionContracts && got.kzgTrustedSetup = expected.kzgTrustedSetup &&
    got.initialState = expected.initialState &&
    got.keymap.getD KeyMap.new = expected.keymap.getD KeyMap.new

/-- The transaction of `init_wal`: both tables exist afterwards. -/
def initWalBody (db : NucleusDb P) (f : S.File) : Except PersistenceError S.File :=
  let opened := { f with walMeta := some f.meta?, walEvents := some f.events }
  let expected := walMetaOf db
  match f.meta? with
  | some raw =>
    match S.walMeta.fromSlice raw with
    | .error e => .error (.json e)
    | .ok got =>
      if got.schema ≠ walMetaSchema then .error (.schemaMismatch walMetaSchema got.schema)
      else if !got.matches expected then
        .error (.walMetaMismatch "existing WAL metadata does not match tenant configuration")
      else .ok opened
  | none =>
    match S.walMeta.toVec expected with
    | .error e => .error (.json e)
    | .ok raw => .ok { opened with walMeta := some (some raw) }

def initWal (path : String) (db : NucleusDb P) (fault : Option Fault) (disk : S.Files) :
    Except PersistenceError Unit × S.Files :=
  disk.transact path fault (initWalBody S db)

/-- The event of a commit, keyed by the entries the database has after it. -/
def eventOf (delta : Delta) (db : NucleusDb P) (entry : CommitEntry) (ctLeaf : NodeHash) : WalEventV1 :=
  { schema := walEventSchema, seq := db.entries.length, delta, entry, ctLeaf }

/-- The transaction of `append_wal_event`. -/
def appendWalEventBody (delta : Delta) (db : NucleusDb P) (entry : CommitEntry) (f : S.File) :
    Except PersistenceError S.File :=
  match f.meta? with
  | none => .error .missingWalMeta
  | some metaRaw =>
    match S.walMeta.fromSlice metaRaw with
    | .error e => .error (.json e)
    | .ok metaVal =>
      if metaVal.schema ≠ walMetaSchema then .error (.schemaMismatch walMetaSchema metaVal.schema)
      else
        match db.ctLeaves.getLast? with
        | none => .error (.walMetaMismatch "cannot append WAL event: ct_leaves is empty after commit")
        | some ctLeaf =>
          match S.walEvent.toVec (eventOf delta db entry ctLeaf) with
          | .error e => .error (.json e)
          | .ok raw => .ok { f with walMeta := some f.meta?, walEvents := some (f.events.insert db.entries.length raw) }

def appendWalEvent (path : String) (delta : Delta) (db : NucleusDb P) (entry : CommitEntry) (fault : Option Fault)
    (disk : S.Files) : Except PersistenceError Unit × S.Files :=
  disk.transact path fault (appendWalEventBody S delta db entry)

/-- What an event does to the database it is replayed on. -/
def applyEvent (db : NucleusDb P) (event : WalEventV1) : NucleusDb P :=
  { db with
    state := apply db.state event.delta
    entries := db.entries ++ [event.entry]
    ctLeaves := db.ctLeaves ++ [event.ctLeaf]
    currentSth := some event.entry.sth }

/-- One event, checked against its key and applied. -/
def replayEvent (db : NucleusDb P) (keySeq : Nat) (event : WalEventV1) : Except PersistenceError (NucleusDb P) :=
  if event.schema ≠ walEventSchema then .error (.schemaMismatch walEventSchema event.schema)
  else if event.seq ≠ keySeq then
    .error (.walMetaMismatch ("WAL event sequence mismatch for key " ++ toString keySeq ++ ": payload has "
      ++ toString event.seq))
  else if event.entry.height ≠ keySeq then
    .error (.walMetaMismatch ("WAL event commit height mismatch for key " ++ toString keySeq ++ ": entry has height "
      ++ toString event.entry.height))
  else .ok (applyEvent db event)

/-- The events of the table, in key order. -/
def replayEvents (db : NucleusDb P) : List (Nat × S.walEvent.Raw) → Except PersistenceError (NucleusDb P)
  | [] => .ok db
  | (keySeq, raw) :: rest =>
    match S.walEvent.fromSlice raw with
    | .error e => .error (.json e)
    | .ok event =>
      match replayEvent db keySeq event with
      | .error e => .error e
      | .ok db => replayEvents db rest

/-- The database a log starts from, over the one that `new` opened. -/
def restoreMeta (walMeta : WalMetaV1 P) (clock : Clock) (db : NucleusDb P) : NucleusDb P :=
  { db with
    securityParams := walMeta.securityParams
    reductionContracts := walMeta.reductionContracts
    kzgTrustedSetup := walMeta.kzgTrustedSetup
    state := walMeta.initialState
    keymap := walMeta.keymap.getD KeyMap.new
    writeMode := walMeta.writeMode
    typeMap := walMeta.typeMap.getD TypeMap.new
    blobStore := walMeta.blobStore.getD (BlobStore.new P.f64 clock.blob)
    vectorIndex := walMeta.vectorIndex.getD (VectorIndex.new P.f64 clock.vector) }

def loadWal (path : String) (witnessCfg : WitnessConfig P) (clock : Clock) (disk : S.Files) :
    Option (Except PersistenceError (NucleusDb P)) :=
  match disk[path]? with
  | none => some (.error (.redb "No such file or directory (os error 2)"))
  | some f =>
    match f.walMeta, f.walEvents with
    | none, _ => some (.error (.redb "Table 'nucleusdb_wal_meta' does not exist"))
    | some _, none => some (.error (.redb "Table 'nucleusdb_wal_events' does not exist"))
    | some none, some _ => some (.error .missingWalMeta)
    | some (some metaRaw), some events =>
      match S.walMeta.fromSlice metaRaw with
      | .error e => some (.error (.json e))
      | .ok walMeta =>
        if walMeta.schema ≠ walMetaSchema then some (.error (.schemaMismatch walMetaSchema walMeta.schema))
        else
          (NucleusDb.new walMeta.initialState walMeta.backend witnessCfg clock).map fun db =>
            replayEvents S (restoreMeta walMeta clock db) events.toList

/-- What can fail in a truncation: opening the new log, and the steps of moving it over the old one. -/
structure TruncateFaults where
  init : Option Fault := none
  rename : Option String := none
  remove : Option String := none
  renameAgain : Option String := none

/-- The path of the new log, stamped with the wall clock in nanoseconds. -/
def swapPath (path : String) (nanos : Nat) : String := withExtension path ("swap." ++ toString nanos ++ ".tmp")

def truncateWal (path : String) (db : NucleusDb P) (nanos : Nat) (faults : TruncateFaults) (disk : S.Files) :
    Except PersistenceError Unit × S.Files :=
  let tmpPath := swapPath path nanos
  match initWal S tmpPath db faults.init disk with
  | (.error e, disk) => (.error e, disk)
  | (.ok (), disk) =>
    match faults.rename with
    | none => (.ok (), disk.rename tmpPath path)
    | some firstErr =>
      if disk[path]?.isSome then
        match faults.remove, faults.renameAgain with
        | some e, _ => (.error (.io e), disk)
        | none, some e => (.error (.io e), disk.erase path)
        | none, none =>
          if (disk.erase path)[tmpPath]?.isSome then (.ok (), Disk.rename (disk.erase path) tmpPath path)
          else (.error (.io "No such file or directory (os error 2)"), disk.erase path)
      else (.error (.io firstErr), disk.erase tmpPath)

end AgentHalo.Persistence
