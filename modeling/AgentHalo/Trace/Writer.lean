import AgentHalo.Attest.Session
import AgentHalo.Persistence.Checkpoint
import AgentHalo.Vcs.Reading

/-!
# The trace writer

A writer loads the trace database when it is made, commits sessions, events and paid operations to its own copy, and saves
the whole copy at the end of a session and after each paid operation. A record is a blob: its JSON form in words of eight
bytes, each in a cell of its own, and its length in another; the readers find the blobs by scanning the keys.

The JSON forms, the calendar and the texts of `Debug` are parameters. `none` is a panic: of the commitment backend, of a
witness configuration that a database does not take, or of a counter that overflows.
-/

namespace AgentHalo.Trace

open Attest (TraceDb readBlob readValueByKeyFromDb eventSeqs sessionPrefix eventBaseKey)
open Engine (NucleusDb WitnessConfig CommitError Clock)
open Engine.NucleusDb
open Identity (hashHex)
open Persistence
open Slices (sliceChunks padTo)
open Text (trim fromLeBytes startsWith endsWith stripPrefix splitOnce trimEndMatchesStr eqIgnoreAsciiCase)
open Vcs.WorkRecordStore (registerWrites)

/-! ### Records -/

inductive SessionStatus where
  | running
  | completed
  | failed
  | interrupted
deriving DecidableEq, Repr

structure SessionMetadata where
  sessionId : String
  agent : String
  model : Option String
  startedAt : UInt64
  endedAt : Option UInt64
  prompt : Option String
  status : SessionStatus
  userId : Option String
  machineId : Option String
  pufDigest : Option String
deriving DecidableEq, Repr

inductive EventType where
  | agentInitialized
  | promptSent
  | responseReceived
  | agentDeinitialized
  | thinking
  | assistant
  | toolCall
  | toolResult
  | mcpToolCall
  | mcpToolResult
  | fileChange
  | bashCommand
  | genesisHarvest
  | error
  | subagentSpawn
  | systemMessage
  | raw
deriving DecidableEq, Repr

structure TraceEvent (P : Platform) where
  seq : UInt64
  timestamp : UInt64
  eventType : EventType
  content : P.json.Value
  inputTokens : Option UInt64
  outputTokens : Option UInt64
  cacheReadTokens : Option UInt64
  toolName : Option String
  toolInput : Option P.json.Value
  toolOutput : Option P.json.Value
  filePath : Option String
  contentHash : String

structure SessionSummary (P : Platform) where
  totalInputTokens : UInt64
  totalOutputTokens : UInt64
  totalCacheReadTokens : UInt64
  estimatedCostUsd : P.f64.F
  toolCalls : UInt64
  mcpToolCalls : UInt64
  filesModified : UInt64
  filesCreated : UInt64
  filesRead : UInt64
  bashCommands : UInt64
  errors : UInt64
  subagentsSpawned : UInt64
  eventCount : UInt64
  durationSecs : UInt64
  model : Option String

structure PaidOperation (P : Platform) where
  operationId : String
  timestamp : UInt64
  operationType : String
  creditsSpent : UInt64
  usdEquivalent : P.f64.F
  sessionId : Option String
  resultDigest : Option String
  success : Bool
  error : Option String

structure ModelPricing (P : Platform) where
  inputPerMtok : P.f64.F
  outputPerMtok : P.f64.F
  cacheReadPerMtok : Option P.f64.F

/-- What the trace calls that is not its own: `serde_json`, `chrono`, and the derived `Debug` forms. -/
structure TraceEnv (P : Platform) where
  eventToVec : TraceEvent P → Except String Bytes
  eventFromSlice : Bytes → Option (TraceEvent P)
  metadataToVec : SessionMetadata → Except String Bytes
  metadataFromSlice : Bytes → Option SessionMetadata
  summaryToVec : SessionSummary P → Except String Bytes
  paidToVec : PaidOperation P → Except String Bytes
  paidFromSlice : Bytes → Option (PaidOperation P)
  /-- `value.get(field).and_then(|v| v.as_str())`. -/
  strField : P.json.Value → String → Option String
  dayLabel : UInt64 → String
  monthLabel : UInt64 → String
  /-- `x.round() as u64`. -/
  roundU64 : P.f64.F → UInt64
  debugPersistence : PersistenceError → String
  debugCommit : CommitError → String

/-- Readings of the clocks during a call. -/
structure Tick where
  secs : UInt64
  commit : Nat
  nanos : Nat
deriving DecidableEq, Repr

variable {P : Platform}

/-! ### Keys and blobs -/

def summaryPrefix : String := "halo:summary:"
def idxAgentPrefix : String := "halo:idx:agent:"
def idxDatePrefix : String := "halo:idx:date:"
def idxModelPrefix : String := "halo:idx:model:"
def costsDailyPrefix : String := "halo:costs:daily:"
def costsMonthlyPrefix : String := "halo:costs:monthly:"
def paidOpsPrefix : String := "halo:paid:"
def paidDailyPrefix : String := "halo:paid:daily:"
def skillPrefix : String := "skill:"

def sessionBaseKey (sessionId : String) : String := sessionPrefix ++ sessionId
def summaryBaseKey (sessionId : String) : String := summaryPrefix ++ sessionId
def paidBaseKey (operationId : String) : String := paidOpsPrefix ++ operationId

def bytesToU64Chunks (bytes : Bytes) : List UInt64 := (sliceChunks 8 bytes).map fun piece => fromLeBytes (padTo 8 piece)

/-- The writes of `append_blob_writes`. -/
def blobWrites (baseKey : String) (payload : Bytes) : List (String × UInt64) :=
  (baseKey ++ ":len", UInt64.ofNat payload.length) ::
    (bytesToU64Chunks payload).mapIdx fun idx chunk => (baseKey ++ ":chunk:" ++ toString idx, chunk)

def traceDb (db : NucleusDb P) : TraceDb := ⟨db.keymap, db.state⟩

/-! ### The writer -/

structure TraceWriter (P : Platform) where
  sessionId : String
  db : NucleusDb P
  dbPath : String
  walPath : String
  seq : UInt64
  summary : SessionSummary P
  sessionMeta : Option SessionMetadata
  pricing : String → Option (ModelPricing P)

def SessionSummary.default : SessionSummary P where
  totalInputTokens := 0
  totalOutputTokens := 0
  totalCacheReadTokens := 0
  estimatedCostUsd := P.f64.ofNat 0
  toolCalls := 0
  mcpToolCalls := 0
  filesModified := 0
  filesCreated := 0
  filesRead := 0
  bashCommands := 0
  errors := 0
  subagentsSpawned := 0
  eventCount := 0
  durationSecs := 0
  model := none

variable (P) in
/-- The witnesses of the command line; `seedEnv` is `NUCLEUSDB_WITNESS_SEED`, `allowedEnv` the algorithms let in. -/
def haloWitnessCfg (allowedEnv seedEnv : Option String) : WitnessConfig P :=
  { WitnessConfig.withSeed P allowedEnv 2 ["w1", "w2", "w3"]
      ((seedEnv.filter fun v => trim v != "").getD "nucleusdb-cli-default-seed-v1") with
    signingAlgorithm := .mlDsa65 }

section Load

variable (S : Serde P) (E : TraceEnv P)

/-- `load_db`: the snapshot, or a new database where there is no file. -/
def loadDb (dbPath : String) (cfg : WitnessConfig P) (clock : Clock) (disk : S.Files) :
    Option (Except String (NucleusDb P)) :=
  if disk[dbPath]?.isSome then
    (loadSnapshot S dbPath cfg clock disk).map fun r =>
      r.mapError fun e => "load snapshot " ++ dbPath ++ ": " ++ E.debugPersistence e
  else (NucleusDb.new ⟨[]⟩ .binaryMerkle cfg clock).map .ok

/-- `TraceWriter::new`; `pricing` is what the pricing file reads as. -/
def TraceWriter.new (dbPath : String) (cfg : WitnessConfig P) (clock : Clock)
    (pricing : Except String (String → Option (ModelPricing P))) (tick : Tick) (disk : S.Files) :
    Option (Except String (TraceWriter P)) × S.Files :=
  match loadDb S E dbPath cfg clock disk with
  | none => (none, disk)
  | some (.error e) => (some (.error e), disk)
  | some (.ok db) =>
    match initWal S (defaultWalPath dbPath) db none disk with
    | (.error e, disk) => (some (.error ("init WAL " ++ defaultWalPath dbPath ++ ": " ++ E.debugPersistence e)), disk)
    | (.ok (), disk) =>
      match pricing with
      | .error e => (some (.error e), disk)
      | .ok pricing =>
        (some (.ok
          { sessionId := "sess-" ++ toString tick.secs
            db
            dbPath
            walPath := defaultWalPath dbPath
            seq := 0
            summary := .default
            sessionMeta := none
            pricing }), disk)

end Load

/-- Rust's `+` under the check for overflow. -/
def checkedAdd (a b : UInt64) : Option UInt64 := if a.toNat + b.toNat < 2 ^ 64 then some (a + b) else none

def saturatingAdd (a b : UInt64) : UInt64 := (checkedAdd a b).getD (UInt64.ofNat (2 ^ 64 - 1))

def saturatingSub (a b : UInt64) : UInt64 := if b ≤ a then a - b else 0

variable (E : TraceEnv P)

def eventContentHash (content : P.json.Value) : String := hashHex P .current (P.json.toVec content)

/-- An event as it is recorded. -/
def TraceEvent.stamped (event : TraceEvent P) (seq now : UInt64) : TraceEvent P :=
  { event with
    seq
    timestamp := if event.timestamp = 0 then now else event.timestamp
    contentHash := if trim event.contentHash = "" then eventContentHash event.content else event.contentHash }

/-- What the type of an event counts. -/
def SessionSummary.countType (summary : SessionSummary P) (event : TraceEvent P) : Option (SessionSummary P) :=
  match event.eventType with
  | .toolCall => (checkedAdd summary.toolCalls 1).map fun n => { summary with toolCalls := n }
  | .mcpToolCall => (checkedAdd summary.mcpToolCalls 1).map fun n => { summary with mcpToolCalls := n }
  | .fileChange =>
    let op := (E.strField event.content "op").getD "modify"
    if eqIgnoreAsciiCase op "create" then do
      let created ← checkedAdd summary.filesCreated 1
      let modified ← checkedAdd summary.filesModified 1
      return { summary with filesCreated := created, filesModified := modified }
    else if eqIgnoreAsciiCase op "read" then
      (checkedAdd summary.filesRead 1).map fun n => { summary with filesRead := n }
    else (checkedAdd summary.filesModified 1).map fun n => { summary with filesModified := n }
  | .bashCommand => (checkedAdd summary.bashCommands 1).map fun n => { summary with bashCommands := n }
  | .error => (checkedAdd summary.errors 1).map fun n => { summary with errors := n }
  | .subagentSpawn => (checkedAdd summary.subagentsSpawned 1).map fun n => { summary with subagentsSpawned := n }
  | _ => some summary

def SessionSummary.count (summary : SessionSummary P) (event : TraceEvent P) : Option (SessionSummary P) := do
  let input ← checkedAdd summary.totalInputTokens (event.inputTokens.getD 0)
  let output ← checkedAdd summary.totalOutputTokens (event.outputTokens.getD 0)
  let cache ← checkedAdd summary.totalCacheReadTokens (event.cacheReadTokens.getD 0)
  let events ← checkedAdd summary.eventCount 1
  SessionSummary.countType E
    { summary with
      totalInputTokens := input
      totalOutputTokens := output
      totalCacheReadTokens := cache
      eventCount := events } event

def calculateCost (model : String) (inputTokens outputTokens cacheTokens : UInt64)
    (pricing : String → Option (ModelPricing P)) : P.f64.F :=
  let zero := P.f64.ofNat 0
  let p := (pricing model).getD ⟨zero, zero, none⟩
  let cost (tokens : UInt64) (perMtok : P.f64.F) : P.f64.F :=
    P.f64.mul (P.f64.div (P.f64.ofNat tokens.toNat) (P.f64.ofNat 1000000)) perMtok
  P.f64.add (P.f64.add (cost inputTokens p.inputPerMtok) (cost outputTokens p.outputPerMtok))
    (cost cacheTokens (p.cacheReadPerMtok.getD zero))

/-- Register the keys and commit the writes, on any copy of the database. -/
def commitTo (db : NucleusDb P) (writes : List (String × UInt64)) (now : Nat) :
    Option (Except CommitError Unit) × NucleusDb P :=
  let (delta, keymap) := registerWrites db.keymap writes
  match commit { db with keymap } ⟨delta⟩ [] now with
  | none => (none, { db with keymap })
  | some (.error e, db) => (some (.error e), db)
  | some (.ok _, db) => (some (.ok ()), db)

namespace TraceWriter

def commitWrites (w : TraceWriter P) (writes : List (String × UInt64)) (now : Nat) :
    Option (Except String Unit) × TraceWriter P :=
  if writes.isEmpty then (some (.ok ()), w)
  else
    match commitTo w.db writes now with
    | (r, db) => (r.map fun r => r.mapError fun e => "commit trace data: " ++ E.debugCommit e, { w with db })

def sessionIndexWrites (sessionMeta : SessionMetadata) : List (String × UInt64) :=
  let tail := ":" ++ toString sessionMeta.startedAt ++ ":" ++ sessionMeta.sessionId
  (idxAgentPrefix ++ sessionMeta.agent ++ tail, 1) ::
    (idxDatePrefix ++ E.dayLabel sessionMeta.startedAt ++ tail, 1) ::
    (sessionMeta.model.map fun model => (idxModelPrefix ++ model ++ tail, (1 : UInt64))).toList

def startSession (w : TraceWriter P) (sessionMeta : SessionMetadata) (tick : Tick) :
    Option (Except String Unit) × TraceWriter P :=
  let w := { w with
    sessionId := sessionMeta.sessionId
    seq := 0
    summary := { SessionSummary.default with model := sessionMeta.model } }
  match E.metadataToVec sessionMeta with
  | .error e => (some (.error ("serialize session metadata: " ++ e)), w)
  | .ok raw =>
    match w.commitWrites E (blobWrites (sessionBaseKey sessionMeta.sessionId) raw ++ sessionIndexWrites E sessionMeta)
        tick.commit with
    | (some (.ok ()), w) => (some (.ok ()), { w with sessionMeta := some sessionMeta })
    | (r, w) => (r, w)

def updateSessionModel (w : TraceWriter P) (model : String) : TraceWriter P :=
  { w with
    sessionMeta := w.sessionMeta.map fun sessionMeta => { sessionMeta with model := some model }
    summary := { w.summary with model := some model } }

def writeEvent (w : TraceWriter P) (event : TraceEvent P) (tick : Tick) :
    Option (Except String Unit) × TraceWriter P :=
  if w.sessionMeta.isNone then (some (.error "session not started"), w)
  else
    match checkedAdd w.seq 1 with
    | none => (none, w)
    | some seq =>
      let event := event.stamped seq tick.secs
      match w.summary.count E event with
      | none => (none, { w with seq })
      | some summary =>
        let w := { w with seq, summary }
        match E.eventToVec event with
        | .error e => (some (.error ("serialize trace event: " ++ e)), w)
        | .ok raw => w.commitWrites E (blobWrites (eventBaseKey w.sessionId seq) raw) tick.commit

/-- The counters under a prefix, moved on by the session; a counter that is not there is zero. -/
def costAggregateWrites (w : TraceWriter P) (root : String) : List (String × UInt64) :=
  let next (suffix : String) (n : UInt64) : String × UInt64 :=
    (root ++ suffix, saturatingAdd ((readValueByKeyFromDb (traceDb w.db) (root ++ suffix)).getD 0) n)
  let costX10000 := E.roundU64 (P.f64.mul w.summary.estimatedCostUsd (P.f64.ofNat 10000))
  [next ":sessions" 1, next ":input_tokens" w.summary.totalInputTokens,
    next ":output_tokens" w.summary.totalOutputTokens, next ":cache_tokens" w.summary.totalCacheReadTokens,
    next ":cost_x10000" costX10000]

/-- The metadata and the summary at the end of a session. -/
def ended (w : TraceWriter P) (sessionMeta : SessionMetadata) (status : SessionStatus) (now : UInt64) :
    SessionMetadata × SessionSummary P :=
  ({ sessionMeta with endedAt := some now, status },
    { w.summary with
      durationSecs := saturatingSub now sessionMeta.startedAt
      model := sessionMeta.model
      estimatedCostUsd := calculateCost (sessionMeta.model.getD "") w.summary.totalInputTokens
        w.summary.totalOutputTokens w.summary.totalCacheReadTokens w.pricing })

/-- The writes at the end of a session, `w` having its final summary. -/
def endWrites (w : TraceWriter P) (sessionMeta : SessionMetadata) (rawMeta rawSummary : Bytes) (now : UInt64) :
    List (String × UInt64) :=
  blobWrites (sessionBaseKey sessionMeta.sessionId) rawMeta ++ blobWrites (summaryBaseKey sessionMeta.sessionId) rawSummary ++
    w.costAggregateWrites E (costsDailyPrefix ++ E.dayLabel now) ++
    w.costAggregateWrites E (costsMonthlyPrefix ++ E.monthLabel now)

section Save

variable (S : Serde P)

def save (w : TraceWriter P) (tick : Tick) (faults : PersistFaults) (disk : S.Files) :
    Except String Unit × S.Files :=
  match persistSnapshotAndSyncWal S w.dbPath w.walPath w.db tick.nanos faults disk with
  | (r, disk) => (r.mapError fun e => "persist trace DB " ++ w.dbPath ++ ": " ++ E.debugPersistence e, disk)

/-- Commit the writes and save the database. -/
def commitAndSave (w : TraceWriter P) (writes : List (String × UInt64)) (tick : Tick) (faults : PersistFaults)
    (disk : S.Files) : Option (Except String Unit) × TraceWriter P × S.Files :=
  match w.commitWrites E writes tick.commit with
  | (some (.ok ()), w) =>
    match w.save E S tick faults disk with
    | (r, disk) => (some r, w, disk)
  | (r, w) => (r, w, disk)

/-- The push of the session to the library, which reads the file and does not write it, is left out. -/
def endSession (w : TraceWriter P) (status : SessionStatus) (tick : Tick) (faults : PersistFaults) (disk : S.Files) :
    Option (Except String (SessionSummary P)) × TraceWriter P × S.Files :=
  match w.sessionMeta with
  | none => (some (.error "session not started"), w, disk)
  | some sessionMeta =>
    let (sessionMeta, summary) := w.ended sessionMeta status tick.secs
    let w := { w with summary }
    match E.metadataToVec sessionMeta with
    | .error e => (some (.error ("serialize final metadata: " ++ e)), w, disk)
    | .ok rawMeta =>
      match E.summaryToVec summary with
      | .error e => (some (.error ("serialize summary: " ++ e)), w, disk)
      | .ok rawSummary =>
        match w.commitAndSave E S (w.endWrites E sessionMeta rawMeta rawSummary tick.secs) tick faults disk with
        | (r, w, disk) => (r.map fun r => r.map fun _ => summary, w, disk)

def paidWrites (op : PaidOperation P) (raw : Bytes) : List (String × UInt64) :=
  blobWrites (paidBaseKey op.operationId) raw ++
    [(paidDailyPrefix ++ E.dayLabel op.timestamp ++ ":" ++ op.operationId, op.creditsSpent)]

def recordPaidOperation (w : TraceWriter P) (op : PaidOperation P) (tick : Tick) (faults : PersistFaults)
    (disk : S.Files) : Option (Except String Unit) × TraceWriter P × S.Files :=
  match E.paidToVec op with
  | .error e => (some (.error ("serialize paid operation: " ++ e)), w, disk)
  | .ok raw => w.commitAndSave E S (paidWrites E op raw) tick faults disk

end Save

end TraceWriter

/-! ### Readers -/

def loadTrace (S : Serde P) (dbPath : String) (cfg : WitnessConfig P) (clock : Clock) (disk : S.Files) :
    Option (Except String TraceDb) :=
  (loadDb S E dbPath cfg clock disk).map fun r => r.map traceDb

/-- The blobs whose base key begins with a prefix, in key order. The base is the key with every `:len` at its end taken
off. -/
def scanBlobs (keyPrefix : String) (db : TraceDb) : Except String (List (Option Bytes)) :=
  (db.keymap.allKeys.filterMap fun entry =>
    if startsWith entry.1 keyPrefix && endsWith entry.1 ":len" then some (trimEndMatchesStr ":len" entry.1) else none).mapM
      (readBlob db)

/-- A blob that does not parse is left out. -/
def parseBlobs {α : Type} (fromSlice : Bytes → Option α) (blobs : List (Option Bytes)) : List α :=
  blobs.filterMap fun blob => blob.bind fromSlice

def listSessions (db : TraceDb) : Except String (List SessionMetadata) := do
  let blobs ← scanBlobs sessionPrefix db
  return (parseBlobs E.metadataFromSlice blobs).mergeSort fun a b => b.startedAt ≤ a.startedAt

def sessionEvents (db : TraceDb) (sessionId : String) : Except String (List (TraceEvent P)) := do
  let blobs ← (eventSeqs db sessionId).mapM fun seq => readBlob db (eventBaseKey sessionId seq)
  return parseBlobs E.eventFromSlice blobs

/-- `parse` is `serde_json::from_slice`. -/
def sessionSummary (parse : Bytes → Except String (SessionSummary P)) (db : TraceDb) (sessionId : String) :
    Except String (Option (SessionSummary P)) := do
  match ← readBlob db (summaryBaseKey sessionId) with
  | none => return none
  | some bytes => ((parse bytes).mapError fun e => "parse session summary " ++ sessionId ++ ": " ++ e).map some

structure CostBucket (P : Platform) where
  label : String
  sessions : UInt64
  inputTokens : UInt64
  outputTokens : UInt64
  cacheTokens : UInt64
  costUsd : P.f64.F

/-- The labels that counters are kept for. -/
def costLabels (keyPrefix : String) (db : TraceDb) : Std.ExtTreeSet String compare :=
  .ofList (db.keymap.allKeys.filterMap fun entry =>
    (stripPrefix entry.1 keyPrefix).bind fun rest => (splitOnce ':' rest).map Prod.fst) compare

def costBucket (keyPrefix : String) (db : TraceDb) (label : String) : CostBucket P :=
  let value (suffix : String) : UInt64 := (readValueByKeyFromDb db (keyPrefix ++ label ++ suffix)).getD 0
  { label
    sessions := value ":sessions"
    inputTokens := value ":input_tokens"
    outputTokens := value ":output_tokens"
    cacheTokens := value ":cache_tokens"
    costUsd := P.f64.div (P.f64.ofNat (value ":cost_x10000").toNat) (P.f64.ofNat 10000) }

/-- A label without a session has no bucket. -/
def costBuckets (db : TraceDb) (monthly : Bool) : List (CostBucket P) :=
  let keyPrefix := if monthly then costsMonthlyPrefix else costsDailyPrefix
  (((costLabels keyPrefix db).toList.map (costBucket keyPrefix db)).filter (·.sessions ≠ 0)).mergeSort (·.label ≤ ·.label)

end AgentHalo.Trace
