import AgentHalo.Engine.CommitSpec
import AgentHalo.Engine.TypedStore
import AgentHalo.Lib.Run

/-!
# The memory of the agents

What a task says and is told is stored as text in a database, under a key made of a digest of the text, next to its
metadata and its embedding. `persist_memory_turn` loads the whole database, stores one payload and saves the whole
database again. Nothing keeps two calls apart between the load and the save.
-/

namespace AgentHalo.Orchestrator

open Engine (NucleusDb Clock CommitError WitnessConfig)
open Text (trim utf8 hexEncode)

def memoryKeyPrefix : String := "mem:chunk:"
def memoryMetaSuffix : String := ":meta"
def memoryVectorSuffix : String := ":vec"
def defaultEmbeddingDims : Nat := 768

def keyForText (P : Platform) (text : String) : String :=
  memoryKeyPrefix ++ String.ofList ((hexEncode (P.sha256 (utf8 (trim text))).toList).toList.take 16)

def metaKey (key : String) : String := key ++ memoryMetaSuffix
def vectorKey (key : String) : String := key ++ memoryVectorSuffix

structure MemoryContext where
  sessionId : Option String
  agentId : Option String
  ttlSecs : Option Nat

def MemoryContext.empty : MemoryContext := ⟨none, none, none⟩

structure MemoryRecord where
  key : String
  text : String
  source : Option String
  created : String
  sessionId : Option String
  agentId : Option String

/-- What the metadata of a memory says. -/
structure MemoryMeta where
  source : Option String
  created : String
  dims : Nat
  model : String
  context : MemoryContext

/-- The embedding model, and the JSON objects of the metadata. -/
structure MemoryStore (P : Platform) where
  modelName : String
  /-- By the text and the prefix for its use. -/
  embed : String → String → Except String (List P.f64.F)
  metaValue : MemoryMeta → P.json.Value
  /-- A string under a key of an object. -/
  metaStr : P.json.Value → String → Option String
  formatCommitError : CommitError → String

/-- What the clock says while a memory is stored. -/
structure StoreReadings where
  created : String
  text : Clock
  metadata : Clock
  vector : Clock
  commit : Nat

def buildEmbedInput (text : String) (ctx : MemoryContext) : String :=
  let parts := (ctx.sessionId.map ("session:" ++ ·)).toList ++ (ctx.agentId.map ("agent:" ++ ·)).toList
  if parts.isEmpty then text else "[" ++ String.intercalate " " parts ++ "] " ++ text

namespace MemoryStore

variable {P : Platform} (M : MemoryStore P)

/-- The text is there with an embedding: its metadata. -/
def existing (db : NucleusDb P) (key memoryText : String) : Option (Option P.json.Value) :=
  match db.getTyped key with
  | some (.text existing) =>
    if existing = memoryText ∧ (db.getTyped (vectorKey key)).isSome then
      some (match db.getTyped (metaKey key) with
        | some (.json metadata) => some metadata
        | _ => none)
    else none
  | _ => none

/-- The answer and the database it leaves; `none` is the panic of the commit. -/
def storeMemoryCtx (db : NucleusDb P) (text : String) (source : Option String) (ctx : MemoryContext)
    (r : StoreReadings) : Option (Except String MemoryRecord × NucleusDb P) :=
  let memoryText := trim text
  if memoryText = "" then some (.error "memory text must not be empty", db)
  else
    let key := keyForText P memoryText
    let sourceClean := (source.map trim).filter (· ≠ "")
    match existing db key memoryText with
    | some metadata =>
      some (.ok
        { key
          text := memoryText
          source := (metadata.bind (M.metaStr · "source")).or sourceClean
          created := (metadata.bind (M.metaStr · "created")).getD r.created
          sessionId := ctx.sessionId
          agentId := ctx.agentId }, db)
    | none =>
      match M.embed (buildEmbedInput memoryText ctx) "search_document: " with
      | .error e => some (.error ("embed memory: " ++ e), db)
      | .ok embedding =>
        if embedding.length ≠ defaultEmbeddingDims then
          some (.error ("embedding dimension mismatch: expected " ++ toString defaultEmbeddingDims ++ ", got "
            ++ toString embedding.length), db)
        else
          let metadata := M.metaValue ⟨sourceClean, r.created, defaultEmbeddingDims, M.modelName, ctx⟩
          match db.putTyped key (.text memoryText) r.text with
          | (.error e, db) => some (.error ("store memory text failed: " ++ e), db)
          | (.ok text, db) =>
            match db.putTyped (metaKey key) (.json metadata) r.metadata with
            | (.error e, db) => some (.error ("store memory metadata failed: " ++ e), db)
            | (.ok meta', db) =>
              match db.putTyped (vectorKey key) (.vector embedding) r.vector with
              | (.error e, db) => some (.error ("store memory embedding failed: " ++ e), db)
              | (.ok vec, db) =>
                match db.commit ⟨[text, meta', vec]⟩ [] r.commit with
                | none => none
                | some (.error e, db) => some (.error ("memory commit failed: " ++ M.formatCommitError e), db)
                | some (.ok _, db) =>
                  some (.ok ⟨key, memoryText, sourceClean, r.created, ctx.sessionId, ctx.agentId⟩, db)

def storeMemory (db : NucleusDb P) (text : String) (source : Option String) (r : StoreReadings) :
    Option (Except String MemoryRecord × NucleusDb P) := M.storeMemoryCtx db text source .empty r

end MemoryStore

/-! ### Calls -/

structure MemoryTurn where
  agentId : String
  taskId : String
  role : String
  text : String
deriving DecidableEq

namespace MemoryTurn

variable (turn : MemoryTurn)

def body : String := trim turn.text

def payload : String :=
  "agent_id: " ++ turn.agentId ++ "\ntask_id: " ++ turn.taskId ++ "\nrole: " ++ turn.role ++ "\ncontent:\n" ++ turn.body

/-- `orchestrator_memory_source`. -/
def source : String := "orchestrator:agent:" ++ turn.agentId

end MemoryTurn

/-- The orchestrator as the calls see it. -/
structure MemoryConfig (P : Platform) where
  store : MemoryStore P
  witnessCfg : WitnessConfig P
  dbPath : String

/-- What the calls share: the recent payloads by agent, and the stored database if there is one. -/
structure Memories (P : Platform) where
  recent : OrdMap String (List String)
  stored : Option (NucleusDb P)

structure MemoryOutside where
  loaded : Except String Unit
  /-- For a new database. -/
  clock : Clock
  readings : StoreReadings
  snapshot : Except String Unit
  wal : Except String Unit
  /-- How a panic of the blocking task is reported. -/
  panicked : String

/-- What a call has in hand between two sections. -/
inductive TurnPhase (P : Platform) where
  | remember
  | load
  /-- What was read; without a database the call makes a new one. -/
  | save (read : Option (NucleusDb P))
  | returned (result : Except String Unit)

namespace MemoryTurn

variable {P : Platform} (C : MemoryConfig P) (turn : MemoryTurn)

/-- A turn without a body is not stored. -/
def start : TurnPhase P := if turn.body = "" then .returned (.ok ()) else .remember

def pushRecent (recent : OrdMap String (List String)) : OrdMap String (List String) :=
  let entries := (recent[turn.agentId]?.getD []) ++ [turn.payload]
  recent.insert turn.agentId (entries.drop (entries.length - 24))

def joinFailed (o : MemoryOutside) : Except String Unit := .error ("memory persist task join failed: " ++ o.panicked)

/-- `load_or_create_orchestrator_db` from what was read; `none` is a panic. -/
def opened (o : MemoryOutside) (read : Option (NucleusDb P)) : Option (NucleusDb P) :=
  read.or (NucleusDb.new ⟨[]⟩ .binaryMerkle C.witnessCfg o.clock)

/-- `persist_orchestrator_db`: the answer and the stored database. -/
def persist (o : MemoryOutside) (db : NucleusDb P) (stored : Option (NucleusDb P)) :
    Except String Unit × Option (NucleusDb P) :=
  let failed (e : String) : Except String Unit := .error ("persist NucleusDB " ++ C.dbPath ++ ": " ++ e)
  match o.snapshot, o.wal with
  | .error e, _ => (failed e, stored)
  | .ok (), .error e => (failed e, some db)
  | .ok (), .ok () => (.ok (), some db)

/-- The next section of the call. The payload is stored in the copy that the call has of the database. -/
def next (o : MemoryOutside) (s : Memories P) : TurnPhase P → TurnPhase P × Memories P
  | .remember => (.load, { s with recent := turn.pushRecent s.recent })
  | .load =>
    match o.loaded with
    | .error e => (.returned (.error ("load NucleusDB " ++ C.dbPath ++ ": " ++ e)), s)
    | .ok () => (.save s.stored, s)
  | .save read =>
    match opened C o read with
    | none => (.returned (joinFailed o), s)
    | some db =>
      match C.store.storeMemory db turn.payload (some turn.source) o.readings with
      | none => (.returned (joinFailed o), s)
      | some (.error e, _) => (.returned (.error ("store orchestrator memory: " ++ e)), s)
      | some (.ok _, db) =>
        let (result, stored) := persist C o db s.stored
        (.returned result, { s with stored })
  | .returned result => (.returned result, s)

end MemoryTurn

/-- The calls that run at the same time, and what they share. -/
structure MemoryCalls (P : Platform) where
  turns : List (MemoryTurn × TurnPhase P)
  shared : Memories P

namespace MemoryCalls

variable {P : Platform}

def start (turns : List MemoryTurn) (s : Memories P) : MemoryCalls P := ⟨turns.map fun turn => (turn, turn.start), s⟩

/-- One of the calls takes its next section. -/
def step (C : MemoryConfig P) (c : MemoryCalls P) (action : Nat × MemoryOutside) : MemoryCalls P :=
  match c.turns[action.1]? with
  | none => c
  | some (turn, phase) =>
    let (phase', shared) := turn.next C action.2 c.shared phase
    ⟨c.turns.set action.1 (turn, phase'), shared⟩

end MemoryCalls

end AgentHalo.Orchestrator
