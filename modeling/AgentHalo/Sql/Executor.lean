import AgentHalo.Engine.Query
import AgentHalo.Lib.Run
import AgentHalo.Sql.Split
import AgentHalo.Sql.Syntax

/-!
# The SQL executor

An executor holds a database and the writes queued on it since the last `COMMIT`. `execute` runs a script: it splits it
into statements, answers the custom commands itself, hands the rest to the parser, and stops at the first error. Writes
go to the typed stores at once and to the committed state only with the `COMMIT`.

The parser, the calendar and the wall clock are outside the repository and enter as `SqlEnv`. A call answers `none` when
it panics, with the executor as it stood; only the KZG backend can make it so.
-/

namespace AgentHalo.Sql

open Engine Engine.NucleusDb
open Store (TypedValue BlobStore)
open Text (hexEncode)

structure SqlEnv where
  /-- `Parser::parse_sql` under the generic dialect. -/
  parseSql : String → Except String (List Statement)
  /-- `to_rfc3339` of a Unix time, when it is representable. -/
  rfc3339 : Nat → Option String
  /-- The derived `Debug` form. -/
  debugCommitError : CommitError → String
  /-- The successive readings of the wall clock. -/
  clock : Nat → Nat

inductive SqlResult where
  | rows (columns : List String) (rows : List (List String))
  | ok (message : String)
  | error (message : String)
deriving DecidableEq, Repr

def SqlResult.isError : SqlResult → Bool
  | .error _ => true
  | _ => false

/-- `clockReads` counts the readings of the wall clock so far. -/
structure SqlExecutor (P : Platform) where
  db : NucleusDb P
  pendingWrites : List (Nat × UInt64)
  committed : Bool
  clockReads : Nat

/-- An answer, absent on a panic, and the executor after it. -/
abbrev Outcome (P : Platform) := Option SqlResult × SqlExecutor P

/-- A script ends at an error and at a panic. -/
def stops : Option SqlResult → Bool
  | some r => r.isError
  | none => true

namespace SqlExecutor

variable {P : Platform} (env : SqlEnv)

def new (db : NucleusDb P) (clockReads : Nat) : SqlExecutor P := ⟨db, [], false, clockReads⟩

def formatUnixUtc (ts : Nat) : String :=
  (env.rfc3339 ts).getD ("invalid_unix_ts(" ++ toString ts ++ ")")

/-! ### Reading -/

/-- The queued writes by index, a later write to an index replacing an earlier one. -/
def pendingOverlay (ex : SqlExecutor P) : OrdMap Nat UInt64 :=
  ex.pendingWrites.foldl (fun overlay write => overlay.insert write.1 write.2) ∅

/-- The cell a reader of this executor sees. -/
def visibleCell (ex : SqlExecutor P) (idx : Nat) : UInt64 := ex.pendingOverlay[idx]?.getD (ex.db.state.cell idx)

/-- The typed value a reader of this executor sees. -/
def visibleTyped (ex : SqlExecutor P) (key : String) (idx : Nat) : Except String (TypedValue P) :=
  match TypedValue.decode (ex.db.typeMap.get key) (ex.visibleCell idx) (BlobStore.get ex.db.blobStore key) with
  | .ok v => .ok v
  | .error e => .error ("typed decode failed for key '" ++ key ++ "': " ++ e)

def backendDebug : VcBackend → String
  | .ipa => "Ipa"
  | .kzg => "Kzg"
  | .binaryMerkle => "BinaryMerkle"

def writeModeDebug : WriteMode → String
  | .normal => "Normal"
  | .appendOnly => "AppendOnly"

def showStatus (ex : SqlExecutor P) : SqlResult :=
  let sthRows := match ex.db.currentSth with
    | some sth =>
      [["sth_tree_size", toString sth.treeSize], ["sth_root", hexEncode sth.rootHash.toList],
        ["sth_timestamp", toString sth.timestampUnixSecs],
        ["sth_timestamp_utc", formatUnixUtc env sth.timestampUnixSecs]]
    | none => [["sth_tree_size", "0"], ["sth_root", ""], ["sth_timestamp", "0"], ["sth_timestamp_utc", "n/a"]]
  .rows ["field", "value"]
    ([["backend", backendDebug ex.db.backend], ["state_len", toString ex.db.state.values.length],
      ["entries", toString ex.db.entries.length], ["key_count", toString ex.db.keymap.forward.size],
      ["pending_writes", toString ex.pendingWrites.length]] ++ sthRows)

def showTypes (ex : SqlExecutor P) : SqlResult :=
  let typeCounts : OrdMap String Nat := ex.db.keymap.allKeys.foldl
    (fun counts entry =>
      let tag := (ex.db.typeMap.get entry.1).asStr
      counts.insert tag (counts[tag]?.getD 0 + 1)) ∅
  .rows ["type", "count"] (typeCounts.toList.map fun (t, c) => [t, toString c])

def showHistory (ex : SqlExecutor P) : SqlResult :=
  .rows ["height", "state_root", "tree_size", "timestamp_unix", "timestamp_utc", "backend", "witness_algorithm"]
    (ex.db.entries.map fun e =>
      [toString e.height, hexEncode e.stateRoot.toList, toString e.sth.treeSize, toString e.sth.timestampUnixSecs,
        formatUnixUtc env e.sth.timestampUnixSecs, e.vcBackendId, e.witnessSignatureAlgorithm])

def showKeyHistory (ex : SqlExecutor P) (sql : String) : SqlResult :=
  match extractSingleQuotedArgument sql with
  | none => .error "SHOW HISTORY requires a quoted key: SHOW HISTORY 'my_key'"
  | some key =>
    let columns := ["key", "index", "value", "note"]
    match ex.db.keymap.get key with
    | none => .rows columns []
    | some idx =>
      .rows columns [[key, toString idx, toString (ex.visibleCell idx),
        "per-commit key history is not available in CommitEntry v1"]]

def verifyKey (ex : SqlExecutor P) (sql : String) : Option SqlResult :=
  if !ex.pendingWrites.isEmpty then some (.error "VERIFY requires COMMIT first when pending writes exist")
  else
    match extractSingleQuotedArgument sql with
    | none => some (.error "VERIFY requires a quoted key: VERIFY 'my_key'")
    | some key =>
      match ex.db.keymap.get key with
      | none => some (.error ("Unknown key '" ++ key ++ "'"))
      | some idx =>
        match ex.db.query idx with
        | .absent => some (.error ("No value for key '" ++ key ++ "'"))
        | .panicked => none
        | .found value proof root =>
          (ex.db.verifyQuery idx value proof root).map fun ok =>
            .rows ["key", "index", "value", "verified", "root"]
              [[key, toString idx, toString value, toString ok, hexEncode root.toList]]

/-- The exported pairs, up to the first key that does not decode. -/
def exportPayload (ex : SqlExecutor P) : List (String × Nat) → Except String (List (String × P.json.Value))
  | [] => .ok []
  | (key, idx) :: rest =>
    match ex.visibleTyped key idx with
    | .error e => .error e
    | .ok typed => (exportPayload ex rest).map ((key, typed.toJsonValue) :: ·)

def exportJson (ex : SqlExecutor P) : SqlResult :=
  match ex.exportPayload ex.db.keymap.allKeys with
  | .error e => .error e
  | .ok payload =>
    match P.json.mapToStringPretty payload with
    | .ok json => .rows ["json"] [[json]]
    | .error e => .error ("Export failed: " ++ e)

def executeVectorSearch (ex : SqlExecutor P) (projection : List ProjectionField) (vs : VectorSearchParams P) :
    SqlResult :=
  match ex.db.vectorIndex.search vs.queryVector vs.k vs.metric with
  | .error e => .error e
  | .ok results =>
    .rows (projection.map (·.display) ++ ["_distance"])
      (results.filterMap fun (key, distance) =>
        (ex.db.getTyped key).map fun typed =>
          renderProjectionRow projection key typed (ex.db.typeMap.get key) ++ [P.f64.display6 distance])

/-- The rows of a plain `SELECT`. The predicate is evaluated before the key's value is. -/
def selectRows (ex : SqlExecutor P) (projection : List ProjectionField) (selection : Option Expr) :
    List (String × Nat) → Except String (List (List String))
  | [] => .ok []
  | (key, idx) :: rest =>
    match selectionMatchesKey selection key with
    | .error e => .error e
    | .ok false => selectRows ex projection selection rest
    | .ok true =>
      match ex.visibleTyped key idx with
      | .error e => .error e
      | .ok typed =>
        (selectRows ex projection selection rest).map
          (renderProjectionRow projection key typed (ex.db.typeMap.get key) :: ·)

def executeSelect (ex : SqlExecutor P) (q : Query) : SqlResult :=
  match q.body with
  | .select select =>
    let fromData := match select.from_ with
      | [] => true
      | [table] => tableWithJoinsIsData table
      | _ => false
    if !fromData then .error ("Only SELECT ... FROM " ++ tableName ++ " is supported")
    else
      match resolveProjection select.projection with
      | .error e => .error e
      | .ok projection =>
        match select.selection.bind (extractVectorSearch P) with
        | some vs => ex.executeVectorSearch projection vs
        | none =>
          match ex.selectRows projection select.selection ex.db.keymap.allKeys with
          | .error e => .error e
          | .ok rows => .rows (projection.map (·.display)) rows
  | _ => .error "Only SELECT queries are supported"

/-! ### Writing -/

/-- `put_typed` on the executor's database; the vector index reads the clock first. -/
def putTypedNow (ex : SqlExecutor P) (key : String) (value : TypedValue P) :
    Except String (Nat × UInt64) × SqlExecutor P :=
  let clock : Clock := { vector := env.clock ex.clockReads, blob := env.clock (ex.clockReads + 1) }
  let (r, db) := ex.db.putTyped key value clock
  (r, { ex with db, clockReads := ex.clockReads + 2 })

def queue (ex : SqlExecutor P) (write : Nat × UInt64) : SqlExecutor P :=
  { ex with pendingWrites := ex.pendingWrites ++ [write] }

def flushCommit (ex : SqlExecutor P) : Outcome P :=
  if ex.pendingWrites.isEmpty then (some (.ok "No pending writes"), ex)
  else
    match ex.db.commit ⟨ex.pendingOverlay.toList⟩ [] (env.clock ex.clockReads) with
    | none => (none, ex)
    | some (.ok entry, db) =>
      (some (.ok ("Committed at height " ++ toString entry.height)),
        { db, pendingWrites := [], committed := true, clockReads := ex.clockReads + 1 })
    | some (.error e, db) =>
      (some (.error ("Commit failed: " ++ env.debugCommitError e)), { ex with db, clockReads := ex.clockReads + 1 })

def executeInsert (ex : SqlExecutor P) (ins : Insert) : SqlResult × SqlExecutor P :=
  if !insertTargetsData ins then (.error ("Only virtual table '" ++ tableName ++ "' is supported"), ex)
  else if !ins.assignments.isEmpty then (.error "INSERT ... SET form is not supported", ex)
  else
    match ins.source with
    | none => (.error "INSERT requires VALUES source", ex)
    | some source =>
      match extractInsertTyped P source ins.columns with
      | .error e => (.error e, ex)
      | .ok (.typed key value) =>
        match ex.putTypedNow env key value with
        | (.error e, ex) => (.error ("typed insert failed for '" ++ key ++ "': " ++ e), ex)
        | (.ok (idx, cell), ex) =>
          (.ok ("Queued write: " ++ key ++ "=" ++ value.displayString ++ " [" ++ value.tag.asStr ++ "] (idx="
            ++ toString idx ++ ")"), ex.queue (idx, cell))
      | .ok (.legacyU64 key value) =>
        let (idx, keymap) := ex.db.keymap.getOrCreate key
        (.ok ("Queued write: " ++ key ++ "=" ++ toString value ++ " (idx=" ++ toString idx ++ ")"),
          { ex with db := { ex.db with keymap } }.queue (idx, value))

/-- The loop of `UPDATE` and `DELETE`: write one value to every selected key, `what` naming the statement. -/
def writeSelected (what : String) (value : TypedValue P) (selection : Option Expr) :
    List String → SqlExecutor P → Except String Nat × SqlExecutor P
  | [], ex => (.ok 0, ex)
  | key :: rest, ex =>
    match selectionMatchesKey selection key with
    | .error e => (.error e, ex)
    | .ok false => writeSelected what value selection rest ex
    | .ok true =>
      match ex.putTypedNow env key value with
      | (.error e, ex) => (.error ("typed " ++ what ++ " failed for '" ++ key ++ "': " ++ e), ex)
      | (.ok write, ex) =>
        let (touched, ex) := writeSelected what value selection rest (ex.queue write)
        (touched.map (· + 1), ex)

/-- An `UPDATE` or `DELETE` over all keys, reported as `Queued n noun`. -/
def writeAll (ex : SqlExecutor P) (what noun : String) (value : TypedValue P) (selection : Option Expr) :
    SqlResult × SqlExecutor P :=
  match writeSelected env what value selection (ex.db.keymap.allKeys.map (·.1)) ex with
  | (.error e, ex) => (.error e, ex)
  | (.ok touched, ex) => (.ok ("Queued " ++ toString touched ++ " " ++ noun), ex)

def executeUpdate (ex : SqlExecutor P) (table : TableWithJoins) (assignments : List Assignment)
    (selection : Option Expr) : SqlResult × SqlExecutor P :=
  if ex.db.writeMode = .appendOnly then
    (.error "UPDATE rejected: database is in AppendOnly mode (immutable agentic records)", ex)
  else if !tableWithJoinsIsData table then (.error ("Only virtual table '" ++ tableName ++ "' is supported"), ex)
  else
    match extractUpdateValue assignments with
    | .error e => (.error e, ex)
    | .ok value => ex.writeAll env "update" "update(s)" (.integer value.toInt64) selection

def executeDelete (ex : SqlExecutor P) (del : Delete) : SqlResult × SqlExecutor P :=
  if ex.db.writeMode = .appendOnly then
    (.error "DELETE rejected: database is in AppendOnly mode (immutable agentic records)", ex)
  else if !deleteTargetsData del then (.error ("Only virtual table '" ++ tableName ++ "' is supported"), ex)
  else ex.writeAll env "delete" "delete tombstone(s)" (.integer 0) del.selection

/-! ### Dispatch -/

def executeCreateTable (name : ObjectName) : SqlResult :=
  if !objectNameIsData name then .error ("Only virtual table '" ++ tableName ++ "' is supported")
  else .ok ("Virtual table '" ++ tableName ++ "' is available")

/-- A statement that cannot panic. -/
def answered (r : SqlResult × SqlExecutor P) : Outcome P := (some r.1, r.2)

def executeStatement (stmt : Statement) (ex : SqlExecutor P) : Outcome P :=
  match stmt with
  | .query q => (some (ex.executeSelect q), ex)
  | .insert ins => answered (ex.executeInsert env ins)
  | .commit => ex.flushCommit env
  | .update table assignments selection => answered (ex.executeUpdate env table assignments selection)
  | .delete del => answered (ex.executeDelete env del)
  | .createTable name => (some (executeCreateTable name), ex)
  | .other => (some (.error "Unsupported SQL statement"), ex)

/-- The commands the executor answers itself; `none` hands the text to the parser. -/
def executeCustom (ex : SqlExecutor P) (sql : String) : Option (Outcome P) :=
  match normalizeCommand sql with
  | "SHOW STATUS" => some (some (ex.showStatus env), ex)
  | "SHOW HISTORY" => some (some (ex.showHistory env), ex)
  | "COMMIT" => some (ex.flushCommit env)
  | "VERIFY" => some (some (.error "VERIFY requires a quoted key: VERIFY 'my_key'"), ex)
  | "CHECKPOINT" => some (some (.error "CHECKPOINT requires a configured snapshot/WAL path in CLI mode"), ex)
  | "EXPORT" => some (some ex.exportJson, ex)
  | "SHOW TYPES" => some (some ex.showTypes, ex)
  | "SHOW MODE" => some (some (.ok ("Write mode: " ++ writeModeDebug ex.db.writeMode)), ex)
  | "SET MODE APPEND_ONLY" | "SET MODE APPENDONLY" =>
    some (some (.ok ("Write mode locked to AppendOnly. INSERT only — UPDATE/DELETE disabled. "
      ++ "Monotone seal chain active.")), { ex with db := ex.db.setAppendOnly })
  | normalized =>
    if Text.startsWith normalized "SHOW HISTORY " then some (some (ex.showKeyHistory sql), ex)
    else if Text.startsWith normalized "VERIFY " then some (ex.verifyKey sql, ex)
    else none

/-- A trimmed text that is one statement to the splitter. -/
def executeSingle (trimmed : String) (ex : SqlExecutor P) : Outcome P :=
  match ex.executeCustom env trimmed with
  | some custom => custom
  | none =>
    match env.parseSql trimmed with
    | .error e => (some (.error ("Parse error: " ++ e)), ex)
    | .ok [] => (some (.ok "No statements"), ex)
    | .ok ast => Run.loop (executeStatement env) stops ast (some (.ok "No-op")) ex

def execute (sql : String) (ex : SqlExecutor P) : Outcome P :=
  let trimmed := Text.trim sql
  if trimmed.isEmpty then (some (.ok "No statements"), ex)
  else if _ : 1 < (splitSqlStatements trimmed).length then
    Run.loop (fun (stmt : {stmt // stmt ∈ splitSqlStatements trimmed}) ex => execute stmt.1 ex) stops
      (splitSqlStatements trimmed).attach (some (.ok "No-op")) ex
  else executeSingle env trimmed ex
termination_by sql.toList.length
decreasing_by
  exact Nat.lt_of_lt_of_le (length_lt_of_mem_split ‹_› stmt.2) (trim_length_le sql)

end SqlExecutor

end AgentHalo.Sql
