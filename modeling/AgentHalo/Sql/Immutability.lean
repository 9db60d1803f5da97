import AgentHalo.Engine.TypedLaw
import AgentHalo.Sql.Rules

/-!
# Typed records of a locked database, seen through SQL

A locked database refuses `UPDATE`, `DELETE` and every commit that changes a nonzero cell. The value a reader gets is
more than the cell, though: the type tag and the payload are kept beside it, and `INSERT` writes them at once, on an
existing key too. So a record is safe as long as no accepted typed `INSERT` on its key brings another tag or another
payload. The module proves that this is enough, and shows an `INSERT` that replaces a committed record.
-/

namespace AgentHalo.Sql

open Engine Engine.NucleusDb
open Store (TypedValue BlobStore KeyMap TypeMap)
open SqlExecutor

variable {P : Platform} {env : SqlEnv}

/-! ### The invariant -/

/-- The database is locked, the key has a nonzero committed cell, and it reads as `v`. -/
structure Held (key : String) (v : TypedValue P) (db : NucleusDb P) : Prop where
  locked : db.writeMode = .appendOnly
  cell : ∃ idx, db.keymap.get key = some idx ∧ db.state.cell idx ≠ 0
  value : db.getTyped key = some v

variable {key : String} {db : NucleusDb P}

variable {v : TypedValue P} {db' : NucleusDb P}

theorem Held.of_same (h : Held key v db) (hmode : db'.writeMode = db.writeMode) (hkeys : KeysKept db db')
    (hcells : CellsKept db db') (htag : db'.typeMap.get key = db.typeMap.get key)
    (hblob : BlobStore.get db'.blobStore key = BlobStore.get db.blobStore key) : Held key v db' := by
  obtain ⟨idx, hidx, hne⟩ := h.cell
  have hidx' := hkeys key idx hidx
  have hcell := hcells idx hne
  refine ⟨hmode.trans h.locked, ⟨idx, hidx', hcell ▸ hne⟩, ?_⟩
  rw [getTyped_congr hidx hidx' hcell htag hblob]
  exact h.value

theorem Held.commit {delta : Delta} {localViews : List LocalSection} {now : Nat} {r : Except CommitError CommitEntry}
    (h : Held key v db) (hcommit : db.commit delta localViews now = some (r, db')) : Held key v db' := by
  have hframe := commit_sameFrame hcommit
  refine h.of_same hframe.writeMode (keysKept_of_keymap_eq hframe.keymap) (cellsKept_commit h.locked hcommit) ?_ ?_
  · rw [hframe.typeMap]
  · rw [hframe.blobStore]

theorem Held.setAppendOnly (h : Held key v db) : Held key v db.setAppendOnly :=
  h.of_same h.locked.symm (keysKept_of_keymap_eq rfl) (cellsKept_of_state_eq rfl) rfl rfl

theorem Held.getOrCreate (h : Held key v db) (other : String) :
    Held key v { db with keymap := (db.keymap.getOrCreate other).2 } :=
  h.of_same rfl (fun _ _ hkey => KeyMap.get_getOrCreate db.keymap other hkey) (cellsKept_of_state_eq rfl) rfl rfl

theorem Held.putTyped (h : Held key v db) {other : String} {value : TypedValue P} (clock : Clock)
    (hfits : ∀ data, (value.encode other).2 = some data → BlobStore.Fits db.blobStore other data)
    (hkeeps : other = key → db.RejectsVector value ∨ db.SameRecord key value) :
    Held key v (db.putTyped other value clock).2 := by
  have hkeys := keysKept_putTyped db other value clock
  rcases putTyped_cases db other value clock with ⟨vectorIndex, heq⟩ | ⟨hrej, vectorIndex, heq⟩
  · rw [heq] at hkeys ⊢
    exact h.of_same rfl hkeys (cellsKept_of_state_eq rfl) rfl rfl
  · rw [heq] at hkeys ⊢
    by_cases hother : other = key
    · subst hother
      obtain ⟨htag, hdata⟩ := (hkeeps rfl).resolve_left hrej
      have hget : (db.typeMap.set other value.tag).get other = db.typeMap.get other := by
        rw [TypeMap.get_set, if_pos rfl, htag]
      cases hpayload : (value.encode other).2 with
      | some data =>
        refine h.of_same rfl hkeys (cellsKept_of_state_eq rfl) hget ?_
        dsimp only
        rw [get_blobsAfter_self db other value clock hfits, hpayload, hdata data hpayload]
      | none =>
        -- a scalar write drops the payload, which a scalar read does not look at
        obtain ⟨idx, hidx, hne⟩ := h.cell
        refine ⟨h.locked, ⟨idx, hkeys other idx hidx, hne⟩, ?_⟩
        have hvalue := h.value
        rw [getTyped_of_index hidx, ← htag] at hvalue
        rw [getTyped_of_index (hkeys other idx hidx), hget, ← htag, ← hvalue]
        exact congrArg Except.toOption (decode_scalar other value hpayload _ _ _)
    · refine h.of_same rfl hkeys (cellsKept_of_state_eq rfl) ?_ ?_
      · dsimp only
        rw [TypeMap.get_set, if_neg hother]
      · exact get_blobsAfter_other db hother value clock hfits

/-! ### Statements -/

/-- The payload an `INSERT` brings fits under the ceiling of the payload store. -/
def InsertFits : Statement → SqlExecutor P → Prop
  | .insert ins, ex => ∀ key value data, insertRequest P ins = some (.typed key value) →
      (value.encode key).2 = some data → BlobStore.Fits ex.db.blobStore key data
  | _, _ => True

/-- A typed `INSERT` on the key is refused by the vector index or repeats the stored tag and payload. -/
def InsertKeeps (key : String) : Statement → SqlExecutor P → Prop
  | .insert ins, ex => ∀ value, insertRequest P ins = some (.typed key value) →
      ex.db.RejectsVector value ∨ ex.db.SameRecord key value
  | _, _ => True

variable {ex : SqlExecutor P}

theorem held_flushCommit (h : Held key v ex.db) : Held key v (ex.flushCommit env).2.db := by
  rcases flushCommit_db env ex with heq | ⟨delta, now, r, hcommit⟩
  · rw [heq]
    exact h
  · exact h.commit hcommit

theorem held_executeCustom {sql : String} {out : Outcome P} (h : Held key v ex.db)
    (hout : ex.executeCustom env sql = some out) : Held key v out.2.db := by
  rcases executeCustom_db hout with heq | rfl | heq
  · rw [heq]
    exact h
  · exact held_flushCommit h
  · rw [heq]
    exact h.setAppendOnly

theorem held_executeInsert {ins : Insert} (h : Held key v ex.db) (hfits : InsertFits (.insert ins) ex)
    (hkeeps : InsertKeeps key (.insert ins) ex) :
    Held key v (ex.executeInsert env ins).2.db := by
  rw [executeInsert_db]
  cases hrequest : insertRequest P ins with
  | none => exact h
  | some request =>
    cases request with
    | legacyU64 other value => exact h.getOrCreate other
    | typed other value =>
      refine h.putTyped (nextClock env ex) (fun data => hfits other value data hrequest) ?_
      rintro rfl
      exact hkeeps value hrequest

theorem held_executeStatement {stmt : Statement} (h : Held key v ex.db) (hfits : InsertFits stmt ex)
    (hkeeps : InsertKeeps key stmt ex) :
    Held key v (executeStatement env stmt ex).2.db := by
  cases stmt with
  | insert ins => exact held_executeInsert h hfits hkeeps
  | commit => exact held_flushCommit h
  | update table assignments selection =>
    unfold executeStatement answered
    dsimp only
    rw [executeUpdate_locked h.locked]
    exact h
  | delete del =>
    unfold executeStatement answered
    dsimp only
    rw [executeDelete_locked h.locked]
    exact h
  | query | createTable | other => exact h

/-! ### A committed text, and an `INSERT` on it -/

/-- The cell that commits the text `s` under the key `a`. -/
def textCell (s : String) : UInt64 := Store.contentHashU64 .reference "a" (Text.utf8 s)

/-- What the example databases have: locked, with the text `s` committed under the key `a`. -/
structure HoldsText (s : String) (db : NucleusDb .reference) : Prop where
  locked : db.writeMode = .appendOnly
  index : db.keymap.get "a" = some 0
  cell : db.state.cell 0 = textCell s
  tag : db.typeMap.get "a" = .text
  payload : BlobStore.get db.blobStore "a" = some (Text.utf8 s)
  fits : ∀ data, BlobStore.Fits db.blobStore "a" data

theorem HoldsText.getTyped {s : String} {db : NucleusDb .reference} (h : HoldsText s db) :
    db.getTyped "a" = some (.text s) := getTyped_text h.index h.tag h.payload

theorem emptyBlobs_fits (data : Bytes) : BlobStore.Fits singleWitnessDb.blobStore "a" data := by
  unfold BlobStore.Fits
  refine Nat.le_trans Std.ExtTreeMap.size_insert_le ?_
  decide

theorem exists_holdsText (s : String) : ∃ entry db,
    (singleWitnessDb.putTyped "a" (.text s) ⟨0, 0⟩).2.commit ⟨[(0, textCell s)]⟩ [] 0 = some (.ok entry, db) ∧
      HoldsText s db.setAppendOnly := by
  have hcommits : ∃ entry db, (singleWitnessDb.putTyped "a" (.text s) ⟨0, 0⟩).2.commit ⟨[(0, textCell s)]⟩ [] 0 =
      some (.ok entry, db) := (singleWitnessDb_ready.putTyped "a" (.text s) ⟨0, 0⟩).commit 0 rfl
  obtain ⟨entry, db, hcommit⟩ := hcommits
  have hframe := commit_sameFrame hcommit
  have hstate : db.state = apply ⟨[]⟩ ⟨[(0, textCell s)]⟩ := (commit_advanced hcommit).state
  have hcell : ∀ c, (apply ⟨[]⟩ ⟨[(0, c)]⟩).cell 0 = c := fun c => rfl
  obtain ⟨hentries, hmax⟩ := BlobStore.put_spec singleWitnessDb.blobStore 0 (emptyBlobs_fits (Text.utf8 s))
  have hblobs : db.blobStore = BlobStore.put singleWitnessDb.blobStore "a" (Text.utf8 s) 0 := hframe.blobStore
  refine ⟨entry, db, hcommit, ⟨rfl, ?_, ?_, ?_, ?_, ?_⟩⟩
  · exact hframe.keymap ▸ KeyMap.get_getOrCreate_self KeyMap.new "a"
  · unfold setAppendOnly
    rw [hstate]
    exact hcell (textCell s)
  · unfold setAppendOnly
    rw [hframe.typeMap]
    exact (TypeMap.get_set _ "a" "a" .text).trans (if_pos rfl)
  · unfold setAppendOnly BlobStore.get
    rw [hblobs, hentries, OrdMap.get?_insert, if_pos rfl]
  · intro data
    unfold setAppendOnly BlobStore.Fits
    rw [hblobs, hentries, hmax]
    refine Nat.le_trans Std.ExtTreeMap.size_insert_le (Nat.le_trans (Nat.succ_le_succ Std.ExtTreeMap.size_insert_le) ?_)
    decide

/-- The script that inserts the text `world` under the key `a`. -/
def insertWorld : String := "INSERT INTO data VALUES ('a', 'world')"

def insertWorldStatement : Insert where
  table := .tableName [.identifier ⟨"data"⟩]
  columns := []
  source := some ⟨.values [[.value (.string "a"), .value (.string "world")]]⟩
  assignments := []

/-- A parser for this script, at the start of the epoch. -/
def insertWorldEnv : SqlEnv where
  parseSql sql := if sql = insertWorld then .ok [.insert insertWorldStatement] else .error "sql parser error"
  rfc3339 _ := some "1970-01-01T00:00:00+00:00"
  debugCommitError _ := "MonotoneViolation"
  clock _ := 0

theorem insertWorld_toList : insertWorld.toList = ['I', 'N', 'S', 'E', 'R', 'T', ' ', 'I', 'N', 'T', 'O', ' ', 'd', 'a',
    't', 'a', ' ', 'V', 'A', 'L', 'U', 'E', 'S', ' ', '(', '\'', 'a', '\'', ',', ' ', '\'', 'w', 'o', 'r', 'l', 'd',
    '\'', ')'] := by
  simp [insertWorld]

theorem insertWorld_nonempty : insertWorld.isEmpty = false := by simp [insertWorld]

theorem parseSql_insertWorld : insertWorldEnv.parseSql insertWorld = .ok [.insert insertWorldStatement] := by
  unfold insertWorldEnv
  dsimp only
  rw [if_pos rfl]

theorem trim_insertWorld : Text.trim insertWorld = insertWorld := by
  have hchars : Text.trimChars insertWorld.toList = insertWorld.toList := by
    rw [insertWorld_toList]
    decide
  unfold Text.trim
  rw [hchars, String.ofList_toList]

theorem split_insertWorld : (splitSqlStatements insertWorld).length ≤ 1 := by
  unfold splitSqlStatements
  rw [insertWorld_toList]
  decide

theorem normalizeCommand_insertWorld : (normalizeCommand insertWorld).toList.head? = some 'I' := by
  unfold normalizeCommand Text.toAsciiUppercase Text.trimEndMatches
  rw [trim_insertWorld, insertWorld_toList]
  unfold Text.trim
  simp only [String.toList_ofList]
  decide

theorem insertRequest_insertWorld :
    insertRequest .reference insertWorldStatement = some (.typed "a" (.text "world")) := by
  have htarget : insertTargetsData insertWorldStatement = true := Text.eqIgnoreAsciiCase_self tableName
  have hinfer : Store.inferFromString .reference "world" = .text "world" := by
    simp [Store.inferFromString, Text.trim, Text.trimChars, Text.isWhitespace, Text.eqIgnoreAsciiCase,
      Text.asciiLower, Text.parseI64, Text.digitsValue]
    rfl
  have hextract := extractInsertTyped_pair .reference "a" (.value (.string "world"))
  dsimp only [insertValue, tryExtractVector, insertString, exprAsString, Value.intoString] at hextract
  rw [hinfer] at hextract
  unfold insertRequest
  rw [htarget, if_pos (by rfl)]
  exact congrArg Except.toOption hextract

theorem execute_insertWorld (ex : SqlExecutor .reference) :
    (execute insertWorldEnv insertWorld ex).2.db =
      (ex.db.putTyped "a" (.text "world") (nextClock insertWorldEnv ex)).2 := by
  rw [(execute_of_single insertWorldEnv ex trim_insertWorld insertWorld_nonempty split_insertWorld).1]
  unfold executeSingle
  rw [executeCustom_of_insert insertWorldEnv ex normalizeCommand_insertWorld]
  rw [parseSql_insertWorld]
  dsimp only
  rw [Run.loop_singleton]
  unfold executeStatement answered
  dsimp only
  rw [executeInsert_db, insertRequest_insertWorld]
  rfl

/-! ### Scripts -/

/-- **Typed records of a locked database are immutable through SQL, as long as no `INSERT` replaces them.** Take any
executor on a locked database, any key whose committed cell is nonzero and whose typed value is `v`, and any run of
scripts in which every executed `INSERT` fits into the payload store. If every executed typed `INSERT` on the key is
refused by the vector index or repeats the stored tag and payload, the key still reads as `v`. -/
theorem getTyped_of_scripts {ex : SqlExecutor P} {key : String} {v : TypedValue P} {idx : Nat}
    (hmode : ex.db.writeMode = .appendOnly) (hidx : ex.db.keymap.get key = some idx)
    (hcell : ex.db.state.cell idx ≠ 0) (hvalue : ex.db.getTyped key = some v) (scripts : List String)
    (hrun : Run.Along (fun ex sql => (execute env sql ex).2)
      (fun ex sql => ScriptMeets env (fun stmt ex => InsertFits stmt ex ∧ InsertKeeps key stmt ex) sql ex) ex scripts) :
    (Run.exec (fun ex sql => (execute env sql ex).2) ex scripts).db.getTyped key = some v := by
  have hheld : Held key v ex.db := ⟨hmode, ⟨idx, hidx, hcell⟩, hvalue⟩
  have hend := Run.exec_invariant_along (I := fun ex : SqlExecutor P => Held key v ex.db) ?_ hheld hrun
  · exact hend.value
  · intro ex sql h hmeets
    exact execute_invariant (I := fun ex : SqlExecutor P => Held key v ex.db)
      (fun _ _ _ => held_executeCustom) (fun _ _ hI hG => held_executeStatement hI hG.1 hG.2) h hmeets

/-- Where the committed text is `world` already, the same `INSERT` is harmless. -/
theorem getTyped_of_scripts_repeated : ∃ ex : SqlExecutor .reference,
    ex.db.writeMode = .appendOnly ∧ ex.db.getTyped "a" = some (.text "world") ∧
      (Run.exec (fun ex sql => (execute insertWorldEnv sql ex).2) ex [insertWorld]).db.getTyped "a" =
        some (.text "world") := by
  obtain ⟨entry, db, hcommit, hdb⟩ := exists_holdsText "world"
  refine ⟨SqlExecutor.new db.setAppendOnly 0, hdb.locked, hdb.getTyped, ?_⟩
  refine getTyped_of_scripts hdb.locked hdb.index ?_ hdb.getTyped [insertWorld] ⟨?_, trivial⟩
  · show db.setAppendOnly.state.cell 0 ≠ 0
    rw [hdb.cell]
    decide
  · beta_reduce
    rw [(execute_of_single insertWorldEnv _ trim_insertWorld insertWorld_nonempty split_insertWorld).2]
    intro _ ast hparse
    obtain rfl := Except.ok.inj (parseSql_insertWorld.symm.trans hparse)
    refine .cons ⟨?_, ?_⟩ fun _ => .nil _
    · intro key value data hrequest hdata
      obtain ⟨rfl, rfl⟩ := TypedInsert.typed.inj (Option.some.inj (insertRequest_insertWorld.symm.trans hrequest))
      obtain rfl := Option.some.inj hdata
      exact hdb.fits _
    · intro value hrequest
      obtain ⟨-, rfl⟩ := TypedInsert.typed.inj (Option.some.inj (insertRequest_insertWorld.symm.trans hrequest))
      refine .inr ⟨hdb.tag.symm, ?_⟩
      rintro data ⟨⟩
      exact hdb.payload

/-- An `INSERT` replaces a committed text of a locked database: `hello` reads as `world` afterwards. -/
theorem insert_replaces_text : ∃ entry db,
    (singleWitnessDb.putTyped "a" (.text "hello") ⟨0, 0⟩).2.commit ⟨[(0, textCell "hello")]⟩ [] 0 =
        some (.ok entry, db) ∧
      db.setAppendOnly.writeMode = .appendOnly ∧ db.setAppendOnly.keymap.get "a" = some 0 ∧
      db.setAppendOnly.state.cell 0 ≠ 0 ∧ db.setAppendOnly.getTyped "a" = some (.text "hello") ∧
      BlobStore.Fits db.setAppendOnly.blobStore "a" (Text.utf8 "world") ∧
      (execute insertWorldEnv insertWorld (SqlExecutor.new db.setAppendOnly 0)).2.db.getTyped "a" =
        some (.text "world") ∧
      (execute insertWorldEnv insertWorld (SqlExecutor.new db.setAppendOnly 0)).2.db.getTyped "a" ≠
        some (.text "hello") := by
  obtain ⟨entry, db, hcommit, hdb⟩ := exists_holdsText "hello"
  have hworld : (execute insertWorldEnv insertWorld (SqlExecutor.new db.setAppendOnly 0)).2.db.getTyped "a" =
      some (.text "world") := by
    rw [execute_insertWorld]
    exact getTyped_putTyped_text _ "a" "world" _ (hdb.fits _)
  refine ⟨entry, db, hcommit, hdb.locked, hdb.index, ?_, hdb.getTyped, hdb.fits _, hworld, ?_⟩
  · rw [hdb.cell]
    decide
  · rw [hworld]
    intro heq
    have htext := TypedValue.text.inj (Option.some.inj heq)
    simp at htext

end AgentHalo.Sql
