import AgentHalo.Engine.AppendOnly
import AgentHalo.Sql.Executor

/-!
# Rules for scripts

A script changes the executor only through the statements it reaches, so a property of the executor that every reached
statement keeps is kept by the script. The side condition of a rule is read at each statement, in the state in which
the statement is executed: `ScriptMeets` follows the control flow of `execute`, the early stop at an error included.
The last part says, for `INSERT`, `COMMIT` and the rejected statements, what each does to the database.
-/

namespace AgentHalo.Sql.SqlExecutor

open Engine Engine.NucleusDb
open Store (TypedValue)

variable {P : Platform} (env : SqlEnv)

/-! ### Side conditions along a script -/

/-- Every statement a single text executes meets the guard. Custom commands are not parsed statements. -/
def SingleMeets (G : Statement → SqlExecutor P → Prop) (trimmed : String) (ex : SqlExecutor P) : Prop :=
  ex.executeCustom env trimmed = none → ∀ ast, env.parseSql trimmed = .ok ast →
    Run.LoopAlong (executeStatement env) stops G ast ex

/-- Every statement a script executes meets the guard. -/
def ScriptMeets (G : Statement → SqlExecutor P → Prop) (sql : String) (ex : SqlExecutor P) : Prop :=
  let trimmed := Text.trim sql
  if trimmed.isEmpty then True
  else if _ : 1 < (splitSqlStatements trimmed).length then
    Run.LoopAlong (fun (stmt : {stmt // stmt ∈ splitSqlStatements trimmed}) ex => execute env stmt.1 ex) stops
      (fun stmt ex => ScriptMeets G stmt.1 ex) (splitSqlStatements trimmed).attach ex
  else SingleMeets env G trimmed ex
termination_by sql.toList.length
decreasing_by
  exact Nat.lt_of_lt_of_le (length_lt_of_mem_split ‹_› stmt.2) (trim_length_le sql)

variable {env}

variable {G : Statement → SqlExecutor P → Prop} {I : SqlExecutor P → Prop} {ex : SqlExecutor P} {sql : String} {ins : Insert}

theorem executeSingle_invariant (hcustom : ∀ sql ex out, I ex → ex.executeCustom env sql = some out → I out.2)
    (hstmt : ∀ stmt ex, I ex → G stmt ex → I (executeStatement env stmt ex).2) {trimmed : String} (hI : I ex)
    (hmeets : SingleMeets env G trimmed ex) :
    I (executeSingle env trimmed ex).2 := by
  unfold executeSingle
  cases hc : ex.executeCustom env trimmed with
  | some out => exact hcustom trimmed ex out hI hc
  | none =>
    cases hp : env.parseSql trimmed with
    | error e => exact hI
    | ok ast =>
      cases ast with
      | nil => exact hI
      | cons stmt rest => exact Run.loop_invariant_along (I := I) (fun stmt _ ex => hstmt stmt ex) hI (hmeets hc _ hp)

theorem execute_cases (env : SqlEnv) (sql : String) (ex : SqlExecutor P) :
    execute env sql ex = (some (.ok "No statements"), ex) ∨
    (1 < (splitSqlStatements (Text.trim sql)).length ∧
      execute env sql ex = Run.loop (fun (stmt : {stmt // stmt ∈ splitSqlStatements (Text.trim sql)}) ex =>
        execute env stmt.1 ex) stops (splitSqlStatements (Text.trim sql)).attach (some (.ok "No-op")) ex ∧
      ∀ G, ScriptMeets env G sql ex = Run.LoopAlong (fun (stmt : {stmt // stmt ∈ splitSqlStatements (Text.trim sql)})
        ex => execute env stmt.1 ex) stops (fun stmt ex => ScriptMeets env G stmt.1 ex)
        (splitSqlStatements (Text.trim sql)).attach ex) ∨
    (execute env sql ex = executeSingle env (Text.trim sql) ex ∧
      ∀ G, ScriptMeets env G sql ex = SingleMeets env G (Text.trim sql) ex) := by
  by_cases hempty : (Text.trim sql).isEmpty = true
  · left
    rw [execute, if_pos hempty]
  · right
    by_cases hmany : 1 < (splitSqlStatements (Text.trim sql)).length
    · left
      refine ⟨hmany, ?_, ?_⟩
      · rw [execute, if_neg hempty, dif_pos hmany]
      · intro G
        rw [ScriptMeets, if_neg hempty, dif_pos hmany]
    · right
      constructor
      · rw [execute, if_neg hempty, dif_neg hmany]
      · intro G
        rw [ScriptMeets, if_neg hempty, dif_neg hmany]

theorem execute_of_single (env : SqlEnv) (ex : SqlExecutor P) (htrim : Text.trim sql = sql) (hne : sql.isEmpty = false)
    (hone : (splitSqlStatements sql).length ≤ 1) :
    execute env sql ex = executeSingle env sql ex ∧ ∀ G, ScriptMeets env G sql ex = SingleMeets env G sql ex := by
  constructor
  · rw [execute, htrim, if_neg (by simp [hne]), dif_neg (by omega)]
  · intro G
    rw [ScriptMeets, htrim, if_neg (by simp [hne]), dif_neg (by omega)]

theorem execute_invariant (hcustom : ∀ sql ex out, I ex → ex.executeCustom env sql = some out → I out.2)
    (hstmt : ∀ stmt ex, I ex → G stmt ex → I (executeStatement env stmt ex).2) (hI : I ex)
    (hmeets : ScriptMeets env G sql ex) : I (execute env sql ex).2 := by
  -- on the length of the script, which is what the recursion of `execute` goes down on
  induction hn : sql.toList.length using Nat.strong_induction_on generalizing sql ex with
  | _ n ih =>
    rcases execute_cases env sql ex with heq | ⟨hmany, heq, hscript⟩ | ⟨heq, hscript⟩
    · rw [heq]
      exact hI
    · rw [hscript] at hmeets
      rw [heq]
      refine Run.loop_invariant_along (I := I) ?_ hI hmeets
      rintro ⟨stmt, hmem⟩ - ex' hI' hmeets'
      have hshorter : stmt.toList.length < sql.toList.length :=
        Nat.lt_of_lt_of_le (length_lt_of_mem_split hmany hmem) (trim_length_le sql)
      exact ih _ (hn ▸ hshorter) hI' hmeets' rfl
    · rw [hscript] at hmeets
      rw [heq]
      exact executeSingle_invariant hcustom hstmt hI hmeets

/-! ### What statements do to the database -/

theorem flushCommit_db (env : SqlEnv) (ex : SqlExecutor P) : (ex.flushCommit env).2.db = ex.db ∨
    ∃ delta now r, ex.db.commit delta [] now = some (r, (ex.flushCommit env).2.db) := by
  unfold flushCommit
  split
  · exact .inl rfl
  · split
    · exact .inl rfl
    · rename_i entry db hcommit
      exact .inr ⟨_, _, _, hcommit⟩
    · rename_i e db hcommit
      exact .inr ⟨_, _, _, hcommit⟩

theorem executeCustom_db {out : Outcome P} (h : ex.executeCustom env sql = some out) :
    out.2.db = ex.db ∨ out = ex.flushCommit env ∨ out.2.db = ex.db.setAppendOnly := by
  unfold executeCustom at h
  split at h
  case h_3 => exact .inr (.inl (Option.some.inj h).symm)
  case h_9 => cases h; exact .inr (.inr rfl)
  case h_10 => cases h; exact .inr (.inr rfl)
  case h_11 =>
    split at h
    · cases h; exact .inl rfl
    · split at h
      · cases h; exact .inl rfl
      · cases h
  all_goals cases h; exact .inl rfl

theorem executeCustom_of_insert (env : SqlEnv) (ex : SqlExecutor P) (h : (normalizeCommand sql).toList.head? = some 'I') :
    ex.executeCustom env sql = none := by
  unfold executeCustom
  split
  case h_11 =>
    have hhead : ∀ word : String, Text.startsWith (normalizeCommand sql) word = true → word.toList ≠ [] →
        word.toList.head? = some 'I' := by
      intro word hword hne
      obtain ⟨tail, htail⟩ := List.isPrefixOf_iff_prefix.mp hword
      rw [← htail, List.head?_append_of_ne_nil _ hne] at h
      exact h
    rw [if_neg, if_neg]
    · intro hverify
      have hletter := hhead _ hverify (by simp)
      simp at hletter
    · intro hshow
      have hletter := hhead _ hshow (by simp)
      simp at hletter
  all_goals
    rename_i hcommand
    rw [hcommand] at h
    simp at h

/-- What an `INSERT` of a form the executor supports asks for. -/
def insertRequest (P : Platform) (ins : Insert) : Option (TypedInsert P) :=
  if insertTargetsData ins && ins.assignments.isEmpty then
    ins.source.bind fun source => (extractInsertTyped P source ins.columns).toOption
  else none

def nextClock (env : SqlEnv) (ex : SqlExecutor P) : Clock :=
  { vector := env.clock ex.clockReads, blob := env.clock (ex.clockReads + 1) }

def insertedDb (env : SqlEnv) (ex : SqlExecutor P) : Option (TypedInsert P) → NucleusDb P
  | none => ex.db
  | some (.typed key value) => (ex.db.putTyped key value (nextClock env ex)).2
  | some (.legacyU64 key _) => { ex.db with keymap := (ex.db.keymap.getOrCreate key).2 }

theorem executeInsert_db (ex : SqlExecutor P) (ins : Insert) :
    (ex.executeInsert env ins).2.db = insertedDb env ex (insertRequest P ins) := by
  unfold executeInsert insertRequest
  cases htarget : insertTargetsData ins
  · rfl
  cases hassign : ins.assignments.isEmpty
  · rfl
  cases hsource : ins.source with
  | none => rfl
  | some source =>
    cases hextract : extractInsertTyped P source ins.columns with
    | error e =>
      simp [hextract, insertedDb, Except.toOption]
    | ok request =>
      cases request with
      | legacyU64 key value => simp [hextract, insertedDb, Except.toOption, queue]
      | typed key value =>
        simp only [hextract, Bool.not_true, Bool.false_eq_true, if_false, Bool.and_self, if_true, Option.bind_some,
          Except.toOption, insertedDb, putTypedNow, nextClock]
        cases (ex.db.putTyped key value
          { vector := env.clock ex.clockReads, blob := env.clock (ex.clockReads + 1) }).1 with
        | error e => rfl
        | ok write => rfl

theorem insertRequest_eq_some {request : TypedInsert P} (h : insertRequest P ins = some request) :
    insertTargetsData ins = true ∧ ins.assignments.isEmpty = true ∧
      ∃ source, ins.source = some source ∧ extractInsertTyped P source ins.columns = .ok request := by
  unfold insertRequest at h
  split_ifs at h with hform
  obtain ⟨htarget, hassign⟩ := (Bool.and_eq_true _ _).mp hform
  obtain ⟨source, hsource, hextract⟩ := Option.bind_eq_some_iff.mp h
  refine ⟨htarget, hassign, source, hsource, ?_⟩
  cases hread : extractInsertTyped P source ins.columns with
  | error e =>
    rw [hread] at hextract
    cases hextract
  | ok request' =>
    rw [hread] at hextract
    exact congrArg Except.ok (Option.some.inj hextract)

theorem executeInsert_of_none (env : SqlEnv) (ex : SqlExecutor P) (h : insertRequest P ins = none) :
    ∃ message, ex.executeInsert env ins = (.error message, ex) := by
  unfold executeInsert
  unfold insertRequest at h
  cases htarget : insertTargetsData ins with
  | false => exact ⟨_, rfl⟩
  | true =>
    cases hassign : ins.assignments.isEmpty with
    | false => exact ⟨_, rfl⟩
    | true =>
      cases hsource : ins.source with
      | none => exact ⟨_, rfl⟩
      | some source =>
        cases hextract : extractInsertTyped P source ins.columns with
        | error e => exact ⟨e, by simp [hextract]⟩
        | ok request => simp [htarget, hassign, hsource, hextract, Except.toOption] at h

section Insert

variable {ex ex' : SqlExecutor P} {ins : Insert} {key : String}

theorem executeInsert_of_legacy (env : SqlEnv) (ex : SqlExecutor P) {value : UInt64}
    (h : insertRequest P ins = some (.legacyU64 key value)) :
    ∃ message, ex.executeInsert env ins =
      (.ok message, { ex with db := { ex.db with keymap := (ex.db.keymap.getOrCreate key).2 } }.queue
        ((ex.db.keymap.getOrCreate key).1, value)) := by
  obtain ⟨htarget, hassign, source, hsource, hextract⟩ := insertRequest_eq_some h
  unfold executeInsert
  simp only [htarget, hassign, hsource, hextract, Bool.not_true, Bool.false_eq_true, if_false]
  exact ⟨_, rfl⟩

theorem executeInsert_of_typed {value : TypedValue P} {write : Nat × UInt64}
    (h : insertRequest P ins = some (.typed key value)) (hput : ex.putTypedNow env key value = (.ok write, ex')) :
    ∃ message, ex.executeInsert env ins = (.ok message, ex'.queue write) := by
  obtain ⟨htarget, hassign, source, hsource, hextract⟩ := insertRequest_eq_some h
  unfold executeInsert
  simp only [htarget, hassign, hsource, hextract, hput, Bool.not_true, Bool.false_eq_true, if_false]
  exact ⟨_, rfl⟩

theorem executeInsert_of_rejected {value : TypedValue P} {e : String}
    (h : insertRequest P ins = some (.typed key value)) (hput : ex.putTypedNow env key value = (.error e, ex')) :
    ∃ message, ex.executeInsert env ins = (.error message, ex') := by
  obtain ⟨htarget, hassign, source, hsource, hextract⟩ := insertRequest_eq_some h
  unfold executeInsert
  simp only [htarget, hassign, hsource, hextract, hput, Bool.not_true, Bool.false_eq_true, if_false]
  exact ⟨_, rfl⟩

end Insert

section Loop

variable (env : SqlEnv) (what : String) (selection : Option Expr)

variable {value : TypedValue P} {rest : List String}

theorem writeSelected_selected {ex' : SqlExecutor P} {write : Nat × UInt64}
    (hselect : selectionMatchesKey selection key = .ok true) (hput : ex.putTypedNow env key value = (.ok write, ex')) :
    writeSelected env what value selection (key :: rest) ex =
      ((writeSelected env what value selection rest (ex'.queue write)).1.map (· + 1),
        (writeSelected env what value selection rest (ex'.queue write)).2) := by
  conv_lhs => unfold writeSelected
  rw [hselect]
  dsimp only
  rw [hput]

theorem writeSelected_skipped (hselect : selectionMatchesKey selection key = .ok false) :
    writeSelected env what value selection (key :: rest) ex = writeSelected env what value selection rest ex := by
  conv_lhs => unfold writeSelected
  rw [hselect]

theorem writeSelected_failed {e : String} (hselect : selectionMatchesKey selection key = .error e) :
    writeSelected env what value selection (key :: rest) ex = (.error e, ex) := by
  unfold writeSelected
  rw [hselect]

end Loop

theorem executeUpdate_locked (hmode : ex.db.writeMode = .appendOnly) (table : TableWithJoins) (assignments : List Assignment)
    (selection : Option Expr) :
    (ex.executeUpdate env table assignments selection).2 = ex := by
  unfold executeUpdate
  rw [if_pos hmode]

theorem executeDelete_locked (hmode : ex.db.writeMode = .appendOnly) (del : Delete) :
    (ex.executeDelete env del).2 = ex := by
  unfold executeDelete
  rw [if_pos hmode]

/-! ### Invariants of the database

A property of the database that every operation of the engine keeps is kept by every command and every statement. -/

section Keeps

variable {I : NucleusDb P → Prop} (hI : DbInvariant I)
include hI

theorem flushCommit_keeps (env : SqlEnv) (h : I ex.db) : I (ex.flushCommit env).2.db := by
  rcases flushCommit_db env ex with heq | ⟨delta, now, r, hcommit⟩
  · rw [heq]
    exact h
  · exact hI.commit h hcommit

theorem writeSelected_keeps (env : SqlEnv) (what : String) (value : TypedValue P) (selection : Option Expr)
    (keys : List String) (h : I ex.db) :
    I (writeSelected env what value selection keys ex).2.db := by
  induction keys generalizing ex with
  | nil => exact h
  | cons key rest ih =>
    cases hselect : selectionMatchesKey selection key with
    | error e =>
      rw [writeSelected_failed env what selection hselect]
      exact h
    | ok selected =>
      cases selected with
      | false =>
        rw [writeSelected_skipped env what selection hselect]
        exact ih h
      | true =>
        have hput : I (ex.putTypedNow env key value).2.db := hI.putTyped key value _ h
        cases hwrite : ex.putTypedNow env key value with
        | mk r ex' =>
          rw [hwrite] at hput
          cases r with
          | error e =>
            unfold writeSelected
            rw [hselect]
            dsimp only
            rw [hwrite]
            exact hput
          | ok write =>
            rw [writeSelected_selected env what selection hselect hwrite]
            exact ih hput

theorem writeAll_keeps (env : SqlEnv) (h : I ex.db) (what noun : String) (value : TypedValue P) (selection : Option Expr) :
    I (ex.writeAll env what noun value selection).2.db := by
  have hloop := writeSelected_keeps hI env what value selection (ex.db.keymap.allKeys.map (·.1)) h
  unfold writeAll
  split
  · rename_i heq
    rw [heq] at hloop
    exact hloop
  · rename_i heq
    rw [heq] at hloop
    exact hloop

theorem executeInsert_keeps (env : SqlEnv) (h : I ex.db) (ins : Insert) :
    I (ex.executeInsert env ins).2.db := by
  rw [executeInsert_db]
  cases insertRequest P ins with
  | none => exact h
  | some request =>
    cases request with
    | typed key value => exact hI.putTyped key value _ h
    | legacyU64 key value => exact hI.getOrCreate key h

theorem executeStatement_keeps (env : SqlEnv) (h : I ex.db) (stmt : Statement) :
    I (executeStatement env stmt ex).2.db := by
  cases stmt with
  | insert ins => exact executeInsert_keeps hI env h ins
  | commit => exact flushCommit_keeps hI env h
  | update table assignments selection =>
    unfold executeStatement answered executeUpdate
    dsimp only
    split_ifs
    · exact h
    · exact h
    · cases extractUpdateValue assignments with
      | error e => exact h
      | ok value => exact writeAll_keeps hI env h _ _ _ _
  | delete del =>
    unfold executeStatement answered executeDelete
    dsimp only
    split_ifs
    · exact h
    · exact h
    · exact writeAll_keeps hI env h _ _ _ _
  | query | createTable | other => exact h

theorem executeCustom_keeps {sql : String} {out : Outcome P} (h : I ex.db) (hout : ex.executeCustom env sql = some out) :
    I out.2.db := by
  rcases executeCustom_db hout with heq | rfl | heq
  · rw [heq]
    exact h
  · exact flushCommit_keeps hI env h
  · rw [heq]
    exact hI.setAppendOnly h

end Keeps

end AgentHalo.Sql.SqlExecutor
