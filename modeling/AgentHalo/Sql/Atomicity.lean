import AgentHalo.Engine.TypedLaw
import AgentHalo.Sql.Rules
import AgentHalo.Sql.Visibility

/-!
# Which failed statements leave no trace

`UPDATE` and `DELETE` evaluate the `WHERE` predicate key by key and write at once, so they can fail on a later key; the
writes made so far stay. `INSERT` checks everything before it writes, except that the vector index ages its scores before
it refuses a vector. `Clean` is the condition under which a statement has no such half-made effect
(`writeStatement_atomic_iff`).
-/

namespace AgentHalo.Sql

open Engine Engine.NucleusDb
open Store (TypedValue BoundedStore VectorIndex)

variable {P : Platform}

/-! ### The statements and the property -/

inductive WriteStatement where
  | insert (ins : Insert)
  | update (table : TableWithJoins) (assignments : List Assignment) (selection : Option Expr)
  | delete (del : Delete)

def WriteStatement.toStatement : WriteStatement → Statement
  | .insert ins => .insert ins
  | .update table assignments selection => .update table assignments selection
  | .delete del => .delete del

namespace SqlExecutor

/-- The database and the queue are what they were. -/
structure Untouched (ex ex' : SqlExecutor P) : Prop where
  keymap : ex'.db.keymap = ex.db.keymap
  typeMap : ex'.db.typeMap = ex.db.typeMap
  blobStore : ex'.db.blobStore = ex.db.blobStore
  vectorIndex : ex'.db.vectorIndex = ex.db.vectorIndex
  state : ex'.db.state = ex.db.state
  entries : ex'.db.entries = ex.db.entries
  pendingWrites : ex'.pendingWrites = ex.pendingWrites

theorem Untouched.refl (ex : SqlExecutor P) : Untouched ex ex := ⟨rfl, rfl, rfl, rfl, rfl, rfl, rfl⟩

/-- If the statement answers with an error it has changed nothing. -/
def Atomic (env : SqlEnv) (ex : SqlExecutor P) (w : WriteStatement) : Prop :=
  ∀ message, (executeStatement env w.toStatement ex).1 = some (.error message) →
    Untouched ex (executeStatement env w.toStatement ex).2

/-! ### The predicate over the keys -/

/-- The predicate cannot be evaluated on some key. -/
def Fails (selection : Option Expr) (keys : List String) : Prop :=
  ∃ key ∈ keys, ∃ e, selectionMatchesKey selection key = .error e

/-- In key order, the predicate selects a key, without having failed before it, and fails on a later one. -/
def FailsAfterMatch (selection : Option Expr) (keys : List String) : Prop :=
  ∃ before key after, keys = before ++ key :: after ∧ selectionMatchesKey selection key = .ok true ∧
    ¬ Fails selection before ∧ Fails selection after

section Predicate

variable {selection : Option Expr} {key : String} {rest : List String}

theorem not_fails_nil : ¬ Fails selection [] := by
  rintro ⟨key, hmem, -⟩
  cases hmem

theorem fails_cons_of_ok {b : Bool} (h : selectionMatchesKey selection key = .ok b) :
    Fails selection (key :: rest) ↔ Fails selection rest := by
  unfold Fails
  constructor
  · rintro ⟨k, hmem, e, he⟩
    rcases List.mem_cons.mp hmem with rfl | hrest
    · rw [h] at he
      cases he
    · exact ⟨k, hrest, e, he⟩
  · rintro ⟨k, hmem, e, he⟩
    exact ⟨k, List.mem_cons_of_mem key hmem, e, he⟩

theorem not_failsAfterMatch_of_error {e : String} (h : selectionMatchesKey selection key = .error e) :
    ¬ FailsAfterMatch selection (key :: rest) := by
  rintro ⟨before, k, after, hkeys, hk, hbefore, -⟩
  cases before with
  | nil =>
    obtain ⟨rfl, -⟩ := List.cons.inj hkeys
    rw [h] at hk
    cases hk
  | cons k' before =>
    obtain ⟨rfl, -⟩ := List.cons.inj hkeys
    exact hbefore ⟨key, List.mem_cons_self, e, h⟩

theorem failsAfterMatch_of_selected (h : selectionMatchesKey selection key = .ok true) :
    FailsAfterMatch selection (key :: rest) ↔ Fails selection rest := by
  constructor
  · rintro ⟨before, k, after, hkeys, -, -, k', hmem, hfail⟩
    cases before with
    | nil =>
      obtain ⟨-, rfl⟩ := List.cons.inj hkeys
      exact ⟨k', hmem, hfail⟩
    | cons k'' before =>
      obtain ⟨-, rfl⟩ := List.cons.inj hkeys
      exact ⟨k', List.mem_append_right _ (List.mem_cons_of_mem _ hmem), hfail⟩
  · intro hfails
    exact ⟨[], key, rest, rfl, h, not_fails_nil, hfails⟩

theorem failsAfterMatch_of_skipped (h : selectionMatchesKey selection key = .ok false) :
    FailsAfterMatch selection (key :: rest) ↔ FailsAfterMatch selection rest := by
  constructor
  · rintro ⟨before, k, after, hkeys, hk, hbefore, hafter⟩
    cases before with
    | nil =>
      obtain ⟨rfl, -⟩ := List.cons.inj hkeys
      rw [h] at hk
      cases hk
    | cons k' before =>
      obtain ⟨rfl, rfl⟩ := List.cons.inj hkeys
      exact ⟨before, k, after, rfl, hk, mt (fails_cons_of_ok h).mpr hbefore, hafter⟩
  · rintro ⟨before, k, after, rfl, hk, hbefore, hafter⟩
    exact ⟨key :: before, k, after, rfl, hk, mt (fails_cons_of_ok h).mp hbefore, hafter⟩

end Predicate

/-! ### The loop of UPDATE and DELETE -/

section Loop

variable (env : SqlEnv) (what : String) (v : Int64) (selection : Option Expr)

theorem putTypedNow_integer (ex : SqlExecutor P) (key : String) : ∃ write ex',
    ex.putTypedNow env key (.integer v) = (.ok write, ex') ∧ ex'.pendingWrites = ex.pendingWrites :=
  ⟨_, _, rfl, rfl⟩

theorem queue_length {ex ex' : SqlExecutor P} (h : ex'.pendingWrites = ex.pendingWrites) (write : Nat × UInt64) :
    (ex'.queue write).pendingWrites.length = ex.pendingWrites.length + 1 := by
  unfold queue
  rw [List.length_append, h]
  rfl

theorem writeSelected_pendingWrites (keys : List String) (ex : SqlExecutor P) :
    ex.pendingWrites.length ≤ (writeSelected env what (.integer v) selection keys ex).2.pendingWrites.length := by
  induction keys generalizing ex with
  | nil => exact Nat.le_refl _
  | cons key rest ih =>
    cases hselect : selectionMatchesKey selection key with
    | error e => rw [writeSelected_failed env what selection hselect]
    | ok selected =>
      cases selected with
      | false =>
        rw [writeSelected_skipped env what selection hselect]
        exact ih ex
      | true =>
        obtain ⟨write, ex', hput, hpending⟩ := putTypedNow_integer env v ex key
        have hrest := ih (ex'.queue write)
        rw [queue_length hpending] at hrest
        rw [writeSelected_selected env what selection hselect hput]
        exact Nat.le_of_succ_le hrest

theorem writeSelected_error_iff (keys : List String) (ex : SqlExecutor P) :
    (∃ e, (writeSelected env what (.integer v) selection keys ex).1 = .error e) ↔ Fails selection keys := by
  induction keys generalizing ex with
  | nil =>
    refine iff_of_false ?_ not_fails_nil
    rintro ⟨e, he⟩
    cases he
  | cons key rest ih =>
    cases hselect : selectionMatchesKey selection key with
    | error e =>
      rw [writeSelected_failed env what selection hselect]
      exact iff_of_true ⟨e, rfl⟩ ⟨key, List.mem_cons_self, e, hselect⟩
    | ok selected =>
      rw [fails_cons_of_ok hselect]
      cases selected with
      | false =>
        rw [writeSelected_skipped env what selection hselect]
        exact ih ex
      | true =>
        obtain ⟨write, ex', hput, -⟩ := putTypedNow_integer env v ex key
        rw [writeSelected_selected env what selection hselect hput, ← ih (ex'.queue write)]
        cases (writeSelected env what (.integer v) selection rest (ex'.queue write)).1 with
        | error e => exact iff_of_true ⟨e, rfl⟩ ⟨e, rfl⟩
        | ok n => simp [Except.map]

theorem writeSelected_of_fails (keys : List String) (ex : SqlExecutor P) (hfails : Fails selection keys) :
    (FailsAfterMatch selection keys →
        ex.pendingWrites.length < (writeSelected env what (.integer v) selection keys ex).2.pendingWrites.length) ∧
      (¬ FailsAfterMatch selection keys → (writeSelected env what (.integer v) selection keys ex).2 = ex) := by
  induction keys generalizing ex with
  | nil => exact absurd hfails not_fails_nil
  | cons key rest ih =>
    cases hselect : selectionMatchesKey selection key with
    | error e =>
      rw [writeSelected_failed env what selection hselect]
      refine ⟨?_, fun _ => rfl⟩
      intro hafter
      exact absurd hafter (not_failsAfterMatch_of_error hselect)
    | ok selected =>
      rw [fails_cons_of_ok hselect] at hfails
      cases selected with
      | false =>
        rw [writeSelected_skipped env what selection hselect, failsAfterMatch_of_skipped hselect]
        exact ih ex hfails
      | true =>
        obtain ⟨write, ex', hput, hpending⟩ := putTypedNow_integer env v ex key
        have hgrows := writeSelected_pendingWrites env what v selection rest (ex'.queue write)
        rw [queue_length hpending] at hgrows
        rw [writeSelected_selected env what selection hselect hput, failsAfterMatch_of_selected hselect]
        exact ⟨fun _ => hgrows, fun hnot => absurd hfails hnot⟩

end Loop

theorem writeAll_atomic_iff (env : SqlEnv) (ex : SqlExecutor P) (what noun : String) (v : Int64)
    (selection : Option Expr) :
    (∀ message, (ex.writeAll env what noun (.integer v) selection).1 = .error message →
        Untouched ex (ex.writeAll env what noun (.integer v) selection).2) ↔
      ¬ FailsAfterMatch selection (ex.db.keymap.allKeys.map (·.1)) := by
  have herror := writeSelected_error_iff env what v selection (ex.db.keymap.allKeys.map (·.1)) ex
  have hloop := writeSelected_of_fails env what v selection (ex.db.keymap.allKeys.map (·.1)) ex
  unfold writeAll
  cases hrun : writeSelected env what (.integer v) selection (ex.db.keymap.allKeys.map (·.1)) ex with
  | mk answer ex' =>
    rw [hrun] at herror hloop
    cases answer with
    | error e =>
      obtain ⟨hgrows, hkept⟩ := hloop (herror.mp ⟨e, rfl⟩)
      constructor
      · intro hatomic hafter
        have hsame := (hatomic e rfl).pendingWrites
        have hlonger := hgrows hafter
        rw [hsame] at hlonger
        exact Nat.lt_irrefl _ hlonger
      · intro hnot message _
        have hex : ex' = ex := hkept hnot
        rw [hex]
        exact Untouched.refl ex
    | ok touched =>
      refine iff_of_true ?_ ?_
      · intro message hmessage
        cases hmessage
      · rintro ⟨before, key, after, hkeys, -, -, k, hmem, hfail⟩
        have hfails : Fails selection (ex.db.keymap.allKeys.map (·.1)) := by
          rw [hkeys]
          exact ⟨k, List.mem_append_right _ (List.mem_cons_of_mem _ hmem), hfail⟩
        obtain ⟨e, he⟩ := herror.mpr hfails
        cases he

/-! ### INSERT -/

theorem putTypedNow_of_rejected (env : SqlEnv) (ex : SqlExecutor P) (key : String) {dims : List P.f64.F}
    (h : RejectsVector ex.db (.vector dims)) :
    ∃ e, ex.putTypedNow env key (.vector dims) =
      (.error e,
        { ex with
          db := { ex.db with
            vectorIndex := { ex.db.vectorIndex with
              vectors := ex.db.vectorIndex.vectors.applyTimeMaintenance (env.clock ex.clockReads) } }
          clockReads := ex.clockReads + 2 }) := by
  obtain ⟨e, hupsert⟩ := upsert_of_rejected ex.db.vectorIndex key dims (env.clock ex.clockReads) h
  unfold putTypedNow putTyped
  dsimp only
  rw [hupsert]
  exact ⟨e, rfl⟩

theorem putTypedNow_of_accepted (env : SqlEnv) (ex : SqlExecutor P) (key : String) {value : TypedValue P}
    (h : ¬ RejectsVector ex.db value) :
    ex.putTypedNow env key value =
      (.ok ((ex.db.keymap.getOrCreate key).1, (value.encode key).1),
        { ex with
          db := (ex.db.putTyped key value (nextClock env ex)).2
          clockReads := ex.clockReads + 2 }) := by
  unfold putTypedNow
  dsimp only
  rw [putTyped_of_accepted ex.db key value _ h]
  rfl

/-- The insertion, if it is of a vector that the index refuses, comes when the index has no maintenance to do. -/
def CleanInsert (env : SqlEnv) (ex : SqlExecutor P) (ins : Insert) : Prop :=
  ∀ key dims, insertRequest P ins = some (.typed key (.vector dims)) → RejectsVector ex.db (.vector dims) →
    ¬ ex.db.vectorIndex.vectors.MaintenanceDue (env.clock ex.clockReads)

theorem insert_atomic_iff (env : SqlEnv) (ex : SqlExecutor P) (ins : Insert) :
    (∀ message, (ex.executeInsert env ins).1 = .error message → Untouched ex (ex.executeInsert env ins).2) ↔
      CleanInsert env ex ins := by
  unfold CleanInsert
  cases hrequest : insertRequest P ins with
  | none =>
    obtain ⟨message, hrun⟩ := executeInsert_of_none env ex hrequest
    rw [hrun]
    refine iff_of_true (fun _ _ => Untouched.refl ex) ?_
    intro key dims hsome
    cases hsome
  | some request =>
    cases request with
    | legacyU64 key value =>
      obtain ⟨message, hrun⟩ := executeInsert_of_legacy env ex hrequest
      rw [hrun]
      refine iff_of_true ?_ ?_
      · intro _ herror
        cases herror
      · intro key dims hsome
        cases hsome
    | typed key value =>
      by_cases hrejects : RejectsVector ex.db value
      · cases value with
        | vector dims =>
          obtain ⟨e, hput⟩ := putTypedNow_of_rejected env ex key hrejects
          obtain ⟨message, hrun⟩ := executeInsert_of_rejected hrequest hput
          rw [hrun]
          constructor
          · intro hatomic key' dims' _ _
            have hindex := (hatomic message rfl).vectorIndex
            exact (BoundedStore.applyTimeMaintenance_eq_self_iff _ _).mp (congrArg VectorIndex.vectors hindex)
          · intro hclean message' _
            have hsame := (BoundedStore.applyTimeMaintenance_eq_self_iff _ _).mpr (hclean key dims rfl hrejects)
            refine ⟨rfl, rfl, rfl, ?_, rfl, rfl, rfl⟩
            dsimp only
            rw [hsame]
        | null | integer | float | bool | text | json | bytes => cases hrejects
      · obtain ⟨message, hrun⟩ := executeInsert_of_typed hrequest (putTypedNow_of_accepted env ex key hrejects)
        rw [hrun]
        refine iff_of_true ?_ ?_
        · intro _ herror
          cases herror
        · intro key' dims hsome hrejects'
          obtain ⟨-, rfl⟩ := TypedInsert.typed.inj (Option.some.inj hsome)
          exact absurd hrejects' hrejects

/-! ### All three -/

/-- The statement has no half-made effect: it is refused before it reaches its loop, or its predicate does not fail
after a match; and a vector it inserts is not refused while the index is due for maintenance. -/
def Clean (env : SqlEnv) (ex : SqlExecutor P) : WriteStatement → Prop
  | .insert ins => CleanInsert env ex ins
  | .update table assignments selection =>
    ex.db.writeMode = .normal → tableWithJoinsIsData table = true →
      (extractUpdateValue assignments).toOption.isSome →
        ¬ FailsAfterMatch selection (ex.db.keymap.allKeys.map (·.1))
  | .delete del =>
    ex.db.writeMode = .normal → deleteTargetsData del = true →
      ¬ FailsAfterMatch del.selection (ex.db.keymap.allKeys.map (·.1))

section Statements

variable {env : SqlEnv} {ex : SqlExecutor P}

variable {w : WriteStatement}

theorem atomic_iff_of_answered {r : SqlResult × SqlExecutor P} (h : executeStatement env w.toStatement ex = answered r) :
    Atomic env ex w ↔ ∀ message, r.1 = .error message → Untouched ex r.2 := by
  unfold Atomic
  rw [h]
  unfold answered
  simp only [Option.some.injEq]

theorem atomic_of_refused {r : SqlResult} (h : executeStatement env w.toStatement ex = answered (r, ex)) : Atomic env ex w := by
  rw [atomic_iff_of_answered h]
  intro _ _
  exact Untouched.refl ex

theorem writeMode_normal (h : ex.db.writeMode ≠ .appendOnly) : ex.db.writeMode = .normal := by
  cases hmode : ex.db.writeMode with
  | normal => rfl
  | appendOnly => exact absurd hmode h

theorem atomic_iff_of_loop {what noun : String} {v : Int64} {selection : Option Expr}
    (h : executeStatement env w.toStatement ex = answered (ex.writeAll env what noun (.integer v) selection)) :
    Atomic env ex w ↔ ¬ FailsAfterMatch selection (ex.db.keymap.allKeys.map (·.1)) := by
  rw [atomic_iff_of_answered h, writeAll_atomic_iff]

theorem update_atomic_iff (env : SqlEnv) (ex : SqlExecutor P) (table : TableWithJoins) (assignments : List Assignment)
    (selection : Option Expr) :
    Atomic env ex (.update table assignments selection) ↔ Clean env ex (.update table assignments selection) := by
  unfold Clean
  by_cases hmode : ex.db.writeMode = .appendOnly
  · refine iff_of_true (atomic_of_refused (congrArg answered (if_pos hmode))) ?_
    intro hnormal
    rw [hmode] at hnormal
    cases hnormal
  have hnormal := writeMode_normal hmode
  by_cases htable : tableWithJoinsIsData table = true
  · cases hvalue : extractUpdateValue assignments with
    | error e =>
      have hrefused : ex.executeUpdate env table assignments selection = (.error e, ex) := by
        simp [executeUpdate, hnormal, htable, hvalue]
      refine iff_of_true (atomic_of_refused (congrArg answered hrefused)) ?_
      intro _ _ hsome
      simp [hvalue, Except.toOption] at hsome
    | ok value =>
      have hloop : ex.executeUpdate env table assignments selection =
          ex.writeAll env "update" "update(s)" (.integer value.toInt64) selection := by
        simp [executeUpdate, hnormal, htable, hvalue]
      have hatomic : Atomic env ex (.update table assignments selection) ↔
          ¬ FailsAfterMatch selection (ex.db.keymap.allKeys.map (·.1)) :=
        atomic_iff_of_loop (congrArg answered hloop)
      rw [hatomic]
      simp [hnormal, htable, hvalue, Except.toOption]
  · have hrefused : ex.executeUpdate env table assignments selection =
        (.error ("Only virtual table '" ++ tableName ++ "' is supported"), ex) := by
      simp [executeUpdate, hnormal, htable]
    refine iff_of_true (atomic_of_refused (congrArg answered hrefused)) ?_
    intro _ hdata
    exact absurd hdata htable

theorem delete_atomic_iff (env : SqlEnv) (ex : SqlExecutor P) (del : Delete) :
    Atomic env ex (.delete del) ↔ Clean env ex (.delete del) := by
  unfold Clean
  by_cases hmode : ex.db.writeMode = .appendOnly
  · refine iff_of_true (atomic_of_refused (congrArg answered (if_pos hmode))) ?_
    intro hnormal
    rw [hmode] at hnormal
    cases hnormal
  have hnormal := writeMode_normal hmode
  by_cases htable : deleteTargetsData del = true
  · have hloop : ex.executeDelete env del =
        ex.writeAll env "delete" "delete tombstone(s)" (.integer 0) del.selection := by
      simp [executeDelete, hnormal, htable]
    have hatomic : Atomic env ex (.delete del) ↔
        ¬ FailsAfterMatch del.selection (ex.db.keymap.allKeys.map (·.1)) :=
      atomic_iff_of_loop (congrArg answered hloop)
    rw [hatomic]
    simp [hnormal, htable]
  · have hrefused : ex.executeDelete env del =
        (.error ("Only virtual table '" ++ tableName ++ "' is supported"), ex) := by
      simp [executeDelete, hnormal, htable]
    refine iff_of_true (atomic_of_refused (congrArg answered hrefused)) ?_
    intro _ hdata
    exact absurd hdata htable

end Statements

/-- **Statement atomicity.** For every executor and every single `INSERT`, `UPDATE` or `DELETE`: an error leaves the
database and the queue untouched exactly when the statement is `Clean`. -/
theorem writeStatement_atomic_iff (env : SqlEnv) (ex : SqlExecutor P) (w : WriteStatement) :
    Atomic env ex w ↔ Clean env ex w := by
  cases w with
  | insert ins => exact (atomic_iff_of_answered rfl).trans (insert_atomic_iff env ex ins)
  | update table assignments selection => exact update_atomic_iff env ex table assignments selection
  | delete del => exact delete_atomic_iff env ex del

/-! ### A failed UPDATE that has written -/

def keysAB : Store.KeyMap := ((Store.KeyMap.new.getOrCreate "a").2.getOrCreate "b").2

theorem keysAB_allKeys : keysAB.allKeys.map (·.1) = ["a", "b"] := by
  decide

/-- `UPDATE data SET value = 5 WHERE key = 'a' OR value = 5`. -/
def updateKeyOrValue : WriteStatement :=
  .update ⟨.table [.identifier ⟨tableName⟩], false⟩
    [⟨.columnName [.identifier ⟨colValue⟩], .value (.number "5")⟩]
    (some (.binaryOp (.binaryOp (.identifier ⟨colKey⟩) .eq (.value (.string "a"))) .or
      (.binaryOp (.identifier ⟨colValue⟩) .eq (.value (.number "5")))))

theorem failsAfterMatch_keyOrValue : FailsAfterMatch
    (some (.binaryOp (.binaryOp (.identifier ⟨colKey⟩) .eq (.value (.string "a"))) .or
      (.binaryOp (.identifier ⟨colValue⟩) .eq (.value (.number "5"))))) ["a", "b"] := by
  have hkey : isKeyExpr (.identifier ⟨colKey⟩) = true := Text.eqIgnoreAsciiCase_self colKey
  have hother : isKeyExpr (.identifier ⟨colValue⟩) = false := by
    unfold isKeyExpr identIs Text.eqIgnoreAsciiCase colValue colKey
    simp only [String.reduceToList]
    decide
  have hnumber : isKeyExpr (.value (.number "5")) = false := rfl
  refine ⟨[], "a", ["b"], rfl, ?_, not_fails_nil, "b", List.mem_singleton_self _,
    "Only predicates on 'key' are supported", ?_⟩
  · simp [selectionMatchesKey, evalKeyPredicate, hkey, exprAsString, Value.intoString, Except.map]
  · simp [selectionMatchesKey, evalKeyPredicate, hkey, hother, hnumber, exprAsString, Value.intoString, Except.map]

def executorAB : SqlExecutor .reference := SqlExecutor.new { singleWitnessDb with keymap := keysAB } 0

/-- On the keys `a` and `b` the `UPDATE` is an error, and its write to `a` is in the queue. -/
theorem update_error_leaves_write : ∃ message,
    (executeStatement parsedEnv updateKeyOrValue.toStatement executorAB).1 = some (.error message) ∧
      ¬ Untouched executorAB (executeStatement parsedEnv updateKeyOrValue.toStatement executorAB).2 := by
  have hvalue : (extractUpdateValue [⟨.columnName [.identifier ⟨colValue⟩], .value (.number "5")⟩]).toOption.isSome := by
    simp [extractUpdateValue, lastIdentIs, ObjectNamePart.asIdent, exprAsU64, Text.parseU64, Text.digitsValue,
      Except.toOption]
  have hunclean : ¬ Atomic parsedEnv executorAB updateKeyOrValue := by
    unfold updateKeyOrValue
    rw [update_atomic_iff]
    intro hclean
    refine hclean rfl (Text.eqIgnoreAsciiCase_self tableName) hvalue ?_
    show FailsAfterMatch _ (keysAB.allKeys.map (·.1))
    rw [keysAB_allKeys]
    exact failsAfterMatch_keyOrValue
  unfold Atomic at hunclean
  simp only [not_forall] at hunclean
  obtain ⟨message, herror, htouched⟩ := hunclean
  exact ⟨message, herror, htouched⟩

end SqlExecutor

end AgentHalo.Sql
