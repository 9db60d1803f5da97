import AgentHalo.Engine.CommitSpec
import AgentHalo.Sql.Executor

/-!
# What a reader sees around a COMMIT

A reader of an executor looks at the committed cells through the queued writes. `COMMIT` folds the queue into one write
for each index and hands it to the engine, which resizes the state and applies it. The two resolutions of repeated
writes agree: `visibleCell_flushCommit` says that a commit that succeeds changes no visible cell, and everything a plain
reader shows is a function of the visible cells and of stores that no commit touches (`SameView`).
-/

namespace AgentHalo.Sql.SqlExecutor

open Engine Engine.NucleusDb

variable {P : Platform}

theorem pendingOverlay_get (ex : SqlExecutor P) (idx : Nat) :
    ex.pendingOverlay[idx]? = Writes.last ex.pendingWrites idx := by
  unfold pendingOverlay
  rw [Writes.get?_foldl_insert, Std.ExtTreeMap.getElem?_empty, Option.or_none]

theorem visibleCell_eq (ex : SqlExecutor P) (idx : Nat) :
    ex.visibleCell idx = (Writes.last ex.pendingWrites idx).getD (ex.db.state.cell idx) := by
  unfold visibleCell
  rw [pendingOverlay_get]

theorem visibleCell_of_empty {ex : SqlExecutor P} (h : ex.pendingWrites = []) (idx : Nat) :
    ex.visibleCell idx = ex.db.state.cell idx := by
  rw [visibleCell_eq, h]
  rfl

theorem cell_apply_overlay (ex : SqlExecutor P) (idx : Nat) :
    (apply ex.db.state ⟨ex.pendingOverlay.toList⟩).cell idx = ex.visibleCell idx := by
  rw [cell_apply, Writes.last_toList]
  rfl

/-! ### Two executors with one view -/

/-- Nothing a plain reader looks at tells the two executors apart. -/
structure SameView (ex ex' : SqlExecutor P) : Prop where
  keymap : ex'.db.keymap = ex.db.keymap
  typeMap : ex'.db.typeMap = ex.db.typeMap
  blobStore : ex'.db.blobStore = ex.db.blobStore
  cells : ∀ idx, ex'.visibleCell idx = ex.visibleCell idx

namespace SameView

variable {ex ex' : SqlExecutor P}

theorem refl (ex : SqlExecutor P) : SameView ex ex := ⟨rfl, rfl, rfl, fun _ => rfl⟩

theorem visibleTyped (h : SameView ex ex') (key : String) (idx : Nat) :
    ex'.visibleTyped key idx = ex.visibleTyped key idx := by
  unfold SqlExecutor.visibleTyped
  rw [h.typeMap, h.blobStore, h.cells]

theorem selectRows (h : SameView ex ex') (projection : List ProjectionField) (selection : Option Expr)
    (keys : List (String × Nat)) :
    ex'.selectRows projection selection keys = ex.selectRows projection selection keys := by
  induction keys with
  | nil => rfl
  | cons entry rest ih =>
    obtain ⟨key, idx⟩ := entry
    unfold SqlExecutor.selectRows
    rw [h.visibleTyped, h.typeMap, ih]

theorem exportPayload (h : SameView ex ex') (keys : List (String × Nat)) :
    ex'.exportPayload keys = ex.exportPayload keys := by
  induction keys with
  | nil => rfl
  | cons entry rest ih =>
    obtain ⟨key, idx⟩ := entry
    unfold SqlExecutor.exportPayload
    rw [h.visibleTyped, ih]

theorem exportJson (h : SameView ex ex') : ex'.exportJson = ex.exportJson := by
  unfold SqlExecutor.exportJson
  rw [h.keymap, h.exportPayload]

theorem showKeyHistory (h : SameView ex ex') (sql : String) : ex'.showKeyHistory sql = ex.showKeyHistory sql := by
  unfold SqlExecutor.showKeyHistory
  simp only [h.keymap, h.cells]

end SameView

/-- The query is a `SELECT` whose `WHERE` is not a vector search, or no `SELECT` at all. -/
def PlainQuery (P : Platform) (q : Query) : Prop :=
  ∀ select, q.body = .select select → (select.selection.bind (extractVectorSearch P)).isNone

theorem SameView.executeSelect {ex ex' : SqlExecutor P} (h : SameView ex ex') {q : Query} (hplain : PlainQuery P q) :
    ex'.executeSelect q = ex.executeSelect q := by
  unfold SqlExecutor.executeSelect
  cases hbody : q.body with
  | select select =>
    have hnone : select.selection.bind (extractVectorSearch P) = none := by simpa using hplain select hbody
    simp only [hnone, h.keymap, h.selectRows]
  | _ => rfl

/-! ### COMMIT -/

/-- An environment for statements that are given parsed: its clock stands still and its parser reads nothing. -/
def parsedEnv : SqlEnv where
  parseSql _ := .error "sql parser error: Expected: an SQL statement"
  rfc3339 _ := some "1970-01-01T00:00:00+00:00"
  debugCommitError _ := "EmptyWitnessSet"
  clock _ := 0

variable {env : SqlEnv}

theorem flushCommit_sameView {ex : SqlExecutor P} {message : String}
    (h : (ex.flushCommit env).1 = some (.ok message)) : SameView ex (ex.flushCommit env).2 := by
  unfold flushCommit at h ⊢
  by_cases hempty : ex.pendingWrites.isEmpty
  · rw [if_pos hempty]
    exact SameView.refl ex
  · rw [if_neg hempty] at h ⊢
    cases hcommit : ex.db.commit ⟨ex.pendingOverlay.toList⟩ [] (env.clock ex.clockReads) with
    | none => simp [hcommit] at h
    | some out =>
      obtain ⟨r, db⟩ := out
      cases r with
      | error e => simp [hcommit] at h
      | ok entry =>
        obtain ⟨rs, sigs, hc⟩ := commit_ok hcommit
        have hframe := hc.sameFrame
        refine ⟨hframe.keymap, hframe.typeMap, hframe.blobStore, ?_⟩
        intro idx
        rw [visibleCell_of_empty rfl, ← cell_apply_overlay, ← hc.advanced.state]

/-- **COMMIT is invisible to readers.** When `COMMIT` answers `Ok`, every plain `SELECT`, every `SHOW HISTORY 'key'` and
`EXPORT` answer after it as they did before it, whatever was queued. -/
theorem flushCommit_invisible (env : SqlEnv) (ex : SqlExecutor P) (message : String)
    (hok : (ex.flushCommit env).1 = some (.ok message)) :
    (∀ q, PlainQuery P q → (ex.flushCommit env).2.executeSelect q = ex.executeSelect q) ∧
      (∀ sql, (ex.flushCommit env).2.showKeyHistory sql = ex.showKeyHistory sql) ∧
      (ex.flushCommit env).2.exportJson = ex.exportJson := by
  have hview := flushCommit_sameView hok
  refine ⟨?_, hview.showKeyHistory, hview.exportJson⟩
  intro q hplain
  exact hview.executeSelect hplain

theorem flushCommit_ok_of_ready {db : NucleusDb .reference} (hdb : Ready db) (hstate : db.state = ⟨[]⟩) :
    ∃ message, (flushCommit parsedEnv ⟨db, [(0, 5), (3, 7), (0, 1)], false, 0⟩).1 = some (.ok message) := by
  have hoverlay : (pendingOverlay ⟨db, [(0, 5), (3, 7), (0, 1)], false, 0⟩).toList = [(0, 1), (3, 7)] := by
    unfold pendingOverlay
    dsimp only
    decide
  have hcommits : ∃ entry db', db.commit ⟨[(0, 1), (3, 7)]⟩ [] 0 = some (.ok entry, db') := by
    refine hdb.commit 0 ?_
    rw [hstate]
    rfl
  obtain ⟨entry, db', hcommit⟩ := hcommits
  refine ⟨"Committed at height " ++ toString entry.height, ?_⟩
  unfold flushCommit
  rw [if_neg (by simp), hoverlay]
  dsimp only [parsedEnv]
  rw [hcommit]

/-- Three queued writes, two of them to one index and one past the end of the empty state. -/
theorem flushCommit_invisible_repeated : ∃ (ex : SqlExecutor .reference) (message : String),
    ex.pendingWrites = [(0, 5), (3, 7), (0, 1)] ∧ ex.db.state = ⟨[]⟩ ∧
      (ex.flushCommit parsedEnv).1 = some (.ok message) ∧
      (ex.flushCommit parsedEnv).2.exportJson = ex.exportJson := by
  obtain ⟨message, hok⟩ := flushCommit_ok_of_ready singleWitnessDb_ready rfl
  exact ⟨_, message, rfl, rfl, hok, (flushCommit_invisible parsedEnv _ message hok).2.2⟩

end AgentHalo.Sql.SqlExecutor
