import AgentHalo.Sql.Visibility

/-!
# The row of one key

`SELECT key, value, type FROM data WHERE key = '…'` walks over all keys and keeps the one asked for. What it answers is
`shownRow`: no row for a key that is not registered, an error for one whose value does not decode, and else one row with
the decoded value and the tag. It depends on four things only, the index, the newest cell, the tag and the payload.
-/

namespace AgentHalo.Sql

open Engine Engine.NucleusDb
open Store (TypedValue BlobStore)

variable {P : Platform}

/-- `SELECT key, value, type FROM data WHERE key = '…'`. -/
def selectKey (key : String) : Query :=
  ⟨.select
    { from_ := [⟨.table [.identifier ⟨tableName⟩], false⟩]
      projection := [.unnamedExpr (.identifier ⟨colKey⟩), .unnamedExpr (.identifier ⟨colValue⟩),
        .unnamedExpr (.identifier ⟨colType⟩)]
      selection := some (.binaryOp (.identifier ⟨colKey⟩) .eq (.value (.string key))) }⟩

theorem selectKey_plain (P : Platform) (key : String) : SqlExecutor.PlainQuery P (selectKey key) := by
  intro select hselect
  obtain rfl := SetExpr.select.inj hselect
  rfl

theorem resolveProjection_columns :
    resolveProjection [.unnamedExpr (.identifier ⟨colKey⟩), .unnamedExpr (.identifier ⟨colValue⟩),
      .unnamedExpr (.identifier ⟨colType⟩)] = .ok [.key, .value, .type] := by
  have hvk : Text.eqIgnoreAsciiCase colValue colKey = false := by
    unfold Text.eqIgnoreAsciiCase colValue colKey
    simp only [String.reduceToList]
    decide
  have htk : Text.eqIgnoreAsciiCase colType colKey = false := by
    unfold Text.eqIgnoreAsciiCase colType colKey
    simp only [String.reduceToList]
    decide
  have htv : Text.eqIgnoreAsciiCase colType colValue = false := by
    unfold Text.eqIgnoreAsciiCase colType colValue
    simp only [String.reduceToList]
    decide
  simp [resolveProjection, projectionField, identIs, hvk, htk, htv]

namespace SqlExecutor

/-- What a `SELECT` of one key answers. -/
def shownRow (ex : SqlExecutor P) (key : String) : SqlResult :=
  match ex.db.keymap.get key with
  | none => .rows [colKey, colValue, colType] []
  | some idx =>
    match ex.visibleTyped key idx with
    | .error e => .error e
    | .ok typed => .rows [colKey, colValue, colType] [[key, typed.displayString, (ex.db.typeMap.get key).asStr]]

variable {ex : SqlExecutor P} {key : String} {idx : Nat}

theorem shownRow_of_absent (h : ex.db.keymap.get key = none) :
    ex.shownRow key = .rows [colKey, colValue, colType] [] := by
  unfold shownRow
  rw [h]

theorem shownRow_of_ok {typed : TypedValue P} (hidx : ex.db.keymap.get key = some idx)
    (h : ex.visibleTyped key idx = .ok typed) :
    ex.shownRow key =
      .rows [colKey, colValue, colType] [[key, typed.displayString, (ex.db.typeMap.get key).asStr]] := by
  unfold shownRow
  rw [hidx]
  dsimp only
  rw [h]

theorem shownRow_of_error {e : String} (hidx : ex.db.keymap.get key = some idx) (h : ex.visibleTyped key idx = .error e) :
    ex.shownRow key = .error e := by
  unfold shownRow
  rw [hidx]
  dsimp only
  rw [h]

theorem selectionMatchesKey_eq (key other : String) :
    selectionMatchesKey (some (.binaryOp (.identifier ⟨colKey⟩) .eq (.value (.string key)))) other =
      .ok (other == key) := by
  unfold selectionMatchesKey evalKeyPredicate
  have hkey : isKeyExpr (.identifier ⟨colKey⟩) = true := Text.eqIgnoreAsciiCase_self colKey
  simp only [hkey, if_true]
  rfl

section Rows

variable (ex : SqlExecutor P) (projection : List ProjectionField) {key : String} {selection : Option Expr}
  (hselection : ∀ other, selectionMatchesKey selection other = .ok (other == key))
include hselection

theorem selectRows_absent (keys : List (String × Nat)) (h : ∀ entry ∈ keys, entry.1 ≠ key) :
    ex.selectRows projection selection keys = .ok [] := by
  induction keys with
  | nil => rfl
  | cons entry rest ih =>
    obtain ⟨other, idx⟩ := entry
    obtain ⟨hne, hrest⟩ := List.forall_mem_cons.mp h
    have hskip : selectionMatchesKey selection other = .ok false := by
      rw [hselection, beq_eq_false_iff_ne.mpr hne]
    unfold selectRows
    rw [hskip]
    exact ih hrest

theorem selectRows_present {keys : List (String × Nat)} (hdistinct : keys.Pairwise fun a b => a.1 ≠ b.1) {idx : Nat}
    (hmem : (key, idx) ∈ keys) :
    ex.selectRows projection selection keys =
      (ex.visibleTyped key idx).map fun typed =>
        [renderProjectionRow projection key typed (ex.db.typeMap.get key)] := by
  induction keys with
  | nil => cases hmem
  | cons entry rest ih =>
    obtain ⟨other, idx'⟩ := entry
    obtain ⟨hhead, htail⟩ := List.pairwise_cons.mp hdistinct
    unfold selectRows
    rcases List.mem_cons.mp hmem with heq | hrest
    · obtain ⟨rfl, rfl⟩ := Prod.mk.inj heq
      have hnone := selectRows_absent ex projection hselection rest fun entry hentry => (hhead entry hentry).symm
      rw [hselection, beq_self_eq_true, hnone]
      dsimp only
      cases ex.visibleTyped key idx with
      | error e => rfl
      | ok typed => rfl
    · have hne : other ≠ key := hhead _ hrest
      have hskip : selectionMatchesKey selection other = .ok false := by
        rw [hselection, beq_eq_false_iff_ne.mpr hne]
      rw [hskip]
      exact ih htail hrest

end Rows

theorem executeSelect_selectKey (ex : SqlExecutor P) (key : String) :
    ex.executeSelect (selectKey key) = ex.shownRow key := by
  have hdata : tableWithJoinsIsData ⟨.table [.identifier ⟨tableName⟩], false⟩ = true :=
    Text.eqIgnoreAsciiCase_self tableName
  have hdistinct : ex.db.keymap.allKeys.Pairwise fun a b => a.1 ≠ b.1 := OrdMap.toList_distinct _
  unfold executeSelect selectKey
  simp only [hdata, resolveProjection_columns, extractVectorSearch, Option.bind_some, Bool.not_true,
    Bool.false_eq_true, if_false]
  cases hidx : ex.db.keymap.get key with
  | none =>
    have habsent : ∀ entry ∈ ex.db.keymap.allKeys, entry.1 ≠ key := by
      rintro ⟨other, idx⟩ hmem rfl
      have hsome : ex.db.keymap.get other = some idx := Std.ExtTreeMap.mem_toList_iff_getElem?_eq_some.mp hmem
      rw [hidx] at hsome
      cases hsome
    rw [selectRows_absent ex _ (selectionMatchesKey_eq key) _ habsent, shownRow_of_absent hidx]
    rfl
  | some idx =>
    have hmem : (key, idx) ∈ ex.db.keymap.allKeys := Std.ExtTreeMap.mem_toList_iff_getElem?_eq_some.mpr hidx
    rw [selectRows_present ex _ (selectionMatchesKey_eq key) hdistinct hmem]
    cases hvisible : ex.visibleTyped key idx with
    | error e =>
      rw [shownRow_of_error hidx hvisible]
      rfl
    | ok typed =>
      rw [shownRow_of_ok hidx hvisible]
      rfl

theorem shownRow_eq_rows {ex : SqlExecutor P} {key : String} {row : List String}
    (h : ex.shownRow key = .rows [colKey, colValue, colType] [row]) :
    ∃ typed : TypedValue P, row = [key, typed.displayString, (ex.db.typeMap.get key).asStr] := by
  cases hidx : ex.db.keymap.get key with
  | none =>
    rw [shownRow_of_absent hidx] at h
    simp at h
  | some idx =>
    cases hvisible : ex.visibleTyped key idx with
    | error e =>
      rw [shownRow_of_error hidx hvisible] at h
      cases h
    | ok typed =>
      rw [shownRow_of_ok hidx hvisible] at h
      exact ⟨typed, (List.cons.inj (SqlResult.rows.inj h).2).1.symm⟩

section Decoded

variable {ex : SqlExecutor P} {key : String} {idx : Nat}

theorem visibleTyped_of_ok {typed : TypedValue P}
    (h : TypedValue.decode (ex.db.typeMap.get key) (ex.visibleCell idx) (BlobStore.get ex.db.blobStore key) =
      .ok typed) : ex.visibleTyped key idx = .ok typed := by
  unfold visibleTyped
  rw [h]

theorem visibleTyped_of_error {e : String}
    (h : TypedValue.decode (P := P) (ex.db.typeMap.get key) (ex.visibleCell idx)
      (BlobStore.get ex.db.blobStore key) = .error e) :
    ex.visibleTyped key idx = .error ("typed decode failed for key '" ++ key ++ "': " ++ e) := by
  unfold visibleTyped
  rw [h]

end Decoded

theorem shownRow_congr {ex ex' : SqlExecutor P} {key : String}
    (hkey : ex'.db.keymap.get key = ex.db.keymap.get key)
    (hcell : ∀ idx, ex.db.keymap.get key = some idx → ex'.visibleCell idx = ex.visibleCell idx)
    (htag : ex'.db.typeMap.get key = ex.db.typeMap.get key)
    (hblob : BlobStore.get ex'.db.blobStore key = BlobStore.get ex.db.blobStore key) :
    ex'.shownRow key = ex.shownRow key := by
  unfold shownRow
  rw [hkey, htag]
  cases hidx : ex.db.keymap.get key with
  | none => rfl
  | some idx =>
    have hvisible : ex'.visibleTyped key idx = ex.visibleTyped key idx := by
      unfold visibleTyped
      rw [htag, hblob, hcell idx hidx]
    dsimp only
    rw [hvisible]

end SqlExecutor

end AgentHalo.Sql
