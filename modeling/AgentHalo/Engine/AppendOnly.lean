import AgentHalo.Lib.Run
import AgentHalo.Engine.CommitSpec

/-!
# Append-only databases lose nothing

The operations on an open database are commits, typed writes and the switch to append-only mode, in any order and with
any outcome. Two things grow along every run: the key map, and, once the database is locked, the set of nonzero cells.
A commit that fails after its state was installed is no exception, because the state had passed the monotone check
first.
-/

namespace AgentHalo.Engine

open Store (TypedValue KeyMap)

variable {P : Platform}

/-- The operations a client may interleave. -/
inductive DbOp (P : Platform) where
  | commit (delta : Delta) (localViews : List LocalSection) (now : Nat)
  | putTyped (key : String) (value : TypedValue P) (clock : Clock)
  | setAppendOnly

namespace NucleusDb

/-- The database after an operation, whatever it returned. A commit can panic only before its first write. -/
def applyOp (db : NucleusDb P) : DbOp P → NucleusDb P
  | .commit delta localViews now =>
    match db.commit delta localViews now with
    | some (_, db') => db'
    | none => db
  | .putTyped key value clock => (db.putTyped key value clock).2
  | .setAppendOnly => db.setAppendOnly

/-- A property of databases that every operation of the engine keeps, the registration of a key included. -/
structure DbInvariant (I : NucleusDb P → Prop) : Prop where
  commit : ∀ {db db' : NucleusDb P} {delta : Delta} {localViews : List LocalSection} {now : Nat}
    {r : Except CommitError CommitEntry}, I db → db.commit delta localViews now = some (r, db') → I db'
  putTyped : ∀ {db : NucleusDb P} (key : String) (value : TypedValue P) (clock : Clock), I db →
    I (db.putTyped key value clock).2
  getOrCreate : ∀ {db : NucleusDb P} (key : String), I db → I { db with keymap := (db.keymap.getOrCreate key).2 }
  setAppendOnly : ∀ {db : NucleusDb P}, I db → I db.setAppendOnly

variable {db a b c db' : NucleusDb P}

theorem DbInvariant.applyOp {I : NucleusDb P → Prop} (hI : DbInvariant I) (h : I db) (op : DbOp P) :
    I (db.applyOp op) := by
  cases op with
  | commit delta localViews now =>
    unfold NucleusDb.applyOp
    dsimp only
    split
    · rename_i hcommit
      exact hI.commit h hcommit
    · exact h
  | putTyped key value clock => exact hI.putTyped key value clock h
  | setAppendOnly => exact hI.setAppendOnly h

/-- The key map has kept every key at its index. -/
def KeysKept (db db' : NucleusDb P) : Prop := ∀ key idx, db.keymap.get key = some idx → db'.keymap.get key = some idx

/-- Every nonzero cell has kept its value. -/
def CellsKept (db db' : NucleusDb P) : Prop := ∀ i, db.state.cell i ≠ 0 → db'.state.cell i = db.state.cell i

theorem KeysKept.refl (db : NucleusDb P) : KeysKept db db := fun _ _ h => h

theorem KeysKept.trans (hab : KeysKept a b) (hbc : KeysKept b c) : KeysKept a c :=
  fun key idx h => hbc key idx (hab key idx h)

theorem CellsKept.refl (db : NucleusDb P) : CellsKept db db := fun _ _ => rfl

theorem CellsKept.trans (hab : CellsKept a b) (hbc : CellsKept b c) : CellsKept a c := by
  intro i hne
  have hb := hab i hne
  rw [hbc i (by rwa [hb]), hb]

theorem keysKept_of_keymap_eq (h : db'.keymap = db.keymap) : KeysKept db db' := by
  intro key idx hkey
  rwa [h]

theorem cellsKept_of_state_eq (h : db'.state = db.state) : CellsKept db db' := by
  intro i _
  rw [h]

/-! ### One operation -/

theorem putTyped_frame (db : NucleusDb P) (key : String) (value : TypedValue P) (clock : Clock) :
    (db.putTyped key value clock).2.state = db.state ∧ (db.putTyped key value clock).2.writeMode = db.writeMode ∧
      ((db.putTyped key value clock).2.keymap = db.keymap ∨
        (db.putTyped key value clock).2.keymap = (db.keymap.getOrCreate key).2) := by
  unfold putTyped
  dsimp only
  split
  · exact ⟨rfl, rfl, .inl rfl⟩
  · exact ⟨rfl, rfl, .inr rfl⟩

theorem keysKept_putTyped (db : NucleusDb P) (key : String) (value : TypedValue P) (clock : Clock) :
    KeysKept db (db.putTyped key value clock).2 := by
  obtain ⟨-, -, hsame | hgrown⟩ := putTyped_frame db key value clock
  · exact keysKept_of_keymap_eq hsame
  · intro other idx h
    rw [hgrown]
    exact KeyMap.get_getOrCreate db.keymap key h

theorem cellsKept_commit {delta : Delta} {localViews : List LocalSection} {now : Nat} {r : Except CommitError CommitEntry}
    (hmode : db.writeMode = .appendOnly) (h : db.commit delta localViews now = some (r, db')) : CellsKept db db' := by
  have hextends : db.Admissible delta localViews → ∀ i, db.state.cell i ≠ 0 →
      (apply db.state delta).cell i = db.state.cell i := by
    intro hadm
    exact (verifyRawMonotoneExtension_iff _ _).mp
      (verifyRawMonotoneExtension_of_verifyMonotoneExtension (hadm.monotone hmode))
  rcases commit_cases h with ⟨-, -, rfl⟩ | ⟨hadm, -, rs, -, hdb⟩ | ⟨rs, sigs, entry, -, hc⟩
  · exact CellsKept.refl _
  · rcases hdb with rfl | rfl
    · exact cellsKept_of_state_eq rfl
    · exact hextends hadm
  · intro i hne
    rw [hc.db_eq, pushSeal_state]
    exact hextends hc.admissible i hne

theorem applyOp_keysKept (db : NucleusDb P) (op : DbOp P) : KeysKept db (db.applyOp op) := by
  cases op with
  | commit delta localViews now =>
    unfold applyOp
    dsimp only
    split
    · rename_i h
      exact keysKept_of_keymap_eq (commit_sameFrame h).keymap
    · exact KeysKept.refl db
  | putTyped key value clock => exact keysKept_putTyped db key value clock
  | setAppendOnly => exact keysKept_of_keymap_eq rfl

theorem applyOp_locked (db : NucleusDb P) (op : DbOp P) (hmode : db.writeMode = .appendOnly) :
    (db.applyOp op).writeMode = .appendOnly ∧ CellsKept db (db.applyOp op) := by
  cases op with
  | commit delta localViews now =>
    unfold applyOp
    dsimp only
    split
    · rename_i h
      exact ⟨(commit_sameFrame h).writeMode.trans hmode, cellsKept_commit hmode h⟩
    · exact ⟨hmode, CellsKept.refl db⟩
  | putTyped key value clock =>
    obtain ⟨hstate, hkept, -⟩ := putTyped_frame db key value clock
    exact ⟨hkept.trans hmode, cellsKept_of_state_eq hstate⟩
  | setAppendOnly => exact ⟨rfl, cellsKept_of_state_eq rfl⟩

/-- **Append-only cells are never lost.** Take any database and any run. Keys keep their indices from any state of the
run to the end. From the call of `set_append_only` on, the mode stays append-only, and from any later state to any state
after it every nonzero cell keeps its value. -/
theorem appendOnly_never_lost (db : NucleusDb P) (middle after : List (DbOp P)) :
    KeysKept db (Run.exec applyOp db after) ∧
      (Run.exec applyOp db.setAppendOnly middle).writeMode = .appendOnly ∧
      CellsKept (Run.exec applyOp db.setAppendOnly middle)
        (Run.exec applyOp (Run.exec applyOp db.setAppendOnly middle) after) := by
  have hlocked : (Run.exec applyOp db.setAppendOnly middle).writeMode = .appendOnly :=
    Run.exec_invariant (I := fun d : NucleusDb P => d.writeMode = .appendOnly)
      (fun d op hmode => (applyOp_locked d op hmode).1) rfl middle
  refine ⟨?_, hlocked, ?_⟩
  · exact Run.exec_related (I := fun _ => True) KeysKept.refl (fun _ _ _ => KeysKept.trans)
      (fun d op _ => ⟨trivial, applyOp_keysKept d op⟩) trivial after
  · exact Run.exec_related (I := fun d : NucleusDb P => d.writeMode = .appendOnly) CellsKept.refl
      (fun _ _ _ => CellsKept.trans) applyOp_locked hlocked after

end NucleusDb

end AgentHalo.Engine
