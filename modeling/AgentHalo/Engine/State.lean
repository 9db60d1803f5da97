import AgentHalo.Lib.Writes
import AgentHalo.Store.Typed

/-!
# The committed state and its monotone extensions

The state is a vector of words and a delta is a list of indexed writes, applied left to right with zero fill. In
append-only mode a commit must extend the state: every nonzero cell stays where it is. The module proves what the
check gives, `verifyRawMonotoneExtension_iff`, in terms of `cell`, the value read at an index with zero outside.
-/

namespace AgentHalo.Engine

open Text (utf8)
open Store (KeyMap)

structure State where
  values : List UInt64
deriving DecidableEq, Repr

structure Delta where
  writes : List (Nat × UInt64)
deriving DecidableEq, Repr

/-- One write, resizing with zeros when the index is past the end. -/
def writeCell (values : List UInt64) (write : Nat × UInt64) : List UInt64 :=
  let next := if write.1 ≥ values.length then values ++ List.replicate (write.1 + 1 - values.length) 0 else values
  next.set write.1 write.2

def apply (prev : State) (delta : Delta) : State := ⟨delta.writes.foldl writeCell prev.values⟩

def materialize (state : State) : List UInt64 := state.values

/-- The word read at an index, zero outside the vector. -/
def State.cell (state : State) (idx : Nat) : UInt64 := state.values[idx]?.getD 0

theorem cell_writeCell (values : List UInt64) (write : Nat × UInt64) (idx : Nat) :
    State.cell ⟨writeCell values write⟩ idx = if write.1 = idx then write.2 else State.cell ⟨values⟩ idx := by
  obtain ⟨at_, word⟩ := write
  unfold writeCell State.cell
  dsimp only
  by_cases hpast : at_ ≥ values.length
  · rw [if_pos hpast, List.getElem?_set]
    by_cases heq : at_ = idx
    · subst heq
      rw [if_pos rfl, if_pos (by simp; omega), if_pos rfl]
      rfl
    · rw [if_neg heq, if_neg heq]
      -- the zero fill reads as the absent cell did
      by_cases hin : idx < values.length
      · rw [List.getElem?_append_left hin]
      · rw [List.getElem?_append_right (by omega), List.getElem?_eq_none (l := values) (by omega),
          List.getElem?_replicate]
        split <;> rfl
  · rw [if_neg hpast, List.getElem?_set]
    by_cases heq : at_ = idx
    · subst heq
      rw [if_pos rfl, if_pos (by omega), if_pos rfl]
      rfl
    · rw [if_neg heq, if_neg heq]

theorem cell_apply (state : State) (delta : Delta) (idx : Nat) :
    (apply state delta).cell idx = (Writes.last delta.writes idx).getD (state.cell idx) := by
  have h := Writes.foldl_last (fun values i => State.cell ⟨values⟩ i) writeCell id cell_writeCell delta.writes
    state.values idx
  rw [Option.map_id, id_eq] at h
  exact h

/-! ### Write mode and monotone extension -/

inductive WriteMode where
  | normal
  | appendOnly
deriving DecidableEq, Repr

def verifyRawMonotoneExtension (oldState newState : State) : Bool :=
  oldState.values.zipIdx.all fun (oldVal, i) => oldVal == 0 || newState.cell i == oldVal

def verifyMonotoneExtension (oldState : State) (oldKeymap : KeyMap) (newState : State) (newKeymap : KeyMap) : Bool :=
  if !verifyRawMonotoneExtension oldState newState then false
  else
    oldKeymap.allKeys.all fun (key, oldIdx) =>
      let oldVal := oldState.cell oldIdx
      if oldVal == 0 then true
      else
        match newKeymap.get key with
        | some newIdx => newState.cell newIdx == oldVal
        | none => false

theorem verifyRawMonotoneExtension_iff (oldState newState : State) :
    verifyRawMonotoneExtension oldState newState = true ↔
      ∀ i, oldState.cell i ≠ 0 → newState.cell i = oldState.cell i := by
  unfold verifyRawMonotoneExtension
  rw [List.all_eq_true]
  constructor
  · intro hall i hne
    have hlt : i < oldState.values.length := by
      by_contra hge
      apply hne
      unfold State.cell
      rw [List.getElem?_eq_none (by omega)]
      rfl
    have hmem : (oldState.values[i], i) ∈ oldState.values.zipIdx :=
      List.mk_mem_zipIdx_iff_getElem?.mpr (List.getElem?_eq_getElem hlt)
    have hcell : oldState.cell i = oldState.values[i] := by
      unfold State.cell
      rw [List.getElem?_eq_getElem hlt]
      rfl
    have hkeep := hall _ hmem
    rw [hcell] at hne ⊢
    simpa [hne] using hkeep
  · rintro hkeep ⟨oldVal, i⟩ hmem
    have hget : oldState.values[i]? = some oldVal := List.mk_mem_zipIdx_iff_getElem?.mp hmem
    have hcell : oldState.cell i = oldVal := by
      unfold State.cell
      rw [hget]
      rfl
    by_cases hzero : oldVal = 0
    · simp [hzero]
    · have hsame := hkeep i (by rw [hcell]; exact hzero)
      simp [hsame, hcell]

theorem verifyRawMonotoneExtension_of_verifyMonotoneExtension {oldState newState : State} {oldKeymap newKeymap : KeyMap}
    (h : verifyMonotoneExtension oldState oldKeymap newState newKeymap = true) :
    verifyRawMonotoneExtension oldState newState = true := by
  unfold verifyMonotoneExtension at h
  by_contra hraw
  rw [if_pos (by simpa using hraw)] at h
  exact Bool.false_ne_true h

/-! ### Seals -/

section Seals

variable (P : Platform)

def keyValueDigest (state : State) (keymap : KeyMap) : NodeHash :=
  let pairs := (keymap.allKeys.map fun (k, idx) => (k, state.cell idx)).mergeSort
    fun a b => (compare a.1 b.1).isLE
  P.sha256 (utf8 "NucleusDB.KeyValueDigest|" ++
    pairs.flatMap fun (k, v) => utf8 k ++ utf8 "=" ++ utf8 (toString v) ++ utf8 ";")

def nextSeal (prevSeal kvDigest : NodeHash) : NodeHash :=
  P.sha256 (utf8 "NucleusDB.MonotoneSeal|" ++ prevSeal.toList ++ kvDigest.toList)

def genesisSeal : NodeHash := P.sha256 (utf8 "NucleusDB.MonotoneSeal.Genesis|")

def genesisSealWithAnchor (anchor : String) : NodeHash :=
  P.sha256 (utf8 "NucleusDB.MonotoneSeal.Genesis|" ++ utf8 anchor)

end Seals

end AgentHalo.Engine
