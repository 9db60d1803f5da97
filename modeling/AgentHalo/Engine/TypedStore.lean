import AgentHalo.Engine.Protocol

/-!
# Typed writes and reads

A typed write changes four stores, and a typed read looks at four things: the index of the key, the cell there, the tag
and the payload. `putTyped_cases` says what a write does to them, `getTyped_congr` that a read depends on nothing else,
and the lemmas between them how a payload is found after a write to the same key and to another one. The payload store
is bounded: they ask that the write fits under its ceiling.
-/

namespace AgentHalo.Engine.NucleusDb

open Store (TypedValue TypeMap KeyMap BlobStore BoundedStore VectorIndex)

variable {P : Platform}

/-- The vector index refuses the value: it has no dimension, or not the dimension of the index. -/
def RejectsVector (db : NucleusDb P) : TypedValue P → Prop
  | .vector dims => dims = [] ∨ ∃ expected, db.vectorIndex.expectedDims = some expected ∧ dims.length ≠ expected
  | _ => False

/-- The value has the tag stored for the key and, if it has a payload, the payload stored for the key. -/
def SameRecord (db : NucleusDb P) (key : String) (value : TypedValue P) : Prop :=
  value.tag = db.typeMap.get key ∧
    ∀ data, (value.encode key).2 = some data → BlobStore.get db.blobStore key = some data

theorem upsert_of_rejected {A : F64} (v : VectorIndex A) (key : String) (dims : List A.F) (now : Nat)
    (h : dims = [] ∨ ∃ expected, v.expectedDims = some expected ∧ dims.length ≠ expected) :
    ∃ e, v.upsert key dims now = (.error e, { v with vectors := v.vectors.applyTimeMaintenance now }) := by
  unfold VectorIndex.upsert
  dsimp only
  by_cases hnil : dims = []
  · exact ⟨_, if_pos (by simp [hnil])⟩
  · obtain ⟨expected, hdims, hne⟩ := h.resolve_left hnil
    rw [if_neg (by simp [hnil]), hdims]
    dsimp only
    rw [if_pos hne]
    exact ⟨_, rfl⟩

def blobsAfter (db : NucleusDb P) (key : String) (value : TypedValue P) (clock : Clock) : BlobStore P.f64 :=
  match (value.encode key).2 with
  | some data => BlobStore.put db.blobStore key data clock.blob
  | none => db.blobStore.remove key

theorem putTyped_cases (db : NucleusDb P) (key : String) (value : TypedValue P) (clock : Clock) :
    (∃ vectorIndex, (db.putTyped key value clock).2 = { db with vectorIndex }) ∨
    (¬ RejectsVector db value ∧ ∃ vectorIndex, (db.putTyped key value clock).2 =
      { db with
        vectorIndex
        blobStore := blobsAfter db key value clock
        typeMap := db.typeMap.set key value.tag
        keymap := (db.keymap.getOrCreate key).2 }) := by
  cases value with
  | vector dims =>
    by_cases hrej : RejectsVector db (.vector dims)
    · left
      obtain ⟨e, he⟩ := upsert_of_rejected db.vectorIndex key dims clock.vector hrej
      unfold putTyped
      dsimp only
      rw [he]
      exact ⟨_, rfl⟩
    · unfold putTyped
      dsimp only
      cases (db.vectorIndex.upsert key dims clock.vector).1 with
      | error e => exact .inl ⟨_, rfl⟩
      | ok u => exact .inr ⟨hrej, _, rfl⟩
  | _ => exact .inr ⟨id, _, rfl⟩

variable {db db' : NucleusDb P} {key other s : String} {idx : Nat}

theorem getTyped_of_index (hidx : db.keymap.get key = some idx) :
    db.getTyped key =
      (TypedValue.decode (db.typeMap.get key) (db.state.cell idx) (BlobStore.get db.blobStore key)).toOption := by
  unfold getTyped
  rw [hidx]

theorem getTyped_congr (hidx : db.keymap.get key = some idx) (hidx' : db'.keymap.get key = some idx)
    (hcell : db'.state.cell idx = db.state.cell idx) (htag : db'.typeMap.get key = db.typeMap.get key)
    (hblob : BlobStore.get db'.blobStore key = BlobStore.get db.blobStore key) :
    db'.getTyped key = db.getTyped key := by
  rw [getTyped_of_index hidx, getTyped_of_index hidx', hcell, htag, hblob]

theorem decode_scalar (key : String) (value : TypedValue P) (h : (value.encode key).2 = none) (cell : UInt64)
    (blob blob' : Option Bytes) :
    TypedValue.decode (P := P) value.tag cell blob = TypedValue.decode value.tag cell blob' := by
  cases value with
  | null | integer | float | bool => rfl
  | text | json | bytes | vector => cases h

theorem get_blobsAfter_other (db : NucleusDb P) (hne : other ≠ key) (value : TypedValue P) (clock : Clock)
    (hfits : ∀ data, (value.encode other).2 = some data → BlobStore.Fits db.blobStore other data) :
    BlobStore.get (blobsAfter db other value clock) key = BlobStore.get db.blobStore key := by
  unfold blobsAfter
  cases hdata : (value.encode other).2 with
  | none => exact OrdMap.get?_erase_ne _ hne
  | some data =>
    unfold BlobStore.get
    dsimp only
    rw [BlobStore.put_entries _ _ (hfits data hdata), OrdMap.get?_insert_ne _ _ hne]

theorem get_blobsAfter_self (db : NucleusDb P) (key : String) (value : TypedValue P) (clock : Clock)
    (hfits : ∀ data, (value.encode key).2 = some data → BlobStore.Fits db.blobStore key data) :
    BlobStore.get (blobsAfter db key value clock) key = (value.encode key).2 := by
  unfold blobsAfter
  cases hdata : (value.encode key).2 with
  | none =>
    unfold BlobStore.get BoundedStore.remove
    dsimp only
    rw [OrdMap.get?_erase, if_pos rfl]
  | some data =>
    unfold BlobStore.get
    dsimp only
    rw [BlobStore.put_entries _ _ (hfits data hdata), OrdMap.get?_insert, if_pos rfl]

theorem getTyped_text (hidx : db.keymap.get key = some idx) (htag : db.typeMap.get key = .text)
    (hblob : BlobStore.get db.blobStore key = some (Text.utf8 s)) :
    db.getTyped key = some (.text s) := by
  rw [getTyped_of_index hidx, htag, hblob]
  unfold TypedValue.decode
  dsimp only
  rw [Store.fromUtf8_utf8]
  rfl

theorem getTyped_putTyped_text (db : NucleusDb P) (key s : String) (clock : Clock)
    (hfits : BlobStore.Fits db.blobStore key (Text.utf8 s)) :
    (db.putTyped key (.text s) clock).2.getTyped key = some (.text s) := by
  refine getTyped_text (KeyMap.get_getOrCreate_self db.keymap key) ?_ ?_
  · exact (TypeMap.get_set db.typeMap key key .text).trans (if_pos rfl)
  · refine get_blobsAfter_self db key (.text s) clock ?_
    rintro data ⟨⟩
    exact hfits

theorem getTyped_eq_text_iff : db.getTyped key = some (.text s) ↔
    (∃ idx, db.keymap.get key = some idx) ∧ db.typeMap.get key = .text ∧
      (BlobStore.get db.blobStore key).bind Store.fromUtf8 = some s := by
  unfold getTyped
  cases db.keymap.get key with
  | none => simp
  | some idx =>
    unfold TypedValue.decode
    cases db.typeMap.get key with
    | text =>
      cases BlobStore.get db.blobStore key with
      | none => simp [Except.toOption]
      | some data => cases hutf : Store.fromUtf8 data <;> simp [hutf, Except.toOption]
    | null | integer | float | bool => simp [Except.toOption]
    | bytes => cases BlobStore.get db.blobStore key <;> simp [Except.toOption]
    | json =>
      cases BlobStore.get db.blobStore key with
      | none => simp [Except.toOption]
      | some data => cases hjson : P.json.fromSlice data <;> simp [hjson, Except.toOption]
    | vector =>
      cases BlobStore.get db.blobStore key with
      | none => simp [Except.toOption]
      | some data => cases hvec : Store.bytesToVector P data <;> simp [hvec, Except.map, Except.toOption]

theorem getTyped_text_putTyped_other {value : TypedValue P} {clock : Clock} {r : Except String (Nat × UInt64)}
    (hput : db.putTyped other value clock = (r, db')) (hne : key ≠ other)
    (hfits : ∀ data, (value.encode other).2 = some data → BlobStore.Fits db.blobStore other data)
    (h : db.getTyped key = some (.text s)) : db'.getTyped key = some (.text s) := by
  obtain ⟨⟨idx, hidx⟩, htag, hblob⟩ := getTyped_eq_text_iff.mp h
  have hdb' : (db.putTyped other value clock).2 = db' := congrArg Prod.snd hput
  rw [← hdb', getTyped_eq_text_iff]
  obtain ⟨vectorIndex, hdb⟩ | ⟨-, vectorIndex, hdb⟩ := putTyped_cases db other value clock
  · rw [hdb]
    exact ⟨⟨idx, hidx⟩, htag, hblob⟩
  · rw [hdb]
    refine ⟨⟨idx, ?_⟩, ?_, ?_⟩
    · exact (KeyMap.get_getOrCreate_other db.keymap hne).trans hidx
    · exact (TypeMap.get_set db.typeMap other key value.tag).trans ((if_neg hne.symm).trans htag)
    · exact (congrArg (Option.bind · _) (get_blobsAfter_other db hne.symm value clock hfits)).trans hblob

end AgentHalo.Engine.NucleusDb
