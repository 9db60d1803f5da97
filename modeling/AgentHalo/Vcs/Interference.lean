import AgentHalo.Vcs.Law

/-!
# Other clients of the database

Nothing keeps the cells of a record from other clients: a commit that writes to one of them takes the record away, although
it was stored and never stored again. This is why the law asks the other clients to spare those cells.
-/

namespace AgentHalo.Vcs

open Engine (NucleusDb)
open Engine.NucleusDb (Ready singleWitnessDb singleWitnessDb_ready)
open Store (KeyMap)
open Text (toLeBytes fromLeBytes)

namespace WorkRecordStore

/-! ### Records of an example -/

def sampleRecord : WorkRecord where
  hash := Vector.replicate 32 0
  parents := []
  authorPuf := Vector.replicate 32 0xaa
  timestamp := 1700000000
  op := .create "src/main.rs" (Vector.replicate 32 0x11)
  proofRef := none

/-- A codec of the records that differ from the sample in hash and proof reference only. -/
def sampleCodec : RecordCodec where
  canonicalToVec _ := .ok [1]
  recordToVec record :=
    match record.proofRef with
    | some ref =>
      if record = { sampleRecord with hash := record.hash, proofRef := some ref } then
        .ok (record.hash.toList ++ toLeBytes ref)
      else .error "not a sample"
    | none => .error "no proof reference"
  recordFromSlice raw := (Text.toArray 32 (raw.take 32)).map fun hash =>
    { sampleRecord with hash, proofRef := some (fromLeBytes (raw.drop 32)) }
  debugCommitError _ := "MonotoneViolation"

theorem sampleCodec_toVec {record : WorkRecord} {raw : Bytes} (h : sampleCodec.recordToVec record = .ok raw) :
    ∃ ref, record = { sampleRecord with hash := record.hash, proofRef := some ref } ∧
      raw = record.hash.toList ++ toLeBytes ref := by
  unfold sampleCodec at h
  dsimp only at h
  split at h
  · rename_i ref _
    split at h
    · rename_i hrecord
      exact ⟨ref, hrecord, (Except.ok.inj h).symm⟩
    · cases h
  · cases h

theorem sampleCodec_lawful : sampleCodec.Lawful := by
  constructor
  · intro record raw h
    obtain ⟨ref, hrecord, rfl⟩ := sampleCodec_toVec h
    have hlen : record.hash.toList.length = 32 := by simp
    unfold sampleCodec
    dsimp only
    rw [List.take_left' hlen, List.drop_left' hlen, Text.toArray_toList, Text.fromLeBytes_toLeBytes, Option.map_some, ← hrecord]
  · intro record raw h
    obtain ⟨ref, -, rfl⟩ := sampleCodec_toVec h
    rw [List.length_append, Text.toLeBytes_length, Vector.length_toList]
    decide
  · rfl

/-! ### Writes by key to a ready database -/

theorem commit_registered_of_ready {db : NucleusDb .reference} (hready : Ready db) (hkeys : db.keymap.Sound)
    (writes : List (String × UInt64)) {room : Nat} (hstate : db.state.values.length ≤ room)
    (hroom : db.keymap.nextIndex + writes.length ≤ room) (hlimit : room ≤ 65536) (now : Nat) :
    ∃ entry db', (registered db writes).commit ⟨(registered db writes).keymap.indexed writes⟩ [] now =
      some (.ok entry, db') ∧ db'.state.values.length ≤ room := by
  have hregistered : Ready (registered db writes) :=
    ⟨hready.backend, hready.witnessCfg, hready.securityParams, hready.reductionContracts, hready.writeMode, hready.inStep⟩
  obtain ⟨hshape, hvalues⟩ := validateCommitShape_registered hkeys writes hstate hroom hlimit
  obtain ⟨entry, db', hcommit⟩ := hregistered.commit now hshape
  refine ⟨entry, db', hcommit, ?_⟩
  rw [(NucleusDb.commit_advanced hcommit).state]
  exact hvalues

theorem get_register_new (key : String) (keys : List String) : (KeyMap.new.register (key :: keys)).get key = some 0 :=
  KeyMap.get_register (KeyMap.get_getOrCreate_self KeyMap.new key) keys

theorem stored_sample : ∃ record, stored sampleCodec singleWitnessDb (.submit sampleRecord 0) = some record ∧
    computeHash .reference sampleCodec sampleRecord = record.hash ∧
    (step sampleCodec singleWitnessDb (.submit sampleRecord 0)).keymap.nextIndex ≤ 9 ∧
    (step sampleCodec singleWitnessDb (.submit sampleRecord 0)).keymap.get (recordLenKey (hashHex record.hash)) = some 0 ∧
    Ready (step sampleCodec singleWitnessDb (.submit sampleRecord 0)) ∧
    (step sampleCodec singleWitnessDb (.submit sampleRecord 0)).state.values.length ≤ 9 := by
  have hraw : sampleCodec.recordToVec (stamped sampleCodec singleWitnessDb sampleRecord) =
      .ok ((stamped sampleCodec singleWitnessDb sampleRecord).hash.toList ++ toLeBytes 1) := by
    unfold stamped sampleCodec
    dsimp only
    exact if_pos rfl
  generalize hpayload : (stamped sampleCodec singleWitnessDb sampleRecord).hash.toList ++ toLeBytes 1 = payload at hraw
  have hlen : payload.length = 40 := by
    rw [← hpayload, List.length_append, Text.toLeBytes_length, Vector.length_toList]
  have hcount : (submitWrites sampleCodec singleWitnessDb sampleRecord payload).length = 9 := by
    unfold submitWrites recordWrites indexWrites
    rw [List.length_append, List.length_cons, List.length_mapIdx, length_bytesToU64Chunks, hlen]
    rfl
  obtain ⟨entry, db', hcommit, hvalues⟩ := commit_registered_of_ready singleWitnessDb_ready KeyMap.sound_new
    (submitWrites sampleCodec singleWitnessDb sampleRecord payload) (Nat.zero_le 9)
    (by rw [hcount, show singleWitnessDb.keymap.nextIndex = 0 from rfl]) (by decide) 0
  have hattempt : attempt sampleCodec singleWitnessDb sampleRecord payload 0 = some (.ok entry, db') := hcommit
  have hsubmit := @submitRecord_eq _ sampleCodec _ _ _ KeyMap.sound_new hraw 0
  rw [hattempt] at hsubmit
  have hready : Ready (registered singleWitnessDb (submitWrites sampleCodec singleWitnessDb sampleRecord payload)) :=
    ⟨rfl, rfl, rfl, rfl, rfl, rfl⟩
  have hstep : step sampleCodec singleWitnessDb (.submit sampleRecord 0) = db' := by
    rw [step_submit, hsubmit]
  have hnext := KeyMap.nextIndex_register_le KeyMap.new
    ((submitWrites sampleCodec singleWitnessDb sampleRecord payload).map Prod.fst)
  rw [List.length_map, hcount] at hnext
  refine ⟨_, stored_submit (congrArg Prod.fst hsubmit), rfl, ?_⟩
  rw [hstep, (NucleusDb.commit_sameFrame hcommit).keymap]
  exact ⟨hnext, get_register_new _ _, hready.of_commit hcommit, hvalues⟩

/-- A write of another client to a cell that no key has. -/
def aside : Action Platform.reference := .commit ⟨[(9, 1)]⟩ [] 0

theorem spares_aside {db : NucleusDb .reference} (hkeys : db.keymap.Sound) {a : Action Platform.reference}
    (hnext : (step sampleCodec db a).keymap.nextIndex ≤ 9) (hash : NodeHash) :
    Spares (Run.exec (step sampleCodec) db [a, aside]).keymap hash aside := by
  have hsame : (step sampleCodec (step sampleCodec db a) aside).keymap = (step sampleCodec db a).keymap := by
    generalize step sampleCodec db a = db
    cases hcommit : db.commit ⟨[(9, 1)]⟩ [] 0 with
    | none => simp [step, aside, hcommit]
    | some outcome => rw [aside, step_commit hcommit, (NucleusDb.commit_sameFrame hcommit).keymap]
  rintro write hwrite key - hget
  obtain rfl := List.mem_singleton.mp hwrite
  rw [Run.exec_cons, Run.exec_cons, Run.exec_nil, hsame] at hget
  exact absurd ((sound_step hkeys a).below key 9 hget) (Nat.not_lt.mpr hnext)

/-- The sample is what a database gives back after that write, and no other hash has a record. -/
theorem getRecord_exec_sample : ∃ record,
    stored sampleCodec singleWitnessDb (.submit sampleRecord 0) = some record ∧
      ∀ hash, getRecord sampleCodec (Run.exec (step sampleCodec) singleWitnessDb [.submit sampleRecord 0, aside]) hash =
        if hash = record.hash then some record else none := by
  have hone : ∀ (db : NucleusDb .reference) (submitted record : WorkRecord), db.keymap.Sound →
      stored sampleCodec db (.submit submitted 0) = some record →
      computeHash .reference sampleCodec submitted = record.hash →
      (step sampleCodec db (.submit submitted 0)).keymap.nextIndex ≤ 9 → (∀ idx, db.state.cell idx = 0) → ∀ hash,
      getRecord sampleCodec (Run.exec (step sampleCodec) db [.submit submitted 0, aside]) hash =
        if hash = record.hash then some record else none := by
    intro db submitted record hkeys hstored hrecord hnext hzero hash
    have hspares := spares_aside hkeys hnext
    obtain ⟨hlast, hnever⟩ := getRecord_exec Platform.reference_signaturesCorrect sampleCodec_lawful hkeys
      [.submit submitted 0, aside]
    split
    · rename_i heq
      rw [heq]
      refine hlast [] _ [aside] record rfl hstored ?_ ?_
      · intro front' a' back' record' hsplit hstored'
        cases front' with
        | nil =>
          rw [← (List.cons.inj hsplit).1] at hstored'
          cases hstored'
        | cons x front' => simp at hsplit
      · intro a' ha'
        rw [List.mem_singleton.mp ha']
        exact hspares _
    · rename_i hne
      refine hnever hash ?_ ?_ fun idx _ => hzero idx
      · intro other now hmem
        obtain ⟨rfl, -⟩ : other = submitted ∧ now = 0 := by simpa [aside] using hmem
        rw [hrecord]
        exact Ne.symm hne
      · intro a ha
        obtain rfl | rfl : a = .submit submitted 0 ∨ a = aside := by simpa using ha
        · trivial
        · exact hspares hash
  obtain ⟨record, hstored, hrecord, hnext, -⟩ := stored_sample
  exact ⟨record, hstored, hone _ _ record KeyMap.sound_new hstored hrecord hnext fun _ => rfl⟩

/-- Another client writes zero to the first cell, and the sample is gone. -/
theorem overwritten_sample : ∃ record,
    stored sampleCodec singleWitnessDb (.submit sampleRecord 0) = some record ∧
      getRecord sampleCodec
        (Run.exec (step sampleCodec) singleWitnessDb [.submit sampleRecord 0, .commit ⟨[(0, 0)]⟩ [] 0]) record.hash =
          none := by
  obtain ⟨record, hstored, -, -, hidx, hready, hvalues⟩ := stored_sample
  refine ⟨record, hstored, ?_⟩
  rw [Run.exec_cons]
  generalize step sampleCodec singleWitnessDb (.submit sampleRecord 0) = db at hidx hready hvalues ⊢
  have hlength : (Engine.apply db.state ⟨[(0, 0)]⟩).values.length ≤ 9 := by
    refine Engine.length_apply_le hvalues ?_
    simp
  have hshape : Engine.validateCommitShape (NucleusDb.defaultParams .binaryMerkle) 1
      (Engine.apply db.state ⟨[(0, 0)]⟩).values.length = .ok () := by
    have hvector : (Engine.apply db.state ⟨[(0, 0)]⟩).values.length ≤
        (NucleusDb.defaultParams .binaryMerkle).maxVectorLen :=
      Nat.le_trans hlength (show 9 ≤ 1048576 by omega)
    unfold Engine.validateCommitShape
    rw [if_neg (by decide), if_neg (Nat.not_lt.mpr hvector)]
  obtain ⟨entry, db', hcommit⟩ : ∃ entry db', db.commit ⟨[(0, 0)]⟩ [] 0 = some (.ok entry, db') := hready.commit 0 hshape
  have hstep : step sampleCodec db (.commit ⟨[(0, 0)]⟩ [] 0) = db' := step_commit hcommit
  rw [Run.exec_cons, Run.exec_nil, hstep]
  refine getRecord_of_empty sampleCodec_lawful ?_
  intro len hlen
  obtain ⟨idx, hget, hvalue⟩ := readValueByKey_eq_some.mp hlen
  rw [(NucleusDb.commit_sameFrame hcommit).keymap, hidx] at hget
  obtain rfl := Option.some.inj hget
  have hlt := (List.getElem?_eq_some_iff.mp hvalue).1
  rw [Engine.getElem?_values_of_lt hlt, (NucleusDb.commit_advanced hcommit).state, Engine.cell_apply] at hvalue
  exact (Option.some.inj hvalue).symm

end WorkRecordStore

end AgentHalo.Vcs
