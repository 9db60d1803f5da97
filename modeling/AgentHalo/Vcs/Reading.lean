import AgentHalo.Vcs.Record

/-!
# What a submission leaves to be read

A submission either fails without a successful commit or writes the words of the record under the record's keys, and no
other record's. `readValueByKey_submit` and `getRecord_of_holds` carry the words over to `get_record`.
-/

namespace AgentHalo.Vcs

open Engine (NucleusDb CommitError CommitEntry Delta)
open Slices (divCeil)
open Store (KeyMap)

variable {P : Platform} {codec : RecordCodec}

variable {record : WorkRecord} {hash : NodeHash} {key : String} {payload : Bytes} {db : NucleusDb P} {now : Nat}

namespace WorkRecordStore

/-! ### Writes by key -/

theorem registerWrites_eq {m : KeyMap} (hm : m.Sound) (writes : List (String × UInt64)) :
    registerWrites m writes = ((m.register (writes.map Prod.fst)).indexed writes, m.register (writes.map Prod.fst)) := by
  induction writes generalizing m with
  | nil => rfl
  | cons w rest ih =>
    have hself := KeyMap.get_register (KeyMap.get_getOrCreate_self m w.1) (rest.map Prod.fst)
    unfold registerWrites
    dsimp only
    rw [ih (hm.getOrCreate w.1), List.map_cons, KeyMap.register_cons]
    unfold KeyMap.indexed
    rw [List.map_cons, hself]
    rfl

variable {write : String × UInt64}

theorem isSome_get_of_mem {m : KeyMap} {writes : List (String × UInt64)} (h : write ∈ writes) :
    ((m.register (writes.map Prod.fst)).get write.1).isSome :=
  (KeyMap.isSome_get_register m write.1 _).mpr (.inr (List.mem_map.mpr ⟨write, h, rfl⟩))

theorem last_recordWrites (hash : NodeHash) (payload : Bytes) (h : write ∈ recordWrites (hashHex hash) payload) :
    Writes.last (recordWrites (hashHex hash) payload) write.1 = some write.2 := by
  have hdistinct : (recordWrites (hashHex hash) payload).Pairwise fun a b => a.1 ≠ b.1 := by
    unfold recordWrites
    rw [List.pairwise_cons]
    constructor
    · intro w hw
      obtain ⟨i, hi, rfl⟩ := List.mem_mapIdx.mp hw
      exact recordLenKey_ne_recordChunkKey hash hash i
    · rw [List.pairwise_iff_getElem]
      intro i j hi hj hij
      rw [List.getElem_mapIdx, List.getElem_mapIdx]
      intro heq
      exact Nat.ne_of_lt hij (recordChunkKey_inj heq)
  exact (Writes.last_eq_some_iff hdistinct _ _).mpr h

theorem last_append_indexWrites (hkey : IsRecordKey hash key)
    (writes : List (String × UInt64)) : Writes.last (writes ++ indexWrites record) key = Writes.last writes key := by
  have hnone : Writes.last (indexWrites record) key = none := by
    refine Writes.last_eq_none ?_
    rintro w hw rfl
    exact not_isRecordKey_of_mem_indexWrites hw hkey
  rw [Writes.last_append, hnone, Option.none_or]

theorem isRecordKey_of_mem_recordWrites (h : write ∈ recordWrites (hashHex hash) payload) : IsRecordKey hash write.1 := by
  unfold recordWrites at h
  rcases List.mem_cons.mp h with rfl | h
  · exact .inl rfl
  · obtain ⟨i, hi, rfl⟩ := List.mem_mapIdx.mp h
    exact .inr ⟨i, rfl⟩

/-! ### Outcomes of a submission -/

/-- What a submission registers and tries to commit. -/
def submitWrites (codec : RecordCodec) (db : NucleusDb P) (record : WorkRecord) (payload : Bytes) :
    List (String × UInt64) :=
  recordWrites (hashHex (computeHash P codec record)) payload ++ indexWrites (stamped codec db record)

def registered (db : NucleusDb P) (writes : List (String × UInt64)) : NucleusDb P :=
  { db with keymap := db.keymap.register (writes.map Prod.fst) }

theorem validateCommitShape_registered (hkeys : db.keymap.Sound) (writes : List (String × UInt64))
    {room : Nat} (hstate : db.state.values.length ≤ room) (hroom : db.keymap.nextIndex + writes.length ≤ room)
    (hlimit : room ≤ 65536) :
    Engine.validateCommitShape (NucleusDb.defaultParams .binaryMerkle)
        ((registered db writes).keymap.indexed writes).length
        (Engine.apply (registered db writes).state ⟨(registered db writes).keymap.indexed writes⟩).values.length = .ok () ∧
      (Engine.apply (registered db writes).state ⟨(registered db writes).keymap.indexed writes⟩).values.length ≤ room := by
  have hnext := KeyMap.nextIndex_register_le db.keymap (writes.map Prod.fst)
  rw [List.length_map] at hnext
  have hvalues : (Engine.apply (registered db writes).state
      ⟨(registered db writes).keymap.indexed writes⟩).values.length ≤ room := by
    refine Engine.length_apply_le hstate ?_
    intro w hw
    obtain ⟨write, hwrite, rfl⟩ := List.mem_map.mp hw
    obtain ⟨idx, hidx⟩ := Option.isSome_iff_exists.mp (isSome_get_of_mem (m := db.keymap) hwrite)
    have hbelow := (hkeys.register _).below write.1 idx hidx
    have hindexed : (registered db writes).keymap.get write.1 = some idx := hidx
    dsimp only
    rw [hindexed, Option.getD_some]
    omega
  have hdelta : ((registered db writes).keymap.indexed writes).length ≤
      (NucleusDb.defaultParams .binaryMerkle).maxDeltaWrites := by
    unfold KeyMap.indexed
    rw [List.length_map]
    exact Nat.le_trans (Nat.le_trans (Nat.le_add_left _ _) hroom) hlimit
  have hvector : (Engine.apply (registered db writes).state
      ⟨(registered db writes).keymap.indexed writes⟩).values.length ≤
        (NucleusDb.defaultParams .binaryMerkle).maxVectorLen :=
    Nat.le_trans (Nat.le_trans hvalues hlimit) (show 65536 ≤ 1048576 by omega)
  refine ⟨?_, hvalues⟩
  unfold Engine.validateCommitShape
  rw [if_neg (Nat.not_lt.mpr hdelta), if_neg (Nat.not_lt.mpr hvector)]

def attempt (codec : RecordCodec) (db : NucleusDb P) (record : WorkRecord) (payload : Bytes) (now : Nat) :
    Option (Except CommitError CommitEntry × NucleusDb P) :=
  (registered db (submitWrites codec db record payload)).commit
    ⟨(registered db (submitWrites codec db record payload)).keymap.indexed (submitWrites codec db record payload)⟩ [] now

theorem submitRecord_eq (hkeys : db.keymap.Sound)
    (hraw : codec.recordToVec (stamped codec db record) = .ok payload) (now : Nat) :
    submitRecord codec db record now =
      match attempt codec db record payload now with
      | none => (none, registered db (submitWrites codec db record payload))
      | some (.error e, db') => (some (.error ("commit work record: " ++ codec.debugCommitError e)), db')
      | some (.ok entry, db') =>
        (some (.ok ⟨computeHash P codec record, UInt64.ofNat entry.height, UInt64.ofNat entry.height,
          entry.stateRoot⟩), db') := by
  unfold submitRecord
  dsimp only
  rw [hraw]
  dsimp only
  rw [registerWrites_eq hkeys]
  rfl

theorem submitRecord_ok (hkeys : db.keymap.Sound)
    {result : SubmitResult} (h : (submitRecord codec db record now).1 = some (.ok result)) :
    ∃ payload entry, codec.recordToVec (stamped codec db record) = .ok payload ∧
      attempt codec db record payload now = some (.ok entry, (submitRecord codec db record now).2) ∧
      result.hash = computeHash P codec record ∧ result.commitHeight = UInt64.ofNat entry.height := by
  cases hraw : codec.recordToVec (stamped codec db record) with
  | error e =>
    unfold submitRecord at h
    dsimp only at h
    rw [hraw] at h
    cases h
  | ok payload =>
    rw [submitRecord_eq hkeys hraw] at h ⊢
    refine ⟨payload, ?_⟩
    cases hattempt : attempt codec db record payload now with
    | none =>
      rw [hattempt] at h
      cases h
    | some outcome =>
      obtain ⟨r, db'⟩ := outcome
      cases r with
      | error e =>
        rw [hattempt] at h
        cases h
      | ok entry =>
        rw [hattempt] at h
        obtain rfl := Except.ok.inj (Option.some.inj h)
        exact ⟨entry, rfl, rfl, rfl, rfl⟩

theorem submitRecord_not_ok (hkeys : db.keymap.Sound)
    (h : ∀ result, (submitRecord codec db record now).1 ≠ some (.ok result)) :
    (submitRecord codec db record now).2 = db ∨ ∃ payload,
      ((submitRecord codec db record now).2 = registered db (submitWrites codec db record payload) ∨
        ∃ e, attempt codec db record payload now = some (.error e, (submitRecord codec db record now).2)) := by
  cases hraw : codec.recordToVec (stamped codec db record) with
  | error e =>
    left
    unfold submitRecord
    dsimp only
    rw [hraw]
  | ok payload =>
    right
    refine ⟨payload, ?_⟩
    rw [submitRecord_eq hkeys hraw] at h ⊢
    cases hattempt : attempt codec db record payload now with
    | none => exact .inl rfl
    | some outcome =>
      obtain ⟨r, db'⟩ := outcome
      cases r with
      | error e => exact .inr ⟨e, rfl⟩
      | ok entry =>
        rw [hattempt] at h
        exact absurd rfl (h _)

end WorkRecordStore

/-! ### Reading cells -/

namespace WorkRecordStore

variable {value : UInt64}

theorem readValueByKey_eq_some :
    readValueByKey db key = some value ↔ ∃ idx, db.keymap.get key = some idx ∧ db.state.values[idx]? = some value := by
  unfold readValueByKey
  rw [Option.bind_eq_some_iff]

variable {db' : NucleusDb P} {entry : CommitEntry}

theorem readValueByKey_of_written (hkeys : db.keymap.Sound) {writes : List (String × UInt64)}
    {localViews : List Engine.LocalSection}
    (hcommit : (registered db writes).commit ⟨(registered db writes).keymap.indexed writes⟩ localViews now =
      some (.ok entry, db')) (hlast : Writes.last writes key = some value) :
    readValueByKey db' key = some value := by
  have hmem := Writes.mem_of_last_eq_some hlast
  obtain ⟨idx, hidx⟩ := Option.isSome_iff_exists.mp (isSome_get_of_mem (m := db.keymap) hmem)
  have hsound : (registered db writes).keymap.Sound := hkeys.register _
  have hall : ∀ w ∈ writes, ((registered db writes).keymap.get w.1).isSome := fun w hw => isSome_get_of_mem hw
  have hstate := (NucleusDb.commit_advanced hcommit).state
  have hkeymap := (NucleusDb.commit_sameFrame hcommit).keymap
  refine readValueByKey_eq_some.mpr ⟨idx, ?_, ?_⟩
  · rw [hkeymap]
    exact hidx
  · have hwritten : (idx, value) ∈ (registered db writes).keymap.indexed writes := by
      refine List.mem_map.mpr ⟨(key, value), hmem, ?_⟩
      rw [show (registered db writes).keymap.get key = some idx from hidx]
      rfl
    have hlt : idx < (Engine.apply (registered db writes).state
        ⟨(registered db writes).keymap.indexed writes⟩).values.length :=
      @Engine.lt_length_apply_of_mem _ _ (idx, value) hwritten
    rw [hstate, Engine.getElem?_values_of_lt hlt, Engine.cell_apply_indexed hsound _ hall hidx, hlast]
    rfl

theorem readValueByKey_of_unwritten {delta : Delta} (hread : readValueByKey db key = some value)
    (hkeymap : ∀ idx, db.keymap.get key = some idx → db'.keymap.get key = some idx)
    (hstate : db'.state = db.state ∨ db'.state = Engine.apply db.state delta)
    (hspared : ∀ idx, db.keymap.get key = some idx → ∀ w ∈ delta.writes, w.1 ≠ idx) :
    readValueByKey db' key = some value := by
  obtain ⟨idx, hidx, hvalue⟩ := readValueByKey_eq_some.mp hread
  refine readValueByKey_eq_some.mpr ⟨idx, hkeymap idx hidx, ?_⟩
  rcases hstate with hsame | happly
  · rw [hsame, hvalue]
  · have hlt : idx < db.state.values.length := (List.getElem?_eq_some_iff.mp hvalue).1
    have hcell : db.state.cell idx = value := by
      rw [Engine.getElem?_values_of_lt hlt] at hvalue
      exact Option.some.inj hvalue
    rw [happly, Engine.getElem?_values_of_lt (Nat.lt_of_lt_of_le hlt (Engine.length_le_apply _ _)), Engine.cell_apply,
      Writes.last_eq_none (hspared idx hidx), hcell]
    rfl

/-! ### A record that is there -/

/-- The words of a record's JSON form can be read under its keys. -/
def Holds (db : NucleusDb P) (hash : NodeHash) (payload : Bytes) : Prop :=
  ∀ write ∈ recordWrites (hashHex hash) payload, readValueByKey db write.1 = some write.2

theorem getRecord_of_holds (hcodec : codec.Lawful)
    (hraw : codec.recordToVec record = .ok payload) (h : Holds db record.hash payload) :
    getRecord codec db record.hash = some record := by
  have hlen : (UInt64.ofNat payload.length).toNat = payload.length :=
    UInt64.toNat_ofNat_of_lt' (hcodec.length_toVec record payload hraw)
  have hfirst := h _ List.mem_cons_self
  have hchunks : ((List.range (divCeil payload.length 8)).mapM fun i =>
      readValueByKey db (recordChunkKey (hashHex record.hash) i)) = some (bytesToU64Chunks payload) := by
    rw [Outcome.mapM_eq_some_iff]
    refine List.ext_getElem (by simp) ?_
    intro i hi hi'
    rw [List.length_map] at hi'
    rw [List.getElem_map, List.getElem_map, List.getElem_range]
    exact h (recordChunkKey (hashHex record.hash) i, (bytesToU64Chunks payload)[i])
      (List.mem_cons_of_mem _ (List.mem_mapIdx.mpr ⟨i, hi', rfl⟩))
  unfold getRecord
  rw [hfirst, Option.bind_some, hlen, hchunks, Option.bind_some, take_u64ChunksToBytes,
    hcodec.fromSlice_toVec record payload hraw, Option.bind_some, if_pos rfl]

theorem getRecord_of_empty (hcodec : codec.Lawful)
    (h : ∀ len, readValueByKey db (recordLenKey (hashHex hash)) = some len → len = 0) :
    getRecord codec db hash = none := by
  unfold getRecord
  cases hlen : readValueByKey db (recordLenKey (hashHex hash)) with
  | none => rfl
  | some len =>
    obtain rfl := h len hlen
    have hnothing : (codec.recordFromSlice ((u64ChunksToBytes []).take (UInt64.toNat 0))) = none := hcodec.fromSlice_nil
    rw [Option.bind_some, show divCeil (UInt64.toNat 0) 8 = 0 from rfl, List.range_zero]
    exact congrArg (Option.bind · _) hnothing

theorem holds_of_submitRecord (hkeys : db.keymap.Sound) (h : attempt codec db record payload now = some (.ok entry, db')) :
    Holds db' (computeHash P codec record) payload := by
  intro write hwrite
  refine readValueByKey_of_written hkeys h ?_
  unfold submitWrites
  rw [last_append_indexWrites (isRecordKey_of_mem_recordWrites hwrite)]
  exact last_recordWrites _ _ hwrite

end WorkRecordStore

end AgentHalo.Vcs
