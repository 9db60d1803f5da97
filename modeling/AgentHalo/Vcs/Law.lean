import AgentHalo.Engine.TypedLaw
import AgentHalo.Vcs.Reading

/-!
# The law of the record store

Several clients work on one database: records are submitted, other clients register keys, write typed values and commit.
`getRecord_exec` says what `get_record` returns after any such run in which no other client writes to the cells of the
record's keys. A database in which a commit once succeeded is `Settled`: from then on a failed commit changes nothing.
Before that a failed submission may leave its words behind, but only under the hash that was submitted.
-/

namespace AgentHalo.Vcs

open Engine (NucleusDb CommitError CommitEntry Delta Clock LocalSection)
open Store (KeyMap TypedValue)

variable {P : Platform}

/-- What the clients of a database do. -/
inductive Action (P : Platform) where
  | submit (record : WorkRecord) (now : Nat)
  | register (key : String)
  | putTyped (key : String) (value : TypedValue P) (clock : Clock)
  | commit (delta : Delta) (localViews : List LocalSection) (now : Nat)

namespace WorkRecordStore

variable {codec : RecordCodec}

def step (codec : RecordCodec) (db : NucleusDb P) : Action P → NucleusDb P
  | .submit record now => (submitRecord codec db record now).2
  | .register key => { db with keymap := (db.keymap.getOrCreate key).2 }
  | .putTyped key value clock => (db.putTyped key value clock).2
  | .commit delta localViews now =>
    match db.commit delta localViews now with
    | some (_, db') => db'
    | none => db

/-- The record that an action stores, if it is a submission that succeeds: with its hash and the height of its commit. -/
def stored (codec : RecordCodec) (db : NucleusDb P) : Action P → Option WorkRecord
  | .submit record now =>
    match (submitRecord codec db record now).1 with
    | some (.ok result) => some { record with hash := result.hash, proofRef := some result.commitHeight }
    | _ => none
  | _ => none

@[simp] theorem step_submit (db : NucleusDb P) (record : WorkRecord) (now : Nat) :
    step codec db (.submit record now) = (submitRecord codec db record now).2 := rfl

variable {db db' : NucleusDb P} {delta : Delta} {localViews : List LocalSection} {now : Nat}
  {r : Except CommitError CommitEntry}

theorem step_commit (h : db.commit delta localViews now = some (r, db')) :
    step codec db (.commit delta localViews now) = db' := by
  unfold step
  dsimp only
  rw [h]

variable {record : WorkRecord}

theorem stored_submit {result : SubmitResult} (h : (submitRecord codec db record now).1 = some (.ok result)) :
    stored codec db (.submit record now) =
      some { record with hash := result.hash, proofRef := some result.commitHeight } := by
  unfold stored
  dsimp only
  rw [h]

/-! ### What an action can do -/

theorem commit_state (h : db.commit delta localViews now = some (r, db')) :
    db'.state = db.state ∨ db'.state = Engine.apply db.state delta := by
  rcases NucleusDb.commit_cases h with ⟨-, -, rfl⟩ | ⟨-, -, rs, -, rfl | rfl⟩ | ⟨rs, sigs, entry, -, hc⟩
  · exact .inl rfl
  · exact .inl rfl
  · exact .inr rfl
  · exact .inr hc.advanced.state

variable (codec) in
theorem submitRecord_effect (hkeys : db.keymap.Sound) (record : WorkRecord) (now : Nat) :
    (submitRecord codec db record now).2 = db ∨ ∃ payload,
      (submitRecord codec db record now).2.keymap = (registered db (submitWrites codec db record payload)).keymap ∧
      ((submitRecord codec db record now).2.state = db.state ∨ (submitRecord codec db record now).2.state =
        Engine.apply db.state ⟨(registered db (submitWrites codec db record payload)).keymap.indexed
          (submitWrites codec db record payload)⟩) := by
  by_cases hok : ∃ result, (submitRecord codec db record now).1 = some (.ok result)
  · obtain ⟨result, hok⟩ := hok
    obtain ⟨payload, entry, -, hattempt, -⟩ := submitRecord_ok hkeys hok
    have hstate := commit_state hattempt
    exact .inr ⟨payload, (NucleusDb.commit_sameFrame hattempt).keymap, hstate⟩
  · rcases submitRecord_not_ok hkeys (not_exists.mp hok) with hsame | ⟨payload, hsame | ⟨e, hattempt⟩⟩
    · exact .inl hsame
    · exact .inr ⟨payload, by rw [hsame], by rw [hsame]; exact .inl rfl⟩
    · have hstate := commit_state hattempt
      exact .inr ⟨payload, (NucleusDb.commit_sameFrame hattempt).keymap, hstate⟩

variable (codec) in
theorem keymap_step (hkeys : db.keymap.Sound) (a : Action P) :
    ∃ keys, (step codec db a).keymap = db.keymap.register keys := by
  cases a with
  | submit record now =>
    rcases submitRecord_effect codec hkeys record now with hsame | ⟨payload, hkeymap, -⟩
    · exact ⟨[], congrArg NucleusDb.keymap hsame⟩
    · exact ⟨_, hkeymap⟩
  | register key => exact ⟨[key], rfl⟩
  | putTyped key value clock =>
    unfold step
    dsimp only
    rcases NucleusDb.putTyped_cases db key value clock with ⟨vectorIndex, hdb⟩ | ⟨-, vectorIndex, hdb⟩
    · exact ⟨[], by rw [hdb]; rfl⟩
    · exact ⟨[key], by rw [hdb]; rfl⟩
  | commit delta localViews now =>
    refine ⟨[], ?_⟩
    unfold step
    dsimp only
    cases hcommit : db.commit delta localViews now with
    | none => rfl
    | some outcome => exact (NucleusDb.commit_sameFrame hcommit).keymap

theorem sound_step (hkeys : db.keymap.Sound) (a : Action P) : (step codec db a).keymap.Sound := by
  obtain ⟨keys, hkeymap⟩ := keymap_step codec hkeys a
  rw [hkeymap]
  exact hkeys.register keys

variable {key : String} {idx : Nat} {m : KeyMap} {hash : NodeHash}

variable (codec) in
theorem get_step (hkeys : db.keymap.Sound) (a : Action P) (h : db.keymap.get key = some idx) :
    (step codec db a).keymap.get key = some idx := by
  obtain ⟨keys, hkeymap⟩ := keymap_step codec hkeys a
  rw [hkeymap]
  exact KeyMap.get_register h keys

/-- The action is no commit that writes to a cell of the record's keys, as the key map `m` has them. -/
def Spares (m : KeyMap) (hash : NodeHash) : Action P → Prop
  | .commit delta _ _ => ∀ write ∈ delta.writes, ∀ key, IsRecordKey hash key → m.get key ≠ some write.1
  | _ => True

variable {a : Action P}

theorem state_step (hkeys : db.keymap.Sound) (hm : m.Sound) (hspares : Spares m hash a)
    (hother : ∀ record now, a = .submit record now → computeHash P codec record ≠ hash)
    (hgrows : ∀ key idx, (step codec db a).keymap.get key = some idx → m.get key = some idx) :
    ∃ delta : Delta, ((step codec db a).state = db.state ∨ (step codec db a).state = Engine.apply db.state delta) ∧
      ∀ write ∈ delta.writes, ∀ key, IsRecordKey hash key → m.get key ≠ some write.1 := by
  cases a with
  | submit record now =>
    rcases submitRecord_effect codec hkeys record now with hsame | ⟨payload, hkeymap, hstate⟩
    · exact ⟨⟨[]⟩, .inl (congrArg NucleusDb.state hsame), by simp⟩
    · refine ⟨_, hstate, ?_⟩
      intro write hwrite key hkey hidx
      obtain ⟨w, hw, rfl⟩ := List.mem_map.mp hwrite
      obtain ⟨i, hi⟩ := Option.isSome_iff_exists.mp (isSome_get_of_mem (m := db.keymap) hw)
      have hindexed : (registered db (submitWrites codec db record payload)).keymap.get w.1 = some i := hi
      have hfinal : m.get w.1 = some i := hgrows w.1 i (by
        unfold step
        rw [hkeymap]
        exact hindexed)
      dsimp only at hidx
      rw [hindexed, Option.getD_some] at hidx
      obtain rfl := hm.injective key w.1 i hidx hfinal
      -- a record's key is written for that record only
      rcases List.mem_append.mp hw with hrecord | hindex
      · exact hother record now rfl ((isRecordKey_of_mem_recordWrites hrecord).hash_unique hkey)
      · exact not_isRecordKey_of_mem_indexWrites hindex hkey
  | register key => exact ⟨⟨[]⟩, .inl rfl, by simp⟩
  | putTyped key value clock =>
    refine ⟨⟨[]⟩, .inl ?_, by simp⟩
    unfold step
    dsimp only
    rcases NucleusDb.putTyped_cases db key value clock with ⟨vectorIndex, hdb⟩ | ⟨-, vectorIndex, hdb⟩
    · rw [hdb]
    · rw [hdb]
  | commit delta localViews now =>
    refine ⟨delta, ?_, hspares⟩
    unfold step
    dsimp only
    cases hcommit : db.commit delta localViews now with
    | none => exact .inl rfl
    | some outcome => exact commit_state hcommit

/-! ### Settled databases -/

/-- The witnesses can sign, and the log has a leaf for every entry. -/
structure Settled (db : NucleusDb P) : Prop where
  usable : db.witnessCfg.Usable
  inStep : db.ctLeaves.length = db.entries.length

theorem settled_of_commit
    {entry : CommitEntry} (h : db.commit delta localViews now = some (.ok entry, db')) : Settled db' := by
  obtain ⟨rs, sigs, hc⟩ := NucleusDb.commit_ok h
  obtain ⟨leaf, hleaves⟩ := hc.advanced.ctLeaves
  constructor
  · rw [hc.sameFrame.witnessCfg]
    exact Engine.WitnessConfig.usable_of_quorum (Engine.validateParameters_ok hc.admissible.parameters).1 hc.signed
      hc.quorum
  · rw [hleaves, hc.advanced.entries, List.length_append, List.length_append, hc.inStep]
    rfl

theorem Settled.eq_of_error (hP : P.SignaturesCorrect) (h : Settled db) {e : CommitError}
    (hcommit : db.commit delta localViews now = some (.error e, db')) : db' = db :=
  (NucleusDb.commit_atomic_iff hP db delta localViews now).mpr (.inr (.inr ⟨h.usable, h.inStep⟩)) e db' hcommit

theorem Settled.commit (hP : P.SignaturesCorrect) (h : Settled db)
    (hcommit : db.commit delta localViews now = some (r, db')) : Settled db' := by
  cases r with
  | error e =>
    rw [h.eq_of_error hP hcommit]
    exact h
  | ok entry => exact settled_of_commit hcommit

theorem Settled.registered (h : Settled db) (writes : List (String × UInt64)) :
    Settled (registered db writes) := ⟨h.usable, h.inStep⟩

theorem Settled.step (hP : P.SignaturesCorrect) (h : Settled db) (hkeys : db.keymap.Sound)
    (a : Action P) : Settled (step codec db a) := by
  cases a with
  | submit record now =>
    unfold WorkRecordStore.step
    dsimp only
    by_cases hok : ∃ result, (submitRecord codec db record now).1 = some (.ok result)
    · obtain ⟨result, hok⟩ := hok
      obtain ⟨payload, entry, -, hattempt, -⟩ := submitRecord_ok hkeys hok
      exact settled_of_commit hattempt
    · rcases submitRecord_not_ok hkeys (not_exists.mp hok) with hsame | ⟨payload, hsame | ⟨e, hattempt⟩⟩
      · rw [hsame]
        exact h
      · rw [hsame]
        exact h.registered _
      · exact (h.registered _).commit hP hattempt
  | register key => exact ⟨h.usable, h.inStep⟩
  | putTyped key value clock =>
    unfold WorkRecordStore.step
    dsimp only
    rcases NucleusDb.putTyped_cases db key value clock with ⟨vectorIndex, hdb⟩ | ⟨-, vectorIndex, hdb⟩
    · rw [hdb]
      exact ⟨h.usable, h.inStep⟩
    · rw [hdb]
      exact ⟨h.usable, h.inStep⟩
  | commit delta localViews now =>
    unfold WorkRecordStore.step
    dsimp only
    cases hcommit : db.commit delta localViews now with
    | none => exact h
    | some outcome => exact h.commit hP hcommit

theorem Settled.state_of_not_stored (hP : P.SignaturesCorrect) (h : Settled db)
    (hkeys : db.keymap.Sound) (hnone : stored codec db (.submit record now) = none) :
    (submitRecord codec db record now).2.state = db.state := by
  have hfailed : ∀ result, (submitRecord codec db record now).1 ≠ some (.ok result) := by
    intro result hok
    unfold stored at hnone
    dsimp only at hnone
    rw [hok] at hnone
    cases hnone
  rcases submitRecord_not_ok hkeys hfailed with hsame | ⟨payload, hsame | ⟨e, hattempt⟩⟩
  · rw [hsame]
  · rw [hsame]
    rfl
  · rw [(h.registered _).eq_of_error hP hattempt]
    rfl

/-! ### Whole runs -/

theorem holds_of_stored (hkeys : db.keymap.Sound) (h : stored codec db a = some record) :
    ∃ payload, codec.recordToVec record = .ok payload ∧ Holds (step codec db a) record.hash payload ∧
      Settled (step codec db a) := by
  cases a with
  | submit draft now =>
    unfold stored at h
    dsimp only at h
    split at h
    · rename_i result hok
      obtain ⟨payload, entry, hraw, hattempt, hhash, hheight⟩ := submitRecord_ok hkeys hok
      have hentry := (NucleusDb.commit_advanced hattempt).height
      have hrecord : stamped codec db draft = record := by
        rw [← Option.some.inj h, hhash, hheight, hentry]
        unfold stamped registered
        rw [UInt64.ofNat_add]
        rfl
      rw [hrecord] at hraw
      refine ⟨payload, hraw, ?_, settled_of_commit hattempt⟩
      rw [← Option.some.inj h]
      dsimp only
      rw [hhash]
      exact holds_of_submitRecord hkeys hattempt
    · cases h
  | register key => cases h
  | putTyped key value clock => cases h
  | commit delta localViews now => cases h

theorem Holds.step (hP : P.SignaturesCorrect) (hkeys : db.keymap.Sound) (hsettled : Settled db) (hm : m.Sound)
    {payload : Bytes} (h : Holds db hash payload) (hspares : Spares m hash a)
    (hgrows : ∀ key idx, (step codec db a).keymap.get key = some idx → m.get key = some idx)
    (hstored : ∀ record, stored codec db a = some record → record.hash ≠ hash) : Holds (step codec db a) hash payload := by
  have hsame : (∀ record now, a = .submit record now → computeHash P codec record ≠ hash) ∨
      (WorkRecordStore.step codec db a).state = db.state := by
    by_cases hown : ∃ record now, a = .submit record now ∧ computeHash P codec record = hash
    · right
      obtain ⟨record, now, rfl, rfl⟩ := hown
      -- storing the record again under its hash is excluded, so the submission fails
      refine hsettled.state_of_not_stored hP hkeys ?_
      cases hr : stored codec db (.submit record now) with
      | none => rfl
      | some again =>
        refine absurd ?_ (hstored again hr)
        unfold stored at hr
        dsimp only at hr
        split at hr
        · rename_i result hok
          obtain ⟨-, -, -, -, hhash, -⟩ := submitRecord_ok hkeys hok
          rw [← Option.some.inj hr]
          exact hhash
        · cases hr
    · left
      intro record now ha hhash
      exact hown ⟨record, now, ha, hhash⟩
  intro write hwrite
  have hkey := isRecordKey_of_mem_recordWrites hwrite
  have hread := h write hwrite
  have hkeymap := fun idx (hidx : db.keymap.get write.1 = some idx) => get_step codec hkeys a hidx
  rcases hsame with hother | hsame
  · obtain ⟨delta, hstate, hcells⟩ := state_step hkeys hm hspares hother hgrows
    refine readValueByKey_of_unwritten hread hkeymap hstate ?_
    rintro idx hidx w hw rfl
    exact hcells w hw write.1 hkey (hgrows _ _ (hkeymap _ hidx))
  · exact @readValueByKey_of_unwritten _ _ _ _ _ ⟨[]⟩ hread hkeymap (.inl hsame) (by simp)

variable (codec) in
theorem sound_exec (hkeys : db.keymap.Sound) (actions : List (Action P)) :
    (Run.exec (step codec) db actions).keymap.Sound :=
  Run.exec_invariant (I := fun s : NucleusDb P => s.keymap.Sound) (fun _ a hs => sound_step hs a) hkeys actions

theorem get_exec (hkeys : db.keymap.Sound) (h : db.keymap.get key = some idx) (actions : List (Action P)) :
    (Run.exec (step codec) db actions).keymap.get key = some idx := by
  have hinv : (Run.exec (step codec) db actions).keymap.Sound ∧
      (Run.exec (step codec) db actions).keymap.get key = some idx :=
    Run.exec_invariant (I := fun s : NucleusDb P => s.keymap.Sound ∧ s.keymap.get key = some idx)
      (fun _ a hs => ⟨sound_step hs.1 a, get_step codec hs.1 a hs.2⟩) ⟨hkeys, h⟩ actions
  exact hinv.2

variable (codec) in
theorem grows_along (hkeys : db.keymap.Sound) (actions : List (Action P)) :
    Run.Along (step codec) (fun s a => ∀ key idx, (step codec s a).keymap.get key = some idx →
      (Run.exec (step codec) db actions).keymap.get key = some idx) db actions := by
  refine Run.along_iff.mpr ?_
  rintro front a back rfl key idx hget
  rw [Run.exec_append, Run.exec_cons]
  exact get_exec (sound_step (sound_exec codec hkeys front) a) hget back

/-- **The law of the record store.** After any run a record that was stored, and not stored again under its hash, is what
`get_record` returns, if no other client wrote to the cells of its keys since; and a hash that was never submitted has no
record, if no other client wrote to the cells of its keys and the cell of its length was zero at the start. -/
theorem getRecord_exec (hP : P.SignaturesCorrect) (hcodec : codec.Lawful) {db : NucleusDb P} (hkeys : db.keymap.Sound)
    (actions : List (Action P)) :
    (∀ front a back record, actions = front ++ a :: back →
      stored codec (Run.exec (step codec) db front) a = some record →
      (∀ front' a' back' record', back = front' ++ a' :: back' →
        stored codec (Run.exec (step codec) db (front ++ a :: front')) a' = some record' → record'.hash ≠ record.hash) →
      (∀ a' ∈ back, Spares (Run.exec (step codec) db actions).keymap record.hash a') →
      getRecord codec (Run.exec (step codec) db actions) record.hash = some record) ∧
    ∀ hash, (∀ record now, .submit record now ∈ actions → computeHash P codec record ≠ hash) →
      (∀ a ∈ actions, Spares (Run.exec (step codec) db actions).keymap hash a) →
      (∀ idx, (Run.exec (step codec) db actions).keymap.get (recordLenKey (hashHex hash)) = some idx →
        db.state.cell idx = 0) →
      getRecord codec (Run.exec (step codec) db actions) hash = none := by
  have hfinal := sound_exec codec hkeys actions
  have hgrows := Run.along_iff.mp (grows_along codec hkeys actions)
  constructor
  · rintro front a back record rfl hstored hlast hspares
    have hfront := sound_exec codec hkeys front
    obtain ⟨payload, hraw, hholds, hsettled⟩ := holds_of_stored hfront hstored
    have hback : Run.Along (step codec) (fun s a' =>
        Spares (Run.exec (step codec) db (front ++ a :: back)).keymap record.hash a' ∧
        (∀ key idx, (step codec s a').keymap.get key = some idx →
          (Run.exec (step codec) db (front ++ a :: back)).keymap.get key = some idx) ∧
        ∀ record', stored codec s a' = some record' → record'.hash ≠ record.hash)
        (step codec (Run.exec (step codec) db front) a) back := by
      refine Run.along_iff.mpr ?_
      rintro front' a' back' rfl
      have hwhole : Run.exec (step codec) (step codec (Run.exec (step codec) db front) a) front' =
          Run.exec (step codec) db (front ++ a :: front') := by
        rw [Run.exec_append, Run.exec_cons]
      refine ⟨hspares a' (by simp), ?_, ?_⟩
      · rw [hwhole]
        exact hgrows (front ++ a :: front') a' back' (by simp)
      · rw [hwhole]
        exact fun record' => hlast front' a' back' record' rfl
    have hend : ∀ s : NucleusDb P, s.keymap.Sound ∧ Settled s ∧ Holds s record.hash payload →
        getRecord codec s record.hash = some record := fun s hs => getRecord_of_holds hcodec hraw hs.2.2
    rw [Run.exec_append, Run.exec_cons]
    refine hend _ (Run.exec_invariant_along
      (I := fun s : NucleusDb P => s.keymap.Sound ∧ Settled s ∧ Holds s record.hash payload) ?_
      ⟨sound_step hfront a, hsettled, hholds⟩ hback)
    rintro s a' ⟨hsound, hset, hs⟩ ⟨hspared, hgrow, hnot⟩
    exact ⟨sound_step hsound a', hset.step hP hsound a', hs.step hP hsound hset hfinal hspared hgrow hnot⟩
  · intro hash hnever hspares hzero
    refine getRecord_of_empty hcodec ?_
    intro len hlen
    obtain ⟨idx, hidx, hvalue⟩ := readValueByKey_eq_some.mp hlen
    have hrun : Run.Along (step codec) (fun s a =>
        (a ∈ actions) ∧ ∀ key idx, (step codec s a).keymap.get key = some idx →
          (Run.exec (step codec) db actions).keymap.get key = some idx) db actions := by
      refine Run.along_iff.mpr ?_
      intro front a back hsplit
      exact ⟨by simp [hsplit], hgrows front a back hsplit⟩
    have hinv : (Run.exec (step codec) db actions).keymap.Sound ∧
        (Run.exec (step codec) db actions).state.cell idx = 0 := by
      refine Run.exec_invariant_along (I := fun s => s.keymap.Sound ∧ s.state.cell idx = 0) ?_
        ⟨hkeys, hzero idx hidx⟩ hrun
      rintro s a ⟨hsound, hcell⟩ ⟨hmem, hgrow⟩
      refine ⟨sound_step hsound a, ?_⟩
      obtain ⟨delta, hstate, hcells⟩ := state_step hsound hfinal (hspares a hmem)
        (fun record now ha => hnever record now (by rw [← ha]; exact hmem)) hgrow
      rcases hstate with hsame | happly
      · rw [hsame, hcell]
      · rw [happly, Engine.cell_apply, Writes.last_eq_none, Option.getD_none, hcell]
        rintro w hw rfl
        exact hcells w hw _ (.inl rfl) hidx
    have hlt := (List.getElem?_eq_some_iff.mp hvalue).1
    rw [Engine.getElem?_values_of_lt hlt, hinv.2] at hvalue
    exact (Option.some.inj hvalue).symm

end WorkRecordStore

end AgentHalo.Vcs
