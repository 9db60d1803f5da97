import AgentHalo.Trace.Operations

/-!
# Operations that succeed

A commit of a trace succeeds as long as the witnesses can sign and the database stays within its limits.
-/

namespace AgentHalo.Trace

open Engine Engine.NucleusDb
open Persistence
open Slices (divCeil)
open Vcs.WorkRecordStore (registered registerWrites_eq validateCommitShape_registered)

variable {P : Platform}

/-! ### Commits -/

/-- A database of a trace that can be committed to, with no more than so many keys and cells. -/
structure Operable (db : NucleusDb P) (room : Nat) : Prop where
  backend : db.backend = .binaryMerkle
  securityParams : db.securityParams = defaultParams .binaryMerkle
  reductionContracts : db.reductionContracts = defaultReductionContracts .binaryMerkle
  witnessCfg : ∃ allowedEnv seedEnv, db.witnessCfg = haloWitnessCfg P allowedEnv seedEnv
  usable : db.witnessCfg.Usable
  writeMode : db.writeMode = .normal
  inStep : db.ctLeaves.length = db.entries.length
  sound : db.keymap.Sound
  keys : db.keymap.nextIndex ≤ room
  cells : db.state.values.length ≤ room

theorem Operable.mono {db : NucleusDb P} {room more : Nat} (h : Operable db room) (hle : room ≤ more) : Operable db more :=
  { h with
    keys := Nat.le_trans h.keys hle
    cells := Nat.le_trans h.cells hle }

theorem operable_new {allowedEnv seedEnv : Option String} (husable : (haloWitnessCfg P allowedEnv seedEnv).Usable)
    {clock : Clock} {db : NucleusDb P}
    (h : NucleusDb.new ⟨[]⟩ .binaryMerkle (haloWitnessCfg P allowedEnv seedEnv) clock = some db) : Operable db 0 := by
  obtain ⟨setup, rfl⟩ := new_eq_some h
  exact ⟨rfl, rfl, rfl, ⟨_, _, rfl⟩, husable, rfl, rfl, Store.KeyMap.sound_new, Nat.le_refl 0, Nat.le_refl 0⟩

theorem Operable.commitTo (hP : P.SignaturesCorrect) {db : NucleusDb P} {room : Nat} (h : Operable db room)
    {writes : List (String × UInt64)} (hlimit : room + writes.length ≤ 65536) (now : Nat) :
    ∃ db', commitTo db writes now = (some (.ok ()), db') ∧ Operable db' (room + writes.length) := by
  obtain ⟨hshape, hcells⟩ := validateCommitShape_registered h.sound writes (Nat.le_add_right_of_le h.cells)
    (Nat.add_le_add_right h.keys _) hlimit
  have hadmissible : (registered db writes).Admissible ⟨(registered db writes).keymap.indexed writes⟩ [] := {
    parameters := by
      obtain ⟨allowedEnv, seedEnv, hcfg⟩ := h.witnessCfg
      change validateParameters db.securityParams db.backend.profile db.witnessCfg = _
      rw [h.securityParams, h.backend, hcfg]
      exact (openable_halo allowedEnv seedEnv).1
    contracts := by
      change validateReductionContracts db.reductionContracts = _
      rw [h.reductionContracts]
      rfl
    witnesses := by
      obtain ⟨allowedEnv, seedEnv, hcfg⟩ := h.witnessCfg
      change db.witnessCfg.witnesses.isEmpty = _
      rw [hcfg]
      rfl
    shape := by
      change validateCommitShape db.securityParams _ _ = _
      rw [h.securityParams]
      exact hshape
    monotone := by
      intro hmode
      rw [show (registered db writes).writeMode = .normal from h.writeMode] at hmode
      cases hmode
    sheaf := rfl }
  have hroots : ∃ rs, (registered db writes).roots
      (apply (registered db writes).state ⟨(registered db writes).keymap.indexed writes⟩) = some rs := by
    unfold roots stateRootFor
    rw [show (registered db writes).backend = .binaryMerkle from h.backend]
    cases (registered db writes).entries.getLast? with
    | none => exact ⟨_, rfl⟩
    | some e => exact ⟨_, rfl⟩
  obtain ⟨rs, hroots⟩ := hroots
  obtain ⟨entry, db', hcommit⟩ := commit_ok_of_usable hP now hadmissible hroots h.usable h.inStep
  have hframe := commit_sameFrame hcommit
  have hadvanced := commit_advanced hcommit
  obtain ⟨leaf, hleaves⟩ := hadvanced.ctLeaves
  have hnext := Store.KeyMap.nextIndex_register_le db.keymap (writes.map Prod.fst)
  rw [List.length_map] at hnext
  refine ⟨db', ?_, ?_⟩
  · unfold Trace.commitTo
    rw [registerWrites_eq h.sound]
    have hregistered : { db with keymap := db.keymap.register (writes.map Prod.fst) } = registered db writes := rfl
    dsimp only
    rw [hregistered]
    unfold registered at hcommit ⊢
    rw [hcommit]
  · constructor
    · exact hframe.backend.trans h.backend
    · exact hframe.securityParams.trans h.securityParams
    · exact hframe.reductionContracts.trans h.reductionContracts
    · rw [hframe.witnessCfg]
      exact h.witnessCfg
    · rw [hframe.witnessCfg]
      exact h.usable
    · exact hframe.writeMode.trans h.writeMode
    · rw [hleaves, hadvanced.entries, List.length_append, List.length_append]
      exact congrArg (· + 1) h.inStep
    · rw [hframe.keymap]
      exact h.sound.register _
    · rw [hframe.keymap]
      exact Nat.le_trans hnext (Nat.add_le_add_right h.keys _)
    · rw [hadvanced.state]
      exact hcells

theorem length_blobWrites (base : String) (raw : Bytes) : (blobWrites base raw).length = divCeil raw.length 8 + 1 := by
  unfold blobWrites bytesToU64Chunks
  rw [List.length_cons, List.length_mapIdx, List.length_map, Slices.length_sliceChunks]

/-! ### Writers -/

section Writers

variable {S : Serde P} {E : TraceEnv P} {w : TraceWriter P} {db' : NucleusDb P} {disk disk' : S.Files} {path : String}

theorem exists_new (hS : S.RoundTrips) (hW : S.Writes) (habsent : disk[path]? = none)
    (hwal : (disk.file (defaultWalPath path)).WalBlank) (allowedEnv seedEnv : Option String) (clock : Clock)
    (prices : String → Option (ModelPricing P)) (tick : Tick) : ∃ w disk',
    TraceWriter.new S E path (haloWitnessCfg P allowedEnv seedEnv) clock (.ok prices) tick disk = (some (.ok w), disk') ∧
      NucleusDb.new ⟨[]⟩ .binaryMerkle (haloWitnessCfg P allowedEnv seedEnv) clock = some w.db := by
  obtain ⟨db, hnew⟩ := new_of_openable (openable_halo (P := P) allowedEnv seedEnv) ⟨[]⟩ clock
  obtain ⟨f, hinit, -⟩ := initWal_of_blank hS hW hwal db
  have hload : loadDb S E path (haloWitnessCfg P allowedEnv seedEnv) clock disk = some (.ok db) := by
    unfold loadDb
    rw [habsent, hnew]
    rfl
  refine ⟨?w, ?disk', ?made, ?opened⟩
  case made =>
    unfold TraceWriter.new
    rw [hload]
    dsimp only
    rw [hinit]
  case opened => exact hnew

variable {writes : List (String × UInt64)} {tick : Tick} {sessionMeta : SessionMetadata} {raw : Bytes}

theorem commitWrites_of_commit {now : Nat} (hne : writes ≠ []) (h : commitTo w.db writes now = (some (.ok ()), db')) :
    w.commitWrites E writes now = (some (.ok ()), { w with db := db' }) := by
  unfold TraceWriter.commitWrites
  rw [if_neg (by simpa using hne), h]
  rfl

theorem commitAndSave_of_commit {faults : PersistFaults} (hne : writes ≠ [])
    (h : commitTo w.db writes tick.commit = (some (.ok ()), db'))
    (hpersist : persistSnapshotAndSyncWal S w.dbPath w.walPath db' tick.nanos faults disk = (.ok (), disk')) :
    w.commitAndSave E S writes tick faults disk = (some (.ok ()), { w with db := db' }, disk') := by
  unfold TraceWriter.commitAndSave
  rw [commitWrites_of_commit hne h]
  unfold TraceWriter.save
  dsimp only
  rw [hpersist]
  rfl

theorem startSession_of_commit (hraw : E.metadataToVec sessionMeta = .ok raw)
    (h : commitTo w.db (blobWrites (sessionBaseKey sessionMeta.sessionId) raw ++ TraceWriter.sessionIndexWrites E sessionMeta)
      tick.commit = (some (.ok ()), db')) : ∃ w', w.startSession E sessionMeta tick = (some (.ok ()), w') ∧
    w'.db = db' ∧ w'.dbPath = w.dbPath ∧ w'.walPath = w.walPath ∧ w'.sessionMeta = some sessionMeta := by
  obtain ⟨w₁, hw₁⟩ : ∃ w₁ : TraceWriter P, w₁ = { w with
      sessionId := sessionMeta.sessionId
      seq := 0
      summary := { SessionSummary.default with model := sessionMeta.model } } := ⟨_, rfl⟩
  rw [show w.db = w₁.db by rw [hw₁]] at h
  unfold TraceWriter.startSession
  rw [← hw₁]
  dsimp only
  rw [hraw]
  dsimp only
  rw [commitWrites_of_commit (blobWrites_append_ne_nil _ _ _) h]
  exact ⟨_, rfl, rfl, by rw [hw₁], by rw [hw₁], rfl⟩

theorem writeEvent_of_commit {event : TraceEvent P} {seq : UInt64} {summary : SessionSummary P}
    (hstarted : w.sessionMeta.isSome) (hseq : checkedAdd w.seq 1 = some seq)
    (hcount : w.summary.count E (event.stamped seq tick.secs) = some summary)
    (hraw : E.eventToVec (event.stamped seq tick.secs) = .ok raw)
    (h : commitTo w.db (blobWrites (Attest.eventBaseKey w.sessionId seq) raw) tick.commit = (some (.ok ()), db')) :
    w.writeEvent E event tick = (some (.ok ()), { w with seq, summary, db := db' }) := by
  have hnone : ¬ w.sessionMeta.isNone = true := by simpa [Option.isSome_iff_ne_none] using hstarted
  obtain ⟨w₁, hw₁⟩ : ∃ w₁ : TraceWriter P, w₁ = { w with seq, summary } := ⟨_, rfl⟩
  rw [show w.db = w₁.db by rw [hw₁]] at h
  have hne : blobWrites (Attest.eventBaseKey w.sessionId seq) raw ≠ [] := List.cons_ne_nil _ _
  unfold TraceWriter.writeEvent
  rw [if_neg hnone, hseq]
  dsimp only
  rw [hcount]
  dsimp only
  rw [hraw, ← hw₁]
  dsimp only
  rw [commitWrites_of_commit hne h, hw₁]

variable (tick) in
theorem exists_endSession (hP : P.SignaturesCorrect) (hS : S.RoundTrips) (hW : S.Writes) {room : Nat}
    (hdb : Operable w.db room) (hpath : w.walPath = defaultWalPath w.dbPath) (hstarted : w.sessionMeta = some sessionMeta)
    {status : SessionStatus} {rawMeta : Bytes} (hmeta : E.metadataToVec (sessionMeta.final status tick.secs) = .ok rawMeta)
    {n : Nat} (hsummary : ∃ raw, E.summaryToVec (w.ended sessionMeta status tick.secs).2 = .ok raw ∧ raw.length = n)
    (hlimit : room + (divCeil rawMeta.length 8 + divCeil n 8 + 12) ≤ 65536)
    (hfree : disk[swapPath (defaultWalPath w.dbPath) tick.nanos]? = none) : ∃ summary w' disk',
    w.endSession E S status tick {} disk = (some (.ok summary), w', disk') ∧
      Operable w'.db (room + (divCeil rawMeta.length 8 + divCeil n 8 + 12)) := by
  obtain ⟨w₁, hw₁⟩ : ∃ w₁ : TraceWriter P, w₁ = { w with
      summary := (w.ended sessionMeta status tick.secs).2
      sessionMeta := some sessionMeta } := ⟨_, rfl⟩
  obtain ⟨rawSummary, hrawSummary, hlength⟩ := hsummary
  unfold TraceWriter.endSession
  rw [hstarted]
  dsimp only
  rw [← hw₁, show E.metadataToVec (w.ended sessionMeta status tick.secs).1 = .ok rawMeta from hmeta, hrawSummary]
  dsimp only
  generalize hwrites : TraceWriter.endWrites E _ _ rawMeta rawSummary tick.secs = writes
  have hcount : writes.length = divCeil rawMeta.length 8 + divCeil n 8 + 12 := by
    rw [← hwrites]
    simp only [TraceWriter.endWrites, TraceWriter.costAggregateWrites, List.length_append, length_blobWrites, hlength,
      List.length_cons, List.length_nil]
    omega
  have hfits : room + writes.length ≤ 65536 := by
    rw [hcount]
    exact hlimit
  obtain ⟨db', hcommit, hdb'⟩ := hdb.commitTo hP hfits tick.commit
  obtain ⟨disk', hpersist⟩ := exists_persist hS hW hfree db'
  have hne : writes ≠ [] := by
    rintro rfl
    cases hcount
  have hdb₁ : w₁.db = w.db := by rw [hw₁]
  have hpaths : w₁.dbPath = w.dbPath ∧ w₁.walPath = defaultWalPath w.dbPath := by
    rw [hw₁]
    exact ⟨rfl, hpath⟩
  rw [commitAndSave_of_commit hne (hdb₁ ▸ hcommit) (by rw [hpaths.1, hpaths.2]; exact hpersist)]
  exact ⟨_, _, _, rfl, hcount ▸ hdb'⟩

end Writers

end AgentHalo.Trace
