import AgentHalo.Trace.Blobs

/-!
# What an operation leaves

One rule for each operation of the writer: an operation that succeeds has committed the blob of its record, with other keys
under prefixes of their own, to the copy of the database, and has replaced the snapshot where it saves; one that fails
before its commit is made has at most registered keys or pushed a leaf. A database that is loaded shows what the snapshot
shows.
-/

namespace AgentHalo.Trace

open Attest (sessionPrefix eventPrefix eventBaseKey)
open Engine Engine.NucleusDb
open Persistence
open Text (startsWith)

variable {P : Platform} {S : Serde P} {E : TraceEnv P}

/-! ### Keys beside the records -/

/-- The prefixes of the records that are read back. -/
def recordPrefixes : List String := [sessionPrefix, eventPrefix, paidOpsPrefix, skillPrefix]

/-- The prefixes of what else a session writes. -/
def sidePrefixes : List String :=
  [idxAgentPrefix, idxDatePrefix, idxModelPrefix, costsDailyPrefix, costsMonthlyPrefix, summaryPrefix]

def Side (key : String) : Prop := ∃ keyPrefix ∈ sidePrefixes, startsWith key keyPrefix = true

variable {keyPrefix path e : String} {cfg : WitnessConfig P} {disk disk' : S.Files} {writes : List (String × UInt64)}
  {event : TraceEvent P} {status : SessionStatus} {summary : SessionSummary P} {op : PaidOperation P}

theorem Side.not_isBlobKey {key base : String} (h : Side key) (hpre : keyPrefix ∈ recordPrefixes)
    (hbase : Under keyPrefix base) : ¬ IsBlobKey base key := by
  have hapart : ∀ p ∈ recordPrefixes, ∀ q ∈ sidePrefixes, startsWith p q = false ∧ startsWith q p = false := by decide
  obtain ⟨other, hother, hkey⟩ := h
  exact hbase.not_isBlobKey hkey (hapart keyPrefix hpre other hother)

theorem startsWith_append_append (keyPrefix middle rest : String) :
    startsWith (keyPrefix ++ middle ++ rest) keyPrefix = true := by
  rw [String.append_assoc]
  exact Text.startsWith_append _ _

variable {sessionMeta : SessionMetadata} {write : String × UInt64}

theorem prefix_sessionIndexWrites (h : write ∈ TraceWriter.sessionIndexWrites E sessionMeta) :
    ∃ keyPrefix ∈ [idxAgentPrefix, idxDatePrefix, idxModelPrefix], startsWith write.1 keyPrefix = true := by
  unfold TraceWriter.sessionIndexWrites at h
  rcases List.mem_cons.mp h with rfl | h
  · exact ⟨idxAgentPrefix, by decide, startsWith_append_append _ _ _⟩
  rcases List.mem_cons.mp h with rfl | h
  · exact ⟨idxDatePrefix, by decide, startsWith_append_append _ _ _⟩
  · obtain ⟨model, -, rfl⟩ := Option.map_eq_some_iff.mp (Option.mem_toList.mp h)
    exact ⟨idxModelPrefix, by decide, startsWith_append_append _ _ _⟩

theorem side_sessionIndexWrites (h : write ∈ TraceWriter.sessionIndexWrites E sessionMeta) : Side write.1 := by
  have hside : ∀ p ∈ [idxAgentPrefix, idxDatePrefix, idxModelPrefix], p ∈ sidePrefixes := by decide
  obtain ⟨keyPrefix, hpre, hkey⟩ := prefix_sessionIndexWrites h
  exact ⟨keyPrefix, hside keyPrefix hpre, hkey⟩

variable {w w' : TraceWriter P}

theorem side_costAggregateWrites {label : String} (hpre : keyPrefix ∈ sidePrefixes)
    (h : write ∈ w.costAggregateWrites E (keyPrefix ++ label)) : Side write.1 := by
  have hkey : ∃ suffix, write.1 = keyPrefix ++ label ++ suffix := by
    unfold TraceWriter.costAggregateWrites at h
    simp only [List.mem_cons, List.not_mem_nil, or_false] at h
    rcases h with rfl | rfl | rfl | rfl | rfl
    all_goals exact ⟨_, rfl⟩
  obtain ⟨suffix, hkey⟩ := hkey
  exact ⟨keyPrefix, hpre, hkey ▸ startsWith_append_append _ _ _⟩

/-! ### Loading -/

variable {clock : Clock}

theorem loadDb_absent {db : NucleusDb P} (habsent : disk[path]? = none) (h : loadDb S E path cfg clock disk = some (.ok db)) :
    db.keymap = .new ∧ db.backend = .binaryMerkle ∧ db.state = ⟨[]⟩ ∧ db.entries = [] ∧ db.ctLeaves = [] := by
  unfold loadDb at h
  rw [habsent] at h
  obtain ⟨opened, hnew, hok⟩ := Option.map_eq_some_iff.mp h
  obtain rfl := Except.ok.inj hok
  obtain ⟨setup, rfl⟩ := new_eq_some hnew
  exact ⟨rfl, rfl, rfl, rfl, rfl⟩

theorem openable_halo (allowedEnv seedEnv : Option String) : Openable .binaryMerkle (haloWitnessCfg P allowedEnv seedEnv) := by
  refine ⟨?_, none, rfl⟩
  have hcount : (haloWitnessCfg P allowedEnv seedEnv).witnesses.length = 3 := rfl
  have hthreshold : (haloWitnessCfg P allowedEnv seedEnv).threshold = 2 := rfl
  unfold validateParameters
  rw [hcount, hthreshold]
  rfl

theorem SnapshotAt.loadDb_eq {saved : NucleusDb P} (h : SnapshotAt S disk path saved)
    (hbackend : saved.backend = .binaryMerkle) (allowedEnv seedEnv : Option String) (clock : Clock) :
    ∃ db, loadDb S E path (haloWitnessCfg P allowedEnv seedEnv) clock disk = some (.ok db) ∧
      traceDb db = traceDb saved ∧ db.backend = .binaryMerkle ∧ db.entries = saved.entries ∧
        db.ctLeaves = saved.ctLeaves := by
  have hexists : disk[path]?.isSome := by
    obtain ⟨f, _, hfile, -⟩ := h
    rw [hfile]
    rfl
  obtain ⟨db, hload, hsame, -⟩ := h.loadSnapshot_ok (hbackend ▸ openable_halo allowedEnv seedEnv) clock
  have heq := eq_of_snapshotOf hsame
  refine ⟨db, ?_, ?_, (congrArg NucleusDb.backend heq).trans hbackend, by rw [heq], by rw [heq]⟩
  · rw [loadDb, if_pos hexists, hload]
    rfl
  · rw [heq]
    rfl

variable {tick : Tick}

theorem new_ok {pricing : Except String (String → Option (ModelPricing P))}
    (h : TraceWriter.new S E path cfg clock pricing tick disk = (some (.ok w), disk')) :
    loadDb S E path cfg clock disk = some (.ok w.db) ∧ w.dbPath = path ∧ w.walPath = defaultWalPath path ∧
      w.sessionMeta = none ∧ ∀ other, defaultWalPath path ≠ other → disk'[other]? = disk[other]? := by
  unfold TraceWriter.new at h
  split at h
  · cases h
  · cases h
  · rename_i db hload
    split at h
    · cases h
    · rename_i disk₁ hinit
      split at h
      · cases h
      · obtain ⟨hw, rfl⟩ := Prod.mk.inj h
        obtain rfl := Except.ok.inj (Option.some.inj hw)
        exact ⟨hload, rfl, rfl, rfl, fun other hne => initWal_frame hinit hne⟩

/-! ### Commits and saves -/

theorem commitWrites_ok {now : Nat} (hne : writes ≠ []) (h : w.commitWrites E writes now = (some (.ok ()), w')) :
    ∃ db', commitTo w.db writes now = (some (.ok ()), db') ∧ w' = { w with db := db' } := by
  unfold TraceWriter.commitWrites at h
  rw [if_neg (by simpa using hne)] at h
  cases hcommit : commitTo w.db writes now with
  | mk r db' =>
    rw [hcommit] at h
    obtain ⟨hr, rfl⟩ := Prod.mk.inj h
    obtain ⟨r', rfl, hr'⟩ := Option.map_eq_some_iff.mp hr
    rw [Outcome.mapError_eq_ok] at hr'
    exact ⟨db', by rw [hr'], rfl⟩

theorem blobWrites_append_ne_nil (base : String) (raw : Bytes) (extras : List (String × UInt64)) :
    blobWrites base raw ++ extras ≠ [] :=
  List.cons_ne_nil _ _

variable {faults : PersistFaults}

theorem commitAndSave_ok (hne : writes ≠ []) (h : w.commitAndSave E S writes tick faults disk = (some (.ok ()), w', disk')) :
    ∃ db', commitTo w.db writes tick.commit = (some (.ok ()), db') ∧ w' = { w with db := db' } ∧
      persistSnapshotAndSyncWal S w.dbPath w.walPath db' tick.nanos faults disk = (.ok (), disk') := by
  unfold TraceWriter.commitAndSave at h
  split at h
  · rename_i w₁ hcommit
    obtain ⟨db', hdb, rfl⟩ := commitWrites_ok hne hcommit
    refine ⟨db', hdb, ?_⟩
    unfold TraceWriter.save at h
    dsimp only at h
    cases hpersist : persistSnapshotAndSyncWal S w.dbPath w.walPath db' tick.nanos faults disk with
    | mk r disk₁ =>
      rw [hpersist] at h
      dsimp only at h
      obtain ⟨hr, hrest⟩ := Prod.mk.inj h
      obtain ⟨rfl, rfl⟩ := Prod.mk.inj hrest
      rw [Option.some.injEq, Outcome.mapError_eq_ok] at hr
      exact ⟨rfl, by rw [hr]⟩
  · rename_i r w₁ hnot hcommit
    exact absurd (Prod.mk.inj h).1 hnot

/-! ### The operations -/

theorem startSession_ok (h : w.startSession E sessionMeta tick = (some (.ok ()), w')) :
    ∃ raw db', E.metadataToVec sessionMeta = .ok raw ∧
      commitTo w.db (blobWrites (sessionBaseKey sessionMeta.sessionId) raw ++ TraceWriter.sessionIndexWrites E sessionMeta)
        tick.commit = (some (.ok ()), db') ∧
      w' = { w with
        sessionId := sessionMeta.sessionId
        seq := 0
        summary := { SessionSummary.default with model := sessionMeta.model }
        sessionMeta := some sessionMeta
        db := db' } := by
  unfold TraceWriter.startSession at h
  dsimp only at h
  split at h
  · cases h
  · rename_i raw hraw
    split at h
    · rename_i w₁ hcommit
      obtain ⟨db', hdb, rfl⟩ := commitWrites_ok (blobWrites_append_ne_nil _ _ _) hcommit
      exact ⟨raw, db', hraw, hdb, (Prod.mk.inj h).2.symm⟩
    · rename_i r w₁ hnot hcommit
      exact absurd (Prod.mk.inj h).1 hnot

theorem writeEvent_ok (h : w.writeEvent E event tick = (some (.ok ()), w')) :
    ∃ seq summary raw db', checkedAdd w.seq 1 = some seq ∧ w.summary.count E (event.stamped seq tick.secs) = some summary ∧
      E.eventToVec (event.stamped seq tick.secs) = .ok raw ∧
      commitTo w.db (blobWrites (eventBaseKey w.sessionId seq) raw) tick.commit = (some (.ok ()), db') ∧
      w' = { w with seq, summary, db := db' } := by
  unfold TraceWriter.writeEvent at h
  split at h
  · cases h
  split at h
  · cases h
  rename_i seq hseq
  dsimp only at h
  split at h
  · cases h
  rename_i summary hsummary
  split at h
  · cases h
  rename_i raw hraw
  obtain ⟨db', hdb, rfl⟩ := commitWrites_ok (List.cons_ne_nil _ _) h
  exact ⟨seq, summary, raw, db', hseq, hsummary, hraw, hdb, rfl⟩

def SessionMetadata.final (sessionMeta : SessionMetadata) (status : SessionStatus) (now : UInt64) : SessionMetadata :=
  { sessionMeta with endedAt := some now, status }

theorem endSession_writes (h : w.endSession E S status tick faults disk = (some (.ok summary), w', disk')) :
    ∃ sessionMeta raw rawSummary db', w.sessionMeta = some sessionMeta ∧
      E.metadataToVec (sessionMeta.final status tick.secs) = .ok raw ∧ E.summaryToVec summary = .ok rawSummary ∧
      summary = (w.ended sessionMeta status tick.secs).2 ∧
      commitTo w.db (TraceWriter.endWrites E { w with summary } (sessionMeta.final status tick.secs) raw rawSummary tick.secs)
        tick.commit = (some (.ok ()), db') ∧
      w' = { w with summary, db := db' } ∧
      persistSnapshotAndSyncWal S w.dbPath w.walPath db' tick.nanos faults disk = (.ok (), disk') := by
  unfold TraceWriter.endSession at h
  split at h
  · cases h
  rename_i sessionMeta hstarted
  dsimp only at h
  split at h
  · cases h
  rename_i raw hraw
  split at h
  · cases h
  rename_i rawSummary hrawSummary
  generalize hsave : TraceWriter.commitAndSave E S _ _ tick faults disk = saved at h
  obtain ⟨r, w₁, disk₁⟩ := saved
  obtain ⟨hr, hrest⟩ := Prod.mk.inj h
  obtain ⟨rfl, rfl⟩ := Prod.mk.inj hrest
  obtain ⟨r', rfl, hr'⟩ := Option.map_eq_some_iff.mp hr
  obtain ⟨⟨⟩, rfl, rfl⟩ := Outcome.map_eq_ok.mp hr'
  obtain ⟨db', hdb, rfl, hpersist⟩ := commitAndSave_ok (List.cons_ne_nil _ _) hsave
  exact ⟨sessionMeta, raw, rawSummary, db', hstarted, hraw, hrawSummary, rfl, hdb, rfl, hpersist⟩

theorem mem_endWrites {raw rawSummary : Bytes} {now : UInt64}
    (h : write ∈ w.endWrites E sessionMeta raw rawSummary now) :
    IsBlobKey (sessionBaseKey sessionMeta.sessionId) write.1 ∨ Side write.1 := by
  unfold TraceWriter.endWrites at h
  rw [List.append_assoc, List.append_assoc] at h
  rcases List.mem_append.mp h with hwrite | hwrite
  · exact .inl (isBlobKey_of_mem hwrite)
  rcases List.mem_append.mp hwrite with hwrite | hwrite
  · exact .inr ⟨summaryPrefix, by decide, (under_append _ _).startsWith_key (isBlobKey_of_mem hwrite)⟩
  rcases List.mem_append.mp hwrite with hwrite | hwrite
  · exact .inr (side_costAggregateWrites (by decide) hwrite)
  · exact .inr (side_costAggregateWrites (by decide) hwrite)

theorem endSession_ok (h : w.endSession E S status tick faults disk = (some (.ok summary), w', disk')) :
    ∃ sessionMeta raw extras db', w.sessionMeta = some sessionMeta ∧
      E.metadataToVec (sessionMeta.final status tick.secs) = .ok raw ∧ (∀ write ∈ extras, Side write.1) ∧
      commitTo w.db (blobWrites (sessionBaseKey sessionMeta.sessionId) raw ++ extras) tick.commit = (some (.ok ()), db') ∧
      w' = { w with summary, db := db' } ∧
      persistSnapshotAndSyncWal S w.dbPath w.walPath db' tick.nanos faults disk = (.ok (), disk') := by
  obtain ⟨sessionMeta, raw, rawSummary, db', hstarted, hraw, -, -, hdb, hw, hpersist⟩ := endSession_writes h
  unfold TraceWriter.endWrites at hdb
  rw [List.append_assoc, List.append_assoc] at hdb
  refine ⟨sessionMeta, raw, _, db', hstarted, hraw, ?_, hdb, hw, hpersist⟩
  intro write hwrite
  rcases List.mem_append.mp hwrite with hwrite | hwrite
  · exact ⟨summaryPrefix, by decide, (under_append _ _).startsWith_key (isBlobKey_of_mem hwrite)⟩
  rcases List.mem_append.mp hwrite with hwrite | hwrite
  · exact side_costAggregateWrites (by decide) hwrite
  · exact side_costAggregateWrites (by decide) hwrite

def IsDailyKey (operationId key : String) : Prop := ∃ day, key = paidDailyPrefix ++ day ++ ":" ++ operationId

theorem recordPaidOperation_ok (h : w.recordPaidOperation E S op tick faults disk = (some (.ok ()), w', disk')) :
    ∃ raw extras db', E.paidToVec op = .ok raw ∧ (∀ write ∈ extras, IsDailyKey op.operationId write.1) ∧
      commitTo w.db (blobWrites (paidBaseKey op.operationId) raw ++ extras) tick.commit = (some (.ok ()), db') ∧
      w' = { w with db := db' } ∧
      persistSnapshotAndSyncWal S w.dbPath w.walPath db' tick.nanos faults disk = (.ok (), disk') := by
  unfold TraceWriter.recordPaidOperation at h
  split at h
  · cases h
  rename_i raw hraw
  obtain ⟨db', hdb, rfl, hpersist⟩ := commitAndSave_ok (blobWrites_append_ne_nil _ _ _) h
  refine ⟨raw, _, db', hraw, ?_, hdb, rfl, hpersist⟩
  intro write hwrite
  obtain rfl := List.mem_singleton.mp hwrite
  exact ⟨E.dayLabel op.timestamp, rfl⟩

/-! ### Calls that fail -/

theorem checkedAdd_eq_some {a b c : UInt64} (h : checkedAdd a b = some c) : c.toNat = a.toNat + b.toNat := by
  unfold checkedAdd at h
  split at h
  · rename_i hlt
    obtain rfl := Option.some.inj h
    rw [UInt64.toNat_add, Nat.mod_eq_of_lt hlt]
  · cases h

/-- The database after a commit of the writes that was not attempted, or failed. -/
def Refused (db : NucleusDb P) (writes : List (String × UInt64)) (db' : NucleusDb P) : Prop :=
  db' = db ∨ ∃ e now, commitTo db writes now = (some (.error e), db')

theorem commitWrites_error {now : Nat} (h : w.commitWrites E writes now = (some (.error e), w')) :
    Refused w.db writes w'.db ∧ w' = { w with db := w'.db } := by
  unfold TraceWriter.commitWrites at h
  split at h
  · cases h
  · cases hcommit : commitTo w.db writes now with
    | mk r db' =>
      rw [hcommit] at h
      obtain ⟨hr, rfl⟩ := Prod.mk.inj h
      obtain ⟨r', rfl, hr'⟩ := Option.map_eq_some_iff.mp hr
      cases r' with
      | ok u => cases hr'
      | error e' => exact ⟨.inr ⟨e', now, hcommit⟩, rfl⟩

theorem commitAndSave_error (h : w.commitAndSave E S writes tick faults disk = (some (.error e), w', disk'))
    (hne : writes ≠ []) (hsound : w.db.keymap.Sound) (huncommitted : w'.db.entries = w.db.entries) :
    Refused w.db writes w'.db ∧ w' = { w with db := w'.db } ∧ disk' = disk := by
  unfold TraceWriter.commitAndSave at h
  split at h
  · rename_i w₁ hcommit
    obtain ⟨hr, hrest⟩ := Prod.mk.inj h
    obtain ⟨rfl, rfl⟩ := Prod.mk.inj hrest
    obtain ⟨db', hdb, rfl⟩ := commitWrites_ok hne hcommit
    have hgrown := (inStep_of_commitTo hsound hdb).2.2
    rw [show db'.entries = w.db.entries from huncommitted] at hgrown
    exact absurd hgrown (Nat.ne_of_lt (Nat.lt_succ_self _))
  · rename_i r w₁ hnot hcommit
    obtain ⟨rfl, hrest⟩ := Prod.mk.inj h
    obtain ⟨rfl, rfl⟩ := Prod.mk.inj hrest
    obtain ⟨hrefused, hsame⟩ := commitWrites_error hcommit
    exact ⟨hrefused, hsame, rfl⟩

structure SameSession (w w' : TraceWriter P) : Prop where
  sessionId : w'.sessionId = w.sessionId
  sessionMeta : w'.sessionMeta = w.sessionMeta
  dbPath : w'.dbPath = w.dbPath
  walPath : w'.walPath = w.walPath

theorem writeEvent_error (h : w.writeEvent E event tick = (some (.error e), w')) :
    SameSession w w' ∧ (w.sessionMeta = none → w' = w) ∧ w.seq ≤ w'.seq ∧
      ∃ seq raw, Refused w.db (blobWrites (eventBaseKey w.sessionId seq) raw) w'.db := by
  unfold TraceWriter.writeEvent at h
  split at h
  · obtain ⟨-, rfl⟩ := Prod.mk.inj h
    exact ⟨⟨rfl, rfl, rfl, rfl⟩, fun _ => rfl, UInt64.le_refl _, 0, [], .inl rfl⟩
  rename_i hstarted
  have hsome : w.sessionMeta ≠ none := by simpa using hstarted
  split at h
  · cases h
  rename_i seq hseq
  have hle : w.seq ≤ seq := by
    rw [UInt64.le_iff_toNat_le, checkedAdd_eq_some hseq]
    exact Nat.le_add_right _ _
  dsimp only at h
  split at h
  · cases h
  split at h
  · obtain ⟨-, rfl⟩ := Prod.mk.inj h
    exact ⟨⟨rfl, rfl, rfl, rfl⟩, fun hnone => absurd hnone hsome, hle, 0, [], .inl rfl⟩
  · obtain ⟨hrefused, hsame⟩ := commitWrites_error h
    rw [hsame]
    exact ⟨⟨rfl, rfl, rfl, rfl⟩, fun hnone => absurd hnone hsome, hle, _, _, hrefused⟩

/-- What a session adds up of its events. -/
def SessionSummary.totals (summary : SessionSummary P) : UInt64 × UInt64 × UInt64 × UInt64 :=
  (summary.eventCount, summary.totalInputTokens, summary.totalOutputTokens, summary.totalCacheReadTokens)

theorem endSession_error (hsound : w.db.keymap.Sound)
    (h : w.endSession E S status tick faults disk = (some (.error e), w', disk'))
    (huncommitted : w'.db.entries = w.db.entries) : SameSession w w' ∧ w'.seq = w.seq ∧ disk' = disk ∧
      w'.summary.totals = w.summary.totals ∧
      (w'.db = w.db ∨ ∃ m raw rawSummary, w.sessionMeta = some m ∧ Refused w.db
        (TraceWriter.endWrites E { w with summary := w'.summary } (m.final status tick.secs) raw rawSummary tick.secs)
        w'.db) := by
  unfold TraceWriter.endSession at h
  split at h
  · obtain ⟨-, hrest⟩ := Prod.mk.inj h
    obtain ⟨rfl, rfl⟩ := Prod.mk.inj hrest
    exact ⟨⟨rfl, rfl, rfl, rfl⟩, rfl, rfl, rfl, .inl rfl⟩
  rename_i sessionMeta hstarted
  dsimp only at h
  split at h
  · obtain ⟨-, hrest⟩ := Prod.mk.inj h
    obtain ⟨rfl, rfl⟩ := Prod.mk.inj hrest
    exact ⟨⟨rfl, rfl, rfl, rfl⟩, rfl, rfl, rfl, .inl rfl⟩
  split at h
  · obtain ⟨-, hrest⟩ := Prod.mk.inj h
    obtain ⟨rfl, rfl⟩ := Prod.mk.inj hrest
    exact ⟨⟨rfl, rfl, rfl, rfl⟩, rfl, rfl, rfl, .inl rfl⟩
  generalize hsave : TraceWriter.commitAndSave E S _ _ tick faults disk = saved at h
  obtain ⟨r, w₁, disk₁⟩ := saved
  obtain ⟨hr, hrest⟩ := Prod.mk.inj h
  obtain ⟨rfl, rfl⟩ := Prod.mk.inj hrest
  obtain ⟨r', rfl, hr'⟩ := Option.map_eq_some_iff.mp hr
  cases r' with
  | ok u => cases hr'
  | error e' =>
    obtain ⟨hrefused, hsame, rfl⟩ := commitAndSave_error hsave (List.cons_ne_nil _ _) hsound huncommitted
    rw [hsame]
    exact ⟨⟨rfl, rfl, rfl, rfl⟩, rfl, rfl, rfl, .inr ⟨sessionMeta, _, _, hstarted, hrefused⟩⟩

theorem recordPaidOperation_error (hsound : w.db.keymap.Sound)
    (h : w.recordPaidOperation E S op tick faults disk = (some (.error e), w', disk'))
    (huncommitted : w'.db.entries = w.db.entries) : w' = { w with db := w'.db } ∧ disk' = disk ∧
      (w'.db = w.db ∨ ∃ raw, Refused w.db (TraceWriter.paidWrites E op raw) w'.db) := by
  unfold TraceWriter.recordPaidOperation at h
  split at h
  · obtain ⟨-, hrest⟩ := Prod.mk.inj h
    obtain ⟨rfl, rfl⟩ := Prod.mk.inj hrest
    exact ⟨rfl, rfl, .inl rfl⟩
  · obtain ⟨hrefused, hsame, rfl⟩ := commitAndSave_error h (blobWrites_append_ne_nil _ _ _) hsound huncommitted
    exact ⟨hsame, rfl, .inr ⟨_, hrefused⟩⟩

/-! ### Copies and files -/

/-- A copy of the database that shows the shelf. Once a commit has failed behind its leaf no other one is made, and it does
not matter what the copy shows. -/
structure Copy (Q : String → Prop) (db : NucleusDb P) (shelf : List (String × Bytes)) : Prop where
  backend : db.backend = .binaryMerkle
  sound : db.keymap.Sound
  leaves : db.entries.length ≤ db.ctLeaves.length
  shows : db.ctLeaves.length = db.entries.length → Shows Q db shelf
  listed : db.ctLeaves.length = db.entries.length → Listed db shelf

/-- What a reader of the file finds is the shelf; where there is no file it is empty. -/
def OnDisk (Q : String → Prop) (S : Serde P) (disk : S.Files) (path : String) (shelf : List (String × Bytes)) : Prop :=
  (disk[path]? = none ∧ shelf = []) ∨
    ∃ db, SnapshotAt S disk path db ∧ db.ctLeaves.length = db.entries.length ∧ Copy Q db shelf

section Files

variable {Q : String → Prop} {db db' : NucleusDb P} {disk disk' : S.Files} {path : String} {shelf : List (String × Bytes)}

variable {base : String} {raw : Bytes} {extras : List (String × UInt64)} {now : Nat}

theorem Listed.put (h : Listed db shelf) (hsound : db.keymap.Sound)
    (hextras : ∀ w ∈ extras, ∀ other, Under sessionPrefix other → ¬ IsBlobKey other w.1)
    (hcommit : commitTo db (blobWrites base raw ++ extras) now = (some (.ok ()), db')) :
    Listed db' (shelf ++ [(base, raw)]) := by
  obtain ⟨entry, hentry⟩ := commitTo_eq_ok hsound hcommit
  have hkeymap : db'.keymap = db.keymap.register ((blobWrites base raw ++ extras).map Prod.fst) :=
    (commit_sameFrame hentry).keymap
  intro other hother hget
  rw [Writes.last_concat]
  split
  · rfl
  · rename_i hne
    rw [hkeymap, Store.KeyMap.isSome_get_register] at hget
    rcases hget with hold | hnew
    · exact h other hother hold
    · have hkey : IsBlobKey other (other ++ ":len") := .inl rfl
      obtain ⟨write, hwrite, heq⟩ := List.mem_map.mp hnew
      rcases List.mem_append.mp hwrite with hwrite | hwrite
      · exact absurd ((isBlobKey_of_mem hwrite).unique (heq ▸ hkey)) hne
      · exact absurd (heq ▸ hkey) (hextras write hwrite other hother)

theorem Copy.put (h : Copy Q db shelf) (hQ : ∀ base, Under sessionPrefix base → Q base)
    (hextras : ∀ w ∈ extras, ∀ other, Q other → ¬ IsBlobKey other w.1)
    (hcommit : commitTo db (blobWrites base raw ++ extras) now = (some (.ok ()), db')) :
    Copy Q db' (shelf ++ [(base, raw)]) := by
  obtain ⟨hstep, hstep', -⟩ := inStep_of_commitTo h.sound hcommit
  have hshows := (h.shows hstep).put hextras hcommit
  exact ⟨(backend_commitTo h.sound hcommit).trans h.backend, hshows.keyed.sound, Nat.le_of_eq hstep'.symm, fun _ => hshows,
    fun _ => (h.listed hstep).put h.sound (fun w hw other hother => hextras w hw other (hQ other hother)) hcommit⟩

theorem Copy.refused (h : Copy Q db shelf) {writes : List (String × UInt64)}
    (hwrites : ∀ w ∈ writes, ∀ base, Under sessionPrefix base → w.1 = base ++ ":len" → (Writes.last shelf base).isSome)
    (hrefused : Refused db writes db') : Copy Q db' shelf := by
  obtain rfl | ⟨e, now, hcommit⟩ := hrefused
  · exact h
  · obtain ⟨hbackend, hkeymap, hentries, rfl | hleaves⟩ := commitTo_error h.sound hcommit
    · refine ⟨h.backend, h.sound.register _, h.leaves, fun hstep => (h.shows hstep).registered _, fun hstep => ?_⟩
      intro base hbase hget
      rcases (Store.KeyMap.isSome_get_register _ _ _).mp hget with hold | hnew
      · exact h.listed hstep base hbase hold
      · obtain ⟨write, hwrite, heq⟩ := List.mem_map.mp hnew
        exact hwrites write hwrite base hbase heq
    · have hlonger : db'.entries.length < db'.ctLeaves.length := by
        rw [hentries, hleaves]
        exact Nat.lt_succ_of_le h.leaves
      exact ⟨hbackend.trans h.backend, hkeymap ▸ h.sound.register _, Nat.le_of_lt hlonger,
        fun hstep => absurd hstep (Nat.ne_of_gt hlonger), fun hstep => absurd hstep (Nat.ne_of_gt hlonger)⟩

theorem OnDisk.congr (h : OnDisk Q S disk path shelf) (hsame : disk'[path]? = disk[path]?) : OnDisk Q S disk' path shelf := by
  obtain ⟨habsent, hempty⟩ | ⟨db, hsnapshot, hstep, hcopy⟩ := h
  · exact .inl ⟨hsame.trans habsent, hempty⟩
  · exact .inr ⟨db, hsnapshot.congr hsame, hstep, hcopy⟩

theorem OnDisk.loadDb_eq (h : OnDisk Q S disk path shelf) (E : TraceEnv P) (allowedEnv seedEnv : Option String)
    (clock : Clock) : ∃ db, loadDb S E path (haloWitnessCfg P allowedEnv seedEnv) clock disk = some (.ok db) ∧
      db.ctLeaves.length = db.entries.length ∧ Copy Q db shelf := by
  obtain ⟨habsent, rfl⟩ | ⟨saved, hsnapshot, hstep, hcopy⟩ := h
  · obtain ⟨db, hnew⟩ := new_of_openable (openable_halo (P := P) allowedEnv seedEnv) ⟨[]⟩ clock
    have hload : loadDb S E path (haloWitnessCfg P allowedEnv seedEnv) clock disk = some (.ok db) := by
      unfold loadDb
      rw [habsent, hnew]
      rfl
    obtain ⟨hkeymap, hbackend, hstate, hentries, hleaves⟩ := loadDb_absent habsent hload
    have hlength : db.ctLeaves.length = db.entries.length := by
      rw [hentries, hleaves]
      rfl
    refine ⟨db, hload, hlength, hbackend, ?_, Nat.le_of_eq hlength.symm, fun _ => shows_nil hkeymap hstate, fun _ => ?_⟩
    · rw [hkeymap]
      exact Store.KeyMap.sound_new
    · intro base _ hget
      rw [hkeymap] at hget
      cases hget
  · obtain ⟨db, hload, hsame, hbackend, hentries, hleaves⟩ :=
      SnapshotAt.loadDb_eq hsnapshot hcopy.backend allowedEnv seedEnv clock
    have hkeymap : db.keymap = saved.keymap := congrArg (·.keymap) hsame
    have hlength : db.ctLeaves.length = db.entries.length := by rw [hentries, hleaves, hstep]
    refine ⟨db, hload, hlength, hbackend, hkeymap ▸ hcopy.sound, Nat.le_of_eq hlength.symm,
      fun _ => (hcopy.shows hstep).congr hsame, fun _ => ?_⟩
    unfold Listed
    rw [hkeymap]
    exact hcopy.listed hstep

theorem OnDisk.copy_of_load (h : OnDisk Q S disk path shelf) {allowedEnv seedEnv : Option String}
    (hload : loadDb S E path (haloWitnessCfg P allowedEnv seedEnv) clock disk = some (.ok db)) : Copy Q db shelf := by
  obtain ⟨db₁, hload₁, -, hcopy⟩ := h.loadDb_eq E allowedEnv seedEnv clock
  obtain rfl := Except.ok.inj (Option.some.inj (hload₁.symm.trans hload))
  exact hcopy

theorem Copy.onDisk (hS : S.RoundTrips) (h : Copy Q db shelf) (hstep : db.ctLeaves.length = db.entries.length)
    (hpaths : path ≠ defaultWalPath path) {nanos : Nat}
    (hpersist : persistSnapshotAndSyncWal S path (defaultWalPath path) db nanos faults disk = (.ok (), disk')) :
    OnDisk Q S disk' path shelf :=
  .inr ⟨db, persistSnapshotAndSyncWal_snapshotAt hS hpaths (swapPath_ne_defaultWalPath path _ nanos)
    (swapPath_ne_snapshot path nanos) hpersist, hstep, h⟩

end Files

end AgentHalo.Trace
