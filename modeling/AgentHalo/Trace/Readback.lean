import AgentHalo.Trace.Journal
import AgentHalo.Trace.Running

/-!
# Reading a trace back

Writers run one after another over one file, and calls may fail before they commit. After every run in which no event was
lost the readers find the journal that was saved last, if and only if no base key of a session ends in `:len` and every
event reads back as itself (`readsBack_iff`).
-/

namespace AgentHalo.Trace

open Attest (eventBaseKey sessionPrefix)
open Engine Engine.NucleusDb
open Persistence
open Text (endsWith)

variable {P : Platform}

/-! ### Runs -/

/-- What a run has recorded, how much of it has been saved, the session that was started last, the ids that were used, and
whether an event was refused after its session was started. -/
structure Book (P : Platform) where
  recorded : Journal P := {}
  saved : Journal P := {}
  running : Option SessionMetadata := none
  used : List String := []
  lost : Bool := false

/-- What a call comes to. -/
inductive Move (P : Platform) where
  | reopened
  | started (m : SessionMetadata)
  | modelled (model : String)
  | wrote (e : WrittenEvent P)
  | refused
  | ended (final : SessionMetadata) (now : UInt64) (summary : SessionSummary P)
  | paid
  | failed

def Book.after (book : Book P) : Move P → Book P
  | .reopened => { book with recorded := book.saved, running := none }
  | .started m => { book with recorded := book.recorded.started m, running := some m, used := m.sessionId :: book.used }
  | .modelled model => { book with running := book.running.map fun m => { m with model := some model } }
  | .wrote e => { book with recorded := book.recorded.wrote e }
  | .refused => { book with lost := book.lost || book.running.isSome }
  | .ended final _ _ => { book with recorded := book.recorded.ended final, saved := book.recorded.ended final }
  | .paid => { book with saved := book.recorded }
  | .failed => book

section Steps

variable (E : TraceEnv P) (S : Serde P) (path : String)

/-- A call of a writer. Sessions that start and files that are saved are so without an error; other calls may fail, a call
that saves before it has committed. -/
inductive Step (w : TraceWriter P) (disk : S.Files) (book : Book P) : Move P → TraceWriter P → S.Files → Prop where
  | reopen {w' : TraceWriter P} {disk' : S.Files} {allowedEnv seedEnv : Option String} {clock : Clock}
      {pricing : Except String (String → Option (ModelPricing P))} {tick : Tick}
      (made : TraceWriter.new S E path (haloWitnessCfg P allowedEnv seedEnv) clock pricing tick disk =
        (some (.ok w'), disk')) : Step w disk book .reopened w' disk'
  | start {w' : TraceWriter P} {m : SessionMetadata} {tick : Tick} (fresh : m.sessionId ∉ book.used)
      (done : w.startSession E m tick = (some (.ok ()), w')) : Step w disk book (.started m) w' disk
  | model {model : String} : Step w disk book (.modelled model) (w.updateSessionModel model) disk
  | event {w' : TraceWriter P} {m : SessionMetadata} {event : TraceEvent P} {tick : Tick} (running : book.running = some m)
      (done : w.writeEvent E event tick = (some (.ok ()), w')) :
      Step w disk book (.wrote ⟨m.sessionId, w'.seq, event, tick.secs⟩) w' disk
  | refused {w' : TraceWriter P} {event : TraceEvent P} {tick : Tick} {e : String}
      (failed : w.writeEvent E event tick = (some (.error e), w')) : Step w disk book .refused w' disk
  | finish {w' : TraceWriter P} {disk' : S.Files} {m : SessionMetadata} {status : SessionStatus} {tick : Tick}
      {faults : PersistFaults} {summary : SessionSummary P} (running : book.running = some m)
      (done : w.endSession E S status tick faults disk = (some (.ok summary), w', disk')) :
      Step w disk book (.ended (m.final status tick.secs) tick.secs summary) w' disk'
  | unfinished {w' : TraceWriter P} {disk' : S.Files} {status : SessionStatus} {tick : Tick} {faults : PersistFaults}
      {e : String} (failed : w.endSession E S status tick faults disk = (some (.error e), w', disk'))
      (uncommitted : w'.db.entries = w.db.entries) : Step w disk book .failed w' disk'
  | paid {w' : TraceWriter P} {disk' : S.Files} {op : PaidOperation P} {tick : Tick} {faults : PersistFaults}
      (done : w.recordPaidOperation E S op tick faults disk = (some (.ok ()), w', disk')) :
      Step w disk book .paid w' disk'
  | unpaid {w' : TraceWriter P} {disk' : S.Files} {op : PaidOperation P} {tick : Tick} {faults : PersistFaults}
      {e : String} (failed : w.recordPaidOperation E S op tick faults disk = (some (.error e), w', disk'))
      (uncommitted : w'.db.entries = w.db.entries) : Step w disk book .failed w' disk'

/-- Writers one after another on a database that was not there. -/
inductive Run : TraceWriter P → S.Files → Book P → Prop where
  | create {disk disk' : S.Files} {w : TraceWriter P} {allowedEnv seedEnv : Option String} {clock : Clock}
      {pricing : Except String (String → Option (ModelPricing P))} {tick : Tick} (absent : disk[path]? = none)
      (made : TraceWriter.new S E path (haloWitnessCfg P allowedEnv seedEnv) clock pricing tick disk =
        (some (.ok w), disk')) : Run w disk' {}
  | step {disk disk' : S.Files} {w w' : TraceWriter P} {book : Book P} {move : Move P} (run : Run w disk book)
      (call : Step E S path w disk book move w' disk') : Run w' disk' (book.after move)

end Steps

/-- What a run keeps: the copy of the writer has what was recorded, the file has what was saved, and the writer numbers the
events of the session that runs, without a gap while none was lost. -/
structure Kempt (E : TraceEnv P) (S : Serde P) (path : String) (w : TraceWriter P) (disk : S.Files) (book : Book P) : Prop where
  paths : w.dbPath = path ∧ w.walPath = defaultWalPath path
  copy : ∃ shelf, Copy Kept w.db shelf ∧ Keeps E shelf book.recorded
  file : ∃ shelf, OnDisk Kept S disk path shelf ∧ Keeps E shelf book.saved
  session : w.sessionMeta = book.running
  running : ∀ m, book.running = some m → w.sessionId = m.sessionId ∧
    m.sessionId ∈ book.recorded.sessions.map (·.sessionId) ∧
    (∀ e ∈ book.recorded.writtenTo m.sessionId, e.seq ≤ w.seq) ∧
    (book.lost = false → w.seq.toNat = (book.recorded.eventsOf m.sessionId).length)
  numbered : book.lost = false → book.recorded.Numbered ∧ book.saved.Numbered
  recorded : book.recorded.Within book.used
  saved : book.saved.Within book.used

variable {E : TraceEnv P} {S : Serde P} {path : String}

theorem not_isBlobKey_of_side {extras : List (String × UInt64)} (hside : ∀ write ∈ extras, Side write.1) :
    ∀ write ∈ extras, ∀ base, Kept base → ¬ IsBlobKey base write.1 := by
  rintro write hwrite base (hbase | hbase)
  · exact (hside write hwrite).not_isBlobKey (by decide) hbase
  · exact (hside write hwrite).not_isBlobKey (by decide) hbase

variable {key : String} {db' : NucleusDb P} {w : TraceWriter P} {disk : S.Files} {book : Book P} {raw : Bytes}

theorem startsWith_paid {operationId : String} (h : IsBlobKey (paidBaseKey operationId) key ∨ IsDailyKey operationId key) :
    Text.startsWith key paidOpsPrefix = true := by
  rcases h with hkey | ⟨day, rfl⟩
  · exact (under_append _ _).startsWith_key hkey
  · rw [show paidDailyPrefix = paidOpsPrefix ++ "daily:" from rfl, String.append_assoc, String.append_assoc, String.append_assoc]
    exact Text.startsWith_append _ _

theorem not_isBlobKey_of_paid {base : String} (hkey : Text.startsWith key paidOpsPrefix = true) (hbase : Kept base) :
    ¬ IsBlobKey base key := by
  rcases hbase with hbase | hbase
  · exact hbase.not_isBlobKey hkey (by decide)
  · exact hbase.not_isBlobKey hkey (by decide)

theorem Kempt.copy_refused (h : Kempt E S path w disk book) {writes : List (String × UInt64)}
    (hrefused : Refused w.db writes db') (hwrites : ∀ write ∈ writes, (∀ base, Under sessionPrefix base →
      ¬ IsBlobKey base write.1) ∨ ∃ m ∈ book.recorded.sessions, IsBlobKey (sessionBaseKey m.sessionId) write.1) :
    ∃ shelf, Copy Kept db' shelf ∧ Keeps E shelf book.recorded := by
  obtain ⟨shelf, hcopy, hkeeps⟩ := h.copy
  refine ⟨shelf, hcopy.refused (fun write hwrite base hbase hkey => ?_) hrefused, hkeeps⟩
  rcases hwrites write hwrite with hnone | ⟨m, hm, hsession⟩
  · exact absurd (.inl hkey) (hnone base hbase)
  · obtain ⟨raw, -, hlast⟩ := hkeeps.session m hm
    rw [IsBlobKey.unique (.inl hkey) hsession, hlast]
    rfl

theorem Kempt.step (hS : S.RoundTrips) (hpaths : path ≠ defaultWalPath path) (h : Kempt E S path w disk book) {move : Move P}
    {w' : TraceWriter P} {disk' : S.Files} (hcall : Step E S path w disk book move w' disk') :
    Kempt E S path w' disk' (book.after move) := by
  have hkept : ∀ base, Under sessionPrefix base → Kept base := fun _ hbase => .inl hbase
  cases hcall with
  | reopen made =>
    obtain ⟨hload, hdb, hwal, hsession, hframe⟩ := new_ok made
    obtain ⟨shelf, hdisk, hkeeps⟩ := h.file
    exact {
      paths := ⟨hdb, hwal⟩
      copy := ⟨shelf, hdisk.copy_of_load hload, hkeeps⟩
      file := ⟨shelf, hdisk.congr (hframe path hpaths.symm), hkeeps⟩
      session := hsession
      running := fun m hm => nomatch hm
      numbered := fun hlost => ⟨(h.numbered hlost).2, (h.numbered hlost).2⟩
      recorded := h.saved
      saved := h.saved }
  | @start w' m tick fresh done =>
    obtain ⟨raw, db', hraw, hcommit, rfl⟩ := startSession_ok done
    obtain ⟨shelf, hcopy, hkeeps⟩ := h.copy
    have hnew : m.sessionId ∉ book.recorded.sessions.map (·.sessionId) := by
      intro hid
      obtain ⟨m', hm', heq⟩ := List.mem_map.mp hid
      exact fresh (heq ▸ h.recorded.1 m' hm')
    exact {
      paths := h.paths
      copy := ⟨_, hcopy.put hkept (not_isBlobKey_of_side fun _ => side_sessionIndexWrites) hcommit, hkeeps.start hnew hraw⟩
      file := h.file
      session := rfl
      running := by
        rintro m' ⟨⟩
        refine ⟨rfl, ?_, fun e he => ?_, fun _ => ?_⟩
        · exact List.mem_map_of_mem (List.mem_append_right _ (List.mem_singleton_self m))
        · have hnone : (book.after (.started m)).recorded.writtenTo m.sessionId = [] := h.recorded.writtenTo_eq_nil fresh
          rw [hnone] at he
          exact absurd he List.not_mem_nil
        · have hnone : (book.after (.started m)).recorded.eventsOf m.sessionId = [] := h.recorded.eventsOf_eq_nil fresh
          rw [hnone]
          rfl
      numbered := h.numbered
      recorded := by
        refine ⟨fun m' hm' => ?_, fun e he => List.mem_cons_of_mem _ (h.recorded.2 e he)⟩
        rcases List.mem_append.mp hm' with hold | hnew
        · exact List.mem_cons_of_mem _ (h.recorded.1 m' hold)
        · rw [List.mem_singleton.mp hnew]
          exact List.mem_cons_self
      saved := h.saved.cons _ }
  | @model model =>
    exact {
      paths := h.paths
      copy := h.copy
      file := h.file
      session := congrArg (Option.map _) h.session
      running := by
        intro m' hm'
        obtain ⟨m, hm, rfl⟩ := Option.map_eq_some_iff.mp hm'
        exact h.running m hm
      numbered := h.numbered
      recorded := h.recorded
      saved := h.saved }
  | @event w' m event tick running done =>
    obtain ⟨seq, summary, raw, db', hseq, -, hraw, hcommit, rfl⟩ := writeEvent_ok done
    obtain ⟨shelf, hcopy, hkeeps⟩ := h.copy
    obtain ⟨hid, hmem, hbound, hcount⟩ := h.running m running
    have hnext : seq.toNat = w.seq.toNat + 1 := checkedAdd_eq_some hseq
    have hlater : ∀ e ∈ book.recorded.writtenTo m.sessionId, e.seq < seq := by
      intro e he
      rw [UInt64.lt_iff_toNat_lt, hnext]
      exact Nat.lt_succ_of_le (UInt64.le_iff_toNat_le.mp (hbound e he))
    have hnumber (hlost : book.lost = false) : seq.toNat = (book.recorded.eventsOf m.sessionId).length + 1 := by
      rw [hnext, hcount hlost]
    rw [hid, ← List.append_nil (blobWrites _ _)] at hcommit
    have hused : m.sessionId ∈ book.used := by
      obtain ⟨m', hm', heq⟩ := List.mem_map.mp hmem
      exact heq ▸ h.recorded.1 m' hm'
    let e : WrittenEvent P := ⟨m.sessionId, seq, event, tick.secs⟩
    exact {
      paths := h.paths
      copy := ⟨_, hcopy.put hkept (fun _ hw => absurd hw List.not_mem_nil) hcommit, Keeps.wrote (e := e) hkeeps hlater hraw⟩
      file := h.file
      session := h.session
      running := by
        intro m' hm'
        obtain rfl := Option.some.inj (running.symm.trans hm')
        refine ⟨hid, hmem, fun e' he' => ?_, fun hlost => ?_⟩
        · have hwritten : e' ∈ (book.recorded.wrote e).writtenTo e.sessionId := he'
          rw [Journal.writtenTo_wrote_same] at hwritten
          rcases List.mem_append.mp hwritten with hold | hnew
          · exact UInt64.le_of_lt (hlater e' hold)
          · rw [List.mem_singleton.mp hnew]
            exact UInt64.le_refl _
        · refine Eq.trans ?_ (congrArg List.length (Journal.eventsOf_wrote_same book.recorded e)).symm
          rw [List.length_append]
          exact hnumber hlost
      numbered := fun hlost => ⟨(h.numbered hlost).1.wrote (hnumber hlost), (h.numbered hlost).2⟩
      recorded := by
        refine ⟨h.recorded.1, fun e he => ?_⟩
        rcases List.mem_append.mp he with hold | hnew
        · exact h.recorded.2 e hold
        · rw [List.mem_singleton.mp hnew]
          exact hused
      saved := h.saved }
  | refused failed =>
    obtain ⟨hsame, hunchanged, hle, seq, raw, hrefused⟩ := writeEvent_error failed
    have hlost {lost : Bool} (hfalse : (book.lost || lost) = false) : book.lost = false :=
      (Bool.or_eq_false_iff.mp hfalse).1
    exact {
      paths := by
        rw [hsame.dbPath, hsame.walPath]
        exact h.paths
      copy := h.copy_refused hrefused fun write hwrite => .inl fun base hbase => hbase.not_isBlobKey
        ((under_eventBaseKey w.sessionId seq).startsWith_key (isBlobKey_of_mem hwrite)) (by decide)
      file := h.file
      session := hsame.sessionMeta.trans h.session
      running := by
        intro m hm
        obtain ⟨hid, hmem, hbound, -⟩ := h.running m hm
        refine ⟨hsame.sessionId.trans hid, hmem, fun e' he' => UInt64.le_trans (hbound e' he') hle, fun hfalse => ?_⟩
        -- a session runs, so the event is lost
        have hnot := (Bool.or_eq_false_iff.mp hfalse).2
        rw [show book.running = some m from hm] at hnot
        cases hnot
      numbered := fun hfalse => h.numbered (hlost hfalse)
      recorded := h.recorded
      saved := h.saved }
  | @finish w' disk' m status tick faults summary running done =>
    obtain ⟨m', raw, extras, db', hm', hraw, hside, hcommit, rfl, hpersist⟩ := endSession_ok done
    obtain rfl := Option.some.inj (hm'.symm.trans (h.session.trans running))
    obtain ⟨shelf, hcopy, hkeeps⟩ := h.copy
    obtain ⟨hid, hmem, hbound, hcount⟩ := h.running m' running
    rw [h.paths.1, h.paths.2] at hpersist
    have hcopy' := hcopy.put hkept (not_isBlobKey_of_side hside) hcommit
    have hkeeps' := Keeps.ended hkeeps (show (m'.final status tick.secs).sessionId ∈ _ from hmem) hraw
    exact {
      paths := h.paths
      copy := ⟨_, hcopy', hkeeps'⟩
      file := ⟨_, hcopy'.onDisk hS (inStep_of_commitTo hcopy.sound hcommit).2.1 hpaths hpersist, hkeeps'⟩
      session := h.session
      running := by
        intro m₁ hm₁
        obtain rfl := Option.some.inj (running.symm.trans hm₁)
        have hids := Journal.ids_ended book.recorded (m'.final status tick.secs)
        exact ⟨hid, (List.Perm.of_eq hids.symm).subset hmem, hbound, hcount⟩
      numbered := fun hlost => ⟨(h.numbered hlost).1, (h.numbered hlost).1⟩
      recorded := h.recorded.ended _
      saved := h.recorded.ended _ }
  | unfinished failed uncommitted =>
    obtain ⟨_, hcopy, -⟩ := h.copy
    obtain ⟨hsame, hseq, rfl, -, hdb⟩ := endSession_error hcopy.sound failed uncommitted
    exact {
      paths := by
        rw [hsame.dbPath, hsame.walPath]
        exact h.paths
      copy := by
        obtain hdb | ⟨m, raw, rawSummary, hm, hrefused⟩ := hdb
        · rw [hdb]
          exact h.copy
        · refine h.copy_refused hrefused fun write hwrite => ?_
          obtain ⟨m', hm', hid⟩ := List.mem_map.mp (h.running m (h.session.symm.trans hm)).2.1
          rcases mem_endWrites hwrite with hsession | hside
          · exact .inr ⟨m', hm', hid ▸ hsession⟩
          · exact .inl fun base hbase => hside.not_isBlobKey (by decide) hbase
      file := h.file
      session := hsame.sessionMeta.trans h.session
      running := by
        rw [hsame.sessionId, hseq]
        exact h.running
      numbered := h.numbered
      recorded := h.recorded
      saved := h.saved }
  | @paid w' disk' op tick faults done =>
    obtain ⟨raw, extras, db', -, hdaily, hcommit, rfl, hpersist⟩ := recordPaidOperation_ok done
    obtain ⟨shelf, hcopy, hkeeps⟩ := h.copy
    rw [h.paths.1, h.paths.2] at hpersist
    have hcopy' := hcopy.put hkept (fun write hwrite base hbase =>
      not_isBlobKey_of_paid (startsWith_paid (.inr (hdaily write hwrite))) hbase) hcommit
    have hother : ¬ Kept (paidBaseKey op.operationId) := by
      intro hbase
      have hkey : IsBlobKey (paidBaseKey op.operationId) (paidBaseKey op.operationId ++ ":len") := .inl rfl
      exact not_isBlobKey_of_paid (startsWith_paid (.inl hkey)) hbase hkey
    exact {
      paths := h.paths
      copy := ⟨_, hcopy', hkeeps.aside hother raw⟩
      file := ⟨_, hcopy'.onDisk hS (inStep_of_commitTo hcopy.sound hcommit).2.1 hpaths hpersist, hkeeps.aside hother raw⟩
      session := h.session
      running := h.running
      numbered := fun hlost => ⟨(h.numbered hlost).1, (h.numbered hlost).1⟩
      recorded := h.recorded
      saved := h.recorded }
  | @unpaid w' disk' op tick faults e failed uncommitted =>
    obtain ⟨_, hcopy, -⟩ := h.copy
    obtain ⟨hsame, rfl, hdb⟩ := recordPaidOperation_error hcopy.sound failed uncommitted
    rw [hsame]
    exact { h with
      copy := by
        obtain hdb | ⟨raw, hrefused⟩ := hdb
        · rw [hdb]
          exact h.copy
        · refine h.copy_refused hrefused fun write hwrite => .inl fun base hbase => ?_
          have hpaid : IsBlobKey (paidBaseKey op.operationId) write.1 ∨ IsDailyKey op.operationId write.1 := by
            rcases List.mem_append.mp hwrite with hwrite | hwrite
            · exact .inl (isBlobKey_of_mem hwrite)
            · rw [List.mem_singleton.mp hwrite]
              exact .inr ⟨_, rfl⟩
          exact not_isBlobKey_of_paid (startsWith_paid hpaid) (.inl hbase) }

theorem Run.kempt (hS : S.RoundTrips) (hpaths : path ≠ defaultWalPath path) (h : Run E S path w disk book) :
    Kempt E S path w disk book := by
  induction h with
  | create absent made =>
    obtain ⟨hload, hdb, hwal, hsession, hframe⟩ := new_ok made
    have hdisk : OnDisk Kept S _ path [] := .inl ⟨absent, rfl⟩
    exact {
      paths := ⟨hdb, hwal⟩
      copy := ⟨[], hdisk.copy_of_load hload, keeps_nil⟩
      file := ⟨[], hdisk.congr (hframe path hpaths.symm), keeps_nil⟩
      session := hsession
      running := fun m hm => nomatch hm
      numbered := fun _ => ⟨fun _ => rfl, fun _ => rfl⟩
      recorded := Journal.within_nil _
      saved := Journal.within_nil _ }
  | step _ call ih => exact ih.step hS hpaths call

/-- A reader loads the file and reads the saved journal back exactly if no session's base key ends in `:len` and every
saved event reads back as itself. -/
theorem Kempt.reads_iff (h : Kempt E S path w disk book) (hE : E.Lawful) (hlost : book.lost = false)
    (allowedEnv seedEnv : Option String) (clock : Clock) :
    (∃ db, loadTrace E S path (haloWitnessCfg P allowedEnv seedEnv) clock disk = some (.ok db) ∧ ReadsBack E db book.saved) ↔
      (∀ m ∈ book.saved.sessions, endsWith (sessionBaseKey m.sessionId) ":len" = false) ∧
        ∀ sessionId, ∀ event ∈ book.saved.eventsOf sessionId, event.reread E = some event := by
  obtain ⟨shelf, hdisk, hkeeps⟩ := h.file
  obtain ⟨db, hload, hstep, hcopy⟩ := hdisk.loadDb_eq E allowedEnv seedEnv clock
  have htrace : loadTrace E S path (haloWitnessCfg P allowedEnv seedEnv) clock disk = some (.ok (traceDb db)) := by
    unfold loadTrace
    rw [hload]
    rfl
  rw [← readsBack_iff_of_shows hE (hcopy.shows hstep) hkeeps (hcopy.listed hstep) (h.numbered hlost).2]
  constructor
  · rintro ⟨db', hdb', hreads⟩
    obtain rfl := Except.ok.inj (Option.some.inj (htrace.symm.trans hdb'))
    exact hreads
  · intro hreads
    exact ⟨_, htrace, hreads⟩

/-- After every run in which no event was lost the saved journal is read back from the file exactly if no session's base key
ends in `:len` and every saved event reads back as itself. -/
theorem readsBack_iff (hS : S.RoundTrips) (hE : E.Lawful) (hpaths : path ≠ defaultWalPath path) {w : TraceWriter P}
    {disk : S.Files} {book : Book P} (hrun : Run E S path w disk book) (hlost : book.lost = false)
    (allowedEnv seedEnv : Option String) (clock : Clock) :
    (∃ db, loadTrace E S path (haloWitnessCfg P allowedEnv seedEnv) clock disk = some (.ok db) ∧ ReadsBack E db book.saved) ↔
      (∀ m ∈ book.saved.sessions, endsWith (sessionBaseKey m.sessionId) ":len" = false) ∧
        ∀ sessionId, ∀ event ∈ book.saved.eventsOf sessionId, event.reread E = some event :=
  (hrun.kempt hS hpaths).reads_iff hE hlost allowedEnv seedEnv clock

/-! ### A session that is not listed -/

section Reference

def sampleSession (sessionId : String) : SessionMetadata where
  sessionId
  agent := "agent"
  model := none
  startedAt := 0
  endedAt := some 0
  prompt := none
  status := .completed
  userId := none
  machineId := none
  pufDigest := none

def sampleOperation (operationId : String) : PaidOperation Platform.reference where
  operationId
  timestamp := 0
  operationType := "attest"
  creditsSpent := 1
  usdEquivalent := Platform.reference.f64.ofNat 0
  sessionId := none
  resultDigest := none
  success := true
  error := none

def sampleStart (sessionId : String) : SessionMetadata :=
  { sampleSession sessionId with endedAt := none, status := .running }

def sampleEvent (seq input output cache : UInt64) : TraceEvent .reference where
  seq
  timestamp := 1
  eventType := .assistant
  content := "reply"
  inputTokens := some input
  outputTokens := some output
  cacheReadTokens := some cache
  toolName := none
  toolInput := none
  toolOutput := none
  filePath := none
  contentHash := "hash"

/-- A session is recorded by its status and its id, an event by its number and its tokens, a summary by its totals. -/
def sampleEnv : TraceEnv .reference where
  eventToVec e := .ok [e.seq.toUInt8, (e.inputTokens.getD 0).toUInt8, (e.outputTokens.getD 0).toUInt8,
    (e.cacheReadTokens.getD 0).toUInt8]
  eventFromSlice
    | [seq, input, output, cache] => some (sampleEvent seq.toUInt64 input.toUInt64 output.toUInt64 cache.toUInt64)
    | _ => none
  metadataToVec m :=
    if 64 < (Text.utf8 m.sessionId).length then .error "too long"
    else if m = sampleStart m.sessionId then .ok (0 :: Text.utf8 m.sessionId)
    else if m = sampleSession m.sessionId then .ok (1 :: Text.utf8 m.sessionId)
    else .error "another session"
  metadataFromSlice
    | 0 :: raw => (Store.fromUtf8 raw).map sampleStart
    | 1 :: raw => (Store.fromUtf8 raw).map sampleSession
    | _ => none
  summaryToVec s :=
    if s.eventCount < 256 ∧ s.totalInputTokens < 256 ∧ s.totalOutputTokens < 256 ∧ s.totalCacheReadTokens < 256 then
      .ok [s.eventCount.toUInt8, s.totalInputTokens.toUInt8, s.totalOutputTokens.toUInt8, s.totalCacheReadTokens.toUInt8]
    else .error "too many"
  paidToVec op := .ok (Text.utf8 op.operationId)
  paidFromSlice raw := (Store.fromUtf8 raw).map sampleOperation
  strField _ _ := none
  dayLabel _ := "day"
  monthLabel _ := "month"
  roundU64 _ := 0
  debugPersistence _ := ""
  debugCommit _ := ""

theorem sampleEnv_lawful : sampleEnv.Lawful where
  metadata m raw hraw := by
    have hread (tag : UInt8) (hlong : ¬ 64 < (Text.utf8 m.sessionId).length) : (tag :: Text.utf8 m.sessionId).length < 2 ^ 64 :=
      Nat.lt_of_le_of_lt (Nat.succ_le_succ (Nat.le_of_not_lt hlong)) (by decide)
    unfold sampleEnv at hraw
    dsimp only at hraw
    split_ifs at hraw with hlong hstart hend
    · obtain rfl := Except.ok.inj hraw
      refine ⟨hread 0 hlong, ?_⟩
      change (Store.fromUtf8 (Text.utf8 m.sessionId)).map sampleStart = some m
      rw [Store.fromUtf8_utf8, Option.map_some, ← hstart]
    · obtain rfl := Except.ok.inj hraw
      refine ⟨hread 1 hlong, ?_⟩
      change (Store.fromUtf8 (Text.utf8 m.sessionId)).map sampleSession = some m
      rw [Store.fromUtf8_utf8, Option.map_some, ← hend]
  event event raw hraw := by
    obtain rfl := Except.ok.inj hraw
    exact (by decide : 4 < 2 ^ 64)
  noMetadata := rfl
  noEvent := rfl

theorem sampleCfg_usable : (haloWitnessCfg .reference none none).Usable := by decide

def sampleTick : Tick := ⟨0, 0, 0⟩

def sampleSummary (events input output cache : UInt64) : SessionSummary .reference :=
  { SessionSummary.default with
    eventCount := events
    totalInputTokens := input
    totalOutputTokens := output
    totalCacheReadTokens := cache }

variable {sessionId : String}

theorem metadataToVec_start (hlen : (Text.utf8 sessionId).length ≤ 64) :
    sampleEnv.metadataToVec (sampleStart sessionId) = .ok (0 :: Text.utf8 sessionId) := by
  show (if 64 < (Text.utf8 sessionId).length then _ else _) = _
  rw [if_neg (Nat.not_lt.mpr hlen)]
  exact if_pos rfl

theorem metadataToVec_session (hlen : (Text.utf8 sessionId).length ≤ 64) :
    sampleEnv.metadataToVec (sampleSession sessionId) = .ok (1 :: Text.utf8 sessionId) := by
  have hrunning : sampleSession sessionId ≠ sampleStart sessionId := fun h => nomatch congrArg (·.status) h
  show (if 64 < (Text.utf8 sessionId).length then _ else _) = _
  rw [if_neg (Nat.not_lt.mpr hlen)]
  exact (if_neg hrunning).trans (if_pos rfl)

theorem divCeil_succ_le {n : Nat} (hlen : n ≤ 64) : Slices.divCeil (n + 1) 8 ≤ 9 := by
  unfold Slices.divCeil
  omega

theorem exists_sampleEvent {w : TraceWriter .reference} {room : Nat} (event : TraceEvent .reference)
    (hdb : Operable w.db room) (hroom : room + 2 ≤ 65536) (hstarted : w.sessionMeta.isSome) {seq : UInt64}
    {summary : SessionSummary .reference} (hseq : checkedAdd w.seq 1 = some seq)
    (hcount : w.summary.count sampleEnv (event.stamped seq sampleTick.secs) = some summary) : ∃ db',
    w.writeEvent sampleEnv event sampleTick = (some (.ok ()), { w with seq, summary, db := db' }) ∧
      Operable db' (room + 2) := by
  obtain ⟨raw, hraw, hfour⟩ : ∃ raw, sampleEnv.eventToVec (event.stamped seq sampleTick.secs) = .ok raw ∧
      raw.length = 4 := ⟨_, rfl, rfl⟩
  have hlength : (blobWrites (eventBaseKey w.sessionId seq) raw).length = 2 := by
    rw [length_blobWrites, hfour]
    rfl
  rw [← hlength] at hroom ⊢
  obtain ⟨db', hcommit, hdb'⟩ := hdb.commitTo Platform.reference_signaturesCorrect hroom sampleTick.commit
  exact ⟨db', writeEvent_of_commit hstarted hseq hcount hraw hcommit, hdb'⟩

/-- On an empty disk an event is refused, then a session is started, given two events, and ended, after which there is room
for more. -/
theorem exists_session (hlen : (Text.utf8 sessionId).length ≤ 64) : ∃ w₀ w₁ w₂ w₃ w₄ disk₀ disk₄ summary,
    TraceWriter.new (Serde.identity .reference) sampleEnv "traces.ndb" (haloWitnessCfg .reference none none)
      ⟨0, 0⟩ (.ok fun _ => none) sampleTick ∅ = (some (.ok w₀), disk₀) ∧
    w₀.writeEvent sampleEnv (sampleEvent 0 5 7 1) sampleTick = (some (.error "session not started"), w₀) ∧
    w₀.startSession sampleEnv (sampleStart sessionId) sampleTick = (some (.ok ()), w₁) ∧
    w₁.writeEvent sampleEnv (sampleEvent 0 5 7 1) sampleTick = (some (.ok ()), w₂) ∧
    w₂.writeEvent sampleEnv (sampleEvent 0 6 8 1) sampleTick = (some (.ok ()), w₃) ∧
    w₂.seq = 1 ∧ w₃.seq = 2 ∧ w₃.summary = sampleSummary 2 11 15 2 ∧
    w₃.endSession sampleEnv (Serde.identity .reference) .completed sampleTick {} disk₀ =
      (some (.ok summary), w₄, disk₄) ∧
    Operable w₄.db 38 ∧ disk₄[swapPath (defaultWalPath "traces.ndb") 1]? = none := by
  have hS := Serde.identity_roundTrips .reference
  have hW := Serde.identity_writes .reference
  have hP := Platform.reference_signaturesCorrect
  have habsent (path : String) : (∅ : (Serde.identity .reference).Files)[path]? = none :=
    Std.ExtTreeMap.getElem?_empty
  obtain ⟨w₀, disk₀, hmade, hnew⟩ := exists_new (E := sampleEnv) hS hW (habsent "traces.ndb") (Disk.walBlank_empty _) none none
    ⟨0, 0⟩ (fun _ => none) sampleTick
  obtain ⟨-, hpath, hwal, hnone, hframe⟩ := new_ok hmade
  have hrefused : w₀.writeEvent sampleEnv (sampleEvent 0 5 7 1) sampleTick = (some (.error "session not started"), w₀) := by
    unfold TraceWriter.writeEvent
    rw [if_pos (by rw [hnone]; rfl)]
  have hcount : 0 + (blobWrites (sessionBaseKey (sampleStart sessionId).sessionId) (0 :: Text.utf8 sessionId) ++
      TraceWriter.sessionIndexWrites sampleEnv (sampleStart sessionId)).length ≤ 12 := by
    rw [Nat.zero_add, List.length_append, length_blobWrites]
    exact Nat.add_le_add_right (Nat.add_le_add_right (divCeil_succ_le hlen) 1) 2
  obtain ⟨db₁, hcommit, hdb₁⟩ := (operable_new sampleCfg_usable hnew).commitTo hP (Nat.le_trans hcount (by decide))
    sampleTick.commit
  obtain ⟨w₁, hstart, rfl, hpath₁, hwal₁, hstarted⟩ := startSession_of_commit (metadataToVec_start hlen) hcommit
  obtain ⟨_, _, -, -, hw₁⟩ := startSession_ok hstart
  have hseq : w₁.seq = 0 := by rw [hw₁]
  have hsummary : w₁.summary = sampleSummary 0 0 0 0 := by rw [hw₁]; rfl
  have hstarted' : w₁.sessionMeta.isSome := by rw [hstarted]; rfl
  obtain ⟨db₂, hfirst, hdb₂⟩ := exists_sampleEvent (sampleEvent 0 5 7 1) (hdb₁.mono hcount) (by decide) hstarted'
    (show checkedAdd w₁.seq 1 = some 1 by rw [hseq]; rfl)
    (show _ = some (sampleSummary 1 5 7 1) by rw [hsummary]; rfl)
  obtain ⟨db₃, hsecond, hdb₃⟩ := exists_sampleEvent (sampleEvent 0 6 8 1)
    (w := { w₁ with seq := 1, summary := sampleSummary 1 5 7 1, db := db₂ }) hdb₂ (by decide) hstarted'
    (show _ = some 2 from rfl) (show _ = some (sampleSummary 2 11 15 2) from rfl)
  have hfinal : sampleEnv.metadataToVec ((sampleStart sessionId).final .completed sampleTick.secs) =
      .ok (1 :: Text.utf8 sessionId) := metadataToVec_session hlen
  have hfree : disk₀[swapPath (defaultWalPath w₁.dbPath) sampleTick.nanos]? = none := by
    rw [hpath₁, hpath, hframe _ (swapPath_ne_defaultWalPath _ _ _).symm]
    exact habsent _
  have hcells : Slices.divCeil (1 :: Text.utf8 sessionId).length 8 + Slices.divCeil 4 8 + 12 ≤ 22 :=
    Nat.add_le_add_right (Nat.add_le_add_right (divCeil_succ_le hlen) 1) 12
  obtain ⟨summary, w₄, disk₄, hend, hdb₄⟩ := exists_endSession (n := 4)
    (w := { w₁ with seq := 2, summary := sampleSummary 2 11 15 2, db := db₃ }) sampleTick hP hS hW hdb₃
    (show w₁.walPath = defaultWalPath w₁.dbPath by rw [hwal₁, hpath₁, hwal, hpath]) hstarted hfinal ⟨_, rfl, rfl⟩
    (Nat.le_trans (Nat.add_le_add_left hcells _) (by decide)) hfree
  refine ⟨w₀, w₁, _, _, w₄, disk₀, disk₄, summary, hmade, hrefused, hstart, hfirst, hsecond, rfl, rfl, rfl, hend,
    hdb₄.mono (Nat.add_le_add_left hcells _), ?_⟩
  obtain ⟨_, _, _, _, -, -, -, -, -, -, hpersist⟩ := endSession_writes hend
  have hwalPath : defaultWalPath "traces.ndb" ≠ swapPath (defaultWalPath "traces.ndb") 1 :=
    (swapPath_ne_defaultWalPath _ _ _).symm
  dsimp only at hpersist
  rw [hwal₁, hwal, hpath₁, hpath] at hpersist
  rw [persistSnapshotAndSyncWal_frame hS (swapPath_ne_snapshot _ 1) hwalPath (by decide) hpersist, hframe _ hwalPath, habsent]

theorem exists_run (hlen : (Text.utf8 sessionId).length ≤ 64) : ∃ w disk book,
    Run sampleEnv (Serde.identity .reference) "traces.ndb" w disk book ∧ book.lost = false ∧
      book.saved.sessions = [sampleSession sessionId] ∧
      book.saved.written = [⟨sessionId, 1, sampleEvent 0 5 7 1, 0⟩, ⟨sessionId, 2, sampleEvent 0 6 8 1, 0⟩] := by
  obtain ⟨w₀, w₁, w₂, w₃, w₄, disk₀, disk₄, summary, hmade, hrefused, hstart, hfirst, hsecond, hone, htwo, -, hend, -, -⟩ :=
    exists_session hlen
  have hwritten := ((((Run.create Std.ExtTreeMap.getElem?_empty hmade).step (.refused hrefused)).step
    (.start List.not_mem_nil hstart)).step (.event rfl hfirst)).step (.event rfl hsecond)
  refine ⟨w₄, disk₄, _, hwritten.step (.finish rfl hend), rfl, ?_, ?_⟩
  · simp [Book.after, Journal.started, Journal.wrote, Journal.ended, SessionMetadata.final, sampleStart, sampleSession,
      sampleTick]
  · rw [hone, htwo]
    rfl

theorem stamped_sampleEvent (seq input output cache : UInt64) :
    (sampleEvent 0 input output cache).stamped seq sampleTick.secs = sampleEvent seq input output cache := by
  have hhash : Text.trim "hash" ≠ "" := by decide
  unfold TraceEvent.stamped
  rw [show (sampleEvent 0 input output cache).contentHash = "hash" from rfl, if_neg hhash]
  rfl

theorem reread_of_run {book : Book .reference} (hwritten : book.saved.written =
      [⟨sessionId, 1, sampleEvent 0 5 7 1, 0⟩, ⟨sessionId, 2, sampleEvent 0 6 8 1, 0⟩]) (other : String) :
    ∀ event ∈ book.saved.eventsOf other, event.reread sampleEnv = some event := by
  intro event hevent
  obtain ⟨e, he, rfl⟩ := List.mem_map.mp hevent
  have he' := (List.mem_filter.mp he).1
  rw [hwritten] at he'
  simp only [List.mem_cons, List.not_mem_nil, or_false] at he'
  rcases he' with rfl | rfl
  · exact (congrArg _ (stamped_sampleEvent 1 5 7 1)).trans (congrArg some (stamped_sampleEvent 1 5 7 1).symm)
  · exact (congrArg _ (stamped_sampleEvent 2 6 8 1)).trans (congrArg some (stamped_sampleEvent 2 6 8 1).symm)

/-- A run in which an event is refused, then a session has two events and is ended, is read back. -/
theorem readsBack_sample : ∃ w disk book, Run sampleEnv (Serde.identity .reference) "traces.ndb" w disk book ∧
    book.saved.sessions = [sampleSession "s"] ∧ (book.saved.eventsOf "s").length = 2 ∧
      ∃ db, loadTrace sampleEnv (Serde.identity .reference) "traces.ndb"
        (haloWitnessCfg .reference none none) ⟨0, 0⟩ disk = some (.ok db) ∧ ReadsBack sampleEnv db book.saved := by
  have hlen : (Text.utf8 "s").length ≤ 64 := by decide
  obtain ⟨w, disk, book, hrun, hlost, hsessions, hwritten⟩ := exists_run hlen
  refine ⟨w, disk, book, hrun, hsessions, ?_, (readsBack_iff (Serde.identity_roundTrips .reference) sampleEnv_lawful
    (by decide) hrun hlost none none ⟨0, 0⟩).mpr ⟨fun m hm => ?_, reread_of_run hwritten⟩⟩
  · unfold Journal.eventsOf Journal.writtenTo
    rw [hwritten]
    rfl
  · rw [hsessions] at hm
    rw [List.mem_singleton.mp hm]
    decide

/-- The session `s:len` is saved with its events, and the file is not read back as it was saved. -/
theorem session_not_listed : ∃ w disk book, Run sampleEnv (Serde.identity .reference) "traces.ndb" w disk book ∧
    book.lost = false ∧ book.saved.sessions = [sampleSession "s:len"] ∧
      (∀ sessionId, ∀ event ∈ book.saved.eventsOf sessionId, event.reread sampleEnv = some event) ∧
      ¬ ∃ db, loadTrace sampleEnv (Serde.identity .reference) "traces.ndb"
        (haloWitnessCfg .reference none none) ⟨0, 0⟩ disk = some (.ok db) ∧ ReadsBack sampleEnv db book.saved := by
  have hlen : (Text.utf8 "s:len").length ≤ 64 := by decide
  obtain ⟨w, disk, book, hrun, hlost, hsessions, hwritten⟩ := exists_run hlen
  refine ⟨w, disk, book, hrun, hlost, hsessions, reread_of_run hwritten, fun hreads => ?_⟩
  have hkempt := hrun.kempt (Serde.identity_roundTrips .reference) (by decide)
  have hclean := ((hkempt.reads_iff sampleEnv_lawful hlost none none ⟨0, 0⟩).mp hreads).1
  rw [hsessions] at hclean
  exact absurd (hclean _ (List.mem_singleton_self _)) (by decide)

end Reference

end AgentHalo.Trace
