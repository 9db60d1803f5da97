import AgentHalo.Trace.Readback

/-!
# The accounts of sessions

At its end a session stores its summary and moves the counters of its day and of its month on. The summary is moved on before
an event is committed, and it is not reset at the end. In runs in which events are written before the end of their session,
and a session is ended once and only if none of its events was refused, summaries and counters are the sums over what is
recorded (`accounts_agree`), whatever calls fail besides. A session that is ended again is counted again (`ended_twice`).
-/

namespace AgentHalo.Trace

open Attest (TraceDb readBlob readValueByKeyFromDb eventPrefix sessionPrefix)
open Engine (NucleusDb WitnessConfig Clock)
open Persistence
open Text (startsWith)

variable {P : Platform}

/-! ### What a summary counts -/

structure SessionSummary.Accounts (summary : SessionSummary P) (events : List (TraceEvent P)) : Prop where
  count : summary.eventCount.toNat = events.length
  input : summary.totalInputTokens.toNat = (events.map fun e => (e.inputTokens.getD 0).toNat).sum
  output : summary.totalOutputTokens.toNat = (events.map fun e => (e.outputTokens.getD 0).toNat).sum
  cache : summary.totalCacheReadTokens.toNat = (events.map fun e => (e.cacheReadTokens.getD 0).toNat).sum

section Summaries

variable {E : TraceEnv P} {summary summary' : SessionSummary P} {events : List (TraceEvent P)} {event : TraceEvent P}

theorem SessionSummary.Accounts.congr (h : summary.Accounts events) (hsame : summary'.totals = summary.totals) :
    summary'.Accounts events := by
  obtain ⟨hcount, htokens⟩ := Prod.mk.inj hsame
  obtain ⟨hinput, htokens⟩ := Prod.mk.inj htokens
  obtain ⟨houtput, hcache⟩ := Prod.mk.inj htokens
  exact ⟨hcount ▸ h.count, hinput ▸ h.input, houtput ▸ h.output, hcache ▸ h.cache⟩

theorem totals_countType (h : summary.countType E event = some summary') : summary'.totals = summary.totals := by
  unfold SessionSummary.countType at h
  split at h
  case h_3 =>
    dsimp only at h
    split_ifs at h
    · obtain ⟨created, -, h⟩ := Option.bind_eq_some_iff.mp h
      obtain ⟨modified, -, h⟩ := Option.bind_eq_some_iff.mp h
      obtain rfl := Option.some.inj h
      rfl
    all_goals
      obtain ⟨n, -, rfl⟩ := Option.map_eq_some_iff.mp h
      rfl
  case h_7 =>
    obtain rfl := Option.some.inj h
    rfl
  all_goals
    obtain ⟨n, -, rfl⟩ := Option.map_eq_some_iff.mp h
    rfl

theorem SessionSummary.Accounts.count_event (h : summary.Accounts events) (hcount : summary.count E event = some summary') :
    summary'.Accounts (events ++ [event]) := by
  unfold SessionSummary.count at hcount
  obtain ⟨input, hinput, hcount⟩ := Option.bind_eq_some_iff.mp hcount
  obtain ⟨output, houtput, hcount⟩ := Option.bind_eq_some_iff.mp hcount
  obtain ⟨cache, hcache, hcount⟩ := Option.bind_eq_some_iff.mp hcount
  obtain ⟨count, hevents, hcount⟩ := Option.bind_eq_some_iff.mp hcount
  refine SessionSummary.Accounts.congr ⟨?_, ?_, ?_, ?_⟩ (totals_countType hcount)
  · rw [checkedAdd_eq_some hevents, h.count, List.length_append]
    rfl
  · rw [checkedAdd_eq_some hinput, h.input, List.map_append, List.sum_append, List.map_singleton, List.sum_singleton]
  · rw [checkedAdd_eq_some houtput, h.output, List.map_append, List.sum_append, List.map_singleton, List.sum_singleton]
  · rw [checkedAdd_eq_some hcache, h.cache, List.map_append, List.sum_append, List.map_singleton, List.sum_singleton]

end Summaries

/-! ### Counters -/

/-- A session that was ended: when, and with which summary. -/
structure Ended (P : Platform) where
  sessionId : String
  now : UInt64
  summary : SessionSummary P

/-- The counters of a label, each with what a session adds to it. -/
def counters : List (String × (SessionSummary P → UInt64)) :=
  [(":sessions", fun _ => 1), (":input_tokens", (·.totalInputTokens)), (":output_tokens", (·.totalOutputTokens)),
    (":cache_tokens", (·.totalCacheReadTokens))]

variable (E : TraceEnv P)

/-- The bytes that are stored for the session. -/
def Ended.raw (e : Ended P) : Bytes := (E.summaryToVec e.summary).toOption.getD []

def endedOn (ended : List (Ended P)) (day : String) : List (Ended P) := ended.filter fun e => E.dayLabel e.now = day

def tally (ended : List (Ended P)) (amount : SessionSummary P → UInt64) : Nat :=
  (ended.map fun e => (amount e.summary).toNat).sum

/-- What the end of a session adds under the suffixes of a label. -/
def amounts (summary : SessionSummary P) : List (String × UInt64) :=
  counters.map (fun c => (c.1, c.2 summary)) ++
    [(":cost_x10000", E.roundU64 (P.f64.mul summary.estimatedCostUsd (P.f64.ofNat 10000)))]

section Counters

variable {E} {w : TraceWriter P}

theorem Ended.raw_eq {e : Ended P} {raw : Bytes} (h : E.summaryToVec e.summary = .ok raw) : e.raw E = raw := by
  unfold Ended.raw
  rw [h]
  rfl

theorem amounts_suffixes (summary : SessionSummary P) : (amounts E summary).map Prod.fst =
    [":sessions", ":input_tokens", ":output_tokens", ":cache_tokens", ":cost_x10000"] := rfl

theorem costAggregateWrites_eq (root : String) : w.costAggregateWrites E root = (amounts E w.summary).map fun a =>
    (root ++ a.1, saturatingAdd ((readValueByKeyFromDb (traceDb w.db) (root ++ a.1)).getD 0) a.2) := rfl

theorem counterKey_inj {summary : SessionSummary P} {a b s t : String} (hs : s ∈ (amounts E summary).map Prod.fst)
    (ht : t ∈ (amounts E summary).map Prod.fst) (h : a ++ s = b ++ t) : a = b ∧ s = t := by
  rw [amounts_suffixes] at hs ht
  have hapart : ∀ s ∈ [":sessions", ":input_tokens", ":output_tokens", ":cache_tokens", ":cost_x10000"],
      ∀ t ∈ [":sessions", ":input_tokens", ":output_tokens", ":cache_tokens", ":cost_x10000"],
        s.toList <:+ t.toList → s = t := by decide
  have hlist : a.toList ++ s.toList = b.toList ++ t.toList := by
    simpa [String.toList_append] using congrArg String.toList h
  have hsame : s = t := by
    have hfirst : s.toList <:+ a.toList ++ s.toList := List.suffix_append _ _
    have hsecond : t.toList <:+ a.toList ++ s.toList := hlist ▸ List.suffix_append _ _
    rcases List.suffix_or_suffix_of_suffix hfirst hsecond with hle | hle
    · exact hapart s hs t ht hle
    · exact (hapart t ht s hs hle).symm
  subst hsame
  exact ⟨(String.append_left_inj _).mp h, rfl⟩

theorem last_costAggregateWrites (root other : String) {a : String × UInt64} (ha : a ∈ amounts E w.summary) :
    Writes.last (w.costAggregateWrites E root) (other ++ a.1) = if root = other then
      some (saturatingAdd ((readValueByKeyFromDb (traceDb w.db) (root ++ a.1)).getD 0) a.2) else none := by
  have hsuffix {a : String × UInt64} (ha : a ∈ amounts E w.summary) : a.1 ∈ (amounts E w.summary).map Prod.fst :=
    List.mem_map_of_mem ha
  rw [costAggregateWrites_eq]
  split_ifs with hroot
  · subst hroot
    have hdistinct : (amounts E w.summary).Pairwise fun a b => a.1 ≠ b.1 := by
      rw [← List.pairwise_map (f := Prod.fst) (R := (· ≠ ·)), amounts_suffixes]
      decide
    refine (Writes.last_eq_some_iff ?_ _ _).mpr (List.mem_map.mpr ⟨a, ha, rfl⟩)
    rw [List.pairwise_map]
    exact hdistinct.imp fun hne heq => hne ((String.append_right_inj _).mp heq)
  · refine Writes.last_eq_none fun write hwrite heq => hroot ?_
    obtain ⟨b, hb, rfl⟩ := List.mem_map.mp hwrite
    exact (counterKey_inj (hsuffix hb) (hsuffix ha) heq).1

end Counters

/-! ### A database and its accounts -/

/-- The database has the summaries of the sessions that were ended, and the counters of every day are the sums over those
that ended on it. -/
structure Booked (db : NucleusDb P) (ended : List (Ended P)) : Prop where
  summaries : Shows (Under summaryPrefix) db (ended.map fun e => (summaryBaseKey e.sessionId, e.raw E))
  counted : ∀ day, ∀ c ∈ counters, ((readValueByKeyFromDb (traceDb db) (costsDailyPrefix ++ day ++ c.1)).getD 0).toNat =
    tally (endedOn E ended day) c.2

theorem not_startsWith_of_apart {key keyPrefix other : String} (hkey : startsWith key keyPrefix = true)
    (hapart : startsWith keyPrefix other = false ∧ startsWith other keyPrefix = false) : startsWith key other = false := by
  rw [Bool.eq_false_iff]
  intro hother
  have hfirst := List.isPrefixOf_iff_prefix.mp hkey
  have hsecond := List.isPrefixOf_iff_prefix.mp hother
  rcases List.prefix_or_prefix_of_prefix hfirst hsecond with hle | hle
  · exact Bool.eq_false_iff.mp hapart.2 (List.isPrefixOf_iff_prefix.mpr hle)
  · exact Bool.eq_false_iff.mp hapart.1 (List.isPrefixOf_iff_prefix.mpr hle)

/-- The prefixes of what is written besides summaries and counters. -/
def otherPrefixes : List String := [sessionPrefix, eventPrefix, paidOpsPrefix, idxAgentPrefix, idxDatePrefix, idxModelPrefix]

theorem apart_of_other {key keyPrefix : String} (hpre : keyPrefix ∈ otherPrefixes) (hkey : startsWith key keyPrefix = true) :
    (∀ base, Under summaryPrefix base → ¬ IsBlobKey base key) ∧ startsWith key costsDailyPrefix = false := by
  have hapart : ∀ p ∈ otherPrefixes, ∀ q ∈ [summaryPrefix, costsDailyPrefix],
      startsWith q p = false ∧ startsWith p q = false := by decide
  refine ⟨fun base hbase => hbase.not_isBlobKey hkey (hapart keyPrefix hpre _ (by decide)), ?_⟩
  exact not_startsWith_of_apart hkey (hapart keyPrefix hpre _ (by decide)).symm

section Booked

variable {E} {db db' : NucleusDb P} {ended : List (Ended P)}

theorem Booked.congr (h : Booked E db ended) (hsame : traceDb db' = traceDb db) : Booked E db' ended :=
  ⟨h.summaries.congr hsame, hsame ▸ h.counted⟩

theorem booked_nil (hkeymap : db.keymap = .new) (hstate : db.state = ⟨[]⟩) : Booked E db [] := by
  refine ⟨shows_nil hkeymap hstate, fun day c _ => ?_⟩
  unfold readValueByKeyFromDb traceDb
  rw [hkeymap]
  rfl

theorem Booked.keep (h : Booked E db ended) {writes : List (String × UInt64)} {now : Nat}
    (hwrites : ∀ write ∈ writes, ∃ keyPrefix ∈ otherPrefixes, startsWith write.1 keyPrefix = true)
    (hcommit : commitTo db writes now = (some (.ok ()), db')) : Booked E db' ended := by
  refine ⟨h.summaries.keep (fun write hwrite other hother => ?_) hcommit, fun day c hc => ?_⟩
  · obtain ⟨keyPrefix, hpre, hkey⟩ := hwrites write hwrite
    exact (apart_of_other hpre hkey).1 other hother
  · have hnone : Writes.last writes (costsDailyPrefix ++ day ++ c.1) = none := by
      refine Writes.last_eq_none fun write hwrite heq => ?_
      obtain ⟨keyPrefix, hpre, hkey⟩ := hwrites write hwrite
      have hnot := (apart_of_other hpre hkey).2
      rw [heq, startsWith_append_append] at hnot
      cases hnot
    rw [readD_commitTo h.summaries.keyed hcommit, hnone, Option.none_or]
    exact h.counted day c hc

theorem Booked.registered (h : Booked E db ended) (writes : List (String × UInt64)) :
    Booked E (Vcs.WorkRecordStore.registered db writes) ended := by
  refine ⟨h.summaries.registered writes, fun day c hc => ?_⟩
  rw [read_registered h.summaries.keyed]
  exact h.counted day c hc

theorem booked_of_refused {shelf : List (String × Bytes)} {writes : List (String × UInt64)} (hcopy : Copy Kept db shelf)
    (h : db.ctLeaves.length = db.entries.length → Booked E db ended) (hrefused : Refused db writes db')
    (hstep : db'.ctLeaves.length = db'.entries.length) : Booked E db' ended := by
  obtain rfl | ⟨e, now, hcommit⟩ := hrefused
  · exact h hstep
  · obtain ⟨-, -, hentries, rfl | hleaves⟩ := commitTo_error hcopy.sound hcommit
    · exact (h hstep).registered writes
    · rw [hleaves, hentries] at hstep
      exact absurd hcopy.leaves (Nat.not_le.mpr (hstep ▸ Nat.lt_succ_self _))

theorem saturatingAdd_toNat {a b : UInt64} (h : a.toNat + b.toNat < 2 ^ 64) : (saturatingAdd a b).toNat = a.toNat + b.toNat := by
  unfold saturatingAdd checkedAdd
  rw [if_pos h, Option.getD_some, UInt64.toNat_add, Nat.mod_eq_of_lt h]

theorem tally_concat (ended : List (Ended P)) (e : Ended P) (amount : SessionSummary P → UInt64) :
    tally (ended ++ [e]) amount = tally ended amount + (amount e.summary).toNat := by
  unfold tally
  rw [List.map_append, List.sum_append, List.map_singleton, List.sum_singleton]

theorem Booked.finish {w : TraceWriter P} (h : Booked E w.db ended) {m : SessionMetadata} {raw rawSummary : Bytes}
    {secs : UInt64} {now : Nat} (hcommit : commitTo w.db (w.endWrites E m raw rawSummary secs) now = (some (.ok ()), db'))
    (hstored : E.summaryToVec w.summary = .ok rawSummary)
    (hroom : ∀ c ∈ counters, tally (endedOn E ended (E.dayLabel secs)) c.2 + (c.2 w.summary).toNat < 2 ^ 64) :
    Booked E db' (ended ++ [⟨m.sessionId, secs, w.summary⟩]) := by
  have hraw := Ended.raw_eq (e := ⟨m.sessionId, secs, w.summary⟩) hstored
  have hcosts {keyPrefix label : String} {write : String × UInt64}
      (hwrite : write ∈ w.costAggregateWrites E (keyPrefix ++ label)) : startsWith write.1 keyPrefix = true := by
    rw [costAggregateWrites_eq] at hwrite
    obtain ⟨a, -, rfl⟩ := List.mem_map.mp hwrite
    exact startsWith_append_append _ _ _
  unfold TraceWriter.endWrites at hcommit
  constructor
  · rw [List.append_assoc] at hcommit
    rw [List.map_append, List.map_singleton, hraw]
    refine h.summaries.put_between (fun write hwrite other hother => ?_) (fun write hwrite other hother => ?_) hcommit
    · exact hother.not_isBlobKey ((under_append _ _).startsWith_key (isBlobKey_of_mem hwrite)) (by decide)
    · rcases List.mem_append.mp hwrite with hwrite | hwrite
      · exact hother.not_isBlobKey (hcosts hwrite) (by decide)
      · exact hother.not_isBlobKey (hcosts hwrite) (by decide)
  · intro day c hc
    have hkey : startsWith (costsDailyPrefix ++ day ++ c.1) costsDailyPrefix = true := startsWith_append_append _ _ _
    have hother {writes : List (String × UInt64)} {keyPrefix : String}
        (hwrites : ∀ write ∈ writes, startsWith write.1 keyPrefix = true)
        (hapart : startsWith costsDailyPrefix keyPrefix = false ∧ startsWith keyPrefix costsDailyPrefix = false) :
        Writes.last writes (costsDailyPrefix ++ day ++ c.1) = none := by
      refine Writes.last_eq_none fun write hwrite heq => ?_
      have hwritten := hwrites write hwrite
      rw [heq, not_startsWith_of_apart hkey hapart] at hwritten
      cases hwritten
    have hblob (keyPrefix name : String) (raw : Bytes) : ∀ write ∈ blobWrites (keyPrefix ++ name) raw,
        startsWith write.1 keyPrefix = true :=
      fun _ hwrite => (under_append _ _).startsWith_key (isBlobKey_of_mem hwrite)
    have hamount : (c.1, c.2 w.summary) ∈ amounts E w.summary := List.mem_append_left _ (List.mem_map_of_mem hc)
    have hlast := last_costAggregateWrites (costsDailyPrefix ++ E.dayLabel secs) (costsDailyPrefix ++ day) hamount
    dsimp only at hlast
    have hsession : Writes.last (blobWrites (sessionBaseKey m.sessionId) raw) (costsDailyPrefix ++ day ++ c.1) = none :=
      hother (hblob sessionPrefix _ raw) (by decide)
    have hsummary : Writes.last (blobWrites (summaryBaseKey m.sessionId) rawSummary) (costsDailyPrefix ++ day ++ c.1) = none :=
      hother (hblob summaryPrefix _ rawSummary) (by decide)
    rw [readD_commitTo h.summaries.keyed hcommit, Writes.last_append, Writes.last_append, Writes.last_append,
      hother (fun _ hwrite => hcosts hwrite) (by decide), hsession, hsummary, hlast]
    unfold endedOn
    rw [List.filter_append]
    by_cases hday : E.dayLabel secs = day
    · subst hday
      rw [if_pos rfl, List.filter_cons_of_pos (by simp), List.filter_nil, tally_concat]
      have hold := h.counted (E.dayLabel secs) c hc
      have hfits := hroom c hc
      rw [← hold] at hfits
      simp only [Option.none_or, Option.some_or, Option.or_none, Option.getD_some]
      rw [saturatingAdd_toNat hfits, hold]
      rfl
    · rw [if_neg fun heq => hday ((String.append_right_inj _).mp heq), List.filter_cons_of_neg (by simpa using hday),
        List.filter_nil, List.append_nil]
      exact h.counted day c hc

end Booked

/-! ### Runs -/

/-- The sessions that were ended, in the copy of the writer and in the file, and whether the session that was started last
has not been ended. -/
structure Ledger (P : Platform) where
  recorded : List (Ended P) := []
  saved : List (Ended P) := []
  counting : Bool := false

variable (S : Serde P) (path : String)

def Ledger.after (ledger : Ledger P) : Move P → Ledger P
  | .reopened => { ledger with recorded := ledger.saved, counting := false }
  | .started _ => { ledger with counting := true }
  | .refused => { ledger with counting := false }
  | .ended final now summary =>
    ⟨ledger.recorded ++ [⟨final.sessionId, now, summary⟩], ledger.recorded ++ [⟨final.sessionId, now, summary⟩], false⟩
  | .paid => { ledger with saved := ledger.recorded }
  | .modelled _ | .wrote _ | .failed => ledger

/-- Events are written to sessions that have not been ended, a session is ended once and only if none of its events was
refused, and no counter of a day saturates. -/
def Ledger.Admits (w : TraceWriter P) (ledger : Ledger P) : Move P → Prop
  | .wrote e => e.sessionId ∉ ledger.recorded.map (·.sessionId)
  | .ended _ now _ => ledger.counting = true ∧
    ∀ c ∈ counters, tally (endedOn E ledger.recorded (E.dayLabel now)) c.2 + (c.2 w.summary).toNat < 2 ^ 64
  | _ => True

/-- Runs of calls that the ledger admits, of which any but those that start sessions and save may fail. -/
inductive Accounted : TraceWriter P → S.Files → Book P → Ledger P → Prop where
  | create {disk disk' : S.Files} {w : TraceWriter P} {allowedEnv seedEnv : Option String} {clock : Clock}
      {pricing : Except String (String → Option (ModelPricing P))} {tick : Tick} (absent : disk[path]? = none)
      (made : TraceWriter.new S E path (haloWitnessCfg P allowedEnv seedEnv) clock pricing tick disk =
        (some (.ok w), disk')) : Accounted w disk' {} {}
  | step {disk disk' : S.Files} {w w' : TraceWriter P} {book : Book P} {ledger : Ledger P} {move : Move P}
      (run : Accounted w disk book ledger) (call : Step E S path w disk book move w' disk') (admits : ledger.Admits E w move) :
      Accounted w' disk' (book.after move) (ledger.after move)

/-- Each session was ended once, and its summary was stored and accounts for its events. -/
structure Settles (used : List String) (j : Journal P) (ended : List (Ended P)) : Prop where
  distinct : (ended.map (·.sessionId)).Nodup
  used : ∀ e ∈ ended, e.sessionId ∈ used
  stored : ∀ e ∈ ended, E.summaryToVec e.summary = .ok (e.raw E)
  accounts : ∀ e ∈ ended, e.summary.Accounts (j.eventsOf e.sessionId)

/-- What a run keeps: the copy of the writer and the file are booked, and the writer counts the session it has not ended. -/
structure Balanced (w : TraceWriter P) (disk : S.Files) (book : Book P) (ledger : Ledger P) : Prop where
  copy : w.db.ctLeaves.length = w.db.entries.length → Booked E w.db ledger.recorded
  file : ∀ {allowedEnv seedEnv clock db},
    loadDb S E path (haloWitnessCfg P allowedEnv seedEnv) clock disk = some (.ok db) → Booked E db ledger.saved
  running : ledger.counting = true → ∀ m, book.running = some m →
    m.sessionId ∉ ledger.recorded.map (·.sessionId) ∧ w.summary.Accounts (book.recorded.eventsOf m.sessionId)
  recorded : Settles E book.used book.recorded ledger.recorded
  saved : Settles E book.used book.saved ledger.saved

section Runs

variable {E S path} {w w' : TraceWriter P} {disk disk' : S.Files} {book : Book P} {ledger : Ledger P}

theorem Accounted.run (h : Accounted E S path w disk book ledger) : Run E S path w disk book := by
  induction h with
  | create absent made => exact .create absent made
  | step _ call _ ih => exact ih.step call

theorem loadDb_congr {cfg : WitnessConfig P} {clock : Clock} (hsame : disk'[path]? = disk[path]?) :
    loadDb S E path cfg clock disk' = loadDb S E path cfg clock disk := by
  unfold loadDb loadSnapshot
  rw [hsame]

theorem Booked.of_saved (hS : S.RoundTrips) (hpaths : path ≠ defaultWalPath path) {saved db : NucleusDb P}
    {ended : List (Ended P)} (h : Booked E saved ended) (hbackend : saved.backend = .binaryMerkle) {nanos : Nat}
    {faults : PersistFaults}
    (hpersist : persistSnapshotAndSyncWal S path (defaultWalPath path) saved nanos faults disk = (.ok (), disk'))
    {allowedEnv seedEnv : Option String} {clock : Clock}
    (hload : loadDb S E path (haloWitnessCfg P allowedEnv seedEnv) clock disk' = some (.ok db)) : Booked E db ended := by
  have hsnapshot := persistSnapshotAndSyncWal_snapshotAt hS hpaths (swapPath_ne_defaultWalPath path _ nanos)
    (swapPath_ne_snapshot path nanos) hpersist
  obtain ⟨loaded, hloaded, hsame, -, -⟩ := SnapshotAt.loadDb_eq hsnapshot hbackend allowedEnv seedEnv clock
  obtain rfl := Except.ok.inj (Option.some.inj (hloaded.symm.trans hload))
  exact h.congr hsame

theorem settles_nil (used : List String) (j : Journal P) : Settles E used j [] where
  distinct := List.nodup_nil
  used _ he := absurd he List.not_mem_nil
  stored _ he := absurd he List.not_mem_nil
  accounts _ he := absurd he List.not_mem_nil

theorem Settles.mono {used used' : List String} {j j' : Journal P} {ended : List (Ended P)} (h : Settles E used j ended)
    (hused : ∀ id ∈ used, id ∈ used') (hevents : ∀ e ∈ ended, j'.eventsOf e.sessionId = j.eventsOf e.sessionId) :
    Settles E used' j' ended where
  distinct := h.distinct
  used e he := hused _ (h.used e he)
  stored := h.stored
  accounts e he := hevents e he ▸ h.accounts e he

theorem Settles.concat {used : List String} {j : Journal P} {ended : List (Ended P)} (h : Settles E used j ended) {e : Ended P}
    (hfresh : e.sessionId ∉ ended.map (·.sessionId)) (hused : e.sessionId ∈ used)
    {raw : Bytes} (hstored : E.summaryToVec e.summary = .ok raw) (haccounts : e.summary.Accounts (j.eventsOf e.sessionId)) :
    Settles E used j (ended ++ [e]) := by
  refine ⟨?_, fun e' he' => ?_, fun e' he' => ?_, fun e' he' => ?_⟩
  · rw [List.map_append, List.map_singleton, List.nodup_append_comm]
    exact List.nodup_cons.mpr ⟨hfresh, h.distinct⟩
  · rcases List.mem_append.mp he' with hold | hnew
    · exact h.used e' hold
    · rw [List.mem_singleton.mp hnew]
      exact hused
  · rcases List.mem_append.mp he' with hold | hnew
    · exact h.stored e' hold
    · rw [List.mem_singleton.mp hnew, Ended.raw_eq hstored]
      exact hstored
  · rcases List.mem_append.mp he' with hold | hnew
    · exact h.accounts e' hold
    · rw [List.mem_singleton.mp hnew]
      exact haccounts

theorem Balanced.step (hS : S.RoundTrips) (hpaths : path ≠ defaultWalPath path) (hkempt : Kempt E S path w disk book)
    (h : Balanced E S path w disk book ledger) {move : Move P}
    (hcall : Step E S path w disk book move w' disk') (hadmits : ledger.Admits E w move) :
    Balanced E S path w' disk' (book.after move) (ledger.after move) := by
  cases hcall with
  | reopen made =>
    obtain ⟨hload, -, -, -, hframe⟩ := new_ok made
    refine ⟨fun _ => h.file hload, fun hload' => ?_, nofun, h.saved, h.saved⟩
    rw [loadDb_congr (hframe path hpaths.symm)] at hload'
    exact h.file hload'
  | @start w' m tick fresh done =>
    obtain ⟨raw, db', hraw, hcommit, rfl⟩ := startSession_ok done
    obtain ⟨_, hcopy, -⟩ := hkempt.copy
    have hused : ∀ id ∈ book.used, id ∈ m.sessionId :: book.used := fun _ hid => List.mem_cons_of_mem _ hid
    refine ⟨fun _ => (h.copy (inStep_of_commitTo hcopy.sound hcommit).1).keep (fun write hwrite => ?_) hcommit, h.file, ?_,
      h.recorded.mono hused fun _ _ => rfl, h.saved.mono hused fun _ _ => rfl⟩
    · have hindex : ∀ p ∈ [idxAgentPrefix, idxDatePrefix, idxModelPrefix], p ∈ otherPrefixes := by decide
      rcases List.mem_append.mp hwrite with hwrite | hwrite
      · exact ⟨sessionPrefix, by decide, (under_append _ _).startsWith_key (isBlobKey_of_mem hwrite)⟩
      · obtain ⟨keyPrefix, hpre, hkey⟩ := prefix_sessionIndexWrites hwrite
        exact ⟨keyPrefix, hindex keyPrefix hpre, hkey⟩
    · rintro - m' ⟨⟩
      refine ⟨fun hmem => ?_, ?_⟩
      · obtain ⟨e, he, hid⟩ := List.mem_map.mp hmem
        exact fresh (hid ▸ h.recorded.used e he)
      · have hempty : (book.after (.started m)).recorded.eventsOf m.sessionId = [] := hkempt.recorded.eventsOf_eq_nil fresh
        rw [hempty]
        exact ⟨rfl, rfl, rfl, rfl⟩
  | @model model =>
    refine ⟨h.copy, h.file, fun hcounting m' hm' => ?_, h.recorded, h.saved⟩
    obtain ⟨m, hm, rfl⟩ := Option.map_eq_some_iff.mp hm'
    obtain ⟨hfresh, haccounts⟩ := h.running hcounting m hm
    exact ⟨hfresh, haccounts.congr rfl⟩
  | @event w' m event tick running done =>
    obtain ⟨seq, summary, raw, db', hseq, hcount, hraw, hcommit, rfl⟩ := writeEvent_ok done
    obtain ⟨_, hcopy, -⟩ := hkempt.copy
    refine ⟨fun _ => (h.copy (inStep_of_commitTo hcopy.sound hcommit).1).keep (fun write hwrite => ?_) hcommit, h.file,
      fun hcounting m' hm' => ?_, h.recorded.mono (fun _ hid => hid) fun e he => ?_, h.saved⟩
    · exact ⟨eventPrefix, by decide, (under_eventBaseKey _ _).startsWith_key (isBlobKey_of_mem hwrite)⟩
    · obtain rfl := Option.some.inj (running.symm.trans hm')
      have hevents := Journal.eventsOf_wrote_same book.recorded ⟨m.sessionId, seq, event, tick.secs⟩
      refine ⟨hadmits, ?_⟩
      have haccounts := (h.running hcounting m running).2.count_event hcount
      exact hevents.symm ▸ haccounts
    · refine Journal.eventsOf_wrote_other book.recorded fun hid => hadmits ?_
      exact List.mem_map.mpr ⟨e, he, hid.symm⟩
  | refused failed =>
    obtain ⟨-, -, -, _, _, hrefused⟩ := writeEvent_error failed
    obtain ⟨_, hcopy, -⟩ := hkempt.copy
    exact ⟨booked_of_refused hcopy h.copy hrefused, h.file, nofun, h.recorded, h.saved⟩
  | @finish w' disk' m status tick faults summary running done =>
    obtain ⟨sessionMeta, rawMeta, rawSummary, db', hstarted, -, hstored, hsummary, hcommit, rfl, hpersist⟩ :=
      endSession_writes done
    obtain rfl := Option.some.inj (hstarted.symm.trans (hkempt.session.trans running))
    obtain ⟨counting, room⟩ := hadmits
    obtain ⟨hfresh, haccounts⟩ := h.running counting sessionMeta running
    obtain ⟨-, hmem, -⟩ := hkempt.running sessionMeta running
    have hused : sessionMeta.sessionId ∈ book.used := by
      obtain ⟨m', hm', heq⟩ := List.mem_map.mp hmem
      exact heq ▸ hkempt.recorded.1 m' hm'
    have hroom : ∀ c ∈ counters,
        tally (endedOn E ledger.recorded (E.dayLabel tick.secs)) c.2 + (c.2 summary).toNat < 2 ^ 64 := by
      intro c hc
      have hsame : c.2 summary = c.2 w.summary := by
        rw [hsummary]
        simp only [counters, List.mem_cons, List.not_mem_nil, or_false] at hc
        rcases hc with rfl | rfl | rfl | rfl
        all_goals rfl
      rw [hsame]
      exact room c hc
    obtain ⟨_, hearlierCopy, -⟩ := hkempt.copy
    have hcopy : Booked E { w with summary }.db ledger.recorded :=
      h.copy (inStep_of_commitTo hearlierCopy.sound hcommit).1
    have hbooked := hcopy.finish hcommit hstored hroom
    obtain ⟨_, hsaved, -⟩ := (hkempt.step hS hpaths (.finish running done)).copy
    rw [hkempt.paths.1, hkempt.paths.2] at hpersist
    have hearlier : Settles E book.used (book.recorded.ended (sessionMeta.final status tick.secs)) ledger.recorded :=
      h.recorded.mono (fun _ hid => hid) fun _ _ => rfl
    have htotals : summary.totals = w.summary.totals := by
      rw [hsummary]
      rfl
    have hsettles : Settles E book.used (book.recorded.ended (sessionMeta.final status tick.secs))
        (ledger.recorded ++ [⟨sessionMeta.sessionId, tick.secs, summary⟩]) :=
      hearlier.concat hfresh hused hstored (haccounts.congr htotals)
    exact ⟨fun _ => hbooked, fun hload => hbooked.of_saved hS hpaths hsaved.backend hpersist hload, nofun, hsettles, hsettles⟩
  | unfinished failed uncommitted =>
    obtain ⟨_, hcopy, -⟩ := hkempt.copy
    obtain ⟨-, -, rfl, htotals, hdb⟩ := endSession_error hcopy.sound failed uncommitted
    refine ⟨?_, h.file, fun hcounting m hm => ?_, h.recorded, h.saved⟩
    · obtain hdb | ⟨_, _, _, -, hrefused⟩ := hdb
      · rw [hdb]
        exact h.copy
      · exact booked_of_refused hcopy h.copy hrefused
    · obtain ⟨hfresh, haccounts⟩ := h.running hcounting m hm
      exact ⟨hfresh, haccounts.congr htotals⟩
  | @paid w' disk' op tick faults done =>
    obtain ⟨raw, extras, db', -, hdaily, hcommit, rfl, hpersist⟩ := recordPaidOperation_ok done
    obtain ⟨_, hcopy, -⟩ := hkempt.copy
    have hbooked : Booked E db' ledger.recorded := by
      refine (h.copy (inStep_of_commitTo hcopy.sound hcommit).1).keep
        (fun write hwrite => ⟨paidOpsPrefix, by decide, ?_⟩) hcommit
      rcases List.mem_append.mp hwrite with hwrite | hwrite
      · exact startsWith_paid (.inl (isBlobKey_of_mem hwrite))
      · exact startsWith_paid (.inr (hdaily write hwrite))
    obtain ⟨_, hsaved, -⟩ := (hkempt.step hS hpaths (.paid done)).copy
    rw [hkempt.paths.1, hkempt.paths.2] at hpersist
    exact ⟨fun _ => hbooked, fun hload => hbooked.of_saved hS hpaths hsaved.backend hpersist hload, h.running, h.recorded,
      h.recorded⟩
  | unpaid failed uncommitted =>
    obtain ⟨_, hcopy, -⟩ := hkempt.copy
    obtain ⟨hsame, rfl, hdb⟩ := recordPaidOperation_error hcopy.sound failed uncommitted
    rw [hsame]
    refine ⟨?_, h.file, h.running, h.recorded, h.saved⟩
    obtain hdb | ⟨_, hrefused⟩ := hdb
    · rw [hdb]
      exact h.copy
    · exact booked_of_refused hcopy h.copy hrefused

theorem Accounted.balanced (hS : S.RoundTrips) (hpaths : path ≠ defaultWalPath path)
    (h : Accounted E S path w disk book ledger) : Balanced E S path w disk book ledger := by
  induction h with
  | create absent made =>
    obtain ⟨hload, -, -, -, hframe⟩ := new_ok made
    obtain ⟨hkeymap, -, hstate, -⟩ := loadDb_absent absent hload
    refine ⟨fun _ => booked_nil hkeymap hstate, fun hload' => ?_, nofun, settles_nil _ _, settles_nil _ _⟩
    rw [loadDb_congr (hframe path hpaths.symm)] at hload'
    obtain ⟨hkeymap', -, hstate', -⟩ := loadDb_absent absent hload'
    exact booked_nil hkeymap' hstate'
  | step run call admits ih => exact ih.step hS hpaths (run.run.kempt hS hpaths) call admits

end Runs

/-! ### What the readers find -/

structure CostBucket.Sums (bucket : CostBucket P) (ended : List (Ended P)) : Prop where
  sessions : bucket.sessions.toNat = ended.length
  input : bucket.inputTokens.toNat = tally ended (·.totalInputTokens)
  output : bucket.outputTokens.toNat = tally ended (·.totalOutputTokens)
  cache : bucket.cacheTokens.toNat = tally ended (·.totalCacheReadTokens)

variable (parse : Bytes → Except String (SessionSummary P))

/-- How `serde_json` treats summaries: their lengths are words, what parses has the totals that were written, and an empty
text does not parse. -/
structure SummariesRead : Prop where
  fits : ∀ summary raw, E.summaryToVec summary = .ok raw → raw.length < 2 ^ 64
  totals : ∀ summary raw read, E.summaryToVec summary = .ok raw → parse raw = .ok read → read.totals = summary.totals
  empty : ∀ read, parse [] ≠ .ok read

/-- The tokens that are added up of an event. -/
def TraceEvent.tokens (event : TraceEvent P) : UInt64 × UInt64 × UInt64 :=
  (event.inputTokens.getD 0, event.outputTokens.getD 0, event.cacheReadTokens.getD 0)

/-- The stored summaries account for the events that are read, and the buckets of the days are the sums over the final
summaries of the sessions, each ended once, that ended on them. -/
structure Agrees (db : TraceDb) (ended : List (Ended P)) : Prop where
  distinct : (ended.map (·.sessionId)).Nodup
  stored : ∀ e ∈ ended, ∃ raw, E.summaryToVec e.summary = .ok raw ∧
    readBlob db (summaryBaseKey e.sessionId) = .ok (some raw)
  summaries : ∀ sessionId summary, sessionSummary parse db sessionId = .ok (some summary) →
    ∃ events, sessionEvents E db sessionId = .ok events ∧ summary.Accounts events
  buckets : ∀ bucket ∈ costBuckets (P := P) db false, bucket.Sums (endedOn E ended bucket.label)
  labels : ((costBuckets (P := P) db false).map (·.label)).Nodup
  days : ∀ e ∈ ended, ':' ∉ (E.dayLabel e.now).toList →
    ∃ bucket ∈ costBuckets (P := P) db false, bucket.label = E.dayLabel e.now

section Readers

variable {E S path parse} {db : NucleusDb P} {ended : List (Ended P)}

theorem tokens_reread {events : List (TraceEvent P)}
    (hevents : ∀ event ∈ events, ∃ read, event.reread E = some read ∧ read.tokens = event.tokens) :
    (events.filterMap (·.reread E)).map (·.tokens) = events.map (·.tokens) := by
  induction events with
  | nil => rfl
  | cons event rest ih =>
    obtain ⟨read, hread, htokens⟩ := hevents event List.mem_cons_self
    rw [List.filterMap_cons_some hread, List.map_cons, List.map_cons, htokens,
      ih fun event' hevent' => hevents event' (List.mem_cons_of_mem _ hevent')]

theorem SessionSummary.Accounts.reread {summary : SessionSummary P} {events : List (TraceEvent P)} (h : summary.Accounts events)
    (hevents : ∀ event ∈ events, ∃ read, event.reread E = some read ∧ read.tokens = event.tokens) :
    summary.Accounts (events.filterMap (·.reread E)) := by
  have htokens := tokens_reread hevents
  have hsum (f : UInt64 × UInt64 × UInt64 → Nat) : ((events.filterMap (·.reread E)).map fun e => f e.tokens) =
      events.map fun e => f e.tokens := by
    have hmap := congrArg (List.map f) htokens
    rwa [List.map_map, List.map_map] at hmap
  refine ⟨?_, ?_, ?_, ?_⟩
  · have hlength := congrArg List.length htokens
    rw [List.length_map, List.length_map] at hlength
    rw [hlength]
    exact h.count
  · exact h.input.trans (congrArg List.sum (hsum fun t => t.1.toNat).symm)
  · exact h.output.trans (congrArg List.sum (hsum fun t => t.2.1.toNat).symm)
  · exact h.cache.trans (congrArg List.sum (hsum fun t => t.2.2.toNat).symm)

theorem mem_costBuckets {db : TraceDb} {bucket : CostBucket P} : bucket ∈ costBuckets db false ↔
    ∃ label ∈ costLabels costsDailyPrefix db, costBucket costsDailyPrefix db label = bucket ∧ bucket.sessions ≠ 0 := by
  unfold costBuckets
  simp only [List.mem_mergeSort, List.mem_filter, List.mem_map, Std.ExtTreeSet.mem_toList, decide_eq_true_eq]
  constructor
  · rintro ⟨⟨label, hlabel, hbucket⟩, hsessions⟩
    exact ⟨label, hlabel, hbucket, hsessions⟩
  · rintro ⟨label, hlabel, hbucket, hsessions⟩
    exact ⟨⟨label, hlabel, hbucket⟩, hsessions⟩

theorem nodup_costBuckets (db : TraceDb) : ((costBuckets (P := P) db false).map (·.label)).Nodup := by
  have hlabels : ((costLabels costsDailyPrefix db).toList.map (costBucket (P := P) costsDailyPrefix db)).map (·.label) =
      (costLabels costsDailyPrefix db).toList := by
    rw [List.map_map]
    exact List.map_id _
  have hdistinct : (costLabels costsDailyPrefix db).toList.Nodup := by
    refine Std.ExtTreeSet.distinct_toList.imp ?_
    rintro a _ hne rfl
    exact hne (Std.compare_eq_iff_eq.mpr rfl)
  unfold costBuckets
  rw [((List.mergeSort_perm _ _).map _).nodup_iff]
  refine (List.filter_sublist.map _).nodup ?_
  exact (congrArg List.Nodup hlabels).mpr hdistinct

theorem mem_costLabels {db : TraceDb} {label : String} (hlabel : ':' ∉ label.toList)
    (hread : (readValueByKeyFromDb db (costsDailyPrefix ++ label ++ ":sessions")).getD 0 ≠ 0) :
    label ∈ costLabels costsDailyPrefix db := by
  obtain ⟨idx, hkey⟩ : ∃ idx, db.keymap.get (costsDailyPrefix ++ label ++ ":sessions") = some idx := by
    rw [← Option.isSome_iff_exists]
    by_contra hnone
    rw [Option.not_isSome_iff_eq_none] at hnone
    unfold readValueByKeyFromDb at hread
    rw [hnone] at hread
    exact hread rfl
  unfold costLabels
  rw [Std.ExtTreeSet.mem_ofList, List.contains_iff_mem, List.mem_filterMap]
  refine ⟨_, (db.keymap.mem_allKeys _ idx).mpr hkey, ?_⟩
  have hrest : Text.splitOnce ':' (label ++ ":sessions") = some (label, "sessions") := by
    rw [show (":sessions" : String) = String.singleton ':' ++ "sessions" by decide, ← String.append_assoc]
    exact Text.splitOnce_append hlabel "sessions"
  rw [String.append_assoc, Text.stripPrefix_append, Option.bind_some, hrest]
  rfl

theorem Booked.sums (h : Booked E db ended) (label : String) :
    (costBucket (P := P) costsDailyPrefix (traceDb db) label).Sums (endedOn E ended label) := by
  have hcount := h.counted label
  simp only [counters, List.mem_cons, List.not_mem_nil, or_false, forall_eq_or_imp, forall_eq] at hcount
  obtain ⟨hsessions, hinput, houtput, hcache⟩ := hcount
  refine ⟨hsessions.trans ?_, hinput, houtput, hcache⟩
  simp [tally]

theorem Booked.agrees (h : Booked E db ended) {shelf : List (String × Bytes)} (hshows : Shows Kept db shelf)
    {j : Journal P} (hkeeps : Keeps E shelf j) (hE : E.Lawful) (hparse : SummariesRead E parse) {used : List String}
    (hsettles : Settles E used j ended) (hevents : ∀ sessionId, ∀ event ∈ j.eventsOf sessionId,
      ∃ read, event.reread E = some read ∧ read.tokens = event.tokens) : Agrees E parse (traceDb db) ended := by
  have hraw : ∀ {sessionId raw}, Writes.last (ended.map fun e => (summaryBaseKey e.sessionId, e.raw E))
      (summaryBaseKey sessionId) = some raw → ∃ e ∈ ended, e.sessionId = sessionId ∧ e.raw E = raw := by
    intro sessionId raw hlast
    obtain ⟨e, he, heq⟩ := List.mem_map.mp (Writes.mem_of_last_eq_some hlast)
    obtain ⟨hkey, hraw⟩ := Prod.mk.inj heq
    exact ⟨e, he, (String.append_right_inj _).mp hkey, hraw⟩
  have hread (sessionId : String) := h.summaries.readBlob_eq (under_append summaryPrefix sessionId) fun raw hlast => by
    obtain ⟨e, he, -, rfl⟩ := hraw hlast
    exact hparse.fits _ _ (hsettles.stored e he)
  refine ⟨hsettles.distinct, fun e he => ?_, fun sessionId summary hsummary => ?_, fun bucket hbucket => ?_,
    nodup_costBuckets _, fun e he hlabel => ?_⟩
  · have hlast : Writes.last (ended.map fun e => (summaryBaseKey e.sessionId, e.raw E)) (summaryBaseKey e.sessionId) =
        some (e.raw E) := by
      refine (Writes.last_eq_some_iff ?_ _ _).mpr (List.mem_map_of_mem he)
      rw [List.pairwise_map]
      have hdistinct := hsettles.distinct
      unfold List.Nodup at hdistinct
      rw [List.pairwise_map] at hdistinct
      exact hdistinct.imp fun hne heq => hne ((String.append_right_inj _).mp heq)
    rcases hread e.sessionId with hblob | ⟨hnone, -⟩
    · exact ⟨_, hsettles.stored e he, hblob.trans (congrArg Except.ok hlast)⟩
    · exact nomatch hnone.symm.trans hlast
  · refine ⟨_, sessionEvents_eq hE hshows hkeeps sessionId, ?_⟩
    have hparsed : ∃ raw, readBlob (traceDb db) (summaryBaseKey sessionId) = .ok (some raw) ∧ parse raw = .ok summary := by
      unfold sessionSummary at hsummary
      obtain ⟨blob, hblob, hrest⟩ := Outcome.bind_eq_ok.mp hsummary
      cases blob with
      | none => cases hrest
      | some raw =>
        obtain ⟨parsed, hparsed, hsame⟩ := Outcome.map_eq_ok.mp hrest
        obtain rfl := Option.some.inj hsame
        exact ⟨raw, hblob, Outcome.mapError_eq_ok.mp hparsed⟩
    obtain ⟨raw, hblob, hparsed⟩ := hparsed
    rcases hread sessionId with hfound | ⟨-, hempty⟩
    · obtain ⟨e, he, rfl, rfl⟩ := hraw (Except.ok.inj (hfound.symm.trans hblob))
      exact ((hsettles.accounts e he).congr (hparse.totals _ _ _ (hsettles.stored e he) hparsed)).reread (hevents _)
    · obtain rfl := Option.some.inj (Except.ok.inj (hempty.symm.trans hblob))
      exact absurd hparsed (hparse.empty summary)
  · obtain ⟨label, -, rfl, -⟩ := mem_costBuckets.mp hbucket
    exact h.sums label
  · have hsessions := (h.sums (E.dayLabel e.now)).sessions
    have hone : e ∈ endedOn E ended (E.dayLabel e.now) := List.mem_filter.mpr ⟨he, by simp⟩
    have hne : (costBucket (P := P) costsDailyPrefix (traceDb db) (E.dayLabel e.now)).sessions ≠ 0 := by
      intro hzero
      rw [hzero] at hsessions
      exact absurd (List.length_pos_of_mem hone) (hsessions ▸ Nat.lt_irrefl 0)
    exact ⟨_, mem_costBuckets.mpr ⟨_, mem_costLabels hlabel hne, rfl, hne⟩, rfl⟩

/-- **The accounts agree**: after every such run whose saved events are read back with their tokens, the stored summary of a
session has the counts of the events that are read for it, and the buckets of the days have those of the sessions that ended
on them. -/
theorem accounts_agree (hS : S.RoundTrips) (hE : E.Lawful) (hparse : SummariesRead E parse) (hpaths : path ≠ defaultWalPath path)
    {w : TraceWriter P} {disk : S.Files} {book : Book P} {ledger : Ledger P} (hrun : Accounted E S path w disk book ledger)
    (hevents : ∀ sessionId, ∀ event ∈ book.saved.eventsOf sessionId,
      ∃ read, event.reread E = some read ∧ read.tokens = event.tokens)
    (allowedEnv seedEnv : Option String) (clock : Clock) :
    ∃ db, loadTrace E S path (haloWitnessCfg P allowedEnv seedEnv) clock disk = some (.ok db) ∧
      Agrees E parse db ledger.saved := by
  obtain ⟨shelf, hdisk, hkeeps⟩ := (hrun.run.kempt hS hpaths).file
  obtain ⟨db, hload, hstep, hcopy⟩ := hdisk.loadDb_eq E allowedEnv seedEnv clock
  have hbalanced := hrun.balanced hS hpaths
  refine ⟨traceDb db, ?_, (hbalanced.file hload).agrees (hcopy.shows hstep) hkeeps hE hparse hbalanced.saved hevents⟩
  unfold loadTrace
  rw [hload]
  rfl

end Readers

/-! ### A session that is ended twice -/

def sampleParse : Bytes → Except String (SessionSummary .reference)
  | [events, input, output, cache] => .ok (sampleSummary events.toUInt64 input.toUInt64 output.toUInt64 cache.toUInt64)
  | _ => .error "not a summary"

theorem toUInt64_toUInt8 {n : UInt64} (h : n < 256) : n.toUInt8.toUInt64 = n :=
  UInt64.toNat_inj.mp (Nat.mod_eq_of_lt (UInt64.lt_iff_toNat_lt.mp h))

theorem sampleParse_reads : SummariesRead sampleEnv sampleParse := by
  have hraw {summary : SessionSummary .reference} {raw : Bytes} (h : sampleEnv.summaryToVec summary = .ok raw) :
      (summary.eventCount < 256 ∧ summary.totalInputTokens < 256 ∧ summary.totalOutputTokens < 256 ∧
        summary.totalCacheReadTokens < 256) ∧ raw = [summary.eventCount.toUInt8, summary.totalInputTokens.toUInt8,
        summary.totalOutputTokens.toUInt8, summary.totalCacheReadTokens.toUInt8] := by
    unfold sampleEnv at h
    dsimp only at h
    split at h
    · rename_i hsmall
      exact ⟨hsmall, (Except.ok.inj h).symm⟩
    · cases h
  constructor
  · intro summary raw h
    rw [(hraw h).2]
    exact (by decide : 4 < 2 ^ 64)
  · intro summary raw read h hread
    obtain ⟨⟨hevents, hinput, houtput, hcache⟩, rfl⟩ := hraw h
    obtain rfl := Except.ok.inj hread
    unfold SessionSummary.totals sampleSummary
    dsimp only
    rw [toUInt64_toUInt8 hevents, toUInt64_toUInt8 hinput, toUInt64_toUInt8 houtput, toUInt64_toUInt8 hcache]
  · intro read h
    cases h

theorem amount_le {summary : SessionSummary P} (h : summary.totals = (2, 11, 15, 2)) {c : String × (SessionSummary P → UInt64)}
    (hc : c ∈ counters) : (c.2 summary).toNat ≤ 15 := by
  obtain ⟨hcount, htokens⟩ := Prod.mk.inj h
  obtain ⟨hinput, htokens⟩ := Prod.mk.inj htokens
  obtain ⟨houtput, hcache⟩ := Prod.mk.inj htokens
  simp only [counters, List.mem_cons, List.not_mem_nil, or_false] at hc
  rcases hc with rfl | rfl | rfl | rfl
  · exact (by decide : 1 ≤ 15)
  · change summary.totalInputTokens.toNat ≤ 15
    rw [hinput]
    decide
  · change summary.totalOutputTokens.toNat ≤ 15
    rw [houtput]
    decide
  · change summary.totalCacheReadTokens.toNat ≤ 15
    rw [hcache]
    decide

theorem exists_accounted : ∃ w disk book e,
    Accounted sampleEnv (Serde.identity .reference) "traces.ndb" w disk book ⟨[e], [e], false⟩ ∧
      book.saved.written = [⟨"s", 1, sampleEvent 0 5 7 1, 0⟩, ⟨"s", 2, sampleEvent 0 6 8 1, 0⟩] ∧
      e.summary.totals = (2, 11, 15, 2) ∧ w.summary.totals = (2, 11, 15, 2) ∧ w.sessionMeta = some (sampleStart "s") ∧
      Operable w.db 38 ∧ disk[swapPath (defaultWalPath "traces.ndb") 1]? = none := by
  obtain ⟨w₀, w₁, w₂, w₃, w₄, disk₀, disk₄, summary, hmade, hrefused, hstart, hfirst, hsecond, hone, htwo, hsummary, hend, hroom,
    hfree⟩ := exists_session (show (Text.utf8 "s").length ≤ 64 by decide)
  have hwritten := ((((Accounted.create Std.ExtTreeMap.getElem?_empty hmade).step (.refused hrefused) trivial).step
    (.start List.not_mem_nil hstart) trivial).step (.event rfl hfirst) List.not_mem_nil).step (.event rfl hsecond)
    List.not_mem_nil
  have hfits : ∀ c ∈ counters, tally (endedOn sampleEnv [] (sampleEnv.dayLabel sampleTick.secs)) c.2 +
      (c.2 w₃.summary).toNat < 2 ^ 64 := by
    intro c hc
    rw [hsummary]
    exact Nat.lt_of_le_of_lt (Nat.add_le_add_left (amount_le rfl hc) 0) (by decide)
  obtain ⟨m, _, _, _, hm, -, hstored, htotals, -, rfl, -⟩ := endSession_writes hend
  have hended := hwritten.step (.finish rfl hend) ⟨rfl, hfits⟩
  have hstarted := (hwritten.run.kempt (Serde.identity_roundTrips _) (by decide)).session
  have hsame : summary.totals = (2, 11, 15, 2) := by
    rw [htotals]
    change w₃.summary.totals = _
    rw [hsummary]
    rfl
  refine ⟨_, disk₄, _, _, hended, ?_, hsame, hsame, hstarted, hroom, hfree⟩
  rw [hone, htwo]
  rfl

/-- What was saved of a session with two events, ended once, agrees, after an event that was refused. -/
theorem accounts_agree_sample : ∃ w disk book e,
    Accounted sampleEnv (Serde.identity .reference) "traces.ndb" w disk book ⟨[e], [e], false⟩ ∧
      e.summary.totals = (2, 11, 15, 2) ∧ ∃ db, loadTrace sampleEnv (Serde.identity .reference) "traces.ndb"
          (haloWitnessCfg .reference none none) ⟨0, 0⟩ disk = some (.ok db) ∧
        Agrees sampleEnv sampleParse db [e] := by
  obtain ⟨w, disk, book, e, hrun, hwritten, htotals, -⟩ := exists_accounted
  exact ⟨w, disk, book, e, hrun, htotals, accounts_agree (Serde.identity_roundTrips _) sampleEnv_lawful sampleParse_reads
    (by decide) hrun (fun sessionId event hevent => ⟨event, reread_of_run hwritten sessionId event hevent, rfl⟩) none none ⟨0, 0⟩⟩

/-- The session `s` is ended again, and its day counts two sessions. -/
theorem ended_twice : ∃ w disk book e summary w' disk' db,
    Accounted sampleEnv (Serde.identity .reference) "traces.ndb" w disk book ⟨[e], [e], false⟩ ∧
      w.endSession sampleEnv (Serde.identity .reference) .completed ⟨0, 0, 1⟩ {} disk =
        (some (.ok summary), w', disk') ∧
      loadTrace sampleEnv (Serde.identity .reference) "traces.ndb" (haloWitnessCfg .reference none none)
        ⟨0, 0⟩ disk' = some (.ok db) ∧
      ∃ bucket ∈ costBuckets (P := Platform.reference) db false, bucket.label = "day" ∧ bucket.sessions.toNat = 2 := by
  have hS := Serde.identity_roundTrips .reference
  obtain ⟨w, disk, book, e, hrun, -, htotals, hagain, hstarted, hroom, hfree⟩ := exists_accounted
  have hkempt := hrun.run.kempt hS (by decide)
  have hmeta : sampleEnv.metadataToVec ((sampleStart "s").final .completed 0) = .ok (1 :: Text.utf8 "s") :=
    metadataToVec_session (by decide)
  have hwal : w.walPath = defaultWalPath w.dbPath := by rw [hkempt.paths.2, hkempt.paths.1]
  obtain ⟨hcount, htokens⟩ := Prod.mk.inj hagain
  obtain ⟨hinput, htokens⟩ := Prod.mk.inj htokens
  obtain ⟨houtput, hcache⟩ := Prod.mk.inj htokens
  have hsmall : w.summary.eventCount < 256 ∧ w.summary.totalInputTokens < 256 ∧ w.summary.totalOutputTokens < 256 ∧
      w.summary.totalCacheReadTokens < 256 := by
    rw [hcount, hinput, houtput, hcache]
    decide
  obtain ⟨summary, w', disk', hend, -⟩ := exists_endSession (E := sampleEnv) (n := 4) ⟨0, 0, 1⟩
    Platform.reference_signaturesCorrect hS (Serde.identity_writes _) hroom hwal hstarted hmeta ⟨_, if_pos hsmall, rfl⟩
    (by decide) (by rw [hkempt.paths.1]; exact hfree)
  have hbook := hkempt.step hS (by decide) (.finish (hkempt.session.symm.trans hstarted) hend)
  obtain ⟨m, _, rawSummary, db', hm, -, hstored, hsummary, hcommit, rfl, hpersist⟩ := endSession_writes hend
  have hon (ended : List (Ended .reference)) : endedOn sampleEnv ended "day" = ended :=
    List.filter_eq_self.mpr fun _ _ => decide_eq_true rfl
  have htwo : summary.totals = (2, 11, 15, 2) := by
    rw [hsummary]
    exact hagain
  have hfits : ∀ c ∈ counters, tally (endedOn sampleEnv [e] (sampleEnv.dayLabel 0)) c.2 + (c.2 summary).toNat < 2 ^ 64 := by
    intro c hc
    rw [show sampleEnv.dayLabel 0 = "day" from rfl, hon]
    exact Nat.lt_of_le_of_lt (Nat.add_le_add (amount_le htotals hc) (amount_le htwo hc)) (by decide)
  obtain ⟨_, hearlier, -⟩ := hkempt.copy
  have hcopy : Booked sampleEnv { w with summary }.db [e] :=
    (hrun.balanced hS (by decide)).copy (inStep_of_commitTo hearlier.sound hcommit).1
  have hbooked := hcopy.finish hcommit hstored hfits
  obtain ⟨_, hsaved, -⟩ := hbook.copy
  obtain ⟨_, hdisk, -⟩ := hbook.file
  obtain ⟨db, hload, -⟩ := hdisk.loadDb_eq sampleEnv none none ⟨0, 0⟩
  rw [hkempt.paths.1, hkempt.paths.2] at hpersist
  have hsums := (hbooked.of_saved hS (by decide) hsaved.backend hpersist hload).sums "day"
  have hsessions : (costBucket (P := Platform.reference) costsDailyPrefix (traceDb db) "day").sessions.toNat = 2 := by
    rw [hsums.sessions, hon]
    rfl
  have hne : (costBucket (P := Platform.reference) costsDailyPrefix (traceDb db) "day").sessions ≠ 0 := by
    intro hzero
    rw [hzero] at hsessions
    cases hsessions
  refine ⟨w, disk, book, e, summary, _, disk', traceDb db, hrun, hend, ?_, _,
    mem_costBuckets.mpr ⟨"day", mem_costLabels (by decide) hne, rfl, hne⟩, rfl, hsessions⟩
  unfold loadTrace
  rw [hload]
  rfl

end AgentHalo.Trace
