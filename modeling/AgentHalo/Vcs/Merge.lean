import AgentHalo.Vcs.Record

/-!
# Merging histories

Agents work at the same time and exchange their records, so a list of records comes in any order. `analyzeRecords` and
`materializeState` put it in the order of time stamps, and of hashes where the time stamps are equal, before they go
through it: the first collects the paths on which two records of one time stamp meet, the second what the last record
has left at each path.
-/

namespace AgentHalo.Vcs

structure PathConflict where
  path : String
  leftHash : NodeHash
  rightHash : NodeHash
  leftTimestamp : UInt64
  rightTimestamp : UInt64
deriving DecidableEq

structure MergeSnapshot where
  recordCount : Nat
  mergedCount : Nat
  conflictCount : Nat
  headHash : Option NodeHash
  conflicts : List PathConflict
deriving DecidableEq

/-- Rust's order on pairs of a time stamp and a hash. -/
def cmpRecordKey : UInt64 × NodeHash → UInt64 × NodeHash → Ordering :=
  compareLex (compareOn Prod.fst) (compareOn fun key => key.2.toList)

namespace WorkRecord

def key (record : WorkRecord) : UInt64 × NodeHash := (record.timestamp, record.hash)

def le (record other : WorkRecord) : Bool := (cmpRecordKey record.key other.key).isLE

end WorkRecord

def ordered (records : List WorkRecord) : List WorkRecord := records.mergeSort WorkRecord.le

/-! ### Analysis -/

/-- What the loop of `analyze_records` carries along. -/
structure MergeAnalysis where
  latestByPath : OrdMap String (UInt64 × NodeHash)
  conflicts : List PathConflict
  headHash : Option NodeHash
  headKey : UInt64 × NodeHash

namespace MergeAnalysis

def start : MergeAnalysis := ⟨∅, [], none, (0, Vector.replicate 32 0)⟩

def noteHead (s : MergeAnalysis) (record : WorkRecord) : MergeAnalysis :=
  if cmpRecordKey record.key s.headKey = .gt then { s with headKey := record.key, headHash := some record.hash } else s

/-- The record meets the last one at the path. -/
def touch (record : WorkRecord) (s : MergeAnalysis) (path : String) : MergeAnalysis :=
  let conflicts :=
    match s.latestByPath[path]? with
    | none => s.conflicts
    | some (prevTs, prevHash) =>
      if prevTs = record.timestamp ∧ prevHash ≠ record.hash then
        s.conflicts ++ [⟨path, prevHash, record.hash, prevTs, record.timestamp⟩]
      else s.conflicts
  { s with conflicts, latestByPath := s.latestByPath.insert path record.key }

def step (s : MergeAnalysis) (record : WorkRecord) : MergeAnalysis :=
  record.op.paths.foldl (touch record) (s.noteHead record)

end MergeAnalysis

def analyzeRecords (records : List WorkRecord) : MergeSnapshot :=
  let s := (ordered records).foldl MergeAnalysis.step .start
  { recordCount := records.length
    mergedCount := records.length - s.conflicts.length
    conflictCount := s.conflicts.length
    headHash := s.headHash
    conflicts := s.conflicts }

/-! ### Materialization -/

def applyRecordToState (state : OrdMap String (Option NodeHash)) (record : WorkRecord) : OrdMap String (Option NodeHash) :=
  match record.op with
  | .create path contentHash => state.insert path (some contentHash)
  | .modify path _ newHash _ => state.insert path (some newHash)
  | .delete path _ => state.insert path none
  | .rename oldPath newPath contentHash => (state.insert oldPath none).insert newPath (some contentHash)

def materializeState (records : List WorkRecord) : OrdMap String (Option NodeHash) :=
  (ordered records).foldl applyRecordToState ∅

/-- What the operation leaves at a path that it touches. -/
def FileOp.change (op : FileOp) (path : String) : Option NodeHash :=
  match op with
  | .create _ contentHash => some contentHash
  | .modify _ _ newHash _ => some newHash
  | .delete _ _ => none
  | .rename _ newPath contentHash => if path = newPath then some contentHash else none

/-! ### The order of records -/

section Order

variable {a b c : WorkRecord} {records records' : List WorkRecord}

instance : Std.TransCmp cmpRecordKey := inferInstanceAs (Std.TransCmp (compareLex _ _))

theorem WorkRecord.le_trans (hab : a.le b = true) (hbc : b.le c = true) : a.le c = true :=
  Std.TransCmp.isLE_trans hab hbc

theorem WorkRecord.le_total (a b : WorkRecord) : (a.le b || b.le a) = true := by
  rw [Bool.or_eq_true]
  by_cases hab : a.le b = true
  · exact .inl hab
  · exact .inr (by rw [WorkRecord.le, Std.OrientedCmp.lt_of_not_isLE hab]; rfl)

theorem WorkRecord.key_eq_of_le (hab : a.le b = true) (hba : b.le a = true) : a.key = b.key := by
  have heq : cmpRecordKey a.key b.key = .eq := Std.OrientedCmp.isLE_antisymm hab hba
  obtain ⟨htimestamp, hhash⟩ := compareLex_eq_eq.mp heq
  exact Prod.ext (Std.compare_eq_iff_eq.mp htimestamp) (Vector.toList_inj.mp (Std.compare_eq_iff_eq.mp hhash))

theorem WorkRecord.timestamp_le (hab : a.le b = true) : a.timestamp ≤ b.timestamp := by
  change ((compare a.timestamp b.timestamp).then _).isLE = true at hab
  rw [← Std.isLE_compare]
  cases hcompare : compare a.timestamp b.timestamp with
  | lt => rfl
  | eq => rfl
  | gt =>
    rw [hcompare] at hab
    cases hab

def Distinguished (records : List WorkRecord) : Prop :=
  ∀ a ∈ records, ∀ b ∈ records, a.hash = b.hash → a = b

theorem mem_ordered : a ∈ ordered records ↔ a ∈ records := List.mem_mergeSort

theorem sorted_ordered (records : List WorkRecord) : (ordered records).Pairwise fun a b => a.le b = true :=
  @List.pairwise_mergeSort _ WorkRecord.le (fun _ _ _ => WorkRecord.le_trans) WorkRecord.le_total records

theorem ordered_eq_of_perm (hrecords : Distinguished records) (h : records'.Perm records) :
    ordered records' = ordered records := by
  have hperm : (ordered records').Perm (ordered records) :=
    ((List.mergeSort_perm _ _).trans h).trans (List.mergeSort_perm _ _).symm
  refine hperm.eq_of_pairwise ?_ (sorted_ordered records') (sorted_ordered records)
  intro a b ha hb hab hba
  exact hrecords a (h.mem_iff.mp (mem_ordered.mp ha)) b (mem_ordered.mp hb)
    (Prod.mk.inj (WorkRecord.key_eq_of_le hab hba)).2

end Order

/-! ### The last record at a path -/

def lastAt (path : String) (records : List WorkRecord) : Option WorkRecord :=
  (records.filter fun record => path ∈ record.op.paths).getLast?

/-- Two records with different hashes and one time stamp touch the path. -/
def Clash (records : List WorkRecord) (path : String) : Prop :=
  ∃ a ∈ records, ∃ b ∈ records, a.hash ≠ b.hash ∧ a.timestamp = b.timestamp ∧ path ∈ a.op.paths ∧ path ∈ b.op.paths

section Last

variable {path : String} {records : List WorkRecord} {record : WorkRecord}

theorem lastAt_concat (path : String) (records : List WorkRecord) (record : WorkRecord) :
    lastAt path (records ++ [record]) = if path ∈ record.op.paths then some record else lastAt path records := by
  unfold lastAt
  split_ifs with h
  · rw [List.filter_append, List.filter_cons_of_pos (by simpa using h), List.filter_nil, List.getLast?_concat]
  · rw [List.filter_append, List.filter_cons_of_neg (by simpa using h), List.filter_nil, List.append_nil]

theorem lastAt_some (h : lastAt path records = some record) : record ∈ records ∧ path ∈ record.op.paths := by
  obtain ⟨hmem, htouches⟩ := List.mem_filter.mp (List.mem_of_getLast? h)
  exact ⟨hmem, of_decide_eq_true htouches⟩

theorem exists_lastAt (hmem : record ∈ records) (htouches : path ∈ record.op.paths) :
    ∃ last, lastAt path records = some last := by
  have hne : records.filter (fun record => path ∈ record.op.paths) ≠ [] :=
    List.ne_nil_of_mem (List.mem_filter.mpr ⟨hmem, decide_eq_true htouches⟩)
  exact ⟨_, List.getLast?_eq_some_getLast hne⟩

theorem le_lastAt (hsorted : records.Pairwise fun a b => a.le b = true) {last : WorkRecord}
    (hlast : lastAt path records = some last) (hmem : record ∈ records) (htouches : path ∈ record.op.paths) :
    record.le last = true := by
  have hfiltered : record ∈ records.filter fun record => path ∈ record.op.paths :=
    List.mem_filter.mpr ⟨hmem, decide_eq_true htouches⟩
  have hends := List.dropLast_append_getLast? last hlast
  have hpairwise := hsorted.filter fun record => decide (path ∈ record.op.paths)
  rw [← hends] at hfiltered hpairwise
  rcases List.mem_append.mp hfiltered with hbefore | hat
  · exact (List.pairwise_append.mp hpairwise).2.2 record hbefore last (List.mem_singleton_self last)
  · rw [List.mem_singleton.mp hat]
    exact (Bool.or_self _).symm.trans (WorkRecord.le_total last last)

theorem clash_concat (hsorted : (records ++ [record]).Pairwise fun a b => a.le b = true) :
    Clash (records ++ [record]) path ↔ Clash records path ∨ (path ∈ record.op.paths ∧ ∃ last,
      lastAt path records = some last ∧ last.timestamp = record.timestamp ∧ last.hash ≠ record.hash) := by
  obtain ⟨hbefore, -, hafter⟩ := List.pairwise_append.mp hsorted
  have hle : ∀ a ∈ records, a.le record = true := fun a ha => hafter a ha record (List.mem_singleton_self record)
  have hmeets : ∀ a ∈ records, a.hash ≠ record.hash → a.timestamp = record.timestamp → path ∈ a.op.paths →
      path ∈ record.op.paths → Clash records path ∨ (path ∈ record.op.paths ∧ ∃ last,
        lastAt path records = some last ∧ last.timestamp = record.timestamp ∧ last.hash ≠ record.hash) := by
    intro a ha hhash htimestamp htouches hrecord
    obtain ⟨last, hlast⟩ := exists_lastAt ha htouches
    obtain ⟨hlastMem, hlastTouches⟩ := lastAt_some hlast
    have hsame : last.timestamp = record.timestamp := by
      refine UInt64.le_antisymm (WorkRecord.timestamp_le (hle last hlastMem)) ?_
      rw [← htimestamp]
      exact WorkRecord.timestamp_le (le_lastAt hbefore hlast ha htouches)
    by_cases hlastHash : last.hash = record.hash
    · exact .inl ⟨a, ha, last, hlastMem, by rwa [hlastHash], htimestamp.trans hsame.symm, htouches, hlastTouches⟩
    · exact .inr ⟨hrecord, last, hlast, hsame, hlastHash⟩
  constructor
  · rintro ⟨a, ha, b, hb, hhash, htimestamp, htouches, htouches'⟩
    rw [List.mem_append, List.mem_singleton] at ha hb
    rcases ha with ha | rfl
    · rcases hb with hb | rfl
      · exact .inl ⟨a, ha, b, hb, hhash, htimestamp, htouches, htouches'⟩
      · exact hmeets a ha hhash htimestamp htouches htouches'
    · rcases hb with hb | rfl
      · exact hmeets b hb hhash.symm htimestamp.symm htouches' htouches
      · exact absurd rfl hhash
  · rintro (⟨a, ha, b, hb, hclash⟩ | ⟨htouches, last, hlast, htimestamp, hhash⟩)
    · exact ⟨a, List.mem_append_left _ ha, b, List.mem_append_left _ hb, hclash⟩
    · obtain ⟨hmem, hlastTouches⟩ := lastAt_some hlast
      exact ⟨last, List.mem_append_left _ hmem, record, List.mem_append_right _ (List.mem_singleton_self record), hhash,
        htimestamp, hlastTouches, htouches⟩

end Last

/-! ### One record -/

namespace MergeAnalysis

variable {record : WorkRecord} {path : String}

def Reports (conflicts : List PathConflict) (path : String) : Prop := ∃ conflict ∈ conflicts, conflict.path = path

/-- The record has the time stamp of the last one at the path, and another hash. -/
def Meets (s : MergeAnalysis) (record : WorkRecord) (path : String) : Prop :=
  ∃ prev, s.latestByPath[path]? = some prev ∧ prev.1 = record.timestamp ∧ prev.2 ≠ record.hash

theorem touch_latest (s : MergeAnalysis) (target : String) :
    (s.touch record target).latestByPath[path]? = if target = path then some record.key else s.latestByPath[path]? :=
  OrdMap.get?_insert _ target path _

theorem touch_reports (s : MergeAnalysis) (target : String) :
    Reports (s.touch record target).conflicts path ↔
      Reports s.conflicts path ∨ (target = path ∧ s.Meets record path) := by
  unfold touch Meets
  dsimp only
  by_cases hat : target = path
  · subst hat
    cases hlatest : s.latestByPath[target]? with
    | none => simp
    | some prev =>
      obtain ⟨prevTs, prevHash⟩ := prev
      dsimp only
      split_ifs with hmeets
      · simp [Reports, hmeets, or_and_right, exists_or]
      · simp [hmeets]
  · have hother : ∀ conflict : PathConflict, conflict.path = target →
        (Reports (s.conflicts ++ [conflict]) path ↔ Reports s.conflicts path) := by
      intro conflict hconflict
      simp [Reports, or_and_right, exists_or, hconflict, hat]
    simp only [hat, false_and, or_false]
    cases s.latestByPath[target]? with
    | none => exact Iff.rfl
    | some prev =>
      dsimp only
      split_ifs
      · exact hother _ rfl
      · exact Iff.rfl

theorem foldl_touch (paths : List String) (s : MergeAnalysis) :
    (paths.foldl (touch record) s).latestByPath[path]? =
        (if path ∈ paths then some record.key else s.latestByPath[path]?) ∧
      (Reports (paths.foldl (touch record) s).conflicts path ↔
        Reports s.conflicts path ∨ (path ∈ paths ∧ s.Meets record path)) := by
  induction paths generalizing s with
  | nil => simp
  | cons first rest ih =>
    obtain ⟨hlatest, hreports⟩ := ih (s.touch record first)
    rw [List.foldl_cons]
    refine ⟨?_, ?_⟩
    · rw [hlatest, touch_latest]
      by_cases hrest : path ∈ rest
      · simp [hrest]
      · simp [hrest, eq_comm]
    · rw [hreports, touch_reports]
      by_cases hfirst : first = path
      · subst hfirst
        have hself : ¬ (s.touch record first).Meets record first := by
          rintro ⟨prev, hprev, -, hhash⟩
          rw [touch_latest, if_pos rfl] at hprev
          obtain rfl := Option.some.inj hprev
          exact hhash rfl
        simp [hself]
      · have hsame : (s.touch record first).Meets record path ↔ s.Meets record path := by
          unfold Meets
          rw [touch_latest, if_neg hfirst]
        simp [hfirst, hsame, Ne.symm hfirst]

theorem step_latest (s : MergeAnalysis) (record : WorkRecord) (path : String) :
    (s.step record).latestByPath[path]? = if path ∈ record.op.paths then some record.key else s.latestByPath[path]? := by
  have hnote : (s.noteHead record).latestByPath = s.latestByPath := by
    unfold noteHead
    split_ifs <;> rfl
  rw [step, (foldl_touch record.op.paths _).1, hnote]

theorem step_reports (s : MergeAnalysis) (record : WorkRecord) (path : String) :
    Reports (s.step record).conflicts path ↔
      Reports s.conflicts path ∨ (path ∈ record.op.paths ∧ s.Meets record path) := by
  have hnote : (s.noteHead record).conflicts = s.conflicts ∧ ((s.noteHead record).Meets record path ↔
      s.Meets record path) := by
    unfold noteHead
    split_ifs <;> exact ⟨rfl, Iff.rfl⟩
  rw [step, (foldl_touch record.op.paths _).2, hnote.1, hnote.2]

/-- What has been seen of an ordered history: the last record at each path, and where two have clashed. -/
structure Exact (records : List WorkRecord) (s : MergeAnalysis) : Prop where
  latest : ∀ path, s.latestByPath[path]? = (lastAt path records).map WorkRecord.key
  reports : ∀ path, Reports s.conflicts path ↔ Clash records path

theorem exact_foldl {records : List WorkRecord} (hsorted : records.Pairwise fun a b => a.le b = true) :
    Exact records (records.foldl step start) := by
  induction records using List.reverseRecOn with
  | nil => exact ⟨fun path => Std.ExtTreeMap.getElem?_empty, fun path => by simp [Reports, Clash, start]⟩
  | append_singleton records record ih =>
    have hbefore := ih (List.pairwise_append.mp hsorted).1
    rw [List.foldl_append, List.foldl_cons, List.foldl_nil]
    refine ⟨fun path => ?_, fun path => ?_⟩
    · rw [step_latest, hbefore.latest, lastAt_concat]
      split_ifs <;> rfl
    · rw [step_reports, hbefore.reports, clash_concat hsorted]
      unfold Meets
      rw [hbefore.latest]
      simp [WorkRecord.key]

end MergeAnalysis

theorem applyRecordToState_get (state : OrdMap String (Option NodeHash)) (record : WorkRecord) (path : String) :
    (applyRecordToState state record)[path]? =
      if path ∈ record.op.paths then some (record.op.change path) else state[path]? := by
  unfold applyRecordToState
  cases record.op with
  | create target hash => simp [FileOp.paths, FileOp.change, OrdMap.get?_insert, eq_comm]
  | modify target oldHash newHash patch => simp [FileOp.paths, FileOp.change, OrdMap.get?_insert, eq_comm]
  | delete target hash => simp [FileOp.paths, FileOp.change, OrdMap.get?_insert, eq_comm]
  | rename oldPath newPath hash =>
    dsimp only [FileOp.paths, FileOp.change]
    rw [OrdMap.get?_insert, OrdMap.get?_insert]
    by_cases hnew : newPath = path
    · simp [hnew]
    · simp [hnew, Ne.symm hnew, eq_comm]

theorem foldl_applyRecordToState (records : List WorkRecord) (path : String) :
    (records.foldl applyRecordToState ∅)[path]? = (lastAt path records).map (·.op.change path) := by
  induction records using List.reverseRecOn with
  | nil => exact Std.ExtTreeMap.getElem?_empty
  | append_singleton records record ih =>
    rw [List.foldl_append, List.foldl_cons, List.foldl_nil, applyRecordToState_get, lastAt_concat, ih]
    split_ifs <;> rfl

/-! ### Whole histories -/

/-- **Merging does not depend on the order in which records have come in, and it is exact**: a conflict is reported on
just the paths where two records of one time stamp meet, and each path is left as the greatest record there leaves it. -/
theorem merge_exact {records : List WorkRecord} (hrecords : Distinguished records) :
    (∀ records', records'.Perm records →
      analyzeRecords records' = analyzeRecords records ∧ materializeState records' = materializeState records) ∧
    (∀ path, (∃ conflict ∈ (analyzeRecords records).conflicts, conflict.path = path) ↔
      ∃ a ∈ records, ∃ b ∈ records, a.hash ≠ b.hash ∧ a.timestamp = b.timestamp ∧ path ∈ a.op.paths ∧
        path ∈ b.op.paths) ∧
    (∀ path, ∀ record ∈ records, path ∈ record.op.paths →
      (∀ other ∈ records, path ∈ other.op.paths → other.le record = true) →
      (materializeState records)[path]? = some (record.op.change path)) ∧
    ∀ path, (∀ record ∈ records, path ∉ record.op.paths) → (materializeState records)[path]? = none := by
  refine ⟨fun records' hperm => ?_, fun path => ?_, fun path record hmem htouches hgreatest => ?_,
    fun path huntouched => ?_⟩
  · have hordered := ordered_eq_of_perm hrecords hperm
    unfold analyzeRecords materializeState
    rw [hordered, hperm.length_eq]
    exact ⟨rfl, rfl⟩
  · refine ((MergeAnalysis.exact_foldl (sorted_ordered records)).reports path).trans ?_
    unfold Clash
    simp only [mem_ordered]
  · obtain ⟨last, hlast⟩ := exists_lastAt (mem_ordered.mpr hmem) htouches
    obtain ⟨hlastMem, hlastTouches⟩ := lastAt_some hlast
    have hkey := WorkRecord.key_eq_of_le (le_lastAt (sorted_ordered records) hlast (mem_ordered.mpr hmem) htouches)
      (hgreatest last (mem_ordered.mp hlastMem) hlastTouches)
    obtain rfl := hrecords record hmem last (mem_ordered.mp hlastMem) (Prod.mk.inj hkey).2
    rw [materializeState, foldl_applyRecordToState, hlast]
    rfl
  · rw [materializeState, foldl_applyRecordToState, Option.map_eq_none_iff, Option.eq_none_iff_forall_ne_some]
    intro last hlast
    obtain ⟨hmem, htouches⟩ := lastAt_some hlast
    exact huntouched last (mem_ordered.mp hmem) htouches

/-- A file that one agent writes and another one deletes at the same time. -/
def contested : List WorkRecord :=
  [⟨Vector.replicate 32 1, [], Vector.replicate 32 7, 5, .create "file" (Vector.replicate 32 9), none⟩,
    ⟨Vector.replicate 32 2, [], Vector.replicate 32 8, 5, .delete "file" (Vector.replicate 32 9), none⟩]

theorem merge_exact_contested :
    (∃ conflict ∈ (analyzeRecords contested).conflicts, conflict.path = "file") ∧
      analyzeRecords contested.reverse = analyzeRecords contested := by
  have hcontested : Distinguished contested := by
    unfold Distinguished contested
    decide
  refine ⟨((merge_exact hcontested).2.1 "file").mpr ?_, ((merge_exact hcontested).1 _ (List.reverse_perm _)).1⟩
  unfold contested
  decide

end AgentHalo.Vcs
