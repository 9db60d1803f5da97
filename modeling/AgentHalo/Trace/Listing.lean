import AgentHalo.Trace.Blobs
import Mathlib.Data.List.Destutter

/-!
# What the readers list

A reader of the trace goes through the keys and takes those with its prefix that end in `:len`. On a database that shows a
shelf it reads the shelf: the sessions and the paid operations through the base keys that it comes to, the events of a session
through their numbers, in order and once each.
-/

namespace AgentHalo.Trace

open Attest (TraceDb readBlob eventSeqs afterLast sessionPrefix eventPrefix eventBaseKey)
open Engine (NucleusDb)
open Text (startsWith endsWith trimEndMatchesStr)

variable {P : Platform} {Q : String → Prop} {db : NucleusDb P} {shelf : List (String × Bytes)}

/-! ### Base keys -/

def scannedBases (keyPrefix : String) (db : TraceDb) : List String :=
  db.keymap.allKeys.filterMap fun entry =>
    if startsWith entry.1 keyPrefix && endsWith entry.1 ":len" then some (trimEndMatchesStr ":len" entry.1) else none

theorem scanBlobs_eq (keyPrefix : String) (db : TraceDb) :
    scanBlobs keyPrefix db = (scannedBases keyPrefix db).mapM (readBlob db) := rfl

variable {base keyPrefix : String}

theorem mem_scannedBases {db : NucleusDb P} : base ∈ scannedBases keyPrefix (traceDb db) ↔
    ∃ listed, startsWith (listed ++ ":len") keyPrefix = true ∧
      (db.keymap.get (listed ++ ":len")).isSome ∧ trimEndMatchesStr ":len" (listed ++ ":len") = base := by
  unfold scannedBases
  rw [List.mem_filterMap]
  constructor
  · rintro ⟨⟨key, idx⟩, hmem, hentry⟩
    split at hentry
    · rename_i hform
      obtain ⟨hstarts, hends⟩ := Bool.and_eq_true_iff.mp hform
      obtain ⟨listed, rfl⟩ := (Text.endsWith_iff _ _).mp hends
      refine ⟨listed, hstarts, ?_, Option.some.inj hentry⟩
      rw [(Store.KeyMap.mem_allKeys db.keymap _ _).mp hmem]
      rfl
    · cases hentry
  · rintro ⟨listed, hstarts, hread, rfl⟩
    obtain ⟨idx, hidx⟩ := Option.isSome_iff_exists.mp hread
    refine ⟨(listed ++ ":len", idx), (Store.KeyMap.mem_allKeys db.keymap _ _).mpr hidx, ?_⟩
    exact if_pos (Bool.and_eq_true_iff.mpr ⟨hstarts, (Text.endsWith_iff _ _).mpr ⟨listed, rfl⟩⟩)

theorem ends_len (base : String) : endsWith (base ++ ":len") ":len" = true := (Text.endsWith_iff _ _).mpr ⟨base, rfl⟩

theorem not_endsWith_of_mem_scannedBases (h : base ∈ scannedBases keyPrefix (traceDb db)) :
    endsWith base ":len" = false := by
  obtain ⟨listed, -, -, rfl⟩ := mem_scannedBases.mp h
  exact Text.endsWith_trimEndMatchesStr (by decide) _

theorem under_of_mem_scannedBases (hpre : ¬ [':', 'l'] <:+: keyPrefix.toList)
    (h : base ∈ scannedBases keyPrefix (traceDb db)) : Under keyPrefix base := by
  obtain ⟨listed, hstarts, -, rfl⟩ := mem_scannedBases.mp h
  exact under_trimmed hpre hstarts (ends_len listed)

theorem mem_scannedBases_of_get (hunder : Under keyPrefix base) (hget : (db.keymap.get (base ++ ":len")).isSome)
    (hbase : endsWith base ":len" = false) : base ∈ scannedBases keyPrefix (traceDb db) :=
  mem_scannedBases.mpr
    ⟨base, hunder.startsWith_key (.inl rfl), hget, Text.trimEndMatchesStr_append (by decide) hbase⟩

theorem nodup_scannedBases (hclean : ∀ base, startsWith (base ++ ":len") keyPrefix = true →
      (db.keymap.get (base ++ ":len")).isSome → endsWith base ":len" = false) :
    (scannedBases keyPrefix (traceDb db)).Nodup := by
  have hentry : ∀ {entry : String × Nat} {base : String}, entry ∈ (traceDb db).keymap.allKeys →
      (if startsWith entry.1 keyPrefix && endsWith entry.1 ":len" then some (trimEndMatchesStr ":len" entry.1) else none) =
        some base → entry.1 = base ++ ":len" := by
    rintro ⟨key, idx⟩ base hmem hbase
    split at hbase
    · rename_i hform
      obtain ⟨hstarts, hends⟩ := Bool.and_eq_true_iff.mp hform
      obtain ⟨listed, rfl⟩ := (Text.endsWith_iff _ _).mp hends
      have hget : (db.keymap.get (listed ++ ":len")).isSome := by
        rw [(Store.KeyMap.mem_allKeys db.keymap _ _).mp hmem]
        rfl
      rw [← Option.some.inj hbase, Text.trimEndMatchesStr_append (by decide) (hclean listed hstarts hget)]
    · cases hbase
  unfold scannedBases List.Nodup
  rw [List.pairwise_filterMap]
  refine List.Pairwise.imp_of_mem ?_ (OrdMap.toList_distinct (traceDb db).keymap.forward)
  rintro a b ha hb hne base hbase base' hbase' rfl
  exact hne ((hentry ha hbase).trans (hentry hb hbase').symm)

/-! ### Scans of a shelf -/

/-- The lengths of the bytes that were put last are words. -/
def Fits (Q : String → Prop) (shelf : List (String × Bytes)) : Prop :=
  ∀ base raw, Q base → Writes.last shelf base = some raw → raw.length < 2 ^ 64

theorem Shows.mapM_readBlob (h : Shows Q db shelf) (hfits : Fits Q shelf) {bases : List String}
    (hQ : ∀ base ∈ bases, Q base) : ∃ blobs, bases.mapM (readBlob (traceDb db)) = .ok blobs ∧
      ∀ {α : Type} (fromSlice : Bytes → Option α), fromSlice [] = none →
        parseBlobs fromSlice blobs = parseBlobs fromSlice (bases.map (Writes.last shelf)) := by
  have hread : ∀ base ∈ bases, readBlob (traceDb db) base = .ok (readBlob (traceDb db) base).toOption.join := by
    intro base hbase
    rcases h.readBlob_eq (hQ base hbase) fun raw hlast => hfits base raw (hQ base hbase) hlast with hok | ⟨-, hok⟩
    · rw [hok]
      rfl
    · rw [hok]
      rfl
  refine ⟨_, Outcome.mapM_eq_ok hread, fun fromSlice hempty => ?_⟩
  unfold parseBlobs
  rw [List.filterMap_map, List.filterMap_map]
  refine List.filterMap_congr fun base hbase => ?_
  dsimp only [Function.comp]
  rcases h.readBlob_eq (hQ base hbase) fun raw hlast => hfits base raw (hQ base hbase) hlast with hok | ⟨hlast, hok⟩
  · rw [hok]
    rfl
  · rw [hok, hlast]
    exact hempty

theorem mem_parseBlobs {α : Type} {fromSlice : Bytes → Option α} {bases : List String} {record : α} :
    record ∈ parseBlobs fromSlice (bases.map (Writes.last shelf)) ↔
      ∃ base ∈ bases, ∃ raw, Writes.last shelf base = some raw ∧ fromSlice raw = some record := by
  unfold parseBlobs
  simp only [List.mem_filterMap, List.mem_map, exists_exists_and_eq_and, Option.bind_eq_some_iff]

variable (E : TraceEnv P)

theorem Shows.listSessions_eq (h : Shows Q db shelf) (hfits : Fits Q shelf) (hQ : ∀ base, Under sessionPrefix base → Q base)
    (hempty : E.metadataFromSlice [] = none) : listSessions E (traceDb db) = .ok ((parseBlobs E.metadataFromSlice
      ((scannedBases sessionPrefix (traceDb db)).map (Writes.last shelf))).mergeSort fun a b => b.startedAt ≤ a.startedAt) := by
  obtain ⟨blobs, hblobs, hparse⟩ := h.mapM_readBlob hfits fun base hbase =>
    hQ base (under_of_mem_scannedBases (by decide) hbase)
  unfold listSessions
  rw [scanBlobs_eq, hblobs]
  exact congrArg (fun sessions => Except.ok (List.mergeSort sessions _)) (hparse _ hempty)

/-! ### Events by number -/

theorem afterLast_append {front last : String} (h : ':' ∉ last.toList) :
    afterLast ':' (front ++ ":" ++ last) = some last := by
  have hlist : (front ++ ":" ++ last).toList = front.toList ++ ':' :: last.toList := by simp [String.toList_append]
  have hall : ∀ c ∈ last.toList.reverse, (c != ':') = true := by
    intro c hc
    rw [bne_iff_ne]
    rintro rfl
    exact h (List.mem_reverse.mp hc)
  unfold afterLast
  rw [hlist, if_pos (by simp), List.reverse_append, List.reverse_cons, List.append_assoc,
    List.takeWhile_append_of_pos hall]
  simp

theorem sortDedup_spec (found : List UInt64) :
    ((found.mergeSort fun a b => decide (a ≤ b)).destutter (· ≠ ·)).Pairwise (· < ·) ∧
      ∀ seq, seq ∈ (found.mergeSort fun a b => decide (a ≤ b)).destutter (· ≠ ·) ↔ seq ∈ found := by
  have hsorted : (found.mergeSort fun a b => decide (a ≤ b)).Pairwise (· ≤ ·) := by
    refine (List.pairwise_mergeSort (fun a b c hab hbc => ?_) (fun a b => ?_) found).imp of_decide_eq_true
    · exact decide_eq_true (UInt64.le_trans (of_decide_eq_true hab) (of_decide_eq_true hbc))
    · simpa using UInt64.le_total a b
  rw [hsorted.destutter_eq_dedup]
  constructor
  · have hle := hsorted.sublist (List.dedup_sublist _)
    exact (hle.and (List.nodup_dedup _)).imp fun h => UInt64.lt_of_le_of_ne h.1 h.2
  · intro seq
    rw [List.mem_dedup, List.mem_mergeSort]

theorem pairwise_eventSeqs (db : TraceDb) (sessionId : String) : (eventSeqs db sessionId).Pairwise (· < ·) :=
  (sortDedup_spec _).1

theorem mem_eventSeqs {sessionId : String} {seq : UInt64}
    (hget : (db.keymap.get (eventBaseKey sessionId seq ++ ":len")).isSome) :
    seq ∈ eventSeqs (traceDb db) sessionId := by
  have hcolon : ':' ∉ (toString seq).toList := Text.colon_not_mem_toString seq.toNat
  have hbase : endsWith (eventBaseKey sessionId seq) ":len" = false := by
    rw [← Bool.not_eq_true]
    intro hends
    obtain ⟨front, hfront⟩ := (Text.endsWith_iff _ _).mp hends
    rw [append_len] at hfront
    exact len_ne_toString seq.toNat (lastColon_inj hcolon colon_not_mem_len hfront).2.symm
  obtain ⟨idx, hidx⟩ := Option.isSome_iff_exists.mp hget
  refine ((sortDedup_spec _).2 seq).mpr (List.mem_filterMap.mpr
    ⟨(eventBaseKey sessionId seq ++ ":len", idx), (Store.KeyMap.mem_allKeys db.keymap _ _).mpr hidx, ?_⟩)
  have hstarts : startsWith (eventBaseKey sessionId seq ++ ":len") (eventPrefix ++ sessionId ++ ":") = true := by
    unfold eventBaseKey
    rw [String.append_assoc]
    exact Text.startsWith_append _ _
  rw [if_pos (Bool.and_eq_true_iff.mpr ⟨hstarts, ends_len _⟩), Text.trimEndMatchesStr_append (by decide) hbase]
  unfold eventBaseKey
  rw [afterLast_append hcolon, Option.bind_some, Text.parseU64_toString]

theorem Shows.isSome_get (h : Shows Q db shelf) (hQ : Q base) (hlast : (Writes.last shelf base).isSome) :
    (db.keymap.get (base ++ ":len")).isSome := by
  obtain ⟨raw, hraw⟩ := Option.isSome_iff_exists.mp hlast
  refine isSome_get_of_read ?_
  rw [h.blob hQ hraw _ List.mem_cons_self]
  rfl

theorem under_eventBaseKey (sessionId : String) (seq : UInt64) : Under eventPrefix (eventBaseKey sessionId seq) := by
  unfold eventBaseKey
  rw [String.append_assoc, String.append_assoc]
  exact under_append _ _

theorem Shows.sessionEvents_eq (h : Shows Q db shelf) (hfits : Fits Q shelf) (hQ : ∀ base, Under eventPrefix base → Q base)
    (hempty : E.eventFromSlice [] = none) (sessionId : String) :
    sessionEvents E (traceDb db) sessionId = .ok ((eventSeqs (traceDb db) sessionId).filterMap
      fun seq => (Writes.last shelf (eventBaseKey sessionId seq)).bind E.eventFromSlice) := by
  have hbases : ∀ base ∈ (eventSeqs (traceDb db) sessionId).map (eventBaseKey sessionId), Q base := by
    intro base hbase
    obtain ⟨seq, -, rfl⟩ := List.mem_map.mp hbase
    exact hQ _ (under_eventBaseKey sessionId seq)
  obtain ⟨blobs, hblobs, hparse⟩ := h.mapM_readBlob hfits hbases
  rw [List.mapM_map] at hblobs
  unfold sessionEvents
  change ((eventSeqs (traceDb db) sessionId).mapM (readBlob (traceDb db) ∘ eventBaseKey sessionId)).bind
    (fun blobs => Except.ok (parseBlobs E.eventFromSlice blobs)) = _
  rw [hblobs]
  refine congrArg Except.ok ((hparse _ hempty).trans ?_)
  unfold parseBlobs
  rw [List.filterMap_map, List.filterMap_map]
  rfl

theorem filterMap_numbered {α : Type} {seqs numbers : List UInt64} {read : UInt64 → Option α}
    (hseqs : seqs.Pairwise (· < ·)) (hnumbers : numbers.Pairwise (· < ·)) (hmem : ∀ n ∈ numbers, n ∈ seqs)
    (hread : ∀ n, n ∉ numbers → read n = none) : seqs.filterMap read = numbers.filterMap read := by
  have hfilter : seqs.filter (· ∈ numbers) = numbers := by
    refine OrdMap.eq_of_sorted_of_mem_iff UInt64.lt_irrefl (fun a b c => UInt64.lt_trans) (hseqs.filter _) hnumbers ?_
    intro n
    rw [List.mem_filter, decide_eq_true_eq]
    exact ⟨And.right, fun hn => ⟨hmem n hn, hn⟩⟩
  rw [← hfilter, List.filterMap_filter]
  refine List.filterMap_congr fun n _ => ?_
  split
  · rfl
  · rename_i hn
    exact hread n (by simpa using hn)

end AgentHalo.Trace
