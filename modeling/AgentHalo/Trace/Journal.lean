import AgentHalo.Trace.Listing

/-!
# The journal of a trace

What has been recorded is a journal: the sessions, each with the metadata that was last written for it, and the events with
their numbers. On a database that shows a shelf with the records of a journal the events of a session are read in order,
as far as they parse, whatever the session ids are. The journal is read back unless the base key of a session ends in
`:len`, which is then not listed, or an event does not parse as it was written (`readsBack_iff_of_shows`).
-/

namespace AgentHalo.Trace

open Attest (TraceDb sessionPrefix eventPrefix eventBaseKey)
open Engine (NucleusDb)
open Text (startsWith endsWith)
open Writes (last_concat last)

variable {P : Platform}

/-! ### Journals -/

/-- An event as it was handed in, with its session, its number, and the time at which it was written. -/
structure WrittenEvent (P : Platform) where
  sessionId : String
  seq : UInt64
  event : TraceEvent P
  now : UInt64

def WrittenEvent.recorded (e : WrittenEvent P) : TraceEvent P := e.event.stamped e.seq e.now

structure Journal (P : Platform) where
  sessions : List SessionMetadata := []
  written : List (WrittenEvent P) := []

variable {e : WrittenEvent P} {sessionId : String}

namespace Journal

def writtenTo (j : Journal P) (sessionId : String) : List (WrittenEvent P) :=
  j.written.filter fun e => e.sessionId = sessionId

/-- The events of a session, as they were recorded. -/
def eventsOf (j : Journal P) (sessionId : String) : List (TraceEvent P) := (j.writtenTo sessionId).map (·.recorded)

def started (j : Journal P) (sessionMeta : SessionMetadata) : Journal P :=
  { j with sessions := j.sessions ++ [sessionMeta] }

def wrote (j : Journal P) (e : WrittenEvent P) : Journal P := { j with written := j.written ++ [e] }

/-- The metadata of a session is replaced. -/
def ended (j : Journal P) (final : SessionMetadata) : Journal P :=
  { j with sessions := j.sessions.map fun m => if m.sessionId = final.sessionId then final else m }

theorem writtenTo_wrote_same (j : Journal P) (e : WrittenEvent P) :
    (j.wrote e).writtenTo e.sessionId = j.writtenTo e.sessionId ++ [e] := by
  unfold writtenTo wrote
  rw [List.filter_append, List.filter_cons_of_pos (by simp), List.filter_nil]

theorem writtenTo_wrote_other (j : Journal P) (hne : e.sessionId ≠ sessionId) :
    (j.wrote e).writtenTo sessionId = j.writtenTo sessionId := by
  unfold writtenTo wrote
  rw [List.filter_append, List.filter_cons_of_neg (by simpa using hne), List.filter_nil, List.append_nil]

theorem eventsOf_wrote_same (j : Journal P) (e : WrittenEvent P) :
    (j.wrote e).eventsOf e.sessionId = j.eventsOf e.sessionId ++ [e.recorded] := by
  unfold eventsOf
  rw [writtenTo_wrote_same, List.map_append, List.map_singleton]

theorem eventsOf_wrote_other (j : Journal P) (hne : e.sessionId ≠ sessionId) :
    (j.wrote e).eventsOf sessionId = j.eventsOf sessionId := by
  unfold eventsOf
  rw [writtenTo_wrote_other j hne]

/-- The events of every session are numbered from one. -/
def Numbered (j : Journal P) : Prop :=
  ∀ sessionId, (j.eventsOf sessionId).map (·.seq.toNat) = List.range' 1 (j.eventsOf sessionId).length

variable {j : Journal P}

theorem Numbered.wrote (h : j.Numbered) (hseq : e.seq.toNat = (j.eventsOf e.sessionId).length + 1) :
    (j.wrote e).Numbered := by
  intro sessionId
  by_cases hsession : e.sessionId = sessionId
  · subst hsession
    rw [j.eventsOf_wrote_same, List.map_append, List.length_append, h, List.map_singleton]
    change _ ++ [e.seq.toNat] = _
    rw [hseq, List.length_singleton, List.range'_concat, Nat.one_mul, Nat.add_comm 1]
  · rw [j.eventsOf_wrote_other hsession]
    exact h sessionId

theorem ids_ended (j : Journal P) (final : SessionMetadata) :
    (j.ended final).sessions.map (·.sessionId) = j.sessions.map (·.sessionId) := by
  unfold ended
  rw [List.map_map]
  refine List.map_congr_left fun m _ => ?_
  dsimp only [Function.comp]
  split
  · rename_i heq
    exact heq.symm
  · rfl

/-- The ids of the sessions and of the events are among those used. -/
def Within (j : Journal P) (used : List String) : Prop :=
  (∀ m ∈ j.sessions, m.sessionId ∈ used) ∧ ∀ e ∈ j.written, e.sessionId ∈ used

theorem within_nil (used : List String) : ({} : Journal P).Within used :=
  ⟨fun _ hm => absurd hm List.not_mem_nil, fun _ he => absurd he List.not_mem_nil⟩

variable {used : List String}

theorem Within.cons (h : j.Within used) (sessionId : String) : j.Within (sessionId :: used) :=
  ⟨fun m hm => List.mem_cons_of_mem _ (h.1 m hm), fun e he => List.mem_cons_of_mem _ (h.2 e he)⟩

theorem Within.writtenTo_eq_nil (h : j.Within used) (hfresh : sessionId ∉ used) :
    j.writtenTo sessionId = [] := by
  unfold writtenTo
  rw [List.filter_eq_nil_iff]
  intro e he
  rw [decide_eq_true_eq]
  rintro rfl
  exact hfresh (h.2 e he)

theorem Within.eventsOf_eq_nil (h : j.Within used) (hfresh : sessionId ∉ used) : j.eventsOf sessionId = [] := by
  unfold eventsOf
  rw [h.writtenTo_eq_nil hfresh]
  rfl

theorem Within.ended (h : j.Within used) (final : SessionMetadata) : (j.ended final).Within used := by
  refine ⟨fun m hm => ?_, h.2⟩
  have hid : m.sessionId ∈ (j.ended final).sessions.map (·.sessionId) := List.mem_map_of_mem hm
  rw [ids_ended] at hid
  obtain ⟨m', hm', hid'⟩ := List.mem_map.mp hid
  rw [← hid']
  exact h.1 m' hm'

end Journal

/-! ### Journals and shelves -/

/-- The base keys of sessions and events. -/
def Kept (base : String) : Prop := Under sessionPrefix base ∨ Under eventPrefix base

theorem kept_sessionBaseKey (sessionId : String) : Kept (sessionBaseKey sessionId) := .inl (under_append _ _)

theorem kept_eventBaseKey (sessionId : String) (seq : UInt64) : Kept (eventBaseKey sessionId seq) :=
  .inr (under_eventBaseKey sessionId seq)

variable {a b : String} {m : SessionMetadata} {raw : Bytes}

theorem sessionBaseKey_inj (h : sessionBaseKey a = sessionBaseKey b) : a = b :=
  (String.append_right_inj _).mp h

theorem eventBaseKey_inj {i j : UInt64} (h : eventBaseKey a i = eventBaseKey b j) : a = b ∧ i = j := by
  obtain ⟨hfront, hnumber⟩ :=
    lastColon_inj (Text.colon_not_mem_toString i.toNat) (Text.colon_not_mem_toString j.toNat) h
  exact ⟨(String.append_right_inj _).mp hfront, Text.toString_u64_inj hnumber⟩

theorem sessionBaseKey_ne_eventBaseKey (a b : String) (seq : UInt64) : sessionBaseKey a ≠ eventBaseKey b seq := by
  intro h
  have hlen : IsBlobKey (sessionBaseKey a) (eventBaseKey b seq ++ ":len") := .inl (by rw [h])
  exact (under_append sessionPrefix a).not_isBlobKey ((under_eventBaseKey b seq).startsWith_key (.inl rfl)) (by decide) hlen

variable (E : TraceEnv P)

/-- The shelf has the records of the journal, and no others under the keys of sessions and events. -/
structure Keeps (shelf : List (String × Bytes)) (j : Journal P) : Prop where
  distinct : (j.sessions.map (·.sessionId)).Nodup
  ordered : ∀ sessionId, (j.writtenTo sessionId).Pairwise fun e e' => e.seq < e'.seq
  session : ∀ m ∈ j.sessions, ∃ raw, E.metadataToVec m = .ok raw ∧
    last shelf (sessionBaseKey m.sessionId) = some raw
  event : ∀ e ∈ j.written, ∃ raw, E.eventToVec e.recorded = .ok raw ∧
    last shelf (eventBaseKey e.sessionId e.seq) = some raw
  only : ∀ base, Kept base → (last shelf base).isSome → (∃ m ∈ j.sessions, base = sessionBaseKey m.sessionId) ∨
    ∃ e ∈ j.written, base = eventBaseKey e.sessionId e.seq

variable {E} {shelf : List (String × Bytes)} {j : Journal P}

theorem keeps_nil : Keeps E [] ({} : Journal P) where
  distinct := List.nodup_nil
  ordered _ := List.Pairwise.nil
  session _ hm := by cases hm
  event _ he := by cases he
  only _ _ hlast := by cases hlast

theorem Keeps.start (h : Keeps E shelf j) (hfresh : m.sessionId ∉ j.sessions.map (·.sessionId))
    (hraw : E.metadataToVec m = .ok raw) :
    Keeps E (shelf ++ [(sessionBaseKey m.sessionId, raw)]) (j.started m) where
  distinct := by
    unfold Journal.started
    rw [List.map_append, List.map_singleton, List.nodup_append_comm]
    exact List.nodup_cons.mpr ⟨hfresh, h.distinct⟩
  ordered := h.ordered
  session m' hm' := by
    rcases List.mem_append.mp hm' with hold | hnew
    · obtain ⟨raw', hraw', hlast⟩ := h.session m' hold
      refine ⟨raw', hraw', ?_⟩
      rw [last_concat, if_neg fun heq => hfresh ?_, hlast]
      exact List.mem_map.mpr ⟨m', hold, (sessionBaseKey_inj heq).symm⟩
    · obtain rfl := List.mem_singleton.mp hnew
      exact ⟨raw, hraw, by rw [last_concat, if_pos rfl]⟩
  event e he := by
    obtain ⟨raw', hraw', hlast⟩ := h.event e he
    exact ⟨raw', hraw', by rw [last_concat, if_neg (sessionBaseKey_ne_eventBaseKey _ _ _), hlast]⟩
  only base hkept hlast := by
    rw [last_concat] at hlast
    split at hlast
    · rename_i heq
      exact .inl ⟨m, List.mem_append_right _ (List.mem_singleton_self m), heq.symm⟩
    · rcases h.only base hkept hlast with ⟨m', hm', hbase⟩ | hevent
      · exact .inl ⟨m', List.mem_append_left _ hm', hbase⟩
      · exact .inr hevent

theorem Keeps.wrote (h : Keeps E shelf j) (hlater : ∀ e' ∈ j.writtenTo e.sessionId, e'.seq < e.seq)
    (hraw : E.eventToVec e.recorded = .ok raw) :
    Keeps E (shelf ++ [(eventBaseKey e.sessionId e.seq, raw)]) (j.wrote e) := by
  have hown {e' : WrittenEvent P} (he' : e' ∈ j.written) : eventBaseKey e.sessionId e.seq ≠ eventBaseKey e'.sessionId e'.seq := by
    intro heq
    obtain ⟨hsession, hseq⟩ := eventBaseKey_inj heq
    have hlt := hlater e' (List.mem_filter.mpr ⟨he', decide_eq_true hsession.symm⟩)
    rw [hseq] at hlt
    exact UInt64.lt_irrefl _ hlt
  refine ⟨h.distinct, fun sessionId => ?_, fun m hm => ?_, fun e' he' => ?_, fun base hkept hlast => ?_⟩
  · by_cases hsession : e.sessionId = sessionId
    · subst hsession
      rw [j.writtenTo_wrote_same, List.pairwise_append]
      refine ⟨h.ordered _, List.pairwise_singleton _ _, fun e' he' last hlast => ?_⟩
      rw [List.mem_singleton.mp hlast]
      exact hlater e' he'
    · rw [j.writtenTo_wrote_other hsession]
      exact h.ordered sessionId
  · obtain ⟨raw', hraw', hlast⟩ := h.session m hm
    exact ⟨raw', hraw', by rw [last_concat, if_neg (sessionBaseKey_ne_eventBaseKey _ _ _).symm, hlast]⟩
  · rcases List.mem_append.mp he' with hold | hnew
    · obtain ⟨raw', hraw', hlast⟩ := h.event e' hold
      exact ⟨raw', hraw', by rw [last_concat, if_neg (hown hold), hlast]⟩
    · rw [List.mem_singleton.mp hnew]
      exact ⟨raw, hraw, by rw [last_concat, if_pos rfl]⟩
  · rw [last_concat] at hlast
    split at hlast
    · rename_i heq
      exact .inr ⟨e, List.mem_append_right _ (List.mem_singleton_self e), heq.symm⟩
    · rcases h.only base hkept hlast with hsession | ⟨e', he', hbase⟩
      · exact .inl hsession
      · exact .inr ⟨e', List.mem_append_left _ he', hbase⟩

theorem Keeps.ended (h : Keeps E shelf j) {final : SessionMetadata} (hmem : final.sessionId ∈ j.sessions.map (·.sessionId))
    (hraw : E.metadataToVec final = .ok raw) :
    Keeps E (shelf ++ [(sessionBaseKey final.sessionId, raw)]) (j.ended final) where
  distinct := by
    rw [j.ids_ended]
    exact h.distinct
  ordered := h.ordered
  session m hm := by
    obtain ⟨m', hm', rfl⟩ := List.mem_map.mp hm
    split
    · exact ⟨raw, hraw, by rw [last_concat, if_pos rfl]⟩
    · rename_i hne
      obtain ⟨raw', hraw', hlast⟩ := h.session m' hm'
      exact ⟨raw', hraw', by rw [last_concat, if_neg fun heq => hne (sessionBaseKey_inj heq).symm, hlast]⟩
  event e he := by
    obtain ⟨raw', hraw', hlast⟩ := h.event e he
    exact ⟨raw', hraw', by rw [last_concat, if_neg (sessionBaseKey_ne_eventBaseKey _ _ _), hlast]⟩
  only base hkept hlast := by
    have hreplaced {sessionId : String} (hid : sessionId ∈ j.sessions.map (·.sessionId)) :
        ∃ m ∈ (j.ended final).sessions, m.sessionId = sessionId := by
      rw [← j.ids_ended final] at hid
      exact List.mem_map.mp hid
    rw [last_concat] at hlast
    split at hlast
    · rename_i heq
      obtain ⟨m, hm, hid⟩ := hreplaced hmem
      exact .inl ⟨m, hm, by rw [hid, ← heq]⟩
    · rcases h.only base hkept hlast with ⟨m, hm, hbase⟩ | hevent
      · obtain ⟨m', hm', hid⟩ := hreplaced (List.mem_map_of_mem hm)
        exact .inl ⟨m', hm', by rw [hid, hbase]⟩
      · exact .inr hevent

theorem Keeps.aside (h : Keeps E shelf j) {base : String} (hbase : ¬ Kept base) (raw : Bytes) :
    Keeps E (shelf ++ [(base, raw)]) j := by
  have hlast {other : String} (hkept : Kept other) : last (shelf ++ [(base, raw)]) other = last shelf other := by
    rw [last_concat, if_neg]
    rintro rfl
    exact hbase hkept
  refine ⟨h.distinct, h.ordered, fun m hm => ?_, fun e he => ?_, fun other hkept hsome => ?_⟩
  · rw [hlast (kept_sessionBaseKey _)]
    exact h.session m hm
  · rw [hlast (kept_eventBaseKey _ _)]
    exact h.event e he
  · rw [hlast hkept] at hsome
    exact h.only other hkept hsome

/-! ### What the readers find -/

/-- How `serde_json` treats the records: metadata reads back as it was written, texts have lengths that are words, and an
empty text is not one. -/
structure TraceEnv.Lawful (E : TraceEnv P) : Prop where
  metadata : ∀ m raw, E.metadataToVec m = .ok raw → raw.length < 2 ^ 64 ∧ E.metadataFromSlice raw = some m
  event : ∀ event raw, E.eventToVec event = .ok raw → raw.length < 2 ^ 64
  noMetadata : E.metadataFromSlice [] = none
  noEvent : E.eventFromSlice [] = none

/-- What an event reads back as from its own JSON form. -/
def TraceEvent.reread (E : TraceEnv P) (event : TraceEvent P) : Option (TraceEvent P) :=
  (E.eventToVec event).toOption.bind E.eventFromSlice

variable (E) in
/-- The events of every session are read as they were written, in order and numbered from one, and every session is listed
once, with its last metadata. -/
def ReadsBack (db : TraceDb) (j : Journal P) : Prop :=
  (∀ sessionId, sessionEvents E db sessionId = .ok (j.eventsOf sessionId)) ∧ j.Numbered ∧
    ∃ listed, listSessions E db = .ok listed ∧ listed.Perm j.sessions

variable (hE : E.Lawful)
include hE

theorem Keeps.fits (h : Keeps E shelf j) : Fits Kept shelf := by
  intro base raw hkept hlast
  rcases h.only base hkept (hlast ▸ rfl) with ⟨m, hm, rfl⟩ | ⟨e, he, rfl⟩
  · obtain ⟨raw', hraw', hlast'⟩ := h.session m hm
    obtain rfl := Option.some.inj (hlast.symm.trans hlast')
    exact (hE.metadata m raw hraw').1
  · obtain ⟨raw', hraw', hlast'⟩ := h.event e he
    obtain rfl := Option.some.inj (hlast.symm.trans hlast')
    exact hE.event _ raw hraw'

variable {db : NucleusDb P}

theorem sessionEvents_eq (hshows : Shows Kept db shelf) (h : Keeps E shelf j) (sessionId : String) :
    sessionEvents E (traceDb db) sessionId = .ok ((j.eventsOf sessionId).filterMap (·.reread E)) := by
  have hmem {n : UInt64} (hn : n ∈ (j.writtenTo sessionId).map (·.seq)) :
      ∃ e ∈ j.written, e.sessionId = sessionId ∧ e.seq = n := by
    obtain ⟨e, he, hseq⟩ := List.mem_map.mp hn
    obtain ⟨hwritten, hsession⟩ := List.mem_filter.mp he
    exact ⟨e, hwritten, of_decide_eq_true hsession, hseq⟩
  rw [hshows.sessionEvents_eq E (h.fits hE) (fun _ hunder => .inr hunder) hE.noEvent]
  refine congrArg Except.ok ?_
  rw [filterMap_numbered (pairwise_eventSeqs _ _) (List.pairwise_map.mpr (h.ordered sessionId)) (fun n hn => ?_)
    fun n hn => ?_]
  · unfold Journal.eventsOf
    rw [List.filterMap_map, List.filterMap_map]
    refine List.filterMap_congr fun e he => ?_
    obtain ⟨hwritten, hsession⟩ := List.mem_filter.mp he
    obtain ⟨raw, hraw, hlast⟩ := h.event e hwritten
    rw [of_decide_eq_true hsession] at hlast
    dsimp only [Function.comp]
    unfold TraceEvent.reread
    rw [hlast, hraw]
    rfl
  · obtain ⟨e, he, rfl, rfl⟩ := hmem hn
    refine mem_eventSeqs (hshows.isSome_get (kept_eventBaseKey _ _) ?_)
    obtain ⟨raw, -, hlast⟩ := h.event e he
    rw [hlast]
    rfl
  · have hlast : last shelf (eventBaseKey sessionId n) = none := by
      rw [← Option.not_isSome_iff_eq_none]
      intro hsome
      rcases h.only _ (kept_eventBaseKey sessionId n) hsome with ⟨m, -, hbase⟩ | ⟨e, he, hbase⟩
      · exact sessionBaseKey_ne_eventBaseKey _ _ _ hbase.symm
      · obtain ⟨rfl, rfl⟩ := eventBaseKey_inj hbase
        exact hn (List.mem_map.mpr ⟨e, List.mem_filter.mpr ⟨he, decide_eq_true rfl⟩, rfl⟩)
    rw [hlast]
    rfl

omit hE in
theorem filterMap_eq_self_iff {α : Type} {f : α → Option α} {l : List α} :
    l.filterMap f = l ↔ ∀ a ∈ l, f a = some a := by
  induction l with
  | nil => simp
  | cons a rest ih =>
    rw [List.forall_mem_cons, ← ih]
    cases hfa : f a with
    | none =>
      rw [List.filterMap_cons_none hfa]
      refine iff_of_false (fun heq => ?_) fun h => nomatch h.1
      have hle := List.length_filterMap_le f rest
      rw [heq, List.length_cons] at hle
      omega
    | some b =>
      rw [List.filterMap_cons_some hfa]
      simp

theorem sessionEvents_eq_eventsOf_iff (hshows : Shows Kept db shelf) (h : Keeps E shelf j) :
    (∀ sessionId, sessionEvents E (traceDb db) sessionId = .ok (j.eventsOf sessionId)) ↔
      ∀ sessionId, ∀ event ∈ j.eventsOf sessionId, event.reread E = some event := by
  refine forall_congr' fun sessionId => ?_
  rw [sessionEvents_eq hE hshows h, Except.ok.injEq, filterMap_eq_self_iff]

theorem not_endsWith_of_listed (h : Keeps E shelf j) (hm : m ∈ parseBlobs E.metadataFromSlice
      ((scannedBases sessionPrefix (traceDb db)).map (last shelf))) :
    endsWith (sessionBaseKey m.sessionId) ":len" = false := by
  obtain ⟨base, hbase, raw, hlast, hparsed⟩ := mem_parseBlobs.mp hm
  have hunder := under_of_mem_scannedBases (by decide) hbase
  rcases h.only base (.inl hunder) (hlast ▸ rfl) with ⟨m', hm', rfl⟩ | ⟨e, -, rfl⟩
  · obtain ⟨raw', hraw', hlast'⟩ := h.session m' hm'
    obtain rfl := Option.some.inj (hlast.symm.trans hlast')
    obtain rfl := Option.some.inj (hparsed.symm.trans (hE.metadata m' raw hraw').2)
    exact not_endsWith_of_mem_scannedBases hbase
  · have hkey : IsBlobKey (eventBaseKey e.sessionId e.seq) (eventBaseKey e.sessionId e.seq ++ ":len") := .inl rfl
    exact absurd hkey
      (hunder.not_isBlobKey ((under_eventBaseKey _ _).startsWith_key hkey) (by decide))

omit hE in
theorem scannedBases_perm (hshows : Shows Kept db shelf) (h : Keeps E shelf j) (hlisted : Listed db shelf)
    (hclean : ∀ m ∈ j.sessions, endsWith (sessionBaseKey m.sessionId) ":len" = false) :
    (scannedBases sessionPrefix (traceDb db)).Perm (j.sessions.map fun m => sessionBaseKey m.sessionId) := by
  have hsession : ∀ {base}, Under sessionPrefix base → (db.keymap.get (base ++ ":len")).isSome →
      ∃ m ∈ j.sessions, base = sessionBaseKey m.sessionId := by
    intro base hunder hget
    rcases h.only base (.inl hunder) (hlisted base hunder hget) with hsession | ⟨e, -, rfl⟩
    · exact hsession
    · have hkey : IsBlobKey (eventBaseKey e.sessionId e.seq) (eventBaseKey e.sessionId e.seq ++ ":len") := .inl rfl
      exact absurd hkey
        (hunder.not_isBlobKey ((under_eventBaseKey _ _).startsWith_key hkey) (by decide))
  have hbases : ∀ base, startsWith (base ++ ":len") sessionPrefix = true →
      (db.keymap.get (base ++ ":len")).isSome → endsWith base ":len" = false := by
    intro base hstarts hget
    rw [← String.append_empty (s := base ++ ":len")] at hstarts
    obtain ⟨m, hm, rfl⟩ := hsession (under_of_startsWith (by decide) hstarts) hget
    exact hclean m hm
  have hdistinct : (j.sessions.map fun m => sessionBaseKey m.sessionId).Nodup := by
    have hmap := h.distinct.map (f := sessionBaseKey) fun a b hab => sessionBaseKey_inj hab
    rwa [List.map_map] at hmap
  refine (List.perm_ext_iff_of_nodup (nodup_scannedBases hbases) hdistinct).mpr fun base => ?_
  rw [List.mem_map]
  constructor
  · intro hbase
    have hunder := under_of_mem_scannedBases (by decide) hbase
    obtain ⟨listed, hstarts, hget, rfl⟩ := mem_scannedBases.mp hbase
    rw [Text.trimEndMatchesStr_append (by decide) (hbases listed hstarts hget)] at hunder ⊢
    obtain ⟨m, hm, hbase⟩ := hsession hunder hget
    exact ⟨m, hm, hbase.symm⟩
  · rintro ⟨m, hm, rfl⟩
    obtain ⟨raw, -, hlast⟩ := h.session m hm
    exact mem_scannedBases_of_get (under_append _ _)
      (hshows.isSome_get (kept_sessionBaseKey _) (by rw [hlast]; rfl)) (hclean m hm)

theorem listSessions_perm_iff (hshows : Shows Kept db shelf) (h : Keeps E shelf j) (hlisted : Listed db shelf) :
    (∃ listed, listSessions E (traceDb db) = .ok listed ∧ listed.Perm j.sessions) ↔
      ∀ m ∈ j.sessions, endsWith (sessionBaseKey m.sessionId) ":len" = false := by
  have hfound := hshows.listSessions_eq E (h.fits hE) (fun _ hunder => .inl hunder) hE.noMetadata
  constructor
  · rintro ⟨listed, hok, hperm⟩ m hm
    rw [hfound] at hok
    obtain rfl := Except.ok.inj hok
    exact not_endsWith_of_listed hE h (List.mem_mergeSort.mp (hperm.mem_iff.mpr hm))
  · intro hclean
    refine ⟨_, hfound, (List.mergeSort_perm _ _).trans ?_⟩
    have hparsed : parseBlobs E.metadataFromSlice
        ((j.sessions.map fun m => sessionBaseKey m.sessionId).map (last shelf)) = j.sessions := by
      unfold parseBlobs
      rw [List.filterMap_map, List.filterMap_map]
      refine (List.filterMap_congr fun m hm => ?_).trans List.filterMap_some
      obtain ⟨raw, hraw, hlast⟩ := h.session m hm
      dsimp only [Function.comp]
      rw [hlast, Option.bind_some]
      exact (hE.metadata m raw hraw).2
    rw [← hparsed]
    exact ((scannedBases_perm hshows h hlisted hclean).map _).filterMap _

theorem readsBack_iff_of_shows (hshows : Shows Kept db shelf) (h : Keeps E shelf j) (hlisted : Listed db shelf)
    (hnumbered : j.Numbered) : ReadsBack E (traceDb db) j ↔
      (∀ m ∈ j.sessions, endsWith (sessionBaseKey m.sessionId) ":len" = false) ∧
        ∀ sessionId, ∀ event ∈ j.eventsOf sessionId, event.reread E = some event := by
  unfold ReadsBack
  rw [sessionEvents_eq_eventsOf_iff hE hshows h, listSessions_perm_iff hE hshows h hlisted]
  exact ⟨fun hreads => ⟨hreads.2.2, hreads.1⟩, fun hreads => ⟨hreads.2, hnumbered, hreads.1⟩⟩

end AgentHalo.Trace
