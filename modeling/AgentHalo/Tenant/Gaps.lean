import AgentHalo.Tenant.Steps

/-!
# Recovery after failed appends

`commit_as` commits in memory first and appends second, and a failed append does not undo the commit. `Tracked` follows a
run of such calls: the entries in memory are those of all commits made, the events on disk those whose append went through,
each under the height of its entry. `load_wal` does not compare an event with the one before it, so a log with a gap is
replayed like any other. What it returns is a prefix of the history exactly while no append has succeeded after one that
failed, or over a history that the tenant brought along.
-/

namespace AgentHalo.Tenant

open Engine Engine.NucleusDb
open Persistence

variable {P : Platform} {S : Serde P}

/-! ### Kept prefixes

A list of which some elements are kept: what is kept is a prefix if nothing is kept after something was dropped. -/

section Kept

variable {α β : Type} {keep : α → Bool} {l : List α}

theorem filter_eq_take_of_pairwise (h : l.Pairwise fun a b => keep b = true → keep a = true) :
    l.filter keep = l.take (l.filter keep).length := by
  induction l with
  | nil => rfl
  | cons a rest ih =>
    obtain ⟨hhead, htail⟩ := List.pairwise_cons.mp h
    by_cases ha : keep a = true
    · rw [List.filter_cons_of_pos ha, List.length_cons, List.take_succ_cons, ← ih htail]
    · -- the first element is dropped, so everything is
      have hnone : rest.filter keep = [] := by
        apply List.filter_eq_nil_iff.mpr
        intro b hb hkeep
        exact ha (hhead b hb hkeep)
      rw [List.filter_cons_of_neg ha, hnone]
      rfl

theorem pairwise_of_map_filter_prefix {f : α → β} (hf : (l.map f).Nodup)
    (h : (l.filter keep).map f <+: l.map f) : l.Pairwise fun a b => keep b = true → keep a = true := by
  induction l with
  | nil => exact List.Pairwise.nil
  | cons a rest ih =>
    rw [List.map_cons] at hf
    obtain ⟨hfresh, hrest⟩ := List.nodup_cons.mp hf
    by_cases ha : keep a = true
    · rw [List.filter_cons_of_pos ha, List.map_cons, List.map_cons] at h
      refine List.pairwise_cons.mpr ⟨fun _ _ _ => ha, ih hrest ?_⟩
      exact (List.cons_prefix_cons.mp h).2
    · rw [List.filter_cons_of_neg ha] at h
      have hnone : rest.filter keep = [] := by
        cases hkept : rest.filter keep with
        | nil => rfl
        | cons b kept =>
          rw [hkept, List.map_cons, List.map_cons] at h
          have hb : b ∈ rest := (List.mem_filter.mp (hkept ▸ List.mem_cons_self)).1
          exact absurd ((List.cons_prefix_cons.mp h).1 ▸ List.mem_map_of_mem hb) hfresh
      have hdropped : ∀ b ∈ rest, ¬ keep b = true := List.filter_eq_nil_iff.mp hnone
      refine List.pairwise_cons.mpr ⟨fun b hb hkeep => absurd hkeep (hdropped b hb), ih hrest ?_⟩
      rw [hnone]
      exact List.nil_prefix

end Kept

/-! ### A history without gaps -/

/-- The entries have the heights from `first` on, and each starts from the root the one before it ended at. -/
structure ContiguousFrom (first : Nat) (entries : List CommitEntry) : Prop where
  height_eq : ∀ (i : Nat) (e : CommitEntry), entries[i]? = some e → e.height = first + i
  linked : ∀ (i : Nat) (e e' : CommitEntry), entries[i]? = some e → entries[i + 1]? = some e' →
    e'.prevStateRoot = e.stateRoot

theorem ContiguousFrom.nil (first : Nat) : ContiguousFrom first [] := by
  constructor
  · intro i e he
    cases he
  · intro i e e' he
    cases he

variable {entries : List CommitEntry}

theorem ContiguousFrom.take {first : Nat} (h : ContiguousFrom first entries) (n : Nat) :
    ContiguousFrom first (entries.take n) := by
  have hget : ∀ (i : Nat) (e : CommitEntry), (entries.take n)[i]? = some e → entries[i]? = some e := by
    intro i e he
    rw [List.getElem?_take] at he
    split_ifs at he
    exact he
  constructor
  · intro i e he
    exact h.height_eq i e (hget i e he)
  · intro i e e' he he'
    exact h.linked i e e' (hget i e he) (hget (i + 1) e' he')

variable {entry : CommitEntry}

theorem ContiguousFrom.commit {db db' : NucleusDb P} {delta : Delta} {localViews : List LocalSection} {now : Nat}
    {prior : List CommitEntry} (h : ContiguousFrom (prior.length + 1) entries)
    (hentries : db.entries = prior ++ entries) (hcommit : db.commit delta localViews now = some (.ok entry, db')) :
    ContiguousFrom (prior.length + 1) (entries ++ [entry]) := by
  obtain ⟨rs, sigs, hc⟩ := commit_ok hcommit
  constructor
  · intro i e he
    rcases getElem?_concat he with hold | ⟨rfl, rfl⟩
    · exact h.height_eq i e hold
    · rw [hc.advanced.height, hentries, List.length_append]
      omega
  · intro i e e' he he'
    rcases getElem?_concat he' with hold | ⟨hi, rfl⟩
    · have hlt : i < entries.length := by
        have hbound := (List.getElem?_eq_some_iff.mp hold).1
        omega
      rw [List.getElem?_append_left hlt] at he
      exact h.linked i e e' he hold
    · have hlt : i < entries.length := by omega
      rw [List.getElem?_append_left hlt] at he
      have hlast : db.entries.getLast? = some e := by
        rw [hentries, List.getLast?_append, List.getLast?_eq_getElem?, ← hi, Nat.add_sub_cancel, he]
        rfl
      rcases hc.prevStateRoot_eq with ⟨e₀, he₀, hroot⟩ | ⟨hempty, -⟩
      · rw [hroot, Option.some.inj (he₀.symm.trans hlast)]
      · rw [hempty] at hlast
        cases hlast

theorem ContiguousFrom.nodup {first : Nat} (h : ContiguousFrom first entries) : entries.Nodup := by
  rw [List.nodup_iff_getElem?_ne_getElem?]
  intro i j hij hj heq
  have hi : entries[i]? = some (entries.get ⟨i, hij.trans hj⟩) := List.getElem?_eq_getElem _
  have hheight := h.height_eq i _ hi
  rw [heq] at hi
  have hheight' := h.height_eq j _ hi
  omega

/-- Recovery has made up nothing: the entries are the first ones of those in memory, and the state is what exactly their
writes lead to. -/
structure Genuine (initial : State) (deltas : List Delta) (db loaded : NucleusDb P) : Prop where
  entries : loaded.entries <+: db.entries
  contiguous : ContiguousFrom 1 loaded.entries
  state : loaded.state = (deltas.take loaded.entries.length).foldl apply initial

namespace World

/-! ### Runs of commits that may fail -/

/-- A call of `commit_as`, with what goes wrong in its append. -/
structure CommitCall where
  principalId : String
  authToken : String
  delta : Delta
  localViews : List LocalSection
  now : Nat
  fault : Option Fault

def CommitCall.on (call : CommitCall) (tenantId : String) (w : World S) :
    Option (Except MultiTenantError CommitEntry) × World S :=
  w.commitAs tenantId call.principalId call.authToken call.delta call.localViews call.now call.fault

/-- The caller is told that the commit was made. -/
def CommitCall.Acknowledged (tenantId : String) (w : World S) (call : CommitCall) : Prop :=
  ∃ entry, (call.on tenantId w).1 = some (.ok entry)

def callStep (tenantId : String) (w : World S) (call : CommitCall) : World S := (call.on tenantId w).2

/-- A commit made in memory: what it wrote, and whether its event was appended to the log. -/
structure Attempt where
  delta : Delta
  logged : Bool
deriving DecidableEq, Repr

/-- What the answer says was made: a commit in the log, a commit in memory only, or none. -/
def CommitCall.attempt (call : CommitCall) : Option (Except MultiTenantError CommitEntry) → List Attempt
  | some (.ok _) => [⟨call.delta, true⟩]
  | some (.error (.persistence _)) => [⟨call.delta, false⟩]
  | _ => []

/-- The world and the commits made in it so far, oldest first. -/
structure Ledger {P : Platform} (S : Serde P) where
  world : World S
  attempts : List Attempt

def Ledger.step (tenantId : String) (l : Ledger S) (call : CommitCall) : Ledger S :=
  ⟨callStep tenantId l.world call, l.attempts ++ call.attempt (call.on tenantId l.world).1⟩

/-- No event is appended after one was lost, and none over a history that began before the log. -/
structure WithoutGaps (prior : List CommitEntry) (attempts : List Attempt) : Prop where
  noneAfterLoss : attempts.Pairwise fun earlier later => later.logged = true → earlier.logged = true
  fromStart : prior = [] ∨ ∀ attempt ∈ attempts, attempt.logged = false

/-- `load_wal` returns an error, or a history that memory bears out. -/
def RecoversGenuinely (tenantId path : String) (witnessCfg : WitnessConfig P) (clock : Clock) (initial : State)
    (l : Ledger S) : Prop :=
  ∃ slot, l.world.manager.tenants[tenantId]? = some slot ∧
    ((∃ e, loadWal S path witnessCfg clock l.world.disk = some (.error e)) ∨
      ∃ loaded, loadWal S path witnessCfg clock l.world.disk = some (.ok loaded) ∧
        Genuine initial (l.attempts.map (·.delta)) slot.db loaded)

/-- A commit made in memory with the entry and the leaf it made. -/
structure Made extends Attempt where
  entry : CommitEntry
  ctLeaf : NodeHash

/-- The event that records it, under the height of its entry. -/
def Made.event (m : Made) : WalEventV1 :=
  { schema := walEventSchema, seq := m.entry.height, delta := m.delta, entry := m.entry, ctLeaf := m.ctLeaf }

/-- Memory has the entries of all commits made since the history was `prior`, and the log the events of those whose append
went through. -/
structure Tracked (tenantId path : String) (backend : VcBackend) (initial : State) (prior : List CommitEntry)
    (l : Ledger S) (slot : TenantSlot P) (log : Log P) (made : List Made) : Prop
    extends Logged tenantId path l.world slot log where
  backend : log.walMeta.backend = backend
  initialState : log.walMeta.initialState = initial
  attempts : l.attempts = made.map (·.toAttempt)
  entries : slot.db.entries = prior ++ made.map (·.entry)
  contiguous : ContiguousFrom (prior.length + 1) (made.map (·.entry))
  events : log.events = (made.filter (·.logged)).map (·.event)

/-! ### One call -/

section Step

variable {tenantId path : String} {backend : VcBackend} {initial : State} {prior : List CommitEntry} {l : Ledger S}
  {slot : TenantSlot P} {log : Log P} {made : List Made}

theorem Tracked.seq_le (h : Tracked tenantId path backend initial prior l slot log made) :
    ∀ event ∈ log.events, event.seq ≤ slot.db.entries.length := by
  intro event hevent
  rw [h.events] at hevent
  obtain ⟨m, hm, rfl⟩ := List.mem_map.mp hevent
  have hentry : m.entry ∈ made.map (·.entry) := List.mem_map_of_mem (List.mem_filter.mp hm).1
  obtain ⟨i, hi⟩ := List.mem_iff_getElem?.mp hentry
  have hheight : m.event.seq = prior.length + 1 + i := h.contiguous.height_eq i m.entry hi
  have hlt : i < (made.map (·.entry)).length := (List.getElem?_eq_some_iff.mp hi).1
  rw [hheight, h.entries, List.length_append]
  omega

variable {call : CommitCall}

theorem Tracked.refused (h : Tracked tenantId path backend initial prior l slot log made)
    {r : Option (Except MultiTenantError CommitEntry)} {manager : MultiTenantNucleusDb P} {slot' : TenantSlot P}
    (hcall : call.on tenantId l.world = (r, ⟨manager, l.world.disk⟩)) (hslot : manager.tenants[tenantId]? = some slot')
    (hpath : slot'.walPath = slot.walPath) (hentries : slot'.db.entries = slot.db.entries)
    (hok : ∀ entry, r ≠ some (.ok entry)) (hlost : ∀ e, r ≠ some (.error (.persistence e))) :
    Tracked tenantId path backend initial prior (l.step tenantId call) slot' log made := by
  have hnone : call.attempt r = [] := by
    unfold CommitCall.attempt
    split
    · exact absurd rfl (hok _)
    · exact absurd rfl (hlost _)
    · rfl
  have hstep : l.step tenantId call = ⟨⟨manager, l.world.disk⟩, l.attempts⟩ := by
    unfold Ledger.step callStep
    rw [hcall, hnone, List.append_nil]
  rw [hstep]
  exact ⟨⟨hslot, hpath.trans h.walPath, h.logAt⟩, h.backend, h.initialState, h.attempts, hentries.trans h.entries,
    h.contiguous, h.events⟩

theorem Tracked.extend (h : Tracked tenantId path backend initial prior l slot log made) {l' : Ledger S}
    {slot' : TenantSlot P} {log' : Log P} {m : Made} {localViews : List LocalSection} {now : Nat}
    (hcommit : slot.db.commit m.delta localViews now = some (.ok m.entry, slot'.db))
    (hlogged : Logged tenantId path l'.world slot' log') (hmeta : log'.walMeta = log.walMeta)
    (hattempts : l'.attempts = l.attempts ++ [m.toAttempt])
    (hevents : log'.events = log.events ++ ([m].filter (·.logged)).map (·.event)) :
    Tracked tenantId path backend initial prior l' slot' log' (made ++ [m]) := by
  refine ⟨hlogged, ?_, ?_, ?_, ?_, ?_, ?_⟩
  · rw [hmeta]
    exact h.backend
  · rw [hmeta]
    exact h.initialState
  · rw [hattempts, h.attempts, List.map_append]
    rfl
  · rw [(commit_advanced hcommit).entries, h.entries, List.map_append, List.append_assoc]
    rfl
  · rw [List.map_append]
    exact h.contiguous.commit h.entries hcommit
  · rw [hevents, h.events, List.filter_append, List.map_append]

theorem Tracked.lost (h : Tracked tenantId path backend initial prior l slot log made) {db : NucleusDb P}
    {e : PersistenceError} {disk : S.Files}
    (hcommit : slot.db.commit call.delta call.localViews call.now = some (.ok entry, db))
    (happend : onLog slot.walPath (fun path => appendWalEvent S path call.delta db entry call.fault) l.world.disk =
      (.error e, disk))
    (hcall : call.on tenantId l.world =
      (some (.error (.persistence e)), ⟨l.world.manager.setSlot tenantId { slot with db }, disk⟩)) :
    ∃ ctLeaf, Tracked tenantId path backend initial prior (l.step tenantId call) { slot with db } log
      (made ++ [⟨⟨call.delta, false⟩, entry, ctLeaf⟩]) := by
  obtain ⟨ctLeaf, -⟩ := (commit_advanced hcommit).ctLeaves
  have hstep : l.step tenantId call =
      ⟨⟨l.world.manager.setSlot tenantId { slot with db }, disk⟩, l.attempts ++ [⟨call.delta, false⟩]⟩ := by
    unfold Ledger.step callStep
    rw [hcall]
    rfl
  rw [h.walPath] at happend
  have hfile : disk.file path = l.world.disk.file path := Disk.transact_error happend path
  have hlog : LogAt S disk path log := by
    apply h.logAt.congr
    · rw [hfile]
    · rw [hfile]
  rw [hstep]
  exact ⟨ctLeaf, h.extend hcommit ⟨get?_setSlot _ _ _, h.walPath, hlog⟩ rfl rfl (List.append_nil _).symm⟩

theorem Tracked.logged (hS : S.RoundTrips) (h : Tracked tenantId path backend initial prior l slot log made)
    (hcall : (call.on tenantId l.world).1 = some (.ok entry)) :
    ∃ slot' log' made', Tracked tenantId path backend initial prior (l.step tenantId call) slot' log' made' := by
  obtain ⟨entry', db, ctLeaf, hcommit, -, hlogged⟩ := h.toLogged.commit hS h.seq_le ⟨entry, hcall⟩
  have hadv := commit_advanced hcommit
  have hstep : (l.step tenantId call).attempts = l.attempts ++ [⟨call.delta, true⟩] := by
    unfold Ledger.step callStep
    rw [hcall]
    rfl
  -- the event is keyed by the entries after the commit, which is the height of the new one
  have hevent : eventOf call.delta db entry' ctLeaf = Made.event ⟨⟨call.delta, true⟩, entry', ctLeaf⟩ := by
    unfold eventOf Made.event
    rw [hadv.entries, List.length_append, List.length_singleton, ← hadv.height]
  refine ⟨_, _, made ++ [⟨⟨call.delta, true⟩, entry', ctLeaf⟩], h.extend hcommit hlogged rfl hstep ?_⟩
  rw [hevent]
  rfl

theorem Tracked.step (hS : S.RoundTrips) (call : CommitCall)
    (h : ∃ slot log made, Tracked tenantId path backend initial prior l slot log made) :
    ∃ slot log made, Tracked tenantId path backend initial prior (l.step tenantId call) slot log made := by
  obtain ⟨slot, log, made, ht⟩ := h
  rcases commitAs_cases ht.registered call.principalId call.authToken call.delta call.localViews call.now call.fault with
    ⟨r, manager, slot', hcall, hslot, hpath, hentries, hok, hlost⟩ | ⟨entry, db, e, disk, hcommit, happend, hcall⟩ |
    ⟨entry, db, disk, -, -, hcall⟩
  · exact ⟨_, _, _, ht.refused hcall hslot hpath hentries hok hlost⟩
  · obtain ⟨ctLeaf, ht'⟩ := ht.lost hcommit happend hcall
    exact ⟨_, _, _, ht'⟩
  · exact ht.logged hS (congrArg Prod.fst hcall)

end Step

/-! ### What is recovered -/

section Recovered

variable {tenantId path : String} {backend : VcBackend} {initial : State} {prior : List CommitEntry} {l : Ledger S}
  {slot : TenantSlot P} {log : Log P} {made : List Made} {loaded : NucleusDb P}

theorem Tracked.loaded_entries (h : Tracked tenantId path backend initial prior l slot log made) (hdb : Rebuilt log loaded) :
    loaded.entries = (made.filter (·.logged)).map (·.entry) := by
  rw [hdb.entries, h.events, List.map_map]
  rfl

theorem Tracked.loaded_length (h : Tracked tenantId path backend initial prior l slot log made)
    (hdb : Rebuilt log loaded) : loaded.entries.length = (made.filter (·.logged)).length := by
  rw [h.loaded_entries hdb, List.length_map]

theorem Tracked.loaded_state (h : Tracked tenantId path backend initial prior l slot log made) (hdb : Rebuilt log loaded)
    (htake : made.filter (·.logged) = made.take (made.filter (·.logged)).length) :
    loaded.state = ((l.attempts.map (·.delta)).take loaded.entries.length).foldl apply initial := by
  have hdeltas : log.events.map (·.delta) = (l.attempts.map (·.delta)).take loaded.entries.length := by
    rw [h.events, h.loaded_length hdb, h.attempts, List.map_map, List.map_map, ← List.map_take, ← htake]
    rfl
  rw [hdb.state, h.initialState, ← hdeltas, List.foldl_map]

theorem Tracked.none_logged (h : Tracked tenantId path backend initial prior l slot log made) (hdb : Rebuilt log loaded)
    (hcontiguous : ContiguousFrom 1 loaded.entries) (hprior : prior ≠ []) : made.filter (·.logged) = [] := by
  cases hlogged : made.filter (·.logged) with
  | nil => rfl
  | cons m rest =>
    have hfirst : loaded.entries[0]? = some m.entry := by
      rw [h.loaded_entries hdb, hlogged]
      rfl
    have hone : m.entry.height = 1 + 0 := hcontiguous.height_eq 0 m.entry hfirst
    have hmem : m ∈ made := (List.mem_filter.mp (hlogged ▸ List.mem_cons_self)).1
    obtain ⟨i, hi⟩ := List.mem_iff_getElem?.mp (List.mem_map_of_mem (f := fun m : Made => m.entry) hmem)
    have hheight := h.contiguous.height_eq i m.entry hi
    have hpos : 0 < prior.length := List.length_pos_iff.mpr hprior
    omega

theorem Tracked.genuine_iff (h : Tracked tenantId path backend initial prior l slot log made) (hdb : Rebuilt log loaded) :
    Genuine initial (l.attempts.map (·.delta)) slot.db loaded ↔ WithoutGaps prior l.attempts := by
  constructor
  · intro hg
    by_cases hprior : prior = []
    · have hentries := hg.entries
      rw [h.loaded_entries hdb, h.entries, hprior, List.nil_append] at hentries
      have hpairwise := pairwise_of_map_filter_prefix h.contiguous.nodup hentries
      refine ⟨?_, .inl hprior⟩
      rw [h.attempts]
      exact List.pairwise_map.mpr hpairwise
    · have hnone := List.filter_eq_nil_iff.mp (h.none_logged hdb hg.contiguous hprior)
      have hlost : ∀ attempt ∈ l.attempts, attempt.logged = false := by
        intro attempt hmem
        rw [h.attempts] at hmem
        obtain ⟨m, hm, rfl⟩ := List.mem_map.mp hmem
        exact Bool.eq_false_iff.mpr (hnone m hm)
      refine ⟨?_, .inr hlost⟩
      apply List.Pairwise.imp_of_mem (R := fun _ _ => True) _ (List.pairwise_of_forall fun _ _ => trivial)
      intro earlier later _ hlater _ hlogged
      rw [hlost later hlater] at hlogged
      cases hlogged
  · rintro ⟨hpairwise, hstart⟩
    rw [h.attempts, List.pairwise_map] at hpairwise
    have htake : made.filter (·.logged) = made.take (made.filter (·.logged)).length :=
      filter_eq_take_of_pairwise hpairwise
    rcases hstart with rfl | hlost
    · have hentries : loaded.entries = (made.map (·.entry)).take (made.filter (·.logged)).length := by
        rw [h.loaded_entries hdb, ← List.map_take, ← htake]
      refine ⟨?_, ?_, h.loaded_state hdb htake⟩
      · rw [hentries, h.entries, List.nil_append]
        exact List.take_prefix _ _
      · rw [hentries]
        exact h.contiguous.take _
    · -- nothing was logged, and nothing is recovered
      have hnone : made.filter (·.logged) = [] := by
        apply List.filter_eq_nil_iff.mpr
        intro m hm
        rw [hlost m.toAttempt (by rw [h.attempts]; exact List.mem_map_of_mem hm)]
        exact Bool.false_ne_true
      have hentries : loaded.entries = [] := by
        rw [h.loaded_entries hdb, hnone]
        rfl
      refine ⟨?_, ?_, h.loaded_state hdb htake⟩
      · rw [hentries]
        exact List.nil_prefix
      · rw [hentries]
        exact ContiguousFrom.nil 1

theorem Tracked.recovers_iff (h : Tracked tenantId path backend initial prior l slot log made)
    (witnessCfg : WitnessConfig P) (clock : Clock) :
    RecoversGenuinely tenantId path witnessCfg clock initial l ↔
      Openable backend witnessCfg ∧ WithoutGaps prior l.attempts := by
  constructor
  · rintro ⟨found, hfound, ⟨e, hload⟩ | ⟨loaded, hload, hgenuine⟩⟩
    · -- a log that reads as one never fails to replay
      rw [loadWal_eq h.logAt] at hload
      obtain ⟨opened, -, heq⟩ := Option.map_eq_some_iff.mp hload
      cases heq
    · obtain rfl := h.slot_eq hfound
      refine ⟨?_, (h.genuine_iff (loadWal_rebuilt h.logAt hload)).mp hgenuine⟩
      rw [loadWal_eq h.logAt] at hload
      obtain ⟨opened, hopen, -⟩ := Option.map_eq_some_iff.mp hload
      rw [← h.backend]
      exact openable_of_new hopen
  · rintro ⟨hopen, hnone⟩
    rw [← h.backend] at hopen
    obtain ⟨loaded, hload, hrebuilt⟩ := loadWal_of_openable h.logAt hopen clock
    exact ⟨slot, h.registered, .inr ⟨loaded, hload, (h.genuine_iff hrebuilt).mpr hnone⟩⟩

end Recovered

/-! ### Whole runs -/

theorem Tracked.register (hS : S.RoundTrips) {db : NucleusDb P} {w w' : World S} {tenantId authToken path : String}
    {fault : Option Fault}
    (hregister : w.registerTenantWithWalPath tenantId authToken db (some path) fault = (.ok (), w'))
    (hkeys : walKeys S w.disk path = []) :
    ∃ slot log made, Tracked tenantId path db.backend db.state db.entries ⟨w', []⟩ slot log made := by
  obtain ⟨walMeta, hlogged, hinitial, hbackend⟩ := Logged.register hS hregister (walKeys_eq_nil_iff.mp hkeys)
  refine ⟨_, _, [], hlogged, hbackend, hinitial, rfl, ?_, ContiguousFrom.nil _, rfl⟩
  exact (List.append_nil _).symm

/-- **Recovery after failed appends.** A tenant that was registered over a log without events takes any calls of
`commit_as`, of which any may fail in memory or in the append. `load_wal` then returns a prefix of the history in memory,
with the state of exactly that prefix, if and only if the configuration passes the default parameters and the log has no
gap. -/
theorem recoversGenuinely_iff (hS : S.RoundTrips) {db : NucleusDb P} {w w' : World S} {tenantId authToken path : String}
    {fault : Option Fault}
    (hregister : w.registerTenantWithWalPath tenantId authToken db (some path) fault = (.ok (), w'))
    (hkeys : walKeys S w.disk path = []) (calls : List CommitCall) (witnessCfg : WitnessConfig P) (clock : Clock) :
    RecoversGenuinely tenantId path witnessCfg clock db.state (Run.exec (Ledger.step tenantId) ⟨w', []⟩ calls) ↔
      Openable db.backend witnessCfg ∧
        WithoutGaps db.entries (Run.exec (Ledger.step tenantId) ⟨w', []⟩ calls).attempts := by
  obtain ⟨slot, log, made, h⟩ := Run.exec_invariant
    (I := fun l => ∃ slot log made, Tracked tenantId path db.backend db.state db.entries l slot log made)
    (fun _ call h => Tracked.step hS call h) (Tracked.register hS hregister hkeys) calls
  exact h.recovers_iff witnessCfg clock

/-! ### The tenant with a disk that fails -/

section Sample

variable {l : Ledger (Serde.identity .reference)} {slot : TenantSlot .reference}
  {log : Log .reference}

def callCell (idx : Nat) (value : UInt64) (fault : Option Fault) : CommitCall :=
  ⟨"admin", "pw", ⟨[(idx, value)]⟩, [], 0, fault⟩

def noSpace : Fault := .create "No space left on device (os error 28)"

theorem Live.call_lost (h : Live l.world slot log) (idx : Nat) (value : UInt64)
    (hshape : validateCommitShape (defaultParams .binaryMerkle) 1
      (apply slot.db.state ⟨[(idx, value)]⟩).values.length = .ok ()) :
    ∃ slot', Live (l.step "t" (callCell idx value (some noSpace))).world slot' log ∧
      slot'.db.state = apply slot.db.state ⟨[(idx, value)]⟩ ∧ slot'.db.entries.length = slot.db.entries.length + 1 ∧
      (l.step "t" (callCell idx value (some noSpace))).attempts = l.attempts ++ [⟨⟨[(idx, value)]⟩, false⟩] := by
  obtain ⟨entry, db, hcommit⟩ : ∃ entry db, slot.db.commit ⟨[(idx, value)]⟩ [] 0 = some (.ok entry, db) :=
    h.ready.commit 0 hshape
  have hadv := commit_advanced hcommit
  have hauth := authorizedTenantSlotAs_of_admin h.registered h.admin .writer
  have hcall : (callCell idx value (some noSpace)).on "t" l.world =
      (some (.error (.persistence (.redb "No space left on device (os error 28)"))),
        ⟨l.world.manager.setSlot "t" { slot with db }, l.world.disk⟩) := by
    unfold CommitCall.on callCell World.commitAs
    dsimp only
    rw [hauth]
    dsimp only
    rw [if_neg (by rw [h.healthy]; exact Bool.false_ne_true), hcommit]
    dsimp only
    rw [h.walPath]
    rfl
  have hstep : l.step "t" (callCell idx value (some noSpace)) =
      ⟨⟨l.world.manager.setSlot "t" { slot with db }, l.world.disk⟩, l.attempts ++ [⟨⟨[(idx, value)]⟩, false⟩]⟩ := by
    unfold Ledger.step callStep
    rw [hcall]
    rfl
  rw [hstep]
  refine ⟨{ slot with db }, ⟨⟨get?_setSlot _ _ _, h.walPath, h.logAt⟩, h.admin, h.healthy, h.ready.of_commit hcommit,
    h.recorded⟩, hadv.state, ?_, rfl⟩
  rw [hadv.entries, List.length_append, List.length_singleton]

theorem Live.call_logged (h : Live l.world slot log)
    (habove : ∀ event ∈ log.events, event.seq ≤ slot.db.entries.length) (idx : Nat) (value : UInt64)
    (hshape : validateCommitShape (defaultParams .binaryMerkle) 1
      (apply slot.db.state ⟨[(idx, value)]⟩).values.length = .ok ()) :
    ∃ slot' event, Live (l.step "t" (callCell idx value none)).world slot' ⟨log.walMeta, log.events ++ [event]⟩ ∧
      slot'.db.state = apply slot.db.state ⟨[(idx, value)]⟩ ∧ event.seq = slot.db.entries.length + 1 ∧
      event.delta = ⟨[(idx, value)]⟩ ∧
      (l.step "t" (callCell idx value none)).attempts = l.attempts ++ [⟨⟨[(idx, value)]⟩, true⟩] := by
  obtain ⟨slot', event, hlive, hstate, -, hseq, hdelta, -⟩ := h.commit habove hshape
  obtain ⟨entry, hentry⟩ := h.commit_succeeds hshape
  have hanswer : ((callCell idx value none).on "t" l.world).1 = some (.ok entry) := hentry
  refine ⟨slot', event, hlive, hstate, hseq, hdelta, ?_⟩
  unfold Ledger.step
  rw [hanswer]
  rfl

/-- A tenant whose last append was lost is recovered without the last commit. -/
theorem recoversGenuinely_last_lost :
    ∃ w, (idle ∅).registerTenantWithWalPath "t" "pw" singleWitnessDb (some "t.wal") none = (.ok (), w) ∧
      (Run.exec (Ledger.step "t") ⟨w, []⟩ [callCell 0 1 none, callCell 1 2 (some noSpace)]).attempts =
        [⟨⟨[(0, 1)]⟩, true⟩, ⟨⟨[(1, 2)]⟩, false⟩] ∧
      RecoversGenuinely "t" "t.wal" singleWitnessCfg ⟨0, 0⟩ ⟨[]⟩
        (Run.exec (Ledger.step "t") ⟨w, []⟩ [callCell 0 1 none, callCell 1 2 (some noSpace)]) := by
  obtain ⟨w, f, hregister, -, h₀⟩ := Live.register (Disk.walBlank_empty "t.wal") singleWitnessDb_ready
  have hstart : Live (⟨w, []⟩ : Ledger _).world _ _ := h₀
  obtain ⟨slot₁, event, h₁, hstate₁, -, -, hattempts₁⟩ := hstart.call_logged (by simp) 0 1 rfl
  have hshape : validateCommitShape (defaultParams .binaryMerkle) 1
      (apply slot₁.db.state ⟨[(1, 2)]⟩).values.length = .ok () := by
    rw [hstate₁]
    rfl
  obtain ⟨slot₂, -, -, -, hattempts₂⟩ := h₁.call_lost 1 2 hshape
  have hattempts : (Run.exec (Ledger.step "t") ⟨w, []⟩ [callCell 0 1 none, callCell 1 2 (some noSpace)]).attempts =
      [⟨⟨[(0, 1)]⟩, true⟩, ⟨⟨[(1, 2)]⟩, false⟩] := by
    rw [Run.exec_cons, Run.exec_cons, Run.exec_nil, hattempts₂, hattempts₁]
    rfl
  have hkeys : walKeys (Serde.identity .reference) (idle ∅).disk "t.wal" = [] :=
    walKeys_eq_nil_iff.mpr (Disk.walBlank_empty "t.wal").2
  refine ⟨w, hregister, hattempts, (recoversGenuinely_iff (Serde.identity_roundTrips _) hregister hkeys _
    singleWitnessCfg ⟨0, 0⟩).mpr ⟨singleWitnessCfg_openable, ?_, .inl rfl⟩⟩
  rw [hattempts]
  decide

/-- The first append is lost and the second goes through. `load_wal` accepts the log and returns one entry, of height two,
over a state without the first write. -/
theorem recovery_skips_lost_commit :
    ∃ w loaded, (idle ∅).registerTenantWithWalPath "t" "pw" singleWitnessDb (some "t.wal") none = (.ok (), w) ∧
      loadWal _ "t.wal" singleWitnessCfg ⟨0, 0⟩
        (Run.exec (Ledger.step "t") ⟨w, []⟩ [callCell 0 1 (some noSpace), callCell 1 2 none]).world.disk =
          some (.ok loaded) ∧
      loaded.entries.map (·.height) = [2] ∧ loaded.state = ⟨[0, 2]⟩ ∧
      ¬ RecoversGenuinely "t" "t.wal" singleWitnessCfg ⟨0, 0⟩ ⟨[]⟩
        (Run.exec (Ledger.step "t") ⟨w, []⟩ [callCell 0 1 (some noSpace), callCell 1 2 none]) := by
  obtain ⟨w, f, hregister, -, h₀⟩ := Live.register (Disk.walBlank_empty "t.wal") singleWitnessDb_ready
  have hstart : Live (⟨w, []⟩ : Ledger _).world _ _ := h₀
  obtain ⟨slot₁, h₁, hstate₁, hlength₁, -⟩ := hstart.call_lost 0 1 rfl
  have hshape : validateCommitShape (defaultParams .binaryMerkle) 1
      (apply slot₁.db.state ⟨[(1, 2)]⟩).values.length = .ok () := by
    rw [hstate₁]
    rfl
  obtain ⟨slot₂, event, h₂, -, hseq, hdelta, -⟩ := h₁.call_logged (by simp) 1 2 hshape
  obtain ⟨loaded, hload, hrebuilt, -⟩ := h₂.loads
  have hheights : loaded.entries.map (·.height) = [2] := by
    have hheight : event.entry.height = event.seq := (h₂.logAt.sound event (by simp)).2
    rw [hrebuilt.entries, List.nil_append, List.map_cons, List.map_cons, hheight, hseq, hlength₁]
    rfl
  refine ⟨w, loaded, hregister, hload, hheights, ?_, ?_⟩
  · rw [hrebuilt.state, List.nil_append, List.foldl_cons, List.foldl_nil, hdelta]
    rfl
  · rintro ⟨found, -, ⟨e, herror⟩ | ⟨again, hagain, hgenuine⟩⟩
    · rw [Run.exec_cons, Run.exec_cons, Run.exec_nil, hload] at herror
      cases herror
    · obtain rfl : again = loaded := Except.ok.inj (Option.some.inj (hagain.symm.trans hload))
      -- the first entry would have to be of height one
      cases hentries : again.entries with
      | nil =>
        rw [hentries] at hheights
        cases hheights
      | cons first rest =>
        have hone := hgenuine.contiguous.height_eq 0 first (by rw [hentries]; rfl)
        rw [hentries, List.map_cons, hone] at hheights
        cases hheights

end Sample

end World

end AgentHalo.Tenant
