import AgentHalo.Engine.Extension
import AgentHalo.Tenant.Steps

/-!
# Recovery of a tenant that is never checkpointed

A tenant that starts without a history keeps what it commits in memory and in the event table on disk. As long as nobody
truncates the log, replaying the table rebuilds the state, the entries, the leaves and the tree head: `Mirrored` is the
invariant, and it survives a recovery. The table must be empty when the tenant is registered, as `init_wal` does not look at
the events, and the configuration has to pass the default parameters, under which `load_wal` opens the database. So what
the tenant has published stays good; a checkpoint, after which `load_wal` starts a new history, would end that.
-/

namespace AgentHalo.Tenant

open Engine Engine.NucleusDb
open Persistence

variable {P : Platform} {S : Serde P}

def TenantStep.KeepsLog : TenantStep P → Prop
  | .checkpoint .. => False
  | _ => True

/-- The two databases have the same state and the same history. -/
structure SameHistory (db db' : NucleusDb P) : Prop where
  state : db'.state = db.state
  entries : db'.entries = db.entries
  ctLeaves : db'.ctLeaves = db.ctLeaves
  currentSth : db'.currentSth = db.currentSth

namespace World

/-- `load_wal` gives back the history in memory, and the next commit on it continues at the next height. -/
def Replays (tenantId path : String) (witnessCfg : WitnessConfig P) (clock : Clock) (w : World S) : Prop :=
  ∃ slot db, w.manager.tenants[tenantId]? = some slot ∧
    loadWal S path witnessCfg clock w.disk = some (.ok db) ∧ SameHistory slot.db db ∧
    ∀ (delta : Delta) (localViews : List LocalSection) (now : Nat) (entry : CommitEntry) (db' : NucleusDb P),
      db.commit delta localViews now = some (.ok entry, db') → entry.height = slot.db.entries.length + 1

/-- Memory and log agree, and the events are numbered from one. -/
structure Mirrored (tenantId path : String) (backend : VcBackend) (w : World S) (slot : TenantSlot P) (log : Log P) :
    Prop extends Logged tenantId path w slot log where
  backend : log.walMeta.backend = backend
  rebuilt : Rebuilt log slot.db
  numbered : ∀ event ∈ log.events, event.seq ≤ log.events.length

/-! ### One step -/

section Step

variable {tenantId path : String} {backend : VcBackend} {w : World S} {slot : TenantSlot P} {log : Log P}

theorem Mirrored.length_eq (h : Mirrored tenantId path backend w slot log) :
    slot.db.entries.length = log.events.length := by
  rw [h.rebuilt.entries, List.length_map]

theorem Mirrored.commit (hS : S.RoundTrips) {principalId authToken : String} {delta : Delta}
    {localViews : List LocalSection} {now : Nat} {fault : Option Fault} (h : Mirrored tenantId path backend w slot log)
    (hok : w.Succeeds tenantId path (.commit principalId authToken delta localViews now fault)) :
    ∃ slot' log', Mirrored tenantId path backend
      (w.step tenantId path (.commit principalId authToken delta localViews now fault)) slot' log' := by
  have habove : ∀ event ∈ log.events, event.seq ≤ slot.db.entries.length := by
    intro event hevent
    rw [h.length_eq]
    exact h.numbered event hevent
  obtain ⟨entry, db, ctLeaf, hcommit, hleaf, hlogged⟩ := h.toLogged.commit hS habove hok
  refine ⟨_, _, hlogged, h.backend, h.rebuilt.commit hcommit hleaf, ?_⟩
  intro event hevent
  rw [List.length_append, List.length_singleton]
  rcases List.mem_append.mp hevent with hold | hnew
  · exact Nat.le_succ_of_le (h.numbered event hold)
  · -- the new event carries the number of entries after the commit
    have hseq : event.seq = db.entries.length := by
      rw [List.mem_singleton.mp hnew]
      rfl
    rw [hseq, (commit_advanced hcommit).entries, List.length_append, h.length_eq, List.length_singleton]

theorem Mirrored.recover {policy : MultiTenantPolicy} {authToken : String} {witnessCfg : WitnessConfig P} {clock : Clock}
    (h : Mirrored tenantId path backend w slot log)
    (hok : w.Succeeds tenantId path (.recover policy authToken witnessCfg clock)) :
    ∃ slot' log', Mirrored tenantId path backend
      (w.step tenantId path (.recover policy authToken witnessCfg clock)) slot' log' := by
  obtain ⟨db, hrebuilt, hlogged⟩ := h.toLogged.recover hok
  exact ⟨_, _, hlogged, h.backend, hrebuilt, h.numbered⟩

theorem Mirrored.step (hS : S.RoundTrips) (a : TenantStep P)
    (h : ∃ slot log, Mirrored tenantId path backend w slot log)
    (hstep : w.Succeeds tenantId path a ∧ a.KeepsLog) :
    ∃ slot log, Mirrored tenantId path backend (w.step tenantId path a) slot log := by
  obtain ⟨slot, log, hm⟩ := h
  obtain ⟨hok, hkeeps⟩ := hstep
  cases a with
  | commit principalId authToken delta localViews now fault => exact hm.commit hS hok
  | checkpoint principalId authToken snapshotPath nanos saveFault faults => exact hkeeps.elim
  | registerPrincipal adminPrincipalId adminAuthToken principalId principalAuthToken role =>
    obtain ⟨principals, hlogged⟩ := hm.toLogged.registerPrincipal hok
    exact ⟨_, _, hlogged, hm.backend, hm.rebuilt, hm.numbered⟩
  | recover policy authToken witnessCfg clock => exact hm.recover hok

theorem Mirrored.replays (h : Mirrored tenantId path backend w slot log) {witnessCfg : WitnessConfig P}
    (hopen : Openable backend witnessCfg) (clock : Clock) : w.Replays tenantId path witnessCfg clock := by
  have hopen' : Openable log.walMeta.backend witnessCfg := by
    rw [h.backend]
    exact hopen
  obtain ⟨db, hload, hdb⟩ := loadWal_of_openable h.logAt hopen' clock
  have hentries : db.entries = slot.db.entries := hdb.entries.trans h.rebuilt.entries.symm
  refine ⟨slot, db, h.registered, hload, ?_, ?_⟩
  · constructor
    · exact hdb.state.trans h.rebuilt.state.symm
    · exact hentries
    · exact hdb.ctLeaves.trans h.rebuilt.ctLeaves.symm
    · exact hdb.currentSth.trans h.rebuilt.currentSth.symm
  · intro delta localViews now entry db' hcommit
    rw [(commit_advanced hcommit).height, hentries]

end Step

/-! ### Whole runs -/

/-- **Recovery without checkpoints is exact, if and only if the log starts empty.** In every run of successful steps
without a checkpoint, `load_wal` gives back the history in memory at every moment, exactly if the log had no events when
the tenant was registered and the configuration passes the default parameters. -/
theorem replays_along_iff (hS : S.RoundTrips) {initial : State} {db : NucleusDb P} (hdb : FreshlyBuilt initial db)
    {w w' : World S} {tenantId authToken path : String} {fault : Option Fault}
    (hregister : w.registerTenantWithWalPath tenantId authToken db (some path) fault = (.ok (), w'))
    (witnessCfg : WitnessConfig P) (clock : Clock) :
    (∀ steps : List (TenantStep P),
      Run.Along (World.step tenantId path) (fun w a => w.Succeeds tenantId path a ∧ a.KeepsLog) w' steps →
        (Run.exec (World.step tenantId path) w' steps).Replays tenantId path witnessCfg clock) ↔
      Openable db.backend witnessCfg ∧ walKeys S w.disk path = [] := by
  obtain ⟨-, hentries, hleaves, hsth⟩ := hdb.fresh
  constructor
  · -- already the state after the registration tells
    intro hall
    obtain ⟨slot, loaded, hslot, hload, hsame, -⟩ := hall [] trivial
    obtain ⟨hnew, hinit⟩ := registerTenantWithWalPath_ok hregister
    obtain ⟨walMeta, hopened, -, hbackend⟩ := initWal_opened hS hinit
    obtain ⟨hopen, hlength⟩ := hopened.loadWal_ok hload
    obtain rfl : slot = MultiTenantNucleusDb.newSlot authToken db (some path) := Option.some.inj (hslot.symm.trans hnew)
    refine ⟨hbackend ▸ hopen, ?_⟩
    have hnone : loaded.entries = [] := hsame.entries.trans hentries
    unfold walKeys
    rw [List.map_eq_nil_iff, ← List.length_eq_zero_iff, ← hlength, hnone]
    rfl
  · rintro ⟨hopen, hkeys⟩ steps hrun
    obtain ⟨walMeta, hlogged, hstate, hbackend⟩ := Logged.register hS hregister (walKeys_eq_nil_iff.mp hkeys)
    have hstart : ∃ slot log, Mirrored tenantId path db.backend w' slot log := by
      refine ⟨_, _, hlogged, hbackend, ⟨Restated.of_empty hstate hbackend, hentries, hleaves, hsth⟩, ?_⟩
      intro event hevent
      cases hevent
    obtain ⟨slot, log, hm⟩ := Run.exec_invariant_along
      (I := fun w => ∃ slot log, Mirrored tenantId path db.backend w slot log)
      (fun _ a h hstep => Mirrored.step hS a h hstep) hstart hrun
    exact hm.replays hopen clock

/-- The tenant commits, is recovered, commits again, and can be recovered as it then is. -/
theorem replays_commit_restart_commit :
    ∃ w, (idle ∅).registerTenantWithWalPath "t" "pw" singleWitnessDb (some "t.wal") none = (.ok (), w) ∧
      Run.Along (World.step "t" "t.wal") (fun w a => w.Succeeds "t" "t.wal" a ∧ a.KeepsLog) w
        [commitCell 0 1, restart, commitCell 1 2] ∧
      (Run.exec (World.step "t" "t.wal") w [commitCell 0 1, restart, commitCell 1 2]).Replays "t" "t.wal"
        singleWitnessCfg ⟨0, 0⟩ := by
  obtain ⟨w, f, hregister, -, h₀⟩ := Live.register (Disk.walBlank_empty "t.wal") singleWitnessDb_ready
  have hshape₀ : validateCommitShape (defaultParams .binaryMerkle) 1
      (apply (MultiTenantNucleusDb.newSlot "pw" singleWitnessDb (some "t.wal")).db.state ⟨[(0, 1)]⟩).values.length =
        .ok () := rfl
  obtain ⟨slot₁, event, h₁, hstate₁, -, -, hdelta, -⟩ := h₀.commit (by simp) hshape₀
  obtain ⟨hrestart, slot₂, h₂, hrebuilt⟩ := h₁.recover
  have hstate₂ : slot₂.db.state = ⟨[1]⟩ := by
    rw [hrebuilt.state, List.nil_append, List.foldl_cons, List.foldl_nil, hdelta]
    rfl
  have hshape₂ : validateCommitShape (defaultParams .binaryMerkle) 1
      (apply slot₂.db.state ⟨[(1, 2)]⟩).values.length = .ok () := by
    rw [hstate₂]
    rfl
  have hrun : Run.Along (World.step "t" "t.wal") (fun w a => w.Succeeds "t" "t.wal" a ∧ a.KeepsLog) w
      [commitCell 0 1, restart, commitCell 1 2] :=
    ⟨⟨h₀.commit_succeeds hshape₀, trivial⟩, ⟨hrestart, trivial⟩, ⟨h₂.commit_succeeds hshape₂, trivial⟩, trivial⟩
  have hkeys : walKeys (Serde.identity .reference) (idle ∅).disk "t.wal" = [] :=
    walKeys_eq_nil_iff.mpr (Disk.walBlank_empty "t.wal").2
  exact ⟨w, hregister, hrun, (replays_along_iff (Serde.identity_roundTrips _) singleWitnessDb_freshlyBuilt hregister
    singleWitnessCfg ⟨0, 0⟩).mpr ⟨singleWitnessCfg_openable, hkeys⟩ _ hrun⟩

/-! ### The heads of a tenant -/

/-- Memory and log agree on a sound history that begins with `leaves`. -/
def HeadsKept (tenantId path : String) (backend : VcBackend) (leaves : List NodeHash) (w : World S) : Prop :=
  ∃ slot log, Mirrored tenantId path backend w slot log ∧ LogSound slot.db ∧ leaves <+: slot.db.ctLeaves

theorem HeadsKept.step (hS : S.RoundTrips) {tenantId path : String} {backend : VcBackend} {leaves : List NodeHash}
    {w : World S} (a : TenantStep P) (h : HeadsKept tenantId path backend leaves w)
    (hstep : w.Succeeds tenantId path a ∧ a.KeepsLog) :
    HeadsKept tenantId path backend leaves (w.step tenantId path a) := by
  obtain ⟨slot, log, hm, hsound, hbegins⟩ := h
  obtain ⟨slot', log', hm'⟩ := Mirrored.step hS a ⟨slot, log, hm⟩ hstep
  refine ⟨slot', log', hm', ?_⟩
  obtain ⟨hok, hkeeps⟩ := hstep
  cases a with
  | commit principalId authToken delta localViews now fault =>
    obtain ⟨entry, hentry⟩ := hok
    obtain ⟨found, db, hfound, hcommit, hslot, -⟩ := commitAs_ok hentry
    obtain rfl := hm.toLogged.slot_eq hfound
    obtain rfl := hm'.toLogged.slot_eq hslot
    obtain ⟨leaf, hleaves⟩ := (commit_advanced hcommit).ctLeaves
    refine ⟨hsound.commit hcommit, ?_⟩
    dsimp only
    rw [hleaves]
    exact hbegins.trans (List.prefix_append _ _)
  | checkpoint principalId authToken snapshotPath nanos saveFault faults => exact hkeeps.elim
  | registerPrincipal adminPrincipalId adminAuthToken principalId principalAuthToken role =>
    obtain ⟨-, found, principals, hfound, hslot⟩ := registerPrincipal_ok hok
    obtain rfl := hm.toLogged.slot_eq hfound
    obtain rfl := hm'.toLogged.slot_eq hslot
    exact ⟨hsound, hbegins⟩
  | recover policy authToken witnessCfg clock =>
    obtain ⟨-, db, hload, hslot⟩ := crashAndRecover_ok hok
    obtain rfl := hm'.toLogged.slot_eq hslot
    -- the log rebuilds what was in memory
    have hdb := loadWal_rebuilt hm.logAt hload
    have hleaves := hdb.ctLeaves.trans hm.rebuilt.ctLeaves.symm
    refine ⟨hsound.congr hleaves (hdb.currentSth.trans hm.rebuilt.currentSth.symm)
      (hdb.entries.trans hm.rebuilt.entries.symm), ?_⟩
    exact hleaves ▸ hbegins

/-- **What a tenant has published stays good across crashes.** In a run of successful steps without a checkpoint, on a
tenant that was registered new over a log without events, the database at the end serves whoever kept the head and the
entries of any moment before, however often it was rebuilt from the log between. -/
theorem serves_along (hS : S.RoundTrips) {initial : State} {db : NucleusDb P} (hdb : FreshlyBuilt initial db)
    {w w' : World S} {tenantId authToken path : String} {fault : Option Fault}
    (hregister : w.registerTenantWithWalPath tenantId authToken db (some path) fault = (.ok (), w'))
    (hkeys : walKeys S w.disk path = []) (before after : List (TenantStep P))
    (hrun : Run.Along (World.step tenantId path) (fun w a => w.Succeeds tenantId path a ∧ a.KeepsLog) w' (before ++ after)) :
    ∃ slot slot', (Run.exec (World.step tenantId path) w' before).manager.tenants[tenantId]? = some slot ∧
      (Run.exec (World.step tenantId path) w' (before ++ after)).manager.tenants[tenantId]? = some slot' ∧
      ∀ old, slot.db.currentSth = some old → slot'.db.Serves old slot.db.entries := by
  obtain ⟨-, hentries, hleaves, hsth⟩ := hdb.fresh
  obtain ⟨walMeta, hlogged, hstate, hbackend⟩ := Logged.register hS hregister (walKeys_eq_nil_iff.mp hkeys)
  have hstart : HeadsKept tenantId path db.backend [] w' :=
    ⟨_, _, ⟨hlogged, hbackend, ⟨Restated.of_empty hstate hbackend, hentries, hleaves, hsth⟩, fun _ h => nomatch h⟩,
      LogSound.of_fresh hdb, List.nil_prefix⟩
  obtain ⟨hfront, hback⟩ := Run.along_append.mp hrun
  obtain ⟨slot, log, hm, hsound, -⟩ := Run.exec_invariant_along (fun _ a h hstep => HeadsKept.step hS a h hstep) hstart hfront
  have hthen : HeadsKept tenantId path db.backend slot.db.ctLeaves (Run.exec (World.step tenantId path) w' before) :=
    ⟨slot, log, hm, hsound, List.prefix_refl _⟩
  obtain ⟨slot', log', hm', hsound', hbegins⟩ :=
    Run.exec_invariant_along (fun _ a h hstep => HeadsKept.step hS a h hstep) hthen hback
  rw [← Run.exec_append] at hm'
  exact ⟨slot, slot', hm.registered, hm'.registered, fun old hold => hsound.serves hsound' hbegins hold⟩

/-- A commit, and a crash after it. -/
theorem serves_along_restart : ∃ w slot slot',
    (idle ∅).registerTenantWithWalPath "t" "pw" singleWitnessDb (some "t.wal") none = (.ok (), w) ∧
      (Run.exec (World.step "t" "t.wal") w [commitCell 0 1]).manager.tenants["t"]? = some slot ∧
      (Run.exec (World.step "t" "t.wal") w ([commitCell 0 1] ++ [restart])).manager.tenants["t"]? = some slot' ∧
      ∀ old, slot.db.currentSth = some old → slot'.db.Serves old slot.db.entries := by
  obtain ⟨w, f, hregister, -, h₀⟩ := Live.register (Disk.walBlank_empty "t.wal") singleWitnessDb_ready
  have hshape : validateCommitShape (defaultParams .binaryMerkle) 1
      (apply (MultiTenantNucleusDb.newSlot "pw" singleWitnessDb (some "t.wal")).db.state ⟨[(0, 1)]⟩).values.length =
        .ok () := rfl
  obtain ⟨slot₁, event, h₁, -⟩ := h₀.commit (by simp) hshape
  obtain ⟨slot, slot', hslot, hslot', hserves⟩ := serves_along (Serde.identity_roundTrips _) singleWitnessDb_freshlyBuilt
    hregister (walKeys_eq_nil_iff.mpr (Disk.walBlank_empty "t.wal").2) [commitCell 0 1] [restart]
    ⟨⟨h₀.commit_succeeds hshape, trivial⟩, ⟨h₁.recover.1, trivial⟩, trivial⟩
  exact ⟨w, slot, slot', hregister, hslot, hslot', hserves⟩

theorem not_replays_of_events {disk : (Serde.identity .reference).Files} {db : NucleusDb .reference}
    (hready : db.Ready) (hfresh : db.entries = []) {event : WalEventV1}
    (hused : LogAt (Serde.identity .reference) disk "t.wal" ⟨walMetaOf db, [event]⟩) :
    ∃ w loaded, (idle disk).registerTenantWithWalPath "t" "pw" db (some "t.wal") none = (.ok (), w) ∧
      loadWal _ "t.wal" singleWitnessCfg ⟨0, 0⟩ w.disk = some (.ok loaded) ∧ loaded.entries.length = 1 ∧
      ¬ w.Replays "t" "t.wal" singleWitnessCfg ⟨0, 0⟩ := by
  obtain ⟨f, hinit, hlog⟩ := initWal_of_matches hused (WalMetaV1.matches_self (walMetaOf db))
  have hlive := Live.of_newSlot hready hlog ⟨db, hready, rfl⟩
  obtain ⟨loaded, hload, hrebuilt, -⟩ := hlive.loads
  have hone : loaded.entries.length = 1 := by
    rw [hrebuilt.entries]
    rfl
  refine ⟨_, loaded, registerTenantWithWalPath_of_init hinit "t" "pw", hload, hone, ?_⟩
  rintro ⟨slot, again, hslot, hagain, hsame, -⟩
  obtain rfl := hlive.slot_eq hslot
  obtain rfl : again = loaded := Except.ok.inj (Option.some.inj (hagain.symm.trans hload))
  -- memory has no entry
  have hnone : again.entries = [] := hsame.entries.trans hfresh
  rw [hnone] at hone
  cases hone

def usedWorld : World (Serde.identity .reference) :=
  ((idle ∅).registerTenantWithWalPath "t" "pw" singleWitnessDb (some "t.wal") none).2.step "t" "t.wal" (commitCell 0 1)

/-- A new database is registered over the log of an earlier run of the tenant and accepted; memory has no entries, and
`load_wal` returns the entry of the earlier run. -/
theorem stale_log_accepted :
    FreshlyBuilt ⟨[]⟩ singleWitnessDb ∧ Openable singleWitnessDb.backend singleWitnessCfg ∧
    ∃ w loaded, (idle usedWorld.disk).registerTenantWithWalPath "t" "pw" singleWitnessDb (some "t.wal") none = (.ok (), w) ∧
      loadWal _ "t.wal" singleWitnessCfg ⟨0, 0⟩ w.disk = some (.ok loaded) ∧ loaded.entries.length = 1 ∧
      ¬ w.Replays "t" "t.wal" singleWitnessCfg ⟨0, 0⟩ := by
  refine ⟨singleWitnessDb_freshlyBuilt, singleWitnessCfg_openable, ?_⟩
  obtain ⟨w, f, hregister, -, h₀⟩ := Live.register (Disk.walBlank_empty "t.wal") singleWitnessDb_ready
  have hshape : validateCommitShape (defaultParams .binaryMerkle) 1
      (apply (MultiTenantNucleusDb.newSlot "pw" singleWitnessDb (some "t.wal")).db.state ⟨[(0, 1)]⟩).values.length =
        .ok () := rfl
  obtain ⟨slot, event, h₁, -⟩ := h₀.commit (by simp) hshape
  have hw : ((idle ∅).registerTenantWithWalPath "t" "pw" singleWitnessDb (some "t.wal") none).2 = w := by
    rw [hregister]
  unfold usedWorld
  rw [hw]
  exact not_replays_of_events singleWitnessDb_ready rfl h₁.logAt

end World

end AgentHalo.Tenant
