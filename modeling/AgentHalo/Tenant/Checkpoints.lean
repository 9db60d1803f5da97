import AgentHalo.Tenant.Steps

/-!
# Recovery of a tenant that is checkpointed

A checkpoint starts a new log from the state in memory, and the commits after it are recorded there. `Retained` is the
invariant: the state in memory is the one the log starts from with the recorded writes applied. It holds as long as every
event goes to the end of the table, keyed by the number of entries in memory. A checkpoint does not reset that number, but
a recovery counts from one again, and the next event is then replayed out of order or replaces an acknowledged write.
`Undisturbed` rules this out, and `losingRun` is the shortest way into it.
-/

namespace AgentHalo.Tenant

open Engine Engine.NucleusDb
open Persistence

variable {P : Platform} {S : Serde P}

/-- The writes acknowledged since the last checkpoint, oldest first, after one more step. -/
def TenantStep.acknowledge (pending : List Delta) : TenantStep P → List Delta
  | .commit _ _ delta _ _ _ => pending ++ [delta]
  | .checkpoint .. => []
  | .registerPrincipal .. => pending
  | .recover .. => pending

namespace World

/-- What a step must find for the log to keep its order: a commit, no event numbered above the entries in memory; a
checkpoint, no events at the path where it builds the new log. -/
def Undisturbed (tenantId path : String) (w : World S) : TenantStep P → Prop
  | .commit .. => ∀ slot, w.manager.tenants[tenantId]? = some slot →
    ∀ key ∈ walKeys S w.disk path, key ≤ slot.db.entries.length
  | .checkpoint _ _ _ nanos _ _ => walKeys S w.disk (swapPath path nanos) = []
  | .registerPrincipal .. => True
  | .recover .. => True

/-- The log records the pending writes in order, and `load_wal` gives back the state in memory. -/
def KeepsWrites (tenantId path : String) (witnessCfg : WitnessConfig P) (clock : Clock) (pending : List Delta)
    (w : World S) : Prop :=
  ∃ slot log db, w.manager.tenants[tenantId]? = some slot ∧
    LogAt S w.disk path log ∧ log.events.map (·.delta) = pending ∧
    loadWal S path witnessCfg clock w.disk = some (.ok db) ∧ db.state.values = slot.db.state.values

structure Retained (tenantId path : String) (backend : VcBackend) (pending : List Delta) (w : World S)
    (slot : TenantSlot P) (log : Log P) : Prop extends Logged tenantId path w slot log where
  backend : log.walMeta.backend = backend
  restated : Restated log slot.db
  pending : log.events.map (·.delta) = pending

/-! ### One step -/

section Step

variable {tenantId path : String} {backend : VcBackend} {pending : List Delta} {w : World S} {slot : TenantSlot P}
  {log : Log P}

theorem Retained.commit (hS : S.RoundTrips) {principalId authToken : String} {delta : Delta}
    {localViews : List LocalSection} {now : Nat} {fault : Option Fault}
    (h : Retained tenantId path backend pending w slot log)
    (hok : w.Succeeds tenantId path (.commit principalId authToken delta localViews now fault))
    (hfree : w.Undisturbed tenantId path (.commit principalId authToken delta localViews now fault)) :
    ∃ slot' log', Retained tenantId path backend (pending ++ [delta])
      (w.step tenantId path (.commit principalId authToken delta localViews now fault)) slot' log' := by
  have habove : ∀ event ∈ log.events, event.seq ≤ slot.db.entries.length := by
    intro event hevent
    apply hfree slot h.registered
    rw [h.logAt.walKeys_eq]
    exact List.mem_map_of_mem hevent
  obtain ⟨entry, db, ctLeaf, hcommit, -, hlogged⟩ := h.toLogged.commit hS habove hok
  refine ⟨_, _, hlogged, h.backend, h.restated.commit hcommit ctLeaf, ?_⟩
  rw [List.map_append, h.pending]
  rfl

theorem Retained.checkpoint (hS : S.RoundTrips) {principalId authToken snapshotPath : String} {nanos : Nat}
    {saveFault : Option Fault} {faults : TruncateFaults} (h : Retained tenantId path backend pending w slot log)
    (hok : w.Succeeds tenantId path (.checkpoint principalId authToken snapshotPath nanos saveFault faults))
    (hfree : w.Undisturbed tenantId path (.checkpoint principalId authToken snapshotPath nanos saveFault faults)) :
    ∃ slot' log', Retained tenantId path backend []
      (w.step tenantId path (.checkpoint principalId authToken snapshotPath nanos saveFault faults)) slot' log' := by
  have hunused : (w.disk.file (swapPath path nanos)).events = ∅ := walKeys_eq_nil_iff.mp hfree
  obtain ⟨walMeta, hstate, hbackend, hlogged⟩ := h.toLogged.checkpoint hS hunused hok
  have hsame : walMeta.backend = backend := by
    rw [hbackend, h.restated.backend, h.backend]
  exact ⟨_, _, hlogged, hsame, Restated.of_empty hstate hbackend, rfl⟩

theorem Retained.step (hS : S.RoundTrips) (a : TenantStep P)
    (h : ∃ slot log, Retained tenantId path backend pending w slot log)
    (hstep : w.Succeeds tenantId path a ∧ w.Undisturbed tenantId path a) :
    ∃ slot log, Retained tenantId path backend (a.acknowledge pending) (w.step tenantId path a) slot log := by
  obtain ⟨slot, log, hr⟩ := h
  obtain ⟨hok, hfree⟩ := hstep
  cases a with
  | commit principalId authToken delta localViews now fault => exact hr.commit hS hok hfree
  | checkpoint principalId authToken snapshotPath nanos saveFault faults => exact hr.checkpoint hS hok hfree
  | registerPrincipal adminPrincipalId adminAuthToken principalId principalAuthToken role =>
    obtain ⟨principals, hlogged⟩ := hr.toLogged.registerPrincipal hok
    exact ⟨_, _, hlogged, hr.backend, hr.restated, hr.pending⟩
  | recover policy authToken witnessCfg clock =>
    obtain ⟨db, hrebuilt, hlogged⟩ := hr.toLogged.recover hok
    exact ⟨_, _, hlogged, hr.backend, hrebuilt.toRestated, hr.pending⟩

theorem Retained.keepsWrites (h : Retained tenantId path backend pending w slot log)
    {witnessCfg : WitnessConfig P} (hopen : Openable backend witnessCfg) (clock : Clock) :
    w.KeepsWrites tenantId path witnessCfg clock pending := by
  have hopen' : Openable log.walMeta.backend witnessCfg := by
    rw [h.backend]
    exact hopen
  obtain ⟨db, hload, hdb⟩ := loadWal_of_openable h.logAt hopen' clock
  refine ⟨slot, log, db, h.registered, h.logAt, h.pending, hload, ?_⟩
  rw [hdb.state, h.restated.state]

end Step

/-- **No acknowledged write is lost in a run that never disturbs its log.** The tenant may start from any database; its
log has no events when it is registered. After every run of successful steps, in any order, the log records the writes
acknowledged since the last checkpoint, and `load_wal` returns the state in memory. -/
theorem keepsWrites_along (hS : S.RoundTrips) {db : NucleusDb P} {w w' : World S} {tenantId authToken path : String}
    {fault : Option Fault}
    (hregister : w.registerTenantWithWalPath tenantId authToken db (some path) fault = (.ok (), w'))
    (hempty : walKeys S w.disk path = []) {witnessCfg : WitnessConfig P} (hopen : Openable db.backend witnessCfg)
    (clock : Clock) {steps : List (TenantStep P)}
    (hrun : Run.Along (World.step tenantId path)
      (fun w a => w.Succeeds tenantId path a ∧ w.Undisturbed tenantId path a) w' steps) :
    (Run.exec (World.step tenantId path) w' steps).KeepsWrites tenantId path witnessCfg clock
      (steps.foldl TenantStep.acknowledge []) := by
  obtain ⟨walMeta, hlogged, hstate, hbackend⟩ := Logged.register hS hregister (walKeys_eq_nil_iff.mp hempty)
  have hstart : ∃ slot log, Retained tenantId path db.backend [] w' slot log :=
    ⟨_, _, hlogged, hbackend, Restated.of_empty hstate hbackend, rfl⟩
  obtain ⟨slot, log, hr⟩ := Run.exec_invariant_noting TenantStep.acknowledge
    (I := fun pending w => ∃ slot log, Retained tenantId path db.backend pending w slot log)
    (fun _ _ a h hstep => Retained.step hS a h hstep) hstart hrun
  exact hr.keepsWrites hopen clock

/-! ### A checkpoint, and the run that loses a write -/

theorem wal_ne_swapPath (nanos : Nat) : "t.wal" ≠ swapPath "t.wal" nanos := by
  intro h
  have hlist := congrArg String.toList h
  simp [swapPath, withExtension] at hlist

theorem exists_committed : ∃ w slot event,
    (idle ∅).registerTenantWithWalPath "t" "pw" singleWitnessDb (some "t.wal") none = (.ok (), w) ∧
      w.Succeeds "t" "t.wal" (commitCell 0 1) ∧ walKeys (Serde.identity .reference) w.disk "t.wal" = [] ∧
      Live (w.step "t" "t.wal" (commitCell 0 1)) slot ⟨walMetaOf singleWitnessDb, [event]⟩ ∧
      slot.db.state = ⟨[1]⟩ ∧ slot.db.entries.length = 1 ∧
      ((w.step "t" "t.wal" (commitCell 0 1)).disk.file (swapPath "t.wal" 0)).WalBlank := by
  obtain ⟨w, f, hregister, hdisk, h₀⟩ := Live.register (Disk.walBlank_empty "t.wal") singleWitnessDb_ready
  have hshape : validateCommitShape (defaultParams .binaryMerkle) 1
      (apply (MultiTenantNucleusDb.newSlot "pw" singleWitnessDb (some "t.wal")).db.state ⟨[(0, 1)]⟩).values.length =
        .ok () := rfl
  obtain ⟨slot, event, h₁, hstate, hlength, -, -, hother⟩ := h₀.commit (by simp) hshape
  refine ⟨w, slot, event, hregister, h₀.commit_succeeds hshape, h₀.logAt.walKeys_eq, h₁, hstate, hlength, ?_⟩
  rw [hother _ (wal_ne_swapPath 0), hdisk, Disk.file_put, if_neg (wal_ne_swapPath 0)]
  exact Disk.walBlank_empty _

/-- The tenant commits, is checkpointed, commits again and is recovered: the log has the write after the checkpoint. -/
theorem keepsWrites_commit_checkpoint_commit_restart :
    ∃ w, (idle ∅).registerTenantWithWalPath "t" "pw" singleWitnessDb (some "t.wal") none = (.ok (), w) ∧
      (Run.exec (World.step "t" "t.wal") w [commitCell 0 1, checkpointNow, commitCell 1 2, restart]).KeepsWrites "t"
        "t.wal" singleWitnessCfg ⟨0, 0⟩ [⟨[(1, 2)]⟩] := by
  obtain ⟨w, slot₁, event₁, hregister, hok₁, hkeys, h₁, hstate₁, -, hblank⟩ := exists_committed
  obtain ⟨hok₂, h₂⟩ := h₁.checkpoint hblank
  have hshape₃ : validateCommitShape (defaultParams .binaryMerkle) 1
      (apply slot₁.db.state ⟨[(1, 2)]⟩).values.length = .ok () := by
    rw [hstate₁]
    rfl
  obtain ⟨slot₃, event₃, h₃, -⟩ := h₂.commit (by simp) hshape₃
  obtain ⟨hok₄, -⟩ := h₃.recover
  have hfree : ∀ (w : World (Serde.identity .reference)) (idx : Nat) (value : UInt64),
      walKeys _ w.disk "t.wal" = [] → w.Undisturbed "t" "t.wal" (commitCell idx value) := by
    intro w idx value hnone slot hslot key hkey
    rw [hnone] at hkey
    cases hkey
  have hrun : Run.Along (World.step "t" "t.wal") (fun w a => w.Succeeds "t" "t.wal" a ∧ w.Undisturbed "t" "t.wal" a) w
      [commitCell 0 1, checkpointNow, commitCell 1 2, restart] :=
    ⟨⟨hok₁, hfree _ _ _ hkeys⟩, ⟨hok₂, walKeys_eq_nil_iff.mpr hblank.2⟩,
      ⟨h₂.commit_succeeds hshape₃, hfree _ _ _ h₂.logAt.walKeys_eq⟩, ⟨hok₄, trivial⟩, trivial⟩
  have hempty : walKeys (Serde.identity .reference) (idle ∅).disk "t.wal" = [] :=
    walKeys_eq_nil_iff.mpr (Disk.walBlank_empty "t.wal").2
  exact ⟨w, hregister, keepsWrites_along (Serde.identity_roundTrips _) hregister hempty singleWitnessCfg_openable ⟨0, 0⟩
    hrun⟩

theorem Live.commit_over {w : World (Serde.identity .reference)} {slot : TenantSlot .reference}
    {walMeta : WalMetaV1 .reference} {event : WalEventV1} (h : Live w slot ⟨walMeta, [event]⟩)
    (hseq : event.seq = slot.db.entries.length + 1) {idx : Nat} {value : UInt64}
    (hshape : validateCommitShape (defaultParams .binaryMerkle) 1
      (apply slot.db.state ⟨[(idx, value)]⟩).values.length = .ok ()) :
    ∃ slot' event', Live (w.step "t" "t.wal" (commitCell idx value)) slot' ⟨walMeta, [event']⟩ ∧
      slot'.db.state = apply slot.db.state ⟨[(idx, value)]⟩ ∧ event'.delta = ⟨[(idx, value)]⟩ := by
  obtain ⟨entry, db, ctLeaf, hcommit, hstep⟩ := h.commitAs idx value hshape
  have hadv := commit_advanced hcommit
  have hlength : db.entries.length = slot.db.entries.length + 1 := by
    rw [hadv.entries, List.length_append, List.length_singleton]
  -- the table is one row, at the key of the new event
  obtain ⟨row, rest, hrow, hrest, hlist⟩ := List.forall₂_cons_right_iff.mp h.logAt.events_eq
  obtain rfl := List.forall₂_nil_right_iff.mp hrest
  have hkey : row = (db.entries.length, row.2) := Prod.ext ((hrow.1.trans hseq).trans hlength.symm) rfl
  rw [hkey] at hlist
  have hafter := OrdMap.toList_insert_of_singleton hlist (eventOf ⟨[(idx, value)]⟩ db entry ctLeaf)
  refine ⟨{ slot with db }, eventOf ⟨[(idx, value)]⟩ db entry ctLeaf, ?_, hadv.state, rfl⟩
  have hworld : w.step "t" "t.wal" (commitCell idx value) = _ := congrArg Prod.snd hstep
  rw [hworld]
  refine ⟨⟨get?_setSlot _ _ _, h.walPath, h.logAt.put_withEvents ?_ ?_⟩, h.admin, h.healthy, h.ready.of_commit hcommit,
    h.recorded⟩
  · rw [hafter]
    exact List.Forall₂.cons ⟨rfl, rfl⟩ List.Forall₂.nil
  · intro e he
    rw [List.mem_singleton.mp he]
    exact ⟨rfl, hadv.height.trans hlength.symm⟩

def losingRun : List (TenantStep .reference) :=
  [commitCell 0 1, checkpointNow, commitCell 1 2, restart, commitCell 2 3]

/-- The second commit has number two; after the recovery, which replayed one event, so has the third, and it replaces the
second in the log. -/
theorem losingRun_loses_write :
    ∃ w, (idle ∅).registerTenantWithWalPath "t" "pw" singleWitnessDb (some "t.wal") none = (.ok (), w) ∧
      Run.Along (World.step "t" "t.wal") (fun w a => w.Succeeds "t" "t.wal" a) w losingRun ∧
      ∃ slot db, (Run.exec (World.step "t" "t.wal") w losingRun).manager.tenants["t"]? = some slot ∧
        loadWal _ "t.wal" singleWitnessCfg ⟨0, 0⟩ (Run.exec (World.step "t" "t.wal") w losingRun).disk = some (.ok db) ∧
        slot.db.state.values = [1, 2, 3] ∧ db.state.values = [1, 0, 3] := by
  obtain ⟨w, slot₁, event₁, hregister, hok₁, -, h₁, hstate₁, hlength₁, hblank⟩ := exists_committed
  obtain ⟨hok₂, h₂⟩ := h₁.checkpoint hblank
  have hshape₃ : validateCommitShape (defaultParams .binaryMerkle) 1
      (apply slot₁.db.state ⟨[(1, 2)]⟩).values.length = .ok () := by
    rw [hstate₁]
    rfl
  obtain ⟨slot₃, event₃, h₃, hstate₃, -, hseq₃, hdelta₃, -⟩ := h₂.commit (by simp) hshape₃
  obtain ⟨hok₄, slot₄, h₄, hrebuilt⟩ := h₃.recover
  have hstate₄ : slot₄.db.state = ⟨[1, 2]⟩ := by
    rw [hrebuilt.state, List.nil_append, List.foldl_cons, List.foldl_nil, hdelta₃]
    unfold walMetaOf
    rw [hstate₁]
    rfl
  have hseq₄ : event₃.seq = slot₄.db.entries.length + 1 := by
    rw [hseq₃, hrebuilt.entries, hlength₁]
    rfl
  have hshape₅ : validateCommitShape (defaultParams .binaryMerkle) 1
      (apply slot₄.db.state ⟨[(2, 3)]⟩).values.length = .ok () := by
    rw [hstate₄]
    rfl
  obtain ⟨slot₅, event₅, h₅, hstate₅, hdelta₅⟩ := Live.commit_over h₄ hseq₄ hshape₅
  obtain ⟨db, hload, hdb, -⟩ := h₅.loads
  refine ⟨w, hregister, ⟨hok₁, hok₂, h₂.commit_succeeds hshape₃, hok₄, h₄.commit_succeeds hshape₅, trivial⟩,
    slot₅, db, h₅.registered, hload, ?_, ?_⟩
  · rw [hstate₅, hstate₄]
    rfl
  · rw [hdb.state, List.foldl_cons, List.foldl_nil, hdelta₅]
    unfold walMetaOf
    rw [hstate₁]
    rfl

end World

end AgentHalo.Tenant
