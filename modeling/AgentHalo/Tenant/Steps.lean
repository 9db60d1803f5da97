import AgentHalo.Lib.Run
import AgentHalo.Persistence.WalSpec
import AgentHalo.Tenant.Manager

/-!
# The life of one tenant

A tenant with a log is registered once and then takes on principals, commits, is checkpointed, and is recovered after a
crash, in any order (`step`). For each call there is one inversion lemma: what a successful call (`Succeeds`) has found in
memory and on disk, and what it has left there. `Logged` puts the tenant's slot in memory beside its log on disk.
-/

namespace AgentHalo.Tenant

open Engine Engine.NucleusDb
open Persistence

variable {P : Platform} {S : Serde P}

inductive TenantStep (P : Platform) where
  | commit (principalId authToken : String) (delta : Delta) (localViews : List LocalSection) (now : Nat)
      (fault : Option Fault)
  | checkpoint (principalId authToken snapshotPath : String) (nanos : Nat) (saveFault : Option Fault)
      (faults : TruncateFaults)
  | registerPrincipal (adminPrincipalId adminAuthToken principalId principalAuthToken : String) (role : TenantRole)
  | recover (policy : MultiTenantPolicy) (authToken : String) (witnessCfg : WitnessConfig P) (clock : Clock)

namespace World

open MultiTenantNucleusDb (authorizedTenantSlotAs setSlot addTenant newSlot validateTenantPolicy tokenHash)

/-- The world after a step of the tenant whose log is at `path`. -/
def step (tenantId path : String) (w : World S) : TenantStep P → World S
  | .commit principalId authToken delta localViews now fault =>
    (w.commitAs tenantId principalId authToken delta localViews now fault).2
  | .checkpoint principalId authToken snapshotPath nanos saveFault faults =>
    (w.checkpointTenant tenantId principalId authToken snapshotPath nanos saveFault faults).2
  | .registerPrincipal adminPrincipalId adminAuthToken principalId principalAuthToken role =>
    (w.registerPrincipal tenantId adminPrincipalId adminAuthToken principalId principalAuthToken role).2
  | .recover policy authToken witnessCfg clock =>
    (w.crashAndRecover policy tenantId authToken witnessCfg path clock).2

def Succeeds (tenantId path : String) (w : World S) : TenantStep P → Prop
  | .commit principalId authToken delta localViews now fault =>
    ∃ entry, (w.commitAs tenantId principalId authToken delta localViews now fault).1 = some (.ok entry)
  | .checkpoint principalId authToken snapshotPath nanos saveFault faults =>
    (w.checkpointTenant tenantId principalId authToken snapshotPath nanos saveFault faults).1 = .ok ()
  | .registerPrincipal adminPrincipalId adminAuthToken principalId principalAuthToken role =>
    (w.registerPrincipal tenantId adminPrincipalId adminAuthToken principalId principalAuthToken role).1 = .ok ()
  | .recover policy authToken witnessCfg clock =>
    (w.crashAndRecover policy tenantId authToken witnessCfg path clock).1 = some (.ok ())

/-! ### What a successful call has done -/

variable {m : MultiTenantNucleusDb P} {authToken principalId snapshotPath : String}

variable {tenantId path : String} {required : TenantRole} {slot : TenantSlot P} {w : World S}

theorem authorizedTenantSlotAs_ok (h : m.authorizedTenantSlotAs tenantId principalId authToken required = .ok slot) :
    m.tenants[tenantId]? = some slot := by
  unfold authorizedTenantSlotAs at h
  split at h
  · cases h
  rename_i found hfound
  split at h
  · cases h
  obtain ⟨-, h⟩ := guard_eq_ok h
  obtain ⟨-, h⟩ := guard_eq_ok h
  rw [hfound, Except.ok.inj h]

theorem authorizedTenantSlotAs_error {e : MultiTenantError}
    (h : m.authorizedTenantSlotAs tenantId principalId authToken required = .error e) (cause : PersistenceError) :
    e ≠ .persistence cause := by
  unfold authorizedTenantSlotAs at h
  rintro rfl
  split at h
  · cases h
  split at h
  · cases h
  split at h
  · cases h
  split at h
  · cases h
  · cases h

theorem get?_setSlot (m : MultiTenantNucleusDb P) (tenantId : String) (slot : TenantSlot P) :
    (m.setSlot tenantId slot).tenants[tenantId]? = some slot := by
  unfold setSlot
  rw [OrdMap.get?_insert, if_pos rfl]

variable {db : NucleusDb P}

theorem addTenant_ok {m' : MultiTenantNucleusDb P} {walPath : Option String}
    (h : m.addTenant tenantId authToken db walPath = (.ok (), m')) :
    m'.tenants[tenantId]? = some (newSlot authToken db walPath) := by
  unfold addTenant at h
  split at h
  · cases h
  · rw [← (Prod.mk.inj h).2]
    exact get?_setSlot m tenantId _

variable {fault saveFault : Option Fault}

theorem registerTenantWithWalPath_ok {w' : World S}
    (h : w.registerTenantWithWalPath tenantId authToken db (some path) fault = (.ok (), w')) :
    w'.manager.tenants[tenantId]? = some (newSlot authToken db (some path)) ∧
      initWal S path db fault w.disk = (.ok (), w'.disk) := by
  unfold registerTenantWithWalPath at h
  split at h
  · cases h
  split at h
  · cases h
  rename_i disk hinit
  obtain ⟨hadd, rfl⟩ := Prod.mk.inj h
  exact ⟨addTenant_ok (Prod.ext hadd rfl), hinit⟩

theorem registerPrincipal_ok {adminPrincipalId adminAuthToken principalAuthToken : String} {role : TenantRole}
    (h : (w.registerPrincipal tenantId adminPrincipalId adminAuthToken principalId principalAuthToken role).1 = .ok ()) :
    (w.registerPrincipal tenantId adminPrincipalId adminAuthToken principalId principalAuthToken role).2.disk = w.disk ∧
      ∃ slot principals, w.manager.tenants[tenantId]? = some slot ∧
        (w.registerPrincipal tenantId adminPrincipalId adminAuthToken principalId principalAuthToken
          role).2.manager.tenants[tenantId]? = some { slot with principals } := by
  unfold registerPrincipal at h ⊢
  cases hauth : w.manager.authorizedTenantSlotAs tenantId adminPrincipalId adminAuthToken .admin with
  | error e =>
    rw [hauth] at h
    cases h
  | ok slot =>
    rw [hauth] at h
    dsimp only at h ⊢
    by_cases htaken : slot.principals[principalId]?.isSome = true
    · rw [if_pos htaken] at h
      cases h
    · rw [if_neg htaken]
      exact ⟨rfl, slot, _, authorizedTenantSlotAs_ok hauth, get?_setSlot _ _ _⟩

/-- Every outcome of a commit: no entry was made and the disk is as it was, or the entry was made and its append failed, or
both went through. -/
theorem commitAs_cases (hslot : w.manager.tenants[tenantId]? = some slot) (principalId authToken : String) (delta : Delta)
    (localViews : List LocalSection) (now : Nat) (fault : Option Fault) :
    (∃ r manager slot', w.commitAs tenantId principalId authToken delta localViews now fault = (r, ⟨manager, w.disk⟩) ∧
      manager.tenants[tenantId]? = some slot' ∧ slot'.walPath = slot.walPath ∧ slot'.db.entries = slot.db.entries ∧
      (∀ entry, r ≠ some (.ok entry)) ∧ ∀ e, r ≠ some (.error (.persistence e))) ∨
    (∃ entry db e disk, slot.db.commit delta localViews now = some (.ok entry, db) ∧
      onLog slot.walPath (fun path => appendWalEvent S path delta db entry fault) w.disk = (.error e, disk) ∧
      w.commitAs tenantId principalId authToken delta localViews now fault =
        (some (.error (.persistence e)), ⟨w.manager.setSlot tenantId { slot with db }, disk⟩)) ∨
    ∃ entry db disk, slot.db.commit delta localViews now = some (.ok entry, db) ∧
      onLog slot.walPath (fun path => appendWalEvent S path delta db entry fault) w.disk = (.ok (), disk) ∧
      w.commitAs tenantId principalId authToken delta localViews now fault =
        (some (.ok entry), ⟨w.manager.setSlot tenantId { slot with db }, disk⟩) := by
  unfold commitAs
  cases hauth : w.manager.authorizedTenantSlotAs tenantId principalId authToken .writer with
  | error e => exact .inl ⟨_, _, slot, rfl, hslot, rfl, rfl, by simp, by simp [authorizedTenantSlotAs_error hauth]⟩
  | ok found =>
    obtain rfl : found = slot := Option.some.inj ((authorizedTenantSlotAs_ok hauth).symm.trans hslot)
    dsimp only
    by_cases hpoisoned : found.dbPoisoned = true
    · rw [if_pos hpoisoned]
      exact .inl ⟨_, _, found, rfl, hslot, rfl, rfl, by simp, by simp⟩
    · rw [if_neg hpoisoned]
      cases hcommit : found.db.commit delta localViews now with
      | none => exact .inl ⟨_, _, _, rfl, get?_setSlot _ _ _, rfl, rfl, by simp, by simp⟩
      | some out =>
        obtain ⟨r, db⟩ := out
        cases r with
        | error e =>
          exact .inl ⟨_, _, _, rfl, get?_setSlot _ _ _, rfl, commit_error_entries hcommit, by simp, by simp⟩
        | ok entry =>
          right
          dsimp only
          cases happend : onLog found.walPath (fun path => appendWalEvent S path delta db entry fault) w.disk with
          | mk r disk =>
            cases r with
            | error e => exact .inl ⟨entry, db, e, disk, rfl, happend, rfl⟩
            | ok u => exact .inr ⟨entry, db, disk, rfl, happend, rfl⟩

variable {delta : Delta} {localViews : List LocalSection} {now nanos : Nat} {entry : CommitEntry}

theorem registered_of_commitAs_ok
    (h : (w.commitAs tenantId principalId authToken delta localViews now fault).1 = some (.ok entry)) :
    ∃ slot, w.manager.tenants[tenantId]? = some slot := by
  unfold commitAs at h
  cases hauth : w.manager.authorizedTenantSlotAs tenantId principalId authToken .writer with
  | error e =>
    rw [hauth] at h
    cases h
  | ok slot => exact ⟨slot, authorizedTenantSlotAs_ok hauth⟩

theorem commitAs_ok (h : (w.commitAs tenantId principalId authToken delta localViews now fault).1 = some (.ok entry)) :
    ∃ slot db, w.manager.tenants[tenantId]? = some slot ∧
      slot.db.commit delta localViews now = some (.ok entry, db) ∧
      (w.commitAs tenantId principalId authToken delta localViews now fault).2.manager.tenants[tenantId]? =
        some { slot with db } ∧
      onLog slot.walPath (fun path => appendWalEvent S path delta db entry fault) w.disk =
        (.ok (), (w.commitAs tenantId principalId authToken delta localViews now fault).2.disk) := by
  obtain ⟨slot, hslot⟩ := registered_of_commitAs_ok h
  rcases commitAs_cases hslot principalId authToken delta localViews now fault with
    ⟨r, manager, slot', hcall, -, -, -, hok, -⟩ | ⟨entry', db, e, disk, -, -, hcall⟩ |
    ⟨entry', db, disk, hcommit, happend, hcall⟩
  · rw [hcall] at h
    exact absurd h (hok entry)
  · rw [hcall] at h
    cases h
  · rw [hcall] at h ⊢
    obtain rfl := Except.ok.inj (Option.some.inj h)
    exact ⟨slot, db, hslot, hcommit, get?_setSlot _ _ _, happend⟩

variable {faults : TruncateFaults}

theorem checkpointTenant_ok
    (h : (w.checkpointTenant tenantId principalId authToken snapshotPath nanos saveFault faults).1 = .ok ()) :
    (w.checkpointTenant tenantId principalId authToken snapshotPath nanos saveFault faults).2.manager = w.manager ∧
      ∃ slot disk, w.manager.tenants[tenantId]? = some slot ∧
        saveSnapshot S snapshotPath slot.db saveFault w.disk = (.ok (), disk) ∧
        onLog slot.walPath (fun path => truncateWal S path slot.db nanos faults) disk =
          (.ok (), (w.checkpointTenant tenantId principalId authToken snapshotPath nanos saveFault faults).2.disk) := by
  unfold checkpointTenant at h ⊢
  cases hauth : w.manager.authorizedTenantSlotAs tenantId principalId authToken .admin with
  | error e =>
    rw [hauth] at h
    cases h
  | ok slot =>
    rw [hauth] at h
    dsimp only at h ⊢
    have hslot := authorizedTenantSlotAs_ok hauth
    by_cases hpoisoned : slot.dbPoisoned = true
    · rw [if_pos hpoisoned] at h
      cases h
    · rw [if_neg hpoisoned] at h ⊢
      cases hsave : saveSnapshot S snapshotPath slot.db saveFault w.disk with
      | mk r disk =>
        rw [hsave] at h
        cases r with
        | error e => cases h
        | ok u =>
          dsimp only at h ⊢
          cases htruncate : onLog slot.walPath (fun path => truncateWal S path slot.db nanos faults) disk with
          | mk r disk' =>
            rw [htruncate] at h
            cases r with
            | error e => cases h
            | ok u => exact ⟨rfl, slot, disk, hslot, hsave, htruncate⟩

variable {witnessCfg : WitnessConfig P} {clock : Clock}

theorem crashAndRecover_ok {policy : MultiTenantPolicy}
    (h : (w.crashAndRecover policy tenantId authToken witnessCfg path clock).1 = some (.ok ())) :
    (w.crashAndRecover policy tenantId authToken witnessCfg path clock).2.disk = w.disk ∧
      ∃ db, loadWal S path witnessCfg clock w.disk = some (.ok db) ∧
        (w.crashAndRecover policy tenantId authToken witnessCfg path clock).2.manager.tenants[tenantId]? =
          some (newSlot authToken db (some path)) := by
  unfold crashAndRecover registerTenantFromWal at h ⊢
  dsimp only at h ⊢
  cases hload : loadWal S path witnessCfg clock w.disk with
  | none =>
    rw [hload] at h
    cases h
  | some out =>
    cases out with
    | error e =>
      rw [hload] at h
      cases h
    | ok db =>
      rw [hload] at h
      dsimp only at h ⊢
      cases hpolicy : validateTenantPolicy policy tenantId db with
      | error e =>
        rw [show validateTenantPolicy
          (MultiTenantNucleusDb.new policy : MultiTenantNucleusDb P).policy tenantId db = _ from hpolicy] at h
        cases h
      | ok u =>
        rw [show validateTenantPolicy
          (MultiTenantNucleusDb.new policy : MultiTenantNucleusDb P).policy tenantId db = _ from hpolicy] at h ⊢
        dsimp only at h ⊢
        exact ⟨rfl, db, rfl, addTenant_ok (Prod.ext (Option.some.inj h) rfl)⟩

/-! ### The slot in memory and the log on disk -/

/-- The tenant is registered with this slot, and its log at `path` reads as `log`. -/
structure Logged (tenantId path : String) (w : World S) (slot : TenantSlot P) (log : Log P) : Prop where
  registered : w.manager.tenants[tenantId]? = some slot
  walPath : slot.walPath = some path
  logAt : LogAt S w.disk path log

section Logged

variable {w : World S} {tenantId path : String} {slot : TenantSlot P} {log : Log P}

theorem Logged.slot_eq {found : TenantSlot P} (h : Logged tenantId path w slot log)
    (hfound : w.manager.tenants[tenantId]? = some found) : found = slot :=
  Option.some.inj (hfound.symm.trans h.registered)

theorem Logged.register (hS : S.RoundTrips) {w' : World S}
    (h : w.registerTenantWithWalPath tenantId authToken db (some path) fault = (.ok (), w'))
    (hempty : (w.disk.file path).events = ∅) :
    ∃ walMeta, Logged tenantId path w' (newSlot authToken db (some path)) ⟨walMeta, []⟩ ∧
      walMeta.initialState = db.state ∧ walMeta.backend = db.backend := by
  obtain ⟨hslot, hinit⟩ := registerTenantWithWalPath_ok h
  obtain ⟨walMeta, hlog, hspec⟩ := initWal_ok hS hinit hempty
  exact ⟨walMeta, ⟨hslot, rfl, hlog⟩, hspec⟩

theorem Logged.commit (hS : S.RoundTrips)
    (h : Logged tenantId path w slot log) (habove : ∀ event ∈ log.events, event.seq ≤ slot.db.entries.length)
    (hok : w.Succeeds tenantId path (.commit principalId authToken delta localViews now fault)) :
    ∃ entry db ctLeaf, slot.db.commit delta localViews now = some (.ok entry, db) ∧
      db.ctLeaves = slot.db.ctLeaves ++ [ctLeaf] ∧
      Logged tenantId path (w.step tenantId path (.commit principalId authToken delta localViews now fault))
        { slot with db } ⟨log.walMeta, log.events ++ [eventOf delta db entry ctLeaf]⟩ := by
  obtain ⟨entry, hentry⟩ := hok
  obtain ⟨found, db, hfound, hcommit, hslot, happend⟩ := commitAs_ok hentry
  obtain rfl := h.slot_eq hfound
  rw [h.walPath] at happend
  have hadv := commit_advanced hcommit
  have hlength : db.entries.length = found.db.entries.length + 1 := by
    rw [hadv.entries, List.length_append, List.length_singleton]
  have hkeys : ∀ key ∈ walKeys S w.disk path, key < db.entries.length := by
    intro key hkey
    rw [h.logAt.walKeys_eq] at hkey
    obtain ⟨event, hevent, rfl⟩ := List.mem_map.mp hkey
    rw [hlength]
    exact Nat.lt_succ_of_le (habove event hevent)
  obtain ⟨ctLeaf, hleaf, hlog⟩ := appendWalEvent_ok hS happend h.logAt hkeys (hadv.height.trans hlength.symm)
  obtain ⟨leaf, hleaves⟩ := hadv.ctLeaves
  have heq : leaf = ctLeaf := by
    rw [hleaves, List.getLast?_concat] at hleaf
    exact Option.some.inj hleaf
  exact ⟨entry, db, ctLeaf, hcommit, heq ▸ hleaves, hslot, h.walPath, hlog⟩

theorem Logged.checkpoint (hS : S.RoundTrips)
    (h : Logged tenantId path w slot log) (hunused : (w.disk.file (swapPath path nanos)).events = ∅)
    (hok : w.Succeeds tenantId path (.checkpoint principalId authToken snapshotPath nanos saveFault faults)) :
    ∃ walMeta, walMeta.initialState = slot.db.state ∧ walMeta.backend = slot.db.backend ∧
      Logged tenantId path
        (w.step tenantId path (.checkpoint principalId authToken snapshotPath nanos saveFault faults)) slot
        ⟨walMeta, []⟩ := by
  obtain ⟨hmanager, found, disk, hfound, hsave, htruncate⟩ := checkpointTenant_ok hok
  obtain rfl := h.slot_eq hfound
  rw [h.walPath] at htruncate
  have hswap : (disk.file (swapPath path nanos)).events = ∅ := by
    unfold RedbFile.events
    rw [(saveSnapshot_ok hsave (swapPath path nanos)).2]
    exact hunused
  obtain ⟨walMeta, hlog, hstate, hbackend⟩ := truncateWal_ok hS htruncate hswap
  refine ⟨walMeta, hstate, hbackend, ?_, h.walPath, hlog⟩
  unfold step
  rw [hmanager]
  exact h.registered

theorem Logged.registerPrincipal {adminPrincipalId adminAuthToken principalAuthToken : String}
    {role : TenantRole} (h : Logged tenantId path w slot log)
    (hok : w.Succeeds tenantId path
      (.registerPrincipal adminPrincipalId adminAuthToken principalId principalAuthToken role)) :
    ∃ principals, Logged tenantId path (w.step tenantId path
      (.registerPrincipal adminPrincipalId adminAuthToken principalId principalAuthToken role))
      { slot with principals } log := by
  obtain ⟨hdisk, found, principals, hfound, hslot⟩ := registerPrincipal_ok hok
  obtain rfl := h.slot_eq hfound
  refine ⟨principals, hslot, h.walPath, ?_⟩
  unfold step
  rw [hdisk]
  exact h.logAt

theorem Logged.recover {policy : MultiTenantPolicy} (h : Logged tenantId path w slot log)
    (hok : w.Succeeds tenantId path (.recover policy authToken witnessCfg clock)) :
    ∃ db, Rebuilt log db ∧
      Logged tenantId path (w.step tenantId path (.recover policy authToken witnessCfg clock))
        (newSlot authToken db (some path)) log := by
  obtain ⟨hdisk, db, hload, hslot⟩ := crashAndRecover_ok hok
  refine ⟨db, loadWal_rebuilt h.logAt hload, hslot, rfl, ?_⟩
  unfold step
  rw [hdisk]
  exact h.logAt

end Logged

/-! ### When a call succeeds -/

variable {disk disk' : S.Files}

theorem authorizedTenantSlotAs_of_admin (hslot : m.tenants[tenantId]? = some slot)
    (hcred : slot.principals[principalId]? = some ⟨tokenHash P authToken, .admin⟩)
    (required : TenantRole) : m.authorizedTenantSlotAs tenantId principalId authToken required = .ok slot := by
  have hrank : ¬ TenantRole.admin.rank < required.rank := by
    cases required <;> decide
  unfold authorizedTenantSlotAs
  rw [hslot]
  dsimp only
  rw [hcred]
  dsimp only
  rw [if_neg (not_not.mpr rfl), if_neg hrank]

theorem newSlot_admin (authToken : String) (db : NucleusDb P) (walPath : Option String) :
    (newSlot authToken db walPath).principals["admin"]? =
      some ⟨tokenHash P authToken, .admin⟩ := by
  unfold newSlot
  rw [OrdMap.get?_insert, if_pos rfl]

theorem addTenant_of_new (hnew : m.tenants[tenantId]? = none) (authToken : String) (db : NucleusDb P)
    (walPath : Option String) :
    m.addTenant tenantId authToken db walPath =
      (.ok (), m.setSlot tenantId (newSlot authToken db walPath)) := by
  unfold addTenant
  rw [hnew]
  rfl

theorem validateTenantPolicy_permissive (tenantId : String) (db : NucleusDb P) :
    validateTenantPolicy .permissive tenantId db = .ok () := by
  simp [validateTenantPolicy, MultiTenantPolicy.permissive]

theorem get?_new (policy : MultiTenantPolicy) (tenantId : String) :
    (MultiTenantNucleusDb.new policy : MultiTenantNucleusDb P).tenants[tenantId]? = none :=
  Std.ExtTreeMap.getElem?_empty

theorem registerTenantWithWalPath_of_init (hinit : initWal S path db none disk = (.ok (), disk'))
    (tenantId authToken : String) :
    registerTenantWithWalPath ⟨MultiTenantNucleusDb.new .permissive, disk⟩ tenantId authToken db (some path) none =
      (.ok (), ⟨(MultiTenantNucleusDb.new .permissive).setSlot tenantId
        (newSlot authToken db (some path)), disk'⟩) := by
  have hpolicy : validateTenantPolicy
      (MultiTenantNucleusDb.new .permissive : MultiTenantNucleusDb P).policy tenantId db = .ok () :=
    validateTenantPolicy_permissive tenantId db
  unfold registerTenantWithWalPath onLog
  dsimp only
  rw [hpolicy, hinit]
  dsimp only
  rw [addTenant_of_new (get?_new .permissive tenantId)]

theorem commitAs_of_commit (hauth : w.manager.authorizedTenantSlotAs tenantId principalId authToken .writer = .ok slot)
    (hhealthy : slot.dbPoisoned = false) (hcommit : slot.db.commit delta localViews now = some (.ok entry, db))
    (happend : onLog slot.walPath (fun path => appendWalEvent S path delta db entry fault) w.disk = (.ok (), disk)) :
    w.commitAs tenantId principalId authToken delta localViews now fault =
      (some (.ok entry), ⟨w.manager.setSlot tenantId { slot with db }, disk⟩) := by
  unfold commitAs
  rw [hauth]
  dsimp only
  rw [if_neg (by rw [hhealthy]; exact Bool.false_ne_true), hcommit]
  dsimp only
  rw [happend]

theorem checkpointTenant_of_truncate
    (hauth : w.manager.authorizedTenantSlotAs tenantId principalId authToken .admin = .ok slot)
    (hhealthy : slot.dbPoisoned = false) (hsave : saveSnapshot S snapshotPath slot.db saveFault w.disk = (.ok (), disk))
    (htruncate : onLog slot.walPath (fun path => truncateWal S path slot.db nanos faults) disk = (.ok (), disk')) :
    w.checkpointTenant tenantId principalId authToken snapshotPath nanos saveFault faults =
      (.ok (), ⟨w.manager, disk'⟩) := by
  unfold checkpointTenant
  rw [hauth]
  dsimp only
  rw [if_neg (by rw [hhealthy]; exact Bool.false_ne_true), hsave]
  dsimp only
  rw [htruncate]

theorem crashAndRecover_of_load (hload : loadWal S path witnessCfg clock w.disk = some (.ok db))
    (tenantId authToken : String) :
    w.crashAndRecover .permissive tenantId authToken witnessCfg path clock =
      (some (.ok ()), ⟨(MultiTenantNucleusDb.new .permissive).setSlot tenantId
        (newSlot authToken db (some path)), w.disk⟩) := by
  have hpolicy : validateTenantPolicy
      (MultiTenantNucleusDb.new .permissive : MultiTenantNucleusDb P).policy tenantId db = .ok () :=
    validateTenantPolicy_permissive tenantId db
  unfold crashAndRecover registerTenantFromWal
  dsimp only
  rw [hload]
  dsimp only
  rw [hpolicy]
  dsimp only
  rw [addTenant_of_new (get?_new .permissive tenantId)]

/-! ### A tenant to run

Witnesses and counterexamples about runs start from this tenant, on a disk that keeps the records as they are. -/

def commitCell (idx : Nat) (value : UInt64) : TenantStep .reference :=
  .commit "admin" "pw" ⟨[(idx, value)]⟩ [] 0 none

def checkpointNow : TenantStep .reference := .checkpoint "admin" "pw" "t.snapshot" 0 none {}

def restart : TenantStep .reference := .recover .permissive "pw" singleWitnessCfg ⟨0, 0⟩

def idle (disk : (Serde.identity .reference).Files) : World (Serde.identity .reference) :=
  ⟨MultiTenantNucleusDb.new .permissive, disk⟩

/-- The tenant `t` can commit, be checkpointed and be recovered. -/
structure Live (w : World (Serde.identity .reference)) (slot : TenantSlot .reference)
    (log : Log .reference) : Prop extends Logged "t" "t.wal" w slot log where
  admin : slot.principals["admin"]? = some ⟨tokenHash .reference "pw", .admin⟩
  healthy : slot.dbPoisoned = false
  ready : slot.db.Ready
  recorded : ∃ db : NucleusDb .reference, db.Ready ∧ log.walMeta = walMetaOf db

section Sample

variable {w : World (Serde.identity .reference)} {slot : TenantSlot .reference}
  {log : Log .reference}

theorem singleWitnessCfg_openable : Openable .binaryMerkle singleWitnessCfg := openable_of_new singleWitnessDb_new

variable {disk : (Serde.identity .reference).Files} {idx : Nat} {value : UInt64}

theorem Live.of_newSlot {db : NucleusDb .reference} (hready : db.Ready)
    (hlog : LogAt (Serde.identity .reference) disk "t.wal" log)
    (hrecorded : ∃ db : NucleusDb .reference, db.Ready ∧ log.walMeta = walMetaOf db) :
    Live ⟨(MultiTenantNucleusDb.new .permissive).setSlot "t" (newSlot "pw" db (some "t.wal")), disk⟩
      (newSlot "pw" db (some "t.wal")) log := by
  refine ⟨⟨get?_setSlot _ _ _, rfl, hlog⟩, newSlot_admin _ _ _, rfl, hready, hrecorded⟩

theorem Live.register (hblank : (disk.file "t.wal").WalBlank) {db : NucleusDb .reference} (hready : db.Ready) :
    ∃ w f, (idle disk).registerTenantWithWalPath "t" "pw" db (some "t.wal") none = (.ok (), w) ∧
      w.disk = disk.put "t.wal" f ∧
      Live w (newSlot "pw" db (some "t.wal")) ⟨walMetaOf db, []⟩ := by
  obtain ⟨f, hinit, hlog⟩ := initWal_of_blank (Serde.identity_roundTrips _) (Serde.identity_writes _) hblank db
  exact ⟨_, f, registerTenantWithWalPath_of_init hinit "t" "pw", rfl, Live.of_newSlot hready hlog ⟨db, hready, rfl⟩⟩

theorem Live.commitAs (h : Live w slot log) (idx : Nat) (value : UInt64)
    (hshape : validateCommitShape (defaultParams .binaryMerkle) 1
      (apply slot.db.state ⟨[(idx, value)]⟩).values.length = .ok ()) :
    ∃ entry db ctLeaf, slot.db.commit ⟨[(idx, value)]⟩ [] 0 = some (.ok entry, db) ∧
      w.commitAs "t" "admin" "pw" ⟨[(idx, value)]⟩ [] 0 none = (some (.ok entry),
        ⟨w.manager.setSlot "t" { slot with db }, w.disk.put "t.wal" (withEvents _ (w.disk.file "t.wal")
          ((w.disk.file "t.wal").events.insert db.entries.length (eventOf ⟨[(idx, value)]⟩ db entry ctLeaf)))⟩) := by
  obtain ⟨entry, db, hcommit⟩ : ∃ entry db, slot.db.commit ⟨[(idx, value)]⟩ [] 0 = some (.ok entry, db) :=
    h.ready.commit 0 hshape
  obtain ⟨leaf, hleaves⟩ := (commit_advanced hcommit).ctLeaves
  have hlast : db.ctLeaves.getLast? = some leaf := by
    rw [hleaves, List.getLast?_concat]
  obtain ⟨raw, hraw, happend⟩ := appendWalEvent_of_logAt (Serde.identity_writes _) h.logAt ⟨[(idx, value)]⟩ entry hlast
  obtain rfl := Except.ok.inj hraw
  have hauth := authorizedTenantSlotAs_of_admin h.registered h.admin .writer
  refine ⟨entry, db, leaf, hcommit, commitAs_of_commit hauth h.healthy hcommit ?_⟩
  rw [h.walPath]
  exact happend

theorem Live.commit_succeeds (h : Live w slot log) (hshape : validateCommitShape (defaultParams .binaryMerkle) 1
      (apply slot.db.state ⟨[(idx, value)]⟩).values.length = .ok ()) :
    w.Succeeds "t" "t.wal" (commitCell idx value) := by
  obtain ⟨entry, db, ctLeaf, -, hcommit⟩ := h.commitAs idx value hshape
  exact ⟨entry, congrArg Prod.fst hcommit⟩

theorem Live.commit (h : Live w slot log) (habove : ∀ event ∈ log.events, event.seq ≤ slot.db.entries.length)
    (hshape : validateCommitShape (defaultParams .binaryMerkle) 1
      (apply slot.db.state ⟨[(idx, value)]⟩).values.length = .ok ()) :
    ∃ slot' event, Live (w.step "t" "t.wal" (commitCell idx value)) slot' ⟨log.walMeta, log.events ++ [event]⟩ ∧
      slot'.db.state = apply slot.db.state ⟨[(idx, value)]⟩ ∧ slot'.db.entries.length = slot.db.entries.length + 1 ∧
      event.seq = slot.db.entries.length + 1 ∧ event.delta = ⟨[(idx, value)]⟩ ∧
      ∀ other, "t.wal" ≠ other → (w.step "t" "t.wal" (commitCell idx value)).disk.file other = w.disk.file other := by
  obtain ⟨entry, db, ctLeaf, hcommit, -, hlogged⟩ :=
    h.toLogged.commit (Serde.identity_roundTrips _) habove (h.commit_succeeds hshape)
  have hadv := commit_advanced hcommit
  have hlength : db.entries.length = slot.db.entries.length + 1 := by
    rw [hadv.entries, List.length_append, List.length_singleton]
  refine ⟨_, _, ⟨hlogged, h.admin, h.healthy, h.ready.of_commit hcommit, h.recorded⟩, hadv.state, hlength, hlength, rfl, ?_⟩
  intro other hne
  obtain ⟨entry', db', leaf', -, hput⟩ := h.commitAs idx value hshape
  unfold World.step commitCell
  dsimp only
  rw [hput, Disk.file_put, if_neg hne]

theorem Live.loads (h : Live w slot log) :
    ∃ db, loadWal _ "t.wal" singleWitnessCfg ⟨0, 0⟩ w.disk = some (.ok db) ∧ Rebuilt log db ∧ db.Ready := by
  obtain ⟨recorded, hready, hmeta⟩ := h.recorded
  have hbackend : log.walMeta.backend = .binaryMerkle := by
    rw [hmeta]
    exact hready.backend
  have hopen : Openable log.walMeta.backend singleWitnessCfg := by
    rw [hbackend]
    exact singleWitnessCfg_openable
  obtain ⟨db, hload, hrebuilt⟩ := loadWal_of_openable h.logAt hopen ⟨0, 0⟩
  obtain ⟨hcfg, hparams, hcontracts, hmode⟩ := loadWal_configured h.logAt hload
  rw [hmeta] at hparams hcontracts hmode
  refine ⟨db, hload, hrebuilt, hrebuilt.backend.trans hbackend, hcfg, hparams.trans hready.securityParams,
    hcontracts.trans hready.reductionContracts, hmode.trans hready.writeMode, ?_⟩
  rw [hrebuilt.ctLeaves, hrebuilt.entries, List.length_map, List.length_map]

theorem Live.recover (h : Live w slot log) :
    w.Succeeds "t" "t.wal" restart ∧
      ∃ slot', Live (w.step "t" "t.wal" restart) slot' log ∧ Rebuilt log slot'.db := by
  obtain ⟨db, hload, hrebuilt, hready⟩ := h.loads
  have hrecover := crashAndRecover_of_load hload "t" "pw"
  refine ⟨congrArg Prod.fst hrecover, newSlot "pw" db (some "t.wal"), ?_, hrebuilt⟩
  have hstep : w.step "t" "t.wal" restart = _ := congrArg Prod.snd hrecover
  rw [hstep]
  exact Live.of_newSlot hready h.logAt h.recorded

theorem Live.checkpoint (h : Live w slot log) (hblank : (w.disk.file (swapPath "t.wal" 0)).WalBlank) :
    w.Succeeds "t" "t.wal" checkpointNow ∧ Live (w.step "t" "t.wal" checkpointNow) slot ⟨walMetaOf slot.db, []⟩ := by
  obtain ⟨disk, hsave⟩ := saveSnapshot_of_writes (Serde.identity_writes _) "t.snapshot" slot.db w.disk
  have hswap : (disk.file (swapPath "t.wal" 0)).WalBlank := by
    obtain ⟨hmeta, hevents⟩ := saveSnapshot_ok hsave (swapPath "t.wal" 0)
    unfold RedbFile.WalBlank RedbFile.meta? RedbFile.events at hblank ⊢
    rw [hmeta, hevents]
    exact hblank
  obtain ⟨disk', htruncate, hlog⟩ :=
    truncateWal_of_blank (Serde.identity_roundTrips _) (Serde.identity_writes _) hswap slot.db
  have hauth := authorizedTenantSlotAs_of_admin h.registered h.admin .admin
  have honLog : onLog slot.walPath (fun path => truncateWal _ path slot.db 0 {}) disk = (.ok (), disk') := by
    rw [h.walPath]
    exact htruncate
  have hcheckpoint := checkpointTenant_of_truncate hauth h.healthy hsave honLog
  refine ⟨congrArg Prod.fst hcheckpoint, ?_⟩
  have hstep : w.step "t" "t.wal" checkpointNow = _ := congrArg Prod.snd hcheckpoint
  rw [hstep]
  exact ⟨⟨h.registered, h.walPath, hlog⟩, h.admin, h.healthy, h.ready, slot.db, h.ready, rfl⟩

end Sample

end World

end AgentHalo.Tenant
