import AgentHalo.Tenant.Calls
import AgentHalo.Tenant.Checkpoints

/-!
# Tenants among each other

A principal is in a tenant because a call registered it there (`Registered`), and a call that needs a credential succeeds
only with one that was registered, up to the hash of the token. A call changes the slot of its own tenant only. On disk a
checkpoint writes to three paths, and the path that the new log is made at can be the log of another tenant, which then
loses it.
-/

namespace AgentHalo.Tenant

open Engine Engine.NucleusDb
open MultiTenantNucleusDb (tokenHash newSlot)
open Persistence

variable {P : Platform} {S : Serde P}

namespace World

/-! ### What a call does in memory -/

theorem authorizedTenantSlotAs_ok_iff {m : MultiTenantNucleusDb P} {tenantId principalId authToken : String}
    {required : TenantRole} {slot : TenantSlot P} :
    m.authorizedTenantSlotAs tenantId principalId authToken required = .ok slot ↔
      m.tenants[tenantId]? = some slot ∧ ∃ cred, slot.principals[principalId]? = some cred ∧
        cred.tokenHash = tokenHash P authToken ∧ required.rank ≤ cred.role.rank := by
  unfold MultiTenantNucleusDb.authorizedTenantSlotAs
  cases m.tenants[tenantId]? with
  | none => simp
  | some found =>
    dsimp only
    cases hcred : found.principals[principalId]? with
    | none =>
      simp only [reduceCtorEq, Option.some.injEq, false_iff]
      rintro ⟨rfl, cred, hcred', -⟩
      rw [hcred] at hcred'
      cases hcred'
    | some cred =>
      dsimp only
      split
      · rename_i hhash
        simp only [reduceCtorEq, Option.some.injEq, false_iff]
        rintro ⟨rfl, cred', hcred', hhash', -⟩
        obtain rfl := Option.some.inj (hcred.symm.trans hcred')
        exact hhash hhash'
      · rename_i hhash
        split
        · rename_i hrank
          simp only [reduceCtorEq, Option.some.injEq, false_iff]
          rintro ⟨rfl, cred', hcred', -, hrank'⟩
          obtain rfl := Option.some.inj (hcred.symm.trans hcred')
          omega
        · rename_i hrank
          simp only [Except.ok.injEq, Option.some.injEq]
          constructor
          · rintro rfl
            exact ⟨rfl, cred, hcred, not_not.mp hhash, Nat.not_lt.mp hrank⟩
          · exact fun h => h.1

/-- The four ways a call leaves the manager. -/
inductive ManagerChange (w : World S) (c : Call P) : MultiTenantNucleusDb P → Prop
  | same : ManagerChange w c w.manager
  | database {slot : TenantSlot P} (db : NucleusDb P) (dbPoisoned : Bool)
      (hslot : w.manager.tenants[c.tenantId]? = some slot) :
      ManagerChange w c (w.manager.setSlot c.tenantId { slot with db, dbPoisoned })
  | tenant {authToken : String} (db : NucleusDb P) (walPath : Option String) (hok : (w.perform c).1 = some (.ok ()))
      (hgrants : c.grants = some ⟨c.tenantId, "admin", authToken, .admin⟩) :
      ManagerChange w c (w.manager.setSlot c.tenantId (newSlot authToken db walPath))
  | principal {slot : TenantSlot P} {principalId authToken : String} {role : TenantRole}
      (hok : (w.perform c).1 = some (.ok ())) (hgrants : c.grants = some ⟨c.tenantId, principalId, authToken, role⟩)
      (hslot : w.manager.tenants[c.tenantId]? = some slot) : ManagerChange w c (w.manager.setSlot c.tenantId
        { slot with principals := slot.principals.insert principalId ⟨tokenHash P authToken, role⟩ })

theorem addTenant_cases (m : MultiTenantNucleusDb P) (tenantId authToken : String) (db : NucleusDb P)
    (walPath : Option String) : (m.addTenant tenantId authToken db walPath).2 = m ∨
      m.addTenant tenantId authToken db walPath = (.ok (), m.setSlot tenantId (newSlot authToken db walPath)) := by
  unfold MultiTenantNucleusDb.addTenant
  split
  · exact .inl rfl
  · exact .inr rfl

theorem registerTenantWithWalPath_manager (w : World S) (tenantId authToken : String) (db : NucleusDb P)
    (walPath : Option String) (fault : Option Fault) :
    (w.registerTenantWithWalPath tenantId authToken db walPath fault).2.manager = w.manager ∨
      (w.registerTenantWithWalPath tenantId authToken db walPath fault).1 = .ok () ∧
        (w.registerTenantWithWalPath tenantId authToken db walPath fault).2.manager =
          w.manager.setSlot tenantId (newSlot authToken db walPath) := by
  unfold registerTenantWithWalPath
  split
  · exact .inl rfl
  · split
    · exact .inl rfl
    · obtain hsame | hadded := addTenant_cases w.manager tenantId authToken db walPath
      · exact .inl hsame
      · rw [hadded]
        exact .inr ⟨rfl, rfl⟩

theorem registerTenantFromWal_manager (w : World S) (tenantId authToken : String) (witnessCfg : WitnessConfig P)
    (walPath : String) (clock : Clock) :
    (w.registerTenantFromWal tenantId authToken witnessCfg walPath clock).2.manager = w.manager ∨
      (w.registerTenantFromWal tenantId authToken witnessCfg walPath clock).1 = some (.ok ()) ∧ ∃ db,
        (w.registerTenantFromWal tenantId authToken witnessCfg walPath clock).2.manager =
          w.manager.setSlot tenantId (newSlot authToken db (some walPath)) := by
  unfold registerTenantFromWal
  split
  · exact .inl rfl
  · exact .inl rfl
  · rename_i db _
    split
    · exact .inl rfl
    · obtain hsame | hadded := addTenant_cases w.manager tenantId authToken db (some walPath)
      · exact .inl hsame
      · rw [hadded]
        exact .inr ⟨rfl, db, rfl⟩

theorem ensureWalInitialized_manager (w : World S) (tenantId authToken : String) (fault : Option Fault) :
    (w.ensureWalInitialized tenantId authToken fault).2.manager = w.manager := by
  unfold ensureWalInitialized
  split
  · rfl
  · split
    · rfl
    · split
      · rfl
      · split
        · rfl
        · rfl

theorem registerPrincipal_manager (w : World S)
    (tenantId adminPrincipalId adminAuthToken principalId principalAuthToken : String) (role : TenantRole) :
    (w.registerPrincipal tenantId adminPrincipalId adminAuthToken principalId principalAuthToken role).2.manager =
        w.manager ∨
      (w.registerPrincipal tenantId adminPrincipalId adminAuthToken principalId principalAuthToken role).1 = .ok () ∧
        ∃ slot, w.manager.tenants[tenantId]? = some slot ∧
          (w.registerPrincipal tenantId adminPrincipalId adminAuthToken principalId principalAuthToken role).2.manager =
            w.manager.setSlot tenantId { slot with
              principals := slot.principals.insert principalId ⟨tokenHash P principalAuthToken, role⟩ } := by
  unfold registerPrincipal
  split
  · exact .inl rfl
  · rename_i slot hauth
    split
    · exact .inl rfl
    · exact .inr ⟨rfl, slot, authorizedTenantSlotAs_ok hauth, rfl⟩

theorem commitAs_manager (w : World S) (tenantId principalId authToken : String) (delta : Delta)
    (localViews : List LocalSection) (now : Nat) (fault : Option Fault) :
    (w.commitAs tenantId principalId authToken delta localViews now fault).2.manager = w.manager ∨
      ∃ slot db dbPoisoned, w.manager.tenants[tenantId]? = some slot ∧
        (w.commitAs tenantId principalId authToken delta localViews now fault).2.manager =
          w.manager.setSlot tenantId { slot with db, dbPoisoned } := by
  unfold commitAs
  split
  · exact .inl rfl
  · rename_i slot hauth
    have hslot := authorizedTenantSlotAs_ok hauth
    split
    · exact .inl rfl
    · split
      · exact .inr ⟨slot, slot.db, true, hslot, rfl⟩
      · exact .inr ⟨slot, _, slot.dbPoisoned, hslot, rfl⟩
      · rename_i entry db _
        dsimp only
        split
        · exact .inr ⟨slot, db, slot.dbPoisoned, hslot, rfl⟩
        · exact .inr ⟨slot, db, slot.dbPoisoned, hslot, rfl⟩

theorem checkpointTenant_manager (w : World S) (tenantId principalId authToken snapshotPath : String) (nanos : Nat)
    (saveFault : Option Fault) (faults : TruncateFaults) :
    (w.checkpointTenant tenantId principalId authToken snapshotPath nanos saveFault faults).2.manager = w.manager := by
  unfold checkpointTenant
  split
  · rfl
  · split
    · rfl
    · split
      · rfl
      · split
        · rfl
        · rfl

theorem perform_manager (w : World S) (c : Call P) : ManagerChange w c (w.perform c).2.manager := by
  have hkeep {manager : MultiTenantNucleusDb P} (h : manager = w.manager) : ManagerChange w c manager := h ▸ .same
  cases c with
  | registerTenant tenantId authToken db =>
    obtain hsame | ⟨hok, hmanager⟩ := registerTenantWithWalPath_manager w tenantId authToken db none none
    · exact hkeep hsame
    · exact hmanager ▸ .tenant db none (congrArg some hok) rfl
  | registerTenantWithWalPath tenantId authToken db walPath fault =>
    obtain hsame | ⟨hok, hmanager⟩ := registerTenantWithWalPath_manager w tenantId authToken db walPath fault
    · exact hkeep hsame
    · exact hmanager ▸ .tenant db walPath (congrArg some hok) rfl
  | registerTenantFromWal tenantId authToken witnessCfg walPath clock =>
    obtain hsame | ⟨hok, db, hmanager⟩ := registerTenantFromWal_manager w tenantId authToken witnessCfg walPath clock
    · exact hkeep hsame
    · exact hmanager ▸ .tenant db (some walPath) hok rfl
  | ensureWalInitialized tenantId authToken fault => exact hkeep (ensureWalInitialized_manager w tenantId authToken fault)
  | registerPrincipal tenantId adminPrincipalId adminAuthToken principalId principalAuthToken role =>
    obtain hsame | ⟨hok, slot, hslot, hmanager⟩ := registerPrincipal_manager w tenantId adminPrincipalId adminAuthToken
      principalId principalAuthToken role
    · exact hkeep hsame
    · exact hmanager ▸ .principal (congrArg some hok) rfl hslot
  | commitAs tenantId principalId authToken delta localViews now fault =>
    obtain hsame | ⟨slot, db, dbPoisoned, hslot, hmanager⟩ :=
      commitAs_manager w tenantId principalId authToken delta localViews now fault
    · exact hkeep hsame
    · exact hmanager ▸ .database db dbPoisoned hslot
  | queryAs tenantId principalId authToken idx => exact .same
  | verifyQueryAs tenantId principalId authToken idx value proof stateRoot => exact .same
  | snapshotTenantAs tenantId principalId authToken => exact .same
  | checkpointTenant tenantId principalId authToken snapshotPath nanos saveFault faults =>
    exact hkeep (checkpointTenant_manager w tenantId principalId authToken snapshotPath nanos saveFault faults)

theorem ManagerChange.other {w : World S} {c : Call P} {manager : MultiTenantNucleusDb P} (h : ManagerChange w c manager)
    {u : String} (hne : u ≠ c.tenantId) : manager.tenants[u]? = w.manager.tenants[u]? := by
  have hset (slot : TenantSlot P) : (w.manager.setSlot c.tenantId slot).tenants[u]? = w.manager.tenants[u]? :=
    OrdMap.get?_insert_ne _ _ hne.symm
  cases h with
  | same => rfl
  | database db dbPoisoned hslot => exact hset _
  | tenant db walPath hok hgrants => exact hset _
  | principal hok hgrants hslot => exact hset _

/-- The principal is in the tenant with this credential. -/
def HasPrincipal (m : MultiTenantNucleusDb P) (tenantId principalId : String) (cred : TenantCredential) : Prop :=
  ∃ slot, m.tenants[tenantId]? = some slot ∧ slot.principals[principalId]? = some cred

theorem ManagerChange.hasPrincipal {w : World S} {c : Call P} {manager : MultiTenantNucleusDb P}
    (h : ManagerChange w c manager) {tenantId principalId : String} {cred : TenantCredential}
    (hcred : HasPrincipal manager tenantId principalId cred) :
    HasPrincipal w.manager tenantId principalId cred ∨ (w.perform c).1 = some (.ok ()) ∧ ∃ authToken,
      c.grants = some ⟨tenantId, principalId, authToken, cred.role⟩ ∧ cred.tokenHash = tokenHash P authToken := by
  obtain ⟨slot, hslot, hprincipal⟩ := hcred
  by_cases hne : tenantId = c.tenantId
  · subst hne
    cases h with
    | same => exact .inl ⟨slot, hslot, hprincipal⟩
    | database db dbPoisoned hbefore =>
      obtain rfl := Option.some.inj ((get?_setSlot _ _ _).symm.trans hslot)
      exact .inl ⟨_, hbefore, hprincipal⟩
    | tenant db walPath hok hgrants =>
      obtain rfl := Option.some.inj ((get?_setSlot _ _ _).symm.trans hslot)
      unfold newSlot at hprincipal
      dsimp only at hprincipal
      rw [OrdMap.get?_insert] at hprincipal
      split at hprincipal
      · rename_i heq
        subst heq
        obtain rfl := Option.some.inj hprincipal
        exact .inr ⟨hok, _, hgrants, rfl⟩
      · simp at hprincipal
    | principal hok hgrants hbefore =>
      obtain rfl := Option.some.inj ((get?_setSlot _ _ _).symm.trans hslot)
      dsimp only at hprincipal
      rw [OrdMap.get?_insert] at hprincipal
      split at hprincipal
      · rename_i heq
        subst heq
        obtain rfl := Option.some.inj hprincipal
        exact .inr ⟨hok, _, hgrants, rfl⟩
      · exact .inl ⟨_, hbefore, hprincipal⟩
  · rw [h.other hne] at hslot
    exact .inl ⟨slot, hslot, hprincipal⟩

/-! ### Who is let in -/

theorem perform_ok_authorized {w : World S} {c : Call P} {k : Credential} (hshows : c.shows = some k)
    (h : (w.perform c).1 = some (.ok ())) : ∃ slot,
      w.manager.authorizedTenantSlotAs k.tenantId k.principalId k.authToken k.role = .ok slot := by
  have hauth {r : TenantRole} {tenantId principalId authToken : String}
      (hk : k = ⟨tenantId, principalId, authToken, r⟩)
      (herror : ∀ e, w.manager.authorizedTenantSlotAs tenantId principalId authToken r ≠ .error e) : ∃ slot,
        w.manager.authorizedTenantSlotAs k.tenantId k.principalId k.authToken k.role = .ok slot := by
    subst hk
    cases hcase : w.manager.authorizedTenantSlotAs tenantId principalId authToken r with
    | error e => exact absurd hcase (herror e)
    | ok slot => exact ⟨slot, rfl⟩
  cases c with
  | registerTenant tenantId authToken db => cases hshows
  | registerTenantWithWalPath tenantId authToken db walPath fault => cases hshows
  | registerTenantFromWal tenantId authToken witnessCfg walPath clock => cases hshows
  | ensureWalInitialized tenantId authToken fault =>
    refine hauth (Option.some.inj hshows).symm fun e he => ?_
    simp [perform, ensureWalInitialized, he] at h
  | registerPrincipal tenantId adminPrincipalId adminAuthToken principalId principalAuthToken role =>
    refine hauth (Option.some.inj hshows).symm fun e he => ?_
    simp [perform, registerPrincipal, he] at h
  | commitAs tenantId principalId authToken delta localViews now fault =>
    refine hauth (Option.some.inj hshows).symm fun e he => ?_
    simp [perform, commitAs, he, Except.map] at h
  | queryAs tenantId principalId authToken idx =>
    refine hauth (Option.some.inj hshows).symm fun e he => ?_
    simp [perform, queryAs, readableDb, he, Except.map] at h
  | verifyQueryAs tenantId principalId authToken idx value proof stateRoot =>
    refine hauth (Option.some.inj hshows).symm fun e he => ?_
    simp [perform, verifyQueryAs, readableDb, he, Except.map] at h
  | snapshotTenantAs tenantId principalId authToken =>
    refine hauth (Option.some.inj hshows).symm fun e he => ?_
    simp [perform, snapshotTenantAs, readableDb, he, Except.map] at h
  | checkpointTenant tenantId principalId authToken snapshotPath nanos saveFault faults =>
    refine hauth (Option.some.inj hshows).symm fun e he => ?_
    simp [perform, checkpointTenant, he] at h

/-- The world after the calls, starting without tenants. -/
def reached (policy : MultiTenantPolicy) (disk : S.Files) (calls : List (Call P)) : World S :=
  afterCalls ⟨MultiTenantNucleusDb.new policy, disk⟩ calls

theorem reached_concat (policy : MultiTenantPolicy) (disk : S.Files) (calls : List (Call P)) (c : Call P) :
    reached policy disk (calls ++ [c]) = ((reached policy disk calls).perform c).2 := by
  unfold reached afterCalls Run.exec
  rw [List.foldl_concat]

/-- Some call of the run has registered this credential. -/
def Registered (policy : MultiTenantPolicy) (disk : S.Files) (calls : List (Call P)) (k : Credential) : Prop :=
  ∃ before c after, calls = before ++ c :: after ∧ c.grants = some k ∧
    ((reached policy disk before).perform c).1 = some (.ok ())

theorem registered_of_hasPrincipal (policy : MultiTenantPolicy) (disk : S.Files) (calls : List (Call P))
    {tenantId principalId : String} {cred : TenantCredential}
    (h : HasPrincipal (reached policy disk calls).manager tenantId principalId cred) :
    ∃ authToken, cred.tokenHash = tokenHash P authToken ∧
      Registered policy disk calls ⟨tenantId, principalId, authToken, cred.role⟩ := by
  induction calls using List.reverseRecOn with
  | nil =>
    obtain ⟨slot, hslot, -⟩ := h
    have hnone := (get?_new policy tenantId).symm.trans hslot
    cases hnone
  | append_singleton calls c ih =>
    rw [reached_concat] at h
    obtain hbefore | ⟨hok, authToken, hgrants, hhash⟩ := (perform_manager _ c).hasPrincipal h
    · obtain ⟨authToken, hhash, before, c', after, rfl, hregistered⟩ := ih hbefore
      exact ⟨authToken, hhash, before, c', after ++ [c], by simp, hregistered⟩
    · exact ⟨authToken, hhash, calls, c, [], by simp, hgrants, hok⟩

end World

/-- The tokens that are shown or registered in the calls. -/
def tokensOf (calls : List (Call P)) : Set String :=
  {authToken | ∃ c ∈ calls, ∃ k, (c.shows = some k ∨ c.grants = some k) ∧ k.authToken = authToken}

namespace World

theorem registered_of_perform_ok (policy : MultiTenantPolicy) (disk : S.Files) (calls : List (Call P)) (c : Call P)
    (hinj : Set.InjOn (tokenHash P) (tokensOf (calls ++ [c]))) {k : Credential} (hshows : c.shows = some k)
    (h : ((reached policy disk calls).perform c).1 = some (.ok ())) :
    ∃ role, k.role.rank ≤ role.rank ∧
      Registered policy disk calls { k with role } := by
  obtain ⟨slot, hauth⟩ := perform_ok_authorized hshows h
  obtain ⟨hslot, cred, hcred, hhash, hrank⟩ := authorizedTenantSlotAs_ok_iff.mp hauth
  obtain ⟨authToken, hhash', before, c', after, rfl, hgrants, hok⟩ :=
    registered_of_hasPrincipal policy disk calls ⟨slot, hslot, hcred⟩
  obtain rfl : authToken = k.authToken := by
    refine hinj ⟨c', by simp, _, .inr hgrants, rfl⟩ ⟨c, by simp, k, .inl hshows, rfl⟩ ?_
    rw [← hhash', hhash]
  exact ⟨cred.role, hrank, before, c', after, rfl, hgrants, hok⟩

/-! ### What a call does on disk -/

section Disk

variable {disk : S.Files} {path other : String}

variable (disk other) in
theorem transact_get?_ne (fault : Option Fault) (body : S.File → Except PersistenceError S.File) (hne : path ≠ other) :
    (disk.transact path fault body).2[other]? = disk[other]? := by
  have hput (f : S.File) : (disk.put path f)[other]? = disk[other]? := by rw [Disk.get?_put, if_neg hne]
  unfold Disk.transact
  split
  · rfl
  · rfl
  · exact hput _
  · split
    · exact hput _
    · split
      · exact hput _
      · exact hput _

theorem erase_get?_ne (hne : path ≠ other) : (disk.erase path)[other]? = disk[other]? := OrdMap.get?_erase_ne _ hne

theorem rename_get?_ne {source : String} (hsource : source ≠ other) (hne : path ≠ other) :
    (disk.rename source path)[other]? = disk[other]? := by
  unfold Disk.rename
  split
  · rfl
  · rw [OrdMap.get?_insert_ne _ _ hne, erase_get?_ne hsource]

theorem truncateWal_get?_ne (db : NucleusDb P) (nanos : Nat) (faults : TruncateFaults) (hne : path ≠ other)
    (hswap : swapPath path nanos ≠ other) : (truncateWal S path db nanos faults disk).2[other]? = disk[other]? := by
  have hinit := transact_get?_ne disk _ faults.init (initWalBody S db) hswap
  unfold truncateWal initWal
  dsimp only
  generalize disk.transact (swapPath path nanos) faults.init (initWalBody S db) = out at hinit ⊢
  obtain ⟨r, disk'⟩ := out
  dsimp only at hinit
  cases r with
  | error e => exact hinit
  | ok u =>
    dsimp only
    split
    · rw [rename_get?_ne hswap hne, hinit]
    · split
      · split
        · exact hinit
        · rw [erase_get?_ne hne, hinit]
        · split
          · rw [rename_get?_ne hswap hne, erase_get?_ne hne, hinit]
          · rw [erase_get?_ne hne, hinit]
      · rw [erase_get?_ne hswap, hinit]

theorem saveSnapshot_wal (db : NucleusDb P) (fault : Option Fault) :
    ((saveSnapshot S path db fault disk).2.file other).walMeta = (disk.file other).walMeta ∧
      ((saveSnapshot S path db fault disk).2.file other).walEvents = (disk.file other).walEvents := by
  cases hsave : saveSnapshot S path db fault disk with
  | mk r disk' =>
    cases r with
    | error e =>
      rw [Disk.transact_error hsave other]
      exact ⟨rfl, rfl⟩
    | ok u =>
      obtain ⟨f, hbody, rfl⟩ := Disk.transact_ok hsave
      rw [Disk.file_put]
      split
      · rename_i heq
        subst heq
        split at hbody
        · cases hbody
        · obtain rfl := Except.ok.inj hbody
          exact ⟨rfl, rfl⟩
      · exact ⟨rfl, rfl⟩

end Disk

end World

/-- The path of the log of the call's tenant: the one that a registration names, else the one it is registered with. -/
def Call.OwnLog (w : World S) (path : String) : Call P → Prop
  | .registerTenant _ _ _ => False
  | .registerTenantWithWalPath _ _ _ walPath _ => walPath = some path
  | .registerTenantFromWal _ _ _ walPath _ => walPath = path
  | c => ∃ slot, w.manager.tenants[c.tenantId]? = some slot ∧ slot.walPath = some path

/-- The path that a checkpoint makes the new log at. -/
def Call.SwapLog (w : World S) (path : String) : Call P → Prop
  | .checkpointTenant tenantId _ _ _ nanos _ _ =>
    ∃ slot wal, w.manager.tenants[tenantId]? = some slot ∧ slot.walPath = some wal ∧ swapPath wal nanos = path
  | _ => False

def Call.SnapshotAt (path : String) : Call P → Prop
  | .checkpointTenant _ _ _ snapshotPath _ _ _ => snapshotPath = path
  | _ => False

namespace World

variable {w : World S} {path : String}

theorem registerTenantWithWalPath_get?_ne (tenantId authToken : String) (db : NucleusDb P) {walPath : Option String}
    (fault : Option Fault) (hne : walPath ≠ some path) :
    (w.registerTenantWithWalPath tenantId authToken db walPath fault).2.disk[path]? = w.disk[path]? := by
  unfold registerTenantWithWalPath onLog
  split
  · rfl
  · cases walPath with
    | none => rfl
    | some wal =>
      have hinit := transact_get?_ne w.disk _ fault (initWalBody S db) (fun heq => hne (congrArg some heq))
      unfold initWal
      dsimp only
      generalize w.disk.transact wal fault (initWalBody S db) = out at hinit ⊢
      obtain ⟨r, disk⟩ := out
      cases r with
      | error e => exact hinit
      | ok u => exact hinit

theorem registerTenantFromWal_disk (tenantId authToken : String) (witnessCfg : WitnessConfig P) (walPath : String)
    (clock : Clock) : (w.registerTenantFromWal tenantId authToken witnessCfg walPath clock).2.disk = w.disk := by
  unfold registerTenantFromWal
  split
  · rfl
  · rfl
  · split
    · rfl
    · rfl

theorem ensureWalInitialized_get?_ne (tenantId authToken : String) (fault : Option Fault)
    (hne : ∀ slot, w.manager.tenants[tenantId]? = some slot → slot.walPath ≠ some path) :
    (w.ensureWalInitialized tenantId authToken fault).2.disk[path]? = w.disk[path]? := by
  unfold ensureWalInitialized
  split
  · rfl
  · rename_i slot hauth
    split
    · rfl
    · rename_i wal hwal
      split
      · rfl
      · have hinit := transact_get?_ne w.disk path fault (initWalBody S slot.db)
          fun heq => hne slot (authorizedTenantSlotAs_ok hauth) (heq ▸ hwal)
        unfold initWal
        generalize w.disk.transact wal fault (initWalBody S slot.db) = out at hinit ⊢
        obtain ⟨r, disk⟩ := out
        cases r with
        | error e => exact hinit
        | ok u => exact hinit

theorem registerPrincipal_disk (tenantId adminPrincipalId adminAuthToken principalId principalAuthToken : String)
    (role : TenantRole) :
    (w.registerPrincipal tenantId adminPrincipalId adminAuthToken principalId principalAuthToken role).2.disk = w.disk := by
  unfold registerPrincipal
  split
  · rfl
  · split
    · rfl
    · rfl

theorem commitAs_get?_ne (tenantId principalId authToken : String) (delta : Delta) (localViews : List LocalSection)
    (now : Nat) (fault : Option Fault)
    (hne : ∀ slot, w.manager.tenants[tenantId]? = some slot → slot.walPath ≠ some path) :
    (w.commitAs tenantId principalId authToken delta localViews now fault).2.disk[path]? = w.disk[path]? := by
  unfold commitAs
  split
  · rfl
  · rename_i slot hauth
    split
    · rfl
    · split
      · rfl
      · rfl
      · rename_i entry db _
        have happend : (onLog slot.walPath (fun path => appendWalEvent S path delta db entry fault) w.disk).2[path]? =
            w.disk[path]? := by
          unfold onLog
          split
          · rename_i wal hwal
            exact transact_get?_ne _ _ fault _ fun heq => hne slot (authorizedTenantSlotAs_ok hauth) (heq ▸ hwal)
          · rfl
        dsimp only
        generalize onLog slot.walPath (fun path => appendWalEvent S path delta db entry fault) w.disk = out at happend ⊢
        obtain ⟨r, disk⟩ := out
        cases r with
        | error e => exact happend
        | ok u => exact happend

theorem checkpointTenant_get? (tenantId principalId authToken snapshotPath : String) (nanos : Nat)
    (saveFault : Option Fault) (faults : TruncateFaults)
    (hne : ∀ slot, w.manager.tenants[tenantId]? = some slot → slot.walPath ≠ some path)
    (hswap : ∀ slot wal, w.manager.tenants[tenantId]? = some slot → slot.walPath = some wal → swapPath wal nanos ≠ path) :
    (w.checkpointTenant tenantId principalId authToken snapshotPath nanos saveFault faults).2.disk = w.disk ∨ ∃ db,
      (w.checkpointTenant tenantId principalId authToken snapshotPath nanos saveFault faults).2.disk[path]? =
        (saveSnapshot S snapshotPath db saveFault w.disk).2[path]? := by
  unfold checkpointTenant
  split
  · exact .inl rfl
  · rename_i slot hauth
    have hslot := authorizedTenantSlotAs_ok hauth
    split
    · exact .inl rfl
    · refine .inr ⟨slot.db, ?_⟩
      generalize saveSnapshot S snapshotPath slot.db saveFault w.disk = saved
      obtain ⟨r, disk⟩ := saved
      cases r with
      | error e => rfl
      | ok u =>
        have htruncate : (onLog slot.walPath (fun path => truncateWal S path slot.db nanos faults) disk).2[path]? =
            disk[path]? := by
          unfold onLog
          split
          · rename_i wal hwal
            exact truncateWal_get?_ne slot.db nanos faults (fun heq => hne slot hslot (heq ▸ hwal))
              (hswap slot wal hslot hwal)
          · rfl
        dsimp only
        generalize onLog slot.walPath (fun path => truncateWal S path slot.db nanos faults) disk = out at htruncate ⊢
        obtain ⟨r, disk'⟩ := out
        cases r with
        | error e => exact htruncate
        | ok u => exact htruncate

theorem perform_get? {c : Call P} (hown : ¬ c.OwnLog w path) (hswap : ¬ c.SwapLog w path) :
    (w.perform c).2.disk[path]? = w.disk[path]? ∨
      ∃ snapshotPath db fault, c.SnapshotAt snapshotPath ∧
        (w.perform c).2.disk[path]? = (saveSnapshot S snapshotPath db fault w.disk).2[path]? := by
  cases c with
  | registerTenant tenantId authToken db =>
    have hnone : (none : Option String) ≠ some path := nofun
    exact .inl (registerTenantWithWalPath_get?_ne tenantId authToken db none hnone)
  | registerTenantWithWalPath tenantId authToken db walPath fault =>
    exact .inl (registerTenantWithWalPath_get?_ne tenantId authToken db fault hown)
  | registerTenantFromWal tenantId authToken witnessCfg walPath clock =>
    exact .inl (congrArg (·[path]?) (registerTenantFromWal_disk tenantId authToken witnessCfg walPath clock))
  | ensureWalInitialized tenantId authToken fault =>
    exact .inl (ensureWalInitialized_get?_ne tenantId authToken fault fun slot hslot hwal => hown ⟨slot, hslot, hwal⟩)
  | registerPrincipal tenantId adminPrincipalId adminAuthToken principalId principalAuthToken role =>
    exact .inl (congrArg (·[path]?) (registerPrincipal_disk tenantId adminPrincipalId adminAuthToken principalId
      principalAuthToken role))
  | commitAs tenantId principalId authToken delta localViews now fault =>
    exact .inl (commitAs_get?_ne tenantId principalId authToken delta localViews now fault
      fun slot hslot hwal => hown ⟨slot, hslot, hwal⟩)
  | queryAs tenantId principalId authToken idx => exact .inl rfl
  | verifyQueryAs tenantId principalId authToken idx value proof stateRoot => exact .inl rfl
  | snapshotTenantAs tenantId principalId authToken => exact .inl rfl
  | checkpointTenant tenantId principalId authToken snapshotPath nanos saveFault faults =>
    obtain hsame | ⟨db, hsaved⟩ := checkpointTenant_get? tenantId principalId authToken snapshotPath nanos saveFault faults
      (fun slot hslot hwal => hown ⟨slot, hslot, hwal⟩)
      fun slot wal hslot hwal heq => hswap ⟨slot, wal, hslot, hwal, heq⟩
    · exact .inl (congrArg (·[path]?) hsame)
    · exact .inr ⟨snapshotPath, db, saveFault, rfl, hsaved⟩

end World

/-- The log of a file: its metadata and its events. -/
def walOf (disk : S.Files) (path : String) : Option (Option S.walMeta.Raw) × Option (OrdMap Nat S.walEvent.Raw) :=
  ((disk.file path).walMeta, (disk.file path).walEvents)

namespace World

theorem file_congr {disk disk' : S.Files} {path : String} (h : disk'[path]? = disk[path]?) :
    disk'.file path = disk.file path := congrArg (·.getD RedbFile.empty) h

theorem perform_wal {w : World S} {path : String} {c : Call P} (hown : ¬ c.OwnLog w path) (hswap : ¬ c.SwapLog w path) :
    walOf (w.perform c).2.disk path = walOf w.disk path := by
  obtain hsame | ⟨snapshotPath, db, fault, -, hsaved⟩ := perform_get? hown hswap
  · unfold walOf
    rw [file_congr hsame]
  · unfold walOf
    rw [file_congr hsaved, (saveSnapshot_wal db fault).1, (saveSnapshot_wal db fault).2]

theorem perform_file {w : World S} {path : String} {c : Call P} (hown : ¬ c.OwnLog w path) (hswap : ¬ c.SwapLog w path)
    (hsnapshot : ¬ c.SnapshotAt path) : (w.perform c).2.disk[path]? = w.disk[path]? := by
  obtain hsame | ⟨snapshotPath, db, fault, hat, hsaved⟩ := perform_get? hown hswap
  · exact hsame
  · rw [hsaved]
    exact transact_get?_ne _ _ fault _ fun heq => hsnapshot (heq ▸ hat)

/-- What keeps the tenants apart, in every order of calls: only registered credentials are let in, and a call changes
neither the slot of another tenant nor its log, unless that is where a checkpoint makes the new log. -/
theorem isolated (policy : MultiTenantPolicy) (disk : S.Files) (calls : List (Call P)) (c : Call P)
    (hinj : Set.InjOn (tokenHash P) (tokensOf (calls ++ [c]))) :
    (∀ k, c.shows = some k → ((reached policy disk calls).perform c).1 = some (.ok ()) →
        ∃ role, k.role.rank ≤ role.rank ∧ Registered policy disk calls { k with role }) ∧
      ∀ u, u ≠ c.tenantId →
        ((reached policy disk calls).perform c).2.manager.tenants[u]? =
          (reached policy disk calls).manager.tenants[u]? ∧
        ∀ slot path, (reached policy disk calls).manager.tenants[u]? = some slot → slot.walPath = some path →
          ¬ c.OwnLog (reached policy disk calls) path → ¬ c.SwapLog (reached policy disk calls) path →
          walOf ((reached policy disk calls).perform c).2.disk path = walOf (reached policy disk calls).disk path ∧
            (¬ c.SnapshotAt path → ((reached policy disk calls).perform c).2.disk[path]? =
              (reached policy disk calls).disk[path]?) :=
  ⟨fun _ hshows hok => registered_of_perform_ok policy disk calls c hinj hshows hok, fun _ hne =>
    ⟨(perform_manager _ c).other hne, fun _ _ _ _ hown hswap =>
      ⟨perform_wal hown hswap, perform_file hown hswap⟩⟩⟩

/-! ### A log at the swap path -/

section Sample

theorem registerTenantWithWalPath_of_new {w : World S} {tenantId : String} (hpermissive : w.manager.policy = .permissive)
    (hnew : w.manager.tenants[tenantId]? = none) {path : String} {db : NucleusDb P} {disk : S.Files}
    (hinit : initWal S path db none w.disk = (.ok (), disk)) (authToken : String) :
    w.perform (.registerTenantWithWalPath tenantId authToken db (some path) none) =
      (some (.ok ()), ⟨w.manager.setSlot tenantId (newSlot authToken db (some path)), disk⟩) := by
  unfold perform registerTenantWithWalPath onLog
  dsimp only
  rw [hpermissive, validateTenantPolicy_permissive, hinit]
  dsimp only
  rw [addTenant_of_new hnew]

theorem truncateWal_of_taken {path : String} {nanos : Nat} {disk : S.Files} {log : Log P} {db : NucleusDb P}
    (hlog : LogAt S disk (swapPath path nanos) log) (hmatch : log.walMeta.matches (walMetaOf db) = true)
    (hne : swapPath path nanos ≠ path) :
    ∃ disk', truncateWal S path db nanos {} disk = (.ok (), disk') ∧ disk'[swapPath path nanos]? = none := by
  obtain ⟨f, hinit, -⟩ := initWal_of_matches hlog hmatch
  refine ⟨(disk.put (swapPath path nanos) f).rename (swapPath path nanos) path, ?_, ?_⟩
  · unfold truncateWal
    dsimp only
    rw [hinit]
  · unfold Disk.rename
    rw [if_neg hne, OrdMap.get?_insert_ne _ _ hne.symm, OrdMap.get?_erase, if_pos rfl]

/-- Two tenants with one configuration, the second with its log where the first makes its new ones. -/
def neighbours : List (Call .reference) :=
  [.registerTenantWithWalPath "t" "pw" singleWitnessDb (some "t.wal") none,
    .registerTenantWithWalPath "u" "pw" singleWitnessDb (some (swapPath "t.wal" 0)) none]

def checkpointCall : Call .reference := .checkpointTenant "t" "admin" "pw" "t.snapshot" 0 none {}

def neighbourManager : MultiTenantNucleusDb .reference :=
  ((MultiTenantNucleusDb.new .permissive).setSlot "t" (newSlot "pw" singleWitnessDb (some "t.wal"))).setSlot "u"
    (newSlot "pw" singleWitnessDb (some (swapPath "t.wal" 0)))

theorem neighbours_reached : ∃ disk : (Serde.identity .reference).Files,
    reached .permissive ∅ neighbours = ⟨neighbourManager, disk⟩ ∧
      LogAt _ disk (swapPath "t.wal" 0) ⟨walMetaOf singleWitnessDb, []⟩ := by
  have hRound := Serde.identity_roundTrips .reference
  have hWrites := Serde.identity_writes .reference
  obtain ⟨f, hfirst, -⟩ := initWal_of_blank hRound hWrites (Disk.walBlank_empty "t.wal") singleWitnessDb
  have hblank : (Disk.file (Disk.put (∅ : (Serde.identity .reference).Files) "t.wal" f)
      (swapPath "t.wal" 0)).WalBlank := by
    rw [Disk.file_put, if_neg (wal_ne_swapPath 0)]
    exact Disk.walBlank_empty _
  obtain ⟨f', hsecond, hlog⟩ := initWal_of_blank hRound hWrites hblank singleWitnessDb
  refine ⟨_, ?_, hlog⟩
  have hnew : ((MultiTenantNucleusDb.new .permissive : MultiTenantNucleusDb .reference).setSlot "t"
      (newSlot "pw" singleWitnessDb (some "t.wal"))).tenants["u"]? = none :=
    (OrdMap.get?_insert_ne _ _ (by decide)).trans (get?_new .permissive "u")
  have hregister := registerTenantWithWalPath_of_new (rfl : (idle ∅).manager.policy = .permissive)
    (get?_new .permissive "t") hfirst "pw"
  show (((idle ∅).perform _).2.perform _).2 = _
  rw [hregister]
  dsimp only
  rw [registerTenantWithWalPath_of_new rfl hnew hsecond "pw"]
  rfl

theorem tokensOf_neighbours : tokensOf (neighbours ++ [checkpointCall]) ⊆ {"pw"} := by
  rintro authToken ⟨c, hc, k, hk, rfl⟩
  simp only [neighbours, checkpointCall, List.cons_append, List.nil_append, List.mem_cons, List.not_mem_nil,
    or_false] at hc
  obtain rfl | rfl | rfl := hc
  · obtain hk | hk := hk
    · cases hk
    · rw [← Option.some.inj hk]
      rfl
  · obtain hk | hk := hk
    · cases hk
    · rw [← Option.some.inj hk]
      rfl
  · obtain hk | hk := hk
    · rw [← Option.some.inj hk]
      rfl
    · cases hk

theorem injOn_tokensOf_neighbours :
    Set.InjOn (tokenHash .reference) (tokensOf (neighbours ++ [checkpointCall])) := by
  intro a ha b hb _
  rw [tokensOf_neighbours ha, tokensOf_neighbours hb]

theorem checkpointCall_performed {w : World (Serde.identity .reference)}
    (hw : w = reached .permissive ∅ neighbours) :
    w.manager.tenants["t"]? = some (newSlot "pw" singleWitnessDb (some "t.wal")) ∧
      w.manager.tenants["u"]? = some (newSlot "pw" singleWitnessDb (some (swapPath "t.wal" 0))) ∧
      (w.perform checkpointCall).1 = some (.ok ()) ∧ (walOf w.disk (swapPath "t.wal" 0)).1.isSome = true ∧
      (walOf (w.perform checkpointCall).2.disk (swapPath "t.wal" 0)).1 = none := by
  obtain ⟨disk, hreached, hlog⟩ := neighbours_reached
  obtain rfl := hw.trans hreached
  have hslot : neighbourManager.tenants["t"]? = some (newSlot "pw" singleWitnessDb (some "t.wal")) :=
    (OrdMap.get?_insert_ne _ _ (by decide)).trans (get?_setSlot _ _ _)
  obtain ⟨saved, hsave⟩ := saveSnapshot_of_writes (Serde.identity_writes .reference) "t.snapshot"
    singleWitnessDb disk
  have hkept : ((saveSnapshot _ "t.snapshot" singleWitnessDb none disk).2.file (swapPath "t.wal" 0)).walMeta =
      (Disk.file disk (swapPath "t.wal" 0)).walMeta ∧
      ((saveSnapshot _ "t.snapshot" singleWitnessDb none disk).2.file (swapPath "t.wal" 0)).walEvents =
        (Disk.file disk (swapPath "t.wal" 0)).walEvents := saveSnapshot_wal singleWitnessDb none
  rw [hsave] at hkept
  obtain ⟨disk', htruncate, hgone⟩ := truncateWal_of_taken (hlog.congr hkept.1 hkept.2)
    (WalMetaV1.matches_self (walMetaOf singleWitnessDb)) (wal_ne_swapPath 0).symm
  have hauth := authorizedTenantSlotAs_of_admin hslot (newSlot_admin "pw" singleWitnessDb (some "t.wal")) .admin
  obtain ⟨raw, hraw, -⟩ := hlog.walMeta
  have hcall : World.perform ⟨neighbourManager, disk⟩ checkpointCall =
      (some (.ok ()), (⟨neighbourManager, disk'⟩ : World (Serde.identity .reference))) := by
    have hlogged : onLog (newSlot "pw" singleWitnessDb (some "t.wal")).walPath
        (fun path => truncateWal _ path singleWitnessDb 0 {}) saved = (.ok (), disk') := htruncate
    unfold perform checkpointCall
    dsimp only
    rw [checkpointTenant_of_truncate hauth rfl hsave hlogged]
  rw [hcall]
  refine ⟨hslot, get?_setSlot _ _ _, rfl, ?_, ?_⟩
  · unfold walOf
    rw [hraw]
    rfl
  · unfold walOf
    rw [Disk.file, hgone]
    rfl

/-- The checkpoint shows a credential that was registered. -/
theorem checkpoint_registered : ∃ role, TenantRole.admin.rank ≤ role.rank ∧
    Registered .permissive (∅ : (Serde.identity .reference).Files) neighbours ⟨"t", "admin", "pw", role⟩ :=
  (isolated .permissive ∅ neighbours checkpointCall injOn_tokensOf_neighbours).1 ⟨"t", "admin", "pw", .admin⟩ rfl
    (checkpointCall_performed rfl).2.2.1

/-- The checkpoint of one tenant takes the log of another away, which has another path. -/
theorem checkpoint_takes_log : ∃ w : World (Serde.identity .reference),
    w = reached .permissive ∅ neighbours ∧
      Set.InjOn (tokenHash .reference) (tokensOf (neighbours ++ [checkpointCall])) ∧
      "u" ≠ checkpointCall.tenantId ∧ ∃ slot path, w.manager.tenants["u"]? = some slot ∧ slot.walPath = some path ∧
        ¬ checkpointCall.OwnLog w path ∧ walOf (w.perform checkpointCall).2.disk path ≠ walOf w.disk path := by
  obtain ⟨hslot, hneighbour, -, hbefore, hafter⟩ := checkpointCall_performed rfl
  refine ⟨_, rfl, injOn_tokensOf_neighbours, by decide, _, _, hneighbour, rfl, ?_, ?_⟩
  · rintro ⟨slot, hslot', hwal⟩
    obtain rfl := Option.some.inj (hslot.symm.trans hslot')
    exact wal_ne_swapPath 0 (Option.some.inj hwal)
  · intro heq
    rw [heq] at hafter
    rw [hafter] at hbefore
    cases hbefore

end Sample

end World

end AgentHalo.Tenant
