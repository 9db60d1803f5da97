import AgentHalo.Persistence.Wal

/-!
# The multi-tenant manager

Each tenant has its own database, its principals with their hashed tokens and roles, and possibly a write-ahead log. A
commit goes to the database first and to the log second, so a failed append leaves the commit in memory. A panic inside a
commit poisons the tenant's lock; from then on every call on the tenant's database is refused.

The manager's locks are held for the length of a call, so calls are steps: each takes the manager and the disk and
returns its answer, absent on a panic, with both of them after it.
-/

namespace AgentHalo.Tenant

open Engine Engine.NucleusDb
open Persistence
open Text (utf8)

structure MultiTenantPolicy where
  requireBinaryMerkleBackend : Bool
  requireMldsaSignatures : Bool
  denyInsecureDefaultWitnessSeed : Bool
deriving DecidableEq, Repr

def MultiTenantPolicy.permissive : MultiTenantPolicy := ⟨false, false, false⟩

inductive TenantRole where
  | reader
  | writer
  | admin
deriving DecidableEq, Repr

def TenantRole.rank : TenantRole → Nat
  | .reader => 0
  | .writer => 1
  | .admin => 2

inductive MultiTenantError where
  | tenantAlreadyExists (tenantId : String)
  | tenantNotFound (tenantId : String)
  | tenantAuthFailed (tenantId : String)
  | tenantPrincipalNotFound (tenantId principalId : String)
  | tenantPrincipalAlreadyExists (tenantId principalId : String)
  | tenantPermissionDenied (tenantId principalId : String) (required got : TenantRole)
  | tenantPolicyViolation (tenantId reason : String)
  | tenantDbPoisoned (tenantId : String)
  | queryIndexMissing (tenantId : String) (idx : Nat)
  | commit (e : CommitError)
  | persistence (e : PersistenceError)
deriving DecidableEq, Repr

structure TenantCredential where
  tokenHash : NodeHash
  role : TenantRole
deriving DecidableEq, Repr

structure TenantSlot (P : Platform) where
  principals : OrdMap String TenantCredential
  db : NucleusDb P
  dbPoisoned : Bool
  walPath : Option String

structure MultiTenantNucleusDb (P : Platform) where
  policy : MultiTenantPolicy
  tenants : OrdMap String (TenantSlot P)

structure World {P : Platform} (S : Serde P) where
  manager : MultiTenantNucleusDb P
  disk : S.Files

namespace MultiTenantNucleusDb

variable {P : Platform}

def new (policy : MultiTenantPolicy) : MultiTenantNucleusDb P := ⟨policy, ∅⟩

def domainHash32 (P : Platform) (domain data : Bytes) : NodeHash := P.sha256 (domain ++ [0] ++ data)

def tokenHash (P : Platform) (token : String) : NodeHash :=
  domainHash32 P (utf8 "nucleusdb.multitenant.auth.v1") (utf8 token)

def validateTenantPolicy (policy : MultiTenantPolicy) (tenantId : String) (db : NucleusDb P) :
    Except MultiTenantError Unit :=
  if policy.requireBinaryMerkleBackend ∧ db.backend ≠ .binaryMerkle then
    .error (.tenantPolicyViolation tenantId "backend must be binary_merkle in production policy")
  else if policy.requireMldsaSignatures ∧ db.witnessCfg.signingAlgorithm ≠ .mlDsa65 then
    .error (.tenantPolicyViolation tenantId "witness signing algorithm must be ml_dsa65 in production policy")
  else if policy.denyInsecureDefaultWitnessSeed ∧ db.witnessCfg.keyMaterialSource = .insecureDefaultSeed then
    .error (.tenantPolicyViolation tenantId "witness config used insecure default development seed")
  else .ok ()

/-- A tenant as it is registered, with its administrator. -/
def newSlot (authToken : String) (db : NucleusDb P) (walPath : Option String) : TenantSlot P where
  principals := (∅ : OrdMap String TenantCredential).insert "admin" ⟨tokenHash P authToken, .admin⟩
  db := db
  dbPoisoned := false
  walPath := walPath

def setSlot (m : MultiTenantNucleusDb P) (tenantId : String) (slot : TenantSlot P) : MultiTenantNucleusDb P :=
  { m with tenants := m.tenants.insert tenantId slot }

/-- The part of a registration that follows the log: the tenant must be new. -/
def addTenant (m : MultiTenantNucleusDb P) (tenantId authToken : String) (db : NucleusDb P)
    (walPath : Option String) : Except MultiTenantError Unit × MultiTenantNucleusDb P :=
  if m.tenants[tenantId]?.isSome then (.error (.tenantAlreadyExists tenantId), m)
  else (.ok (), m.setSlot tenantId (newSlot authToken db walPath))

def authorizedTenantSlotAs (m : MultiTenantNucleusDb P) (tenantId principalId authToken : String)
    (required : TenantRole) : Except MultiTenantError (TenantSlot P) :=
  match m.tenants[tenantId]? with
  | none => .error (.tenantNotFound tenantId)
  | some slot =>
    match slot.principals[principalId]? with
    | none => .error (.tenantPrincipalNotFound tenantId principalId)
    | some cred =>
      if cred.tokenHash ≠ tokenHash P authToken then .error (.tenantAuthFailed tenantId)
      else if cred.role.rank < required.rank then
        .error (.tenantPermissionDenied tenantId principalId required cred.role)
      else .ok slot

end MultiTenantNucleusDb

namespace World

open MultiTenantNucleusDb

variable {P : Platform} {S : Serde P}

/-- An operation on the log of a tenant that has one. -/
def onLog (walPath : Option String) (op : String → S.Files → Except PersistenceError Unit × S.Files) (disk : S.Files) :
    Except PersistenceError Unit × S.Files :=
  match walPath with
  | some path => op path disk
  | none => (.ok (), disk)

/-! ### Registration -/

/-- `register_tenant_with_wal_path`. The log is opened before the tenant's name is checked. -/
def registerTenantWithWalPath (w : World S) (tenantId authToken : String) (db : NucleusDb P) (walPath : Option String)
    (fault : Option Fault) : Except MultiTenantError Unit × World S :=
  match validateTenantPolicy w.manager.policy tenantId db with
  | .error e => (.error e, w)
  | .ok () =>
    match onLog walPath (fun path => initWal S path db fault) w.disk with
    | (.error e, disk) => (.error (.persistence e), ⟨w.manager, disk⟩)
    | (.ok (), disk) =>
      let (r, manager) := w.manager.addTenant tenantId authToken db walPath
      (r, ⟨manager, disk⟩)

def registerTenantFromWal (w : World S) (tenantId authToken : String) (witnessCfg : WitnessConfig P)
    (walPath : String) (clock : Clock) : Option (Except MultiTenantError Unit) × World S :=
  match loadWal S walPath witnessCfg clock w.disk with
  | none => (none, w)
  | some (.error e) => (some (.error (.persistence e)), w)
  | some (.ok db) =>
    match validateTenantPolicy w.manager.policy tenantId db with
    | .error e => (some (.error e), w)
    | .ok () =>
      let (r, manager) := w.manager.addTenant tenantId authToken db (some walPath)
      (some r, { w with manager })

def registerPrincipal (w : World S) (tenantId adminPrincipalId adminAuthToken principalId principalAuthToken : String)
    (role : TenantRole) : Except MultiTenantError Unit × World S :=
  match w.manager.authorizedTenantSlotAs tenantId adminPrincipalId adminAuthToken .admin with
  | .error e => (.error e, w)
  | .ok slot =>
    if slot.principals[principalId]?.isSome then (.error (.tenantPrincipalAlreadyExists tenantId principalId), w)
    else
      let principals := slot.principals.insert principalId ⟨tokenHash P principalAuthToken, role⟩
      (.ok (), { w with manager := w.manager.setSlot tenantId { slot with principals } })

/-! ### Commits and checkpoints -/

def commitAs (w : World S) (tenantId principalId authToken : String) (delta : Delta) (localViews : List LocalSection)
    (now : Nat) (fault : Option Fault) : Option (Except MultiTenantError CommitEntry) × World S :=
  match w.manager.authorizedTenantSlotAs tenantId principalId authToken .writer with
  | .error e => (some (.error e), w)
  | .ok slot =>
    if slot.dbPoisoned then (some (.error (.tenantDbPoisoned tenantId)), w)
    else
      match slot.db.commit delta localViews now with
      | none => (none, { w with manager := w.manager.setSlot tenantId { slot with dbPoisoned := true } })
      | some (.error e, db) =>
        (some (.error (.commit e)), { w with manager := w.manager.setSlot tenantId { slot with db } })
      | some (.ok entry, db) =>
        let manager := w.manager.setSlot tenantId { slot with db }
        match onLog slot.walPath (fun path => appendWalEvent S path delta db entry fault) w.disk with
        | (.error e, disk) => (some (.error (.persistence e)), ⟨manager, disk⟩)
        | (.ok (), disk) => (some (.ok entry), ⟨manager, disk⟩)

def checkpointTenant (w : World S) (tenantId principalId authToken snapshotPath : String) (nanos : Nat)
    (saveFault : Option Fault) (faults : TruncateFaults) : Except MultiTenantError Unit × World S :=
  match w.manager.authorizedTenantSlotAs tenantId principalId authToken .admin with
  | .error e => (.error e, w)
  | .ok slot =>
    if slot.dbPoisoned then (.error (.tenantDbPoisoned tenantId), w)
    else
      match saveSnapshot S snapshotPath slot.db saveFault w.disk with
      | (.error e, disk) => (.error (.persistence e), { w with disk })
      | (.ok (), disk) =>
        match onLog slot.walPath (fun path => truncateWal S path slot.db nanos faults) disk with
        | (.error e, disk) => (.error (.persistence e), { w with disk })
        | (.ok (), disk) => (.ok (), { w with disk })

/-- The process dies and a new one recovers the tenant from its log: memory is lost, the disk stays. -/
def crashAndRecover (w : World S) (policy : MultiTenantPolicy) (tenantId authToken : String)
    (witnessCfg : WitnessConfig P) (walPath : String) (clock : Clock) :
    Option (Except MultiTenantError Unit) × World S :=
  registerTenantFromWal ⟨MultiTenantNucleusDb.new policy, w.disk⟩ tenantId authToken witnessCfg walPath clock

end World

end AgentHalo.Tenant
