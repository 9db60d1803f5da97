import AgentHalo.Engine.Query
import AgentHalo.Tenant.Steps

/-!
# The calls of many tenants

Any caller may make any call on any tenant. `perform` takes the call and returns its answer, without its value, and the
world after it. A call on a tenant that is there carries a credential, which must meet the role that the call requires;
two of the calls register a principal.
-/

namespace AgentHalo.Tenant

open Engine Engine.NucleusDb
open Persistence

variable {P : Platform} {S : Serde P}

structure TenantSnapshot where
  tenantId : String
  backend : VcBackend
  entries : Nat
  stateValues : List UInt64
deriving DecidableEq, Repr

namespace World

open MultiTenantNucleusDb

/-- There is no log to open. -/
def registerTenant (w : World S) (tenantId authToken : String) (db : NucleusDb P) :
    Except MultiTenantError Unit × World S := w.registerTenantWithWalPath tenantId authToken db none none

def ensureWalInitialized (w : World S) (tenantId authToken : String) (fault : Option Fault) :
    Except MultiTenantError Unit × World S :=
  match w.manager.authorizedTenantSlotAs tenantId "admin" authToken .admin with
  | .error e => (.error e, w)
  | .ok slot =>
    match slot.walPath with
    | none => (.ok (), w)
    | some path =>
      if slot.dbPoisoned then (.error (.tenantDbPoisoned tenantId), w)
      else
        match initWal S path slot.db fault w.disk with
        | (.error e, disk) => (.error (.persistence e), { w with disk })
        | (.ok (), disk) => (.ok (), { w with disk })

/-- The database of the tenant for a caller who may read it. -/
def readableDb (w : World S) (tenantId principalId authToken : String) : Except MultiTenantError (NucleusDb P) :=
  match w.manager.authorizedTenantSlotAs tenantId principalId authToken .reader with
  | .error e => .error e
  | .ok slot => if slot.dbPoisoned then .error (.tenantDbPoisoned tenantId) else .ok slot.db

def queryAs (w : World S) (tenantId principalId authToken : String) (idx : Nat) :
    Option (Except MultiTenantError (UInt64 × QueryProof × NodeHash)) :=
  match w.readableDb tenantId principalId authToken with
  | .error e => some (.error e)
  | .ok db =>
    match db.query idx with
    | .absent => some (.error (.queryIndexMissing tenantId idx))
    | .found value proof stateRoot => some (.ok (value, proof, stateRoot))
    | .panicked => none

def verifyQueryAs (w : World S) (tenantId principalId authToken : String) (idx : Nat) (value : UInt64)
    (proof : QueryProof) (stateRoot : NodeHash) : Option (Except MultiTenantError Bool) :=
  match w.readableDb tenantId principalId authToken with
  | .error e => some (.error e)
  | .ok db => (db.verifyQuery idx value proof stateRoot).map .ok

def snapshotTenantAs (w : World S) (tenantId principalId authToken : String) : Except MultiTenantError TenantSnapshot :=
  (w.readableDb tenantId principalId authToken).map fun db =>
    { tenantId, backend := db.backend, entries := db.entries.length, stateValues := db.state.values }

end World

inductive Call (P : Platform) where
  | registerTenant (tenantId authToken : String) (db : NucleusDb P)
  | registerTenantWithWalPath (tenantId authToken : String) (db : NucleusDb P) (walPath : Option String)
      (fault : Option Fault)
  | registerTenantFromWal (tenantId authToken : String) (witnessCfg : WitnessConfig P) (walPath : String) (clock : Clock)
  | ensureWalInitialized (tenantId authToken : String) (fault : Option Fault)
  | registerPrincipal (tenantId adminPrincipalId adminAuthToken principalId principalAuthToken : String)
      (role : TenantRole)
  | commitAs (tenantId principalId authToken : String) (delta : Delta) (localViews : List LocalSection) (now : Nat)
      (fault : Option Fault)
  | queryAs (tenantId principalId authToken : String) (idx : Nat)
  | verifyQueryAs (tenantId principalId authToken : String) (idx : Nat) (value : UInt64) (proof : QueryProof)
      (stateRoot : NodeHash)
  | snapshotTenantAs (tenantId principalId authToken : String)
  | checkpointTenant (tenantId principalId authToken snapshotPath : String) (nanos : Nat) (saveFault : Option Fault)
      (faults : TruncateFaults)

/-- A principal of a tenant with its token, and a role. -/
structure Credential where
  tenantId : String
  principalId : String
  authToken : String
  role : TenantRole
deriving DecidableEq, Repr

namespace Call

def tenantId : Call P → String
  | .registerTenant tenantId _ _ => tenantId
  | .registerTenantWithWalPath tenantId _ _ _ _ => tenantId
  | .registerTenantFromWal tenantId _ _ _ _ => tenantId
  | .ensureWalInitialized tenantId _ _ => tenantId
  | .registerPrincipal tenantId _ _ _ _ _ => tenantId
  | .commitAs tenantId _ _ _ _ _ _ => tenantId
  | .queryAs tenantId _ _ _ => tenantId
  | .verifyQueryAs tenantId _ _ _ _ _ _ => tenantId
  | .snapshotTenantAs tenantId _ _ => tenantId
  | .checkpointTenant tenantId _ _ _ _ _ _ => tenantId

/-- The credential that the caller shows, with the role that the call requires. -/
def shows : Call P → Option Credential
  | .registerTenant _ _ _ => none
  | .registerTenantWithWalPath _ _ _ _ _ => none
  | .registerTenantFromWal _ _ _ _ _ => none
  | .ensureWalInitialized tenantId authToken _ => some ⟨tenantId, "admin", authToken, .admin⟩
  | .registerPrincipal tenantId adminPrincipalId adminAuthToken _ _ _ =>
    some ⟨tenantId, adminPrincipalId, adminAuthToken, .admin⟩
  | .commitAs tenantId principalId authToken _ _ _ _ => some ⟨tenantId, principalId, authToken, .writer⟩
  | .queryAs tenantId principalId authToken _ => some ⟨tenantId, principalId, authToken, .reader⟩
  | .verifyQueryAs tenantId principalId authToken _ _ _ _ => some ⟨tenantId, principalId, authToken, .reader⟩
  | .snapshotTenantAs tenantId principalId authToken => some ⟨tenantId, principalId, authToken, .reader⟩
  | .checkpointTenant tenantId principalId authToken _ _ _ _ => some ⟨tenantId, principalId, authToken, .admin⟩

/-- The credential that the call registers when it succeeds. -/
def grants : Call P → Option Credential
  | .registerTenant tenantId authToken _ => some ⟨tenantId, "admin", authToken, .admin⟩
  | .registerTenantWithWalPath tenantId authToken _ _ _ => some ⟨tenantId, "admin", authToken, .admin⟩
  | .registerTenantFromWal tenantId authToken _ _ _ => some ⟨tenantId, "admin", authToken, .admin⟩
  | .registerPrincipal tenantId _ _ principalId principalAuthToken role =>
    some ⟨tenantId, principalId, principalAuthToken, role⟩
  | _ => none

end Call

/-- The answer without its value, absent on a panic, and the world after the call. -/
def World.perform (w : World S) : Call P → Option (Except MultiTenantError Unit) × World S
  | .registerTenant tenantId authToken db =>
    let (r, w) := w.registerTenant tenantId authToken db
    (some r, w)
  | .registerTenantWithWalPath tenantId authToken db walPath fault =>
    let (r, w) := w.registerTenantWithWalPath tenantId authToken db walPath fault
    (some r, w)
  | .registerTenantFromWal tenantId authToken witnessCfg walPath clock =>
    w.registerTenantFromWal tenantId authToken witnessCfg walPath clock
  | .ensureWalInitialized tenantId authToken fault =>
    let (r, w) := w.ensureWalInitialized tenantId authToken fault
    (some r, w)
  | .registerPrincipal tenantId adminPrincipalId adminAuthToken principalId principalAuthToken role =>
    let (r, w) := w.registerPrincipal tenantId adminPrincipalId adminAuthToken principalId principalAuthToken role
    (some r, w)
  | .commitAs tenantId principalId authToken delta localViews now fault =>
    let (r, w) := w.commitAs tenantId principalId authToken delta localViews now fault
    (r.map (·.map fun _ => ()), w)
  | .queryAs tenantId principalId authToken idx =>
    ((w.queryAs tenantId principalId authToken idx).map (·.map fun _ => ()), w)
  | .verifyQueryAs tenantId principalId authToken idx value proof stateRoot =>
    ((w.verifyQueryAs tenantId principalId authToken idx value proof stateRoot).map (·.map fun _ => ()), w)
  | .snapshotTenantAs tenantId principalId authToken =>
    (some ((w.snapshotTenantAs tenantId principalId authToken).map fun _ => ()), w)
  | .checkpointTenant tenantId principalId authToken snapshotPath nanos saveFault faults =>
    let (r, w) := w.checkpointTenant tenantId principalId authToken snapshotPath nanos saveFault faults
    (some r, w)

def World.afterCalls (w : World S) (calls : List (Call P)) : World S := Run.exec (fun w c => (World.perform w c).2) w calls

end AgentHalo.Tenant
