import AgentHalo.Engine.Seals
import AgentHalo.Tenant.Gaps

/-!
# Seals and recovery

A database in append-only mode issues a seal at every commit, chained onto the last one. A snapshot keeps the seals; the
records of the write-ahead log have no field for them, so a recovered tenant starts a second chain at the genesis seal.
`Sealing` is the invariant of a locked tenant under successful commits.
-/

namespace AgentHalo.Tenant

open Engine Engine.NucleusDb
open Persistence
open Store (KeyMap)

variable {P : Platform} {S : Serde P}

/-- The recovered database is in the same mode and has issued the same seals. Its next seal goes onto the last of them, and
whatever snapshots the seals were accepted against, they are accepted with that seal and its snapshot. -/
structure SealsSurvive (db loaded : NucleusDb P) : Prop where
  writeMode : loaded.writeMode = db.writeMode
  monotoneSeals : loaded.monotoneSeals = db.monotoneSeals
  chained : ∀ (delta : Delta) (localViews : List LocalSection) (now : Nat) (entry : CommitEntry) (db' : NucleusDb P),
    loaded.commit delta localViews now = some (.ok entry, db') →
      db'.monotoneSeals = db.monotoneSeals ++
        [nextSeal P (db.monotoneSeals.getLast?.getD (genesisSeal P)) (keyValueDigest P db'.state db'.keymap)]
  verified : ∀ (delta : Delta) (localViews : List LocalSection) (now : Nat) (entry : CommitEntry) (db' : NucleusDb P),
    loaded.commit delta localViews now = some (.ok entry, db') → ∀ snapshots : List (State × KeyMap),
      verifySealChainWithAnchor P db.monotoneSeals snapshots genesisAnchor = true →
        verifySealChainWithAnchor P db'.monotoneSeals (snapshots ++ [(db'.state, db'.keymap)]) genesisAnchor = true

theorem SealsSurvive.of_eq {db loaded : NucleusDb P} (hmode : db.writeMode = .appendOnly)
    (hsame : loaded.writeMode = db.writeMode) (hseals : loaded.monotoneSeals = db.monotoneSeals) :
    SealsSurvive db loaded := by
  have hnext : ∀ (delta : Delta) (localViews : List LocalSection) (now : Nat) (entry : CommitEntry) (db' : NucleusDb P),
      loaded.commit delta localViews now = some (.ok entry, db') →
        db'.monotoneSeals = db.monotoneSeals ++
          [nextSeal P (db.monotoneSeals.getLast?.getD (genesisSeal P)) (keyValueDigest P db'.state db'.keymap)] := by
    intro delta localViews now entry db' hcommit
    rw [commit_monotoneSeals hcommit, if_pos (hsame.trans hmode), hseals]
  refine ⟨hsame, hseals, hnext, ?_⟩
  intro delta localViews now entry db' hcommit snapshots hverified
  rw [verifySealChainWithAnchor_iff] at hverified ⊢
  rw [hnext delta localViews now entry db' hcommit, sealsOf_concat, ← hverified]
  rfl

namespace World

/-- The log file found at a registration, if it has metadata, records the append-only mode. -/
def RecordsAppendOnly (disk : S.Files) (path : String) : Prop :=
  ∀ raw walMeta, (disk.file path).meta? = some raw → S.walMeta.fromSlice raw = .ok walMeta →
    walMeta.writeMode = .appendOnly

/-- The tenant is locked, has issued this many seals, and its log is opened with this metadata. -/
structure Sealing (tenantId path : String) (walMeta : WalMetaV1 P) (seals : Nat) (w : World S) (slot : TenantSlot P) :
    Prop where
  registered : w.manager.tenants[tenantId]? = some slot
  walPath : slot.walPath = some path
  locked : slot.db.writeMode = .appendOnly
  issued : slot.db.monotoneSeals.length = seals
  opened : ∃ table, Opened S w.disk path walMeta table

section Step

variable {tenantId path : String} {walMeta : WalMetaV1 P} {seals : Nat} {w : World S} {slot : TenantSlot P}

theorem Sealing.register (hS : S.RoundTrips) {w' : World S} {authToken : String} {db : NucleusDb P}
    {fault : Option Fault} (hmode : db.writeMode = .appendOnly)
    (h : w.registerTenantWithWalPath tenantId authToken db (some path) fault = (.ok (), w')) :
    ∃ walMeta, Sealing tenantId path walMeta db.monotoneSeals.length w'
        (MultiTenantNucleusDb.newSlot authToken db (some path)) ∧
      (walMeta.writeMode = .appendOnly ↔ RecordsAppendOnly w.disk path) := by
  obtain ⟨hslot, hinit⟩ := registerTenantWithWalPath_ok h
  obtain ⟨walMeta, hopened, hfound⟩ := initWal_recorded hS hinit
  refine ⟨walMeta, ⟨hslot, rfl, hmode, rfl, _, hopened⟩, ?_⟩
  rcases hfound with ⟨raw, hraw, hslice, -⟩ | ⟨hnone, rfl⟩
  · constructor
    · intro hrecorded raw' walMeta' hraw' hslice'
      obtain rfl := Option.some.inj (hraw.symm.trans hraw')
      obtain rfl := Except.ok.inj (hslice.symm.trans hslice')
      exact hrecorded
    · intro hrecords
      exact hrecords raw walMeta hraw hslice
  · constructor
    · intro _ raw' walMeta' hraw'
      rw [hnone] at hraw'
      cases hraw'
    · intro _
      exact hmode

theorem Sealing.commit {call : CommitCall} (h : Sealing tenantId path walMeta seals w slot)
    (hok : call.Acknowledged tenantId w) :
    ∃ slot', Sealing tenantId path walMeta (seals + 1) (callStep tenantId w call) slot' := by
  obtain ⟨entry, hentry⟩ := hok
  obtain ⟨found, db, hfound, hcommit, hslot, happend⟩ := commitAs_ok hentry
  obtain rfl : found = slot := Option.some.inj (hfound.symm.trans h.registered)
  rw [h.walPath] at happend
  obtain ⟨table, hopened⟩ := h.opened
  refine ⟨{ found with db }, hslot, h.walPath, ?_, ?_, appendWalEvent_opened happend hopened⟩
  · exact (commit_sameFrame hcommit).writeMode.trans h.locked
  · have hseals := commit_monotoneSeals hcommit
    rw [if_pos h.locked] at hseals
    rw [hseals, List.length_append, h.issued]
    rfl

end Step

/-- **Seals and recovery.** A tenant in append-only mode is registered with a log and takes any successful commits. What
`load_wal` then returns has the mode and the seals of the tenant, and continues its chain, if and only if the tenant had
issued no seal before the registration and made no commit after it, and the log did not record another mode. -/
theorem sealsSurvive_iff (hS : S.RoundTrips) {db : NucleusDb P} (hmode : db.writeMode = .appendOnly) {w w' : World S}
    {tenantId authToken path : String} {fault : Option Fault}
    (hregister : w.registerTenantWithWalPath tenantId authToken db (some path) fault = (.ok (), w'))
    {calls : List CommitCall} (hrun : Run.Along (callStep tenantId) (CommitCall.Acknowledged tenantId) w' calls)
    {slot : TenantSlot P} (hslot : (Run.exec (callStep tenantId) w' calls).manager.tenants[tenantId]? = some slot)
    {witnessCfg : WitnessConfig P} {clock : Clock} {loaded : NucleusDb P}
    (hload : loadWal S path witnessCfg clock (Run.exec (callStep tenantId) w' calls).disk = some (.ok loaded)) :
    SealsSurvive slot.db loaded ↔ db.monotoneSeals = [] ∧ calls = [] ∧ RecordsAppendOnly w.disk path := by
  obtain ⟨walMeta, hstart, hrecords⟩ := Sealing.register hS hmode hregister
  obtain ⟨found, h⟩ := Run.exec_invariant_noting (fun n (_ : CommitCall) => n + 1)
    (I := fun n w => ∃ slot, Sealing tenantId path walMeta n w slot)
    (fun _ _ _ ⟨_, h⟩ hok => h.commit hok) ⟨_, hstart⟩ hrun
  obtain rfl : found = slot := Option.some.inj (h.registered.symm.trans hslot)
  obtain ⟨table, hopened⟩ := h.opened
  obtain ⟨hloaded, hnone⟩ := hopened.loadWal_seals hload
  have hissued : found.db.monotoneSeals.length = db.monotoneSeals.length + calls.length := by
    rw [h.issued, List.foldl_add_const, Nat.one_mul]
  rw [← hrecords]
  constructor
  · intro hsurvive
    have hlength : db.monotoneSeals.length + calls.length = 0 := by
      rw [← hissued, ← hsurvive.monotoneSeals, hnone]
      rfl
    refine ⟨List.eq_nil_of_length_eq_zero (by omega), List.eq_nil_of_length_eq_zero (by omega), ?_⟩
    rw [← hloaded, hsurvive.writeMode]
    exact h.locked
  · rintro ⟨hseals, rfl, hrecorded⟩
    have hempty : found.db.monotoneSeals = [] := by
      apply List.eq_nil_of_length_eq_zero
      rw [hissued, hseals]
      rfl
    apply SealsSurvive.of_eq h.locked
    · rw [hloaded, hrecorded, h.locked]
    · rw [hnone, hempty]

/-! ### A locked tenant -/

def lockedDb : NucleusDb .reference := singleWitnessDb.setAppendOnly

theorem lockedDb_commit : ∃ entry db, lockedDb.commit ⟨[(0, 1)]⟩ [] 0 = some (.ok entry, db) := by
  have hadm : lockedDb.Admissible ⟨[(0, 1)]⟩ [] := by
    constructor
    case monotone =>
      intro _
      decide
    all_goals rfl
  exact commit_ok_of_usable Platform.reference_signaturesCorrect 0 hadm rfl singleWitnessCfg_usable rfl

theorem lockedDb_registers :
    ∃ w, (idle ∅).registerTenantWithWalPath "t" "pw" lockedDb (some "t.wal") none = (.ok (), w) ∧
      Logged "t" "t.wal" w (MultiTenantNucleusDb.newSlot "pw" lockedDb (some "t.wal")) ⟨walMetaOf lockedDb, []⟩ := by
  obtain ⟨f, hinit, hlog⟩ := initWal_of_blank (Serde.identity_roundTrips _) (Serde.identity_writes _)
    (Disk.walBlank_empty "t.wal") lockedDb
  exact ⟨_, registerTenantWithWalPath_of_init hinit "t" "pw", get?_setSlot _ _ _, rfl, hlog⟩

theorem lockedDb_acknowledged {w : World (Serde.identity .reference)} {log : Log .reference}
    (h : Logged "t" "t.wal" w (MultiTenantNucleusDb.newSlot "pw" lockedDb (some "t.wal")) log) :
    (callCell 0 1 none).Acknowledged "t" w := by
  obtain ⟨entry, db, hcommit⟩ := lockedDb_commit
  obtain ⟨leaf, hleaves⟩ := (commit_advanced hcommit).ctLeaves
  have hlast : db.ctLeaves.getLast? = some leaf := by
    rw [hleaves, List.getLast?_concat]
  obtain ⟨raw, -, happend⟩ := appendWalEvent_of_logAt (Serde.identity_writes _) h.logAt ⟨[(0, 1)]⟩ entry hlast
  have hauth := authorizedTenantSlotAs_of_admin h.registered (newSlot_admin "pw" lockedDb (some "t.wal")) .writer
  exact ⟨entry, congrArg Prod.fst (commitAs_of_commit hauth rfl hcommit happend)⟩

/-- Recovered before its first commit, it is as it was. -/
theorem sealsSurvive_unsealed :
    ∃ w loaded, (idle ∅).registerTenantWithWalPath "t" "pw" lockedDb (some "t.wal") none = (.ok (), w) ∧
      loadWal _ "t.wal" singleWitnessCfg ⟨0, 0⟩ w.disk = some (.ok loaded) ∧ SealsSurvive lockedDb loaded := by
  obtain ⟨w, hregister, hlogged⟩ := lockedDb_registers
  obtain ⟨loaded, hload, -⟩ := loadWal_of_openable hlogged.logAt singleWitnessCfg_openable ⟨0, 0⟩
  have hrecords : RecordsAppendOnly (idle ∅).disk "t.wal" := by
    intro raw walMeta hraw
    cases (Disk.walBlank_empty "t.wal").1.symm.trans hraw
  have hrun : Run.Along (callStep "t") (CommitCall.Acknowledged "t") w [] := trivial
  exact ⟨w, loaded, hregister, hload, (sealsSurvive_iff (Serde.identity_roundTrips _) rfl hregister hrun
    hlogged.registered hload).mpr ⟨rfl, rfl, hrecords⟩⟩

/-- It commits once and is recovered: one seal was issued, and the recovered database has none. -/
theorem recovery_drops_seal :
    ∃ w slot loaded, (idle ∅).registerTenantWithWalPath "t" "pw" lockedDb (some "t.wal") none = (.ok (), w) ∧
      lockedDb.writeMode = .appendOnly ∧ (callCell 0 1 none).Acknowledged "t" w ∧
      (callStep "t" w (callCell 0 1 none)).manager.tenants["t"]? = some slot ∧
      loadWal _ "t.wal" singleWitnessCfg ⟨0, 0⟩ (callStep "t" w (callCell 0 1 none)).disk = some (.ok loaded) ∧
      slot.db.monotoneSeals.length = 1 ∧ loaded.monotoneSeals = [] ∧ ¬ SealsSurvive slot.db loaded := by
  obtain ⟨w, hregister, hlogged⟩ := lockedDb_registers
  have hok := lockedDb_acknowledged hlogged
  obtain ⟨entry, db, ctLeaf, hcommit, -, hlogged'⟩ := hlogged.commit (Serde.identity_roundTrips _) (by simp) hok
  obtain ⟨loaded, hload, -⟩ := loadWal_of_openable hlogged'.logAt singleWitnessCfg_openable ⟨0, 0⟩
  have hone : db.monotoneSeals.length = 1 := by
    rw [commit_monotoneSeals hcommit]
    rfl
  obtain ⟨table, htable, -⟩ := hlogged'.logAt.events
  have hnone := (Opened.loadWal_seals ⟨hlogged'.logAt.walMeta, hlogged'.logAt.schema, htable⟩ hload).2
  refine ⟨w, _, loaded, hregister, rfl, hok, hlogged'.registered, hload, hone, hnone, ?_⟩
  intro hsurvive
  have hsame : loaded.monotoneSeals = db.monotoneSeals := hsurvive.monotoneSeals
  rw [← hsame, hnone] at hone
  cases hone

end World

end AgentHalo.Tenant
