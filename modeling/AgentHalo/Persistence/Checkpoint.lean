import AgentHalo.Persistence.WalSpec

/-!
# Checkpoints

A checkpoint saves the snapshot of a database and puts a new log in the place of the old one. The log goes to a swap file
first, which is then renamed, so there are two moments between the three steps at which the snapshot is new and the log is
old. `Crashed` says what is on disk when a checkpoint is cut.
-/

namespace AgentHalo.Persistence

open Engine Engine.NucleusDb

variable {P : Platform} (S : Serde P)

/-- The log of a database is beside its snapshot. -/
def defaultWalPath (snapshotPath : String) : String := withExtension snapshotPath "wal"

theorem swapPath_ne_defaultWalPath (path walPath : String) (nanos : Nat) : swapPath walPath nanos ≠ defaultWalPath path := by
  intro h
  have hlast := congrArg (fun s => s.toList.getLast?) h
  simp [swapPath, defaultWalPath, withExtension, String.toList_append, List.getLast?_cons, List.getLast?_append] at hlast

theorem withExtension_append {front ext : List Char} (hfront : ∃ c, front.getLast? = some c ∧ c ≠ '/') (hslash : '/' ∉ ext)
    (hdot : '.' ∉ ext) (extension : String) :
    withExtension (String.ofList (front ++ '.' :: ext)) extension = String.ofList (front ++ '.' :: extension.toList) := by
  obtain ⟨c, hlast, hc⟩ := hfront
  obtain ⟨init, rfl⟩ : ∃ init, front = init ++ [c] := List.getLast?_eq_some_iff.mp hlast
  -- the last part of the path, without its extension
  generalize hpart : (init.reverse.takeWhile fun d => decide (d ≠ '/')).reverse = part
  have hname : ((init ++ [c] ++ '.' :: ext).reverse.takeWhile fun d => decide (d ≠ '/')).reverse =
      part ++ [c] ++ '.' :: ext := by
    have hback : ∀ d ∈ ext.reverse ++ ['.'] ++ [c], decide (d ≠ '/') = true := by
      intro d hd
      rw [decide_eq_true_eq]
      rintro rfl
      simp [hslash, hc.symm] at hd
    have hsplit : (init ++ [c] ++ '.' :: ext).reverse = (ext.reverse ++ ['.'] ++ [c]) ++ init.reverse := by simp
    rw [hsplit, List.takeWhile_append_of_pos hback, List.reverse_append, hpart]
    simp
  have hbefore : (((part ++ [c] ++ '.' :: ext).reverse.dropWhile fun d => decide (d ≠ '.')).drop 1).reverse = part ++ [c] := by
    have hback : ∀ d ∈ ext.reverse, decide (d ≠ '.') = true := by
      intro d hd
      rw [decide_eq_true_eq]
      rintro rfl
      exact hdot (List.mem_reverse.mp hd)
    have hsplit : (part ++ [c] ++ '.' :: ext).reverse = ext.reverse ++ '.' :: (part ++ [c]).reverse := by simp
    rw [hsplit, List.dropWhile_append_of_pos hback]
    simp
  have hdir : (init ++ [c] ++ '.' :: ext).take ((init ++ [c] ++ '.' :: ext).length - (part ++ [c] ++ '.' :: ext).length) =
      init.take (init.length - part.length) := by
    have hle : part.length ≤ init.length := by
      rw [← hpart, List.length_reverse, ← @List.length_reverse _ init]
      exact (List.takeWhile_sublist _).length_le
    rw [show (init ++ [c] ++ '.' :: ext).length - (part ++ [c] ++ '.' :: ext).length = init.length - part.length by
      simp; omega]
    rw [List.append_assoc, List.take_append_of_le_length (by omega)]
  have hwhole : init.take (init.length - part.length) ++ part = init := by
    have hsuffix : part <:+ init := by
      rw [← hpart, ← List.reverse_prefix, List.reverse_reverse]
      exact List.takeWhile_prefix _
    obtain ⟨dir, hdir⟩ := hsuffix
    rw [← hdir]
    simp
  unfold withExtension
  dsimp only
  rw [String.toList_ofList, hname, hbefore, hdir, if_neg (by simp), ← List.append_assoc, hwhole]
  rw [← String.toList_inj]
  simp [String.toList_append]

theorem withExtension_eq (path : String) : ∃ stem : List Char, ∀ extension,
    withExtension path extension = String.ofList (stem ++ '.' :: extension.toList) := by
  refine ⟨?stem, fun extension => ?_⟩
  rotate_left
  · unfold withExtension
    rw [← String.toList_inj]
    simp only [String.toList_append, String.toList_ofList]
    exact List.append_assoc _ ['.'] _

theorem swapPath_ne_snapshot (path : String) (nanos : Nat) : path ≠ swapPath (defaultWalPath path) nanos := by
  intro h
  obtain ⟨stem, hstem⟩ := withExtension_eq (defaultWalPath path)
  generalize hfront : stem ++ '.' :: ("swap." ++ toString nanos).toList = front
  have hpath : path = String.ofList (front ++ '.' :: "tmp".toList) := by
    rw [h, swapPath, hstem, ← hfront, ← String.toList_inj]
    simp [String.toList_append]
  have hlast : ∃ c, front.getLast? = some c ∧ c ≠ '/' := by
    have hdigits : (toString nanos).toList ≠ [] := by
      rw [show (toString nanos).toList = Nat.toDigits 10 nanos from Nat.toList_repr]
      exact Nat.toDigits_ne_nil
    obtain ⟨c, hc⟩ := Option.ne_none_iff_exists'.mp (mt List.getLast?_eq_none_iff.mp hdigits)
    refine ⟨c, ?_, ?_⟩
    · rw [← hfront, String.toList_append, ← List.cons_append, ← List.append_assoc,
        List.getLast?_append_of_ne_nil _ hdigits, hc]
    · rintro rfl
      exact Text.not_mem_toString (show '/'.isDigit = false by decide) nanos (List.mem_of_getLast? hc)
  -- the log is named after the swap file, and the swap file of that log has a longer name
  have hwal : defaultWalPath path = String.ofList (front ++ '.' :: "wal".toList) := by
    rw [hpath]
    exact withExtension_append hlast (by decide) (by decide) "wal"
  have hswap : swapPath (defaultWalPath path) nanos =
      String.ofList (front ++ '.' :: ("swap." ++ toString nanos ++ ".tmp").toList) := by
    rw [hwal]
    exact withExtension_append hlast (by decide) (by decide) _
  have hlen := congrArg String.toList (hpath.symm.trans (h.trans hswap))
  simp [String.toList_append] at hlen

structure PersistFaults where
  snapshot : Option Fault := none
  truncate : TruncateFaults := {}

def persistSnapshotAndSyncWal (snapshotPath walPath : String) (db : NucleusDb P) (nanos : Nat) (faults : PersistFaults)
    (disk : S.Files) : Except PersistenceError Unit × S.Files :=
  match saveSnapshot S snapshotPath db faults.snapshot disk with
  | (.error e, disk) => (.error e, disk)
  | (.ok (), disk) => truncateWal S walPath db nanos faults.truncate disk

inductive CrashPoint where
  | beforeSnapshot
  | beforeSwap
  | beforeRename
  | afterRename
deriving DecidableEq, Repr

/-- What a checkpoint leaves on disk when it is cut. The swap file is one that it creates. -/
inductive Crashed (path walPath : String) (db : NucleusDb P) (nanos : Nat) (disk : S.Files) : CrashPoint → S.Files → Prop where
  | beforeSnapshot : Crashed path walPath db nanos disk .beforeSnapshot disk
  | beforeSwap {saved : S.Files} (save : saveSnapshot S path db none disk = (.ok (), saved)) :
      Crashed path walPath db nanos disk .beforeSwap saved
  | beforeRename {saved swapped : S.Files} (save : saveSnapshot S path db none disk = (.ok (), saved))
      (create : saved[swapPath walPath nanos]? = none)
      (swap : initWal S (swapPath walPath nanos) db none saved = (.ok (), swapped)) :
      Crashed path walPath db nanos disk .beforeRename swapped
  | afterRename {saved swapped : S.Files} (save : saveSnapshot S path db none disk = (.ok (), saved))
      (create : saved[swapPath walPath nanos]? = none)
      (swap : initWal S (swapPath walPath nanos) db none saved = (.ok (), swapped)) :
      Crashed path walPath db nanos disk .afterRename (swapped.rename (swapPath walPath nanos) walPath)

variable {S}

/-! ### What is on disk -/

/-- The file at the path has the snapshot of the database. -/
def SnapshotAt (S : Serde P) (disk : S.Files) (path : String) (db : NucleusDb P) : Prop :=
  ∃ f raw, disk[path]? = some f ∧ f.snapshot = some (some raw) ∧ S.snapshot.fromSlice raw = .ok (snapshotOf db)

/-- The file at the path has a log that was opened for the database. -/
def MetaAt (S : Serde P) (disk : S.Files) (path : String) (db : NucleusDb P) : Prop :=
  ∃ f raw, disk[path]? = some f ∧ f.meta? = some raw ∧ S.walMeta.fromSlice raw = .ok (walMetaOf db)

variable {disk disk' : S.Files} {path other walPath : String} {db : NucleusDb P}

theorem SnapshotAt.congr (h : SnapshotAt S disk path db)
    (hsame : disk'[path]? = disk[path]?) : SnapshotAt S disk' path db := by
  obtain ⟨f, raw, hfile, hraw⟩ := h
  exact ⟨f, raw, hsame.trans hfile, hraw⟩

theorem SnapshotAt.snapshotOf_eq {db' : NucleusDb P} (h : SnapshotAt S disk path db)
    (h' : SnapshotAt S disk path db') : snapshotOf db' = snapshotOf db := by
  obtain ⟨f, raw, hfile, hraw, hslice⟩ := h
  obtain ⟨f', raw', hfile', hraw', hslice'⟩ := h'
  obtain rfl := Option.some.inj (hfile.symm.trans hfile')
  obtain rfl := Option.some.inj (Option.some.inj (hraw.symm.trans hraw'))
  exact Except.ok.inj (hslice'.symm.trans hslice)

theorem eq_of_snapshotOf {db' : NucleusDb P} (hsame : snapshotOf db' = snapshotOf db) :
    db' = { db with witnessCfg := db'.witnessCfg } := by
  have hfields {α : Type} (f : SnapshotV1 P → α) : f (snapshotOf db') = f (snapshotOf db) := congrArg f hsame
  cases db
  cases db'
  congr 1
  · exact hfields (·.backend)
  · exact hfields (·.state)
  · exact Option.some.inj (hfields (·.keymap))
  · exact hfields (·.entries)
  · exact hfields (·.securityParams)
  · exact hfields (·.reductionContracts)
  · exact hfields (·.kzgTrustedSetup)
  · exact hfields (·.ctLeaves)
  · exact hfields (·.currentSth)
  · exact hfields (·.writeMode)
  · exact hfields (·.monotoneSeals)
  · exact Option.some.inj (hfields (·.typeMap))
  · exact Option.some.inj (hfields (·.blobStore))
  · exact Option.some.inj (hfields (·.vectorIndex))

theorem MetaAt.congr {path' : String} (h : MetaAt S disk path db)
    (hsame : disk'[path']? = disk[path]?) : MetaAt S disk' path' db := by
  obtain ⟨f, raw, hfile, hraw⟩ := h
  exact ⟨f, raw, hsame.trans hfile, hraw⟩

theorem MetaAt.file_eq (h : MetaAt S disk path db) :
    ∃ raw, (disk.file path).meta? = some raw ∧ S.walMeta.fromSlice raw = .ok (walMetaOf db) := by
  obtain ⟨f, raw, hfile, hmeta, hslice⟩ := h
  refine ⟨raw, ?_, hslice⟩
  unfold Disk.file
  rw [hfile]
  exact hmeta

variable {fault : Option Fault}

theorem saveSnapshot_holds (hS : S.RoundTrips) (h : saveSnapshot S path db fault disk = (.ok (), disk')) :
    SnapshotAt S disk' path db ∧ ∀ other, path ≠ other → disk'[other]? = disk[other]? := by
  obtain ⟨f, hbody, rfl⟩ := Disk.transact_ok h
  cases hvec : S.snapshot.toVec (snapshotOf db) with
  | error e =>
    rw [hvec] at hbody
    cases hbody
  | ok raw =>
    rw [hvec] at hbody
    obtain rfl := Except.ok.inj hbody
    refine ⟨⟨_, raw, by rw [Disk.get?_put, if_pos rfl], rfl, hS.snapshot _ _ hvec⟩, ?_⟩
    intro other hne
    rw [Disk.get?_put, if_neg hne]

theorem initWal_frame (h : initWal S path db fault disk = (.ok (), disk')) (hne : path ≠ other) :
    disk'[other]? = disk[other]? := by
  obtain ⟨f, -, rfl⟩ := Disk.transact_ok h
  rw [Disk.get?_put, if_neg hne]

theorem initWal_created (hS : S.RoundTrips) (h : initWal S path db fault disk = (.ok (), disk')) (hnone : disk[path]? = none) :
    MetaAt S disk' path db ∧ ∀ other, path ≠ other → disk'[other]? = disk[other]? := by
  have hblank : (disk.file path).meta? = none := by
    unfold Disk.file
    rw [hnone]
    rfl
  obtain ⟨walMeta, hopened, ⟨raw, hraw, -⟩ | ⟨-, rfl⟩⟩ := initWal_recorded hS h
  · rw [hblank] at hraw
    cases hraw
  · obtain ⟨raw, hraw, hslice⟩ := hopened.raw
    refine ⟨⟨_, raw, Disk.exists_file hraw, ?_, hslice⟩, fun other hne => initWal_frame h hne⟩
    unfold RedbFile.meta?
    rw [hraw]
    rfl

theorem get?_rename (disk : S.Files) {source target : String} (hne : source ≠ target) (other : String) :
    (disk.rename source target)[other]? =
      if target = other then some (disk.file source) else if source = other then none else disk[other]? := by
  unfold Disk.rename
  rw [if_neg hne, OrdMap.get?_insert, OrdMap.get?_erase]

theorem MetaAt.initWal_eq {db₀ : NucleusDb P} (h : MetaAt S disk path db₀)
    (db : NucleusDb P) : (∃ disk', initWal S path db none disk = (.ok (), disk')) ↔
      (walMetaOf db₀).matches (walMetaOf db) = true := by
  obtain ⟨raw, hraw, hslice⟩ := h.file_eq
  have hbody : initWalBody S db (disk.file path) = if !(walMetaOf db₀).matches (walMetaOf db) then
        .error (.walMetaMismatch "existing WAL metadata does not match tenant configuration")
      else .ok { disk.file path with walMeta := some (disk.file path).meta?, walEvents := some (disk.file path).events } := by
    unfold initWalBody
    rw [hraw]
    dsimp only
    rw [hslice]
    exact if_neg (not_not.mpr rfl)
  constructor
  · rintro ⟨disk', hinit⟩
    obtain ⟨f, hf, -⟩ := Disk.transact_ok hinit
    rw [hbody] at hf
    obtain ⟨hmatch, -⟩ := guard_eq_ok hf
    simpa using hmatch
  · intro hmatch
    rw [hmatch] at hbody
    exact ⟨_, Disk.transact_of_ok hbody⟩

/-! ### Loading a snapshot -/

theorem SnapshotAt.loadSnapshot_ok (h : SnapshotAt S disk path db)
    {cfg : WitnessConfig P} (hopen : Openable db.backend cfg) (clock : Clock) :
    ∃ db', loadSnapshot S path cfg clock disk = some (.ok db') ∧ snapshotOf db' = snapshotOf db ∧ db'.witnessCfg = cfg := by
  obtain ⟨f, raw, hfile, hsnapshot, hslice⟩ := h
  obtain ⟨opened, hnew⟩ := new_of_openable hopen db.state clock
  refine ⟨{ db with witnessCfg := cfg }, ?_, rfl, rfl⟩
  unfold loadSnapshot
  rw [hfile]
  dsimp only
  rw [hsnapshot]
  dsimp only
  rw [hslice]
  dsimp only
  have hschema : (snapshotOf db).schema = snapshotSchema := rfl
  rw [if_neg (not_not.mpr hschema),
    show NucleusDb.new (snapshotOf db).state (snapshotOf db).backend cfg clock = some opened from hnew]
  obtain ⟨setup, rfl⟩ := new_eq_some hnew
  rfl

theorem SnapshotAt.loadSnapshot_none (h : SnapshotAt S disk path db)
    {cfg : WitnessConfig P} (hopen : ¬ Openable db.backend cfg) (clock : Clock) : loadSnapshot S path cfg clock disk = none := by
  obtain ⟨f, raw, hfile, hsnapshot, hslice⟩ := h
  have hnew : NucleusDb.new db.state db.backend cfg clock = none := by
    cases hnew : NucleusDb.new db.state db.backend cfg clock with
    | none => rfl
    | some opened => exact absurd (openable_of_new hnew) hopen
  unfold loadSnapshot
  rw [hfile]
  dsimp only
  rw [hsnapshot]
  dsimp only
  rw [hslice]
  dsimp only
  have hschema : (snapshotOf db).schema = snapshotSchema := rfl
  rw [if_neg (not_not.mpr hschema),
    show NucleusDb.new (snapshotOf db).state (snapshotOf db).backend cfg clock = none from hnew]
  rfl

/-! ### Checkpoints on disk -/

/-- The snapshot and the log are those of a checkpoint of the database. -/
structure CheckpointAt (S : Serde P) (disk : S.Files) (path walPath : String) (db : NucleusDb P) : Prop where
  snapshot : SnapshotAt S disk path db
  log : MetaAt S disk walPath db

variable {nanos : Nat} {faults : PersistFaults}

theorem persistSnapshotAndSyncWal_snapshotAt (hS : S.RoundTrips) (hpaths : path ≠ walPath)
    (hwal : swapPath walPath nanos ≠ walPath)
    (hswap : path ≠ swapPath walPath nanos)
    (h : persistSnapshotAndSyncWal S path walPath db nanos faults disk = (.ok (), disk')) : SnapshotAt S disk' path db := by
  unfold persistSnapshotAndSyncWal at h
  split at h
  · cases h
  rename_i saved hsave
  obtain ⟨disk₁, disk₂, hinit, hmoved, -, hsame⟩ := truncateWal_moved h
  refine (saveSnapshot_holds hS hsave).1.congr ?_
  rw [hmoved, get?_rename _ hwal, if_neg hpaths.symm, if_neg hswap.symm, hsame _ hpaths.symm, initWal_frame hinit hswap.symm]

theorem persistSnapshotAndSyncWal_frame (hS : S.RoundTrips) (hpath : path ≠ other) (hwal : walPath ≠ other)
    (hswap : swapPath walPath nanos ≠ other)
    (h : persistSnapshotAndSyncWal S path walPath db nanos faults disk = (.ok (), disk')) : disk'[other]? = disk[other]? := by
  unfold persistSnapshotAndSyncWal at h
  split at h
  · cases h
  · rename_i saved hsave
    obtain ⟨disk₁, disk₂, hinit, rfl, -, hsame⟩ := truncateWal_moved h
    rw [Disk.get?_rename_ne disk₂ hswap hwal, hsame other hwal, initWal_frame hinit hswap,
      (saveSnapshot_holds hS hsave).2 other hpath]

theorem persistSnapshotAndSyncWal_holds (hS : S.RoundTrips) (hpaths : path ≠ walPath) (hwal : swapPath walPath nanos ≠ walPath)
    (hcreate : disk[swapPath walPath nanos]? = none) (hswap : path ≠ swapPath walPath nanos)
    (h : persistSnapshotAndSyncWal S path walPath db nanos faults disk = (.ok (), disk')) :
    CheckpointAt S disk' path walPath db := by
  refine ⟨persistSnapshotAndSyncWal_snapshotAt hS hpaths hwal hswap h, ?_⟩
  unfold persistSnapshotAndSyncWal at h
  split at h
  · cases h
  rename_i saved hsave
  obtain ⟨-, hframe⟩ := saveSnapshot_holds hS hsave
  obtain ⟨disk₁, disk₂, hinit, hmoved, hfile, -⟩ := truncateWal_moved h
  obtain ⟨hmeta, -⟩ := initWal_created hS hinit ((hframe _ hswap).trans hcreate)
  obtain ⟨raw, hraw, hslice⟩ := hmeta.file_eq
  refine ⟨disk₂.file (swapPath walPath nanos), raw, ?_, by rw [hfile]; exact hraw, hslice⟩
  rw [hmoved, get?_rename _ hwal, if_pos rfl]

theorem snapshotAt_iff_file : SnapshotAt S disk path db ↔
    ∃ raw, (disk.file path).snapshot = some (some raw) ∧ S.snapshot.fromSlice raw = .ok (snapshotOf db) := by
  unfold SnapshotAt Disk.file
  cases disk[path]? with
  | none => simp [RedbFile.empty]
  | some f => simp

theorem SnapshotAt.of_file (h : SnapshotAt S disk path db)
    (hsame : disk'.file path = disk.file path) : SnapshotAt S disk' path db := by
  rw [snapshotAt_iff_file] at h ⊢
  rwa [hsame]

theorem truncateWal_file {faults : TruncateFaults} (hpath : path ≠ other) (hswap : swapPath path nanos ≠ other) :
    (truncateWal S path db nanos faults disk).2.file other = disk.file other := by
  have hsame : (initWal S (swapPath path nanos) db faults.init disk).2.file other = disk.file other :=
    Disk.file_transact_ne disk hswap faults.init (initWalBody S db)
  unfold truncateWal
  dsimp only
  cases hopen : initWal S (swapPath path nanos) db faults.init disk with
  | mk r disk₁ =>
    rw [hopen] at hsame
    dsimp only at hsame
    cases r with
    | error e => exact hsame
    | ok _ =>
      have hrename (d : S.Files) : (d.rename (swapPath path nanos) path).file other = d.file other :=
        Disk.file_rename_ne d hswap hpath
      have herase : Disk.file (disk₁.erase path) other = disk₁.file other := Disk.file_erase_ne disk₁ hpath
      dsimp only
      split
      · dsimp only
        rw [hrename, hsame]
      · split
        · split
          · exact hsame
          · dsimp only
            rw [herase, hsame]
          · split
            · dsimp only
              rw [hrename, herase, hsame]
            · dsimp only
              rw [herase, hsame]
        · dsimp only
          rw [Disk.file_erase_ne disk₁ hswap, hsame]

theorem persistSnapshotAndSyncWal_cases (hS : S.RoundTrips) {r : Except PersistenceError Unit} (hpaths : path ≠ walPath)
    (hswap : path ≠ swapPath walPath nanos)
    (h : persistSnapshotAndSyncWal S path walPath db nanos faults disk = (r, disk')) :
    ((∃ e, r = .error e) ∧ disk'.file path = disk.file path) ∨ SnapshotAt S disk' path db := by
  unfold persistSnapshotAndSyncWal at h
  split at h
  · rename_i e disk₁ hsave
    obtain ⟨rfl, rfl⟩ := Prod.mk.inj h
    exact .inl ⟨⟨e, rfl⟩, Disk.transact_error hsave path⟩
  · rename_i saved hsave
    refine .inr ((saveSnapshot_holds hS hsave).1.of_file ?_)
    have hframe : (truncateWal S walPath db nanos faults.truncate saved).2.file path = saved.file path :=
      truncateWal_file hpaths.symm hswap.symm
    rwa [h] at hframe

theorem exists_persist (hS : S.RoundTrips) (hW : S.Writes)
    (hfree : disk[swapPath (defaultWalPath path) nanos]? = none) (db : NucleusDb P) :
    ∃ disk', persistSnapshotAndSyncWal S path (defaultWalPath path) db nanos {} disk = (.ok (), disk') := by
  obtain ⟨saved, hsave⟩ := saveSnapshot_of_writes hW path db disk
  have hblank : (saved.file (swapPath (defaultWalPath path) nanos)).WalBlank := by
    obtain ⟨-, hframe⟩ := saveSnapshot_holds hS hsave
    unfold Disk.file
    rw [hframe _ (swapPath_ne_snapshot path nanos), hfree]
    exact ⟨rfl, rfl⟩
  obtain ⟨disk', htruncate, -⟩ := truncateWal_of_blank hS hW hblank db
  refine ⟨disk', ?_⟩
  unfold persistSnapshotAndSyncWal
  rw [hsave]
  exact htruncate

end AgentHalo.Persistence
