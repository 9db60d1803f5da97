import AgentHalo.Base.Text
import AgentHalo.Lib.OrdMap

/-!
# Files on disk

Snapshots and write-ahead logs are `redb` databases: a file holds tables, a table is an ordered map, and a write
transaction changes the file at its commit or not at all. Everything that can go wrong below the tables is a `Fault` handed
to the operation. What the tables hold is serialized; all that a result may ask of a `Codec` is that it round-trips.
-/

namespace AgentHalo.Persistence

/-- A `serde` serializer and its deserializer. -/
structure Codec (α : Type) where
  Raw : Type
  toVec : α → Except String Raw
  fromSlice : Raw → Except String α

def Codec.RoundTrips {α : Type} (c : Codec α) : Prop := ∀ a raw, c.toVec a = .ok raw → c.fromSlice raw = .ok a

/-- The serializer that keeps the record. -/
def Codec.identity (α : Type) : Codec α := ⟨α, .ok, .ok⟩

theorem Codec.identity_roundTrips (α : Type) : (Codec.identity α).RoundTrips := by
  intro a raw h
  rw [← Except.ok.inj h]
  rfl

inductive PersistenceError where
  | io (e : String)
  | redb (e : String)
  | json (e : String)
  | missingSnapshot
  | missingWalMeta
  | walMetaMismatch (reason : String)
  | schemaMismatch (expected got : String)
deriving DecidableEq, Repr

/-- Where a write to a file fails: making the directory, opening the file, opening the transaction, committing it. -/
inductive Fault where
  | createDir (e : String)
  | create (e : String)
  | begin (e : String)
  | commit (e : String)
deriving DecidableEq, Repr

/-- Rust's `Path::with_extension`, on a path that ends in a file name. -/
def withExtension (path extension : String) : String :=
  let name := (path.toList.reverse.takeWhile (· ≠ '/')).reverse
  let dir := path.toList.take (path.toList.length - name.length)
  let beforeDot := ((name.reverse.dropWhile (· ≠ '.')).drop 1).reverse
  -- a name without a dot, or with none but a leading one, has no extension
  let stem := if beforeDot.isEmpty then name else beforeDot
  String.ofList (dir ++ stem) ++ "." ++ extension

/-! ### Files -/

/-- The tables of one file; a table that was never opened is absent. The first two have one key each. -/
structure RedbFile (SnapRaw MetaRaw EventRaw : Type) where
  snapshot : Option (Option SnapRaw)
  walMeta : Option (Option MetaRaw)
  walEvents : Option (OrdMap Nat EventRaw)

namespace RedbFile

variable {SnapRaw MetaRaw EventRaw : Type}

def empty : RedbFile SnapRaw MetaRaw EventRaw := ⟨none, none, none⟩

def meta? (f : RedbFile SnapRaw MetaRaw EventRaw) : Option MetaRaw := f.walMeta.join

def events (f : RedbFile SnapRaw MetaRaw EventRaw) : OrdMap Nat EventRaw := f.walEvents.getD ∅

/-- The file holds no write-ahead log. -/
def WalBlank (f : RedbFile SnapRaw MetaRaw EventRaw) : Prop := f.meta? = none ∧ f.events = ∅

end RedbFile

abbrev Disk (SnapRaw MetaRaw EventRaw : Type) := OrdMap String (RedbFile SnapRaw MetaRaw EventRaw)

namespace Disk

variable {SnapRaw MetaRaw EventRaw : Type}

/-- The file that `Database::create` opens. -/
def file (d : Disk SnapRaw MetaRaw EventRaw) (path : String) : RedbFile SnapRaw MetaRaw EventRaw :=
  d[path]?.getD RedbFile.empty

def put (d : Disk SnapRaw MetaRaw EventRaw) (path : String) (f : RedbFile SnapRaw MetaRaw EventRaw) :
    Disk SnapRaw MetaRaw EventRaw :=
  d.insert path f

/-- Rust's `fs::rename` of an existing file. -/
def rename (d : Disk SnapRaw MetaRaw EventRaw) (source target : String) : Disk SnapRaw MetaRaw EventRaw :=
  if source = target then d else (d.erase source).insert target (d.file source)

/-- One write transaction on the file at `path`. The body returns the new tables or an error, which aborts. A file that
was opened exists from then on. -/
def transact (d : Disk SnapRaw MetaRaw EventRaw) (path : String) (fault : Option Fault)
    (body : RedbFile SnapRaw MetaRaw EventRaw → Except PersistenceError (RedbFile SnapRaw MetaRaw EventRaw)) :
    Except PersistenceError Unit × Disk SnapRaw MetaRaw EventRaw :=
  match fault with
  | some (.createDir e) => (.error (.io e), d)
  | some (.create e) => (.error (.redb e), d)
  | some (.begin e) => (.error (.redb e), d.put path (d.file path))
  | _ =>
    match body (d.file path) with
    | .error e => (.error e, d.put path (d.file path))
    | .ok f =>
      match fault with
      | some (.commit e) => (.error (.redb e), d.put path (d.file path))
      | _ => (.ok (), d.put path f)

@[simp] theorem get?_put (d : Disk SnapRaw MetaRaw EventRaw) (path other : String)
    (f : RedbFile SnapRaw MetaRaw EventRaw) :
    (d.put path f)[other]? = if path = other then some f else d[other]? := OrdMap.get?_insert d path other f

@[simp] theorem file_put (d : Disk SnapRaw MetaRaw EventRaw) (path other : String)
    (f : RedbFile SnapRaw MetaRaw EventRaw) : (d.put path f).file other = if path = other then f else d.file other := by
  unfold file
  rw [get?_put]
  split_ifs with h
  · rfl
  · rfl

theorem walBlank_empty (path : String) : (file (∅ : Disk SnapRaw MetaRaw EventRaw) path).WalBlank := by
  unfold file
  rw [Std.ExtTreeMap.getElem?_empty]
  exact ⟨rfl, rfl⟩

variable {d : Disk SnapRaw MetaRaw EventRaw} {path other : String}

theorem exists_file {table : Option MetaRaw}
    (h : (d.file path).walMeta = some table) : d[path]? = some (d.file path) := by
  unfold file at h ⊢
  cases hfile : d[path]? with
  | none =>
    rw [hfile] at h
    cases h
  | some f => rfl

variable {body : RedbFile SnapRaw MetaRaw EventRaw → Except PersistenceError (RedbFile SnapRaw MetaRaw EventRaw)}

variable {d' : Disk SnapRaw MetaRaw EventRaw} {fault : Option Fault} {source target : String}

theorem transact_ok (h : d.transact path fault body = (.ok (), d')) : ∃ f, body (d.file path) = .ok f ∧ d' = d.put path f := by
  unfold transact at h
  split at h
  · cases h
  · cases h
  · cases h
  · cases hbody : body (d.file path) with
    | error e =>
      rw [hbody] at h
      cases h
    | ok f =>
      rw [hbody] at h
      dsimp only at h
      split at h
      · cases h
      · exact ⟨f, rfl, (Prod.mk.inj h).2.symm⟩

theorem transact_error {e : PersistenceError} (h : d.transact path fault body = (.error e, d')) (other : String) :
    d'.file other = d.file other := by
  have hsame : (d.put path (d.file path)).file other = d.file other := by
    rw [file_put]
    split_ifs with heq
    · rw [heq]
    · rfl
  unfold transact at h
  split at h
  · rw [← (Prod.mk.inj h).2]
  · rw [← (Prod.mk.inj h).2]
  · rw [← (Prod.mk.inj h).2]
    exact hsame
  · cases hbody : body (d.file path) with
    | error e =>
      rw [hbody] at h
      rw [← (Prod.mk.inj h).2]
      exact hsame
    | ok f =>
      rw [hbody] at h
      dsimp only at h
      split at h
      · rw [← (Prod.mk.inj h).2]
        exact hsame
      · cases h

theorem file_transact_ne (d : Disk SnapRaw MetaRaw EventRaw) (hne : path ≠ other) (fault : Option Fault)
    (body : RedbFile SnapRaw MetaRaw EventRaw → Except PersistenceError (RedbFile SnapRaw MetaRaw EventRaw)) :
    (d.transact path fault body).2.file other = d.file other := by
  cases h : d.transact path fault body with
  | mk r d' =>
    cases r with
    | error e => exact transact_error h other
    | ok _ =>
      obtain ⟨f, -, rfl⟩ := transact_ok h
      rw [file_put, if_neg hne]

theorem file_erase_ne (d : Disk SnapRaw MetaRaw EventRaw) (hne : path ≠ other) :
    file (d.erase path) other = d.file other := by
  unfold file
  rw [OrdMap.get?_erase_ne _ hne]

theorem get?_rename_ne (d : Disk SnapRaw MetaRaw EventRaw) (hsource : source ≠ other) (htarget : target ≠ other) :
    (d.rename source target)[other]? = d[other]? := by
  unfold rename
  split_ifs
  · rfl
  · rw [OrdMap.get?_insert, if_neg htarget, OrdMap.get?_erase_ne _ hsource]

theorem file_rename_ne (d : Disk SnapRaw MetaRaw EventRaw) (hsource : source ≠ other) (htarget : target ≠ other) :
    (d.rename source target).file other = d.file other :=
  congrArg (·.getD RedbFile.empty) (d.get?_rename_ne hsource htarget)

theorem transact_of_ok {f : RedbFile SnapRaw MetaRaw EventRaw} (h : body (d.file path) = .ok f) :
    d.transact path none body = (.ok (), d.put path f) := by
  unfold transact
  dsimp only
  rw [h]

theorem file_rename (d : Disk SnapRaw MetaRaw EventRaw) (source target : String) :
    (d.rename source target).file target = d.file source := by
  unfold rename
  split_ifs with h
  · rw [h]
  · unfold file
    rw [OrdMap.get?_insert, if_pos rfl]
    rfl

end Disk

end AgentHalo.Persistence
