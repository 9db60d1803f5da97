import AgentHalo.Store.Bounded

/-!
# The blob store and the vector index

Both are bounded stores. The blob store holds the payloads of the blob types; the vector index holds the embeddings of
the vector keys, fixes their dimension at the first insertion, and answers nearest-neighbour queries by scoring every
stored vector.
-/

namespace AgentHalo.Store

/-- The controller both stores start from; they differ in name and in the basis they cite. -/
def memoryGovernorConfig (A : F64) (instanceId formalBasis : String) (ceiling : Nat) : GovernorConfig A where
  instanceId := instanceId
  alpha := A.lit 1 2
  beta := A.lit 5 2
  dt := A.lit 10 1
  epsMin := A.lit 10 1
  epsMax := A.lit 5120 1
  target := A.ofNat ceiling
  formalBasis := formalBasis
  ki := A.lit 1 3
  kb := A.lit 316 4
  adaptive := some (AdaptiveGainSchedule.default A)

/-! ### Blob store -/

abbrev BlobStore (A : F64) := BoundedStore A Bytes

namespace BlobStore

variable {A : F64}

def defaultBlobCeiling : Nat := 100000

def defaultBlobMemoryGovernorConfig (A : F64) : GovernorConfig A :=
  memoryGovernorConfig A "gov-memory-blob" "HeytingLean.Bridge.Sharma.AetherGovernor.validatorRegime"
    defaultBlobCeiling

def new (A : F64) (now : Nat) : BlobStore A :=
  BoundedStore.new defaultBlobCeiling (defaultBlobMemoryGovernorConfig A) now

def put (s : BlobStore A) (key : String) (data : Bytes) (now : Nat) : BlobStore A :=
  (s.applyTimeMaintenance now).write key data now

def get (s : BlobStore A) (key : String) : Option Bytes := s.entries[key]?

/-- A blob write stays under the ceiling. -/
def Fits (s : BlobStore A) (key : String) (data : Bytes) : Prop := (s.entries.insert key data).size ≤ s.maxEntries

instance (s : BlobStore A) (key : String) (data : Bytes) : Decidable (Fits s key data) :=
  inferInstanceAs (Decidable (_ ≤ _))

variable {key : String} {data : Bytes} {s : BlobStore A} {keys : List String}

theorem put_spec (s : BlobStore A) (now : Nat) (h : Fits s key data) :
    (put s key data now).entries = s.entries.insert key data ∧ (put s key data now).maxEntries = s.maxEntries := by
  have hfits : ((s.applyTimeMaintenance now).entries.insert key data).size ≤
      (s.applyTimeMaintenance now).maxEntries := by
    rw [BoundedStore.applyTimeMaintenance_entries, BoundedStore.applyTimeMaintenance_maxEntries]
    exact h
  obtain ⟨hentries, hmax⟩ := BoundedStore.write_entries _ key data now hfits
  rw [BoundedStore.applyTimeMaintenance_entries] at hentries
  rw [BoundedStore.applyTimeMaintenance_maxEntries] at hmax
  exact ⟨hentries, hmax⟩

theorem put_entries (s : BlobStore A) (now : Nat) (h : Fits s key data) :
    (put s key data now).entries = s.entries.insert key data := (put_spec s now h).1

/-- Writes under different keys all stay under the ceiling. -/
def HasRoom (s : BlobStore A) (keys : List String) : Prop :=
  s.entries.size + (keys.filter fun key => !s.entries.contains key).length ≤ s.maxEntries

instance (s : BlobStore A) (keys : List String) : Decidable (HasRoom s keys) := inferInstanceAs (Decidable (_ ≤ _))

theorem HasRoom.fits (h : HasRoom s (key :: keys)) (data : Bytes) : Fits s key data := by
  unfold HasRoom at h
  unfold Fits
  rw [Std.ExtTreeMap.size_insert]
  by_cases hmem : s.entries.contains key
  · rw [if_pos hmem]
    omega
  · rw [if_neg hmem]
    simp [hmem] at h
    omega

theorem HasRoom.put (h : HasRoom s (key :: keys)) (hfresh : key ∉ keys) (data : Bytes) (now : Nat) :
    HasRoom (put s key data now) keys := by
  obtain ⟨hentries, hmax⟩ := put_spec s now (h.fits data)
  have hsame : (keys.filter fun k => !(s.entries.insert key data).contains k) =
      keys.filter fun k => !s.entries.contains k := by
    refine List.filter_congr ?_
    intro k hk
    have hne : key ≠ k := by
      rintro rfl
      exact hfresh hk
    rw [Std.ExtTreeMap.contains_insert, beq_false_of_ne (by simpa using hne), Bool.false_or]
  unfold HasRoom at h ⊢
  rw [hentries, hmax, hsame, Std.ExtTreeMap.size_insert]
  by_cases hmem : s.entries.contains key
  · rw [if_pos hmem]
    simpa [hmem] using h
  · rw [if_neg hmem]
    simp [hmem] at h
    omega

end BlobStore

/-! ### Vector index -/

inductive DistanceMetric where
  | cosine
  | l2
  | innerProduct
deriving DecidableEq, Repr

def DistanceMetric.fromStrTag (s : String) : Option DistanceMetric :=
  let tag := Text.toAsciiLowercase s
  if tag = "cosine" then some .cosine
  else if tag = "l2" ∨ tag = "euclidean" then some .l2
  else if tag = "ip" ∨ tag = "inner_product" ∨ tag = "dot" then some .innerProduct
  else none

structure VectorIndex (A : F64) where
  vectors : BoundedStore A (List A.F)
  expectedDims : Option Nat

namespace VectorIndex

variable {A : F64}

def defaultVectorCeiling : Nat := 100000

def defaultVectorMemoryGovernorConfig (A : F64) : GovernorConfig A :=
  memoryGovernorConfig A "gov-memory-vector" "NucleusDB.Core.Invariants.AetherGovernor.validatorRegime"
    defaultVectorCeiling

def new (A : F64) (now : Nat) : VectorIndex A where
  vectors := BoundedStore.new defaultVectorCeiling (defaultVectorMemoryGovernorConfig A) now
  expectedDims := none

/-- The index's own tail of `enforce_pressure`: past the ceiling, an emptied index forgets its dimension. -/
def write (v : VectorIndex A) (key : String) (dims : List A.F) (now : Nat) : VectorIndex A :=
  let overCeiling := (v.vectors.entries.insert key dims).size > v.vectors.maxEntries
  let vectors := v.vectors.write key dims now
  { vectors, expectedDims := if overCeiling ∧ vectors.entries.isEmpty then none else v.expectedDims }

/-- A rejected insertion has still aged the scores. -/
def upsert (v : VectorIndex A) (key : String) (dims : List A.F) (now : Nat) : Except String Unit × VectorIndex A :=
  let v := { v with vectors := v.vectors.applyTimeMaintenance now }
  if dims.isEmpty then (.error "vector must have at least one dimension", v)
  else
    match v.expectedDims with
    | some expected =>
      if dims.length ≠ expected then
        (.error ("dimension mismatch: expected " ++ toString expected ++ ", got " ++ toString dims.length), v)
      else (.ok (), v.write key dims now)
    | none => (.ok (), { v with expectedDims := some dims.length }.write key dims now)

def remove (v : VectorIndex A) (key : String) : VectorIndex A :=
  let vectors := v.vectors.remove key
  { vectors, expectedDims := if vectors.entries.isEmpty then none else v.expectedDims }

def cosineDistanceChecked (a b : List A.F) : Except String A.F :=
  if a.length ≠ b.length then
    .error ("cosine distance dimension mismatch: " ++ toString a.length ++ " vs " ++ toString b.length)
  else
    let dot := A.sum ((a.zip b).map fun p => p.1 * p.2)
    let normA := A.sqrt (A.sum (a.map fun x => x * x))
    let normB := A.sqrt (A.sum (b.map fun x => x * x))
    let denom := normA * normB
    if A.eq denom (A.lit 0 0) then .error "cosine distance undefined for zero-norm vectors"
    else .ok (A.lit 10 1 - dot / denom)

def cosineDistance (a b : List A.F) : A.F := (cosineDistanceChecked a b).toOption.getD (A.lit 10 1)

def l2Distance (a b : List A.F) : A.F := A.sqrt (A.sum ((a.zip b).map fun p => (p.1 - p.2) * (p.1 - p.2)))

def innerProduct (a b : List A.F) : A.F := A.sum ((a.zip b).map fun p => p.1 * p.2)

def computeDistance (a b : List A.F) : DistanceMetric → A.F
  | .cosine => cosineDistance a b
  | .l2 => l2Distance a b
  | .innerProduct => innerProduct a b

/-- Keys and distances, nearest first; for the inner product larger is nearer. -/
def search (v : VectorIndex A) (query : List A.F) (k : Nat) (metric : DistanceMetric) :
    Except String (List (String × A.F)) :=
  if v.vectors.entries.isEmpty then .ok []
  else if v.expectedDims.any fun expected => query.length != expected then
    .error ("query dimension mismatch: expected " ++ toString (v.expectedDims.getD 0) ++ ", got "
      ++ toString query.length)
  else
    let scored := v.vectors.entries.toList.map fun entry => (entry.1, computeDistance query entry.2 metric)
    let sorted := match metric with
      | .innerProduct => scored.mergeSort fun a b => !A.lt a.2 b.2
      | _ => scored.mergeSort fun a b => !A.lt b.2 a.2
    .ok (sorted.take k)

end VectorIndex

end AgentHalo.Store
