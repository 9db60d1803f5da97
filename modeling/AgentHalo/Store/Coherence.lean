import AgentHalo.Lib.Run
import AgentHalo.Store.Ceiling
import AgentHalo.Store.Prefix

/-!
# The stores and their evictors stay in step

A store keeps its payloads in one map and the scores of its keys in another, inside the evictor. Every operation that
changes the one changes the other (`Tracked`), and the operations that can pass the ceiling enforce it. Enforcing it is
bookkeeping and evictions, each of which keeps the keys the same (`enforcePressure_invariant`).
-/

namespace AgentHalo.Store

variable {A : F64} {V : Type}

namespace BoundedStore

/-! ### The operations on a store -/

/-- The store under another ceiling, before it is enforced. -/
def recapped (s : BoundedStore A V) (maxEntries now : Nat) : BoundedStore A V :=
  let s := s.applyTimeMaintenance now
  let ceiling := max maxEntries 1
  { s with
    maxEntries := ceiling
    memoryGovernor := { s.memoryGovernor with config := { s.memoryGovernor.config with target := A.ofNat ceiling } } }

def setMaxEntries (s : BoundedStore A V) (maxEntries now : Nat) : BoundedStore A V :=
  (s.recapped maxEntries now).enforcePressure

def softResetGovernor (s : BoundedStore A V) : BoundedStore A V := { s with memoryGovernor := s.memoryGovernor.reset }

def recordAccesses (s : BoundedStore A V) (keys : List String) (now : Nat) : BoundedStore A V :=
  { s with
    evictor := keys.foldl ChebyshevEvictor.recordAccess s.evictor
    lastActivityUnix := if keys.isEmpty then s.lastActivityUnix else now }

/-- The store once a key has been written, before the ceiling is enforced. -/
def inserted (s : BoundedStore A V) (key : String) (data : V) (now : Nat) : BoundedStore A V :=
  { s with entries := s.entries.insert key data, evictor := s.evictor.recordAccess key, lastActivityUnix := now }

/-! ### What enforcing the ceiling does -/

section Invariant

variable {I : BoundedStore A V → Prop} (hevict : ∀ s key, I s → I (s.evict key))

include hevict

variable {s : BoundedStore A V}

theorem foldl_evictReclaimable_invariant (hs : I s) (keys : List String) :
    I (keys.foldl evictReclaimable s) := by
  have hround : ∀ s key, I s → I (evictReclaimable s key) := by
    intro s key hs
    unfold evictReclaimable
    split_ifs
    · exact hs
    · exact hs
    · exact hevict s key hs
  exact Run.exec_invariant hround hs keys

theorem foldl_evictLeastLive_invariant (hs : I s) (keys : List String) :
    I (keys.foldl evictLeastLive s) := by
  have hround : ∀ s key, I s → I (evictLeastLive s key) := by
    intro s key hs
    unfold evictLeastLive
    split_ifs
    · exact hs
    · exact hevict s key hs
    · exact hs
  exact Run.exec_invariant hround hs keys

theorem enforcePressure_invariant
    (hframe : ∀ s s' : BoundedStore A V, s'.entries = s.entries → s'.evictor.liveness = s.evictor.liveness →
      s'.maxEntries = s.maxEntries → I s → I s') (hs : I s) : I s.enforcePressure := by
  by_cases hsize : s.entries.size ≤ s.maxEntries
  · unfold enforcePressure
    split_ifs
    · exact hframe s _ rfl rfl rfl hs
    · dsimp only
      rw [if_pos (show s.observe.entries.size ≤ s.observe.maxEntries from hsize)]
      exact hframe s _ rfl rfl rfl hs
  · obtain ⟨hidle, -⟩ | ⟨count, first, -, hfirst, heq⟩ := enforcePressure_cases s
    · exact absurd hidle hsize
    · have hproposed : I (s.proposed count) :=
        hframe s _ rfl (ChebyshevEvictor.evictionCandidates_liveness _ _) rfl hs
      have hloop : I first := by
        rw [hfirst]
        exact foldl_evictReclaimable_invariant hevict hproposed _
      rw [heq]
      split_ifs
      · exact foldl_evictLeastLive_invariant hevict hloop _
      · exact hloop

end Invariant

@[simp] theorem enforcePressure_maxEntries (s : BoundedStore A V) : s.enforcePressure.maxEntries = s.maxEntries :=
  enforcePressure_invariant (I := fun s' => s'.maxEntries = s.maxEntries) (fun _ _ h => h)
    (fun _ _ _ _ hmax h => hmax.trans h) rfl

/-! ### The keys in step -/

/-- The evictor has a score for the stored keys, and for no others. -/
def Tracked (s : BoundedStore A V) : Prop :=
  ∀ key : String, s.evictor.liveness[key]?.isSome = s.entries[key]?.isSome

variable {s : BoundedStore A V} {keys : List String}

theorem Tracked.mem_iff (h : s.Tracked) (key : String) :
    key ∈ s.evictor.liveness ↔ key ∈ s.entries := by
  rw [← Std.ExtTreeMap.isSome_getElem?_iff_mem, ← Std.ExtTreeMap.isSome_getElem?_iff_mem, h key]

theorem Tracked.congr {s' : BoundedStore A V} (h : s.Tracked) (hentries : s'.entries = s.entries)
    (hlive : s'.evictor.liveness = s.evictor.liveness) : s'.Tracked := by
  intro key
  rw [hentries, hlive]
  exact h key

theorem Tracked.evict (h : s.Tracked) (key : String) : (s.evict key).Tracked := by
  intro other
  have hlive : (s.evict key).evictor.liveness = s.evictor.liveness.erase key := rfl
  have hentries : (s.evict key).entries = s.entries.erase key := rfl
  rw [hlive, hentries, OrdMap.get?_erase, OrdMap.get?_erase]
  split_ifs
  · rfl
  · exact h other

theorem Tracked.enforcePressure (h : s.Tracked) : s.enforcePressure.Tracked :=
  enforcePressure_invariant (fun _ key h => h.evict key) (fun _ _ hentries hlive _ h => h.congr hentries hlive) h

theorem Tracked.remove (h : s.Tracked) (key : String) : (s.remove key).Tracked :=
  (h.evict key).congr rfl rfl

theorem Tracked.applyTimeMaintenance (h : s.Tracked) (now : Nat) :
    (s.applyTimeMaintenance now).Tracked := by
  intro key
  rw [applyTimeMaintenance_isSome, applyTimeMaintenance_entries]
  exact h key

theorem Tracked.inserted (h : s.Tracked) (key : String) (data : V) (now : Nat) :
    (s.inserted key data now).Tracked := by
  intro other
  have hlive : (s.inserted key data now).evictor.liveness = (s.evictor.recordAccess key).liveness := rfl
  have hentries : (s.inserted key data now).entries = s.entries.insert key data := rfl
  rw [hlive, hentries, ChebyshevEvictor.recordAccess_liveness, OrdMap.get?_insert, OrdMap.get?_insert]
  split_ifs
  · rfl
  · exact h other

theorem Tracked.recordAccesses (h : s.Tracked) (now : Nat) (hkeys : ∀ key ∈ keys, s.entries[key]?.isSome = true) :
    (s.recordAccesses keys now).Tracked := by
  have hlive : ∀ (keys : List String) (e : ChebyshevEvictor A) (other : String),
      (keys.foldl ChebyshevEvictor.recordAccess e).liveness[other]?.isSome =
        (decide (other ∈ keys) || e.liveness[other]?.isSome) := by
    intro keys
    induction keys with
    | nil => simp
    | cons key rest ih =>
      intro e other
      rw [List.foldl_cons, ih, ChebyshevEvictor.recordAccess_liveness, OrdMap.get?_insert]
      by_cases heq : key = other
      · simp [heq]
      · simp [heq, Ne.symm heq]
  intro other
  have hscore : (s.recordAccesses keys now).evictor.liveness[other]?.isSome =
      (decide (other ∈ keys) || s.evictor.liveness[other]?.isSome) := hlive keys s.evictor other
  have hentries : (s.recordAccesses keys now).entries = s.entries := rfl
  rw [hscore, hentries, h other]
  by_cases hmem : other ∈ keys
  · simp [hmem, hkeys other hmem]
  · simp [hmem]

/-! ### The ceiling -/

theorem size_foldl_evictLeastLive (h : s.entries.size ≤ s.maxEntries ∨ ∀ key, key ∈ s.entries → key ∈ keys) :
    (keys.foldl evictLeastLive s).entries.size ≤ s.maxEntries := by
  induction keys generalizing s with
  | nil =>
    obtain hsize | hnone := h
    · exact hsize
    · have hempty : s.entries.isEmpty = true :=
        OrdMap.isEmpty_iff_forall_notMem.mpr fun key hmem => List.not_mem_nil (hnone key hmem)
      rw [Std.ExtTreeMap.isEmpty_eq_size_beq_zero, beq_iff_eq] at hempty
      exact hempty.trans_le (Nat.zero_le _)
  | cons key rest ih =>
    rw [List.foldl_cons]
    by_cases hsize : s.entries.size ≤ s.maxEntries
    · have hround : s.evictLeastLive key = s := if_pos hsize
      rw [hround]
      exact ih (.inl hsize)
    · have hall := h.resolve_left hsize
      by_cases hkey : s.entries[key]?.isSome = true
      · have hround : s.evictLeastLive key = s.evict key := by
          rw [evictLeastLive, if_neg hsize, if_pos hkey]
        have hmax : (s.evict key).maxEntries = s.maxEntries := rfl
        rw [hround, ← hmax]
        refine ih (.inr fun other hmem => ?_)
        have herased : other ∈ s.entries.erase key := hmem
        rw [Std.ExtTreeMap.mem_erase] at herased
        refine List.mem_of_ne_of_mem ?_ (hall other herased.2)
        rintro rfl
        exact herased.1 (Std.compare_self)
      · have hround : s.evictLeastLive key = s := by
          rw [evictLeastLive, if_neg hsize, if_neg hkey]
        rw [hround]
        refine ih (.inr fun other hmem => ?_)
        refine List.mem_of_ne_of_mem ?_ (hall other hmem)
        rintro rfl
        exact hkey (Std.ExtTreeMap.isSome_getElem?_iff_mem.mpr hmem)

theorem Tracked.mem_leastLiveKeys (h : s.Tracked) {key : String} (hmem : key ∈ s.entries) :
    key ∈ s.evictor.leastLiveKeys s.entries.size := by
  have hlen : (ChebyshevEvictor.ranked s.evictor.liveness.toList).length = s.entries.size := by
    rw [ChebyshevEvictor.ranked, List.length_mergeSort, Std.ExtTreeMap.length_toList]
    exact OrdMap.size_eq_of_mem_iff h.mem_iff
  have hscored := (h.mem_iff key).mpr hmem
  rw [← Std.ExtTreeMap.mem_keys, ← Std.ExtTreeMap.map_fst_toList_eq_keys] at hscored
  rw [ChebyshevEvictor.leastLiveKeys, List.take_of_length_le hlen.le]
  exact (((List.mergeSort_perm _ _).map Prod.fst).mem_iff).mpr hscored

theorem Tracked.size_enforcePressure (h : s.Tracked) :
    s.enforcePressure.entries.size ≤ s.maxEntries := by
  by_cases hsize : s.entries.size ≤ s.maxEntries
  · rw [(enforcePressure_entries s hsize).1]
    exact hsize
  · obtain ⟨hidle, -⟩ | ⟨count, first, -, hfirst, heq⟩ := enforcePressure_cases s
    · exact absurd hidle hsize
    · have hproposed : (s.proposed count).Tracked := h.congr rfl (ChebyshevEvictor.evictionCandidates_liveness _ _)
      have hloop : first.Tracked ∧ first.maxEntries = s.maxEntries := by
        rw [hfirst]
        exact foldl_evictReclaimable_invariant (I := fun s' => s'.Tracked ∧ s'.maxEntries = s.maxEntries)
          (fun _ key h => ⟨h.1.evict key, h.2⟩) ⟨hproposed, rfl⟩ _
      rw [heq, ← hloop.2]
      split_ifs with hover
      · exact size_foldl_evictLeastLive (.inr fun key hmem => hloop.1.mem_leastLiveKeys hmem)
      · exact Nat.le_of_not_lt hover

/-- What holds of a store between the operations on it. -/
structure Coherent (s : BoundedStore A V) : Prop where
  tracked : s.Tracked
  bounded : s.entries.size ≤ s.maxEntries

theorem Tracked.coherent_enforcePressure (h : s.Tracked) : s.enforcePressure.Coherent := by
  refine ⟨h.enforcePressure, ?_⟩
  rw [enforcePressure_maxEntries]
  exact h.size_enforcePressure

theorem coherent_new (maxEntries : Nat) (governor : GovernorConfig A) (now : Nat) :
    (new maxEntries governor now : BoundedStore A V).Coherent := ⟨fun _ => rfl, Nat.zero_le _⟩

section Operations

variable {s : BoundedStore A V} (h : s.Coherent)

include h

theorem Coherent.applyTimeMaintenance (now : Nat) : (s.applyTimeMaintenance now).Coherent := by
  refine ⟨h.tracked.applyTimeMaintenance now, ?_⟩
  rw [applyTimeMaintenance_entries, applyTimeMaintenance_maxEntries]
  exact h.bounded

theorem Coherent.inserted (key : String) (data : V) (now : Nat) : (s.write key data now).Coherent :=
  (h.tracked.inserted key data now).coherent_enforcePressure

theorem Coherent.remove (key : String) : (s.remove key).Coherent := by
  refine ⟨h.tracked.remove key, ?_⟩
  rw [remove_entries, remove_maxEntries]
  exact Nat.le_trans Std.ExtTreeMap.size_erase_le h.bounded

theorem Coherent.recordAccesses {keys : List String} (now : Nat)
    (hkeys : ∀ key ∈ keys, s.entries[key]?.isSome = true) : (s.recordAccesses keys now).Coherent :=
  ⟨h.tracked.recordAccesses now hkeys, h.bounded⟩

theorem Coherent.recapped (maxEntries now : Nat) : (s.recapped maxEntries now).Tracked :=
  (h.tracked.applyTimeMaintenance now).congr rfl rfl

theorem Coherent.setMaxEntries (maxEntries now : Nat) : (s.setMaxEntries maxEntries now).Coherent :=
  (h.recapped maxEntries now).coherent_enforcePressure

theorem Coherent.softResetGovernor : s.softResetGovernor.Coherent := ⟨h.tracked.congr rfl rfl, h.bounded⟩

end Operations

end BoundedStore

/-! ### The blob store -/

namespace BlobStore

def getWithAccess (s : BlobStore A) (key : String) (now : Nat) : Option Bytes × BlobStore A :=
  let s := s.applyTimeMaintenance now
  let s := if s.entries.contains key then { s with evictor := s.evictor.recordAccess key, lastActivityUnix := now } else s
  (get s key, s)

/-- A call that may change the store, with the time it finds. -/
inductive Call where
  | put (key : String) (data : Bytes) (now : Nat)
  | getWithAccess (key : String) (now : Nat)
  | remove (key : String)
  | setMaxEntries (maxEntries now : Nat)
  | maintenanceTick (now : Nat)
  | softResetGovernor

def call (s : BlobStore A) : Call → BlobStore A
  | .put key data now => put s key data now
  | .getWithAccess key now => (getWithAccess s key now).2
  | .remove key => BoundedStore.remove s key
  | .setMaxEntries maxEntries now => BoundedStore.setMaxEntries s maxEntries now
  | .maintenanceTick now => s.applyTimeMaintenance now
  | .softResetGovernor => BoundedStore.softResetGovernor s

theorem coherent_getWithAccess {s : BlobStore A} (h : s.Coherent) (key : String) (now : Nat) :
    (getWithAccess s key now).2.Coherent := by
  have haged := h.applyTimeMaintenance now
  unfold getWithAccess
  dsimp only
  split_ifs with hkey
  · change ((BoundedStore.applyTimeMaintenance s now).recordAccesses [key] now).Coherent
    refine haged.recordAccesses now fun other hmem => ?_
    obtain rfl := List.mem_singleton.mp hmem
    rwa [← Std.ExtTreeMap.contains_eq_isSome_getElem?]
  · exact haged

theorem coherent_call {s : BlobStore A} (h : s.Coherent) (c : Call) : (call s c).Coherent := by
  cases c with
  | put key data now => exact (h.applyTimeMaintenance now).inserted key data now
  | getWithAccess key now => exact coherent_getWithAccess h key now
  | remove key => exact h.remove key
  | setMaxEntries maxEntries now => exact h.setMaxEntries maxEntries now
  | maintenanceTick now => exact h.applyTimeMaintenance now
  | softResetGovernor => exact h.softResetGovernor

/-- The store after a run from a new one. -/
def reached (A : F64) (start : Nat) (calls : List Call) : BlobStore A := Run.exec call (new A start) calls

theorem coherent_reached (A : F64) (start : Nat) (calls : List Call) : (reached A start calls).Coherent := by
  have hnew : (new A start).Coherent := BoundedStore.coherent_new _ _ _
  exact Run.exec_invariant (I := fun s : BlobStore A => s.Coherent) (fun s c h => coherent_call h c) hnew calls

end BlobStore

/-! ### The vector index -/

namespace VectorIndex

/-- The ceiling is enforced; past it, an emptied index forgets its dimension. -/
def enforcePressure (v : VectorIndex A) : VectorIndex A :=
  let overCeiling := v.vectors.entries.size > v.vectors.maxEntries
  let vectors := v.vectors.enforcePressure
  { vectors, expectedDims := if overCeiling ∧ vectors.entries.isEmpty then none else v.expectedDims }

theorem write_eq (v : VectorIndex A) (key : String) (dims : List A.F) (now : Nat) :
    v.write key dims now = ({ v with vectors := v.vectors.inserted key dims now } : VectorIndex A).enforcePressure := rfl

/-- Search and mark the neighbours found live. A search that fails or panics has aged the scores. -/
def searchWithAccessPrefix (v : VectorIndex A) (query : List A.F) (k : Nat) (metric : DistanceMetric)
    (pfx : Option String) (now : Nat) : Option (Except String (List (String × A.F))) × VectorIndex A :=
  let v := { v with vectors := v.vectors.applyTimeMaintenance now }
  match v.searchWithPrefix query k metric pfx with
  | some (.ok results) =>
    (some (.ok results),
      ({ v with vectors := v.vectors.recordAccesses (results.map (·.1)) now } : VectorIndex A).enforcePressure)
  | failed => (failed, v)

def setMaxEntries (v : VectorIndex A) (maxEntries now : Nat) : VectorIndex A :=
  ({ v with vectors := v.vectors.recapped maxEntries now } : VectorIndex A).enforcePressure

def maintenanceTick (v : VectorIndex A) (now : Nat) : VectorIndex A :=
  { v with vectors := v.vectors.applyTimeMaintenance now }

def softResetGovernor (v : VectorIndex A) : VectorIndex A := { v with vectors := v.vectors.softResetGovernor }

/-- A call that may change the index, with the time it finds; without a prefix, a search is `search_with_access`. -/
inductive Call (A : F64) where
  | upsert (key : String) (dims : List A.F) (now : Nat)
  | remove (key : String)
  | searchWithAccessPrefix (query : List A.F) (k : Nat) (metric : DistanceMetric) (pfx : Option String) (now : Nat)
  | setMaxEntries (maxEntries now : Nat)
  | maintenanceTick (now : Nat)
  | softResetGovernor

def call (v : VectorIndex A) : Call A → VectorIndex A
  | .upsert key dims now => (v.upsert key dims now).2
  | .remove key => v.remove key
  | .searchWithAccessPrefix query k metric pfx now => (v.searchWithAccessPrefix query k metric pfx now).2
  | .setMaxEntries maxEntries now => v.setMaxEntries maxEntries now
  | .maintenanceTick now => v.maintenanceTick now
  | .softResetGovernor => v.softResetGovernor

/-- All vectors are of the expected dimension, and there is one exactly if there are vectors. -/
structure Fitting (v : VectorIndex A) : Prop where
  dims : ∀ (key : String) (vector : List A.F), v.vectors.entries[key]? = some vector → v.expectedDims = some vector.length
  empty : v.expectedDims = none ↔ v.vectors.entries.isEmpty = true

theorem Fitting.congr {v v' : VectorIndex A} (h : v.Fitting) (hentries : v'.vectors.entries = v.vectors.entries)
    (hdims : v'.expectedDims = v.expectedDims) : v'.Fitting := by
  refine ⟨?_, ?_⟩
  · rw [hentries, hdims]
    exact h.dims
  · rw [hentries, hdims]
    exact h.empty

theorem Fitting.shrink {v v' : VectorIndex A} (h : v.Fitting)
    (hkept : ∀ key : String, v'.vectors.entries[key]? = none ∨ v'.vectors.entries[key]? = v.vectors.entries[key]?)
    (hdims : v'.expectedDims = if v'.vectors.entries.isEmpty then none else v.expectedDims) : v'.Fitting := by
  have hold : ∀ (key : String) (vector : List A.F), v'.vectors.entries[key]? = some vector →
      v.expectedDims = some vector.length ∧ v'.vectors.entries.isEmpty = false := by
    intro key vector hvector
    refine ⟨?_, ?_⟩
    · obtain hnone | hsame := hkept key
      · rw [hnone] at hvector
        cases hvector
      · exact h.dims key vector (hsame ▸ hvector)
    · rw [Bool.eq_false_iff, ne_eq, OrdMap.isEmpty_iff_forall_notMem]
      intro hnone
      refine hnone key ?_
      rw [← Std.ExtTreeMap.isSome_getElem?_iff_mem, hvector]
      rfl
  refine ⟨?_, ?_⟩
  · intro key vector hvector
    obtain ⟨hexpected, hne⟩ := hold key vector hvector
    rw [hdims, hne, if_neg Bool.false_ne_true, hexpected]
  · rw [hdims]
    split_ifs with hempty
    · exact iff_of_true rfl hempty
    · refine iff_of_false (fun hnone => ?_) hempty
      rw [OrdMap.isEmpty_iff_forall_notMem, not_forall] at hempty
      obtain ⟨key, hmem⟩ := hempty
      obtain ⟨vector, hvector⟩ := Option.isSome_iff_exists.mp (Std.ExtTreeMap.isSome_getElem?_iff_mem.mpr (not_not.mp hmem))
      rw [(hold key vector hvector).1] at hnone
      cases hnone

/-- What holds of an index between the calls. -/
structure Coherent (v : VectorIndex A) : Prop where
  store : v.vectors.Coherent
  fitting : v.Fitting

theorem coherent_enforcePressure {v : VectorIndex A} (htracked : v.vectors.Tracked) (hfitting : v.Fitting) :
    v.enforcePressure.Coherent := by
  refine ⟨htracked.coherent_enforcePressure, ?_⟩
  by_cases hsize : v.vectors.entries.size ≤ v.vectors.maxEntries
  · refine hfitting.congr (BoundedStore.enforcePressure_entries _ hsize).1 (if_neg fun hover => ?_)
    exact absurd hsize (Nat.not_le.mpr hover.1)
  · refine hfitting.shrink (BoundedStore.pruned_enforcePressure v.vectors).kept ?_
    refine if_congr (and_iff_right (Nat.lt_of_not_le hsize)) rfl rfl

section Calls

variable {v : VectorIndex A} (h : v.Coherent)

include h

theorem Coherent.maintenanceTick (now : Nat) : (v.maintenanceTick now).Coherent :=
  ⟨h.store.applyTimeMaintenance now, h.fitting.congr (BoundedStore.applyTimeMaintenance_entries _ _) rfl⟩

theorem Coherent.remove (key : String) : (v.remove key).Coherent := by
  refine ⟨h.store.remove key, h.fitting.shrink (fun other => ?_) rfl⟩
  have hentries : (v.remove key).vectors.entries = v.vectors.entries.erase key := rfl
  rw [hentries, OrdMap.get?_erase]
  split_ifs
  · exact .inl rfl
  · exact .inr rfl

theorem Coherent.softResetGovernor : v.softResetGovernor.Coherent :=
  ⟨h.store.softResetGovernor, h.fitting.congr rfl rfl⟩

theorem Coherent.setMaxEntries (maxEntries now : Nat) : (v.setMaxEntries maxEntries now).Coherent :=
  coherent_enforcePressure (h.store.recapped maxEntries now)
    (h.fitting.congr (BoundedStore.applyTimeMaintenance_entries _ _) rfl)

theorem Coherent.write {key : String} {dims : List A.F} (now : Nat)
    (hdims : v.expectedDims = none ∨ v.expectedDims = some dims.length) :
    (({ v with expectedDims := some dims.length } : VectorIndex A).write key dims now).Coherent := by
  rw [write_eq]
  refine coherent_enforcePressure (h.store.tracked.inserted key dims now) ⟨?_, ?_⟩
  · intro other vector hvector
    have hentries : (v.vectors.inserted key dims now).entries = v.vectors.entries.insert key dims := rfl
    dsimp only at hvector ⊢
    rw [hentries, OrdMap.get?_insert] at hvector
    split_ifs at hvector with heq
    · rw [Option.some.inj hvector]
    · have hold := h.fitting.dims other vector hvector
      obtain hnone | hsome := hdims
      · rw [hnone] at hold
        cases hold
      · rw [← hsome, hold]
  · refine iff_of_false (fun hnone => nomatch hnone) ?_
    rw [OrdMap.isEmpty_iff_forall_notMem]
    exact fun hnone => hnone key Std.ExtTreeMap.mem_insert_self

theorem Coherent.upsert (key : String) (dims : List A.F) (now : Nat) : (v.upsert key dims now).2.Coherent := by
  have haged := h.maintenanceTick now
  unfold VectorIndex.maintenanceTick at haged
  unfold VectorIndex.upsert
  dsimp only
  split_ifs with hempty
  · exact haged
  · cases hexpected : v.expectedDims with
    | none =>
      rw [hexpected] at haged
      exact haged.write now (.inl rfl)
    | some expected =>
      rw [hexpected] at haged
      dsimp only
      split_ifs with hlen
      · exact haged
      · obtain rfl := not_not.mp hlen
        exact haged.write now (.inr rfl)

theorem Coherent.searchWithAccessPrefix (query : List A.F) (k : Nat) (metric : DistanceMetric) (pfx : Option String)
    (now : Nat) : (v.searchWithAccessPrefix query k metric pfx now).2.Coherent := by
  have haged := h.maintenanceTick now
  unfold VectorIndex.maintenanceTick at haged
  unfold VectorIndex.searchWithAccessPrefix
  dsimp only
  split
  · rename_i results hsearch
    have hread := haged.store.tracked.recordAccesses now fun key hmem => isSome_of_searchWithPrefix hsearch hmem
    exact coherent_enforcePressure hread (haged.fitting.congr rfl rfl)
  · exact haged

theorem Coherent.call (c : Call A) : (v.call c).Coherent := by
  cases c with
  | upsert key dims now => exact h.upsert key dims now
  | remove key => exact h.remove key
  | searchWithAccessPrefix query k metric pfx now => exact h.searchWithAccessPrefix query k metric pfx now
  | setMaxEntries maxEntries now => exact h.setMaxEntries maxEntries now
  | maintenanceTick now => exact h.maintenanceTick now
  | softResetGovernor => exact h.softResetGovernor

end Calls

/-- The index after a run from a new one. -/
def reached (A : F64) (start : Nat) (calls : List (Call A)) : VectorIndex A := Run.exec call (new A start) calls

theorem coherent_reached (A : F64) (start : Nat) (calls : List (Call A)) : (reached A start calls).Coherent := by
  have hnew : (new A start).Coherent := by
    refine ⟨BoundedStore.coherent_new _ _ _, ⟨fun key vector hvector => ?_, ?_⟩⟩
    · have hnone : (new A start).vectors.entries[key]? = none := Std.ExtTreeMap.getElem?_empty
      rw [hnone] at hvector
      cases hvector
    · exact iff_of_true rfl Std.ExtTreeMap.isEmpty_empty
  exact Run.exec_invariant (I := Coherent) (fun v c h => h.call c) hnew calls

theorem upsert_error {v : VectorIndex A} {key : String} {dims : List A.F} {now : Nat} {e : String}
    (h : (v.upsert key dims now).1 = .error e) : (v.upsert key dims now).2.vectors.entries = v.vectors.entries := by
  have haged : (v.vectors.applyTimeMaintenance now).entries = v.vectors.entries :=
    BoundedStore.applyTimeMaintenance_entries _ _
  unfold upsert at h ⊢
  dsimp only at h ⊢
  split_ifs at h ⊢
  · exact haged
  · cases hexpected : v.expectedDims with
    | none =>
      rw [hexpected] at h
      cases h
    | some expected =>
      rw [hexpected] at h
      dsimp only at h ⊢
      split_ifs at h ⊢
      exact haged

end VectorIndex

/-- **The stores and their evictors stay in step** in every run from a new store: the keys that the evictor tracks are the
stored keys, and the store is under its ceiling. In the vector index all vectors have the expected dimension, of which
there is none exactly if the index is empty, and an insertion that is refused leaves the vectors as they are. -/
theorem stores_in_step (A : F64) (start : Nat) :
    (∀ calls : List BlobStore.Call,
      (∀ key, key ∈ (BlobStore.reached A start calls).evictor.liveness ↔
        key ∈ (BlobStore.reached A start calls).entries) ∧
      (BlobStore.reached A start calls).entries.size ≤ (BlobStore.reached A start calls).maxEntries) ∧
    ∀ calls : List (VectorIndex.Call A),
      (∀ key, key ∈ (VectorIndex.reached A start calls).vectors.evictor.liveness ↔
        key ∈ (VectorIndex.reached A start calls).vectors.entries) ∧
      (VectorIndex.reached A start calls).vectors.entries.size ≤ (VectorIndex.reached A start calls).vectors.maxEntries ∧
      (∀ (key : String) (vector : List A.F), (VectorIndex.reached A start calls).vectors.entries[key]? = some vector →
        (VectorIndex.reached A start calls).expectedDims = some vector.length) ∧
      ((VectorIndex.reached A start calls).expectedDims = none ↔
        (VectorIndex.reached A start calls).vectors.entries.isEmpty = true) ∧
      ∀ (key : String) (dims : List A.F) (now : Nat) (e : String),
        ((VectorIndex.reached A start calls).upsert key dims now).1 = .error e →
        ((VectorIndex.reached A start calls).upsert key dims now).2.vectors.entries =
          (VectorIndex.reached A start calls).vectors.entries := by
  refine ⟨fun calls => ?_, fun calls => ?_⟩
  · have hstore := BlobStore.coherent_reached A start calls
    exact ⟨hstore.tracked.mem_iff, hstore.bounded⟩
  · have hindex := VectorIndex.coherent_reached A start calls
    exact ⟨hindex.store.tracked.mem_iff, hindex.store.bounded, hindex.fitting.dims, hindex.fitting.empty,
      fun _ _ _ _ => VectorIndex.upsert_error⟩

end AgentHalo.Store
