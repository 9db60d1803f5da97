import AgentHalo.Lib.OrdMap
import AgentHalo.Store.Governor

/-!
# Bounded stores with liveness eviction

The blob store and the vector index are the same machine over different payloads: a map, a liveness score for every
key, a governor that sets the eviction budget, and a ceiling that is enforced after every write. `BoundedStore` is that
machine. A write that stays under the ceiling evicts nothing (`enforcePressure_entries`), and no operation changes the
payload of a key it keeps.
-/

namespace AgentHalo.Store

/-! ### The Chebyshev evictor -/

section Evictor

variable {A : F64}

def mean (x : List A.F) : A.F := if x.isEmpty then A.lit 0 0 else A.sum x / A.ofNat x.length

def stddev (x : List A.F) : A.F :=
  if x.isEmpty then A.lit 0 0
  else
    let m := mean x
    let variance := A.sum (x.map fun v => let d := v - m; d * d) / A.ofNat x.length
    A.sqrt variance

def reclaimableThreshold (values : List A.F) (k : A.F) : A.F := mean values - k * stddev values

def reclaimableCount (x : List A.F) (k : A.F) : Nat :=
  let m := mean x
  let sd := stddev x
  let threshold := m - k * sd
  (x.filter fun value => A.le value threshold).length

def chebyshevGuardCheck (x : List A.F) (k : A.F) : Bool :=
  if x.isEmpty || A.le k (A.lit 0 0) then false
  else
    let sd := stddev x
    if A.le sd (A.lit 0 0) then true
    else
      let reclaim := A.ofNat (reclaimableCount x k)
      A.le reclaim (A.ofNat x.length / (k * k) + A.lit 1 12)

structure EvictorStats where
  trackedItems : Nat := 0
  guardedItems : Nat := 0
  reclaimableItems : Nat := 0
  lastCandidateCount : Nat := 0
deriving DecidableEq, Repr

structure ChebyshevEvictor (A : F64) where
  liveness : OrdMap String A.F
  k : A.F
  decayRate : A.F
  impulseMagnitude : A.F
  stats : EvictorStats

namespace ChebyshevEvictor

def new (k decayRate impulseMagnitude : A.F) : ChebyshevEvictor A :=
  { liveness := ∅, k, decayRate, impulseMagnitude, stats := {} }

def default (A : F64) : ChebyshevEvictor A := new (A.lit 20 1) (A.lit 5 2) (A.lit 10 1)

def values (e : ChebyshevEvictor A) : List A.F := e.liveness.toList.map (·.2)

def refreshStats (e : ChebyshevEvictor A) (lastCandidateCount : Nat) : ChebyshevEvictor A :=
  let values := e.values
  let reclaimableItems := if values.isEmpty then 0 else reclaimableCount values e.k
  let guardedItems := values.length - reclaimableItems
  { e with stats := { trackedItems := values.length, guardedItems, reclaimableItems, lastCandidateCount } }

def recordAccess (e : ChebyshevEvictor A) (key : String) : ChebyshevEvictor A :=
  let score := e.liveness[key]?.getD (A.lit 0 0) + e.impulseMagnitude
  { e with liveness := e.liveness.insert key score }.refreshStats 0

def decaySteps (e : ChebyshevEvictor A) (steps : Nat) : ChebyshevEvictor A :=
  if steps = 0 then e
  else
    let base := A.lit 10 1 - e.decayRate
    let clamped := if A.lt base (A.lit 0 0) then A.lit 0 0 else if A.lt (A.lit 10 1) base then A.lit 10 1 else base
    let factor := A.powf clamped (A.ofNat steps)
    { e with liveness := e.liveness.map fun _ value => value * factor }.refreshStats 0

def removeKey (e : ChebyshevEvictor A) (key : String) : ChebyshevEvictor A :=
  { e with liveness := e.liveness.erase key }.refreshStats 0

/-- Scored keys by ascending score, ties in key order. -/
def ranked (scored : List (String × A.F)) : List (String × A.F) := scored.mergeSort fun a b => !A.lt b.2 a.2

def evictionCandidates (e : ChebyshevEvictor A) (count : Nat) : List String × ChebyshevEvictor A :=
  if e.liveness.isEmpty || count == 0 then ([], e.refreshStats 0)
  else
    let values := e.values
    if !chebyshevGuardCheck values e.k then ([], e.refreshStats 0)
    else
      let threshold := reclaimableThreshold values e.k
      let reclaimable := e.liveness.toList.filter fun entry => A.le entry.2 threshold
      let keys := ((ranked reclaimable).take count).map (·.1)
      (keys, e.refreshStats keys.length)

def isGuarded (e : ChebyshevEvictor A) (key : String) : Bool :=
  match e.liveness[key]? with
  | none => false
  | some score =>
    let values := e.values
    if values.isEmpty then false else A.lt (reclaimableThreshold values e.k) score

def leastLiveKeys (e : ChebyshevEvictor A) (count : Nat) : List String :=
  ((ranked e.liveness.toList).take count).map (·.1)

end ChebyshevEvictor

end Evictor

/-! ### The store -/

/-- A map under a ceiling. -/
structure BoundedStore (A : F64) (V : Type) where
  entries : OrdMap String V
  evictor : ChebyshevEvictor A
  maxEntries : Nat
  memoryGovernor : GovernorState A
  lastEvictionCount : Nat
  lastMaintenanceUnix : Nat
  lastActivityUnix : Nat

namespace BoundedStore

variable {A : F64} {V : Type}

def new (maxEntries : Nat) (governor : GovernorConfig A) (now : Nat) : BoundedStore A V where
  entries := ∅
  evictor := ChebyshevEvictor.default A
  maxEntries := maxEntries
  memoryGovernor := GovernorState.new governor
  lastEvictionCount := 0
  lastMaintenanceUnix := now
  lastActivityUnix := now

def storageResetWindowSecs : Nat := 30

/-- Age the liveness scores by the elapsed time, and let the controller rest after a quiet window. -/
def applyTimeMaintenance (s : BoundedStore A V) (nowUnix : Nat) : BoundedStore A V :=
  let s := if s.lastMaintenanceUnix = 0 then { s with lastMaintenanceUnix := nowUnix } else s
  let elapsed := nowUnix - s.lastMaintenanceUnix
  let s := if elapsed > 0 then { s with evictor := s.evictor.decaySteps elapsed, lastMaintenanceUnix := nowUnix } else s
  if !s.entries.isEmpty && !s.memoryGovernor.isFromRest
      && decide (nowUnix - s.lastActivityUnix ≥ storageResetWindowSecs) then
    { s with memoryGovernor := s.memoryGovernor.reset }
  else s

/-- Drop a key from the map and from the evictor, and count it. -/
def evict (s : BoundedStore A V) (key : String) : BoundedStore A V :=
  { s with
    entries := s.entries.erase key
    evictor := s.evictor.removeKey key
    lastEvictionCount := s.lastEvictionCount + 1 }

/-- One round of the first eviction loop. Its `break` leaves the store as it is, and then so does every later round. -/
def evictReclaimable (s : BoundedStore A V) (key : String) : BoundedStore A V :=
  if s.entries.size ≤ s.maxEntries then s
  else if s.evictor.isGuarded key then s
  else s.evict key

def evictLeastLive (s : BoundedStore A V) (key : String) : BoundedStore A V :=
  if s.entries.size ≤ s.maxEntries then s
  else if s.entries[key]?.isSome then s.evict key
  else s

/-- The store after the controller has observed its size. -/
def observe (s : BoundedStore A V) : BoundedStore A V :=
  { s with lastEvictionCount := 0, memoryGovernor := s.memoryGovernor.step (A.ofNat s.entries.size) }

def enforcePressure (s : BoundedStore A V) : BoundedStore A V :=
  if s.entries.isEmpty then { s with lastEvictionCount := 0 }
  else
    let s := s.observe
    if s.entries.size ≤ s.maxEntries then s
    else
      let overage := s.entries.size - s.maxEntries
      let budget := A.toUsize (A.max (A.ceil s.memoryGovernor.epsilon) (A.lit 10 1))
      let candidateCount := max budget overage
      let (candidates, evictor) := s.evictor.evictionCandidates candidateCount
      let s := candidates.foldl evictReclaimable { s with evictor }
      if s.entries.size > s.maxEntries then (s.evictor.leastLiveKeys s.entries.size).foldl evictLeastLive s
      else s

/-- Write a key, mark it live, and enforce the ceiling. -/
def write (s : BoundedStore A V) (key : String) (data : V) (now : Nat) : BoundedStore A V :=
  { s with
    entries := s.entries.insert key data
    evictor := s.evictor.recordAccess key
    lastActivityUnix := now }.enforcePressure

def remove (s : BoundedStore A V) (key : String) : BoundedStore A V :=
  { s with entries := s.entries.erase key, evictor := s.evictor.removeKey key }

@[simp] theorem remove_entries (s : BoundedStore A V) (key : String) :
    (s.remove key).entries = s.entries.erase key := rfl

@[simp] theorem remove_maxEntries (s : BoundedStore A V) (key : String) :
    (s.remove key).maxEntries = s.maxEntries := rfl

@[simp] theorem applyTimeMaintenance_entries (s : BoundedStore A V) (now : Nat) :
    (s.applyTimeMaintenance now).entries = s.entries := by
  unfold applyTimeMaintenance
  dsimp only
  split_ifs <;> rfl

@[simp] theorem applyTimeMaintenance_maxEntries (s : BoundedStore A V) (now : Nat) :
    (s.applyTimeMaintenance now).maxEntries = s.maxEntries := by
  unfold applyTimeMaintenance
  dsimp only
  split_ifs <;> rfl

/-- Time maintenance has something to do: the clock has passed the last maintenance, or a quiet controller that is not
at rest is due for its reset. -/
def MaintenanceDue (s : BoundedStore A V) (now : Nat) : Prop :=
  s.lastMaintenanceUnix < now ∨
    (s.entries.isEmpty = false ∧ s.memoryGovernor.isFromRest = false ∧ storageResetWindowSecs ≤ now - s.lastActivityUnix ∧
      s.memoryGovernor.reset ≠ s.memoryGovernor)

theorem applyTimeMaintenance_lastMaintenanceUnix (s : BoundedStore A V) (now : Nat) :
    (s.applyTimeMaintenance now).lastMaintenanceUnix = max s.lastMaintenanceUnix now := by
  unfold applyTimeMaintenance
  dsimp only
  split_ifs <;> simp_all <;> omega

theorem applyTimeMaintenance_of_le {s : BoundedStore A V} {now : Nat} (h : now ≤ s.lastMaintenanceUnix) :
    s.applyTimeMaintenance now =
      if !s.entries.isEmpty && !s.memoryGovernor.isFromRest
          && decide (now - s.lastActivityUnix ≥ storageResetWindowSecs) then
        { s with memoryGovernor := s.memoryGovernor.reset }
      else s := by
  have hstart : (if s.lastMaintenanceUnix = 0 then { s with lastMaintenanceUnix := now } else s) = s := by
    by_cases hzero : s.lastMaintenanceUnix = 0
    · have hnow : now = s.lastMaintenanceUnix := by omega
      rw [if_pos hzero, hnow]
    · rw [if_neg hzero]
  unfold applyTimeMaintenance
  rw [hstart]
  dsimp only
  rw [if_neg (show ¬ now - s.lastMaintenanceUnix > 0 by omega)]

theorem applyTimeMaintenance_eq_self_iff (s : BoundedStore A V) (now : Nat) :
    s.applyTimeMaintenance now = s ↔ ¬ s.MaintenanceDue now := by
  unfold MaintenanceDue
  by_cases hpast : s.lastMaintenanceUnix < now
  · refine iff_of_false ?_ (not_not.mpr (Or.inl hpast))
    intro heq
    have hlast := applyTimeMaintenance_lastMaintenanceUnix s now
    rw [heq] at hlast
    omega
  · rw [applyTimeMaintenance_of_le (by omega)]
    split_ifs with hreset
    · simp only [Bool.and_eq_true, Bool.not_eq_true', decide_eq_true_eq, ge_iff_le] at hreset
      have hsame : { s with memoryGovernor := s.memoryGovernor.reset } = s ↔
          s.memoryGovernor.reset = s.memoryGovernor := by
        constructor
        · intro heq
          exact congrArg BoundedStore.memoryGovernor heq
        · intro heq
          rw [heq]
      simp [hsame, hpast, hreset]
    · simp only [Bool.and_eq_true, Bool.not_eq_true', decide_eq_true_eq, ge_iff_le] at hreset
      refine iff_of_true rfl ?_
      rintro (hlt | ⟨hentries, hrest, hwindow, -⟩)
      · exact hpast hlt
      · exact hreset ⟨⟨hentries, hrest⟩, hwindow⟩

theorem enforcePressure_entries (s : BoundedStore A V) (h : s.entries.size ≤ s.maxEntries) :
    s.enforcePressure.entries = s.entries ∧ s.enforcePressure.maxEntries = s.maxEntries := by
  have hobserve : s.observe.entries.size ≤ s.observe.maxEntries := h
  unfold enforcePressure
  by_cases hempty : s.entries.isEmpty
  · rw [if_pos hempty]
    exact ⟨rfl, rfl⟩
  · rw [if_neg hempty]
    dsimp only
    rw [if_pos hobserve]
    exact ⟨rfl, rfl⟩

theorem write_entries (s : BoundedStore A V) (key : String) (data : V) (now : Nat)
    (h : (s.entries.insert key data).size ≤ s.maxEntries) :
    (s.write key data now).entries = s.entries.insert key data ∧ (s.write key data now).maxEntries = s.maxEntries := by
  unfold write
  exact enforcePressure_entries _ h

end BoundedStore

end AgentHalo.Store
