import AgentHalo.Store.Blobs

/-!
# What a write past the ceiling costs

A bounded store that grows past its ceiling evicts keys until it is back under it. The evictor proposes keys by their
scores, and every scored key is a stored one (`Scored`), so the first key it gives up is really there. `put_lost` draws
the consequence for the blob store: a put that does not fit loses the payload of some key, perhaps of the key just
written.
-/

namespace AgentHalo.Store

variable {A : F64} {V : Type}

/-! ### The scores -/

variable {key : String}

namespace ChebyshevEvictor

@[simp] theorem recordAccess_liveness (e : ChebyshevEvictor A) (key : String) :
    (e.recordAccess key).liveness = e.liveness.insert key (e.liveness[key]?.getD (A.lit 0 0) + e.impulseMagnitude) := rfl

theorem decaySteps_isSome (e : ChebyshevEvictor A) (steps : Nat) (key : String) :
    (e.decaySteps steps).liveness[key]?.isSome = e.liveness[key]?.isSome := by
  unfold decaySteps
  by_cases hzero : steps = 0
  · rw [if_pos hzero]
  · rw [if_neg hzero]
    unfold refreshStats
    dsimp only
    rw [Std.ExtTreeMap.getElem?_map, Option.isSome_map]

theorem evictionCandidates_liveness (e : ChebyshevEvictor A) (count : Nat) :
    (e.evictionCandidates count).2.liveness = e.liveness := by
  unfold evictionCandidates refreshStats
  dsimp only
  split_ifs <;> rfl

variable {e : ChebyshevEvictor A} {count : Nat}

theorem isSome_of_mem_ranked {scored : List (String × A.F)}
    (hscored : ∀ entry ∈ scored, entry ∈ e.liveness.toList) (h : key ∈ ((ranked scored).take count).map (·.1)) :
    e.liveness[key]?.isSome := by
  obtain ⟨entry, hentry, rfl⟩ := List.mem_map.mp h
  have hmem : entry ∈ ranked scored := List.mem_of_mem_take hentry
  have hlist := hscored entry (List.mem_mergeSort.mp hmem)
  rw [Std.ExtTreeMap.mem_toList_iff_getElem?_eq_some.mp hlist]
  rfl

theorem isSome_of_mem_evictionCandidates (h : key ∈ (e.evictionCandidates count).1) : e.liveness[key]?.isSome := by
  unfold evictionCandidates at h
  dsimp only at h
  split_ifs at h
  · cases h
  · cases h
  · refine isSome_of_mem_ranked ?_ h
    intro entry hentry
    exact List.mem_of_mem_filter hentry

theorem isSome_of_mem_leastLiveKeys (h : key ∈ e.leastLiveKeys count) : e.liveness[key]?.isSome :=
  isSome_of_mem_ranked (fun _ hentry => hentry) h

theorem leastLiveKeys_ne_nil (h : e.liveness[key]?.isSome) (hcount : 0 < count) : e.leastLiveKeys count ≠ [] := by
  obtain ⟨score, hscore⟩ := Option.isSome_iff_exists.mp h
  have hmem : (key, score) ∈ ranked e.liveness.toList :=
    List.mem_mergeSort.mpr (Std.ExtTreeMap.mem_toList_iff_getElem?_eq_some.mpr hscore)
  unfold leastLiveKeys
  rw [Ne, List.map_eq_nil_iff, List.take_eq_nil_iff, not_or]
  exact ⟨by omega, List.ne_nil_of_mem hmem⟩

end ChebyshevEvictor

namespace BoundedStore

def Scored (s : BoundedStore A V) : Prop :=
  ∀ key : String, s.evictor.liveness[key]?.isSome → s.entries[key]?.isSome

theorem scored_new (maxEntries : Nat) (governor : GovernorConfig A) (now : Nat) :
    (new maxEntries governor now : BoundedStore A V).Scored := by
  intro key hscore
  have hnone : (new maxEntries governor now : BoundedStore A V).evictor.liveness[key]? = none :=
    Std.ExtTreeMap.getElem?_empty
  rw [hnone] at hscore
  cases hscore

theorem applyTimeMaintenance_isSome (s : BoundedStore A V) (now : Nat) (key : String) :
    (s.applyTimeMaintenance now).evictor.liveness[key]?.isSome = s.evictor.liveness[key]?.isSome := by
  unfold applyTimeMaintenance
  dsimp only
  split_ifs <;> first | rfl | exact ChebyshevEvictor.decaySteps_isSome _ _ key

variable {s : BoundedStore A V}

theorem Scored.applyTimeMaintenance (h : s.Scored) (now : Nat) : (s.applyTimeMaintenance now).Scored := by
  intro key hscore
  rw [applyTimeMaintenance_isSome] at hscore
  rw [applyTimeMaintenance_entries]
  exact h key hscore

theorem Scored.remove (h : s.Scored) (key : String) : (s.remove key).Scored := by
  intro other hscore
  have hlive : ((s.remove key).evictor.liveness)[other]? = (s.evictor.liveness.erase key)[other]? := rfl
  rw [hlive, OrdMap.get?_erase] at hscore
  rw [remove_entries, OrdMap.get?_erase]
  by_cases heq : key = other
  · rw [if_pos heq] at hscore
    cases hscore
  · rw [if_neg heq] at hscore ⊢
    exact h other hscore

/-! ### Eviction -/

/-- The second store is the first with some keys taken out. -/
structure Pruned (s s' : BoundedStore A V) : Prop where
  kept : ∀ key : String, s'.entries[key]? = none ∨ s'.entries[key]? = s.entries[key]?
  scored : s.Scored → s'.Scored

/-- Some key of the first store is not in the second. -/
def Lost (s s' : BoundedStore A V) : Prop := ∃ key : String, s.entries[key]?.isSome ∧ s'.entries[key]? = none

theorem Pruned.refl (s : BoundedStore A V) : Pruned s s := ⟨fun _ => .inr rfl, id⟩

theorem Pruned.trans {s' s'' : BoundedStore A V} (h : Pruned s s') (h' : Pruned s' s'') : Pruned s s'' := by
  refine ⟨?_, fun hs => h'.scored (h.scored hs)⟩
  intro key
  rcases h'.kept key with hnone | hsame
  · exact .inl hnone
  · rw [hsame]
    exact h.kept key

theorem Lost.pruned {s' s'' : BoundedStore A V} (h : Lost s s') (h' : Pruned s' s'') : Lost s s'' := by
  obtain ⟨key, hthere, hgone⟩ := h
  refine ⟨key, hthere, ?_⟩
  rcases h'.kept key with hnone | hsame
  · exact hnone
  · rw [hsame, hgone]

theorem pruned_evict (s : BoundedStore A V) (key : String) : Pruned s (s.evict key) := by
  constructor
  · intro other
    have hentries : (s.evict key).entries[other]? = (s.entries.erase key)[other]? := rfl
    rw [hentries, OrdMap.get?_erase]
    by_cases heq : key = other
    · exact .inl (if_pos heq)
    · exact .inr (if_neg heq)
  · intro h
    exact h.remove key

theorem lost_evict (h : s.entries[key]?.isSome) : Lost s (s.evict key) := by
  refine ⟨key, h, ?_⟩
  have hentries : (s.evict key).entries[key]? = (s.entries.erase key)[key]? := rfl
  rw [hentries, OrdMap.get?_erase, if_pos rfl]

theorem pruned_evictReclaimable (s : BoundedStore A V) (key : String) : Pruned s (s.evictReclaimable key) := by
  unfold evictReclaimable
  split_ifs
  · exact Pruned.refl s
  · exact Pruned.refl s
  · exact pruned_evict s key

theorem pruned_evictLeastLive (s : BoundedStore A V) (key : String) : Pruned s (s.evictLeastLive key) := by
  unfold evictLeastLive
  split_ifs
  · exact Pruned.refl s
  · exact pruned_evict s key
  · exact Pruned.refl s

theorem pruned_foldl {round : BoundedStore A V → String → BoundedStore A V} (hround : ∀ s key, Pruned s (round s key))
    (keys : List String) (s : BoundedStore A V) : Pruned s (keys.foldl round s) := by
  induction keys generalizing s with
  | nil => exact Pruned.refl s
  | cons key rest ih => exact (hround s key).trans (ih (round s key))

theorem foldl_evictReclaimable {keys : List String} (hs : s.Scored)
    (hkeys : ∀ key ∈ keys, s.evictor.liveness[key]?.isSome) :
    keys.foldl evictReclaimable s = s ∨ Lost s (keys.foldl evictReclaimable s) := by
  induction keys with
  | nil => exact .inl rfl
  | cons key rest ih =>
    obtain ⟨hkey, hrest⟩ := List.forall_mem_cons.mp hkeys
    rw [List.foldl_cons]
    have hround : s.evictReclaimable key = s ∨ s.evictReclaimable key = s.evict key := by
      unfold evictReclaimable
      split_ifs
      · exact .inl rfl
      · exact .inl rfl
      · exact .inr rfl
    rcases hround with hidle | hevict
    · rw [hidle]
      exact ih hrest
    · rw [hevict]
      exact .inr ((lost_evict (hs key hkey)).pruned (pruned_foldl pruned_evictReclaimable rest _))

theorem lost_foldl_evictLeastLive (hs : s.Scored)
    (hlive : s.evictor.liveness[key]?.isSome) (hover : s.maxEntries < s.entries.size) :
    Lost s ((s.evictor.leastLiveKeys s.entries.size).foldl evictLeastLive s) := by
  obtain ⟨first, rest, hkeys⟩ := List.exists_cons_of_ne_nil
    (ChebyshevEvictor.leastLiveKeys_ne_nil hlive (Nat.zero_lt_of_lt hover))
  have hmem : first ∈ s.evictor.leastLiveKeys s.entries.size := by
    rw [hkeys]
    exact List.mem_cons_self
  have hfirst : s.entries[first]?.isSome := hs first (ChebyshevEvictor.isSome_of_mem_leastLiveKeys hmem)
  have hround : s.evictLeastLive first = s.evict first := by
    unfold evictLeastLive
    rw [if_neg (by omega), if_pos hfirst]
  rw [hkeys, List.foldl_cons, hround]
  exact (lost_evict hfirst).pruned (pruned_foldl pruned_evictLeastLive rest _)

/-- The store the eviction loops start from: observed, with the candidates proposed. -/
def proposed (s : BoundedStore A V) (count : Nat) : BoundedStore A V :=
  { s.observe with evictor := (s.observe.evictor.evictionCandidates count).2 }

theorem pruned_proposed (s : BoundedStore A V) (count : Nat) : Pruned s (s.proposed count) := by
  refine ⟨fun _ => .inr rfl, ?_⟩
  intro hs key hscore
  have hlive : (s.proposed count).evictor.liveness = s.evictor.liveness :=
    ChebyshevEvictor.evictionCandidates_liveness _ _
  rw [hlive] at hscore
  exact hs key hscore

theorem enforcePressure_cases (s : BoundedStore A V) :
    (s.entries.size ≤ s.maxEntries ∧ Pruned s s.enforcePressure) ∨
    ∃ count first, s.maxEntries < s.entries.size ∧
      first = (s.observe.evictor.evictionCandidates count).1.foldl evictReclaimable (s.proposed count) ∧
      s.enforcePressure =
        if first.entries.size > first.maxEntries then
          (first.evictor.leastLiveKeys first.entries.size).foldl evictLeastLive first
        else first := by
  by_cases hsize : s.entries.size ≤ s.maxEntries
  · left
    refine ⟨hsize, ?_⟩
    unfold enforcePressure
    split_ifs
    · exact ⟨fun _ => .inr rfl, id⟩
    · dsimp only
      rw [if_pos (show s.observe.entries.size ≤ s.observe.maxEntries from hsize)]
      exact ⟨fun _ => .inr rfl, id⟩
  · right
    have hne : ¬ s.entries.isEmpty = true := by
      rw [Std.ExtTreeMap.isEmpty_eq_size_beq_zero, beq_iff_eq]
      omega
    unfold enforcePressure
    rw [if_neg hne]
    dsimp only
    rw [if_neg (show ¬ s.observe.entries.size ≤ s.observe.maxEntries from hsize)]
    exact ⟨_, _, by omega, rfl, rfl⟩

theorem pruned_enforcePressure (s : BoundedStore A V) : Pruned s s.enforcePressure := by
  rcases enforcePressure_cases s with ⟨-, hpruned⟩ | ⟨count, first, -, hfirst, heq⟩
  · exact hpruned
  · have hloop : Pruned s first := by
      rw [hfirst]
      exact (pruned_proposed s count).trans (pruned_foldl pruned_evictReclaimable _ _)
    rw [heq]
    split_ifs
    · exact hloop.trans (pruned_foldl pruned_evictLeastLive _ _)
    · exact hloop

theorem lost_enforcePressure (hs : s.Scored)
    (hlive : s.evictor.liveness[key]?.isSome) (hover : s.maxEntries < s.entries.size) : Lost s s.enforcePressure := by
  rcases enforcePressure_cases s with ⟨hsize, -⟩ | ⟨count, first, -, hfirst, heq⟩
  · omega
  · have hlive' : (s.proposed count).evictor.liveness = s.evictor.liveness :=
      ChebyshevEvictor.evictionCandidates_liveness _ _
    have hstart : (s.proposed count).Scored := (pruned_proposed s count).scored hs
    have hkeys : ∀ key ∈ (s.observe.evictor.evictionCandidates count).1,
        (s.proposed count).evictor.liveness[key]?.isSome := by
      intro key hmem
      rw [hlive']
      exact ChebyshevEvictor.isSome_of_mem_evictionCandidates hmem
    rw [heq]
    rcases foldl_evictReclaimable hstart hkeys with hidle | hlost
    · -- the first loop found nothing to take, so the fallback runs on the same store
      rw [← hfirst] at hidle
      rw [hidle, if_pos (show (s.proposed count).entries.size > (s.proposed count).maxEntries from hover)]
      exact lost_foldl_evictLeastLive hstart (hlive'.symm ▸ hlive) hover
    · rw [← hfirst] at hlost
      split_ifs
      · exact Lost.pruned (s := s) hlost (pruned_foldl pruned_evictLeastLive _ _)
      · exact hlost

end BoundedStore

/-! ### The blob store -/

namespace BlobStore

open BoundedStore (Scored Lost Pruned)

def inserted (s : BlobStore A) (key : String) (data : Bytes) (now : Nat) : BlobStore A :=
  { s.applyTimeMaintenance now with
    entries := (s.applyTimeMaintenance now).entries.insert key data
    evictor := (s.applyTimeMaintenance now).evictor.recordAccess key
    lastActivityUnix := now }

theorem put_eq (s : BlobStore A) (key : String) (data : Bytes) (now : Nat) :
    put s key data now = (inserted s key data now).enforcePressure := rfl

theorem inserted_entries (s : BlobStore A) (key : String) (data : Bytes) (now : Nat) :
    (inserted s key data now).entries = s.entries.insert key data := by
  unfold inserted
  rw [BoundedStore.applyTimeMaintenance_entries]

theorem scored_inserted {s : BlobStore A} (h : s.Scored) (key : String) (data : Bytes) (now : Nat) :
    (inserted s key data now).Scored := by
  intro other hscore
  have hlive : (inserted s key data now).evictor.liveness =
      ((s.applyTimeMaintenance now).evictor.recordAccess key).liveness := rfl
  rw [hlive, ChebyshevEvictor.recordAccess_liveness, OrdMap.get?_insert] at hscore
  rw [inserted_entries, OrdMap.get?_insert]
  by_cases heq : key = other
  · rw [if_pos heq]
    rfl
  · rw [if_neg heq] at hscore ⊢
    rw [BoundedStore.applyTimeMaintenance_isSome] at hscore
    exact h other hscore

theorem scored_put {s : BlobStore A} (h : s.Scored) (key : String) (data : Bytes) (now : Nat) :
    (put s key data now).Scored := by
  rw [put_eq]
  exact (BoundedStore.pruned_enforcePressure _).scored (scored_inserted h key data now)

theorem get_put (s : BlobStore A) (key : String) (data : Bytes) (now : Nat) (other : String) :
    get (put s key data now) other = none ∨
      get (put s key data now) other = if key = other then some data else get s other := by
  unfold get
  rw [put_eq, ← OrdMap.get?_insert, ← inserted_entries s key data now]
  exact (BoundedStore.pruned_enforcePressure _).kept other

/-- **A put that does not fit loses a payload**: that of the key it wrote, or that of a key stored before. -/
theorem put_lost {s : BlobStore A} (h : s.Scored) {data : Bytes} (now : Nat) (hfull : ¬ Fits s key data) :
    ∃ lost, get (put s key data now) lost = none ∧ (lost = key ∨ (get s lost).isSome) := by
  have hover : (inserted s key data now).maxEntries < (inserted s key data now).entries.size := by
    have hmax : (inserted s key data now).maxEntries = s.maxEntries :=
      BoundedStore.applyTimeMaintenance_maxEntries s now
    rw [inserted_entries, hmax]
    exact Nat.lt_of_not_le hfull
  have hlive : (inserted s key data now).evictor.liveness[key]?.isSome := by
    have heq : (inserted s key data now).evictor.liveness =
        ((s.applyTimeMaintenance now).evictor.recordAccess key).liveness := rfl
    rw [heq, ChebyshevEvictor.recordAccess_liveness, OrdMap.get?_insert, if_pos rfl]
    rfl
  obtain ⟨lost, hthere, hgone⟩ :=
    BoundedStore.lost_enforcePressure (scored_inserted h key data now) hlive hover
  refine ⟨lost, hgone, ?_⟩
  rw [inserted_entries, OrdMap.get?_insert] at hthere
  by_cases heq : key = lost
  · exact .inl heq.symm
  · rw [if_neg heq] at hthere
    exact .inr hthere

end BlobStore

end AgentHalo.Store
