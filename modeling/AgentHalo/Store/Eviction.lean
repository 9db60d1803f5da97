import AgentHalo.Lib.StableSort
import AgentHalo.Store.Coherence

/-!
# What a put past the ceiling evicts

A put of a new key into a full blob store is one key over the ceiling, and enforcing the ceiling takes out exactly one
key: the first in the ranking by score, where ties go to the smaller key (`enforcePressure_entries_of_one_over`). The key
just put is ranked like the others: if all others have at least its one impulse, and larger keys where they have only
that, it is the key evicted (`get_put_iff`).
-/

namespace AgentHalo

/-- The numbers are compared exactly: none of them is unordered. -/
structure F64.ExactOrder (A : F64) : Prop where
  le_eq : ∀ x y, A.le x y = !A.lt y x
  trans : ∀ x y z, A.le x y = true → A.le y z = true → A.le x z = true
  total : ∀ x y, (A.le x y || A.le y x) = true

theorem F64.ExactOrder.asymm {A : F64} (h : A.ExactOrder) {x y : A.F} (hxy : A.lt x y = true) : ¬ A.lt y x = true := by
  intro hyx
  have htotal := h.total x y
  rw [h.le_eq, h.le_eq, hxy, hyx] at htotal
  cases htotal

theorem Reference.f64_exactOrder : Reference.f64.ExactOrder where
  le_eq (x y : Rat) := by
    have hnot : decide (x ≤ y) = !decide (y < x) := by
      rw [← decide_not]
      exact decide_eq_decide.mpr not_lt.symm
    exact hnot
  trans (x y z : Rat) hxy hyz :=
    decide_eq_true (le_trans (of_decide_eq_true hxy) (of_decide_eq_true hyz))
  total (x y : Rat) := by
    have htotal : (decide (x ≤ y) || decide (y ≤ x)) = true := by simpa using le_total x y
    exact htotal

namespace Store

variable {A : F64} {V : Type}

/-! ### The head of the ranking -/

variable {key : String} {victim : String × A.F} {rest : List (String × A.F)}

namespace ChebyshevEvictor

theorem evictionCandidates_k (e : ChebyshevEvictor A) (count : Nat) : (e.evictionCandidates count).2.k = e.k := by
  unfold evictionCandidates refreshStats
  dsimp only
  split_ifs <;> rfl

variable {e : ChebyshevEvictor A}

theorem isGuarded_eq_false {score : A.F} (hscore : e.liveness[key]? = some score)
    (h : A.lt (reclaimableThreshold e.values e.k) score = false) : e.isGuarded key = false := by
  unfold isGuarded
  rw [hscore]
  dsimp only
  split_ifs
  · rfl
  · exact h

section Ranking

variable (hA : A.ExactOrder)

include hA

theorem ranked_eq (scored : List (String × A.F)) : ranked scored = scored.mergeSort fun a b => A.le a.2 b.2 := by
  unfold ranked
  congr 1
  funext a b
  exact (hA.le_eq a.2 b.2).symm

theorem not_lt_iff {x y : A.F} : A.lt x y = false ↔ A.le y x = true := by
  rw [hA.le_eq, Bool.not_eq_true']

theorem ranked_head (h : ranked e.liveness.toList = victim :: rest) :
    victim ∈ e.liveness.toList ∧ ∀ entry ∈ e.liveness.toList, entry.1 ≠ victim.1 →
      A.lt victim.2 entry.2 = true ∨ (A.lt entry.2 victim.2 = false ∧ victim.1 < entry.1) := by
  rw [ranked_eq hA] at h
  have hmem : victim ∈ e.liveness.toList := by
    have hfront : victim ∈ e.liveness.toList.mergeSort fun a b => A.le a.2 b.2 := by
      rw [h]
      exact List.mem_cons_self
    exact List.mem_mergeSort.mp hfront
  refine ⟨hmem, fun entry hentry hne => ?_⟩
  have hle : A.le victim.2 entry.2 = true :=
    StableSort.le_of_mergeSort_eq_cons (fun a b c => hA.trans a.2 b.2 c.2) (fun a b => hA.total a.2 b.2) h hentry
  by_cases hback : A.le entry.2 victim.2 = true
  · refine .inr ⟨(not_lt_iff hA).mpr hle, ?_⟩
    -- A smaller key with the same score would have stayed in front.
    by_contra hkey
    have hless : entry.1 < victim.1 := Std.lt_of_le_of_ne (String.not_lt.mp hkey) hne
    have hbefore : [entry, victim].Sublist e.liveness.toList :=
      OrdMap.pair_sublist_toList hentry hmem (compareOfLessAndEq_eq_lt.mpr hless)
    exact StableSort.not_le_of_before (fun a b c => hA.trans a.2 b.2 c.2) (fun a b => hA.total a.2 b.2) h
      (OrdMap.toList_nodup _) hbefore hback
  · refine .inl ?_
    rw [Bool.not_eq_true, hA.le_eq, Bool.not_eq_false'] at hback
    exact hback

theorem evictionCandidates_head (h : ranked e.liveness.toList = victim :: rest) (count : Nat) :
    (e.evictionCandidates count).1 = [] ∨
      (∃ others, (e.evictionCandidates count).1 = victim.1 :: others) ∧
        A.lt (reclaimableThreshold e.values e.k) victim.2 = false := by
  unfold evictionCandidates
  dsimp only
  split_ifs with hidle hguard
  · exact .inl rfl
  · exact .inl rfl
  · rw [ranked_eq hA] at h ⊢
    obtain hnone | ⟨hvictim, others, hothers⟩ := StableSort.filter_mergeSort_eq_cons
      (fun a b c => hA.trans a.2 b.2 c.2) (fun a b => hA.total a.2 b.2)
      h (fun a b hab hb => hA.trans a.2 b.2 _ hab hb)
    · refine .inl ?_
      rw [hnone, List.take_nil, List.map_nil]
    · rw [hothers]
      cases count with
      | zero => exact .inl rfl
      | succ count => exact .inr ⟨⟨_, rfl⟩, (not_lt_iff hA).mpr hvictim⟩

end Ranking

end ChebyshevEvictor

/-! ### The key that goes -/

namespace BoundedStore

open ChebyshevEvictor (ranked ranked_head evictionCandidates_head evictionCandidates_liveness evictionCandidates_k
  isGuarded_eq_false)

variable {s : BoundedStore A V}

theorem foldl_evictReclaimable_of_le (h : s.entries.size ≤ s.maxEntries) (keys : List String) :
    keys.foldl evictReclaimable s = s :=
  List.foldl_fixed' (f := evictReclaimable) (fun _ => if_pos h) keys

theorem foldl_evictLeastLive_of_le (h : s.entries.size ≤ s.maxEntries) (keys : List String) :
    keys.foldl evictLeastLive s = s :=
  List.foldl_fixed' (f := evictLeastLive) (fun _ => if_pos h) keys

theorem enforcePressure_entries_of_one_over (hA : A.ExactOrder) (hs : s.Tracked)
    (hsize : s.entries.size = s.maxEntries + 1)
    (hranked : ranked s.evictor.liveness.toList = victim :: rest) :
    s.enforcePressure.entries = s.entries.erase victim.1 := by
  obtain ⟨hidle, -⟩ | ⟨count, first, -, hfirst, heq⟩ := enforcePressure_cases s
  · omega
  have hlive : (s.proposed count).evictor.liveness = s.evictor.liveness := evictionCandidates_liveness _ _
  have hk : (s.proposed count).evictor.k = s.evictor.k := evictionCandidates_k _ _
  have hscore := Std.ExtTreeMap.mem_toList_iff_getElem?_eq_some.mp (ranked_head hA hranked).1
  have hranked' : ranked (s.proposed count).evictor.liveness.toList = victim :: rest := by
    rw [hlive]
    exact hranked
  have hover : ¬ (s.proposed count).entries.size ≤ (s.proposed count).maxEntries := by
    have hsame : (s.proposed count).entries.size = (s.proposed count).maxEntries + 1 := hsize
    omega
  have hvictim : victim.1 ∈ s.entries := by
    rw [← hs.mem_iff, ← Std.ExtTreeMap.isSome_getElem?_iff_mem, hscore]
    rfl
  have hroom : ((s.proposed count).evict victim.1).entries.size ≤ ((s.proposed count).evict victim.1).maxEntries := by
    have herased : ((s.proposed count).evict victim.1).entries.size = s.entries.size - 1 := by
      change (s.entries.erase victim.1).size = s.entries.size - 1
      rw [Std.ExtTreeMap.size_erase, if_pos (Std.ExtTreeMap.mem_iff_contains.mp hvictim)]
    have hmax : ((s.proposed count).evict victim.1).maxEntries = s.maxEntries := rfl
    omega
  obtain hnone | ⟨⟨others, hothers⟩, hunguarded⟩ := evictionCandidates_head hA (e := s.observe.evictor) hranked count
  · -- No candidates: the fallback starts from the proposed store.
    rw [hnone, List.foldl_nil] at hfirst
    have hthere : (s.proposed count).entries[victim.1]?.isSome = true :=
      Std.ExtTreeMap.isSome_getElem?_iff_mem.mpr hvictim
    have hround : (s.proposed count).evictLeastLive victim.1 = (s.proposed count).evict victim.1 := by
      rw [evictLeastLive, if_neg hover, if_pos hthere]
    have hkeys : ∃ others, (s.proposed count).evictor.leastLiveKeys (s.proposed count).entries.size = victim.1 :: others := by
      obtain ⟨size, hsucc⟩ : ∃ size, (s.proposed count).entries.size = size + 1 := ⟨s.maxEntries, hsize⟩
      rw [ChebyshevEvictor.leastLiveKeys, hranked', hsucc]
      exact ⟨_, rfl⟩
    obtain ⟨others, hothers⟩ := hkeys
    rw [heq, hfirst, if_pos (Nat.lt_of_not_le hover), hothers, List.foldl_cons, hround, foldl_evictLeastLive_of_le hroom]
    rfl
  · -- The first candidate goes, and the fallback has nothing left to do.
    have hround : (s.proposed count).evictReclaimable victim.1 = (s.proposed count).evict victim.1 := by
      have hguard : (s.proposed count).evictor.isGuarded victim.1 = false := by
        refine isGuarded_eq_false ?_ (by rw [ChebyshevEvictor.values, hlive, hk]; exact hunguarded)
        rw [hlive]
        exact hscore
      rw [evictReclaimable, if_neg hover, if_neg (by rw [hguard]; exact Bool.false_ne_true)]
    rw [hothers, List.foldl_cons, hround, foldl_evictReclaimable_of_le hroom] at hfirst
    rw [heq, hfirst, if_neg (Nat.not_lt.mpr hroom)]
    rfl

end BoundedStore

/-! ### The blob just put -/

namespace BlobStore

open ChebyshevEvictor (ranked ranked_head)

def firstScore (s : BlobStore A) : A.F := A.lit 0 0 + s.evictor.impulseMagnitude

/-- Some stored key goes before a new one: its score is lower, or it is the same and the key is smaller. -/
def Shielded (s : BlobStore A) (key : String) : Prop :=
  ∃ other score, s.evictor.liveness[other]? = some score ∧
    (A.lt score (firstScore s) = true ∨ (A.lt (firstScore s) score = false ∧ other < key))

theorem inserted_liveness {s : BlobStore A} (h : s.Tracked) (hnew : key ∉ s.entries) (data : Bytes)
    (now : Nat) : (inserted s key data now).evictor.liveness =
      (s.applyTimeMaintenance now).evictor.liveness.insert key (firstScore (s.applyTimeMaintenance now)) := by
  have hnone : (s.applyTimeMaintenance now).evictor.liveness[key]? = none := by
    rw [← Option.not_isSome_iff_eq_none, (h.applyTimeMaintenance now) key, BoundedStore.applyTimeMaintenance_entries,
      Std.ExtTreeMap.isSome_getElem?_iff_mem]
    exact hnew
  have hlive : (inserted s key data now).evictor.liveness =
      ((s.applyTimeMaintenance now).evictor.recordAccess key).liveness := rfl
  rw [hlive, ChebyshevEvictor.recordAccess_liveness, hnone]
  rfl

theorem get_put_of_full (hA : A.ExactOrder) {s : BlobStore A} (h : s.Tracked) (hfull : s.entries.size = s.maxEntries)
    (hnew : key ∉ s.entries) (data : Bytes) (now : Nat) :
    get (put s key data now) key = some data ↔ Shielded (s.applyTimeMaintenance now) key := by
  have htracked : (inserted s key data now).Tracked := (h.applyTimeMaintenance now).inserted key data now
  have hlive := inserted_liveness h hnew data now
  have hsize : (inserted s key data now).entries.size = (inserted s key data now).maxEntries + 1 := by
    have hmax : (inserted s key data now).maxEntries = s.maxEntries := BoundedStore.applyTimeMaintenance_maxEntries _ _
    rw [inserted_entries, hmax, Std.ExtTreeMap.size_insert, if_neg (by rwa [← Std.ExtTreeMap.mem_iff_contains]), hfull]
  have hown : (key, firstScore (s.applyTimeMaintenance now)) ∈ (inserted s key data now).evictor.liveness.toList := by
    rw [Std.ExtTreeMap.mem_toList_iff_getElem?_eq_some, hlive, OrdMap.get?_insert, if_pos rfl]
  obtain ⟨victim, rest, hranked⟩ := List.exists_cons_of_ne_nil
    (List.ne_nil_of_mem (List.mem_mergeSort.mpr hown) : ranked (inserted s key data now).evictor.liveness.toList ≠ [])
  obtain ⟨hvictim, hfirst⟩ := ranked_head hA hranked
  rw [Std.ExtTreeMap.mem_toList_iff_getElem?_eq_some, hlive, OrdMap.get?_insert] at hvictim
  have hgone : get (put s key data now) key = some data ↔ victim.1 ≠ key := by
    unfold get
    rw [put_eq, BoundedStore.enforcePressure_entries_of_one_over hA htracked hsize hranked, OrdMap.get?_erase,
      inserted_entries, OrdMap.get?_insert, if_pos rfl]
    split_ifs with heq
    · simp [heq]
    · simp [heq]
  rw [hgone]
  constructor
  · intro hne
    rw [if_neg (Ne.symm hne)] at hvictim
    exact ⟨victim.1, victim.2, hvictim, hfirst _ hown (Ne.symm hne)⟩
  · rintro ⟨other, score, hscore, hbefore⟩ rfl
    have hne : other ≠ victim.1 := by
      rintro rfl
      refine hnew ?_
      rw [← Std.ExtTreeMap.isSome_getElem?_iff_mem, ← BoundedStore.applyTimeMaintenance_entries s now,
        ← (h.applyTimeMaintenance now) victim.1, hscore]
      rfl
    have hother : (other, score) ∈ (inserted s victim.1 data now).evictor.liveness.toList := by
      rw [Std.ExtTreeMap.mem_toList_iff_getElem?_eq_some, hlive, OrdMap.get?_insert, if_neg (Ne.symm hne)]
      exact hscore
    rw [if_pos rfl] at hvictim
    have hlast := hfirst _ hother hne
    rw [← Option.some.inj hvictim] at hlast
    -- The other key goes first, and this one does.
    obtain hlower | ⟨hlevel, hkey⟩ := hbefore
    · obtain hless | ⟨hless, -⟩ := hlast
      · exact hA.asymm hlower hless
      · rw [hlower] at hless
        cases hless
    · obtain hless | ⟨-, hkey'⟩ := hlast
      · rw [hlevel] at hless
        cases hless
      · exact String.lt_irrefl _ (String.lt_trans hkey hkey')

/-- **A blob just put is readable**, in every run from a new store, exactly if its key was stored before, or there was room
for it, or some stored key goes before it. -/
theorem get_put_iff (hA : A.ExactOrder) (start : Nat) (calls : List Call) (key : String) (data : Bytes) (now : Nat) :
    get (put (reached A start calls) key data now) key = some data ↔
      (get (reached A start calls) key).isSome ∨
        (reached A start calls).entries.size < (reached A start calls).maxEntries ∨
        Shielded ((reached A start calls).applyTimeMaintenance now) key := by
  have hcoherent := coherent_reached A start calls
  generalize reached A start calls = s at hcoherent ⊢
  have hread : ∀ hfits : Fits s key data, get (put s key data now) key = some data := by
    intro hfits
    rw [get, put_entries s now hfits, OrdMap.get?_insert, if_pos rfl]
  unfold Fits at hread
  rw [Std.ExtTreeMap.size_insert] at hread
  by_cases hstored : key ∈ s.entries
  · rw [if_pos (Std.ExtTreeMap.mem_iff_contains.mp hstored)] at hread
    exact iff_of_true (hread hcoherent.bounded) (.inl (Std.ExtTreeMap.isSome_getElem?_iff_mem.mpr hstored))
  · rw [if_neg (by rwa [← Std.ExtTreeMap.mem_iff_contains])] at hread
    by_cases hroom : s.entries.size < s.maxEntries
    · exact iff_of_true (hread hroom) (.inr (.inl hroom))
    · have hfull : s.entries.size = s.maxEntries := Nat.le_antisymm hcoherent.bounded (Nat.not_lt.mp hroom)
      have habsent : ¬ (get s key).isSome := fun h => hstored (Std.ExtTreeMap.isSome_getElem?_iff_mem.mp h)
      rw [get_put_of_full hA hcoherent.tracked hfull hstored]
      simp [habsent, hroom]

instance : DecidableEq Reference.f64.F := inferInstanceAs (DecidableEq Rat)

def oneKept : BlobStore Reference.f64 := reached Reference.f64 1 [.setMaxEntries 1 1, .put "keep" [107] 1]

theorem oneKept_full : oneKept.entries.size = oneKept.maxEntries := by decide

theorem oneKept_drop : "drop" ∉ oneKept.entries := by decide

theorem oneKept_liveness : (oneKept.applyTimeMaintenance 1).evictor.liveness.toList = [("keep", Reference.f64.lit 1 0)] := by
  decide +kernel

theorem oneKept_firstScore : firstScore (oneKept.applyTimeMaintenance 1) = Reference.f64.lit 1 0 := by decide +kernel

/-- Under a ceiling of one, a second key is put with the score of the first, and stays if it is the greater key. -/
theorem get_put_iff_full :
    get (put (reached Reference.f64 1 [.setMaxEntries 1 1, .put "keep" [107] 1]) "next" [110] 1) "next" = some [110] := by
  have hkeep : (oneKept.applyTimeMaintenance 1).evictor.liveness["keep"]? = some (Reference.f64.lit 1 0) := by
    rw [← Std.ExtTreeMap.mem_toList_iff_getElem?_eq_some, oneKept_liveness]
    exact List.mem_singleton_self _
  have hequal : Reference.f64.lt (firstScore (oneKept.applyTimeMaintenance 1)) (Reference.f64.lit 1 0) = false := by
    rw [oneKept_firstScore]
    exact Bool.eq_false_iff.mpr fun hless => Reference.f64_exactOrder.asymm hless hless
  exact (get_put_iff Reference.f64_exactOrder 1 _ "next" [110] 1).mpr
    (.inr (.inr ⟨"keep", _, hkeep, .inr ⟨hequal, by decide⟩⟩))

/-- It is gone if it is the smaller key. -/
theorem put_drop_unreadable :
    Reference.f64.ExactOrder ∧
      get (put (reached Reference.f64 1 [.setMaxEntries 1 1, .put "keep" [107] 1]) "drop" [100] 1) "drop" ≠ some [100] := by
  refine ⟨Reference.f64_exactOrder, fun hread => ?_⟩
  have htracked : oneKept.Tracked := (coherent_reached _ _ _).tracked
  obtain ⟨other, score, hscore, hbefore⟩ :=
    (get_put_of_full Reference.f64_exactOrder htracked oneKept_full oneKept_drop [100] 1).mp hread
  rw [← Std.ExtTreeMap.mem_toList_iff_getElem?_eq_some, oneKept_liveness, List.mem_singleton] at hscore
  obtain ⟨rfl, rfl⟩ := Prod.mk.inj hscore
  rw [oneKept_firstScore] at hbefore
  obtain hlower | ⟨-, hkey⟩ := hbefore
  · exact Reference.f64_exactOrder.asymm hlower hlower
  · exact absurd hkey (by decide)

end BlobStore

end Store

end AgentHalo
