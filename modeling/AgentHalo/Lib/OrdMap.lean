import Mathlib.Tactic

/-!
# Ordered maps

Rust's `BTreeMap` is `Std.ExtTreeMap` under the key type's own order: lookups, insertion and removal, and iteration in
ascending key order through `toList`. The library has the map laws; what is added here is the form of them that speaks
of equal keys rather than of `compare`, and how iteration sees an insertion above every key or at the only one.
-/

/-- A map iterated in ascending key order. -/
abbrev OrdMap (K V : Type) [Ord K] := Std.ExtTreeMap K V compare

namespace OrdMap

variable {K V : Type} [Ord K] [Std.TransOrd K] [Std.LawfulEqOrd K]

theorem get?_insert [DecidableEq K] (m : OrdMap K V) (k a : K) (v : V) :
    (m.insert k v)[a]? = if k = a then some v else m[a]? := by
  simp only [Std.ExtTreeMap.getElem?_insert, Std.compare_eq_iff_eq]

theorem get?_erase [DecidableEq K] (m : OrdMap K V) (k a : K) :
    (m.erase k)[a]? = if k = a then none else m[a]? := by
  simp only [Std.ExtTreeMap.getElem?_erase, Std.compare_eq_iff_eq]

variable {k : K} {m : OrdMap K V} {W : Type} {m' : OrdMap K W}

theorem get?_insert_ne (m : OrdMap K V) {a : K} (v : V) (h : k ≠ a) : (m.insert k v)[a]? = m[a]? := by
  rw [Std.ExtTreeMap.getElem?_insert, if_neg (by simpa using h)]

theorem get?_erase_ne (m : OrdMap K V) {a : K} (h : k ≠ a) : (m.erase k)[a]? = m[a]? := by
  rw [Std.ExtTreeMap.getElem?_erase, if_neg (by simpa using h)]

theorem eq_of_sorted_of_mem_iff {α : Type} {r : α → α → Prop} (hirr : ∀ a, ¬ r a a)
    (htrans : ∀ a b c, r a b → r b c → r a c) {l l' : List α} (hl : l.Pairwise r) (hl' : l'.Pairwise r)
    (h : ∀ a, a ∈ l ↔ a ∈ l') : l = l' := by
  have hnodup : ∀ l : List α, l.Pairwise r → l.Nodup := by
    intro l hl
    unfold List.Nodup
    refine hl.imp ?_
    rintro a b hab rfl
    exact hirr a hab
  have hperm : l.Perm l' := (List.perm_ext_iff_of_nodup (hnodup l hl) (hnodup l' hl')).mpr h
  exact hperm.eq_of_pairwise (fun a b _ _ hab hba => absurd (htrans a b a hab hba) (hirr a)) hl hl'

theorem isEmpty_iff_forall_notMem : m.isEmpty = true ↔ ∀ key, key ∉ m := by
  rw [← Std.ExtTreeMap.isEmpty_keys, List.isEmpty_iff, List.eq_nil_iff_forall_not_mem]
  simp only [Std.ExtTreeMap.mem_keys]

theorem keys_eq_of_mem_iff (h : ∀ key, key ∈ m ↔ key ∈ m') :
    m.keys = m'.keys := by
  refine eq_of_sorted_of_mem_iff (r := fun a b => compare a b = .lt) ?_ ?_ Std.ExtTreeMap.ordered_keys
    Std.ExtTreeMap.ordered_keys ?_
  · intro a
    simp
  · intro a b c hab hbc
    exact Std.TransCmp.lt_trans hab hbc
  · intro key
    rw [Std.ExtTreeMap.mem_keys, Std.ExtTreeMap.mem_keys, h]

theorem size_eq_of_mem_iff (h : ∀ key, key ∈ m ↔ key ∈ m') :
    m.size = m'.size := by
  rw [← Std.ExtTreeMap.length_keys, ← Std.ExtTreeMap.length_keys, keys_eq_of_mem_iff h]

theorem toList_distinct (m : OrdMap K V) : m.toList.Pairwise fun a b => a.1 ≠ b.1 := by
  refine Std.ExtTreeMap.ordered_keys_toList.imp ?_
  intro a b hlt heq
  rw [heq] at hlt
  simp at hlt

theorem toList_nodup (m : OrdMap K V) : m.toList.Nodup := by
  refine (toList_distinct m).imp ?_
  rintro a b hne rfl
  exact hne rfl

theorem pair_sublist_toList {a b : K × V} (ha : a ∈ m.toList) (hb : b ∈ m.toList) (hlt : compare a.1 b.1 = .lt) :
    [a, b].Sublist m.toList := by
  have hsorted : m.toList.Pairwise fun a b => compare a.1 b.1 = .lt := Std.ExtTreeMap.ordered_keys_toList
  generalize m.toList = l at ha hb hsorted
  induction l with
  | nil => cases ha
  | cons c rest ih =>
    obtain ⟨hc, hrest⟩ := List.pairwise_cons.mp hsorted
    obtain rfl | harest := List.mem_cons.mp ha
    · obtain rfl | hbrest := List.mem_cons.mp hb
      · rw [Std.compare_self] at hlt
        cases hlt
      · exact (List.singleton_sublist.mpr hbrest).cons_cons a
    · obtain rfl | hbrest := List.mem_cons.mp hb
      · have hgt := Std.OrientedCmp.gt_of_lt (hc a harest)
        rw [hlt] at hgt
        cases hgt
      · exact (ih harest hbrest hrest).cons c

theorem toList_insert_of_lt (m : OrdMap K V) (k : K) (v : V)
    (habove : ∀ e ∈ m.toList, compare e.1 k = .lt) : (m.insert k v).toList = m.toList ++ [(k, v)] := by
  have hsorted : (m.toList ++ [(k, v)]).Pairwise (fun a b => compare a.1 b.1 = .lt) := by
    rw [List.pairwise_append]
    refine ⟨Std.ExtTreeMap.ordered_keys_toList, List.pairwise_singleton _ _, ?_⟩
    intro a ha b hb
    rw [List.mem_singleton] at hb
    subst hb
    exact habove a ha
  refine eq_of_sorted_of_mem_iff (r := fun a b => compare a.1 b.1 = .lt) ?_ ?_ Std.ExtTreeMap.ordered_keys_toList
    hsorted ?_
  · intro a
    simp
  · intro a b c hab hbc
    exact Std.TransCmp.lt_trans hab hbc
  · rintro ⟨a, w⟩
    rw [List.mem_append, List.mem_singleton, Std.ExtTreeMap.mem_toList_iff_getElem?_eq_some,
      Std.ExtTreeMap.mem_toList_iff_getElem?_eq_some, Std.ExtTreeMap.getElem?_insert]
    split_ifs with heq
    · rw [Std.compare_eq_iff_eq] at heq
      subst heq
      have hnone : m[k]? ≠ some w := by
        intro hmem
        have := habove (k, w) (Std.ExtTreeMap.mem_toList_iff_getElem?_eq_some.mpr hmem)
        simp at this
      simp [hnone, eq_comm]
    · rw [Std.compare_eq_iff_eq] at heq
      simp only [Prod.mk.injEq]
      constructor
      · exact Or.inl
      · rintro (hmem | ⟨rfl, _⟩)
        · exact hmem
        · exact absurd rfl heq

theorem toList_insert_of_singleton {v : V} (h : m.toList = [(k, v)]) (w : V) :
    (m.insert k w).toList = [(k, w)] := by
  refine eq_of_sorted_of_mem_iff (r := fun a b => compare a.1 b.1 = .lt) ?_ ?_ Std.ExtTreeMap.ordered_keys_toList
    (List.pairwise_singleton _ _) ?_
  · intro a
    simp
  · intro a b c hab hbc
    exact Std.TransCmp.lt_trans hab hbc
  · rintro ⟨a, b⟩
    rw [List.mem_singleton, Std.ExtTreeMap.mem_toList_iff_getElem?_eq_some, Std.ExtTreeMap.getElem?_insert]
    split_ifs with heq
    · rw [Std.compare_eq_iff_eq] at heq
      simp [heq, eq_comm]
    · rw [Std.compare_eq_iff_eq] at heq
      have hnone : m[a]? ≠ some b := by
        intro hmem
        have hin := Std.ExtTreeMap.mem_toList_iff_getElem?_eq_some.mpr hmem
        rw [h, List.mem_singleton] at hin
        exact heq (Prod.mk.inj hin).1.symm
      have hne : (a, b) ≠ (k, w) := by
        rintro ⟨rfl, -⟩
        exact heq rfl
      exact iff_of_false hnone hne

end OrdMap

/-!
## Tables of entries under their own keys

An entry that carries its key is stored under it, so a lookup returns an entry of that key.
-/

structure KeyedMap (K V : Type) [Ord K] [Std.TransOrd K] (key : V → K) where
  map : OrdMap K V
  keyed : ∀ (k : K) (v : V), map[k]? = some v → key v = k

namespace KeyedMap

variable {K V : Type} [Ord K] [Std.TransOrd K] {key : V → K}

def empty : KeyedMap K V key := ⟨∅, fun k v h => by simp at h⟩

def get? (m : KeyedMap K V key) (k : K) : Option V := m.map[k]?

def contains (m : KeyedMap K V key) (k : K) : Bool := m.map.contains k

/-- The entries in ascending order of their keys. -/
def values (m : KeyedMap K V key) : List V := m.map.toList.map (·.2)

def size (m : KeyedMap K V key) : Nat := m.map.size

theorem key_of_get? {m : KeyedMap K V key} {k : K} {v : V} (h : m.get? k = some v) : key v = k := m.keyed k v h

@[simp] theorem get?_empty (k : K) : (empty : KeyedMap K V key).get? k = none := by simp [empty, get?]

section

variable [Std.LawfulEqOrd K]

section

variable [DecidableEq K]

def put (m : KeyedMap K V key) (v : V) : KeyedMap K V key where
  map := m.map.insert (key v) v
  keyed k w h := by
    rw [OrdMap.get?_insert] at h
    split at h
    · rename_i hk
      cases h
      exact hk
    · exact m.keyed k w h

def erase (m : KeyedMap K V key) (k : K) : KeyedMap K V key where
  map := m.map.erase k
  keyed a v h := by
    rw [OrdMap.get?_erase] at h
    split at h
    · cases h
    · exact m.keyed a v h

@[simp] theorem get?_put (m : KeyedMap K V key) (v : V) (k : K) :
    (m.put v).get? k = if key v = k then some v else m.get? k := OrdMap.get?_insert _ _ _ _

@[simp] theorem get?_erase (m : KeyedMap K V key) (k a : K) :
    (m.erase k).get? a = if k = a then none else m.get? a := OrdMap.get?_erase _ _ _

end

def filter (p : V → Bool) (m : KeyedMap K V key) : KeyedMap K V key where
  map := m.map.filter fun _ => p
  keyed k v h := by
    rw [Std.ExtTreeMap.getElem?_filter', Option.filter_eq_some_iff] at h
    exact m.keyed k v h.1

@[simp] theorem get?_filter (p : V → Bool) (m : KeyedMap K V key) (k : K) :
    (m.filter p).get? k = (m.get? k).filter p := Std.ExtTreeMap.getElem?_filter'

end

end KeyedMap
