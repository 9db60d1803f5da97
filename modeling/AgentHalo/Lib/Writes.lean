import AgentHalo.Lib.OrdMap

/-!
# Lists of keyed writes

A list of writes is applied left to right, so that the last write to a key is the one that counts. `last` picks it out.
`foldl_last` is the rule for anything that can be written and read by key: after a fold of writes a key reads as its
last write, or as before when there is none. A map iterated in key order is a list of writes with one write for each
key, and `last_toList` says that reading it as such changes nothing.
-/

namespace Writes

variable {K V : Type}

/-- The last value written to `k`. -/
def last [DecidableEq K] : List (K × V) → K → Option V
  | [], _ => none
  | w :: rest, k => (last rest k).or (if w.1 = k then some w.2 else none)

section Last

variable [DecidableEq K]

theorem last_eq_none_iff (writes : List (K × V)) (k : K) : last writes k = none ↔ ∀ w ∈ writes, w.1 ≠ k := by
  induction writes with
  | nil => simp [last]
  | cons w rest ih =>
    rw [last, Option.or_eq_none_iff, ih, List.forall_mem_cons]
    by_cases hw : w.1 = k
    · simp [hw]
    · simp [hw]

variable {writes : List (K × V)} {k : K}

theorem last_eq_none (h : ∀ w ∈ writes, w.1 ≠ k) : last writes k = none :=
  (last_eq_none_iff writes k).mpr h

theorem last_eq_none_iff_not_mem (writes : List (K × V)) (k : K) : last writes k = none ↔ k ∉ writes.map Prod.fst := by
  rw [last_eq_none_iff]
  simp only [List.mem_map, not_exists, not_and, ne_eq]

theorem mem_of_last_eq_some {v : V} (h : last writes k = some v) : (k, v) ∈ writes := by
  induction writes with
  | nil => cases h
  | cons w rest ih =>
    rw [last] at h
    cases hrest : last rest k with
    | some v' =>
      rw [hrest, Option.some_or] at h
      exact List.mem_cons_of_mem w (ih (hrest.trans h))
    | none =>
      rw [hrest, Option.none_or] at h
      split at h
      · rename_i hw
        rw [← hw, ← Option.some.inj h]
        exact List.mem_cons_self
      · cases h

theorem last_concat (writes : List (K × V)) (w : K × V) (k : K) :
    last (writes ++ [w]) k = if w.1 = k then some w.2 else last writes k := by
  induction writes with
  | nil => simp [last]
  | cons w' rest ih =>
    rw [List.cons_append, last, ih, last]
    by_cases hw : w.1 = k
    · simp [hw]
    · simp [hw]

theorem last_append (front back : List (K × V)) (k : K) : last (front ++ back) k = (last back k).or (last front k) := by
  induction front with
  | nil => simp [last]
  | cons w rest ih => rw [List.cons_append, last, ih, last, Option.or_assoc]

theorem last_append_cons (front : List (K × V)) {w : K × V} {back : List (K × V)} (h : ∀ w' ∈ back, w'.1 ≠ w.1) :
    last (front ++ w :: back) w.1 = some w.2 := by
  induction front with
  | nil => rw [List.nil_append, last, last_eq_none h, if_pos rfl, Option.none_or]
  | cons w' rest ih => rw [List.cons_append, last, ih, Option.some_or]

theorem foldl_last {S R : Type*} (read : S → K → R) (write : S → K × V → S) (shown : V → R)
    (hwrite : ∀ s w k, read (write s w) k = if w.1 = k then shown w.2 else read s k) (writes : List (K × V)) (s : S)
    (k : K) : read (writes.foldl write s) k = ((last writes k).map shown).getD (read s k) := by
  induction writes generalizing s with
  | nil => rfl
  | cons w rest ih =>
    rw [List.foldl_cons, ih, hwrite, last]
    cases hlast : last rest k with
    | some v => simp
    | none =>
      by_cases hw : w.1 = k
      · simp [hw]
      · simp [hw]

theorem last_eq_some_iff (hdistinct : writes.Pairwise fun a b => a.1 ≠ b.1) (k : K) (v : V) :
    last writes k = some v ↔ (k, v) ∈ writes := by
  induction writes with
  | nil => simp [last]
  | cons w rest ih =>
    obtain ⟨hhead, htail⟩ := List.pairwise_cons.mp hdistinct
    rw [last, List.mem_cons]
    by_cases hw : w.1 = k
    · have hnone : last rest k = none := last_eq_none fun w' hmem => by
        rw [← hw]
        exact (hhead w' hmem).symm
      have hout : (k, v) ∉ rest := fun hmem => hhead _ hmem hw
      rw [hnone, Option.none_or, if_pos hw]
      simp only [Option.some.injEq, hout, or_false]
      rw [← hw, Prod.ext_iff]
      simp [eq_comm]
    · have hne : (k, v) ≠ w := by
        rintro rfl
        exact hw rfl
      rw [if_neg hw, Option.or_none, ih htail]
      simp [hne]

end Last

/-! ### Maps -/

section Maps

variable [Ord K] [Std.TransOrd K] [Std.LawfulEqOrd K] [DecidableEq K]

theorem last_toList (m : OrdMap K V) (k : K) : last m.toList k = m[k]? := by
  ext v
  rw [last_eq_some_iff m.toList_distinct, Std.ExtTreeMap.mem_toList_iff_getElem?_eq_some]

theorem get?_foldl_insert (writes : List (K × V)) (m : OrdMap K V) (k : K) :
    (writes.foldl (fun acc w => acc.insert w.1 w.2) m)[k]? = (last writes k).or m[k]? := by
  rw [foldl_last (fun (acc : OrdMap K V) k => acc[k]?) (fun acc w => acc.insert w.1 w.2) some
    (fun acc w k => OrdMap.get?_insert acc w.1 k w.2)]
  cases last writes k <;> rfl

end Maps

end Writes
