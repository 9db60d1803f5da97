import AgentHalo.Lib.OrdMap

/-!
# Maps to sets, and sums over maps

A map from keys to sets of keys is a relation: `put` relates two keys and `drop` unrelates them, leaving no empty set
behind. A weight on values adds up over a map to `total`, which an insertion and a removal change by the weight of one
value.
-/

namespace OrdMap

variable {K L V : Type} [Ord K] [Std.TransOrd K] [Std.LawfulEqOrd K]

/-! ### Relations -/

section Relations

variable [DecidableEq K] [Ord L] [Std.TransOrd L] [Std.LawfulEqOrd L]

/-- The set under the first key has the second. -/
def Relates (m : OrdMap K (Std.ExtTreeSet L compare)) (a : K) (b : L) : Prop := ∃ bs, m[a]? = some bs ∧ b ∈ bs

/-- Rust's `entry(a).or_default().insert(b)`. -/
def put (m : OrdMap K (Std.ExtTreeSet L compare)) (a : K) (b : L) : OrdMap K (Std.ExtTreeSet L compare) :=
  m.insert a (((m[a]?).getD ∅).insert b)

/-- The second key leaves the set under the first, and an empty set leaves the map. -/
def drop (m : OrdMap K (Std.ExtTreeSet L compare)) (a : K) (b : L) : OrdMap K (Std.ExtTreeSet L compare) :=
  match m[a]? with
  | none => m
  | some bs => if (bs.erase b).isEmpty then m.erase a else m.insert a (bs.erase b)

variable {m : OrdMap K (Std.ExtTreeSet L compare)} {a a' : K} {b b' : L}

omit [Std.LawfulEqOrd K] [DecidableEq K] [Std.LawfulEqOrd L] in
theorem not_relates_empty (a : K) (b : L) : ¬ Relates (∅ : OrdMap K (Std.ExtTreeSet L compare)) a b := by
  rintro ⟨bs, hbs, -⟩
  simp at hbs

omit [Std.LawfulEqOrd K] [DecidableEq K] [Std.LawfulEqOrd L] in
theorem relates_of_get? {bs : Std.ExtTreeSet L compare} (h : m[a]? = some bs) : Relates m a b ↔ b ∈ bs := by
  simp [Relates, h]

theorem relates_put : Relates (put m a b) a' b' ↔ (a' = a ∧ b' = b) ∨ Relates m a' b' := by
  by_cases ha : a' = a
  · subst ha
    have hget : (put m a' b)[a']? = some (((m[a']?).getD ∅).insert b) := by simp [put]
    rw [relates_of_get? hget, Std.ExtTreeSet.mem_insert, Std.compare_eq_iff_eq]
    cases hold : m[a']? with
    | none => simp [Relates, hold, eq_comm]
    | some bs => simp [Relates, hold, eq_comm]
  · have hget : (put m a b)[a']? = m[a']? := get?_insert_ne m _ (Ne.symm ha)
    simp [Relates, hget, ha]

omit [Std.LawfulEqOrd L] in
theorem relates_erase : Relates (m.erase a) a' b' ↔ Relates m a' b' ∧ a' ≠ a := by
  unfold Relates
  rw [get?_erase]
  by_cases ha : a = a'
  · simp [ha]
  · simp [ha, Ne.symm ha]

theorem relates_drop : Relates (drop m a b) a' b' ↔ Relates m a' b' ∧ ¬ (a' = a ∧ b' = b) := by
  unfold drop
  cases hold : m[a]? with
  | none =>
    have hnot : Relates m a' b' → a' ≠ a := by
      rintro ⟨bs, hbs, -⟩ rfl
      rw [hold] at hbs
      cases hbs
    exact ⟨fun h => ⟨h, fun hab => hnot h hab.1⟩, And.left⟩
  | some bs =>
    by_cases ha : a' = a
    · subst ha
      have hrest : b' ∈ bs.erase b ↔ b' ∈ bs ∧ b' ≠ b := by
        rw [Std.ExtTreeSet.mem_erase, ne_eq, Std.compare_eq_iff_eq, and_comm, eq_comm]
      dsimp only
      split_ifs with hempty
      · have hnone : b' ∉ bs.erase b := by
          rw [Std.ExtTreeSet.isEmpty_iff] at hempty
          rw [hempty]
          exact Std.ExtTreeSet.not_mem_empty
        rw [relates_erase, relates_of_get? hold]
        simp only [ne_eq, not_true_eq_false, and_false, true_and, false_iff]
        rwa [← ne_eq, ← hrest]
      · have hget : (m.insert a' (bs.erase b))[a']? = some (bs.erase b) := by simp
        rw [relates_of_get? hget, relates_of_get? hold, hrest]
        simp
    · have hother : ∀ m' : OrdMap K (Std.ExtTreeSet L compare), m'[a']? = m[a']? →
          (Relates m' a' b' ↔ Relates m a' b' ∧ ¬ (a' = a ∧ b' = b)) := by
        intro m' hm'
        simp [Relates, hm', ha]
      dsimp only
      split_ifs
      · exact hother _ (get?_erase_ne m (Ne.symm ha))
      · exact hother _ (get?_insert_ne m _ (Ne.symm ha))

theorem relates_foldl_drop (l : List K) (m : OrdMap K (Std.ExtTreeSet L compare)) :
    Relates (l.foldl (fun m a => drop m a b) m) a' b' ↔ Relates m a' b' ∧ ¬ (a' ∈ l ∧ b' = b) := by
  induction l generalizing m with
  | nil => simp
  | cons a rest ih =>
    rw [List.foldl_cons, ih, relates_drop, List.mem_cons]
    tauto

theorem relates_foldl_put {α : Type} (key : α → K) (l : List α) (m : OrdMap K (Std.ExtTreeSet L compare)) :
    Relates (l.foldl (fun m x => put m (key x) b) m) a' b' ↔ Relates m a' b' ∨ ((∃ x ∈ l, key x = a') ∧ b' = b) := by
  induction l generalizing m with
  | nil => simp
  | cons x rest ih =>
    rw [List.foldl_cons, ih, relates_put, List.exists_mem_cons_iff]
    constructor
    · rintro ((⟨rfl, rfl⟩ | hold) | ⟨hrest, rfl⟩)
      · exact .inr ⟨.inl rfl, rfl⟩
      · exact .inl hold
      · exact .inr ⟨.inr hrest, rfl⟩
    · rintro (hold | ⟨rfl | hrest, rfl⟩)
      · exact .inl (.inr hold)
      · exact .inl (.inl ⟨rfl, rfl⟩)
      · exact .inr ⟨hrest, rfl⟩

end Relations

/-! ### Sums -/

section Sums

def total (w : V → Nat) (m : OrdMap K V) : Nat := (m.toList.map fun e => w e.2).sum

variable {m : OrdMap K V} {k : K} {v : V} {w : V → Nat}

theorem erase_of_get?_eq_none (h : m[k]? = none) : m.erase k = m := by
  refine Std.ExtTreeMap.ext_getElem? fun a => ?_
  by_cases ha : k = a
  · subst ha
    rw [h]
    simp
  · rw [get?_erase_ne m ha]

theorem toList_insert_perm (m : OrdMap K V) (k : K) (v : V) :
    (m.insert k v).toList.Perm ((k, v) :: (m.erase k).toList) := by
  have hnodup : ∀ m : OrdMap K V, m.toList.Nodup := fun m =>
    (toList_distinct m).imp fun hne heq => hne (congrArg Prod.fst heq)
  have habsent : (k, v) ∉ (m.erase k).toList := by
    rw [Std.ExtTreeMap.mem_toList_iff_getElem?_eq_some]
    simp
  refine (List.perm_ext_iff_of_nodup (hnodup _) (List.nodup_cons.mpr ⟨habsent, hnodup _⟩)).mpr ?_
  rintro ⟨a, x⟩
  rw [List.mem_cons, Std.ExtTreeMap.mem_toList_iff_getElem?_eq_some, Std.ExtTreeMap.mem_toList_iff_getElem?_eq_some]
  by_cases ha : k = a
  · subst ha
    simp [eq_comm]
  · rw [get?_insert_ne m v ha, get?_erase_ne m ha]
    simp [Ne.symm ha]

theorem insert_of_get? (h : m[k]? = some v) : m.insert k v = m := by
  refine Std.ExtTreeMap.ext_getElem? fun a => ?_
  by_cases ha : k = a
  · subst ha
    rw [h]
    simp
  · rw [get?_insert_ne m v ha]

theorem total_insert (w : V → Nat) (m : OrdMap K V) (k : K) (v : V) :
    total w (m.insert k v) = w v + total w (m.erase k) := by
  unfold total
  rw [((toList_insert_perm m k v).map _).sum_eq]
  rfl

theorem total_of_get? (w : V → Nat) (h : m[k]? = some v) : total w m = w v + total w (m.erase k) := by
  rw [← total_insert, insert_of_get? h]

theorem total_le_mul {most : Nat} (h : ∀ (k : K) v, m[k]? = some v → w v ≤ most) : total w m ≤ m.size * most := by
  unfold total
  rw [← Std.ExtTreeMap.length_toList, ← smul_eq_mul, ← List.length_map (fun e : K × V => w e.2)]
  refine List.sum_le_card_nsmul _ _ fun weight hweight => ?_
  obtain ⟨⟨k, v⟩, hin, rfl⟩ := List.mem_map.mp hweight
  exact h k v (Std.ExtTreeMap.mem_toList_iff_getElem?_eq_some.mp hin)

theorem size_le_length [DecidableEq K] {keys : List K} (h : ∀ (k : K) v, m[k]? = some v → k ∈ keys) :
    m.size ≤ keys.length := by
  have hsub : m.keys ⊆ keys := by
    intro k hk
    rw [Std.ExtTreeMap.mem_keys, Std.ExtTreeMap.mem_iff_isSome_getElem?] at hk
    obtain ⟨v, hv⟩ := Option.isSome_iff_exists.mp hk
    exact h k v hv
  rw [← Std.ExtTreeMap.length_keys]
  exact (Std.ExtTreeMap.nodup_keys.subperm hsub).length_le

omit [Std.LawfulEqOrd K] in
theorem total_empty (w : V → Nat) : total w (∅ : OrdMap K V) = 0 := rfl

end Sums

end OrdMap
