import AgentHalo.Engine.Registration

/-!
# Dense indices

A key map that is reached by registering keys is a bijection of its keys with the numbers below its length. The counter is
the length and the reverse table has no holes, so that a new key takes the length for its index.
-/

namespace AgentHalo.Store.KeyMap

def keyAt (m : KeyMap) (idx : Nat) : Option String := m.reverse[idx]?.bind id

def len (m : KeyMap) : Nat := m.forward.size

/-- The two tables are inverse to each other, and the indices are the numbers below the length. -/
structure Dense (m : KeyMap) : Prop where
  nextIndex : m.nextIndex = m.len
  reverse : m.reverse.length = m.len
  inverse : ∀ key idx, m.get key = some idx ↔ m.keyAt idx = some key
  indices : ∀ idx, (∃ key, m.get key = some idx) ↔ idx < m.len

theorem dense_new : KeyMap.new.Dense where
  nextIndex := rfl
  reverse := rfl
  inverse key idx := by
    have hget : KeyMap.new.get key = none := Std.ExtTreeMap.getElem?_empty
    have hkey : KeyMap.new.keyAt idx = none := rfl
    rw [hget, hkey]
    exact iff_of_false (Option.some_ne_none idx).symm (Option.some_ne_none key).symm
  indices idx := by
    refine iff_of_false ?_ (Nat.not_lt_zero idx)
    rintro ⟨key, hkey⟩
    rw [show KeyMap.new.get key = none from Std.ExtTreeMap.getElem?_empty] at hkey
    cases hkey

section Create

variable {m : KeyMap} {key : String}

theorem Dense.getOrCreate_of_absent (h : m.Dense) (habsent : m.get key = none) :
    m.getOrCreate key = (m.len, ⟨m.forward.insert key m.len, m.reverse ++ [some key], m.len + 1⟩) := by
  have hkey : m.forward[key]? = none := habsent
  have hpad : m.len + 1 - m.reverse.length = 1 := by
    rw [h.reverse]
    exact Nat.add_sub_cancel_left m.len 1
  unfold getOrCreate
  rw [hkey, h.nextIndex]
  dsimp only
  rw [hpad, List.replicate_one, ← h.reverse, List.set_append_right _ _ (Nat.le_refl _), Nat.sub_self]
  rfl

theorem len_insert {other : KeyMap} (habsent : m.get key = none) {idx : Nat}
    (hother : other.forward = m.forward.insert key idx) : other.len = m.len + 1 := by
  have hkey : m.forward.contains key = false := by
    rw [Std.ExtTreeMap.contains_eq_isSome_getElem?, show m.forward[key]? = none from habsent]
    rfl
  unfold len
  rw [hother, Std.ExtTreeMap.size_insert, hkey, if_neg Bool.false_ne_true]

theorem Dense.getOrCreate (h : m.Dense) (key : String) : (m.getOrCreate key).2.Dense := by
  cases hkey : m.get key with
  | some idx =>
    rw [getOrCreate_of_present hkey]
    exact h
  | none =>
    have hcreate := h.getOrCreate_of_absent hkey
    have hself : (m.getOrCreate key).2.get key = some m.len := by rw [get_getOrCreate_self, hcreate]
    have hother {other : String} (hne : other ≠ key) := get_getOrCreate_other m hne
    rw [hcreate] at hself hother ⊢
    have hlen := @len_insert m key ⟨m.forward.insert key m.len, m.reverse ++ [some key], m.len + 1⟩ hkey m.len rfl
    -- below the old length the reverse table is the old one, at the old length it has the new key
    have hkeyAt (idx : Nat) : keyAt ⟨m.forward.insert key m.len, m.reverse ++ [some key], m.len + 1⟩ idx =
        if idx = m.len then some key else m.keyAt idx := by
      unfold keyAt
      dsimp only
      rw [← h.reverse]
      split_ifs with hidx
      · rw [hidx, List.getElem?_concat_length]
        rfl
      · rw [List.getElem?_append]
        split_ifs with hlt
        · rfl
        · rw [List.getElem?_eq_none (Nat.le_of_not_lt hlt), List.getElem?_eq_none]
          rw [List.length_singleton]
          omega
    constructor
    · exact hlen.symm
    · rw [List.length_append, List.length_singleton, h.reverse, hlen]
    · intro other idx
      rw [hkeyAt]
      by_cases hne : other = key
      · subst hne
        rw [hself]
        split_ifs with hidx
        · rw [hidx]
          exact iff_of_true rfl rfl
        · refine iff_of_false (fun heq => hidx (Option.some.inj heq).symm) fun hold => ?_
          rw [(h.inverse other idx).mpr hold] at hkey
          cases hkey
      · rw [hother hne, h.inverse]
        split_ifs with hidx
        · refine iff_of_false (fun hold => ?_) fun heq => hne (Option.some.inj heq).symm
          have hlt := (h.indices idx).mp ⟨other, (h.inverse other idx).mpr hold⟩
          omega
        · rfl
    · intro idx
      rw [hlen, Nat.lt_succ_iff_lt_or_eq, ← h.indices]
      constructor
      · rintro ⟨other, hidx⟩
        by_cases hne : other = key
        · subst hne
          rw [hself] at hidx
          exact .inr (Option.some.inj hidx).symm
        · rw [hother hne] at hidx
          exact .inl ⟨other, hidx⟩
      · rintro (⟨other, hidx⟩ | rfl)
        · refine ⟨other, ?_⟩
          rw [hother, hidx]
          rintro rfl
          rw [hkey] at hidx
          cases hidx
        · exact ⟨key, hself⟩

end Create

theorem Dense.register {m : KeyMap} (h : m.Dense) (keys : List String) : (m.register keys).Dense := by
  induction keys generalizing m with
  | nil => exact h
  | cons key keys ih => exact ih (h.getOrCreate key)

/-- **The key map is a dense stable bijection**, whatever keys are registered in whatever order: its tables are inverse to each
other over the indices below its length, the index that is handed out for a key is the one it is found under, later
registrations leave it as it is and hand it out again, and a new key takes the length. -/
theorem register_dense_stable (keys : List String) :
    (KeyMap.new.register keys).Dense ∧
      (∀ key, ((KeyMap.new.register keys).getOrCreate key).2.get key =
        some ((KeyMap.new.register keys).getOrCreate key).1) ∧
      (∀ key idx later, (KeyMap.new.register keys).get key = some idx →
        ((KeyMap.new.register keys).register later).get key = some idx ∧
          ((KeyMap.new.register keys).register later).getOrCreate key = (idx, (KeyMap.new.register keys).register later)) ∧
      ∀ key, (KeyMap.new.register keys).get key = none →
        ((KeyMap.new.register keys).getOrCreate key).1 = (KeyMap.new.register keys).len ∧
          ((KeyMap.new.register keys).getOrCreate key).2.len = (KeyMap.new.register keys).len + 1 := by
  have hdense := dense_new.register keys
  refine ⟨hdense, get_getOrCreate_self _, fun key idx later hidx => ?_, fun key habsent => ?_⟩
  · have hlater := get_register hidx later
    exact ⟨hlater, getOrCreate_of_present hlater⟩
  · rw [hdense.getOrCreate_of_absent habsent]
    exact ⟨rfl, len_insert habsent rfl⟩

end AgentHalo.Store.KeyMap
