import AgentHalo.Engine.Orderly

/-!
# Writes by key

A client of the engine registers the keys it is about to write, turns its writes into indexed ones and commits them.
This module says what a key reads afterwards. Registered keys keep their indices and different keys have different ones
(`Sound`), so that a write by key reaches its own cell only: `last_indexed` carries the last write to a key over to the
last write to its index, and `cell_apply_indexed` reads a key after the writes.
-/

namespace AgentHalo

variable {m : KeyMap} {key : String} {idx : Nat}

namespace Store.KeyMap

/-! ### Registering keys in turn -/

def register (m : KeyMap) (keys : List String) : KeyMap := keys.foldl (fun m key => (m.getOrCreate key).2) m

@[simp] theorem register_nil (m : KeyMap) : m.register [] = m := rfl

@[simp] theorem register_cons (m : KeyMap) (key : String) (keys : List String) :
    m.register (key :: keys) = (m.getOrCreate key).2.register keys := rfl

theorem get_register (h : m.get key = some idx) (keys : List String) : (m.register keys).get key = some idx := by
  induction keys generalizing m with
  | nil => exact h
  | cons k rest ih => exact ih (get_getOrCreate m k h)

variable {keys : List String}

theorem get_register_of_not_mem (m : KeyMap) (h : key ∉ keys) : (m.register keys).get key = m.get key := by
  induction keys generalizing m with
  | nil => rfl
  | cons k rest ih =>
    rw [List.mem_cons, not_or] at h
    rw [register_cons, ih _ h.2, get_getOrCreate_other m h.1]

theorem isSome_get_register (m : KeyMap) (key : String) (keys : List String) :
    ((m.register keys).get key).isSome ↔ (m.get key).isSome ∨ key ∈ keys := by
  induction keys generalizing m with
  | nil => simp
  | cons k rest ih =>
    rw [register_cons, ih, List.mem_cons, ← or_assoc]
    by_cases hk : key = k
    · subst hk
      simp [get_getOrCreate_self]
    · simp [get_getOrCreate_other m hk, hk]

theorem Sound.register (hm : m.Sound) (keys : List String) : (m.register keys).Sound := by
  induction keys generalizing m with
  | nil => exact hm
  | cons k rest ih => exact ih (hm.getOrCreate k)

theorem register_of_present (h : ∀ key ∈ keys, (m.get key).isSome) : m.register keys = m := by
  induction keys with
  | nil => rfl
  | cons k rest ih =>
    obtain ⟨idx, hidx⟩ := Option.isSome_iff_exists.mp (h k List.mem_cons_self)
    rw [register_cons, getOrCreate_of_present hidx]
    exact ih fun key hkey => h key (List.mem_cons_of_mem k hkey)

@[simp] theorem register_register (m : KeyMap) (keys : List String) :
    (m.register keys).register keys = m.register keys :=
  register_of_present fun key hkey => (isSome_get_register m key keys).mpr (.inr hkey)

theorem nextIndex_register_le (m : KeyMap) (keys : List String) :
    (m.register keys).nextIndex ≤ m.nextIndex + keys.length := by
  induction keys generalizing m with
  | nil => simp
  | cons k rest ih =>
    have hrest := ih (m.getOrCreate k).2
    rw [register_cons, List.length_cons]
    cases hk : m.get k with
    | none =>
      rw [(getOrCreate_of_absent hk).2] at hrest
      omega
    | some idx =>
      rw [getOrCreate_of_present hk] at hrest ⊢
      dsimp only at hrest ⊢
      omega

theorem nextIndex_le_register (m : KeyMap) (keys : List String) : m.nextIndex ≤ (m.register keys).nextIndex := by
  induction keys generalizing m with
  | nil => exact Nat.le_refl _
  | cons k rest ih =>
    rw [register_cons]
    refine Nat.le_trans ?_ (ih (m.getOrCreate k).2)
    cases hk : m.get k with
    | none =>
      rw [(getOrCreate_of_absent hk).2]
      omega
    | some idx => rw [getOrCreate_of_present hk]

theorem nextIndex_le_of_get_register
    (habsent : m.get key = none) (h : (m.register keys).get key = some idx) : m.nextIndex ≤ idx := by
  induction keys generalizing m with
  | nil =>
    rw [register_nil, habsent] at h
    cases h
  | cons k rest ih =>
    rw [register_cons] at h
    by_cases hk : key = k
    · subst hk
      have hself := get_register (get_getOrCreate_self m key) rest
      obtain rfl := Option.some.inj (hself.symm.trans h)
      rw [(getOrCreate_of_absent habsent).1]
    · have hstill : (m.getOrCreate k).2.get key = none := by rw [get_getOrCreate_other m hk, habsent]
      exact Nat.le_trans (nextIndex_le_register m [k]) (ih hstill h)

/-! ### Iterating over keys -/

theorem mem_allKeys (m : KeyMap) (key : String) (idx : Nat) : (key, idx) ∈ m.allKeys ↔ m.get key = some idx := by
  unfold allKeys get
  rw [Std.ExtTreeMap.mem_toList_iff_getElem?_eq_some]

theorem filterMap_allKeys_congr {β : Type} {m' : KeyMap} (p : String → Prop) {f f' : String × Nat → Option β}
    (hget : ∀ key, p key → m'.get key = m.get key) (hskip : ∀ kv, ¬ p kv.1 → f kv = none)
    (hskip' : ∀ kv, ¬ p kv.1 → f' kv = none) (hsame : ∀ kv ∈ m.allKeys, p kv.1 → f' kv = f kv) :
    m'.allKeys.filterMap f' = m.allKeys.filterMap f := by
  classical
  have hfilter : m'.allKeys.filter (fun kv => decide (p kv.1)) = m.allKeys.filter (fun kv => decide (p kv.1)) := by
    have hsorted : ∀ m : KeyMap, (m.allKeys.filter fun kv => decide (p kv.1)).Pairwise
        fun a b => compare a.1 b.1 = .lt := fun m => Std.ExtTreeMap.ordered_keys_toList.filter _
    refine OrdMap.eq_of_sorted_of_mem_iff (fun a h => ?_) (fun a b c hab hbc => ?_) (hsorted m') (hsorted m) ?_
    · simp at h
    · exact Std.TransCmp.lt_trans hab hbc
    · rintro ⟨key, idx⟩
      simp only [List.mem_filter, mem_allKeys, decide_eq_true_eq]
      exact and_congr_left fun hp => by rw [hget key hp]
  have hdrop : ∀ (l : List (String × Nat)) (g : String × Nat → Option β), (∀ kv, ¬ p kv.1 → g kv = none) →
      l.filterMap g = (l.filter fun kv => decide (p kv.1)).filterMap g := by
    intro l g hg
    rw [List.filterMap_filter]
    refine List.filterMap_congr fun kv _ => ?_
    by_cases hp : p kv.1
    · simp [hp]
    · simp [hp, hg kv hp]
  rw [hdrop _ f' hskip', hfilter, hdrop _ f hskip]
  refine List.filterMap_congr fun kv hkv => ?_
  rw [List.mem_filter, decide_eq_true_eq] at hkv
  exact hsame kv hkv.1 hkv.2

/-! ### Keyed writes -/

/-- The writes by index for writes by registered key. -/
def indexed {V : Type} (m : KeyMap) (writes : List (String × V)) : List (Nat × V) :=
  writes.map fun w => ((m.get w.1).getD 0, w.2)

theorem last_indexed {V : Type} (hm : m.Sound) {writes : List (String × V)}
    (hall : ∀ w ∈ writes, (m.get w.1).isSome) (hkey : m.get key = some idx) :
    Writes.last (m.indexed writes) idx = Writes.last writes key := by
  induction writes with
  | nil => rfl
  | cons w rest ih =>
    obtain ⟨i, hi⟩ := Option.isSome_iff_exists.mp (hall w List.mem_cons_self)
    have hiff : i = idx ↔ w.1 = key := by
      constructor
      · rintro rfl
        exact hm.injective w.1 key i hi hkey
      · intro heq
        rw [heq] at hi
        exact Option.some.inj (hi.symm.trans hkey)
    have hrest := ih fun w' hw' => hall w' (List.mem_cons_of_mem w hw')
    unfold indexed at hrest ⊢
    rw [List.map_cons, Writes.last, Writes.last, hrest, hi, Option.getD_some]
    simp only [hiff]

theorem last_indexed_of_nextIndex_le {V : Type} (hm : m.Sound) {writes : List (String × V)}
    (hall : ∀ w ∈ writes, (m.get w.1).isSome) (hidx : m.nextIndex ≤ idx) :
    Writes.last (m.indexed writes) idx = none := by
  refine Writes.last_eq_none ?_
  rintro w hw rfl
  obtain ⟨kv, hkv, rfl⟩ := List.mem_map.mp hw
  obtain ⟨i, hi⟩ := Option.isSome_iff_exists.mp (hall kv hkv)
  rw [hi, Option.getD_some] at hidx
  have hbelow := hm.below kv.1 i hi
  omega

end Store.KeyMap

namespace Engine

open Store (KeyMap)

/-! ### The length of the state -/

theorem length_writeCell (values : List UInt64) (write : Nat × UInt64) :
    (writeCell values write).length = max values.length (write.1 + 1) := by
  unfold writeCell
  dsimp only
  rw [List.length_set]
  split
  · rw [List.length_append, List.length_replicate]
    omega
  · omega

theorem length_le_apply (state : State) (delta : Delta) :
    state.values.length ≤ (apply state delta).values.length := by
  unfold apply
  dsimp only
  induction delta.writes generalizing state with
  | nil => exact Nat.le_refl _
  | cons w rest ih =>
    have hstep := length_writeCell state.values w
    have hrest := ih ⟨writeCell state.values w⟩
    rw [List.foldl_cons]
    dsimp only at hrest
    omega

variable {delta : Delta}

theorem lt_length_apply_of_mem (state : State) {write : Nat × UInt64} (h : write ∈ delta.writes) :
    write.1 < (apply state delta).values.length := by
  obtain ⟨writes⟩ := delta
  unfold apply
  dsimp only at h ⊢
  induction writes generalizing state with
  | nil => cases h
  | cons w rest ih =>
    rw [List.foldl_cons]
    rcases List.mem_cons.mp h with rfl | hrest
    · have hstep := length_writeCell state.values write
      have hle := length_le_apply ⟨writeCell state.values write⟩ ⟨rest⟩
      unfold apply at hle
      dsimp only at hle
      omega
    · exact ih ⟨writeCell state.values w⟩ hrest

variable {state : State}

theorem length_apply_le {bound : Nat} (hstate : state.values.length ≤ bound)
    (hwrites : ∀ w ∈ delta.writes, w.1 < bound) : (apply state delta).values.length ≤ bound := by
  obtain ⟨writes⟩ := delta
  unfold apply
  dsimp only at hwrites ⊢
  induction writes generalizing state with
  | nil => exact hstate
  | cons w rest ih =>
    refine @ih ⟨writeCell state.values w⟩ ?_ fun w' hw' => hwrites w' (List.mem_cons_of_mem w hw')
    have hw := hwrites w List.mem_cons_self
    dsimp only
    rw [length_writeCell]
    omega

theorem getElem?_values_of_lt (h : idx < state.values.length) : state.values[idx]? = some (state.cell idx) := by
  unfold State.cell
  rw [List.getElem?_eq_getElem h, Option.getD_some]

theorem cell_apply_indexed (hm : m.Sound) (state : State) {writes : List (String × UInt64)}
    (hall : ∀ w ∈ writes, (m.get w.1).isSome) (hkey : m.get key = some idx) :
    (apply state ⟨m.indexed writes⟩).cell idx = (Writes.last writes key).getD (state.cell idx) := by
  rw [cell_apply, KeyMap.last_indexed hm hall hkey]

/-! ### Monotone writes -/

theorem verifyMonotoneExtension_of_zero (hzero : ∀ w ∈ delta.writes, state.cell w.1 = 0) :
    verifyMonotoneExtension state m (apply state delta) m = true := by
  have hkept : ∀ i, state.cell i ≠ 0 → (apply state delta).cell i = state.cell i := by
    intro i hne
    rw [cell_apply, Writes.last_eq_none]
    · rfl
    · rintro w hw rfl
      exact hne (hzero w hw)
  unfold verifyMonotoneExtension
  rw [(verifyRawMonotoneExtension_iff state (apply state delta)).mpr hkept, if_neg (by decide), List.all_eq_true]
  rintro ⟨key, idx⟩ hmem
  dsimp only
  rw [(m.mem_allKeys key idx).mp hmem]
  split
  · rfl
  · rename_i hne
    dsimp only
    rw [hkept idx (by simpa using hne)]
    exact beq_self_eq_true _

namespace NucleusDb

variable {P : Platform}

variable {localViews : List LocalSection}

variable {db db' : NucleusDb P} {now : Nat}

theorem commit_monotoneViolation (h : db.commit delta localViews now = some (.error .monotoneViolation, db')) :
    verifyMonotoneExtension db.state db.keymap (apply db.state delta) db.keymap = false := by
  unfold commit at h
  split at h
  · rename_i e hcheck
    obtain ⟨he, -⟩ := Prod.mk.inj (Option.some.inj h)
    rw [Except.error.inj he] at hcheck
    unfold precheck at hcheck
    split at hcheck
    · cases hcheck
    split at hcheck
    · cases hcheck
    split at hcheck
    · cases hcheck
    dsimp only at hcheck
    split at hcheck
    · cases hcheck
    split at hcheck
    · rename_i hmono
      simpa using hmono.2
    · split at hcheck
      · cases hcheck
      · cases hcheck
  · rename_i next sheafPf hcheck
    split at h
    · cases h
    · obtain ⟨hr, -⟩ := Prod.ext_iff.mp (Option.some.inj h)
      unfold settle at hr
      dsimp only at hr
      split at hr
      · cases hr
      split at hr
      · cases hr
      split at hr
      · cases hr
      · cases hr

theorem Admissible.length_le (h : db.Admissible delta localViews) :
    (apply db.state delta).values.length ≤ db.securityParams.maxVectorLen := by
  have hshape := h.shape
  unfold validateCommitShape at hshape
  obtain ⟨-, hrest⟩ := guard_eq_ok hshape
  obtain ⟨hlen, -⟩ := guard_eq_ok hrest
  omega

/-! ### Databases that take every write that fits -/

/-- The configuration is valid, the witnesses can sign, and the log is in step with the history. -/
structure Healthy (db : NucleusDb P) : Prop where
  parameters : validateParameters db.securityParams db.backend.profile db.witnessCfg = .ok ()
  contracts : validateReductionContracts db.reductionContracts = .ok ()
  witnesses : db.witnessCfg.witnesses.isEmpty = false
  usable : db.witnessCfg.Usable
  rooted : ∀ vec, (db.stateRootFor vec).isSome
  inStep : db.ctLeaves.length = db.entries.length

theorem Healthy.commit (hP : P.SignaturesCorrect) (h : Healthy db) (now : Nat)
    (hwrites : delta.writes.length ≤ db.securityParams.maxDeltaWrites)
    (hlen : (apply db.state delta).values.length ≤ db.securityParams.maxVectorLen)
    (hmono : verifyMonotoneExtension db.state db.keymap (apply db.state delta) db.keymap = true) :
    ∃ entry db', db.commit delta [] now = some (.ok entry, db') := by
  have hshape : validateCommitShape db.securityParams delta.writes.length (apply db.state delta).values.length =
      .ok () := by
    unfold validateCommitShape
    rw [if_neg (by omega), if_neg (by omega)]
  have hroots : ∃ rs, db.roots (apply db.state delta) = some rs := by
    obtain ⟨root, hroot⟩ := Option.isSome_iff_exists.mp (h.rooted (materialize (apply db.state delta)))
    obtain ⟨prev, hprev⟩ := Option.isSome_iff_exists.mp (h.rooted (materialize db.state))
    unfold roots
    rw [hroot, hprev]
    cases db.entries.getLast? with
    | none => exact ⟨_, rfl⟩
    | some e => exact ⟨_, rfl⟩
  obtain ⟨rs, hroots⟩ := hroots
  have hadm : db.Admissible delta [] := ⟨h.parameters, h.contracts, h.witnesses, hshape, fun _ => hmono, rfl⟩
  exact commit_ok_of_usable hP now hadm hroots h.usable h.inStep

theorem Healthy.of_commit (h : Healthy db) {entry : CommitEntry}
    (hcommit : db.commit delta localViews now = some (.ok entry, db')) :
    Healthy db' := by
  have hframe := commit_sameFrame hcommit
  have hadv := commit_advanced hcommit
  obtain ⟨leaf, hleaves⟩ := hadv.ctLeaves
  constructor
  · rw [hframe.securityParams, hframe.backend, hframe.witnessCfg]
    exact h.parameters
  · rw [hframe.reductionContracts]
    exact h.contracts
  · rw [hframe.witnessCfg]
    exact h.witnesses
  · rw [hframe.witnessCfg]
    exact h.usable
  · intro vec
    rw [hframe.stateRootFor]
    exact h.rooted vec
  · rw [hleaves, hadv.entries, List.length_append, List.length_append, h.inStep]
    rfl

theorem singleWitnessDb_healthy : Healthy singleWitnessDb where
  parameters := singleWitnessDb_admissible.parameters
  contracts := singleWitnessDb_admissible.contracts
  witnesses := singleWitnessDb_admissible.witnesses
  usable := singleWitnessCfg_usable
  rooted _ := rfl
  inStep := rfl

end NucleusDb

end Engine

end AgentHalo
