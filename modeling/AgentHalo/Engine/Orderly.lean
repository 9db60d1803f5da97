import AgentHalo.Engine.AppendOnly
import AgentHalo.Engine.Chain
import AgentHalo.Engine.TypedStore
import AgentHalo.Store.Ceiling

/-!
# The typed stores in step

The key map, the type map and the payload store are written by different hands: a typed write touches all three, a bare
registration only the first. `Orderly` is what they agree on in every database that was opened and then used through
the engine: different keys have different cells, every score in the payload store belongs to a payload, and every
payload belongs to a key whose tag says that it has one.
-/

namespace AgentHalo

/-! ### Keys -/

variable {m : KeyMap} {key other : String}

namespace Store.KeyMap

/-- The next index is above all in use, and no two keys share one. -/
structure Sound (m : KeyMap) : Prop where
  below : ∀ key idx, m.get key = some idx → idx < m.nextIndex
  injective : ∀ key other idx, m.get key = some idx → m.get other = some idx → key = other

theorem sound_new : KeyMap.new.Sound := by
  have hnone : ∀ key, KeyMap.new.get key = none := fun _ => Std.ExtTreeMap.getElem?_empty
  constructor
  · intro key idx h
    rw [hnone] at h
    cases h
  · intro key other idx h
    rw [hnone] at h
    cases h

theorem getOrCreate_of_absent (h : m.get key = none) :
    (m.getOrCreate key).1 = m.nextIndex ∧ (m.getOrCreate key).2.nextIndex = m.nextIndex + 1 := by
  have hkey : m.forward[key]? = none := h
  unfold getOrCreate
  rw [hkey]
  exact ⟨rfl, rfl⟩

theorem getOrCreate_of_present {idx : Nat} (h : m.get key = some idx) : m.getOrCreate key = (idx, m) := by
  have hkey : m.forward[key]? = some idx := h
  unfold getOrCreate
  rw [hkey]

theorem Sound.getOrCreate_ne (hm : m.Sound) (hne : other ≠ key) {idx : Nat}
    (h : m.get other = some idx) : (m.getOrCreate key).1 ≠ idx := by
  cases hkey : m.get key with
  | none =>
    rw [(getOrCreate_of_absent hkey).1]
    exact (Nat.ne_of_lt (hm.below other idx h)).symm
  | some i =>
    rw [getOrCreate_of_present hkey]
    rintro rfl
    exact hne (hm.injective other key i h hkey)

theorem Sound.getOrCreate (hm : m.Sound) (key : String) : (m.getOrCreate key).2.Sound := by
  cases hkey : m.get key with
  | some i =>
    rw [getOrCreate_of_present hkey]
    exact hm
  | none =>
    obtain ⟨hidx, hnext⟩ := getOrCreate_of_absent hkey
    have hself := get_getOrCreate_self m key
    have hother : ∀ other idx, other ≠ key → (m.getOrCreate key).2.get other = some idx → m.get other = some idx := by
      intro other idx hne h
      rw [get_getOrCreate_other m hne] at h
      exact h
    constructor
    · intro other idx h
      rw [hnext]
      by_cases hne : other = key
      · subst hne
        obtain rfl := Option.some.inj (hself.symm.trans h)
        omega
      · exact Nat.lt_succ_of_lt (hm.below other idx (hother other idx hne h))
    · intro a b idx ha hb
      by_cases hane : a = key
      · by_cases hbne : b = key
        · rw [hane, hbne]
        · rw [hane] at ha
          have heq := Option.some.inj (hself.symm.trans ha)
          exact absurd heq (hm.getOrCreate_ne hbne (hother b idx hbne hb))
      · by_cases hbne : b = key
        · rw [hbne] at hb
          have heq := Option.some.inj (hself.symm.trans hb)
          exact absurd heq (hm.getOrCreate_ne hane (hother a idx hane ha))
        · exact hm.injective a b idx (hother a idx hane ha) (hother b idx hbne hb)

end Store.KeyMap

namespace Engine

open Store (TypedValue TypeMap KeyMap BlobStore BoundedStore)

variable {P : Platform}

namespace NucleusDb

/-! ### The invariant -/

structure Orderly (db : NucleusDb P) : Prop where
  keymap : db.keymap.Sound
  scored : db.blobStore.Scored
  payload : ∀ key, (BlobStore.get db.blobStore key).isSome →
    (db.keymap.get key).isSome ∧ (db.typeMap.get key).isBlob = true

theorem FreshlyBuilt.orderly {initial : State} {db : NucleusDb P} (h : FreshlyBuilt initial db) : Orderly db := by
  have hfresh : ∀ backend cfg params contracts setup clock,
      Orderly (NucleusDb.fresh initial backend cfg params contracts setup clock : NucleusDb P) := by
    intro backend cfg params contracts setup clock
    refine ⟨KeyMap.sound_new, BoundedStore.scored_new _ _ _, ?_⟩
    intro key hsome
    have hnone : BlobStore.get (BlobStore.new P.f64 clock.blob) key = none := Std.ExtTreeMap.getElem?_empty
    have hnone' : (BlobStore.get (BlobStore.new P.f64 clock.blob) key).isSome = true := hsome
    rw [hnone] at hnone'
    cases hnone'
  rcases h with ⟨backend, cfg, clock, h⟩ | ⟨backend, cfg, params, contracts, clock, h⟩
  · obtain ⟨setup, rfl⟩ := new_eq_some h
    exact hfresh _ _ _ _ _ _
  · obtain ⟨-, -, setup, -, rfl⟩ := withSecurity_ok h
    exact hfresh _ _ _ _ _ _

namespace Orderly

variable {db db' : NucleusDb P}

theorem of_same (h : Orderly db) (hkeymap : db'.keymap = db.keymap) (htypes : db'.typeMap = db.typeMap)
    (hblobs : db'.blobStore = db.blobStore) : Orderly db' := by
  refine ⟨hkeymap ▸ h.keymap, hblobs ▸ h.scored, ?_⟩
  rw [hkeymap, htypes, hblobs]
  exact h.payload

theorem commit {delta : Delta} {localViews : List LocalSection} {now : Nat} {r : Except CommitError CommitEntry}
    (h : Orderly db) (hcommit : db.commit delta localViews now = some (r, db')) : Orderly db' := by
  have hframe := commit_sameFrame hcommit
  exact h.of_same hframe.keymap hframe.typeMap hframe.blobStore

theorem isSome_getOrCreate (key : String) (h : (m.get other).isSome) : ((m.getOrCreate key).2.get other).isSome := by
  obtain ⟨idx, hidx⟩ := Option.isSome_iff_exists.mp h
  rw [KeyMap.get_getOrCreate m key hidx]
  rfl

theorem getOrCreate (h : Orderly db) (key : String) :
    Orderly { db with keymap := (db.keymap.getOrCreate key).2 } := by
  refine ⟨h.keymap.getOrCreate key, h.scored, ?_⟩
  intro other hsome
  obtain ⟨hkey, htag⟩ := h.payload other hsome
  exact ⟨isSome_getOrCreate key hkey, htag⟩

theorem maintained (h : Orderly db) (now : Nat) :
    Orderly { db with blobStore := db.blobStore.applyTimeMaintenance now } := by
  refine ⟨h.keymap, h.scored.applyTimeMaintenance now, ?_⟩
  intro key hsome
  unfold BlobStore.get at hsome
  rw [BoundedStore.applyTimeMaintenance_entries] at hsome
  exact h.payload key hsome

end Orderly

theorem isBlob_tag (key : String) (value : TypedValue P) : value.tag.isBlob = (value.encode key).2.isSome := by
  cases value <;> rfl

theorem scored_blobsAfter (h : db.blobStore.Scored) (key : String) (value : TypedValue P) (clock : Clock) :
    (blobsAfter db key value clock).Scored := by
  unfold blobsAfter
  split
  · exact BlobStore.scored_put h key _ _
  · exact h.remove key

theorem isSome_blobsAfter {value : TypedValue P} {clock : Clock}
    (h : (BlobStore.get (blobsAfter db key value clock) other).isSome) :
    (key = other ∧ value.tag.isBlob = true) ∨ (key ≠ other ∧ (BlobStore.get db.blobStore other).isSome) := by
  rw [isBlob_tag key]
  unfold blobsAfter at h
  cases hdata : (value.encode key).2 with
  | some data =>
    rw [hdata] at h
    dsimp only at h
    rcases BlobStore.get_put db.blobStore key data clock.blob other with hnone | hput
    · rw [hnone] at h
      cases h
    · rw [hput] at h
      by_cases heq : key = other
      · exact .inl ⟨heq, rfl⟩
      · rw [if_neg heq] at h
        exact .inr ⟨heq, h⟩
  | none =>
    rw [hdata] at h
    dsimp only at h
    unfold BlobStore.get at h
    rw [BoundedStore.remove_entries, OrdMap.get?_erase] at h
    by_cases heq : key = other
    · rw [if_pos heq] at h
      cases h
    · rw [if_neg heq] at h
      exact .inr ⟨heq, h⟩

theorem Orderly.putTyped (h : Orderly db) (key : String) (value : TypedValue P) (clock : Clock) :
    Orderly (db.putTyped key value clock).2 := by
  rcases putTyped_cases db key value clock with ⟨vectorIndex, hdb⟩ | ⟨-, vectorIndex, hdb⟩
  · rw [hdb]
    exact h.of_same rfl rfl rfl
  · rw [hdb]
    refine ⟨h.keymap.getOrCreate key, scored_blobsAfter h.scored key value clock, ?_⟩
    intro other hsome
    dsimp only
    rw [TypeMap.get_set]
    rcases isSome_blobsAfter hsome with ⟨heq, hblob⟩ | ⟨hne, hsome'⟩
    · subst heq
      rw [if_pos rfl, KeyMap.get_getOrCreate_self]
      exact ⟨rfl, hblob⟩
    · obtain ⟨hkey, htag⟩ := h.payload other hsome'
      rw [if_neg hne]
      exact ⟨Orderly.isSome_getOrCreate key hkey, htag⟩

theorem orderly_invariant : DbInvariant (Orderly (P := P)) where
  commit h hcommit := h.commit hcommit
  putTyped key value clock h := h.putTyped key value clock
  getOrCreate key h := h.getOrCreate key
  setAppendOnly h := h.of_same rfl rfl rfl

end NucleusDb

end Engine

end AgentHalo
