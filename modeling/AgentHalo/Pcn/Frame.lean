import AgentHalo.Pcn.Steps

/-!
# Channels and their neighbours

An operation on one channel leaves the view of another alone when none of the keys it writes is read for the other
(`Clear`). That can fail: a participant may be called `b:state:9`. Names with the same number of colons cannot collide. A
commit can also lengthen the state vector, and a channel whose capacity key lies beyond its end then acquires a capacity
of zero. `Anchored` rules that out.
-/

namespace AgentHalo.Pcn

open Engine (NucleusDb DbOp State)
open Engine.NucleusDb (FreshlyBuilt)
open Store (KeyMap)

variable {P : Platform}

/-! ### Reachable databases -/

/-- The databases that opening, engine operations, key registrations and settlements lead to. -/
inductive Reachable : NucleusDb P → Prop where
  | opened {initial : State} {db : NucleusDb P} (h : FreshlyBuilt initial db) : Reachable db
  | engine {db : NucleusDb P} (h : Reachable db) (op : DbOp P) : Reachable (db.applyOp op)
  | register {db : NucleusDb P} (h : Reachable db) (key : String) :
      Reachable { db with keymap := (db.keymap.getOrCreate key).2 }
  | settle {db db' : NucleusDb P} {op : SettlementOp} {createdAt : UInt64} {now : Nat} {r : Except PcnError Unit}
      (h : Reachable db) (happly : op.apply db createdAt now = some (r, db')) : Reachable db'

theorem sound_invariant : NucleusDb.DbInvariant fun db : NucleusDb P => db.keymap.Sound where
  commit hsound h := by
    rw [(NucleusDb.commit_sameFrame h).keymap]
    exact hsound
  putTyped key value clock hsound := by
    obtain ⟨-, -, hsame | hgrown⟩ := NucleusDb.putTyped_frame _ key value clock
    · rw [hsame]
      exact hsound
    · rw [hgrown]
      exact hsound.getOrCreate key
  getOrCreate key hsound := hsound.getOrCreate key
  setAppendOnly hsound := hsound

variable {op : SettlementOp} {createdAt : UInt64} {now : Nat} {r : Except PcnError Unit}

theorem sound_of_apply {db db' : NucleusDb P} (hsound : db.keymap.Sound) (h : op.apply db createdAt now = some (r, db')) :
    db'.keymap.Sound := by
  rcases apply_cases h with ⟨e, -, -, rfl⟩ | ⟨plan, -, ⟨e, -, -, hreg | hwritten⟩ | ⟨entry, -, -, hwritten⟩⟩
  · exact hsound
  · exact hreg.sound hsound
  · exact hwritten.sound hsound
  · exact hwritten.sound hsound

theorem Reachable.sound {db : NucleusDb P} (h : Reachable db) : db.keymap.Sound := by
  induction h with
  | opened h => exact h.orderly.keymap
  | engine h op ih => exact sound_invariant.applyOp ih op
  | register h key ih => exact ih.getOrCreate key
  | settle h happly ih => exact sound_of_apply ih happly

/-! ### The frame of one operation -/

/-- None of the keys the operation is about to write is read for the channel. -/
def Clear (db : NucleusDb P) (op : SettlementOp) (createdAt : UInt64) (base : String) : Prop :=
  ∀ plan, op.plan db createdAt = .ok plan → ∀ w ∈ plan, ¬ ReadFor base (w.1.key op.base)

/-- The capacity cell of a channel that exists is inside the state vector. -/
def Anchored (db : NucleusDb P) (base : String) : Prop :=
  existsChannel db base = true → ∀ idx, db.keymap.get (Slot.capacity.key base) = some idx → idx < db.state.values.length

theorem Apart.clear {base : String} (h : Apart op.base base) (db : NucleusDb P)
    (createdAt : UInt64) : Clear db op createdAt base :=
  fun _ _ w _ => h w.1

theorem anchored_of_capacityFor {db : NucleusDb P} {base : String} {capacity : UInt64}
    (h : capacityFor db base = some capacity) : Anchored db base := by
  obtain ⟨idx, hidx, hlt, -⟩ := valueAt_eq_some h
  intro _ i hi
  obtain rfl := Option.some.inj (hidx.symm.trans hi)
  exact hlt

section Frame

variable {db db' : NucleusDb P} {writes : List (String × UInt64)} {base : String}

theorem Registered.sameView (h : Registered db writes db') (hout : ∀ w ∈ writes, ¬ ReadFor base w.1) :
    SameView base db db' := by
  have hnot : ∀ key, ReadFor base key → key ∉ writes.map Prod.fst := by
    rintro key hread hmem
    obtain ⟨w, hw, rfl⟩ := List.mem_map.mp hmem
    exact hout w hw hread
  constructor
  · intro key hread
    rw [h.keymap, KeyMap.get_register_of_not_mem db.keymap (hnot key hread)]
  · intro key hread
    unfold word
    rw [h.valueAt_of_not_mem (hnot key hread)]
  · intro _
    exact h.valueAt_of_not_mem (hnot _ (readFor_key base .capacity))

theorem Written.sameView (h : Written db writes db') (hsound : db.keymap.Sound) (hanchored : Anchored db base)
    (hout : ∀ w ∈ writes, ¬ ReadFor base w.1) : SameView base db db' := by
  have hnot : ∀ key, ReadFor base key → key ∉ writes.map Prod.fst := by
    rintro key hread hmem
    obtain ⟨w, hw, rfl⟩ := List.mem_map.mp hmem
    exact hout w hw hread
  have hkeys : ∀ key, ReadFor base key → db'.keymap.get key = db.keymap.get key := by
    intro key hread
    rw [h.keymap, KeyMap.get_register_of_not_mem db.keymap (hnot key hread)]
  constructor
  · exact hkeys
  · intro key hread
    rw [h.word hsound, (Writes.last_eq_none_iff_not_mem writes key).mpr (hnot key hread), Option.getD_none]
  · intro hexists
    have hread := readFor_key base .capacity
    have hget := hkeys _ hread
    unfold capacityFor
    cases hidx : db.keymap.get (Slot.capacity.key base) with
    | none =>
      have hnone : ∀ d : NucleusDb P, d.keymap.get (Slot.capacity.key base) = none →
          valueAt d (base ++ ":meta:capacity") = none := by
        intro d hd
        unfold valueAt
        have hkey : d.keymap.get (base ++ ":meta:capacity") = none := hd
        rw [hkey]
        rfl
      rw [hnone db hidx, hnone db' (hget.trans hidx)]
    | some idx =>
      have hlt := hanchored hexists idx hidx
      have hvalue := valueAt_of_lt hidx hlt
      exact (h.valueAt_of_not_mem hsound (hnot _ hread) hvalue).trans hvalue.symm

end Frame

theorem apply_sameView (hsound : db.keymap.Sound) (hclear : Clear db op createdAt base) (hanchored : Anchored db base)
    (h : op.apply db createdAt now = some (r, db')) : SameView base db db' := by
  have hout : ∀ plan, op.plan db createdAt = .ok plan → ∀ w ∈ keyed op.base plan, ¬ ReadFor base w.1 := by
    intro plan hplan w hw
    obtain ⟨slot, hslot, rfl⟩ := List.mem_map.mp hw
    exact hclear plan hplan slot hslot
  rcases apply_cases h with ⟨e, -, -, rfl⟩ | ⟨plan, hplan, ⟨e, -, -, hreg | hwritten⟩ | ⟨entry, -, -, hwritten⟩⟩
  · exact SameView.refl base db'
  · exact hreg.sameView (hout plan hplan)
  · exact hwritten.sameView hsound hanchored (hout plan hplan)
  · exact hwritten.sameView hsound hanchored (hout plan hplan)

theorem apply_valueAt {key : String} {v : UInt64} (hsound : db.keymap.Sound) (hclear : Clear db op createdAt base)
    (hread : ReadFor base key) (hv : valueAt db key = some v) (h : op.apply db createdAt now = some (r, db')) :
    valueAt db' key = some v := by
  have hout : ∀ plan, op.plan db createdAt = .ok plan → key ∉ (keyed op.base plan).map Prod.fst := by
    intro plan hplan hmem
    obtain ⟨kv, hkv, rfl⟩ := List.mem_map.mp hmem
    obtain ⟨w, hw, rfl⟩ := List.mem_map.mp hkv
    exact hclear plan hplan w hw hread
  rcases apply_cases h with ⟨e, -, -, rfl⟩ | ⟨plan, hplan, ⟨e, -, -, hreg | hwritten⟩ | ⟨entry, -, -, hwritten⟩⟩
  · exact hv
  · rw [hreg.valueAt_of_not_mem (hout plan hplan), hv]
  · exact hwritten.valueAt_of_not_mem hsound (hout plan hplan) hv
  · exact hwritten.valueAt_of_not_mem hsound (hout plan hplan) hv

theorem apply_nextIndex_le (h : op.apply db createdAt now = some (r, db')) :
    db.keymap.nextIndex ≤ db'.keymap.nextIndex := by
  rcases apply_cases h with ⟨e, -, -, rfl⟩ | ⟨plan, -, ⟨e, -, -, hreg | hwritten⟩ | ⟨entry, -, -, hwritten⟩⟩
  · exact Nat.le_refl _
  · rw [hreg.keymap]
    exact KeyMap.nextIndex_le_register _ _
  · rw [hwritten.keymap]
    exact KeyMap.nextIndex_le_register _ _
  · rw [hwritten.keymap]
    exact KeyMap.nextIndex_le_register _ _

theorem SameColons.clear {k : Nat} {p1 p2 q1 q2 : String} (hop : op.base = channelBase p1 p2)
    (hk : SameColons k p1 p2 q1 q2) (hne : ¬ SamePair p1 p2 q1 q2) (db : NucleusDb P) (createdAt : UInt64) :
    Clear db op createdAt (channelBase q1 q2) := by
  refine Apart.clear ?_ db createdAt
  rw [hop]
  exact (hk.separate hne).apart

end AgentHalo.Pcn
