import AgentHalo.Pcn.Frame

/-!
# A channel and the cells that hold it

The abstract channel is a record with a history: its capacity, its creation time and the steps taken so far, numbered
from one. `Live` says that a database holds it: every cell of the channel has its word in the state, and no other key
that the adapter would read for it is registered. Under `Live` the scans of the adapter come out as they should, and a
snapshot is the channel itself (`Live.snapshot`). An operation whose commit goes through appends one step
(`Live.step`).
-/

namespace AgentHalo.Pcn

open Engine (NucleusDb)
open Store (KeyMap)

variable {P : Platform}

/-! ### Abstract channels -/

/-- What an operation leaves in a channel's history. -/
structure Step where
  kind : UInt64
  status : ChannelStatus
  b1 : UInt64
  b2 : UInt64
deriving DecidableEq, Repr

/-- A channel that has been opened; `last` is its current step. -/
structure Channel where
  sentinel : UInt64
  capacity : UInt64
  createdAt : UInt64
  earlier : List Step
  last : Step
deriving DecidableEq, Repr

namespace Channel

def steps (c : Channel) : List Step := c.earlier ++ [c.last]

def extend (c : Channel) (s : Step) : Channel := { c with earlier := c.steps, last := s }

def step? (c : Channel) (seq : UInt64) : Option Step := if seq = 0 then none else c.steps[seq.toNat - 1]?

def cell (c : Channel) : Slot → Option UInt64
  | .record => some c.sentinel
  | .capacity => some c.capacity
  | .createdAt => some c.createdAt
  | .kind seq => (c.step? seq).map (·.kind)
  | .state seq .status => (c.step? seq).map fun s => statusCode s.status
  | .state seq .b1 => (c.step? seq).map (·.b1)
  | .state seq .b2 => (c.step? seq).map (·.b2)
  | .state _ .capacity => none

/-- The slot belongs to the record or to one of the steps. -/
def Within (c : Channel) (slot : Slot) : Prop := ∀ seq, slot.seq? = some seq → seq ≠ 0 ∧ seq.toNat ≤ c.steps.length

def seq (c : Channel) : UInt64 := UInt64.ofNat c.steps.length

def ops (c : Channel) : List ChannelOpView :=
  c.steps.zipIdx.map fun (s, i) => ⟨UInt64.ofNat (i + 1), opName s.kind⟩

def snapshot (c : Channel) (p1 p2 : String) : ChannelSnapshot where
  record :=
    { participant1 := (canonicalPair p1 p2).1, participant2 := (canonicalPair p1 p2).2, capacity := c.capacity
      status := c.last.status, createdAt := c.createdAt, lastSeq := c.seq }
  balance1 := c.last.b1
  balance2 := c.last.b2
  ops := c.ops

theorem length_steps (c : Channel) : c.steps.length = c.earlier.length + 1 := by simp [steps]

@[simp] theorem steps_extend (c : Channel) (s : Step) : (c.extend s).steps = c.steps ++ [s] := rfl

theorem toNat_ofNat {n : Nat} (h : n < 2 ^ 64) : (UInt64.ofNat n).toNat = n := UInt64.toNat_ofNat_of_lt' h

theorem seq_toNat {c : Channel} (h : c.steps.length < 2 ^ 64) : c.seq.toNat = c.steps.length := toNat_ofNat h

theorem seq_ne_zero {c : Channel} (h : c.steps.length < 2 ^ 64) : c.seq ≠ 0 := by
  have hlen := c.length_steps
  have hnat := seq_toNat h
  intro h0
  rw [h0] at hnat
  simp at hnat
  omega

theorem step?_seq {c : Channel} (h : c.steps.length < 2 ^ 64) : c.step? c.seq = some c.last := by
  unfold step?
  rw [if_neg (seq_ne_zero h), seq_toNat h, c.length_steps]
  simp [steps]

theorem seq_extend (c : Channel) (s : Step) : (c.extend s).seq = c.seq + 1 := by
  unfold seq
  rw [steps_extend, List.length_append, List.length_singleton]
  exact UInt64.ofNat_add _ _

theorem step?_extend {c : Channel} (h : c.steps.length + 1 < 2 ^ 64) (s : Step) (n : UInt64) :
    (c.extend s).step? n = if n = c.seq + 1 then some s else c.step? n := by
  have hnat : (c.seq + 1).toNat = c.steps.length + 1 := by
    rw [← seq_extend c s, seq_toNat (by simpa using h)]
    simp
  by_cases hn : n = c.seq + 1
  · subst hn
    rw [if_pos rfl, ← seq_extend c s]
    exact step?_seq (c := c.extend s) (by simpa using h)
  · rw [if_neg hn]
    have hne : n.toNat ≠ c.steps.length + 1 := by
      rw [← hnat]
      exact fun heq => hn (UInt64.toNat_inj.mp heq)
    unfold step?
    by_cases h0 : n = 0
    · rw [if_pos h0, if_pos h0]
    · have hpos : n.toNat ≠ 0 := fun heq => h0 (UInt64.toNat_inj.mp heq)
      rw [if_neg h0, if_neg h0, steps_extend]
      by_cases hin : n.toNat - 1 < c.steps.length
      · rw [List.getElem?_append_left hin]
      · rw [List.getElem?_eq_none (l := c.steps) (by omega), List.getElem?_eq_none]
        simp
        omega

end Channel

/-! ### Databases that hold a channel -/

theorem statusFromCode_statusCode (status : ChannelStatus) : statusFromCode (statusCode status) = status := by
  cases status <;> rfl

/-- The database holds the channel under the base. -/
structure Live (db : NucleusDb P) (base : String) (c : Channel) : Prop where
  marked : c.sentinel ≠ 0
  held : ∀ slot v, c.cell slot = some v → valueAt db (slot.key base) = some v
  only : ∀ key, ReadFor base key → (db.keymap.get key).isSome → ∃ slot, key = slot.key base ∧ c.Within slot
  short : c.steps.length < 2 ^ 64
  indices : c.steps.length ≤ db.keymap.nextIndex

variable {slot : Slot} {v : UInt64} {p1 p2 : String}

namespace Live

variable {db db' : NucleusDb P} {base : String} {c : Channel}

theorem word (h : Live db base c) (hcell : c.cell slot = some v) : word db (slot.key base) = v := by
  unfold Pcn.word
  rw [h.held slot v hcell]
  rfl

theorem isSome_get (h : Live db base c) (hcell : c.cell slot = some v) : (db.keymap.get (slot.key base)).isSome := by
  obtain ⟨idx, hidx, -⟩ := valueAt_eq_some (h.held slot v hcell)
  rw [hidx]
  rfl

theorem existsChannel (h : Live db base c) : existsChannel db base = true := by
  rw [existsChannel_iff]
  have hword := h.word (show c.cell .record = some _ from rfl)
  rw [key_record] at hword
  rw [hword]
  exact h.marked

theorem capacityFor (h : Live db base c) : capacityFor db base = some c.capacity := h.held .capacity _ rfl

theorem cell_status (h : Live db base c) : c.cell (.state c.seq .status) = some (statusCode c.last.status) := by
  simp [Channel.cell, Channel.step?_seq h.short]

theorem cell_b1 (h : Live db base c) : c.cell (.state c.seq .b1) = some c.last.b1 := by
  simp [Channel.cell, Channel.step?_seq h.short]

theorem cell_b2 (h : Live db base c) : c.cell (.state c.seq .b2) = some c.last.b2 := by
  simp [Channel.cell, Channel.step?_seq h.short]

theorem latestSeq (h : Live db base c) : latestSeq db base = c.seq := by
  refine latestSeq_eq_of_max (.inr ⟨_, h.isSome_get h.cell_status, stateSeq_key base _⟩) ?_
  intro key n hsome hseq
  have hread : ReadFor base key := by
    right; right; right; left
    rw [hseq]
    rfl
  obtain ⟨slot, rfl, hwithin⟩ := h.only key hread hsome
  rw [stateSeq_key] at hseq
  cases slot with
  | state m field =>
    obtain rfl := Option.some.inj hseq
    rw [UInt64.le_iff_toNat_le, Channel.seq_toNat h.short]
    exact (hwithin m rfl).2
  | _ => cases hseq

theorem mem_opEntries (h : Live db base c) (n : UInt64) (name : String) :
    (n, name) ∈ opEntries db base ↔ ∃ s, c.step? n = some s ∧ name = opName s.kind := by
  unfold opEntries
  rw [List.mem_filterMap]
  have hword : ∀ {m : UInt64} {s : Step} {idx : Nat}, c.step? m = some s →
      db.keymap.get ((Slot.kind m).key base) = some idx → db.state.cell idx = s.kind := by
    intro m s idx hstep hidx
    rw [← word_of_get hidx]
    exact h.word (by simp [Channel.cell, hstep])
  constructor
  · rintro ⟨⟨key, idx⟩, hmem, hentry⟩
    obtain ⟨m, hm, hpair⟩ := Option.map_eq_some_iff.mp hentry
    obtain ⟨rfl, rfl⟩ := Prod.mk.inj hpair
    have hidx := (db.keymap.mem_allKeys key idx).mp hmem
    have hread : ReadFor base key := by
      right; right; right; right
      rw [hm]
      rfl
    obtain ⟨slot, rfl, hwithin⟩ := h.only key hread (by rw [hidx]; rfl)
    rw [opSeq_key] at hm
    cases slot with
    | kind k =>
      obtain rfl := Option.some.inj hm
      obtain ⟨hne, hle⟩ := hwithin k rfl
      have hpos : k.toNat ≠ 0 := fun heq => hne (UInt64.toNat_inj.mp heq)
      have hstep : ∃ s, c.step? k = some s := by
        unfold Channel.step?
        rw [if_neg hne]
        exact ⟨_, List.getElem?_eq_getElem (by omega)⟩
      obtain ⟨s, hs⟩ := hstep
      exact ⟨s, hs, by rw [hword hs hidx]⟩
    | _ => cases hm
  · rintro ⟨s, hs, rfl⟩
    obtain ⟨idx, hidx⟩ := Option.isSome_iff_exists.mp
      (h.isSome_get (show c.cell (.kind n) = some s.kind by simp [Channel.cell, hs]))
    refine ⟨((Slot.kind n).key base, idx), (db.keymap.mem_allKeys _ _).mpr hidx, ?_⟩
    dsimp only
    rw [opSeq_key, hword hs hidx]
    rfl

theorem get?_opIndex (h : Live db base c) (n : UInt64) :
    (opIndex db base)[n]? = (c.step? n).map fun s => opName s.kind := by
  rw [opIndex_eq, Writes.get?_foldl_insert, Std.ExtTreeMap.getElem?_empty, Option.or_none]
  cases hlast : Writes.last (opEntries db base) n with
  | some name =>
    obtain ⟨s, hs, rfl⟩ := (h.mem_opEntries n name).mp (Writes.mem_of_last_eq_some hlast)
    rw [hs]
    rfl
  | none =>
    cases hs : c.step? n with
    | none => rfl
    | some s =>
      have hmem := (h.mem_opEntries n (opName s.kind)).mpr ⟨s, hs, rfl⟩
      exact absurd (List.mem_map_of_mem hmem) ((Writes.last_eq_none_iff_not_mem _ _).mp hlast)

theorem toList_opIndex (h : Live db base c) :
    (opIndex db base).toList = c.steps.zipIdx.map fun (s, i) => (UInt64.ofNat (i + 1), opName s.kind) := by
  have hshort := h.short
  refine OrdMap.eq_of_sorted_of_mem_iff (r := fun a b => compare a.1 b.1 = .lt) (fun a ha => ?_)
    (fun a b d hab hbd => ?_) Std.ExtTreeMap.ordered_keys_toList ?_ ?_
  · simp at ha
  · exact Std.TransCmp.lt_trans hab hbd
  · rw [List.pairwise_iff_getElem]
    intro i j hi hj hij
    rw [List.length_map, List.length_zipIdx] at hi hj
    simp only [List.getElem_map, List.getElem_zipIdx, Nat.zero_add]
    refine if_pos ?_
    rw [UInt64.lt_iff_toNat_lt, Channel.toNat_ofNat (by omega), Channel.toNat_ofNat (by omega)]
    omega
  · rintro ⟨n, name⟩
    rw [Std.ExtTreeMap.mem_toList_iff_getElem?_eq_some, h.get?_opIndex, List.mem_map]
    constructor
    · intro hstep
      obtain ⟨s, hs, rfl⟩ := Option.map_eq_some_iff.mp hstep
      unfold Channel.step? at hs
      split at hs
      · cases hs
      · rename_i hne
        have hpos : n.toNat ≠ 0 := fun heq => hne (UInt64.toNat_inj.mp heq)
        refine ⟨(s, n.toNat - 1), List.mk_mem_zipIdx_iff_getElem?.mpr hs, ?_⟩
        have hback : n.toNat - 1 + 1 = n.toNat := by omega
        dsimp only
        rw [hback, UInt64.ofNat_toNat]
    · rintro ⟨⟨s, i⟩, hmem, hpair⟩
      obtain ⟨rfl, rfl⟩ := Prod.mk.inj hpair
      have hget := List.mk_mem_zipIdx_iff_getElem?.mp hmem
      obtain ⟨hi, -⟩ := List.getElem?_eq_some_iff.mp hget
      have hnat : (UInt64.ofNat (i + 1)).toNat = i + 1 := Channel.toNat_ofNat (by omega)
      have hne : UInt64.ofNat (i + 1) ≠ 0 := by
        intro h0
        rw [h0] at hnat
        simp at hnat
      unfold Channel.step?
      rw [if_neg hne, hnat, Nat.add_sub_cancel, hget]
      rfl

theorem snapshot (h : Live db (channelBase p1 p2) c) : channelSnapshot db p1 p2 = some (c.snapshot p1 p2) := by
  rw [channelSnapshot_eq, if_pos ⟨h.existsChannel, by rw [h.latestSeq]; exact Channel.seq_ne_zero h.short⟩,
    h.capacityFor, Option.map_some]
  unfold slotSnapshot
  dsimp only
  rw [h.latestSeq, h.word h.cell_status, h.word h.cell_b1, h.word h.cell_b2, h.word (show c.cell .createdAt = some _ from rfl),
    h.toList_opIndex, List.map_map, statusFromCode_statusCode]
  rfl

theorem next_toNat (h : Live db base c) : (c.seq + 1).toNat = (c.steps.length + 1) % 2 ^ 64 := by
  rw [UInt64.toNat_add, Channel.seq_toNat h.short]
  rfl

theorem get_next_eq_none (h : Live db base c) (hslot : slot.seq? = some (c.seq + 1)) :
    db.keymap.get (slot.key base) = none := by
  by_contra hsome
  obtain ⟨slot', heq, hwithin⟩ := h.only _ (readFor_key base _) (Option.isSome_iff_ne_none.mpr hsome)
  rw [← key_inj heq] at hwithin
  obtain ⟨hne, hle⟩ := hwithin (c.seq + 1) hslot
  have hpos : (c.seq + 1).toNat ≠ 0 := fun h0 => hne (UInt64.toNat_inj.mp h0)
  have hwrap := h.next_toNat
  have hshort := h.short
  omega

theorem of_sameView (h : Live db base c) (hview : SameView base db db') (hstate : ∀ key v, ReadFor base key →
    valueAt db key = some v → valueAt db' key = some v) (hnext : db.keymap.nextIndex ≤ db'.keymap.nextIndex) :
    Live db' base c where
  marked := h.marked
  held slot v hcell := hstate _ v (readFor_key base slot) (h.held slot v hcell)
  only key hread hsome := by
    rw [hview.keys key hread] at hsome
    exact h.only key hread hsome
  short := h.short
  indices := Nat.le_trans h.indices hnext

end Live

/-! ### Writing a step -/

theorem last_keyed (base : String) (plan : List (Slot × UInt64)) (slot : Slot) :
    Writes.last (keyed base plan) (slot.key base) = Writes.last plan slot := by
  induction plan with
  | nil => rfl
  | cons w rest ih =>
    unfold keyed at ih ⊢
    rw [List.map_cons, Writes.last, Writes.last, ih]
    have hiff : w.1.key base = slot.key base ↔ w.1 = slot := ⟨key_inj, fun h => by rw [h]⟩
    simp only [hiff]

theorem mem_keyed_fst {base : String} {plan : List (Slot × UInt64)} {key : String}
    (h : key ∈ (keyed base plan).map Prod.fst) : ∃ w ∈ plan, key = w.1.key base := by
  obtain ⟨kv, hkv, rfl⟩ := List.mem_map.mp h
  obtain ⟨w, hw, rfl⟩ := List.mem_map.mp hkv
  exact ⟨w, hw, rfl⟩

/-- The slots of a step, with the capacity that a splice writes beside them. -/
structure WritesStep (plan : List (Slot × UInt64)) (seq : UInt64) (s : Step) : Prop where
  kind : Writes.last plan (.kind seq) = some s.kind
  status : Writes.last plan (.state seq .status) = some (statusCode s.status)
  b1 : Writes.last plan (.state seq .b1) = some s.b1
  b2 : Writes.last plan (.state seq .b2) = some s.b2
  only : ∀ w ∈ plan, w.1.seq? = some seq

namespace WritesStep

variable {plan : List (Slot × UInt64)} {seq : UInt64} {s : Step}

theorem not_mem (h : WritesStep plan seq s) (base : String) (hslot : slot.seq? ≠ some seq) :
    slot.key base ∉ (keyed base plan).map Prod.fst := by
  intro hmem
  obtain ⟨w, hw, heq⟩ := mem_keyed_fst hmem
  rw [key_inj heq] at hslot
  exact hslot (h.only w hw)

theorem cell_extend {c : Channel} (h : WritesStep plan (c.seq + 1) s) (hlen : c.steps.length + 1 < 2 ^ 64)
    (hcell : (c.extend s).cell slot = some v) :
    (slot.seq? ≠ some (c.seq + 1) ∧ c.cell slot = some v) ∨ Writes.last plan slot = some v := by
  cases slot with
  | record | capacity | createdAt => exact .inl ⟨by simp [Slot.seq?], hcell⟩
  | kind m =>
    simp only [Channel.cell, Channel.step?_extend hlen] at hcell
    split at hcell
    · rename_i hm
      right
      rw [hm, h.kind, ← hcell]
      rfl
    · rename_i hm
      exact .inl ⟨by simpa [Slot.seq?] using hm, hcell⟩
  | state m field =>
    cases field with
    | capacity => cases hcell
    | status | b1 | b2 =>
      simp only [Channel.cell, Channel.step?_extend hlen] at hcell
      split at hcell
      · rename_i hm
        right
        first
          | rw [hm, h.status, ← hcell]; rfl
          | rw [hm, h.b1, ← hcell]; rfl
          | rw [hm, h.b2, ← hcell]; rfl
      · rename_i hm
        exact .inl ⟨by simpa [Slot.seq?] using hm, hcell⟩

end WritesStep
variable {sentinel capacity createdAt : UInt64}

/-- Writing the next step of a channel extends it. The number of the step does not wrap around, because its cells are
new ones and the vector has a length. -/
theorem Live.extend {db' : NucleusDb P} {c : Channel} {plan : List (Slot × UInt64)} {s : Step} (h : Live db base c)
    (hsound : db.keymap.Sound) (hplan : WritesStep plan (c.seq + 1) s) (hwritten : Written db (keyed base plan) db')
    (hbound : db'.state.values.length < 2 ^ 64) :
    Live db' base (c.extend s) := by
  have hshort := h.short
  have hindices := h.indices
  have hfresh := h.get_next_eq_none (show (Slot.kind (c.seq + 1)).seq? = some (c.seq + 1) from rfl)
  have hvalue := hwritten.valueAt_of_mem hsound ((last_keyed base plan _).trans hplan.kind)
  obtain ⟨idx, hidx, hlt, -⟩ := valueAt_eq_some hvalue
  have hnew : db.keymap.nextIndex ≤ idx := by
    rw [hwritten.keymap] at hidx
    exact KeyMap.nextIndex_le_of_get_register hfresh hidx
  have hbelow := (hwritten.sound hsound).below _ idx hidx
  have hlen : c.steps.length + 1 < 2 ^ 64 := by omega
  constructor
  case marked => exact h.marked
  case held =>
    intro slot v hcell
    rcases hplan.cell_extend hlen hcell with ⟨hother, hold⟩ | hlast
    · exact hwritten.valueAt_of_not_mem hsound (hplan.not_mem base hother) (h.held slot v hold)
    · exact hwritten.valueAt_of_mem hsound ((last_keyed base plan slot).trans hlast)
  case only =>
    intro key hread hsome
    rcases (hwritten.isSome_get key).mp hsome with hold | hmem
    · obtain ⟨slot, rfl, hwithin⟩ := h.only key hread hold
      refine ⟨slot, rfl, ?_⟩
      intro m hm
      obtain ⟨hne, hle⟩ := hwithin m hm
      refine ⟨hne, ?_⟩
      rw [Channel.steps_extend, List.length_append]
      omega
    · obtain ⟨w, hw, rfl⟩ := mem_keyed_fst hmem
      refine ⟨w.1, rfl, ?_⟩
      intro m hm
      obtain rfl := Option.some.inj ((hplan.only w hw).symm.trans hm)
      have hwrap := h.next_toNat
      rw [Nat.mod_eq_of_lt hlen] at hwrap
      constructor
      · intro h0
        rw [h0] at hwrap
        simp at hwrap
      · rw [hwrap, Channel.steps_extend, List.length_append]
        simp
  case short => simpa using hlen
  case indices =>
    rw [Channel.steps_extend, List.length_append, List.length_singleton]
    omega

/-! ### Opening -/

/-- There is no channel under the base. Keys of an opening that did not come about may be left. -/
structure Dormant (db : NucleusDb P) (base : String) : Prop where
  unmarked : word db base = 0
  only : ∀ key, ReadFor base key → (db.keymap.get key).isSome →
    ∃ slot : Slot, key = slot.key base ∧ ∀ seq, slot.seq? = some seq → seq = 1

def Channel.opened (sentinel capacity createdAt : UInt64) : Channel :=
  { sentinel, capacity, createdAt, earlier := [], last := ⟨1, .open_, capacity, 0⟩ }

theorem Dormant.existsChannel (h : Dormant db base) :
    existsChannel db base = false := by
  rw [← Bool.not_eq_true, existsChannel_iff]
  exact not_not.mpr h.unmarked

theorem Dormant.snapshot (h : Dormant db (channelBase p1 p2)) : channelSnapshot db p1 p2 = none := by
  rw [channelSnapshot_eq, if_neg]
  rw [h.existsChannel]
  simp

theorem seq?_openSlots {w : Slot × UInt64} (h : w ∈ openSlots sentinel capacity createdAt) (seq : UInt64)
    (hseq : w.1.seq? = some seq) : seq = 1 := by
  simp only [openSlots, List.mem_cons, List.not_mem_nil, or_false] at h
  rcases h with rfl | rfl | rfl | rfl | rfl | rfl | rfl <;> simp_all [Slot.seq?]

theorem cell_opened (h : (Channel.opened sentinel capacity createdAt).cell slot = some v) :
    Writes.last (openSlots sentinel capacity createdAt) slot = some v := by
  have hstep : ∀ {n : UInt64} {s : Step}, (Channel.opened sentinel capacity createdAt).step? n = some s →
      n = 1 ∧ s = ⟨1, .open_, capacity, 0⟩ := by
    intro n s hs
    unfold Channel.step? at hs
    split at hs
    · cases hs
    · rename_i hne
      obtain ⟨hlt, rfl⟩ := List.getElem?_eq_some_iff.mp hs
      have hpos : n.toNat ≠ 0 := fun heq => hne (UInt64.toNat_inj.mp heq)
      have hone : n.toNat = 1 := by
        simp [Channel.opened, Channel.steps] at hlt
        omega
      refine ⟨UInt64.toNat_inj.mp hone, ?_⟩
      simp [Channel.opened, Channel.steps]
  cases slot with
  | record | capacity | createdAt => exact h
  | kind n =>
    obtain ⟨s, hs, rfl⟩ := Option.map_eq_some_iff.mp h
    obtain ⟨rfl, rfl⟩ := hstep hs
    rfl
  | state n field =>
    cases field with
    | capacity => cases h
    | status | b1 | b2 =>
      obtain ⟨s, hs, rfl⟩ := Option.map_eq_some_iff.mp h
      obtain ⟨rfl, rfl⟩ := hstep hs
      rfl

section Opening

variable {db db' : NucleusDb P} {base : String} {sentinel capacity createdAt : UInt64}

theorem Dormant.only_of_written (h : Dormant db base)
    (hwritten : Written db (keyed base (openSlots sentinel capacity createdAt)) db') (key : String)
    (hread : ReadFor base key) (hsome : (db'.keymap.get key).isSome) :
    ∃ slot : Slot, key = slot.key base ∧ ∀ seq, slot.seq? = some seq → seq = 1 := by
  rcases (hwritten.isSome_get key).mp hsome with hold | hmem
  · exact h.only key hread hold
  · obtain ⟨w, hw, rfl⟩ := mem_keyed_fst hmem
    exact ⟨w.1, rfl, seq?_openSlots hw⟩

theorem Dormant.open_ (h : Dormant db base) (hsound : db.keymap.Sound) (hmark : sentinel ≠ 0)
    (hwritten : Written db (keyed base (openSlots sentinel capacity createdAt)) db') :
    Live db' base (Channel.opened sentinel capacity createdAt) where
  marked := hmark
  held slot v hcell := hwritten.valueAt_of_mem hsound ((last_keyed base _ slot).trans (cell_opened hcell))
  only key hread hsome := by
    obtain ⟨slot, rfl, hone⟩ := h.only_of_written hwritten key hread hsome
    refine ⟨slot, rfl, ?_⟩
    intro seq hseq
    rw [hone seq hseq]
    exact ⟨by decide, by simp [Channel.opened, Channel.steps]⟩
  short := by simp [Channel.opened, Channel.steps]
  indices := by
    have hvalue := hwritten.valueAt_of_mem hsound (last_keyed base (openSlots sentinel capacity createdAt) .capacity)
    obtain ⟨idx, hidx, -⟩ := valueAt_eq_some hvalue
    have hbelow := (hwritten.sound hsound).below _ idx hidx
    have hlen : (Channel.opened sentinel capacity createdAt).steps.length = 1 := rfl
    omega

theorem Dormant.unopened (h : Dormant db base) (hsound : db.keymap.Sound) (hmark : sentinel = 0)
    (hwritten : Written db (keyed base (openSlots sentinel capacity createdAt)) db') : Dormant db' base where
  unmarked := by
    have hword := hwritten.word hsound (Slot.record.key base)
    rw [last_keyed, key_record] at hword
    rw [hword]
    exact hmark
  only := h.only_of_written hwritten

end Opening

/-! ### Operations on a channel -/

/-- The step that an operation on an existing channel takes. -/
def SettlementOp.step (op : SettlementOp) (c : Channel) : Step :=
  match op with
  | .open_ .. => c.last
  | .update _ _ balance1 balance2 => ⟨4, .open_, balance1, balance2⟩
  | .close .. => ⟨2, .closed, c.last.b1, c.last.b2⟩
  | .splice _ _ newCapacity => ⟨3, .open_, min c.last.b1 newCapacity, saturatingSub newCapacity (min c.last.b1 newCapacity)⟩

theorem writesStep_stepSlots (op : SettlementOp) (seq : UInt64) (status : ChannelStatus) (b1 b2 : UInt64) :
    WritesStep (stepSlots op seq status b1 b2) seq ⟨opCode op, status, b1, b2⟩ where
  kind := by simp [stepSlots, Writes.last]
  status := by simp [stepSlots, Writes.last]
  b1 := by simp [stepSlots, Writes.last]
  b2 := by simp [stepSlots, Writes.last]
  only := by simp [stepSlots, Slot.seq?]

section Planned

variable {db : NucleusDb P} {c : Channel} {createdAt : UInt64} {plan : List (Slot × UInt64)}

theorem Live.plan_open {capacity : UInt64} (h : Live db (channelBase p1 p2) c) :
    (SettlementOp.open_ p1 p2 capacity).plan db createdAt = .error .channelAlreadyExists := if_pos h.existsChannel

theorem Live.plan_update {balance1 balance2 : UInt64} (h : Live db (channelBase p1 p2) c) :
    (SettlementOp.update p1 p2 balance1 balance2).plan db createdAt =
      if saturatingAdd balance1 balance2 ≠ c.capacity then .error (.invalidConservation balance1 balance2 c.capacity)
      else if c.last.status ≠ .open_ then .error .channelNotOpen
      else .ok (stepSlots (.update p1 p2 balance1 balance2) (c.seq + 1) .open_ balance1 balance2) := by
  have hbase : (SettlementOp.update p1 p2 balance1 balance2).base = channelBase p1 p2 := rfl
  unfold SettlementOp.plan
  dsimp only
  rw [hbase, h.existsChannel, h.capacityFor, h.latestSeq, h.word h.cell_status, statusFromCode_statusCode]
  rw [if_neg (by decide)]
  dsimp only
  rw [if_neg (Channel.seq_ne_zero h.short)]

theorem Live.plan_update_of_open {balance1 balance2 : UInt64} (h : Live db (channelBase p1 p2) c)
    (hsum : saturatingAdd balance1 balance2 = c.capacity) (hopen : c.last.status = .open_) :
    (SettlementOp.update p1 p2 balance1 balance2).plan db createdAt =
      .ok (stepSlots (.update p1 p2 balance1 balance2) (c.seq + 1) .open_ balance1 balance2) := by
  rw [h.plan_update, if_neg (not_not.mpr hsum), if_neg (not_not.mpr hopen)]

theorem Live.plan_close (h : Live db (channelBase p1 p2) c) : (SettlementOp.close p1 p2).plan db createdAt =
      .ok (stepSlots (.close p1 p2) (c.seq + 1) .closed c.last.b1 c.last.b2) := by
  have hbase : (SettlementOp.close p1 p2).base = channelBase p1 p2 := rfl
  unfold SettlementOp.plan
  dsimp only
  rw [hbase, h.existsChannel, h.latestSeq, h.word h.cell_b1, h.word h.cell_b2, if_neg (by decide),
    if_neg (Channel.seq_ne_zero h.short)]

theorem Live.plan_splice {newCapacity : UInt64} (h : Live db (channelBase p1 p2) c) :
    (SettlementOp.splice p1 p2 newCapacity).plan db createdAt =
      .ok [(.kind (c.seq + 1), 3), (.state (c.seq + 1) .status, 1), (.state (c.seq + 1) .capacity, newCapacity),
        (.state (c.seq + 1) .b1, min c.last.b1 newCapacity),
        (.state (c.seq + 1) .b2, saturatingSub newCapacity (min c.last.b1 newCapacity))] := by
  have hbase : (SettlementOp.splice p1 p2 newCapacity).base = channelBase p1 p2 := rfl
  unfold SettlementOp.plan
  dsimp only
  rw [hbase, h.existsChannel, h.latestSeq, h.word h.cell_b1, if_neg (by decide)]

theorem Live.writesStep {op : SettlementOp} (h : Live db op.base c) (hplan : op.plan db createdAt = .ok plan) :
    WritesStep plan (c.seq + 1) (op.step c) := by
  cases op with
  | open_ p1 p2 capacity =>
    rw [h.plan_open] at hplan
    cases hplan
  | update p1 p2 balance1 balance2 =>
    rw [h.plan_update] at hplan
    split at hplan
    · cases hplan
    · split at hplan
      · cases hplan
      · rw [← Except.ok.inj hplan]
        exact writesStep_stepSlots _ _ _ _ _
  | close p1 p2 =>
    rw [h.plan_close] at hplan
    rw [← Except.ok.inj hplan]
    exact writesStep_stepSlots _ _ _ _ _
  | splice p1 p2 newCapacity =>
    rw [h.plan_splice] at hplan
    rw [← Except.ok.inj hplan]
    constructor
    case only => simp [Slot.seq?]
    all_goals simp [Writes.last, SettlementOp.step, statusCode]

end Planned

end AgentHalo.Pcn
