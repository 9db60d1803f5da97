import AgentHalo.Engine.Registration
import AgentHalo.Pcn.Keys

/-!
# What a view of a channel depends on

The two scans of `latest_seq` come down to one: the first never finds anything, because a key that is a number all the
way to its end has no colon after the number. With that, the current step is the largest number among the scanned keys,
and the list of operations is an index over them. `SameView` collects what two databases must agree on for the views of
a channel to agree.
-/

namespace AgentHalo.Pcn

open Text (startsWith endsWith after stripPrefix splitOnce parseU64 startsWith_iff)
open Engine (NucleusDb State)
open Store (KeyMap)

variable {P : Platform}

/-! ### Words -/

def word (db : NucleusDb P) (key : String) : UInt64 := (valueAt db key).getD 0

variable {db : NucleusDb P} {key base : String} {idx : Nat} {n seq : UInt64}

theorem word_of_get (h : db.keymap.get key = some idx) :
    word db key = db.state.cell idx := by
  unfold word valueAt State.cell
  rw [h, Option.bind_some]

theorem word_of_absent (h : db.keymap.get key = none) : word db key = 0 := by
  unfold word valueAt
  rw [h]
  rfl

theorem existsChannel_iff (db : NucleusDb P) (base : String) : existsChannel db base = true ↔ word db base ≠ 0 := by
  unfold existsChannel
  rw [bne_iff_ne]
  rfl

theorem valueAt_of_lt (h : db.keymap.get key = some idx) (hlt : idx < db.state.values.length) :
    valueAt db key = some (db.state.cell idx) := by
  unfold valueAt
  rw [h, Option.bind_some, Engine.getElem?_values_of_lt hlt]

theorem valueAt_eq_some {v : UInt64} (h : valueAt db key = some v) :
    ∃ idx, db.keymap.get key = some idx ∧ idx < db.state.values.length ∧ db.state.cell idx = v := by
  unfold valueAt at h
  obtain ⟨idx, hidx, hv⟩ := Option.bind_eq_some_iff.mp h
  obtain ⟨hlt, rfl⟩ := List.getElem?_eq_some_iff.mp hv
  refine ⟨idx, hidx, hlt, ?_⟩
  unfold State.cell
  rw [List.getElem?_eq_getElem hlt, Option.getD_some]

theorem statusFromCode_getD (v : Option UInt64) : statusFromCode (v.getD 1) = statusFromCode (v.getD 0) := by
  cases v <;> rfl

theorem valueAt_status (db : NucleusDb P) (base : String) (seq : UInt64) :
    statusFromCode ((valueAt db (base ++ ":state:" ++ toString seq ++ ":status")).getD 1) =
      statusFromCode (word db ((Slot.state seq .status).key base)) := by
  rw [statusFromCode_getD, key_state]
  rfl

/-! ### The current step -/

theorem colon_not_mem_of_parseU64 {s : String} (h : parseU64 s = some n) : ':' ∉ s.toList := by
  have hdigits : ∀ {cs : List Char} {k : Nat}, Text.digitsValue cs = some k → ':' ∉ cs := by
    intro cs k hk hmem
    unfold Text.digitsValue at hk
    split at hk
    · cases hk
    · rename_i hall
      simp only [Bool.or_eq_true, Bool.not_eq_true', not_or, Bool.not_eq_false, List.all_eq_true] at hall
      exact absurd (hall.2 ':' hmem) (by decide)
  unfold parseU64 at h
  obtain ⟨k, hk, -⟩ := Option.bind_eq_some_iff.mp h
  intro hmem
  split at hk
  · rename_i rest hlist
    rw [hlist] at hmem
    rcases List.mem_cons.mp hmem with hplus | hrest
    · exact absurd hplus (by decide)
    · exact hdigits hk hrest
  · exact hdigits hk hmem

theorem stripPrefix_of_parseSeqFromKey {raw : UInt64} (h : parseSeqFromKey (base ++ ":state:") key = some raw) :
    stripPrefix key (base ++ ":state:" ++ toString raw ++ ":") = none := by
  unfold parseSeqFromKey at h
  split at h
  · cases h
  rename_i hstarts
  rw [Bool.not_eq_true', Bool.not_eq_false] at hstarts
  obtain ⟨rest, rfl⟩ := (startsWith_iff _ _).mp hstarts
  rw [Text.after_append] at h
  unfold stripPrefix
  rw [if_neg]
  intro hfield
  rw [@String.append_assoc (base ++ ":state:"), Text.startsWith_append_append] at hfield
  obtain ⟨tail, rfl⟩ := (startsWith_iff _ _).mp hfield
  refine colon_not_mem_of_parseU64 h ?_
  simp [String.toList_append]

theorem foldl_scanWhole (base : String) (l : List (String × Nat)) : l.foldl (scanWhole base) 0 = 0 := by
  induction l with
  | nil => rfl
  | cons entry rest ih =>
    have hstep : scanWhole base 0 entry = 0 := by
      unfold scanWhole
      cases hraw : parseSeqFromKey (base ++ ":state:") entry.1 with
      | none => rfl
      | some raw =>
        dsimp only
        rw [stripPrefix_of_parseSeqFromKey hraw]
        rfl
    rw [List.foldl_cons, hstep, ih]

theorem scanField_eq (base : String) (best : UInt64) (entry : String × Nat) :
    scanField base best entry = ((stateSeq base entry.1).map (max best)).getD best := by
  unfold scanField stateSeq seqField
  dsimp only
  cases startsWith entry.1 (base ++ ":state:") with
  | false => rfl
  | true =>
    rw [if_neg (by decide), if_pos rfl]
    cases splitOnce ':' (after (base ++ ":state:") entry.1) with
    | none => rfl
    | some parts =>
      dsimp only [Option.bind_some]
      cases parseU64 parts.1 <;> rfl

theorem latestSeq_eq (db : NucleusDb P) (base : String) :
    latestSeq db base = (db.keymap.allKeys.filterMap fun kv => stateSeq base kv.1).foldl max 0 := by
  unfold latestSeq
  dsimp only
  rw [foldl_scanWhole, if_neg (by decide), List.foldl_filterMap]
  congr 1
  funext best entry
  rw [scanField_eq]
  cases stateSeq base entry.1 <;> rfl

theorem max_spec (a b : UInt64) : a ≤ max a b ∧ b ≤ max a b ∧ (max a b = a ∨ max a b = b) := by
  have hmax : max a b = if a ≤ b then b else a := rfl
  rw [hmax]
  split
  · rename_i hle
    exact ⟨hle, UInt64.le_refl b, .inr rfl⟩
  · rename_i hle
    exact ⟨UInt64.le_refl a, (UInt64.le_total a b).resolve_left hle, .inl rfl⟩

theorem max_succ (h : n ≠ 0xFFFFFFFFFFFFFFFF) : max n (n + 1) = n + 1 := by
  have hne : n.toNat ≠ 2 ^ 64 - 1 := fun heq => h (UInt64.toNat_inj.mp heq)
  have hlt := n.toNat_lt
  have hsucc : (n + 1).toNat = n.toNat + 1 := by
    rw [UInt64.toNat_add]
    exact Nat.mod_eq_of_lt (by simp; omega)
  obtain ⟨-, hle, hcase⟩ := max_spec n (n + 1)
  rcases hcase with hmax | hmax
  · rw [hmax, UInt64.le_iff_toNat_le, hsucc] at hle
    omega
  · exact hmax

theorem le_foldl_max (l : List UInt64) (best : UInt64) : best ≤ l.foldl max best ∧ ∀ x ∈ l, x ≤ l.foldl max best := by
  induction l generalizing best with
  | nil => simp
  | cons y rest ih =>
    obtain ⟨hbest, hrest⟩ := ih (max best y)
    rw [List.foldl_cons]
    refine ⟨UInt64.le_trans (max_spec best y).1 hbest, ?_⟩
    intro x hx
    rcases List.mem_cons.mp hx with rfl | hmem
    · exact UInt64.le_trans (max_spec best x).2.1 hbest
    · exact hrest x hmem

theorem foldl_max_mem (l : List UInt64) (best : UInt64) : l.foldl max best = best ∨ l.foldl max best ∈ l := by
  induction l generalizing best with
  | nil => exact .inl rfl
  | cons y rest ih =>
    rw [List.foldl_cons]
    rcases ih (max best y) with hsame | hmem
    · rcases (max_spec best y).2.2 with h | h
      · exact .inl (hsame.trans h)
      · right
        rw [hsame, h]
        exact List.mem_cons_self
    · exact .inr (List.mem_cons_of_mem y hmem)

theorem mem_scanned (m : KeyMap) (base : String) (seq : UInt64) :
    seq ∈ m.allKeys.filterMap (fun kv => stateSeq base kv.1) ↔
      ∃ key, (m.get key).isSome ∧ stateSeq base key = some seq := by
  rw [List.mem_filterMap]
  constructor
  · rintro ⟨⟨key, idx⟩, hmem, hseq⟩
    refine ⟨key, ?_, hseq⟩
    rw [(m.mem_allKeys key idx).mp hmem]
    rfl
  · rintro ⟨key, hsome, hseq⟩
    obtain ⟨idx, hidx⟩ := Option.isSome_iff_exists.mp hsome
    exact ⟨(key, idx), (m.mem_allKeys key idx).mpr hidx, hseq⟩

theorem latestSeq_eq_of_max (hmem : seq = 0 ∨ ∃ key, (db.keymap.get key).isSome ∧ stateSeq base key = some seq)
    (hmax : ∀ key n, (db.keymap.get key).isSome → stateSeq base key = some n → n ≤ seq) : latestSeq db base = seq := by
  rw [latestSeq_eq]
  obtain ⟨-, hle⟩ := le_foldl_max (db.keymap.allKeys.filterMap fun kv => stateSeq base kv.1) 0
  refine UInt64.le_antisymm ?_ ?_
  · rcases foldl_max_mem (db.keymap.allKeys.filterMap fun kv => stateSeq base kv.1) 0 with hzero | hin
    · rw [hzero]
      exact UInt64.zero_le
    · obtain ⟨key, hsome, hseq⟩ := (mem_scanned _ _ _).mp hin
      exact hmax key _ hsome hseq
  · rcases hmem with rfl | hmem
    · exact UInt64.zero_le
    · exact hle seq ((mem_scanned _ _ _).mpr hmem)

theorem latestSeq_mem (db : NucleusDb P) (base : String) :
    latestSeq db base = 0 ∨ ∃ key, (db.keymap.get key).isSome ∧ stateSeq base key = some (latestSeq db base) := by
  rw [← mem_scanned, latestSeq_eq]
  exact foldl_max_mem _ 0

theorem le_latestSeq (hkey : (db.keymap.get key).isSome) (hseq : stateSeq base key = some seq) : seq ≤ latestSeq db base := by
  rw [latestSeq_eq]
  exact (le_foldl_max _ 0).2 seq ((mem_scanned _ _ _).mpr ⟨key, hkey, hseq⟩)

/-! ### The operations -/

theorem indexOp_eq (db : NucleusDb P) (base : String) (index : OrdMap UInt64 String) (entry : String × Nat) :
    indexOp db base index entry =
      ((opSeq base entry.1).map fun seq => index.insert seq (opName (db.state.cell entry.2))).getD index := by
  unfold indexOp opSeq seqField
  dsimp only
  cases startsWith entry.1 (base ++ ":ops:") with
  | false => rfl
  | true =>
    cases endsWith entry.1 ":kind" with
    | false => rfl
    | true =>
      rw [if_neg (by decide), if_pos (by decide)]
      cases splitOnce ':' (after (base ++ ":ops:") entry.1) with
      | none => rfl
      | some parts =>
        dsimp only [Option.bind_some]
        cases parseU64 parts.1 <;> rfl

/-- The scanned operations with their names, in key order. -/
def opEntries (db : NucleusDb P) (base : String) : List (UInt64 × String) :=
  db.keymap.allKeys.filterMap fun kv => (opSeq base kv.1).map fun seq => (seq, opName (db.state.cell kv.2))

theorem opIndex_eq (db : NucleusDb P) (base : String) :
    opIndex db base = (opEntries db base).foldl (fun index entry => index.insert entry.1 entry.2) ∅ := by
  unfold opIndex opEntries
  rw [List.foldl_filterMap]
  congr 1
  funext index entry
  rw [indexOp_eq]
  cases opSeq base entry.1 <;> rfl

/-! ### Agreement -/

/-- The databases agree on what is read for the channel. -/
structure SameView (base : String) (db db' : NucleusDb P) : Prop where
  keys : ∀ key, ReadFor base key → db'.keymap.get key = db.keymap.get key
  words : ∀ key, ReadFor base key → word db' key = word db key
  capacity : existsChannel db base = true → capacityFor db' base = capacityFor db base

namespace SameView

variable {base : String} {db db' : NucleusDb P}

theorem refl (base : String) (db : NucleusDb P) : SameView base db db := ⟨fun _ _ => rfl, fun _ _ => rfl, fun _ => rfl⟩

theorem existsChannel (h : SameView base db db') : existsChannel db' base = existsChannel db base := by
  rw [Bool.eq_iff_iff, existsChannel_iff, existsChannel_iff, h.words base (.inl rfl)]

theorem stateSeq_eq_none {key : String} (h : ¬ ReadFor base key) : stateSeq base key = none := by
  by_contra hsome
  exact h (.inr (.inr (.inr (.inl (Option.isSome_iff_ne_none.mpr hsome)))))

theorem opSeq_eq_none {key : String} (h : ¬ ReadFor base key) : opSeq base key = none := by
  by_contra hsome
  exact h (.inr (.inr (.inr (.inr (Option.isSome_iff_ne_none.mpr hsome)))))

theorem latestSeq (h : SameView base db db') : latestSeq db' base = latestSeq db base := by
  rw [latestSeq_eq, latestSeq_eq]
  congr 1
  exact KeyMap.filterMap_allKeys_congr (ReadFor base) h.keys (fun kv => stateSeq_eq_none) (fun kv => stateSeq_eq_none)
    fun kv _ _ => rfl

theorem opIndex (h : SameView base db db') : opIndex db' base = opIndex db base := by
  have hskip : ∀ (db : NucleusDb P) (kv : String × Nat), ¬ ReadFor base kv.1 →
      ((opSeq base kv.1).map fun seq => (seq, opName (db.state.cell kv.2))) = none := by
    intro db kv hread
    rw [opSeq_eq_none hread]
    rfl
  rw [opIndex_eq, opIndex_eq]
  congr 1
  refine KeyMap.filterMap_allKeys_congr (ReadFor base) h.keys (hskip db) (hskip db') ?_
  rintro ⟨key, idx⟩ hmem hread
  -- the two databases have the key at the same index
  have hget := (db.keymap.mem_allKeys key idx).mp hmem
  have hword := h.words key hread
  rw [word_of_get hget, word_of_get ((h.keys key hread).trans hget)] at hword
  dsimp only
  rw [hword]

theorem word_key (h : SameView base db db') (slot : Slot) : word db' (slot.key base) = word db (slot.key base) :=
  h.words _ (readFor_key base slot)

end SameView
variable {p1 p2 : String}

theorem SameView.of_eq (hkeymap : db'.keymap = db.keymap) (hstate : db'.state = db.state) (base : String) :
    SameView base db db' := by
  have hvalue : ∀ key, valueAt db' key = valueAt db key := by
    intro key
    unfold valueAt
    rw [hkeymap, hstate]
  exact ⟨fun key _ => by rw [hkeymap], fun key _ => congrArg (·.getD 0) (hvalue key), fun _ => hvalue _⟩

/-- The fields of a snapshot, read slot by slot. -/
def slotSnapshot (db : NucleusDb P) (p1 p2 : String) (capacity : UInt64) : ChannelSnapshot :=
  let base := channelBase p1 p2
  let seq := latestSeq db base
  { record :=
      { participant1 := (canonicalPair p1 p2).1, participant2 := (canonicalPair p1 p2).2, capacity
        status := statusFromCode (word db ((Slot.state seq .status).key base))
        createdAt := word db (Slot.createdAt.key base), lastSeq := seq }
    balance1 := word db ((Slot.state seq .b1).key base)
    balance2 := word db ((Slot.state seq .b2).key base)
    ops := (opIndex db base).toList.map fun (seq, kind) => ⟨seq, kind⟩ }

theorem channelSnapshot_eq (db : NucleusDb P) (p1 p2 : String) :
    channelSnapshot db p1 p2 =
      if existsChannel db (channelBase p1 p2) = true ∧ latestSeq db (channelBase p1 p2) ≠ 0 then
        (capacityFor db (channelBase p1 p2)).map (slotSnapshot db p1 p2)
      else none := by
  unfold channelSnapshot
  dsimp only
  cases hexists : existsChannel db (channelBase p1 p2) with
  | false => simp
  | true =>
    rw [if_neg (by decide)]
    cases capacityFor db (channelBase p1 p2) with
    | none => simp
    | some capacity =>
      dsimp only
      by_cases hseq : latestSeq db (channelBase p1 p2) = 0
      · rw [if_pos hseq, if_neg (by simp [hseq])]
      · rw [if_neg hseq, if_pos ⟨rfl, hseq⟩, valueAt_status, Option.map_some]
        unfold slotSnapshot
        simp only [key_state]
        rfl

theorem SameView.slotSnapshot (h : SameView (channelBase p1 p2) db db') :
    slotSnapshot db' p1 p2 = slotSnapshot db p1 p2 := by
  funext capacity
  unfold Pcn.slotSnapshot
  dsimp only
  rw [h.latestSeq, h.opIndex]
  simp only [h.word_key]

theorem SameView.snapshot (h : SameView (channelBase p1 p2) db db') :
    channelSnapshot db' p1 p2 = channelSnapshot db p1 p2 := by
  rw [channelSnapshot_eq, channelSnapshot_eq, h.existsChannel, h.latestSeq, h.slotSnapshot]
  split
  · rename_i hlive
    rw [h.capacity hlive.1]
  · rfl

end AgentHalo.Pcn
