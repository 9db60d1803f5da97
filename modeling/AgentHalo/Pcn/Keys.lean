import AgentHalo.Pcn.Adapter

/-!
# The keys of a channel

A channel is written under five kinds of keys, its slots, and read back by name, with a scan for its steps. Two channels
get in each other's way exactly when a key written for one is read for the other; `Apart` says that this does not happen.
A base that neither is another base nor continues one after a colon (`Separate`) shares no key with it.
-/

namespace AgentHalo.Pcn

open Text (startsWith endsWith after splitOnce parseU64 startsWith_iff endsWith_iff)

/-! ### Slots -/

inductive StateField where
  | status
  | capacity
  | b1
  | b2
deriving DecidableEq, Repr

def StateField.name : StateField → String
  | .status => "status"
  | .capacity => "capacity"
  | .b1 => "b1"
  | .b2 => "b2"

theorem StateField.name_inj {f g : StateField} (h : f.name = g.name) : f = g := by
  cases f <;> cases g <;> first | rfl | exact absurd h (by decide)

inductive Slot where
  | record
  | capacity
  | createdAt
  | kind (seq : UInt64)
  | state (seq : UInt64) (field : StateField)
deriving DecidableEq, Repr

/-- What follows the base in the key of a slot. -/
def Slot.tail : Slot → String
  | .record => ""
  | .capacity => ":meta:capacity"
  | .createdAt => ":meta:created_at"
  | .kind seq => ":ops:" ++ (toString seq ++ (":" ++ "kind"))
  | .state seq field => ":state:" ++ (toString seq ++ (":" ++ field.name))

def Slot.key (base : String) (slot : Slot) : String := base ++ slot.tail

def Slot.seq? : Slot → Option UInt64
  | .kind seq | .state seq _ => some seq
  | _ => none

@[simp] theorem key_record (base : String) : Slot.record.key base = base := String.append_empty

theorem key_kind (base : String) (seq : UInt64) :
    (Slot.kind seq).key base = base ++ ":ops:" ++ toString seq ++ ":kind" := by
  simp [Slot.key, Slot.tail, String.append_assoc]

theorem key_state (base : String) (seq : UInt64) (field : StateField) :
    (Slot.state seq field).key base = base ++ ":state:" ++ toString seq ++ (":" ++ field.name) := by
  simp [Slot.key, Slot.tail, String.append_assoc]

/-! ### Scanned keys -/

def seqField (s : String) : Option UInt64 := (splitOnce ':' s).bind fun parts => parseU64 parts.1

/-- The step of a key that `latest_seq` counts. -/
def stateSeq (base key : String) : Option UInt64 :=
  if startsWith key (base ++ ":state:") then seqField (after (base ++ ":state:") key) else none

/-- The step of a key that the list of operations counts. -/
def opSeq (base key : String) : Option UInt64 :=
  if startsWith key (base ++ ":ops:") && endsWith key ":kind" then seqField (after (base ++ ":ops:") key) else none

theorem seqField_toString (seq : UInt64) (field : String) : seqField (toString seq ++ (":" ++ field)) = some seq := by
  have hsplit := Text.splitOnce_append (Text.colon_not_mem_toString seq.toNat) field
  rw [String.append_assoc] at hsplit
  unfold seqField
  have hsplit' : splitOnce ':' (toString seq ++ (":" ++ field)) = some (toString seq, field) := hsplit
  rw [hsplit', Option.bind_some, Text.parseU64_toString]

variable {base key p q p1 p2 q1 q2 : String}

theorem startsWith_key_of_tail {slot : Slot} {pre : String}
    (h : startsWith slot.tail pre = false) : startsWith (slot.key base) (base ++ pre) = false := by
  unfold Slot.key
  rw [Text.startsWith_append_append, h]

theorem stateSeq_key (base : String) (slot : Slot) :
    stateSeq base (slot.key base) = match slot with | .state seq _ => some seq | _ => none := by
  unfold stateSeq
  cases slot with
  | state seq field =>
    have hkey : (Slot.state seq field).key base = (base ++ ":state:") ++ (toString seq ++ (":" ++ field.name)) := by
      unfold Slot.key Slot.tail
      rw [String.append_assoc]
    rw [hkey, Text.startsWith_append, if_pos rfl, Text.after_append]
    exact seqField_toString seq field.name
  | _ =>
    rw [startsWith_key_of_tail (by simp [Slot.tail, startsWith, List.isPrefixOf]), if_neg (by decide)]

theorem opSeq_key (base : String) (slot : Slot) :
    opSeq base (slot.key base) = match slot with | .kind seq => some seq | _ => none := by
  unfold opSeq
  cases slot with
  | kind seq =>
    have hkey : (Slot.kind seq).key base = (base ++ ":ops:") ++ (toString seq ++ (":" ++ "kind")) := by
      unfold Slot.key Slot.tail
      rw [String.append_assoc]
    have hends : endsWith ((Slot.kind seq).key base) ":kind" = true := by
      refine (endsWith_iff _ _).mpr ⟨base ++ ":ops:" ++ toString seq, ?_⟩
      exact key_kind base seq
    rw [hends, Bool.and_true, hkey, Text.startsWith_append, if_pos rfl, Text.after_append]
    exact seqField_toString seq "kind"
  | _ =>
    rw [startsWith_key_of_tail (by simp [Slot.tail, startsWith, List.isPrefixOf]), Bool.false_and, if_neg (by decide)]

theorem tail_inj {s t : Slot} (h : s.tail = t.tail) : s = t := by
  have hstate : stateSeq "" (s.key "") = stateSeq "" (t.key "") := by unfold Slot.key; rw [h]
  have hop : opSeq "" (s.key "") = opSeq "" (t.key "") := by unfold Slot.key; rw [h]
  rw [stateSeq_key, stateSeq_key] at hstate
  rw [opSeq_key, opSeq_key] at hop
  cases s with
  | kind m =>
    cases t with
    | kind n => rw [Option.some.inj hop]
    | _ => cases hop
  | state m f =>
    cases t with
    | state n g =>
      obtain rfl := Option.some.inj hstate
      have hrest := (String.append_right_inj ":state:").mp h
      have hfield := (String.append_right_inj ":").mp ((String.append_right_inj (toString m)).mp hrest)
      rw [StateField.name_inj hfield]
    | _ => cases hstate
  | _ =>
    cases t with
    | kind n => cases hop
    | state n g => cases hstate
    | _ => first | rfl | exact absurd h (by decide)

theorem key_inj {s t : Slot} (h : s.key base = t.key base) : s = t :=
  tail_inj ((String.append_right_inj base).mp h)

/-! ### Keys under a base -/

/-- The key is the base or continues it after a colon. -/
def Under (base key : String) : Prop := key = base ∨ ∃ rest, key = base ++ (":" ++ rest)

/-- Neither base is the other one or continues it after a colon. -/
def Separate (p q : String) : Prop := ¬ Under p q ∧ ¬ Under q p

theorem under_of_startsWith (pre : String) (h : startsWith key (base ++ (":" ++ pre)) = true) : Under base key := by
  obtain ⟨rest, rfl⟩ := (startsWith_iff _ _).mp h
  right
  exact ⟨pre ++ rest, by simp only [String.append_assoc]⟩

theorem under_key (base : String) (slot : Slot) : Under base (slot.key base) := by
  have hcolon : slot = .record ∨ startsWith slot.tail ":" = true := by
    cases slot with
    | record => exact .inl rfl
    | _ =>
      right
      simp [Slot.tail, startsWith, List.isPrefixOf]
  rcases hcolon with rfl | htail
  · left
    exact key_record base
  · obtain ⟨rest, hrest⟩ := (startsWith_iff _ _).mp htail
    right
    refine ⟨rest, ?_⟩
    unfold Slot.key
    rw [hrest]

theorem Under.comparable (hp : Under p key) (hq : Under q key) : Under p q ∨ Under q p := by
  -- of two prefixes of one list the longer continues the shorter, here at a colon
  have hcut : ∀ {p q : String} {rest t : List Char}, q.toList = p.toList ++ t →
      q.toList ++ rest = p.toList ++ ':' :: key.toList.drop (p.toList.length + 1) → Under p q := by
    intro p q rest t ht heq
    rw [ht, List.append_assoc, List.append_right_inj] at heq
    cases t with
    | nil =>
      left
      rw [← String.toList_inj, ht, List.append_nil]
    | cons c t =>
      right
      obtain ⟨rfl, -⟩ := List.cons.inj heq
      refine ⟨String.ofList t, ?_⟩
      rw [← String.toList_inj, ht]
      simp [String.toList_append]
  rcases hp with rfl | ⟨restP, hkeyP⟩
  · exact .inr hq
  · rcases hq with rfl | ⟨restQ, hkeyQ⟩
    · exact .inl (.inr ⟨restP, hkeyP⟩)
    · have hlistP : key.toList = p.toList ++ ':' :: restP.toList := by rw [hkeyP]; simp [String.toList_append]
      have hlistQ : key.toList = q.toList ++ ':' :: restQ.toList := by rw [hkeyQ]; simp [String.toList_append]
      have hdropP : key.toList = p.toList ++ ':' :: key.toList.drop (p.toList.length + 1) := by
        rw [hlistP]
        simp
      have hdropQ : key.toList = q.toList ++ ':' :: key.toList.drop (q.toList.length + 1) := by
        rw [hlistQ]
        simp
      rcases List.prefix_or_prefix_of_prefix ⟨_, hlistP.symm⟩ ⟨_, hlistQ.symm⟩ with ⟨t, ht⟩ | ⟨t, ht⟩
      · exact .inl (hcut ht.symm (hlistQ.symm.trans hdropP))
      · exact .inr (hcut ht.symm (hlistP.symm.trans hdropQ))

theorem Separate.not_under (h : Separate p q) (hp : Under p key) : ¬ Under q key := by
  intro hq
  rcases hp.comparable hq with hpq | hqp
  · exact h.1 hpq
  · exact h.2 hqp

/-! ### Keys read for a channel -/

/-- The keys whose presence or cell a snapshot of the channel depends on. -/
def ReadFor (base key : String) : Prop :=
  key = base ∨ key = Slot.capacity.key base ∨ key = Slot.createdAt.key base ∨ (stateSeq base key).isSome ∨
    (opSeq base key).isSome

/-- No key that the channel at `p` may write is read for the channel at `q`. -/
def Apart (p q : String) : Prop := ∀ slot : Slot, ¬ ReadFor q (slot.key p)

theorem readFor_key (base : String) (slot : Slot) : ReadFor base (slot.key base) := by
  cases slot with
  | record => exact .inl (key_record base)
  | capacity => exact .inr (.inl rfl)
  | createdAt => exact .inr (.inr (.inl rfl))
  | kind seq =>
    refine .inr (.inr (.inr (.inr ?_)))
    rw [opSeq_key]
    rfl
  | state seq field =>
    refine .inr (.inr (.inr (.inl ?_)))
    rw [stateSeq_key]
    rfl

theorem ReadFor.under (h : ReadFor base key) : Under base key := by
  rcases h with rfl | rfl | rfl | hstate | hop
  · exact .inl rfl
  · exact under_key base .capacity
  · exact under_key base .createdAt
  · unfold stateSeq at hstate
    split at hstate
    · rename_i hstarts
      exact under_of_startsWith "state:" hstarts
    · cases hstate
  · unfold opSeq at hop
    split at hop
    · rename_i hstarts
      rw [Bool.and_eq_true] at hstarts
      exact under_of_startsWith "ops:" hstarts.1
    · cases hop

theorem Separate.apart (h : Separate p q) : Apart p q :=
  fun slot hread => h.not_under (under_key p slot) hread.under

/-! ### Bases of pairs -/

theorem canonicalPair_comm (p1 p2 : String) : canonicalPair p1 p2 = canonicalPair p2 p1 := by
  unfold canonicalPair
  by_cases h : p1 ≤ p2
  · by_cases h' : p2 ≤ p1
    · rw [if_pos h, if_pos h', String.le_antisymm h h']
    · rw [if_pos h, if_neg h']
  · rw [if_neg h, if_pos ((String.le_total p1 p2).resolve_left h)]

theorem channelBase_comm (p1 p2 : String) : channelBase p1 p2 = channelBase p2 p1 := by
  unfold channelBase
  rw [canonicalPair_comm]

theorem canonicalPair_cases (p1 p2 : String) :
    canonicalPair p1 p2 = (p1, p2) ∨ canonicalPair p1 p2 = (p2, p1) := by
  unfold canonicalPair
  split
  · exact .inl rfl
  · exact .inr rfl

/-- The two names are those of the pair, in either order. -/
def SamePair (p1 p2 q1 q2 : String) : Prop := (p1 = q1 ∧ p2 = q2) ∨ (p1 = q2 ∧ p2 = q1)

instance (p1 p2 q1 q2 : String) : Decidable (SamePair p1 p2 q1 q2) := inferInstanceAs (Decidable (_ ∨ _))

theorem SamePair.channelBase_eq (h : SamePair p1 p2 q1 q2) : channelBase p1 p2 = channelBase q1 q2 := by
  rcases h with ⟨rfl, rfl⟩ | ⟨rfl, rfl⟩
  · rfl
  · exact channelBase_comm p1 p2

theorem samePair_of_canonicalPair_eq (h : canonicalPair p1 p2 = canonicalPair q1 q2) : SamePair p1 p2 q1 q2 := by
  rcases canonicalPair_cases p1 p2 with hp | hp <;> rcases canonicalPair_cases q1 q2 with hq | hq <;>
    rw [hp, hq] at h <;> obtain ⟨h1, h2⟩ := Prod.mk.inj h
  · exact .inl ⟨h1, h2⟩
  · exact .inr ⟨h1, h2⟩
  · exact .inr ⟨h2, h1⟩
  · exact .inl ⟨h2, h1⟩

/-- The name has so many colons; a `did:key` name has two. -/
def Colons (k : Nat) (p : String) : Prop := p.toList.count ':' = k

def ColonFree (p : String) : Prop := Colons 0 p

instance (k : Nat) (p : String) : Decidable (Colons k p) := inferInstanceAs (Decidable (_ = _))

instance (p : String) : Decidable (ColonFree p) := inferInstanceAs (Decidable (Colons 0 p))

/-- All four names of the two pairs have the same number of colons. -/
structure SameColons (k : Nat) (p1 p2 q1 q2 : String) : Prop where
  p1 : Colons k p1
  p2 : Colons k p2
  q1 : Colons k q1
  q2 : Colons k q2

variable {k : Nat}

theorem Colons.canonicalPair (h1 : Colons k p1) (h2 : Colons k p2) :
    Colons k (canonicalPair p1 p2).1 ∧ Colons k (canonicalPair p1 p2).2 := by
  rcases canonicalPair_cases p1 p2 with h | h
  · rw [h]
    exact ⟨h1, h2⟩
  · rw [h]
    exact ⟨h2, h1⟩

theorem channelBase_toList (p1 p2 : String) :
    (channelBase p1 p2).toList =
      "channel:".toList ++ ((canonicalPair p1 p2).1.toList ++ ':' :: (canonicalPair p1 p2).2.toList) := by
  simp [channelBase, String.toList_append]

theorem Colons.count_channelBase (h1 : Colons k p1) (h2 : Colons k p2) :
    (channelBase p1 p2).toList.count ':' = 2 * k + 2 := by
  obtain ⟨ha, hb⟩ := h1.canonicalPair h2
  unfold Colons at ha hb
  have hlead : "channel:".toList.count ':' = 1 := by decide
  rw [channelBase_toList, List.count_append, List.count_append, List.count_cons_self, ha, hb, hlead]
  omega

theorem append_colon_inj {a a' b b' : List Char} (hcount : a.count ':' = a'.count ':')
    (h : a ++ ':' :: b = a' ++ ':' :: b') : a = a' ∧ b = b' := by
  induction a generalizing a' with
  | nil =>
    cases a' with
    | nil => exact ⟨rfl, (List.cons.inj h).2⟩
    | cons c rest =>
      obtain ⟨rfl, -⟩ := List.cons.inj h
      simp at hcount
  | cons c rest ih =>
    cases a' with
    | nil =>
      obtain ⟨rfl, -⟩ := List.cons.inj h
      simp at hcount
    | cons c' rest' =>
      obtain ⟨rfl, hrest⟩ := List.cons.inj h
      rw [List.count_cons, List.count_cons, Nat.add_right_cancel_iff] at hcount
      obtain ⟨rfl, rfl⟩ := ih hcount hrest
      exact ⟨rfl, rfl⟩

theorem SameColons.samePair (hk : SameColons k p1 p2 q1 q2)
    (h : channelBase p1 p2 = channelBase q1 q2) : SamePair p1 p2 q1 q2 := by
  obtain ⟨hp, -⟩ := hk.p1.canonicalPair hk.p2
  obtain ⟨hq, -⟩ := hk.q1.canonicalPair hk.q2
  rw [← String.toList_inj, channelBase_toList, channelBase_toList, List.append_right_inj] at h
  obtain ⟨h1, h2⟩ := append_colon_inj (hp.trans hq.symm) h
  exact samePair_of_canonicalPair_eq (Prod.ext (String.toList_inj.mp h1) (String.toList_inj.mp h2))

theorem SameColons.separate (hk : SameColons k p1 p2 q1 q2)
    (hne : ¬ SamePair p1 p2 q1 q2) : Separate (channelBase p1 p2) (channelBase q1 q2) := by
  have hp := hk.p1.count_channelBase hk.p2
  have hq := hk.q1.count_channelBase hk.q2
  -- continuing a base after a colon adds a colon, and both have as many
  have hnot : ∀ {a b : String}, a.toList.count ':' = b.toList.count ':' → a ≠ b → ¬ Under a b := by
    rintro a b hcount hab (rfl | ⟨rest, rfl⟩)
    · exact hab rfl
    · simp [String.toList_append] at hcount
  have hbases : channelBase p1 p2 ≠ channelBase q1 q2 := fun h => hne (hk.samePair h)
  exact ⟨hnot (hp.trans hq.symm) hbases, hnot (hq.trans hp.symm) hbases.symm⟩

end AgentHalo.Pcn
