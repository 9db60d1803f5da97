import AgentHalo.Base.Scan
import AgentHalo.Engine.Registration
import AgentHalo.Engine.TypedLaw
import AgentHalo.Orchestrator.Memory

/-!
# Which turns are kept

A call that saves the database it loaded, with one payload more, keeps what the database held. If another call has saved
in between, the payload of that call is not in the copy and is lost. So the payloads of all calls that returned without
an error are there as long as every call saves over the database that it loaded, different payloads have different keys,
and the store of the texts is not full.
-/

namespace AgentHalo.Orchestrator

open Engine (NucleusDb Clock)
open Store (TypedValue BlobStore)
open Text (trim hexEncode hexByte)
open Run

/-! ### Keys -/

theorem length_keyForText (P : Platform) (text : String) : (keyForText P text).toList.length = 26 := by
  have hbyte (b : UInt8) : (hexByte b).length = 2 := rfl
  have hpre : memoryKeyPrefix.toList.length = 10 := by decide
  have hdigits (bytes : Bytes) : (hexEncode bytes).toList.length = bytes.length * 2 := by
    unfold hexEncode
    simp [List.length_flatMap, hbyte]
  unfold keyForText
  rw [String.toList_append, List.length_append, hpre, String.toList_ofList, List.length_take, hdigits,
    Vector.length_toList]
  rfl

theorem keyForText_ne_append (P : Platform) (text other : String) {suffix : String} (h : 0 < suffix.toList.length) :
    keyForText P text ≠ keyForText P other ++ suffix := by
  intro heq
  have hlen := congrArg (·.toList.length) heq
  rw [String.toList_append, List.length_append, length_keyForText, length_keyForText] at hlen
  omega

theorem metaKey_ne_vectorKey (key : String) : metaKey key ≠ vectorKey key := by
  intro heq
  have hsuffix : memoryMetaSuffix.toList = memoryVectorSuffix.toList := by
    have hlists := congrArg String.toList heq
    unfold metaKey vectorKey at hlists
    rw [String.toList_append, String.toList_append] at hlists
    exact List.append_cancel_left hlists
  exact absurd hsuffix (by decide)

/-- The keys that storing a text writes to. -/
def memoryKeys (P : Platform) (text : String) : List String :=
  [keyForText P text, metaKey (keyForText P text), vectorKey (keyForText P text)]

theorem keyForText_mem_memoryKeys {P : Platform} {text other : String}
    (h : keyForText P text ∈ memoryKeys P other) : keyForText P text = keyForText P other := by
  simp only [memoryKeys, List.mem_cons, List.not_mem_nil, or_false] at h
  obtain heq | heq | heq := h
  · exact heq
  · exact absurd heq (keyForText_ne_append P text other (by decide))
  · exact absurd heq (keyForText_ne_append P text other (by decide))

/-! ### One text -/

section Store

variable {P : Platform} {M : MemoryStore P} {db db' : NucleusDb P} {text key s : String} {source : Option String}
  {ctx : MemoryContext} {r : StoreReadings} {record : MemoryRecord}

theorem storeMemoryCtx_cases (h : M.storeMemoryCtx db text source ctx r = some (.ok record, db')) :
    (db.getTyped (keyForText P (trim text)) = some (.text (trim text)) ∧ db' = db) ∨
    ∃ metadata embedding w₁ w₂ w₃ entry db₁ db₂ db₃,
      db.putTyped (keyForText P (trim text)) (.text (trim text)) r.text = (.ok w₁, db₁) ∧
      db₁.putTyped (metaKey (keyForText P (trim text))) (.json metadata) r.metadata = (.ok w₂, db₂) ∧
      db₂.putTyped (vectorKey (keyForText P (trim text))) (.vector embedding) r.vector = (.ok w₃, db₃) ∧
      db₃.commit ⟨[w₁, w₂, w₃]⟩ [] r.commit = some (.ok entry, db') := by
  unfold MemoryStore.storeMemoryCtx at h
  dsimp only at h
  split at h
  · cases h
  · split at h
    · rename_i hexisting
      refine .inl ⟨?_, (Prod.mk.inj (Option.some.inj h)).2.symm⟩
      unfold MemoryStore.existing at hexisting
      split at hexisting
      · rename_i existing hread
        split at hexisting
        · rename_i hsame
          rw [hread, hsame.1]
        · cases hexisting
      · cases hexisting
    · split at h
      · cases h
      · split at h
        · cases h
        · split at h
          · cases h
          · rename_i hput₁
            split at h
            · cases h
            · rename_i hput₂
              split at h
              · cases h
              · rename_i hput₃
                split at h
                · cases h
                · cases h
                · rename_i hcommit
                  obtain ⟨-, rfl⟩ := Prod.mk.inj (Option.some.inj h)
                  exact .inr ⟨_, _, _, _, _, _, _, _, _, hput₁, hput₂, hput₃, hcommit⟩

theorem getTyped_text_commit {db db' : NucleusDb P} {delta : Engine.Delta} {now : Nat}
    {result : Except Engine.CommitError Engine.CommitEntry} (hcommit : db.commit delta [] now = some (result, db'))
    (h : db.getTyped key = some (.text s)) : db'.getTyped key = some (.text s) := by
  have hframe := NucleusDb.commit_sameFrame hcommit
  rw [NucleusDb.getTyped_eq_text_iff] at h ⊢
  rw [hframe.keymap, hframe.typeMap, hframe.blobStore]
  exact h

theorem storeMemoryCtx_ok (h : M.storeMemoryCtx db text source ctx r = some (.ok record, db'))
    (hroom : BlobStore.HasRoom db.blobStore (memoryKeys P (trim text))) :
    db'.getTyped (keyForText P (trim text)) = some (.text (trim text)) ∧
      ∀ key s, key ∉ memoryKeys P (trim text) → db.getTyped key = some (.text s) → db'.getTyped key = some (.text s) := by
  obtain ⟨hthere, rfl⟩ | ⟨metadata, embedding, w₁, w₂, w₃, entry, db₁, db₂, db₃, hput₁, hput₂, hput₃, hcommit⟩ :=
    storeMemoryCtx_cases h
  · exact ⟨hthere, fun _ _ _ h => h⟩
  · generalize hk : keyForText P (trim text) = k at *
    have hkeys : memoryKeys P (trim text) = [k, metaKey k, vectorKey k] := by rw [memoryKeys, hk]
    rw [hkeys] at hroom ⊢
    have hmeta : k ≠ metaKey k := hk ▸ keyForText_ne_append P _ _ (by decide)
    have hvector : k ≠ vectorKey k := hk ▸ keyForText_ne_append P _ _ (by decide)
    have hroom₁ : BlobStore.HasRoom db₁.blobStore [metaKey k, vectorKey k] := by
      rw [(NucleusDb.putTyped_ok hput₁).2.2.2.2.2]
      exact hroom.put (by simp [hmeta, hvector]) _ _
    have hroom₂ : BlobStore.HasRoom db₂.blobStore [vectorKey k] := by
      rw [(NucleusDb.putTyped_ok hput₂).2.2.2.2.2]
      exact hroom₁.put (by simp [metaKey_ne_vectorKey]) _ _
    -- a text that is there stays through the writes to other keys
    have hother₁ (key s : String) (hne : key ≠ k) :
        db.getTyped key = some (.text s) → db₁.getTyped key = some (.text s) :=
      NucleusDb.getTyped_text_putTyped_other hput₁ hne fun data _ => hroom.fits data
    have hother₂ (key s : String) (hne : key ≠ metaKey k) :
        db₁.getTyped key = some (.text s) → db₂.getTyped key = some (.text s) :=
      NucleusDb.getTyped_text_putTyped_other hput₂ hne fun data _ => hroom₁.fits data
    have hother₃ (key s : String) (hne : key ≠ vectorKey k) (hread : db₂.getTyped key = some (.text s)) :
        db'.getTyped key = some (.text s) :=
      getTyped_text_commit hcommit
        (NucleusDb.getTyped_text_putTyped_other hput₃ hne (fun data _ => hroom₂.fits data) hread)
    constructor
    · have hdb₁ : (db.putTyped k (.text (trim text)) r.text).2 = db₁ := congrArg Prod.snd hput₁
      have hwritten : db₁.getTyped k = some (.text (trim text)) :=
        hdb₁ ▸ NucleusDb.getTyped_putTyped_text db k (trim text) r.text (hroom.fits _)
      exact hother₃ k _ hvector (hother₂ k _ hmeta hwritten)
    · intro key s hnot hread
      simp only [List.mem_cons, List.not_mem_nil, or_false, not_or] at hnot
      obtain ⟨hne, hnemeta, hnevector⟩ := hnot
      exact hother₃ key s hnevector (hother₂ key s hnemeta (hother₁ key s hne hread))

end Store

variable {turn : MemoryTurn}

theorem trim_payload (h : turn.body ≠ "") : trim turn.payload = turn.payload := by
  have hpayload : turn.payload.toList = 'a' :: ("gent_id: ".toList ++ turn.agentId.toList ++ "\ntask_id: ".toList
      ++ turn.taskId.toList ++ "\nrole: ".toList ++ turn.role.toList ++ "\ncontent:\n".toList) ++ turn.body.toList := by
    unfold MemoryTurn.payload
    simp only [String.toList_append]
    rfl
  have hbody : Text.trimChars turn.body.toList = turn.body.toList := by
    unfold MemoryTurn.body trim
    rw [String.toList_ofList, Text.trimChars_trimChars]
  have hne : turn.body.toList ≠ [] := fun hnil => h (String.toList_inj.mp hnil)
  unfold trim
  rw [hpayload, Text.trimChars_cons_append (by decide) _ hbody hne, ← hpayload, String.ofList_toList]

/-! ### All calls -/

variable {o : MemoryOutside}

namespace MemoryCalls

variable {P : Platform} {C : MemoryConfig P}

/-- The stored database has the payload of the turn. -/
def Persisted (turn : MemoryTurn) (s : Memories P) : Prop :=
  ∃ db, s.stored = some db ∧ db.getTyped (keyForText P turn.payload) = some (.text turn.payload)

/-- A call that saves finds the database as it loaded it, and room for its texts. -/
def Undisturbed (C : MemoryConfig P) (c : MemoryCalls P) (action : Nat × MemoryOutside) : Prop :=
  ∀ turn read, c.turns[action.1]? = some (turn, .save read) → read = c.shared.stored ∧
    ∀ db, MemoryTurn.opened C action.2 read = some db → BlobStore.HasRoom db.blobStore (memoryKeys P turn.payload)

/-- The calls that have returned without an error have their payloads in the stored database. -/
structure Kept (turns : List MemoryTurn) (c : MemoryCalls P) : Prop where
  turns : ∀ entry ∈ c.turns, entry.1 ∈ turns
  body : ∀ entry ∈ c.turns, entry.1.body = "" → entry.2 = .returned (.ok ())
  persisted : ∀ entry ∈ c.turns, entry.2 = .returned (.ok ()) → entry.1.body ≠ "" → Persisted entry.1 c.shared

def Distinguished (P : Platform) (turns : List MemoryTurn) : Prop :=
  ∀ turn ∈ turns, ∀ other ∈ turns, keyForText P turn.payload = keyForText P other.payload →
    turn.payload = other.payload

theorem kept_start (turns : List MemoryTurn) (s : Memories P) : Kept turns (start turns s) where
  turns := by
    intro entry hentry
    obtain ⟨turn, hturn, rfl⟩ := List.mem_map.mp hentry
    exact hturn
  body := by
    intro entry hentry hbody
    obtain ⟨turn, -, rfl⟩ := List.mem_map.mp hentry
    exact if_pos hbody
  persisted := by
    intro entry hentry hreturned hbody
    obtain ⟨turn, -, rfl⟩ := List.mem_map.mp hentry
    rw [MemoryTurn.start, if_neg hbody] at hreturned
    cases hreturned

/-- A section that does not save leaves the stored database as it is and returns without an error only if it had
returned already. -/
theorem next_of_not_saved (C : MemoryConfig P) (turn : MemoryTurn) (o : MemoryOutside) (s : Memories P) {phase : TurnPhase P}
    (h : ∀ read, phase ≠ .save read) :
    (turn.next C o s phase).2.stored = s.stored ∧
      ((turn.next C o s phase).1 = .returned (.ok ()) → phase = .returned (.ok ())) := by
  cases phase with
  | remember => exact ⟨rfl, fun h => nomatch h⟩
  | load =>
    unfold MemoryTurn.next
    cases o.loaded with
    | error e => exact ⟨rfl, fun h => nomatch h⟩
    | ok u => exact ⟨rfl, fun h => nomatch h⟩
  | save read => exact absurd rfl (h read)
  | returned result => exact ⟨rfl, id⟩

/-- What a save comes to: an error that leaves the stored database as it is, or the payload in the copy that was loaded,
which is stored then. -/
theorem next_save_cases (turn : MemoryTurn) (o : MemoryOutside) (s : Memories P) (read : Option (NucleusDb P)) :
    ((∃ e, (turn.next C o s (.save read)).1 = .returned (.error e)) ∧
        (turn.next C o s (.save read)).2.stored = s.stored) ∨
      ∃ db db' record, MemoryTurn.opened C o read = some db ∧
        C.store.storeMemory db turn.payload (some turn.source) o.readings = some (.ok record, db') ∧
        (turn.next C o s (.save read)).2.stored = some db' := by
  unfold MemoryTurn.next
  dsimp only
  cases hopened : MemoryTurn.opened C o read with
  | none => exact .inl ⟨⟨_, rfl⟩, rfl⟩
  | some db =>
    dsimp only
    cases hstore : C.store.storeMemory db turn.payload (some turn.source) o.readings with
    | none => exact .inl ⟨⟨_, rfl⟩, rfl⟩
    | some answer =>
      obtain ⟨result, db'⟩ := answer
      cases result with
      | error e => exact .inl ⟨⟨_, rfl⟩, rfl⟩
      | ok record =>
        dsimp only
        unfold MemoryTurn.persist
        cases o.snapshot with
        | error e => exact .inl ⟨⟨_, rfl⟩, rfl⟩
        | ok u =>
          cases o.wal with
          | error e => exact .inr ⟨db, db', record, rfl, hstore, rfl⟩
          | ok u => exact .inr ⟨db, db', record, rfl, hstore, rfl⟩

theorem persisted_of_saved {other : MemoryTurn} {s s' : Memories P} {db db' : NucleusDb P}
    {record : MemoryRecord} (hbody : turn.body ≠ "")
    (hkeys : keyForText P turn.payload = keyForText P other.payload → turn.payload = other.payload)
    (hopened : MemoryTurn.opened C o s.stored = some db)
    (hroom : BlobStore.HasRoom db.blobStore (memoryKeys P turn.payload))
    (hstore : C.store.storeMemory db turn.payload (some turn.source) o.readings = some (.ok record, db'))
    (hstored : s'.stored = some db') :
    Persisted turn s' ∧ (Persisted other s → Persisted other s') := by
  have htrim := trim_payload hbody
  obtain ⟨hown, hothers⟩ := storeMemoryCtx_ok hstore (by rw [htrim]; exact hroom)
  rw [htrim] at hown hothers
  refine ⟨⟨db', hstored, hown⟩, ?_⟩
  rintro ⟨before, hbefore, hread⟩
  rw [MemoryTurn.opened, hbefore] at hopened
  obtain rfl := Option.some.inj hopened
  refine ⟨db', hstored, ?_⟩
  by_cases hmem : keyForText P other.payload ∈ memoryKeys P turn.payload
  · have hsame := (keyForText_mem_memoryKeys hmem).symm
    rw [← hkeys hsame]
    exact hown
  · exact hothers _ _ hmem hread

theorem persisted_next {turns : List MemoryTurn} (hkeys : Distinguished P turns) (hturn : turn ∈ turns) {s s' : Memories P}
    {phase phase' : TurnPhase P}
    (hempty : turn.body = "" → phase = .returned (.ok ()))
    (hold : phase = .returned (.ok ()) → turn.body ≠ "" → Persisted turn s)
    (hcalm : ∀ read, phase = .save read → read = s.stored ∧
      ∀ db, MemoryTurn.opened C o read = some db → BlobStore.HasRoom db.blobStore (memoryKeys P turn.payload))
    (h : turn.next C o s phase = (phase', s')) :
    (∀ other ∈ turns, Persisted other s → Persisted other s') ∧
      (phase' = .returned (.ok ()) → turn.body ≠ "" → Persisted turn s') := by
  obtain ⟨rfl, rfl⟩ : (turn.next C o s phase).1 = phase' ∧ (turn.next C o s phase).2 = s' := by
    rw [h]
    exact ⟨rfl, rfl⟩
  have hsame (hstored : (turn.next C o s phase).2.stored = s.stored) :
      ∀ other, Persisted other s → Persisted other (turn.next C o s phase).2 := by
    rintro other ⟨db, hdb, hread⟩
    exact ⟨db, hstored.trans hdb, hread⟩
  by_cases hsave : ∃ read, phase = .save read
  · obtain ⟨read, rfl⟩ := hsave
    obtain ⟨rfl, hroom⟩ := hcalm read rfl
    have hnonempty : turn.body ≠ "" := fun hbody => nomatch hempty hbody
    obtain ⟨⟨e, herror⟩, hstored⟩ | ⟨db, db', record, hopened, hstore, hstored⟩ :=
      next_save_cases turn o s s.stored
    · refine ⟨fun other _ => hsame hstored other, fun hok => ?_⟩
      rw [herror] at hok
      cases hok
    · have hsaved : ∀ other ∈ turns, Persisted turn (turn.next C o s (.save s.stored)).2 ∧
          (Persisted other s → Persisted other (turn.next C o s (.save s.stored)).2) := fun other hother =>
        persisted_of_saved hnonempty (hkeys turn hturn other hother) hopened (hroom db hopened) hstore hstored
      exact ⟨fun other hother => (hsaved other hother).2, fun _ _ => (hsaved turn hturn).1⟩
  · obtain ⟨hstored, hreturned⟩ := next_of_not_saved C turn o s fun read heq => hsave ⟨read, heq⟩
    exact ⟨fun other _ => hsame hstored other,
      fun hok hnonempty => hsame hstored turn (hold (hreturned hok) hnonempty)⟩

theorem Kept.step {turns : List MemoryTurn} (hkeys : Distinguished P turns) {c : MemoryCalls P} (h : Kept turns c)
    {action : Nat × MemoryOutside} (hcalm : Undisturbed C c action) : Kept turns (c.step C action) := by
  unfold MemoryCalls.step
  cases hat : c.turns[action.1]? with
  | none => exact h
  | some entry =>
    obtain ⟨turn, phase⟩ := entry
    dsimp only
    have hmem : (turn, phase) ∈ c.turns := List.mem_of_getElem? hat
    cases hnext : turn.next C action.2 c.shared phase with
    | mk phase' shared' =>
      obtain ⟨hothers, hown⟩ := persisted_next hkeys (h.turns _ hmem) (h.body _ hmem) (h.persisted _ hmem)
        (fun read heq => hcalm turn read (heq ▸ hat)) hnext
      constructor
      · intro entry hentry
        obtain hbefore | rfl := List.mem_or_eq_of_mem_set hentry
        · exact h.turns entry hbefore
        · exact h.turns (turn, phase) hmem
      · intro entry hentry hempty
        obtain hbefore | rfl := List.mem_or_eq_of_mem_set hentry
        · exact h.body entry hbefore hempty
        · have hphase : phase = .returned (.ok ()) := h.body _ hmem hempty
          rw [hphase] at hnext
          exact (Prod.mk.inj hnext).1.symm
      · intro entry hentry hok hnonempty
        obtain hbefore | rfl := List.mem_or_eq_of_mem_set hentry
        · exact hothers _ (h.turns entry hbefore) (h.persisted entry hbefore hok hnonempty)
        · exact hown hok hnonempty

/-- **The turns of the calls that have returned without an error are in the stored database**, in every run in which each
save finds the database as it was loaded, with room for its texts, if different payloads have different keys. -/
theorem persisted_of_undisturbed {turns : List MemoryTurn} (hkeys : Distinguished P turns) (s : Memories P)
    {actions : List (Nat × MemoryOutside)} (hrun : Along (MemoryCalls.step C) (Undisturbed C) (start turns s) actions) :
    ∀ entry ∈ (exec (MemoryCalls.step C) (start turns s) actions).turns, entry.2 = .returned (.ok ()) →
      entry.1.body ≠ "" → Persisted entry.1 (exec (MemoryCalls.step C) (start turns s) actions).shared :=
  (exec_invariant_along (fun _ _ h hcalm => h.step hkeys hcalm) (kept_start turns s) hrun).persisted

end MemoryCalls

/-! ### A store for examples -/

namespace MemoryCalls

theorem step_of_saved {P : Platform} {C : MemoryConfig P} {c : MemoryCalls P} {i : Nat} {read : Option (NucleusDb P)}
    {db db' : NucleusDb P} {record : MemoryRecord}
    (hat : c.turns[i]? = some (turn, .save read)) (hopened : MemoryTurn.opened C o read = some db)
    (hstore : C.store.storeMemory db turn.payload (some turn.source) o.readings = some (.ok record, db'))
    (hsnapshot : o.snapshot = .ok ()) (hwal : o.wal = .ok ()) :
    c.step C (i, o) = ⟨c.turns.set i (turn, .returned (.ok ())), { c.shared with stored := some db' }⟩ := by
  unfold step
  rw [hat]
  dsimp only
  unfold MemoryTurn.next
  dsimp only
  rw [hopened]
  dsimp only
  rw [hstore]
  dsimp only
  unfold MemoryTurn.persist
  rw [hsnapshot, hwal]

end MemoryCalls

def blankStore : MemoryStore .reference where
  modelName := "blank"
  embed _ _ := .ok (List.replicate defaultEmbeddingDims (Platform.reference.f64.lit 0 0))
  metaValue _ := "{}"
  metaStr _ _ := none
  formatCommitError _ := ""

def blankMemory : MemoryConfig .reference := ⟨blankStore, NucleusDb.singleWitnessCfg, "trace.ndb"⟩

theorem validateCommitShape_of_registered {db : NucleusDb .reference} (delta : Engine.Delta) {keys : List String}
    (hstate : db.state = ⟨[]⟩) (hkeymap : db.keymap = Store.KeyMap.new.register keys)
    (hwrites : ∀ w ∈ delta.writes, ∃ key, db.keymap.get key = some w.1) (hcount : delta.writes.length ≤ 3)
    (hkeys : keys.length ≤ 3) :
    Engine.validateCommitShape (NucleusDb.defaultParams .binaryMerkle) delta.writes.length
      (Engine.apply db.state delta).values.length = .ok () := by
  have hnext := Store.KeyMap.nextIndex_register_le Store.KeyMap.new keys
  have hnew : Store.KeyMap.new.nextIndex = 0 := rfl
  have hcells : (Engine.apply db.state delta).values.length ≤ 3 := by
    refine Engine.length_apply_le (by rw [hstate]; exact Nat.zero_le 3) ?_
    intro w hw
    obtain ⟨key, hkey⟩ := hwrites w hw
    rw [hkeymap] at hkey
    have hbelow := (Store.KeyMap.sound_new.register keys).below key w.1 hkey
    omega
  have hdelta : (NucleusDb.defaultParams .binaryMerkle).maxDeltaWrites = 65536 := rfl
  have hvector : (NucleusDb.defaultParams .binaryMerkle).maxVectorLen = 1048576 := rfl
  unfold Engine.validateCommitShape
  rw [if_neg (by omega), if_neg (by omega)]

theorem exists_putTyped {db : NucleusDb .reference} (h : NucleusDb.Ready db) (key : String)
    (value : TypedValue .reference) (clock : Clock) (haccepted : ¬ NucleusDb.RejectsVector db value) :
    ∃ w db', db.putTyped key value clock = (.ok w, db') ∧ db' = (db.putTyped key value clock).2 ∧
      NucleusDb.Ready db' ∧ db'.state = db.state ∧ db'.keymap = (db.keymap.getOrCreate key).2 ∧
      db'.keymap.get key = some w.1 := by
  have hput := NucleusDb.putTyped_of_accepted db key value clock haccepted
  obtain ⟨-, -, hstate, hkeymap, -⟩ := NucleusDb.putTyped_ok hput
  refine ⟨_, _, hput, rfl, h.putTyped key value clock, hstate, hkeymap, ?_⟩
  rw [hkeymap]
  exact Store.KeyMap.get_getOrCreate_self _ key

theorem storeMemory_singleWitnessDb {text : String} (htext : trim text ≠ "") (source : Option String) (r : StoreReadings) :
    ∃ record db', blankStore.storeMemory NucleusDb.singleWitnessDb text source r = some (.ok record, db') ∧
      ∀ key, (db'.keymap.get key).isSome → key ∈ memoryKeys .reference (trim text) := by
  have habsent : ∀ key, NucleusDb.singleWitnessDb.keymap.get key = none := fun _ => Std.ExtTreeMap.getElem?_empty
  unfold memoryKeys MemoryStore.storeMemory MemoryStore.storeMemoryCtx
  dsimp only
  rw [if_neg htext]
  generalize keyForText .reference (trim text) = k
  generalize blankStore.metaValue _ = metadata
  have hexisting : MemoryStore.existing NucleusDb.singleWitnessDb k (trim text) = none := by
    unfold MemoryStore.existing
    rw [NucleusDb.getTyped_of_absent (habsent k)]
  have hembed : ∀ input pfx, blankStore.embed input pfx =
      .ok (List.replicate defaultEmbeddingDims (Platform.reference.f64.lit 0 0)) := fun _ _ => rfl
  have hlength : (List.replicate defaultEmbeddingDims (Platform.reference.f64.lit 0 0)).length = defaultEmbeddingDims :=
    List.length_replicate
  rw [hexisting, hembed]
  dsimp only
  rw [if_neg (not_not.mpr hlength)]
  generalize List.replicate defaultEmbeddingDims (Platform.reference.f64.lit 0 0) = embedding at hlength ⊢
  obtain ⟨w₁, db₁, hput₁, hdb₁, hready₁, hstate₁, hkeymap₁, hget₁⟩ :=
    exists_putTyped NucleusDb.singleWitnessDb_ready k (.text (trim text)) r.text id
  obtain ⟨w₂, db₂, hput₂, hdb₂, hready₂, hstate₂, hkeymap₂, hget₂⟩ :=
    exists_putTyped hready₁ (metaKey k) (.json metadata) r.metadata id
  have haccepted : ¬ NucleusDb.RejectsVector db₂ (.vector embedding) := by
    have hnodims : db₂.vectorIndex.expectedDims = none := by
      rw [hdb₂, hdb₁]
      change ((NucleusDb.singleWitnessDb.vectorIndex.remove k).remove (metaKey k)).expectedDims = none
      unfold Store.VectorIndex.remove
      dsimp only
      split_ifs <;> rfl
    rintro (hnil | ⟨expected, hexpected, -⟩)
    · rw [hnil] at hlength
      cases hlength
    · rw [hnodims] at hexpected
      cases hexpected
  obtain ⟨w₃, db₃, hput₃, -, hready₃, hstate₃, hkeymap₃, hget₃⟩ :=
    exists_putTyped hready₂ (vectorKey k) (.vector embedding) r.vector haccepted
  rw [hput₁]
  dsimp only
  rw [hput₂]
  dsimp only
  rw [hput₃]
  dsimp only
  have hkeymap : db₃.keymap = Store.KeyMap.new.register [k, metaKey k, vectorKey k] := by
    rw [hkeymap₃, hkeymap₂, hkeymap₁]
    rfl
  have hstay₂ : ∀ key idx, db₁.keymap.get key = some idx → db₂.keymap.get key = some idx := by
    intro key idx hget
    rw [hkeymap₂]
    exact Store.KeyMap.get_getOrCreate _ _ hget
  have hstay₃ : ∀ key idx, db₂.keymap.get key = some idx → db₃.keymap.get key = some idx := by
    intro key idx hget
    rw [hkeymap₃]
    exact Store.KeyMap.get_getOrCreate _ _ hget
  have hregistered : ∀ w ∈ [w₁, w₂, w₃], ∃ key, db₃.keymap.get key = some w.1 := by
    intro w hw
    simp only [List.mem_cons, List.not_mem_nil, or_false] at hw
    obtain rfl | rfl | rfl := hw
    · exact ⟨k, hstay₃ _ _ (hstay₂ _ _ hget₁)⟩
    · exact ⟨metaKey k, hstay₃ _ _ hget₂⟩
    · exact ⟨vectorKey k, hget₃⟩
  obtain ⟨entry, db', hcommit⟩ := hready₃.commit r.commit (validateCommitShape_of_registered ⟨[w₁, w₂, w₃]⟩
    (hstate₃.trans (hstate₂.trans hstate₁)) hkeymap hregistered (Nat.le_refl 3) (Nat.le_refl 3))
  rw [hcommit]
  refine ⟨_, db', rfl, ?_⟩
  intro key hkey
  rw [(NucleusDb.commit_sameFrame hcommit).keymap, hkeymap, Store.KeyMap.isSome_get_register] at hkey
  exact hkey.resolve_left (by rw [show Store.KeyMap.new.get key = none from habsent key]; exact Bool.false_ne_true)

/-! ### Two calls at the same time -/

def askedTurn : MemoryTurn := ⟨"agent-1", "task-1", "user", "ping"⟩
def toldTurn : MemoryTurn := ⟨"agent-2", "task-2", "user", "pong"⟩

def smooth : MemoryOutside := ⟨.ok (), ⟨0, 0⟩, ⟨"", ⟨0, 0⟩, ⟨0, 0⟩, ⟨0, 0⟩, 0⟩, .ok (), .ok (), ""⟩

def blankMemories : Memories .reference := ⟨∅, none⟩

theorem askedTurn_body : askedTurn.body ≠ "" := by decide

theorem toldTurn_body : toldTurn.body ≠ "" := by decide

theorem keyForText_asked_ne_told :
    keyForText .reference askedTurn.payload ≠ keyForText .reference toldTurn.payload := by decide +kernel

theorem storeMemory_turn (h : turn.body ≠ "") :
    ∃ record db', blankStore.storeMemory NucleusDb.singleWitnessDb turn.payload (some turn.source) smooth.readings =
        some (.ok record, db') ∧
      ∀ key, (db'.keymap.get key).isSome → key ∈ memoryKeys .reference turn.payload := by
  have htrim := trim_payload h
  have hpayload : trim turn.payload ≠ "" := by
    rw [htrim]
    intro hempty
    have hhead : turn.payload.toList ≠ [] := by
      unfold MemoryTurn.payload
      simp only [String.toList_append]
      exact List.cons_ne_nil _ _
    exact hhead (String.toList_eq_nil_iff.mpr hempty)
  obtain ⟨record, db', hstore, hkeys⟩ := storeMemory_singleWitnessDb hpayload (some turn.source) smooth.readings
  rw [htrim] at hkeys
  exact ⟨record, db', hstore, hkeys⟩

theorem opened_none : MemoryTurn.opened blankMemory smooth none = some NucleusDb.singleWitnessDb :=
  NucleusDb.singleWitnessDb_new

theorem start_turn (h : turn.body ≠ "") : (turn.start : TurnPhase .reference) = .remember :=
  if_neg h

theorem start_of_bodies (turns : List MemoryTurn) (h : ∀ turn ∈ turns, turn.body ≠ "") :
    MemoryCalls.start turns blankMemories = ⟨turns.map fun turn => (turn, .remember), blankMemories⟩ := by
  unfold MemoryCalls.start
  rw [List.map_congr_left fun turn hturn => by rw [start_turn (h turn hturn)]]

/-- One agent's turn is saved before another loads the database. -/
theorem persisted_of_undisturbed_asked :
    ∃ c, c = exec (MemoryCalls.step blankMemory) (MemoryCalls.start [askedTurn, toldTurn] blankMemories)
        [(0, smooth), (0, smooth), (0, smooth), (1, smooth), (1, smooth)] ∧
      (∃ read, (toldTurn, .save read) ∈ c.turns ∧ read = c.shared.stored) ∧ MemoryCalls.Persisted askedTurn c.shared := by
  obtain ⟨record, db', hstore, -⟩ := storeMemory_turn askedTurn_body
  have hstart : MemoryCalls.start [askedTurn, toldTurn] blankMemories =
      ⟨[(askedTurn, .remember), (toldTurn, .remember)], blankMemories⟩ :=
    start_of_bodies _ (by simp [askedTurn_body, toldTurn_body])
  have hsaved := MemoryCalls.step_of_saved (i := 0) (C := blankMemory) (o := smooth)
    (c := ⟨[(askedTurn, .save none), (toldTurn, .remember)], ⟨askedTurn.pushRecent ∅, none⟩⟩) rfl opened_none hstore rfl rfl
  have hloaded : exec (MemoryCalls.step blankMemory) (MemoryCalls.start [askedTurn, toldTurn] blankMemories)
      [(0, smooth), (0, smooth)] = ⟨[(askedTurn, .save none), (toldTurn, .remember)], ⟨askedTurn.pushRecent ∅, none⟩⟩ := by
    rw [hstart]
    rfl
  have hend : exec (MemoryCalls.step blankMemory) (MemoryCalls.start [askedTurn, toldTurn] blankMemories)
      [(0, smooth), (0, smooth), (0, smooth), (1, smooth), (1, smooth)] =
      ⟨[(askedTurn, .returned (.ok ())), (toldTurn, .save (some db'))],
        ⟨toldTurn.pushRecent (askedTurn.pushRecent ∅), some db'⟩⟩ := by
    rw [show [(0, smooth), (0, smooth), (0, smooth), (1, smooth), (1, smooth)] =
      [(0, smooth), (0, smooth)] ++ [(0, smooth), (1, smooth), (1, smooth)] from rfl, exec_append, hloaded, exec_cons, hsaved]
    rfl
  have hcalm : Along (MemoryCalls.step blankMemory) (MemoryCalls.Undisturbed blankMemory)
      (MemoryCalls.start [askedTurn, toldTurn] blankMemories)
      [(0, smooth), (0, smooth), (0, smooth), (1, smooth), (1, smooth)] := by
    rw [show [(0, smooth), (0, smooth), (0, smooth), (1, smooth), (1, smooth)] =
      [(0, smooth), (0, smooth)] ++ [(0, smooth), (1, smooth), (1, smooth)] from rfl, along_append, hloaded, hstart]
    refine ⟨⟨?_, ?_, trivial⟩, ?_, ?_⟩
    · rintro turn read ⟨⟩
    · rintro turn read ⟨⟩
    · rintro turn read hat
      obtain ⟨rfl, hread⟩ := Prod.mk.inj (Option.some.inj hat)
      cases hread
      refine ⟨rfl, ?_⟩
      intro db hdb
      obtain rfl := Option.some.inj (opened_none.symm.trans hdb)
      exact Nat.le_of_ble_eq_true rfl
    · rw [hsaved]
      refine ⟨?_, ?_, trivial⟩
      · rintro turn read ⟨⟩
      · rintro turn read ⟨⟩
  have hkeys : MemoryCalls.Distinguished .reference [askedTurn, toldTurn] := by
    have hne := keyForText_asked_ne_told
    simp [MemoryCalls.Distinguished, hne, hne.symm]
  refine ⟨_, rfl, ?_, MemoryCalls.persisted_of_undisturbed hkeys blankMemories hcalm (askedTurn, .returned (.ok ())) ?_ rfl
    askedTurn_body⟩
  · rw [hend]
    exact ⟨_, List.mem_cons_of_mem _ (List.mem_singleton_self _), rfl⟩
  · rw [hend]
    exact List.mem_cons_self

/-- Two calls load the database before either saves it, and the turn of the first is lost. -/
theorem turn_overwritten :
    ∃ c, c = exec (MemoryCalls.step blankMemory) (MemoryCalls.start [askedTurn, toldTurn] blankMemories)
        [(0, smooth), (1, smooth), (0, smooth), (1, smooth), (0, smooth), (1, smooth)] ∧
      (∀ entry ∈ c.turns, entry.2 = .returned (.ok ())) ∧
      ∃ entry ∈ c.turns, entry.1.body ≠ "" ∧ ¬ MemoryCalls.Persisted entry.1 c.shared := by
  obtain ⟨recordA, dbA, hstoreA, -⟩ := storeMemory_turn askedTurn_body
  obtain ⟨recordB, dbB, hstoreB, hkeysB⟩ := storeMemory_turn toldTurn_body
  have hstart : MemoryCalls.start [askedTurn, toldTurn] blankMemories =
      ⟨[(askedTurn, .remember), (toldTurn, .remember)], blankMemories⟩ :=
    start_of_bodies _ (by simp [askedTurn_body, toldTurn_body])
  have hfirst := MemoryCalls.step_of_saved (i := 0) (C := blankMemory) (o := smooth)
    (c := ⟨[(askedTurn, .save none), (toldTurn, .save none)],
      ⟨toldTurn.pushRecent (askedTurn.pushRecent ∅), none⟩⟩)
    rfl opened_none hstoreA rfl rfl
  have hsecond := MemoryCalls.step_of_saved (i := 1) (C := blankMemory) (o := smooth)
    (c := ⟨[(askedTurn, .returned (.ok ())), (toldTurn, .save none)],
      ⟨toldTurn.pushRecent (askedTurn.pushRecent ∅), some dbA⟩⟩)
    rfl opened_none hstoreB rfl rfl
  have hloaded : exec (MemoryCalls.step blankMemory) (MemoryCalls.start [askedTurn, toldTurn] blankMemories)
      [(0, smooth), (1, smooth), (0, smooth), (1, smooth)] =
      ⟨[(askedTurn, .save none), (toldTurn, .save none)],
        ⟨toldTurn.pushRecent (askedTurn.pushRecent ∅), none⟩⟩ := by
    rw [hstart]
    rfl
  have hend : exec (MemoryCalls.step blankMemory) (MemoryCalls.start [askedTurn, toldTurn] blankMemories)
      [(0, smooth), (1, smooth), (0, smooth), (1, smooth), (0, smooth), (1, smooth)] =
      ⟨[(askedTurn, .returned (.ok ())), (toldTurn, .returned (.ok ()))],
        ⟨toldTurn.pushRecent (askedTurn.pushRecent ∅), some dbB⟩⟩ := by
    rw [show [(0, smooth), (1, smooth), (0, smooth), (1, smooth), (0, smooth), (1, smooth)] =
      [(0, smooth), (1, smooth), (0, smooth), (1, smooth)] ++ [(0, smooth), (1, smooth)] from rfl, exec_append, hloaded,
      exec_cons, hfirst, exec_cons]
    rw [List.set_cons_zero, hsecond]
    rfl
  refine ⟨_, hend.symm, ?_⟩
  refine ⟨by simp, (askedTurn, .returned (.ok ())), List.mem_cons_self, askedTurn_body, ?_⟩
  rintro ⟨db, hdb, hread⟩
  obtain rfl := Option.some.inj hdb
  obtain ⟨idx, hkey⟩ : ∃ idx, dbB.keymap.get (keyForText .reference askedTurn.payload) = some idx := by
    by_contra hnone
    rw [NucleusDb.getTyped_of_absent (Option.eq_none_iff_forall_ne_some.mpr fun idx h => hnone ⟨idx, h⟩)] at hread
    cases hread
  exact keyForText_asked_ne_told (keyForText_mem_memoryKeys (hkeysB _ (by rw [hkey]; rfl)))

end AgentHalo.Orchestrator
