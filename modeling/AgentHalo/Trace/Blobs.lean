import AgentHalo.Trace.Writer

/-!
# Blobs

A blob is read back as it was put last: no two blobs have a key in common, and the words of a byte string, cut to its length,
are the byte string. `Shows` connects a database with a shelf, which is a list of blobs under their base keys in the order in
which they were put. A commit that puts a blob and touches no other one puts it on the shelf.

A commit that fails leaves its keys registered. They have no cell at first and a zero after a later commit, so that what
was never put may be found as a blob without bytes.
-/

namespace AgentHalo.Trace

open Attest (readBlob readValueByKeyFromDb u64ChunksToBytes sessionPrefix)
open Engine (NucleusDb CommitError State)
open Engine.NucleusDb
open Slices (sliceChunks padTo divCeil)
open Text (toLeBytes fromLeBytes startsWith endsWith trimEndMatchesStr)
open Vcs.WorkRecordStore (registerWrites_eq registered isSome_get_of_mem)

variable {P : Platform}

/-! ### Words -/

theorem toLeBytes_word {piece : Bytes} (h : piece.length ≤ 8) : toLeBytes (fromLeBytes (padTo 8 piece)) = padTo 8 piece :=
  Text.toLeBytes_fromLeBytes (Slices.length_padTo h)

theorem take_u64ChunksToBytes (bytes : Bytes) : (u64ChunksToBytes (bytesToU64Chunks bytes)).take bytes.length = bytes := by
  have hpieces : u64ChunksToBytes (bytesToU64Chunks bytes) = (sliceChunks 8 bytes).flatMap (padTo 8) := by
    unfold u64ChunksToBytes bytesToU64Chunks
    rw [List.flatMap_map]
    refine List.flatMap_congr ?_
    intro piece hpiece
    exact toLeBytes_word (Slices.length_le_of_mem_pieces hpiece)
  rw [hpieces, Slices.take_flatMap_padTo (by decide)]

theorem length_bytesToU64Chunks (bytes : Bytes) : (bytesToU64Chunks bytes).length = divCeil bytes.length 8 := by
  unfold bytesToU64Chunks
  rw [List.length_map, Slices.length_sliceChunks]

/-! ### Keys -/

variable {a b key : String} {write : String × UInt64} {db db' : NucleusDb P}

theorem lastColon_inj {s t : String} (hs : ':' ∉ s.toList) (ht : ':' ∉ t.toList) (h : a ++ ":" ++ s = b ++ ":" ++ t) :
    a = b ∧ s = t := by
  have hlist : a.toList ++ ':' :: s.toList = b.toList ++ ':' :: t.toList := by
    simpa [String.toList_append] using congrArg String.toList h
  obtain ⟨hfront, hback⟩ := Separators.append_cons_inj_of_not_mem_right hs ht hlist
  exact ⟨String.toList_inj.mp hfront, String.toList_inj.mp hback⟩

/-- The key of a part of the blob with this base key. -/
def IsBlobKey (base key : String) : Prop := key = base ++ ":len" ∨ ∃ i : Nat, key = base ++ ":chunk:" ++ toString i

theorem append_len (base : String) : base ++ ":len" = base ++ ":" ++ "len" := by
  rw [String.append_assoc]
  rfl

theorem append_chunk (base : String) (i : Nat) : base ++ ":chunk:" ++ toString i = base ++ ":chunk" ++ ":" ++ toString i := by
  rw [show (":chunk:" : String) = ":chunk" ++ ":" from rfl, ← String.append_assoc]

theorem len_ne_toString (i : Nat) : "len" ≠ toString i := by
  intro h
  exact Text.not_mem_toString (show 'l'.isDigit = false by decide) i (h ▸ by decide)

theorem colon_not_mem_len : ':' ∉ ("len" : String).toList := by decide

theorem len_ne_chunk (a b : String) (i : Nat) : a ++ ":len" ≠ b ++ ":chunk:" ++ toString i := by
  intro h
  rw [append_len, append_chunk] at h
  exact len_ne_toString i (lastColon_inj colon_not_mem_len (Text.colon_not_mem_toString i) h).2

variable {key base keyPrefix : String}

theorem IsBlobKey.unique (ha : IsBlobKey a key) (hb : IsBlobKey b key) : a = b := by
  rcases ha with rfl | ⟨i, rfl⟩
  · rcases hb with h | ⟨j, h⟩
    · exact (String.append_left_inj _).mp h
    · exact absurd h (len_ne_chunk a b j)
  · rcases hb with h | ⟨j, h⟩
    · exact absurd h.symm (len_ne_chunk b a i)
    · rw [append_chunk, append_chunk] at h
      have hfront := (lastColon_inj (Text.colon_not_mem_toString i) (Text.colon_not_mem_toString j) h).1
      exact (String.append_left_inj _).mp hfront

variable {raw : Bytes}

theorem isBlobKey_of_mem (h : write ∈ blobWrites base raw) : IsBlobKey base write.1 := by
  unfold blobWrites at h
  rcases List.mem_cons.mp h with rfl | h
  · exact .inl rfl
  · obtain ⟨i, hi, rfl⟩ := List.mem_mapIdx.mp h
    exact .inr ⟨i, rfl⟩

theorem last_blobWrites (h : write ∈ blobWrites base raw) :
    Writes.last (blobWrites base raw) write.1 = some write.2 := by
  have hdistinct : (blobWrites base raw).Pairwise fun a b => a.1 ≠ b.1 := by
    unfold blobWrites
    rw [List.pairwise_cons]
    constructor
    · intro w hw
      obtain ⟨i, hi, rfl⟩ := List.mem_mapIdx.mp hw
      exact len_ne_chunk base base i
    · rw [List.pairwise_iff_getElem]
      intro i j hi hj hij heq
      rw [List.getElem_mapIdx, List.getElem_mapIdx] at heq
      exact Nat.ne_of_lt hij (Text.toString_nat_inj ((String.append_right_inj _).mp heq))
  exact (Writes.last_eq_some_iff hdistinct _ _).mpr h

/-! ### Commits -/

/-- Keys are registered soundly, and there are no cells but theirs. -/
structure Keyed (db : NucleusDb P) : Prop where
  sound : db.keymap.Sound
  cells : db.state.values.length ≤ db.keymap.nextIndex

theorem isSome_get_of_read (h : (readValueByKeyFromDb (traceDb db) key).isSome) :
    (db.keymap.get key).isSome := by
  unfold readValueByKeyFromDb traceDb at h
  cases hkey : db.keymap.get key with
  | none =>
    rw [hkey] at h
    cases h
  | some idx => rfl

variable {writes : List (String × UInt64)} {now : Nat}

theorem commitTo_eq_ok (hkeys : db.keymap.Sound) (h : commitTo db writes now = (some (.ok ()), db')) : ∃ entry,
    (registered db writes).commit ⟨(registered db writes).keymap.indexed writes⟩ [] now = some (.ok entry, db') := by
  have hregistered : { db with keymap := db.keymap.register (writes.map Prod.fst) } = registered db writes := rfl
  unfold commitTo at h
  rw [registerWrites_eq hkeys] at h
  dsimp only at h
  rw [hregistered] at h
  split at h
  · cases h
  · cases h
  · rename_i entry db₁ hcommit
    obtain rfl := (Prod.mk.inj h).2
    exact ⟨entry, hcommit⟩

theorem Keyed.commit (hdb : Keyed db) (h : commitTo db writes now = (some (.ok ()), db')) : Keyed db' := by
  obtain ⟨entry, hcommit⟩ := commitTo_eq_ok hdb.sound h
  have hkeymap : db'.keymap = db.keymap.register (writes.map Prod.fst) := (commit_sameFrame hcommit).keymap
  have hsound : db'.keymap.Sound := hkeymap ▸ hdb.sound.register _
  refine ⟨hsound, ?_⟩
  rw [(commit_advanced hcommit).state]
  refine Engine.length_apply_le ?_ fun w hw => ?_
  · rw [hkeymap]
    exact Nat.le_trans hdb.cells (Store.KeyMap.nextIndex_le_register _ _)
  · obtain ⟨write, hwrite, rfl⟩ := List.mem_map.mp hw
    obtain ⟨idx, hidx⟩ := Option.isSome_iff_exists.mp (isSome_get_of_mem (m := db.keymap) hwrite)
    have hregistered : (registered db writes).keymap.get write.1 = some idx := hidx
    rw [hregistered]
    exact hsound.below write.1 idx (hkeymap ▸ hidx)

theorem backend_commitTo (hdb : db.keymap.Sound) (h : commitTo db writes now = (some (.ok ()), db')) :
    db'.backend = db.backend := by
  obtain ⟨entry, hcommit⟩ := commitTo_eq_ok hdb h
  exact (commit_sameFrame hcommit).backend

theorem inStep_of_commitTo (hdb : db.keymap.Sound) (h : commitTo db writes now = (some (.ok ()), db')) :
    db.ctLeaves.length = db.entries.length ∧
      db'.ctLeaves.length = db'.entries.length ∧ db'.entries.length = db.entries.length + 1 := by
  obtain ⟨entry, hcommit⟩ := commitTo_eq_ok hdb h
  have hadvanced := commit_advanced hcommit
  obtain ⟨leaf, hleaves⟩ := hadvanced.ctLeaves
  have hstep : db.ctLeaves.length = db.entries.length := hadvanced.inStep
  refine ⟨hstep, ?_, ?_⟩
  · rw [hleaves, hadvanced.entries, List.length_append, List.length_append]
    exact congrArg (· + 1) hstep
  · rw [hadvanced.entries, List.length_append]
    rfl

/-- What a commit leaves that fails: the keys are registered and nothing else has happened, or a leaf was pushed that no
entry belongs to. -/
theorem commitTo_error {e : CommitError} (hdb : db.keymap.Sound) (h : commitTo db writes now = (some (.error e), db')) :
    db'.backend = db.backend ∧
      db'.keymap = db.keymap.register (writes.map Prod.fst) ∧ db'.entries = db.entries ∧
      (db' = registered db writes ∨ db'.ctLeaves.length = db.ctLeaves.length + 1) := by
  have hregistered : { db with keymap := db.keymap.register (writes.map Prod.fst) } = registered db writes := rfl
  unfold commitTo at h
  rw [registerWrites_eq hdb] at h
  dsimp only at h
  rw [hregistered] at h
  split at h
  · cases h
  · rename_i e' db₁ hcommit
    obtain rfl := (Prod.mk.inj h).2
    rcases commit_cases hcommit with ⟨-, -, rfl⟩ | ⟨-, -, rs, -, rfl | rfl⟩ | ⟨rs, sigs, entry, hok, -⟩
    · exact ⟨rfl, rfl, rfl, .inl rfl⟩
    · exact ⟨rfl, rfl, rfl, .inr (List.length_append ..)⟩
    · exact ⟨rfl, rfl, rfl, .inr (List.length_append ..)⟩
    · cases hok
  · cases h

theorem read_commitTo (hdb : Keyed db) (h : commitTo db writes now = (some (.ok ()), db')) (key : String) :
    readValueByKeyFromDb (traceDb db') key =
      (Writes.last writes key).or (readValueByKeyFromDb (traceDb db) key) ∨
      Writes.last writes key = none ∧ readValueByKeyFromDb (traceDb db) key = none ∧
        readValueByKeyFromDb (traceDb db') key = some 0 := by
  obtain ⟨entry, hcommit⟩ := commitTo_eq_ok hdb.sound h
  have hkeymap : db'.keymap = db.keymap.register (writes.map Prod.fst) := (commit_sameFrame hcommit).keymap
  cases hlast : Writes.last writes key with
  | some value => exact .inl (Vcs.WorkRecordStore.readValueByKey_of_written hdb.sound hcommit hlast)
  | none =>
    have hmem := (Writes.last_eq_none_iff_not_mem writes key).mp hlast
    have hget : db'.keymap.get key = db.keymap.get key := by
      rw [hkeymap, Store.KeyMap.get_register_of_not_mem db.keymap hmem]
    rw [Option.none_or]
    unfold readValueByKeyFromDb
    cases hkey : db.keymap.get key with
    | none =>
      rw [show (traceDb db').keymap.get key = none from hget.trans hkey,
        show (traceDb db).keymap.get key = none from hkey]
      exact .inl rfl
    | some idx =>
      have hsound : (registered db writes).keymap.Sound := hdb.sound.register _
      have hregistered : (registered db writes).keymap.get key = some idx := by
        rw [← hkey, ← hget, hkeymap]
        rfl
      have hcell := Engine.cell_apply_indexed hsound db.state (fun w hw => isSome_get_of_mem hw) hregistered
      rw [hlast, Option.getD_none] at hcell
      rw [show (traceDb db').keymap.get key = some idx from hget.trans hkey,
        show (traceDb db).keymap.get key = some idx from hkey, Option.bind_some, Option.bind_some]
      have hstate : db'.state = Engine.apply db.state ⟨(registered db writes).keymap.indexed writes⟩ :=
        (commit_advanced hcommit).state
      change db'.state.values[idx]? = db.state.values[idx]? ∨
        none = none ∧ db.state.values[idx]? = none ∧ db'.state.values[idx]? = some 0
      rcases Nat.lt_or_ge idx db.state.values.length with hold | hnew
      · have hlonger : idx < db'.state.values.length := by
          rw [hstate]
          exact Nat.lt_of_lt_of_le hold (Engine.length_le_apply _ _)
        rw [Engine.getElem?_values_of_lt hold, Engine.getElem?_values_of_lt hlonger, hstate]
        exact .inl (congrArg some hcell)
      · have hzero : db.state.cell idx = 0 := by
          unfold State.cell
          rw [List.getElem?_eq_none hnew]
          rfl
        rcases Nat.lt_or_ge idx db'.state.values.length with hfilled | hnone
        · rw [Engine.getElem?_values_of_lt hfilled, hstate]
          exact .inr ⟨rfl, List.getElem?_eq_none hnew, congrArg some (hcell.trans hzero)⟩
        · rw [List.getElem?_eq_none hnew, List.getElem?_eq_none hnone]
          exact .inl rfl

theorem readD_commitTo (hdb : Keyed db) (h : commitTo db writes now = (some (.ok ()), db')) (key : String) :
    (readValueByKeyFromDb (traceDb db') key).getD 0 =
      ((Writes.last writes key).or (readValueByKeyFromDb (traceDb db) key)).getD 0 := by
  rcases read_commitTo hdb h key with hread | ⟨hlast, hnone, hread⟩
  · rw [hread]
  · rw [hread, hlast, hnone]
    rfl

theorem read_commitTo_of_some (hdb : Keyed db) (h : commitTo db writes now = (some (.ok ()), db')) {value : UInt64}
    (hvalue : (Writes.last writes key).or (readValueByKeyFromDb (traceDb db) key) = some value) :
    readValueByKeyFromDb (traceDb db') key = some value := by
  rcases read_commitTo hdb h key with hread | ⟨hlast, hnone, -⟩
  · rw [hread, hvalue]
  · rw [hlast, hnone] at hvalue
    cases hvalue

theorem read_registered (hdb : Keyed db) (writes : List (String × UInt64)) (key : String) :
    readValueByKeyFromDb (traceDb (registered db writes)) key = readValueByKeyFromDb (traceDb db) key := by
  unfold readValueByKeyFromDb
  change ((db.keymap.register (writes.map Prod.fst)).get key).bind (db.state.values[·]?) =
    (db.keymap.get key).bind (db.state.values[·]?)
  cases hkey : db.keymap.get key with
  | some idx => rw [Store.KeyMap.get_register hkey]
  | none =>
    cases hnew : (db.keymap.register (writes.map Prod.fst)).get key with
    | none => rfl
    | some idx =>
      have hle := Store.KeyMap.nextIndex_le_of_get_register hkey hnew
      exact List.getElem?_eq_none (Nat.le_trans hdb.cells hle)

/-! ### Prefixes of keys -/

/-- The keys of a blob with this base key begin with the prefix. -/
def Under (keyPrefix base : String) : Prop := startsWith (base ++ ":") keyPrefix = true

theorem Under.startsWith_key (h : Under keyPrefix base) (hkey : IsBlobKey base key) :
    startsWith key keyPrefix = true := by
  obtain ⟨rest, hrest⟩ := (Text.startsWith_iff _ _).mp h
  have hfront (tail : String) : startsWith (base ++ ":" ++ tail) keyPrefix = true := by
    rw [hrest, String.append_assoc]
    exact Text.startsWith_append _ _
  rcases hkey with rfl | ⟨i, rfl⟩
  · rw [append_len]
    exact hfront _
  · have hkey : base ++ ":chunk:" ++ toString i = base ++ ":" ++ ("chunk:" ++ toString i) := by
      rw [show (":chunk:" : String) = ":" ++ "chunk:" from rfl, ← String.append_assoc, String.append_assoc]
    rw [hkey]
    exact hfront _

theorem under_append (keyPrefix name : String) : Under keyPrefix (keyPrefix ++ name) := by
  unfold Under
  rw [String.append_assoc]
  exact Text.startsWith_append _ _

theorem Under.not_isBlobKey {other : String} (h : Under keyPrefix base) (hkey : startsWith key other = true)
    (hapart : startsWith keyPrefix other = false ∧ startsWith other keyPrefix = false) : ¬ IsBlobKey base key := by
  intro hblob
  have hfirst := List.isPrefixOf_iff_prefix.mp (h.startsWith_key hblob)
  have hsecond := List.isPrefixOf_iff_prefix.mp hkey
  rcases List.prefix_or_prefix_of_prefix hfirst hsecond with hle | hle
  · exact Bool.eq_false_iff.mp hapart.2 (List.isPrefixOf_iff_prefix.mpr hle)
  · exact Bool.eq_false_iff.mp hapart.1 (List.isPrefixOf_iff_prefix.mpr hle)

theorem under_of_startsWith {rest : String} (hpre : ¬ [':', 'l'] <:+: keyPrefix.toList)
    (hkey : startsWith (base ++ ":len" ++ rest) keyPrefix = true) : Under keyPrefix base := by
  have hlist : (base ++ ":len" ++ rest).toList = (base ++ ":").toList ++ 'l' :: ("en" ++ rest).toList := by
    simp [String.toList_append]
  have hfirst : (base ++ ":").toList <+: (base ++ ":len" ++ rest).toList := ⟨_, hlist.symm⟩
  have hsecond := List.isPrefixOf_iff_prefix.mp hkey
  rcases List.prefix_or_prefix_of_prefix hsecond hfirst with hle | ⟨more, hmore⟩
  · exact List.isPrefixOf_iff_prefix.mpr hle
  · -- the prefix would go on with the `l` behind the colon
    cases more with
    | nil =>
      rw [List.append_nil] at hmore
      unfold Under startsWith
      rw [hmore, List.isPrefixOf_iff_prefix]
    | cons c more =>
      obtain ⟨tail, htail⟩ := hsecond
      rw [hlist, ← hmore, List.append_assoc, List.cons_append, List.append_cancel_left_eq] at htail
      obtain rfl := (List.cons.inj htail).1
      refine absurd ⟨base.toList, more, ?_⟩ hpre
      rw [← hmore]
      simp [String.toList_append]

theorem under_trimmed (hpre : ¬ [':', 'l'] <:+: keyPrefix.toList)
    (hkey : startsWith key keyPrefix = true) (hlen : endsWith key ":len" = true) :
    Under keyPrefix (trimEndMatchesStr ":len" key) := by
  obtain ⟨k, hk⟩ := Text.eq_trimEndMatchesStr_append hlen
  rw [Text.repeated_succ, ← String.append_assoc] at hk
  generalize trimEndMatchesStr ":len" key = base at hk ⊢
  rw [hk] at hkey
  exact under_of_startsWith hpre hkey

/-! ### Blobs that are there -/

/-- The words of the bytes can be read under the keys of a blob. -/
def Blob (db : NucleusDb P) (base : String) (raw : Bytes) : Prop :=
  ∀ write ∈ blobWrites base raw, readValueByKeyFromDb (traceDb db) write.1 = some write.2

theorem Blob.readBlob_eq (h : Blob db base raw) (hfits : raw.length < 2 ^ 64) :
    readBlob (traceDb db) base = .ok (some raw) := by
  have hlen : (UInt64.ofNat raw.length).toNat = raw.length := UInt64.toNat_ofNat_of_lt' hfits
  have hchunk : ∀ idx ∈ List.range (divCeil raw.length 8),
      Outcome.okOr ("missing chunk key " ++ (base ++ ":chunk:" ++ toString idx))
        (readValueByKeyFromDb (traceDb db) (base ++ ":chunk:" ++ toString idx)) =
      .ok ((bytesToU64Chunks raw).getD idx 0) := by
    intro idx hidx
    rw [List.mem_range, ← length_bytesToU64Chunks] at hidx
    rw [Outcome.okOr_eq_ok, List.getD_eq_getElem _ _ hidx]
    exact h (base ++ ":chunk:" ++ toString idx, (bytesToU64Chunks raw)[idx])
      (List.mem_cons_of_mem _ (List.mem_mapIdx.mpr ⟨idx, hidx, rfl⟩))
  have hwords : (List.range (divCeil raw.length 8)).map (fun idx => (bytesToU64Chunks raw).getD idx 0) =
      bytesToU64Chunks raw := by
    rw [← length_bytesToU64Chunks]
    refine List.ext_getElem (by simp) ?_
    intro idx hidx hidx'
    rw [List.getElem_map, List.getElem_range, List.getD_eq_getElem _ _ hidx']
  unfold readBlob
  rw [h _ List.mem_cons_self]
  dsimp only
  rw [hlen, Outcome.mapM_eq_ok hchunk, hwords]
  exact congrArg (fun bytes => Except.ok (some bytes)) (take_u64ChunksToBytes raw)

theorem readBlob_blank (h : (readValueByKeyFromDb (traceDb db) (base ++ ":len")).getD 0 = 0) :
    readBlob (traceDb db) base = .ok none ∨ readBlob (traceDb db) base = .ok (some []) := by
  unfold readBlob
  cases hlen : readValueByKeyFromDb (traceDb db) (base ++ ":len") with
  | none => exact .inl rfl
  | some len =>
    rw [hlen, Option.getD_some] at h
    subst h
    exact .inr rfl

/-- What a shelf is to a database, as far as the base keys in `Q` go: its blobs are there as they were put last, and under
other base keys there is nothing, or a blob without bytes. -/
structure Shows (Q : String → Prop) (db : NucleusDb P) (shelf : List (String × Bytes)) : Prop where
  keyed : Keyed db
  blob : ∀ {base raw}, Q base → Writes.last shelf base = some raw → Blob db base raw
  blank : ∀ {base}, Q base → Writes.last shelf base = none →
    (readValueByKeyFromDb (traceDb db) (base ++ ":len")).getD 0 = 0

/-- Only sessions that are on the shelf have a key for their length. -/
def Listed (db : NucleusDb P) (shelf : List (String × Bytes)) : Prop :=
  ∀ base, Under sessionPrefix base → (db.keymap.get (base ++ ":len")).isSome → (Writes.last shelf base).isSome

section Shows

variable {Q : String → Prop} {db db' : NucleusDb P} {shelf : List (String × Bytes)}

theorem Shows.congr (h : Shows Q db shelf) (hsame : traceDb db' = traceDb db) : Shows Q db' shelf := by
  obtain ⟨hkeymap, hstate⟩ := Attest.TraceDb.mk.inj hsame
  refine ⟨⟨hkeymap ▸ h.keyed.sound, ?_⟩, fun hQ hlast => ?_, fun hQ hlast => ?_⟩
  · rw [hstate, hkeymap]
    exact h.keyed.cells
  · unfold Blob
    rw [hsame]
    exact h.blob hQ hlast
  · rw [hsame]
    exact h.blank hQ hlast

theorem shows_nil (hkeymap : db.keymap = .new) (hstate : db.state = ⟨[]⟩) : Shows Q db [] := by
  refine ⟨⟨hkeymap ▸ Store.KeyMap.sound_new, ?_⟩, fun _ hlast => ?_, fun {base} _ _ => ?_⟩
  · rw [hstate]
    exact Nat.zero_le _
  · cases hlast
  · unfold readValueByKeyFromDb traceDb
    rw [hkeymap]
    rfl

theorem Shows.put_between (h : Shows Q db shelf) {before extras : List (String × UInt64)}
    (hbefore : ∀ w ∈ before, ∀ other, Q other → ¬ IsBlobKey other w.1)
    (hextras : ∀ w ∈ extras, ∀ other, Q other → ¬ IsBlobKey other w.1)
    (hcommit : commitTo db (before ++ blobWrites base raw ++ extras) now = (some (.ok ()), db')) :
    Shows Q db' (shelf ++ [(base, raw)]) := by
  have hlast {other key : String} (hQ : Q other) (hkey : IsBlobKey other key) :
      Writes.last (before ++ blobWrites base raw ++ extras) key = Writes.last (blobWrites base raw) key := by
    rw [Writes.last_append, Writes.last_append,
      Writes.last_eq_none (fun w hw heq => hextras w hw other hQ (heq ▸ hkey)),
      Writes.last_eq_none (fun w hw heq => hbefore w hw other hQ (heq ▸ hkey)), Option.none_or, Option.or_none]
  have hother {other key : String} (hne : base ≠ other) (hkey : IsBlobKey other key) :
      Writes.last (blobWrites base raw) key = none :=
    Writes.last_eq_none fun w hw heq => hne ((isBlobKey_of_mem hw).unique (heq ▸ hkey))
  refine ⟨h.keyed.commit hcommit, fun {other raw'} hQ hshelf => ?_, fun {other} hQ hshelf => ?_⟩
  · rw [Writes.last_concat] at hshelf
    intro write hwrite
    have hkey := isBlobKey_of_mem hwrite
    refine read_commitTo_of_some h.keyed hcommit ?_
    rw [hlast hQ hkey]
    split at hshelf
    · rename_i heq
      obtain rfl := Option.some.inj hshelf
      obtain rfl : base = other := heq
      rw [last_blobWrites hwrite, Option.some_or]
    · rename_i hne
      rw [hother hne hkey, Option.none_or]
      exact h.blob hQ hshelf write hwrite
  · rw [Writes.last_concat] at hshelf
    split at hshelf
    · cases hshelf
    · rename_i hne
      have hkey : IsBlobKey other (other ++ ":len") := .inl rfl
      rw [readD_commitTo h.keyed hcommit, hlast hQ hkey, hother hne hkey, Option.none_or]
      exact h.blank hQ hshelf

theorem Shows.put (h : Shows Q db shelf) {extras : List (String × UInt64)}
    (hextras : ∀ w ∈ extras, ∀ other, Q other → ¬ IsBlobKey other w.1)
    (hcommit : commitTo db (blobWrites base raw ++ extras) now = (some (.ok ()), db')) :
    Shows Q db' (shelf ++ [(base, raw)]) :=
  h.put_between (fun _ hw => absurd hw List.not_mem_nil) hextras hcommit

theorem Shows.keep (h : Shows Q db shelf) (hwrites : ∀ w ∈ writes, ∀ other, Q other → ¬ IsBlobKey other w.1)
    (hcommit : commitTo db writes now = (some (.ok ()), db')) : Shows Q db' shelf := by
  have hlast {other key : String} (hQ : Q other) (hkey : IsBlobKey other key) : Writes.last writes key = none :=
    Writes.last_eq_none fun w hw heq => hwrites w hw other hQ (heq ▸ hkey)
  refine ⟨h.keyed.commit hcommit, fun hQ hshelf write hwrite => ?_, fun hQ hshelf => ?_⟩
  · refine read_commitTo_of_some h.keyed hcommit ?_
    rw [hlast hQ (isBlobKey_of_mem hwrite), Option.none_or]
    exact h.blob hQ hshelf write hwrite
  · rw [readD_commitTo h.keyed hcommit, hlast hQ (.inl rfl), Option.none_or]
    exact h.blank hQ hshelf

theorem Shows.registered (h : Shows Q db shelf) (writes : List (String × UInt64)) :
    Shows Q (registered db writes) shelf := by
  refine ⟨⟨h.keyed.sound.register _, ?_⟩, fun hQ hshelf write hwrite => ?_, fun hQ hshelf => ?_⟩
  · exact Nat.le_trans h.keyed.cells (Store.KeyMap.nextIndex_le_register _ _)
  · rw [read_registered h.keyed]
    exact h.blob hQ hshelf write hwrite
  · rw [read_registered h.keyed]
    exact h.blank hQ hshelf

theorem Shows.readBlob_eq (h : Shows Q db shelf) (hQ : Q base)
    (hfits : ∀ raw, Writes.last shelf base = some raw → raw.length < 2 ^ 64) :
    readBlob (traceDb db) base = .ok (Writes.last shelf base) ∨
      Writes.last shelf base = none ∧ readBlob (traceDb db) base = .ok (some []) := by
  cases hlast : Writes.last shelf base with
  | some raw => exact .inl ((h.blob hQ hlast).readBlob_eq (hfits raw hlast))
  | none => exact (readBlob_blank (h.blank hQ hlast)).imp id fun hempty => ⟨rfl, hempty⟩

end Shows

end AgentHalo.Trace
