import AgentHalo.Engine.AppendOnly
import AgentHalo.Engine.Chain
import AgentHalo.Transparency.Extension

/-!
# Head extensions

`verify_head_extension` compares two tree heads by a consistency proof and looks at their roots only: neither the sizes
in the heads nor those in the proof are tied to a log. The two prefixes of the log's hashes are what keeps it sound. A
finite hash has collisions, so soundness is stated for a hash without one among the texts that are hashed here, those of
the two logs and those of the verifier. Completeness is about the database: its log only grows, also when a commit fails
after its leaf was pushed, so what was ever published can be checked against each later head.
-/

namespace AgentHalo.Engine

open Store (TypedValue)
open Transparency

variable {P : Platform}

namespace NucleusDb

/-- The database itself is not consulted. -/
def verifyHeadExtension (_db : NucleusDb P) (old new : SignedTreeHead) (proof : ConsistencyProof NodeHash) : Bool :=
  verifyConsistencyProof (hasher P) proof old.rootHash new.rootHash

end NucleusDb

structure HeadOf (P : Platform) (leaves : List NodeHash) (head : SignedTreeHead) : Prop where
  treeSize : head.treeSize = leaves.length
  rootHash : head.rootHash = merkleTreeHash (hasher P) leaves

def leafText (payload : Bytes) : Bytes := 0x00 :: payload

/-- The text an inner node is the hash of. -/
def nodeText (pair : NodeHash × NodeHash) : Bytes := 0x01 :: (pair.1.toList ++ pair.2.toList)

/-- The texts that are hashed to build the two logs and to check the proof. -/
def extensionTexts (P : Platform) (old new : List Bytes) (proof : ConsistencyProof NodeHash) : List Bytes :=
  let oldLeaves := old.map (leafHash P)
  let newLeaves := new.map (leafHash P)
  [] :: ((old ++ new).map leafText ++
    (treePairs (hasher P) oldLeaves ++ treePairs (hasher P) newLeaves ++
      proofPairs (hasher P) proof (merkleTreeHash (hasher P) oldLeaves)).map nodeText)

/-- SHA-256 has no collision among these texts. -/
def CollisionFree (P : Platform) (texts : List Bytes) : Prop :=
  ∀ a ∈ texts, ∀ b ∈ texts, P.sha256 a = P.sha256 b → a = b

theorem nodeText_inj {x y : NodeHash × NodeHash} (h : nodeText x = nodeText y) : x = y := by
  unfold nodeText at h
  obtain ⟨hleft, hright⟩ := List.append_inj (List.cons.inj h).2 (by simp)
  exact Prod.ext (Vector.toList_inj.mp hleft) (Vector.toList_inj.mp hright)

variable {texts : List Bytes} {db : NucleusDb P} {first last : Shown}

theorem CollisionFree.mono {more : List Bytes} (h : CollisionFree P more) (hsub : texts ⊆ more) :
    CollisionFree P texts := fun a ha b hb => h a (hsub ha) b (hsub hb)

theorem soundOn_of_texts (hfree : CollisionFree P texts) (hempty : [] ∈ texts) {payloads : List Bytes}
    (hleaf : ∀ payload ∈ payloads, leafText payload ∈ texts) {pairs : List (NodeHash × NodeHash)}
    (hpair : ∀ x ∈ pairs, nodeText x ∈ texts) :
    SoundOn (hasher P) (payloads.map (leafHash P)) pairs := by
  constructor
  · exact fun x hx y hy h => nodeText_inj (hfree _ (hpair x hx) _ (hpair y hy) h)
  · intro leaf hmem x hx h
    obtain ⟨payload, hpayload, rfl⟩ := List.mem_map.mp hmem
    have htexts : nodeText x = leafText payload := hfree _ (hpair x hx) _ (hleaf payload hpayload) h
    exact absurd (List.cons.inj htexts).1 (by decide)
  · exact fun x hx h => List.cons_ne_nil _ _ (hfree _ (hpair x hx) _ hempty h)
  · intro hmem
    obtain ⟨payload, hpayload, h⟩ := List.mem_map.mp hmem
    exact List.cons_ne_nil _ _ (hfree _ (hleaf payload hpayload) _ hempty h)

theorem soundOn_of_collisionFree {old new : List Bytes} {proof : ConsistencyProof NodeHash}
    (hfree : CollisionFree P (extensionTexts P old new proof)) :
    SoundOn (hasher P) (old.map (leafHash P) ++ new.map (leafHash P))
      (treePairs (hasher P) (old.map (leafHash P)) ++ treePairs (hasher P) (new.map (leafHash P)) ++
        proofPairs (hasher P) proof (merkleTreeHash (hasher P) (old.map (leafHash P)))) := by
  rw [← List.map_append]
  refine soundOn_of_texts hfree List.mem_cons_self (fun payload hpayload => ?_) fun x hx => ?_
  · exact List.mem_cons_of_mem _ (List.mem_append_left _ (List.mem_map_of_mem hpayload))
  · exact List.mem_cons_of_mem _ (List.mem_append_right _ (List.mem_map_of_mem hx))

/-- **A head extension is a prefix, whatever sizes the proof claims.** -/
theorem prefix_of_verifyHeadExtension (db : NucleusDb P) (old new : List Bytes) (oldHead newHead : SignedTreeHead)
    (proof : ConsistencyProof NodeHash) (hold : HeadOf P (old.map (leafHash P)) oldHead)
    (hnew : HeadOf P (new.map (leafHash P)) newHead) (hfree : CollisionFree P (extensionTexts P old new proof))
    (h : db.verifyHeadExtension oldHead newHead proof = true) :
    old.map (leafHash P) <+: new.map (leafHash P) := by
  unfold NucleusDb.verifyHeadExtension at h
  rw [hold.rootHash, hnew.rootHash] at h
  exact prefix_of_verifyConsistencyProof_of_sound (soundOn_of_collisionFree hfree) h

/-! ### Clients -/

/-- A head with the log that it is the head of, and the proof that comes with it. -/
structure Shown where
  log : List Bytes
  head : SignedTreeHead
  proof : ConsistencyProof NodeHash

/-- A client that holds one head takes the next: the proof verifies, and both are heads of logs that hash without a
collision. The logs may be anything, the client does not see them. -/
structure Accepts (db : NucleusDb P) (held shown : Shown) : Prop where
  ofHeld : HeadOf P (held.log.map (leafHash P)) held.head
  ofShown : HeadOf P (shown.log.map (leafHash P)) shown.head
  free : CollisionFree P (extensionTexts P held.log shown.log shown.proof)
  verified : db.verifyHeadExtension held.head shown.head shown.proof = true

theorem Accepts.continued {held shown : Shown} (h : Accepts db held shown) :
    held.log.map (leafHash P) <+: shown.log.map (leafHash P) := by
  have hverified := h.verified
  unfold NucleusDb.verifyHeadExtension at hverified
  rw [h.ofHeld.rootHash, h.ofShown.rootHash] at hverified
  exact prefix_of_verifyConsistencyProof_of_sound (soundOn_of_collisionFree h.free) hverified

/-- A client has come from its first head to its last one, taking head after head as it was shown them. -/
structure Follows (db : NucleusDb P) (first last : Shown) : Prop where
  ofFirst : HeadOf P (first.log.map (leafHash P)) first.head
  taken : Relation.ReflTransGen (Accepts db) first last

theorem Follows.ofLast (h : Follows db first last) :
    HeadOf P (last.log.map (leafHash P)) last.head := by
  cases h.taken with
  | refl => exact h.ofFirst
  | tail _ hstep => exact hstep.ofShown

theorem Follows.continued (h : Follows db first last) :
    first.log.map (leafHash P) <+: last.log.map (leafHash P) := by
  obtain ⟨-, htaken⟩ := h
  induction htaken with
  | refl => exact List.prefix_refl _
  | tail _ hstep ih => exact ih.trans hstep.continued

/-- The texts that are hashed to build two logs. -/
def logTexts (P : Platform) (log log' : List Bytes) : List Bytes :=
  [] :: ((log ++ log').map leafText ++
    (treePairs (hasher P) (log.map (leafHash P)) ++ treePairs (hasher P) (log'.map (leafHash P))).map nodeText)

theorem leaves_eq_of_root {log log' : List Bytes} (hfree : CollisionFree P (logTexts P log log'))
    (hroot : merkleTreeHash (hasher P) (log.map (leafHash P)) = merkleTreeHash (hasher P) (log'.map (leafHash P))) :
    log.map (leafHash P) = log'.map (leafHash P) := by
  have hsound : SoundOn (hasher P) ((log ++ log').map (leafHash P))
      (treePairs (hasher P) (log.map (leafHash P)) ++ treePairs (hasher P) (log'.map (leafHash P))) := by
    refine soundOn_of_texts hfree List.mem_cons_self (fun payload hpayload => ?_) fun x hx => ?_
    · exact List.mem_cons_of_mem _ (List.mem_append_left _ (List.mem_map_of_mem hpayload))
    · exact List.mem_cons_of_mem _ (List.mem_append_right _ (List.mem_map_of_mem hx))
  rw [List.map_append] at hsound
  generalize log.map (leafHash P) = leaves at hroot hsound ⊢
  generalize log'.map (leafHash P) = leaves' at hroot hsound ⊢
  have hempty : merkleTreeHash (hasher P) [] = (hasher P).emptyHash := by rw [merkleTreeHash]
  have hwithin (h : leaves ≠ []) : Within (hasher P) (leaves ++ leaves')
      (treePairs (hasher P) leaves ++ treePairs (hasher P) leaves') leaves :=
    ⟨h, fun x => List.mem_append_left _, fun x => List.mem_append_left _⟩
  have hwithin' (h : leaves' ≠ []) : Within (hasher P) (leaves ++ leaves')
      (treePairs (hasher P) leaves ++ treePairs (hasher P) leaves') leaves' :=
    ⟨h, fun x => List.mem_append_right _, fun x => List.mem_append_right _⟩
  rcases eq_or_ne leaves [] with rfl | hne
  · rcases eq_or_ne leaves' [] with rfl | hne'
    · rfl
    · exact absurd (hroot.symm.trans hempty) ((hwithin' hne').root_ne_empty hsound)
  · rcases eq_or_ne leaves' [] with rfl | hne'
    · exact absurd (hroot.trans hempty) ((hwithin hne).root_ne_empty hsound)
    · exact (hwithin hne).eq_of_root hsound (hwithin' hne') hroot

/-- **No split view.** Two clients that were shown heads and proofs, one after the other and as the engine pleased, and
that end with the same head, have started from logs of which one continues the other. So what two clients hold of
different histories can never be brought together again. -/
theorem no_split_view {db db' : NucleusDb P} {first last first' last' : Shown} (h : Follows db first last)
    (h' : Follows db' first' last') (hhead : last.head = last'.head)
    (hfree : CollisionFree P (logTexts P last.log last'.log)) :
    first.log.map (leafHash P) <+: first'.log.map (leafHash P) ∨
      first'.log.map (leafHash P) <+: first.log.map (leafHash P) := by
  have hlast : last.log.map (leafHash P) = last'.log.map (leafHash P) := by
    refine leaves_eq_of_root hfree ?_
    rw [← h.ofLast.rootHash, ← h'.ofLast.rootHash, hhead]
  exact List.prefix_or_prefix_of_prefix h.continued (hlast ▸ h'.continued)

section Witness

section Three

variable (x y z : NodeHash)

theorem largestPowerOfTwoLessThan_three : largestPowerOfTwoLessThan 3 = 2 := by
  rw [largestPowerOfTwoLessThan_halve (by decide), largestPowerOfTwoLessThan_two]

theorem treePairs_one : treePairs (hasher .reference) [x] = [] := treePairs_small _ (by simp)

theorem treePairs_two : treePairs (hasher .reference) [x, y] = [(x, y)] := by
  rw [treePairs_split _ _ (by simp)]
  simp [largestPowerOfTwoLessThan_two, treePairs_one]

theorem treePairs_three : treePairs (hasher .reference) [x, y, z] =
    [((hasher .reference).nodeHash x y, z), (x, y)] := by
  rw [treePairs_split _ _ (by simp)]
  simp [largestPowerOfTwoLessThan_three, merkleTreeHash_pair, treePairs_one, treePairs_two]

theorem merkleTreeHash_three : merkleTreeHash (hasher .reference) [x, y, z] =
    (hasher .reference).nodeHash ((hasher .reference).nodeHash x y) z := by
  rw [merkleTreeHash_split _ _ (by simp)]
  simp [largestPowerOfTwoLessThan_three, merkleTreeHash_pair]

end Three

def secondEntryProof : ConsistencyProof NodeHash := ⟨1, 2, [leafHash .reference [2]]⟩

theorem extensionTexts_second : extensionTexts .reference [[1]] [[1], [2]] secondEntryProof =
    [[], [0, 1], [0, 1], [0, 2], nodeText (leafHash .reference [1], leafHash .reference [2]),
      nodeText (leafHash .reference [1], leafHash .reference [2])] := by
  simp [extensionTexts, leafText, secondEntryProof, proofPairs, fullConsistencyPath, Nat.isPowerOfTwo_one,
    treePairs_two, treePairs_one, shiftWhileOdd, consistencyPairs]

theorem verifyHeadExtension_second : NucleusDb.singleWitnessDb.verifyHeadExtension
    (makeSth .reference ([[1]].map (leafHash .reference)) 0)
    (makeSth .reference ([[1], [2]].map (leafHash .reference)) 0) secondEntryProof = true := by
  simp [NucleusDb.verifyHeadExtension, makeSth, verifyConsistencyProof, secondEntryProof, fullConsistencyPath,
    Nat.isPowerOfTwo_one, merkleTreeHash_pair, consistencyLoop, shiftWhileOdd]

theorem prefix_of_verifyHeadExtension_second :
    [[1]].map (leafHash .reference) <+: [[1], [2]].map (leafHash .reference) :=
  prefix_of_verifyHeadExtension NucleusDb.singleWitnessDb [[1]] [[1], [2]] _ _ secondEntryProof ⟨rfl, rfl⟩ ⟨rfl, rfl⟩
    (by
      unfold CollisionFree
      rw [extensionTexts_second]
      decide)
    verifyHeadExtension_second

/-- A client's view of the log with these entries, and the proof that it was shown with the head. -/
def shownLog (log : List Bytes) (proof : ConsistencyProof NodeHash) : Shown :=
  ⟨log, makeSth .reference (log.map (leafHash .reference)) 0, proof⟩

/-- The proofs from one entry and from two to a log with three. -/
def thirdFromFirst : ConsistencyProof NodeHash :=
  ⟨1, 3, [leafHash .reference [2], leafHash .reference [3]]⟩

def thirdFromSecond : ConsistencyProof NodeHash := ⟨2, 3, [leafHash .reference [3]]⟩

/-- The texts of the log with three entries and its beginnings. -/
def threeTexts : List Bytes :=
  let first := leafHash .reference [1]
  let second := leafHash .reference [2]
  [[], [0, 1], [0, 2], [0, 3], nodeText (first, second),
    nodeText ((hasher .reference).nodeHash first second, leafHash .reference [3])]

theorem threeTexts_free : CollisionFree .reference threeTexts := by
  unfold CollisionFree
  decide

theorem shiftWhileOdd_one_two : shiftWhileOdd 1 2 = (0, 1) := by
  simp [shiftWhileOdd]

theorem thirdFromFirst_accepted : Accepts NucleusDb.singleWitnessDb (shownLog [[1]] secondEntryProof)
    (shownLog [[1], [2], [3]] thirdFromFirst) := by
  refine ⟨⟨rfl, rfl⟩, ⟨rfl, rfl⟩, threeTexts_free.mono ?_, ?_⟩
  · simp [shownLog, extensionTexts, leafText, thirdFromFirst, proofPairs, fullConsistencyPath, Nat.isPowerOfTwo_one,
      treePairs_one, treePairs_three, shiftWhileOdd, consistencyPairs, threeTexts]
  · simp [shownLog, NucleusDb.verifyHeadExtension, makeSth, verifyConsistencyProof, thirdFromFirst,
      fullConsistencyPath, Nat.isPowerOfTwo_one, merkleTreeHash_three, consistencyLoop, shiftWhileOdd]

theorem thirdFromSecond_accepted : Accepts NucleusDb.singleWitnessDb (shownLog [[1], [2]] secondEntryProof)
    (shownLog [[1], [2], [3]] thirdFromSecond) := by
  have htwo : Nat.isPowerOfTwo 2 := ⟨1, rfl⟩
  refine ⟨⟨rfl, rfl⟩, ⟨rfl, rfl⟩, threeTexts_free.mono ?_, ?_⟩
  · simp [shownLog, extensionTexts, leafText, thirdFromSecond, proofPairs, fullConsistencyPath, htwo, treePairs_two,
      treePairs_three, shiftWhileOdd_one_two, consistencyPairs, threeTexts, merkleTreeHash_pair]
  · simp [shownLog, NucleusDb.verifyHeadExtension, makeSth, verifyConsistencyProof, thirdFromSecond,
      fullConsistencyPath, htwo, merkleTreeHash_three, merkleTreeHash_pair, consistencyLoop, shiftWhileOdd_one_two]

/-- One client has seen the first entry, the other the first two, and the third entry reaches them by different
proofs. -/
theorem no_split_view_second :
    [[1]].map (leafHash .reference) <+: [[1], [2]].map (leafHash .reference) ∨
      [[1], [2]].map (leafHash .reference) <+: [[1]].map (leafHash .reference) := by
  refine no_split_view ⟨⟨rfl, rfl⟩, .single thirdFromFirst_accepted⟩ ⟨⟨rfl, rfl⟩, .single thirdFromSecond_accepted⟩
    rfl (threeTexts_free.mono ?_)
  simp [shownLog, logTexts, leafText, treePairs_three, threeTexts]

end Witness

/-! ### Heads along a run -/

namespace NucleusDb

/-- The published head is that of the whole log, and only an empty log has none. -/
def HeadCurrent (db : NucleusDb P) : Prop :=
  (db.ctLeaves = [] ∧ db.currentSth = none) ∨
    (db.ctLeaves ≠ [] ∧ ∃ now, db.currentSth = some (makeSth P db.ctLeaves now))

/-- The leaf of each entry is at its place in the log, whatever commits failed after it. -/
def EntriesLogged (db : NucleusDb P) : Prop :=
  ∀ (i : Nat) (e : CommitEntry), db.entries[i]? = some e → db.ctLeaves[i]? = some (leafOf P e)

structure LogSound (db : NucleusDb P) : Prop where
  current : HeadCurrent db
  logged : EntriesLogged db

variable {db db' : NucleusDb P} {delta : Delta} {localViews : List LocalSection} {now : Nat}
  {r : Except CommitError CommitEntry}

theorem LogSound.of_fresh {initial : State} (h : FreshlyBuilt initial db) : LogSound db := by
  obtain ⟨-, hentries, hleaves, hsth⟩ := h.fresh
  refine ⟨.inl ⟨hleaves, hsth⟩, ?_⟩
  intro i e he
  rw [hentries] at he
  cases he

/-- What a commit does to the log: nothing, or it pushes a leaf and publishes the head of the longer log, and the entry
that it may make is that of the leaf. -/
theorem commit_log (h : db.commit delta localViews now = some (r, db')) :
    db' = db ∨ ∃ leaf, db'.ctLeaves = db.ctLeaves ++ [leaf] ∧ db'.currentSth = some (makeSth P db'.ctLeaves now) ∧
      (db'.entries = db.entries ∨
        ∃ entry, db'.entries = db.entries ++ [entry] ∧ db.ctLeaves.length = db.entries.length ∧ leaf = leafOf P entry) := by
  rcases commit_cases h with ⟨-, -, rfl⟩ | ⟨-, -, rs, -, rfl | rfl⟩ | ⟨rs, sigs, entry, -, hc⟩
  · exact .inl rfl
  · exact .inr ⟨_, rfl, rfl, .inl rfl⟩
  · exact .inr ⟨_, rfl, rfl, .inl rfl⟩
  · have hadv := hc.advanced
    exact .inr ⟨_, hc.ctLeaves_eq, hc.sth_eq ▸ hadv.currentSth, .inr ⟨entry, hadv.entries, hadv.inStep, rfl⟩⟩

theorem putTyped_log (db : NucleusDb P) (key : String) (value : TypedValue P) (clock : Clock) :
    (db.putTyped key value clock).2.ctLeaves = db.ctLeaves ∧ (db.putTyped key value clock).2.currentSth = db.currentSth ∧
      (db.putTyped key value clock).2.entries = db.entries := by
  unfold putTyped
  dsimp only
  split
  · exact ⟨rfl, rfl, rfl⟩
  · exact ⟨rfl, rfl, rfl⟩

theorem LogSound.congr (h : LogSound db) (hleaves : db'.ctLeaves = db.ctLeaves) (hsth : db'.currentSth = db.currentSth)
    (hentries : db'.entries = db.entries) : LogSound db' := by
  constructor
  · unfold HeadCurrent
    rw [hleaves, hsth]
    exact h.current
  · unfold EntriesLogged
    rw [hleaves, hentries]
    exact h.logged

theorem LogSound.commit (hsound : LogSound db) (h : db.commit delta localViews now = some (r, db')) :
    LogSound db' := by
  rcases commit_log h with rfl | ⟨leaf, hleaves, hsth, hentries⟩
  · exact hsound
  · refine ⟨.inr ⟨by simp [hleaves], now, hsth⟩, ?_⟩
    intro i e he
    rw [hleaves]
    rcases hentries with hsame | ⟨entry, hgrown, hstep, rfl⟩
    · rw [hsame] at he
      exact getElem?_concat_of_some (hsound.logged i e he)
    · rw [hgrown] at he
      rcases getElem?_concat he with hold | ⟨rfl, rfl⟩
      · exact getElem?_concat_of_some (hsound.logged i e hold)
      · rw [← hstep, List.getElem?_concat_length]

theorem logSound_invariant : DbInvariant fun db : NucleusDb P => LogSound db where
  commit hsound h := hsound.commit h
  putTyped key value clock hsound := by
    obtain ⟨hleaves, hsth, hentries⟩ := putTyped_log _ key value clock
    exact hsound.congr hleaves hsth hentries
  getOrCreate _ hsound := hsound.congr rfl rfl rfl
  setAppendOnly hsound := hsound.congr rfl rfl rfl

theorem ctLeaves_prefix_applyOp (db : NucleusDb P) (op : DbOp P) : db.ctLeaves <+: (db.applyOp op).ctLeaves := by
  cases op with
  | commit delta localViews now =>
    unfold applyOp
    dsimp only
    split
    · rename_i hcommit
      rcases commit_log hcommit with rfl | ⟨leaf, hleaves, -⟩
      · exact List.prefix_refl _
      · rw [hleaves]
        exact List.prefix_append _ _
    · exact List.prefix_refl _
  | putTyped key value clock =>
    unfold applyOp
    rw [(putTyped_log db key value clock).1]
  | setAppendOnly => exact List.prefix_refl _

/-- What a client that keeps `old` and the entries of then can check against a database of today: the head it is shown
extends the one it kept, and the entries are in the tree of the new head. -/
def Serves (db : NucleusDb P) (old : SignedTreeHead) (entries : List CommitEntry) : Prop :=
  ∃ new proof, db.consistencyFrom old.treeSize = some (new, proof) ∧ db.verifyHeadExtension old new proof = true ∧
    ∀ i e, entries[i]? = some e → ∃ p, makeInclusionProof (hasher P) db.ctLeaves i = some p ∧ p.leafIndex = i ∧
      p.leafHash = leafOf P e ∧ verifyInclusionProof (hasher P) p new.rootHash = true

theorem exists_inclusionProof {leaves : List NodeHash} {i : Nat} {leaf : NodeHash} (h : leaves[i]? = some leaf) :
    ∃ p, makeInclusionProof (hasher P) leaves i = some p ∧ p.leafIndex = i ∧ p.leafHash = leaf ∧
      verifyInclusionProof (hasher P) p (merkleTreeHash (hasher P) leaves) = true := by
  have hlt : i < leaves.length := (List.getElem?_eq_some_iff.mp h).1
  obtain ⟨path, hpath⟩ := exists_inclusionPath (hasher P) leaves i hlt
  refine ⟨⟨i, leaves.length, leaf, path⟩, ?_, rfl, rfl, ?_⟩
  · simp [makeInclusionProof, hpath, h]
  · unfold verifyInclusionProof
    rw [if_neg (by dsimp only; omega), inclusionLoop_of_inclusionPath (hasher P) leaves i hlt path leaf h hpath]
    simp

theorem LogSound.serves (hsound : LogSound db) (hsound' : LogSound db') (hgrown : db.ctLeaves <+: db'.ctLeaves)
    {old : SignedTreeHead} (hold : db.currentSth = some old) :
    db'.Serves old db.entries := by
  obtain ⟨-, hnone⟩ | ⟨hne, now, hsth⟩ := hsound.current
  · rw [hold] at hnone
    cases hnone
  obtain rfl := Option.some.inj (hold.symm.trans hsth)
  obtain ⟨hempty, -⟩ | ⟨-, now', hsth'⟩ := hsound'.current
  · rw [hempty] at hgrown
    exact absurd (List.prefix_nil.mp hgrown) hne
  have hsize : 1 ≤ db.ctLeaves.length ∧ db.ctLeaves.length ≤ db'.ctLeaves.length :=
    ⟨List.length_pos_iff.mpr hne, hgrown.length_le⟩
  obtain ⟨proof, hproof⟩ := Option.isSome_iff_exists.mp
    ((makeConsistencyProof_isSome_iff (hasher P) db'.ctLeaves db.ctLeaves.length).mpr hsize)
  obtain ⟨-, -, hverify⟩ := verifyConsistencyProof_of_make (hasher P) hproof
  rw [← List.prefix_iff_eq_take.mp hgrown] at hverify
  refine ⟨makeSth P db'.ctLeaves now', proof, ?_, hverify, ?_⟩
  · unfold consistencyFrom
    rw [hsth']
    dsimp only
    rw [show (makeSth P db.ctLeaves now).treeSize = db.ctLeaves.length from rfl, hproof]
    rfl
  · intro i e he
    obtain ⟨more, hmore⟩ := hgrown
    refine exists_inclusionProof ?_
    rw [← hmore, List.getElem?_append_left (List.getElem?_eq_some_iff.mp (hsound.logged i e he)).1]
    exact hsound.logged i e he

/-- **No published head is abandoned.** Take any run of commits, typed writes and mode changes on a database that was
just opened, with any outcomes. The head that was published at any point of it is extended by the head at the end, the
engine has the proof, and it has proofs that the entries of then are in the tree of the head at the end. -/
theorem serves_of_run {initial : State} {start : NucleusDb P} (hfresh : FreshlyBuilt initial start)
    (before after : List (DbOp P)) {old : SignedTreeHead}
    (hold : (Run.exec applyOp start before).currentSth = some old) :
    (Run.exec applyOp start (before ++ after)).Serves old (Run.exec applyOp start before).entries := by
  have hthen : LogSound (Run.exec applyOp start before) :=
    Run.exec_invariant (I := fun d : NucleusDb P => LogSound d) (fun _ op h => logSound_invariant.applyOp h op)
      (LogSound.of_fresh hfresh) before
  rw [Run.exec_append]
  refine hthen.serves ?_ ?_ hold
  · exact Run.exec_invariant (I := fun d : NucleusDb P => LogSound d) (fun _ op h => logSound_invariant.applyOp h op)
      hthen after
  · exact Run.exec_related (R := fun d d' : NucleusDb P => d.ctLeaves <+: d'.ctLeaves) (I := fun _ => True)
      (fun _ => List.prefix_refl _) (fun _ _ _ => List.IsPrefix.trans)
      (fun d op _ => ⟨trivial, ctLeaves_prefix_applyOp d op⟩) trivial after

theorem serves_of_run_single : ∃ old,
    (Run.exec applyOp singleWitnessDb [.commit ⟨[(0, 1)]⟩ [] 0]).currentSth = some old ∧
      (Run.exec applyOp singleWitnessDb ([.commit ⟨[(0, 1)]⟩ [] 0] ++ [.setAppendOnly, .commit ⟨[(1, 2)]⟩ [] 5])).Serves old
        (Run.exec applyOp singleWitnessDb [.commit ⟨[(0, 1)]⟩ [] 0]).entries := by
  obtain ⟨entry, db, hcommit⟩ := singleWitnessDb_commit
  have hold : (Run.exec applyOp singleWitnessDb [.commit ⟨[(0, 1)]⟩ [] 0]).currentSth = some entry.sth := by
    rw [Run.exec_cons, Run.exec_nil, applyOp, hcommit]
    exact (commit_advanced hcommit).currentSth
  exact ⟨entry.sth, hold, serves_of_run singleWitnessDb_freshlyBuilt _ _ hold⟩

end NucleusDb

end AgentHalo.Engine
