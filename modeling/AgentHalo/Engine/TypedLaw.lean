import AgentHalo.Engine.CommitSpec
import AgentHalo.Engine.TypedStore
import AgentHalo.Store.Codec

/-!
# The law of the typed store

A typed value is written in two moves: `put_typed` writes tag, payload and key at once and returns a cell, and a commit
installs the cell. `putTyped_ok` says what the first move did, `cell_apply` what the second does to a cell. Between them
the value reads back, whatever the key held before, and every other key reads as it did.
-/

namespace AgentHalo.Engine.NucleusDb

open Store (TypedValue TypeMap KeyMap BlobStore)

variable {P : Platform}

variable {key : String} {value : TypedValue P} {idx : Nat}

theorem putTyped_ok {db db' : NucleusDb P} {clock : Clock} {cell : UInt64}
    (h : db.putTyped key value clock = (.ok (idx, cell), db')) :
    idx = (db.keymap.getOrCreate key).1 ∧ cell = (value.encode key).1 ∧ db'.state = db.state ∧
      db'.keymap = (db.keymap.getOrCreate key).2 ∧ db'.typeMap = db.typeMap.set key value.tag ∧
      db'.blobStore = blobsAfter db key value clock := by
  unfold putTyped at h
  dsimp only at h
  split at h
  · cases h
  · obtain ⟨hresult, rfl⟩ := Prod.mk.inj h
    obtain ⟨rfl, rfl⟩ := Prod.mk.inj (Except.ok.inj hresult)
    exact ⟨rfl, rfl, rfl, rfl, rfl, rfl⟩

theorem putTyped_of_accepted (db : NucleusDb P) (key : String) (value : TypedValue P) (clock : Clock)
    (h : ¬ RejectsVector db value) :
    db.putTyped key value clock =
      (.ok ((db.keymap.getOrCreate key).1, (value.encode key).1), (db.putTyped key value clock).2) := by
  refine Prod.ext ?_ rfl
  cases value with
  | vector dims =>
    have hindexed : (db.vectorIndex.upsert key dims clock.vector).1 = .ok () := by
      simp only [RejectsVector, not_or, not_exists, not_and, not_not] at h
      obtain ⟨hne, hdims⟩ := h
      unfold Store.VectorIndex.upsert
      dsimp only
      rw [if_neg (by simpa using hne)]
      cases hexpected : db.vectorIndex.expectedDims with
      | none => rfl
      | some expected =>
        dsimp only
        rw [if_neg (not_not.mpr (hdims expected hexpected))]
    unfold putTyped
    dsimp only
    rw [hindexed]
  | _ => rfl

theorem getTyped_of_encoded {db : NucleusDb P} (hidx : db.keymap.get key = some idx) (htag : db.typeMap.get key = value.tag)
    (hcell : db.state.cell idx = (value.encode key).1) (hblob : BlobStore.get db.blobStore key = (value.encode key).2)
    (hcodec : value.RoundTrips) :
    db.getTyped key = some value := by
  rw [getTyped_of_index hidx, htag, hcell, hblob, TypedValue.decode_encode key value hcodec]
  rfl

theorem getTyped_of_absent {db : NucleusDb P} (h : db.keymap.get key = none) :
    db.getTyped key = none := by
  unfold getTyped
  rw [h]

/-- **The typed store law.** Let `put_typed` of a value succeed, with a payload store below capacity, and let a commit
succeed whose last write to the returned index is the returned cell and which writes to no other key's index. Then the
key reads as the value and every other key reads as it did before the two. -/
theorem getTyped_putTyped_commit {db db₁ db₂ : NucleusDb P} {key : String} {value : TypedValue P} {clock : Clock}
    {idx : Nat} {cell : UInt64} {delta : Delta} {localViews : List LocalSection} {now : Nat} {entry : CommitEntry}
    (hcodec : value.RoundTrips)
    (hfits : ∀ data, (value.encode key).2 = some data → BlobStore.Fits db.blobStore key data)
    (hput : db.putTyped key value clock = (.ok (idx, cell), db₁))
    (hcommit : db₁.commit delta localViews now = some (.ok entry, db₂))
    (hlast : Writes.last delta.writes idx = some cell)
    (hothers : ∀ write ∈ delta.writes, ∀ other, other ≠ key → db₁.keymap.get other ≠ some write.1) :
    db₂.getTyped key = some value ∧ ∀ other, other ≠ key → db₂.getTyped other = db.getTyped other := by
  obtain ⟨hidx, hcell, hstate, hkeymap, htypes, hblobs⟩ := putTyped_ok hput
  have hframe := commit_sameFrame hcommit
  have hnext : ∀ i, db₂.state.cell i = (Writes.last delta.writes i).getD (db.state.cell i) := by
    intro i
    rw [(commit_advanced hcommit).state, cell_apply, hstate]
  constructor
  · have hkey : db₂.keymap.get key = some idx := by
      rw [hframe.keymap, hkeymap, hidx]
      exact KeyMap.get_getOrCreate_self db.keymap key
    refine getTyped_of_encoded hkey ?_ ?_ ?_ hcodec
    · rw [hframe.typeMap, htypes, TypeMap.get_set, if_pos rfl]
    · rw [hnext, hlast, hcell]
      rfl
    · rw [hframe.blobStore, hblobs]
      exact get_blobsAfter_self db key value clock hfits
  · intro other hne
    have hsame : db₂.keymap.get other = db.keymap.get other := by
      rw [hframe.keymap, hkeymap]
      exact KeyMap.get_getOrCreate_other db.keymap hne
    cases hother : db.keymap.get other with
    | none =>
      rw [hother] at hsame
      rw [getTyped_of_absent hother, getTyped_of_absent hsame]
    | some i =>
      rw [hother] at hsame
      refine getTyped_congr hother hsame ?_ ?_ ?_
      · -- no write of the delta reaches this key's index
        have hnone : Writes.last delta.writes i = none := by
          refine Writes.last_eq_none ?_
          intro write hmem heq
          apply hothers write hmem other hne
          rw [← hframe.keymap, hsame, heq]
        rw [hnext, hnone]
        rfl
      · rw [hframe.typeMap, htypes, TypeMap.get_set, if_neg hne.symm]
      · rw [hframe.blobStore, hblobs]
        exact get_blobsAfter_other db hne.symm value clock hfits

theorem Ready.putTyped {db : NucleusDb .reference} (h : Ready db) (key : String)
    (value : TypedValue .reference) (clock : Clock) : Ready (db.putTyped key value clock).2 := by
  rcases putTyped_cases db key value clock with ⟨vectorIndex, hdb⟩ | ⟨-, vectorIndex, hdb⟩
  · rw [hdb]
    exact ⟨h.backend, h.witnessCfg, h.securityParams, h.reductionContracts, h.writeMode, h.inStep⟩
  · rw [hdb]
    exact ⟨h.backend, h.witnessCfg, h.securityParams, h.reductionContracts, h.writeMode, h.inStep⟩

def sampleVector : TypedValue .reference :=
  .vector [Platform.reference.f64.ofNat 1, Platform.reference.f64.ofNat 2]

theorem sampleVector_roundTrips : sampleVector.RoundTrips := by
  intro d hd
  simp only [List.mem_cons, List.not_mem_nil, or_false] at hd
  rcases hd with rfl | rfl
  · rfl
  · rfl

theorem sampleVector_accepted : ¬ RejectsVector singleWitnessDb sampleVector := by
  rintro (hnil | ⟨expected, hdims, -⟩)
  · cases hnil
  · cases hdims

/-- The vector written under the key `a` of an empty database, and a commit that writes to its index twice. -/
theorem getTyped_putTyped_commit_vector : ∃ db₁ db₂ entry cell,
    singleWitnessDb.putTyped "a" sampleVector ⟨0, 0⟩ = (.ok (0, cell), db₁) ∧
      db₁.commit ⟨[(0, 7), (0, cell)]⟩ [] 0 = some (.ok entry, db₂) ∧
      db₂.getTyped "a" = some sampleVector ∧ db₂.getTyped "b" = singleWitnessDb.getTyped "b" := by
  have hput := putTyped_of_accepted singleWitnessDb "a" sampleVector ⟨0, 0⟩ sampleVector_accepted
  have hstate := (putTyped_ok hput).2.2.1
  have hkeymap := (putTyped_ok hput).2.2.2.1
  have hcommits : ∃ entry db₂, (singleWitnessDb.putTyped "a" sampleVector ⟨0, 0⟩).2.commit
      ⟨[(0, 7), (0, (sampleVector.encode "a").1)]⟩ [] 0 = some (.ok entry, db₂) := by
    refine (singleWitnessDb_ready.putTyped "a" sampleVector ⟨0, 0⟩).commit 0 ?_
    rw [hstate]
    rfl
  obtain ⟨entry, db₂, hcommit⟩ := hcommits
  have hfits : ∀ data, (sampleVector.encode "a").2 = some data →
      BlobStore.Fits singleWitnessDb.blobStore "a" data := by
    intro data _
    exact Nat.le_trans Std.ExtTreeMap.size_insert_le (by decide)
  have hothers : ∀ write ∈ [(0, (7 : UInt64)), (0, (sampleVector.encode "a").1)], ∀ other, other ≠ "a" →
      (singleWitnessDb.putTyped "a" sampleVector ⟨0, 0⟩).2.keymap.get other ≠ some write.1 := by
    intro write _ other hne hsome
    rw [hkeymap, KeyMap.get_getOrCreate_other _ hne] at hsome
    cases hsome
  obtain ⟨hself, hrest⟩ := getTyped_putTyped_commit sampleVector_roundTrips hfits hput hcommit rfl hothers
  exact ⟨_, db₂, entry, _, hput, hcommit, hself, hrest "b" (by decide)⟩

end AgentHalo.Engine.NucleusDb
