import AgentHalo.Engine.Protocol

/-!
# The views glue together

Whether any number of views agree two by two is decided by one scan over all their entries, with a map of the first
value of each key. After any entries, in any order, the scan holds a value that was given for every key that was, and
the keys that were given two values (`Scanned`). What is reported is made of the keys alone, so it is a matter of which
entries the views have and not of how they are ordered.
-/

namespace AgentHalo.Engine

/-- What the scan holds after the entries. -/
structure Scanned (entries : List (String × UInt64)) (scan : SheafScan) : Prop where
  given : ∀ key value, scan.seen[key]? = some value → (key, value) ∈ entries
  seen : ∀ key value, (key, value) ∈ entries → key ∈ scan.seen
  conflicts : ∀ key, key ∈ scan.conflicts ↔ ∃ v w, (key, v) ∈ entries ∧ (key, w) ∈ entries ∧ v ≠ w

theorem scanned_nil : Scanned [] ⟨∅, ∅⟩ := ⟨by simp, by simp, by simp⟩

variable {entries : List (String × UInt64)} {scan : SheafScan} {key : String}

theorem Scanned.visit (h : Scanned entries scan) (entry : String × UInt64) :
    Scanned (entries ++ [entry]) (scan.visit entry) := by
  obtain ⟨key, value⟩ := entry
  have hin : ∀ {e : String × UInt64}, e ∈ entries → e ∈ entries ++ [(key, value)] := List.mem_append_left _
  have hlast : (key, value) ∈ entries ++ [(key, value)] := List.mem_append_right _ (List.mem_singleton_self _)
  unfold SheafScan.visit
  dsimp only
  cases hseen : scan.seen[key]? with
  | none =>
    -- A key not seen before: no entry has it, so none is in conflict with this one.
    have hnew : ∀ v, (key, v) ∉ entries := fun v hv => by
      have hmem := h.seen key v hv
      rw [← Std.ExtTreeMap.isSome_getElem?_iff_mem, hseen] at hmem
      cases hmem
    refine ⟨?_, ?_, ?_⟩
    · intro k v hk
      rw [OrdMap.get?_insert] at hk
      split_ifs at hk with heq
      · obtain rfl := Option.some.inj hk
        exact heq ▸ hlast
      · exact hin (h.given k v hk)
    · intro k v hk
      rw [Std.ExtTreeMap.mem_insert, Std.compare_eq_iff_eq]
      obtain hk | hk := List.mem_append.mp hk
      · exact .inr (h.seen k v hk)
      · exact .inl (Prod.mk.inj (List.mem_singleton.mp hk)).1.symm
    · intro k
      rw [h.conflicts]
      constructor
      · rintro ⟨v, w, hv, hw, hne⟩
        exact ⟨v, w, hin hv, hin hw, hne⟩
      · rintro ⟨v, w, hv, hw, hne⟩
        simp only [List.mem_append, List.mem_singleton, Prod.mk.injEq] at hv hw
        obtain hv | ⟨rfl, rfl⟩ := hv
        · obtain hw | ⟨rfl, rfl⟩ := hw
          · exact ⟨v, w, hv, hw, hne⟩
          · exact absurd hv (hnew v)
        · obtain hw | ⟨-, rfl⟩ := hw
          · exact absurd hw (hnew w)
          · exact absurd rfl hne
  | some existing =>
    have hexisting := h.given key existing hseen
    have hkept : ∀ k v, (k, v) ∈ entries ++ [(key, value)] → k ∈ scan.seen := by
      intro k v hk
      obtain hk | hk := List.mem_append.mp hk
      · exact h.seen k v hk
      · exact h.seen k existing ((Prod.mk.inj (List.mem_singleton.mp hk)).1 ▸ hexisting)
    dsimp only
    split_ifs with hne
    · refine ⟨fun k v hk => hin (h.given k v hk), hkept, ?_⟩
      intro k
      dsimp only
      rw [Std.ExtTreeMap.mem_insert, Std.compare_eq_iff_eq, h.conflicts]
      constructor
      · rintro (rfl | ⟨v, w, hv, hw, hvw⟩)
        · exact ⟨existing, value, hin hexisting, hlast, hne⟩
        · exact ⟨v, w, hin hv, hin hw, hvw⟩
      · rintro ⟨v, w, hv, hw, hvw⟩
        simp only [List.mem_append, List.mem_singleton, Prod.mk.injEq] at hv hw
        by_cases hk : key = k
        · exact .inl hk
        · exact .inr ⟨v, w, hv.resolve_right fun hv => hk hv.1.symm, hw.resolve_right fun hw => hk hw.1.symm, hvw⟩
    · -- The value seen before is this one, so the entry is one of those already read.
      obtain rfl := not_not.mp hne
      have hsame : ∀ e, e ∈ entries ++ [(key, existing)] ↔ e ∈ entries := fun e => by
        rw [List.mem_append, List.mem_singleton]
        exact or_iff_left_of_imp fun he => he ▸ hexisting
      exact ⟨fun k v hk => hin (h.given k v hk), hkept, fun k => by simp only [h.conflicts, hsame]⟩

def scanEntries (entries : List (String × UInt64)) : SheafScan := entries.foldl SheafScan.visit ⟨∅, ∅⟩

theorem scanned (entries : List (String × UInt64)) : Scanned entries (scanEntries entries) := by
  induction entries using List.reverseRecOn with
  | nil => exact scanned_nil
  | append_singleton entries entry ih =>
    rw [scanEntries, List.foldl_concat]
    exact ih.visit entry

/-! ### What is reported -/

/-- The entries of the views, one view after another. -/
def viewEntries (localViews : List LocalSection) : List (String × UInt64) := localViews.flatMap (·.kv.toList)

theorem mem_viewEntries {localViews : List LocalSection} {value : UInt64} :
    (key, value) ∈ viewEntries localViews ↔ ∃ view ∈ localViews, view.kv[key]? = some value := by
  simp only [viewEntries, List.mem_flatMap, Std.ExtTreeMap.mem_toList_iff_getElem?_eq_some]

def sheafProof (scan : SheafScan) : SheafCoherenceProof :=
  let conflicts := scan.conflicts.toList.map (·.1)
  let seenDigest := (scan.seen.toList.map (·.1)).zipIdx.foldl
    (fun digest (key, i) => digest ^^^ (keyLen key * (UInt64.ofNat i + 11))) 0
  let digest := conflicts.zipIdx.foldl
    (fun digest (key, i) => digest + keyLen key * (UInt64.ofNat i + 101)) seenDigest
  { coherent := scan.conflicts.isEmpty, conflicts, digest }

theorem buildSheafCoherence_eq (localViews : List LocalSection) :
    buildSheafCoherence localViews = sheafProof (scanEntries (viewEntries localViews)) := by
  rw [scanEntries, viewEntries, List.foldl_flatMap]
  rfl

theorem mem_conflicts : key ∈ (sheafProof scan).conflicts ↔ key ∈ scan.conflicts := by
  change key ∈ scan.conflicts.toList.map (·.1) ↔ _
  rw [Std.ExtTreeMap.map_fst_toList_eq_keys, Std.ExtTreeMap.mem_keys]

theorem nodup_conflicts (scan : SheafScan) : (sheafProof scan).conflicts.Nodup := by
  change (scan.conflicts.toList.map (·.1)).Nodup
  exact List.pairwise_map.mpr (OrdMap.toList_distinct _)

theorem coherent_iff : (sheafProof scan).coherent = true ↔ ∀ key, key ∉ scan.conflicts := by
  exact OrdMap.isEmpty_iff_forall_notMem

theorem sheafProof_congr {scan' : SheafScan} (hseen : ∀ key, key ∈ scan.seen ↔ key ∈ scan'.seen)
    (hconflicts : ∀ key, key ∈ scan.conflicts ↔ key ∈ scan'.conflicts) : sheafProof scan = sheafProof scan' := by
  have hempty : scan.conflicts.isEmpty = scan'.conflicts.isEmpty := by
    rw [Bool.eq_iff_iff, OrdMap.isEmpty_iff_forall_notMem, OrdMap.isEmpty_iff_forall_notMem]
    exact forall_congr' fun key => not_congr (hconflicts key)
  unfold sheafProof
  simp only [Std.ExtTreeMap.map_fst_toList_eq_keys]
  rw [OrdMap.keys_eq_of_mem_iff hseen, OrdMap.keys_eq_of_mem_iff hconflicts, hempty]

theorem Scanned.mem_seen (h : Scanned entries scan) (key : String) :
    key ∈ scan.seen ↔ ∃ value, (key, value) ∈ entries := by
  constructor
  · intro hmem
    rw [← Std.ExtTreeMap.isSome_getElem?_iff_mem] at hmem
    obtain ⟨value, hvalue⟩ := Option.isSome_iff_exists.mp hmem
    exact ⟨value, h.given key value hvalue⟩
  · rintro ⟨value, hvalue⟩
    exact h.seen key value hvalue

theorem sheafProof_of_mem_iff {entries' : List (String × UInt64)} (h : ∀ entry, entry ∈ entries ↔ entry ∈ entries') :
    sheafProof (scanEntries entries) = sheafProof (scanEntries entries') := by
  refine sheafProof_congr (fun key => ?_) (fun key => ?_)
  · simp only [(scanned _).mem_seen, h]
  · simp only [(scanned _).conflicts, h]

/-- The report is coherent when every two views agree on the keys they share, and lists once each key that is given two
different values. The views may come in any order, their entries be read in any order. -/
theorem coherence_is_pairwise_agreement (localViews : List LocalSection) :
    ((buildSheafCoherence localViews).coherent = true ↔
      ∀ view ∈ localViews, ∀ other ∈ localViews, ∀ (key : String) (v w : UInt64),
        view.kv[key]? = some v → other.kv[key]? = some w → v = w) ∧
    (∀ key, key ∈ (buildSheafCoherence localViews).conflicts ↔
      ∃ view ∈ localViews, ∃ other ∈ localViews, ∃ v w : UInt64,
        view.kv[key]? = some v ∧ other.kv[key]? = some w ∧ v ≠ w) ∧
    (buildSheafCoherence localViews).conflicts.Nodup ∧
    (∀ rearranged : List LocalSection, (viewEntries rearranged).Perm (viewEntries localViews) →
      buildSheafCoherence rearranged = buildSheafCoherence localViews) ∧
    ∀ entries : List (String × UInt64), entries.Perm (viewEntries localViews) →
      sheafProof (scanEntries entries) = buildSheafCoherence localViews := by
  have hconflict : ∀ key, key ∈ (scanEntries (viewEntries localViews)).conflicts ↔
      ∃ view ∈ localViews, ∃ other ∈ localViews, ∃ v w : UInt64,
        view.kv[key]? = some v ∧ other.kv[key]? = some w ∧ v ≠ w := by
    intro key
    simp only [(scanned _).conflicts, mem_viewEntries]
    constructor
    · rintro ⟨v, w, ⟨view, hview, hv⟩, ⟨other, hother, hw⟩, hne⟩
      exact ⟨view, hview, other, hother, v, w, hv, hw, hne⟩
    · rintro ⟨view, hview, other, hother, v, w, hv, hw, hne⟩
      exact ⟨v, w, ⟨view, hview, hv⟩, ⟨other, hother, hw⟩, hne⟩
  refine ⟨?_, ?_, ?_, ?_, ?_⟩
  · rw [buildSheafCoherence_eq, coherent_iff]
    constructor
    · intro h view hview other hother key v w hv hw
      by_contra hne
      exact h key ((hconflict key).mpr ⟨view, hview, other, hother, v, w, hv, hw, hne⟩)
    · intro h key hkey
      obtain ⟨view, hview, other, hother, v, w, hv, hw, hne⟩ := (hconflict key).mp hkey
      exact hne (h view hview other hother key v w hv hw)
  · intro key
    rw [buildSheafCoherence_eq, mem_conflicts, hconflict]
  · rw [buildSheafCoherence_eq]
    exact nodup_conflicts _
  · intro rearranged hperm
    rw [buildSheafCoherence_eq, buildSheafCoherence_eq]
    exact sheafProof_of_mem_iff fun entry => hperm.mem_iff
  · intro entries hperm
    rw [buildSheafCoherence_eq]
    exact sheafProof_of_mem_iff fun entry => hperm.mem_iff

end AgentHalo.Engine
