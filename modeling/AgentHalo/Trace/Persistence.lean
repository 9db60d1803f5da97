import AgentHalo.Trace.Topology

/-!
# Persistence is exact

The loop over links of a trace does what Kruskal's algorithm does on its names: the roots of the union-find are the names
that live, and an entry dies when its root does (`follows_foldl`). So the entries that live on at a threshold are as many
as the graph of the links up to it has components, and the deaths are the weights of a least spanning forest of the tools
(`tracePersistence_exact`), whatever the order of links of one weight.
-/

namespace AgentHalo.Trace.Topology

open Kruskal (Edge Merging Within run)
open Parents (Descending rootOf)

/-! ### The loop over links -/

section Loop

variable {metric : ToolMetric} {nodes : List Nat}

def toEdge (link : (Nat × Nat) × UInt32) : Edge Nat Nat := ⟨link.1.1, link.1.2, link.2.toNat⟩

/-- The components are those of the merging. -/
structure Follows (nodes : List Nat) (s : Components) (k : Merging Nat Nat) : Prop where
  descending : Descending s.uf.parent
  bounded : ∀ x ∈ nodes, x < s.uf.parent.length
  label : ∀ x, rootOf s.uf.parent x = k.label x
  index : ∀ x idx, s.entryByRoot[x]? = some idx ↔ nodes[idx]? = some x ∧ k.label x = x
  deaths : ∀ idx : Nat, s.entries[idx]?.map (·.death.toNat) = nodes[idx]?.map fun x => (k.death x).getD u32Max.toNat

variable {s : Components} {k : Merging Nat Nat} {uf : UnionFind}

theorem Follows.sameRoots (h : Follows nodes s k) (hsame : UnionFind.SameRoots s.uf.parent uf.parent) :
    Follows nodes { s with uf } k :=
  ⟨hsame.descending, fun x hx => hsame.length ▸ h.bounded x hx, fun x => (hsame.root x).trans (h.label x), h.index,
    h.deaths⟩

theorem getElem?_foldl_insert {l : List Nat} (hnodup : l.Nodup) (x idx : Nat) :
    (l.zipIdx.foldl (fun m (node, idx) => m.insert node idx) (∅ : OrdMap Nat Nat))[x]? = some idx ↔ l[idx]? = some x := by
  induction l using List.reverseRecOn with
  | nil => simp
  | append_singleton l node ih =>
    obtain ⟨hnodup, -, hnew⟩ := List.nodup_append.mp hnodup
    rw [List.zipIdx_append, List.foldl_append]
    simp only [List.zipIdx_singleton, List.foldl_cons, List.foldl_nil, Nat.zero_add]
    rw [OrdMap.get?_insert]
    by_cases hx : node = x
    · subst hx
      rw [if_pos rfl, Option.some.injEq]
      constructor
      · rintro rfl
        exact List.getElem?_concat_length
      · intro hidx
        obtain hlt | rfl | hgt := lt_trichotomy idx l.length
        · rw [List.getElem?_append_left hlt] at hidx
          exact absurd rfl (hnew node (List.mem_of_getElem? hidx) node List.mem_cons_self)
        · rfl
        · rw [List.getElem?_eq_none (by rw [List.length_append, List.length_singleton]; omega)] at hidx
          cases hidx
    · rw [if_neg hx, ih hnodup]
      refine ⟨fun h => ?_, fun h => ?_⟩
      · rw [List.getElem?_append_left (List.getElem?_eq_some_iff.mp h).1, h]
      · obtain hlt | hge := lt_or_ge idx l.length
        · rwa [List.getElem?_append_left hlt] at h
        · rw [List.getElem?_append_right hge] at h
          exact absurd (List.mem_singleton.mp (List.mem_of_getElem? h)).symm hx

theorem follows_start (hnodup : nodes.Nodup) : Follows nodes (.start metric nodes) Kruskal.start where
  descending := Parents.descending_range _
  bounded x hx := by
    rw [Components.start, UnionFind.new, List.length_range]
    obtain ⟨m, hm⟩ := Option.isSome_iff_exists.mp (List.isSome_max?_of_mem hx)
    rw [hm, Option.getD_some]
    exact Nat.lt_succ_of_le ((List.max?_eq_some_iff.mp hm).2 x hx)
  label x := Parents.rootOf_of_self (Parents.parentOf_range _)
  index x idx := (getElem?_foldl_insert hnodup x idx).trans (and_iff_left rfl).symm
  deaths idx := by
    rw [Components.start, List.getElem?_map, Option.map_map]
    rfl

theorem Follows.between (h : Follows nodes s k) (hnodup : nodes.Nodup) {e : Edge Nat Nat} {keep kill : Nat} {d : UInt32}
    (hd : e.weight = d.toNat) (hkeep : k.label keep = keep) (hkill : k.label kill = kill) (hlt : keep < kill)
    (hmem : kill ∈ nodes) (hsame : UnionFind.SameRoots s.uf.parent uf.parent) :
    ∃ idx, s.entryByRoot[kill]? = some idx ∧
      Follows nodes
        { uf := uf.union keep kill, entries := s.entries.modify idx fun entry => { entry with death := d },
          entryByRoot := s.entryByRoot.erase kill }
        (k.rename keep kill e) := by
  obtain ⟨idx, hidx⟩ := List.getElem?_of_mem hmem
  have hroot : ∀ y, rootOf uf.parent y = k.label y := fun y => (hsame.root y).trans (h.label y)
  obtain ⟨hdescending, hlength, hunion⟩ := UnionFind.union_spec hsame.descending ((hroot keep).trans hkeep)
    ((hroot kill).trans hkill) hlt (hsame.length ▸ h.bounded kill hmem)
  refine ⟨idx, (h.index kill idx).mpr ⟨hidx, hkill⟩, hdescending, fun x hx => ?_, fun x => ?_, fun x i => ?_, fun i => ?_⟩
  · rw [hlength, hsame.length]
    exact h.bounded x hx
  · rw [hunion, hroot]
    rfl
  · rw [OrdMap.get?_erase]
    by_cases hx : kill = x
    · subst hx
      rw [if_pos rfl, Kruskal.rename_label_of_eq hkill]
      exact iff_of_false nofun fun hboth => hlt.ne hboth.2
    · rw [if_neg hx, h.index]
      refine and_congr_right fun _ => ?_
      by_cases hlabel : k.label x = kill
      · rw [Kruskal.rename_label_of_eq hlabel]
        refine iff_of_false (fun heq => hx (hlabel.symm.trans heq)) ?_
        rintro rfl
        exact hlt.ne (hkeep.symm.trans hlabel)
      · rw [Kruskal.rename_label_of_ne hlabel]
  · have hdeath := h.deaths i
    rw [List.getElem?_modify]
    by_cases hi : idx = i
    · subst hi
      rw [hidx] at hdeath ⊢
      obtain ⟨entry, hentry, -⟩ := Option.map_eq_some_iff.mp hdeath
      rw [hentry]
      simp only [if_pos, Option.map_some, Kruskal.rename_death_self, Option.getD_some, hd, Option.map_eq_map]
    · simp only [if_neg hi, Option.map_eq_map, Option.map_id', hdeath]
      refine Option.map_congr fun x hx => ?_
      have hne : x ≠ kill := by
        rintro rfl
        exact hi ((List.getElem?_inj (List.getElem?_eq_some_iff.mp hidx).1 hnodup).mp (hidx.trans hx.symm))
      rw [Kruskal.rename_death_of_ne hne]

theorem Follows.rename (h : Follows nodes s k) (idx : Nat) (names : List String) :
    Follows nodes { s with entries := s.entries.modify idx fun entry => { entry with representative := names } } k := by
  refine ⟨h.descending, h.bounded, h.label, h.index, fun i => ?_⟩
  rw [← h.deaths, List.getElem?_modify]
  cases s.entries[i]? with
  | none => rfl
  | some entry =>
    by_cases hi : idx = i
    · simp [hi]
    · simp [hi]

theorem Follows.mergeEdge {es : List (Edge Nat Nat)} (h : Follows nodes s (run es)) (hnodup : nodes.Nodup)
    (link : (Nat × Nat) × UInt32) (hwithin : Within nodes.toFinset (es ++ [toEdge link])) :
    Follows nodes (mergeEdge metric nodes s link) (run (es ++ [toEdge link])) := by
  obtain ⟨⟨a, b⟩, d⟩ := link
  have hmerged := Kruskal.merged_run es
  obtain ⟨ha, hb⟩ := hwithin _ (List.mem_append_right _ List.mem_cons_self)
  have hlabel := Kruskal.label_mem fun e he => hwithin e (List.mem_append_left _ he)
  obtain ⟨hra, hsame⟩ := UnionFind.find_spec h.descending a
  obtain ⟨hrb, hsame'⟩ := UnionFind.find_spec hsame.descending b
  rw [h.label] at hra
  rw [hsame.root, h.label] at hrb
  have hboth := hsame.trans hsame'
  rw [Kruskal.run_snoc]
  unfold Topology.mergeEdge
  dsimp only
  rw [hra, hrb]
  by_cases heq : (run es).label a = (run es).label b
  · rw [if_pos heq, Kruskal.step_of_same (e := toEdge ((a, b), d)) heq]
    exact h.sameRoots hboth
  rw [if_neg heq, Kruskal.step_of_ne (e := toEdge ((a, b), d)) heq]
  have hname : ∀ x, x = (run es).label a ∨ x = (run es).label b → (run es).label x = x := by
    rintro x (rfl | rfl)
    · exact hmerged.named a
    · exact hmerged.named b
  have hkill : max ((run es).label a) ((run es).label b) ∈ nodes := by
    obtain hmax | hmax := max_choice ((run es).label a) ((run es).label b)
    · rw [hmax]
      exact List.mem_toFinset.mp (hlabel a ha)
    · rw [hmax]
      exact List.mem_toFinset.mp (hlabel b hb)
  obtain ⟨idx, hidx, hfollows⟩ := h.between hnodup (e := toEdge ((a, b), d)) (d := d) rfl (hname _ (min_choice _ _))
    (hname _ (max_choice _ _)) (min_lt_max.mpr heq) hkill hboth
  rw [hidx]
  dsimp only
  cases (s.entryByRoot.erase (max ((run es).label a) ((run es).label b)))[
      min ((run es).label a) ((run es).label b)]? with
  | none => exact hfollows
  | some keepIdx =>
    exact (hfollows.rename keepIdx _).sameRoots (mergedComponentRepresentative_spec hfollows.descending _ metric nodes)

theorem follows_foldl (metric : ToolMetric) (hnodup : nodes.Nodup) (links : List ((Nat × Nat) × UInt32))
    (hwithin : Within nodes.toFinset (links.map toEdge)) :
    Follows nodes (links.foldl (mergeEdge metric nodes) (.start metric nodes)) (run (links.map toEdge)) := by
  induction links using List.reverseRecOn with
  | nil => exact follows_start hnodup
  | append_singleton links link ih =>
    rw [List.map_append, List.map_singleton] at hwithin ⊢
    rw [List.foldl_concat]
    exact (ih fun e he => hwithin e (List.mem_append_left _ he)).mergeEdge hnodup link hwithin

end Loop

/-! ### The tools and their links -/

section Tools

variable {metric : ToolMetric} {indices : List Nat} {degree : Nat}

theorem Linked.symm {p q : Nat} {d : UInt32} (h : Linked metric indices degree p q d) : Linked metric indices degree q p d := by
  obtain ⟨i, k, a, b, hpos, hdegree, ha, hb, hends, hd⟩ := h
  exact ⟨i, k, a, b, hpos, hdegree, ha, hb, hends.symm, hd⟩

theorem Linked.mem {p q : Nat} {d : UInt32} (h : Linked metric indices degree p q d) : p ∈ indices ∧ q ∈ indices := by
  obtain ⟨i, k, a, b, -, -, ha, hb, ⟨rfl, rfl⟩ | ⟨rfl, rfl⟩, -⟩ := h
  · exact ⟨List.mem_of_getElem? ha, List.mem_of_getElem? hb⟩
  · exact ⟨List.mem_of_getElem? hb, List.mem_of_getElem? ha⟩

theorem Weighs.symm {p q : Nat} {w : UInt32} (h : Weighs metric indices degree p q w) : Weighs metric indices degree q p w :=
  ⟨h.1.symm, fun _ hd => h.2 hd.symm⟩

variable (metric indices degree) in
/-- The tools, linked where the weight is at most the threshold. -/
def toolGraph (threshold : UInt32) : SimpleGraph Nat where
  Adj p q := p ≠ q ∧ ∃ w ≤ threshold, Weighs metric indices degree p q w
  symm := ⟨fun _ _ ⟨hne, w, hle, hw⟩ => ⟨hne.symm, w, hle, hw.symm⟩⟩
  loopless := ⟨fun _ h => h.1 rfl⟩

variable (metric indices degree) in
/-- Each of these edges is a link of the trace, with its weight. -/
def AreLinks (es : List (Edge Nat Nat)) : Prop :=
  ∀ e ∈ es, e.a < e.b ∧ ∃ w, Weighs metric indices degree e.a e.b w ∧ w.toNat = e.weight

/-- All links of the trace, in the order of their weights. -/
structure Listing (metric : ToolMetric) (indices : List Nat) (degree : Nat) (links : List ((Nat × Nat) × UInt32)) :
    Prop where
  mem : ∀ p q w, ((p, q), w) ∈ links ↔ p < q ∧ Weighs metric indices degree p q w
  sorted : links.Pairwise fun x y => x.2 ≤ y.2
  nodup : links.Nodup

theorem listing_sortEdges : Listing metric indices degree
    (sortEdges (edgeWeights metric (buildTraceChainsFromIndices indices metric degree))) where
  mem p q w := by
    rw [sortEdges, List.mem_mergeSort, Std.ExtTreeMap.mem_toList_iff_getElem?_eq_some, edgeWeights_spec]
  sorted := by
    refine (List.pairwise_mergeSort (fun x y z hxy hyz => ?_) (fun x y => ?_) _).imp of_decide_eq_true
    · exact decide_eq_true (UInt32.le_trans (of_decide_eq_true hxy) (of_decide_eq_true hyz))
    · simpa using UInt32.le_total x.2 y.2
  nodup := by
    rw [sortEdges, (List.mergeSort_perm _ _).nodup_iff]
    refine Std.ExtTreeMap.distinct_keys_toList.imp fun hne heq => hne ?_
    rw [heq]
    exact Std.ReflCmp.compare_self

variable {links : List ((Nat × Nat) × UInt32)}

theorem Listing.areLinks (h : Listing metric indices degree links) : AreLinks metric indices degree (links.map toEdge) := by
  intro e he
  obtain ⟨⟨⟨p, q⟩, w⟩, hlink, rfl⟩ := List.mem_map.mp he
  obtain ⟨hlt, hw⟩ := (h.mem p q w).mp hlink
  exact ⟨hlt, w, hw, rfl⟩

theorem Listing.within (h : Listing metric indices degree links) : Within indices.toFinset (links.map toEdge) := by
  intro e he
  obtain ⟨-, w, hw, -⟩ := h.areLinks e he
  obtain ⟨ha, hb⟩ := hw.1.mem
  exact ⟨List.mem_toFinset.mpr ha, List.mem_toFinset.mpr hb⟩

theorem Listing.sorted_toEdge (h : Listing metric indices degree links) :
    (links.map toEdge).Pairwise fun e e' => e.weight ≤ e'.weight :=
  List.pairwise_map.mpr (h.sorted.imp fun hle => UInt32.le_iff_toNat_le.mp hle)

theorem Listing.mem_of_areLinks (h : Listing metric indices degree links) {es : List (Edge Nat Nat)}
    (hes : AreLinks metric indices degree es) : ∀ e ∈ es, e ∈ links.map toEdge := by
  intro e he
  obtain ⟨hlt, w, hw, hweight⟩ := hes e he
  refine List.mem_map.mpr ⟨((e.a, e.b), w), (h.mem _ _ _).mpr ⟨hlt, hw⟩, ?_⟩
  rw [toEdge, hweight]

theorem Listing.graph_upTo (h : Listing metric indices degree links) (threshold : UInt32) :
    Kruskal.graph (Kruskal.upTo threshold.toNat (links.map toEdge)) = toolGraph metric indices degree threshold := by
  ext p q
  rw [Kruskal.graph_adj]
  refine and_congr_right fun hne => ⟨?_, ?_⟩
  · rintro ⟨e, he, hends⟩
    obtain ⟨hlisted, hle⟩ := List.mem_filter.mp he
    obtain ⟨⟨⟨a, b⟩, w⟩, hlink, rfl⟩ := List.mem_map.mp hlisted
    obtain ⟨-, hw⟩ := (h.mem a b w).mp hlink
    refine ⟨w, UInt32.le_iff_toNat_le.mpr (of_decide_eq_true hle), ?_⟩
    obtain ⟨rfl, rfl⟩ | ⟨rfl, rfl⟩ := hends
    · exact hw
    · exact hw.symm
  · rintro ⟨w, hle, hw⟩
    have hle' : w.toNat ≤ threshold.toNat := UInt32.le_iff_toNat_le.mp hle
    obtain hlt | hgt := lt_or_gt_of_ne hne
    · have hmem := List.mem_map_of_mem (f := toEdge) ((h.mem p q w).mpr ⟨hlt, hw⟩)
      exact ⟨_, List.mem_filter.mpr ⟨hmem, decide_eq_true hle'⟩, .inl ⟨rfl, rfl⟩⟩
    · have hmem := List.mem_map_of_mem (f := toEdge) ((h.mem q p w).mpr ⟨hgt, hw.symm⟩)
      exact ⟨_, List.mem_filter.mpr ⟨hmem, decide_eq_true hle'⟩, .inr ⟨rfl, rfl⟩⟩

/-! ### The verdict -/

theorem toFinset_usedNodes (indices : List Nat) : (usedNodes indices).toFinset = indices.toFinset :=
  Finset.sort_toFinset ..

theorem nodup_usedNodes (indices : List Nat) : (usedNodes indices).Nodup := Finset.sort_nodup ..

theorem Listing.deaths (h : Listing metric indices degree links) :
    (persistence metric (usedNodes indices) links).map (·.death.toNat) =
      (usedNodes indices).map fun x => ((run (links.map toEdge)).death x).getD u32Max.toNat := by
  have hwithin := h.within
  rw [← toFinset_usedNodes] at hwithin
  have hfollows := follows_foldl metric (nodup_usedNodes indices) links hwithin
  refine List.ext_getElem? fun idx => ?_
  rw [List.getElem?_map, List.getElem?_map]
  exact hfollows.deaths idx

theorem Listing.length_persistence (h : Listing metric indices degree links) :
    (persistence metric (usedNodes indices) links).length = indices.toFinset.card := by
  have hlength := congrArg List.length h.deaths
  rw [List.length_map, List.length_map] at hlength
  rw [hlength]
  exact Finset.length_sort _

theorem Listing.countP_death (h : Listing metric indices degree links) {threshold : UInt32} (ht : threshold < u32Max) :
    (persistence metric (usedNodes indices) links).countP (fun entry => threshold < entry.death) =
      Nat.card ((toolGraph metric indices degree threshold).induce {x | x ∈ indices}).ConnectedComponent := by
  have hcomponents := Kruskal.card_livingAt h.within h.sorted_toEdge threshold.toNat
  have hnodes : ((indices.toFinset : Finset Nat) : Set Nat) = {x | x ∈ indices} := by
    ext x
    simp
  rw [h.graph_upTo, hnodes] at hcomponents
  rw [← hcomponents, Kruskal.livingAt, ← toFinset_usedNodes, ← List.toFinset_filter,
    List.toFinset_card_of_nodup ((nodup_usedNodes indices).filter _), ← List.countP_eq_length_filter]
  have hcount := congrArg (List.countP (threshold.toNat < ·)) h.deaths
  rw [List.countP_map, List.countP_map] at hcount
  refine Eq.trans ?_ (hcount.trans (List.countP_congr fun x _ => ?_))
  · refine List.countP_congr fun entry _ => ?_
    simp [UInt32.lt_iff_toNat_lt]
  · have ht' : threshold.toNat < u32Max.toNat := UInt32.lt_iff_toNat_lt.mp ht
    rw [Function.comp_apply]
    cases (run (links.map toEdge)).death x with
    | none => simpa using ht'
    | some w => simp

variable (metric indices degree) in
/-- A spanning forest of the tools, of the least weight. -/
structure LeastSpanningForest (forest : List (Edge Nat Nat)) : Prop where
  links : AreLinks metric indices degree forest
  nodup : forest.Nodup
  acyclic : (Kruskal.graph forest).IsAcyclic
  spans : ∀ x y, (Kruskal.graph forest).Reachable x y ↔ (toolGraph metric indices degree u32Max).Reachable x y
  least : ∀ other, AreLinks metric indices degree other →
    (∀ x y, (Kruskal.graph other).Reachable x y ↔ (toolGraph metric indices degree u32Max).Reachable x y) →
    (forest.map (·.weight)).sum ≤ (other.map (·.weight)).sum

theorem Listing.graph_all (h : Listing metric indices degree links) :
    Kruskal.graph (links.map toEdge) = toolGraph metric indices degree u32Max := by
  rw [← h.graph_upTo, Kruskal.upTo, List.filter_eq_self.mpr]
  intro e he
  obtain ⟨-, w, -, hw⟩ := h.areLinks e he
  rw [← hw, decide_eq_true_eq]
  exact Nat.le_of_lt_succ w.toNat_lt

theorem Listing.leastSpanningForest (h : Listing metric indices degree links) :
    LeastSpanningForest metric indices degree (run (links.map toEdge)).kept := by
  have hmerged := Kruskal.merged_run (links.map toEdge)
  refine ⟨fun e he => h.areLinks e (hmerged.sublist.subset he), hmerged.sublist.nodup (h.nodup.map ?_), hmerged.acyclic,
    fun x y => ?_, fun other hother hspans => ?_⟩
  · rintro ⟨⟨a, b⟩, w⟩ ⟨⟨a', b'⟩, w'⟩ heq
    obtain ⟨rfl, rfl, hw⟩ := Edge.mk.inj heq
    rw [Prod.mk.injEq]
    exact ⟨rfl, UInt32.toNat_inj.mp hw⟩
  · rw [hmerged.spans, h.graph_all]
  · refine Kruskal.sum_kept_le h.within h.sorted_toEdge (h.mem_of_areLinks hother) fun x y => ?_
    rw [hspans, h.graph_all]

theorem filter_getD (nodes : List Nat) (death : Nat → Option Nat) (bound : Nat)
    (hbelow : ∀ x w, death x = some w → w < bound) :
    (nodes.map fun x => (death x).getD bound).filter (· < bound) = nodes.filterMap death := by
  induction nodes with
  | nil => rfl
  | cons x nodes ih =>
    rw [List.map_cons, List.filterMap_cons]
    cases hdeath : death x with
    | none => rw [Option.getD_none, List.filter_cons_of_neg (by simp), ih]
    | some w => rw [Option.getD_some, List.filter_cons_of_pos (by simpa using hbelow x w hdeath), ih]

theorem Listing.finite_deaths (h : Listing metric indices degree links)
    (hweights : ∀ p q w, Weighs metric indices degree p q w → w < u32Max) :
    (((persistence metric (usedNodes indices) links).map (·.death.toNat)).filter (· < u32Max.toNat)).Perm
      ((run (links.map toEdge)).kept.map (·.weight)) := by
  have hbelow : ∀ x w, (run (links.map toEdge)).death x = some w → w < u32Max.toNat := by
    intro x w hw
    obtain ⟨e, he, rfl⟩ := (Kruskal.merged_run _).weights x w hw
    obtain ⟨-, w', hw', hweight⟩ := h.areLinks e he
    rw [← hweight]
    exact UInt32.lt_iff_toNat_lt.mp (hweights _ _ _ hw')
  rw [h.deaths, filter_getD _ _ _ hbelow]
  have hdeath := Kruskal.filterMap_death h.within
  rw [← toFinset_usedNodes, List.toFinset_val, (nodup_usedNodes indices).dedup] at hdeath
  exact Multiset.coe_eq_coe.mp hdeath

theorem Listing.perm_deaths (h : Listing metric indices degree links) {links' : List ((Nat × Nat) × UInt32)}
    (h' : Listing metric indices degree links') :
    ((persistence metric (usedNodes indices) links').map (·.death)).Perm
      ((persistence metric (usedNodes indices) links).map (·.death)) := by
  have hinj : Function.Injective UInt32.toNat := fun _ _ heq => UInt32.toNat_inj.mp heq
  refine (List.map_perm_map_iff hinj).mp (Kruskal.perm_of_countP ?_ fun t => ?_)
  · simp only [List.length_map, h.length_persistence, h'.length_persistence]
  · rw [List.countP_map, List.countP_map, List.countP_map, List.countP_map]
    by_cases ht : t < u32Max.toNat
    · have hthreshold : (UInt32.ofNat t).toNat = t := UInt32.toNat_ofNat_of_lt' (ht.trans u32Max.toNat_lt)
      have hlt : UInt32.ofNat t < u32Max := UInt32.lt_iff_toNat_lt.mpr (by rwa [hthreshold])
      have hcount := (h'.countP_death hlt).trans (h.countP_death hlt).symm
      simp only [UInt32.lt_iff_toNat_lt, hthreshold] at hcount
      exact hcount
    · have hnone : ∀ entries : List PersistenceEntry,
          entries.countP (((fun n => decide (t < n)) ∘ UInt32.toNat) ∘ fun entry => entry.death) = 0 := by
        intro entries
        refine List.countP_eq_zero.mpr fun entry _ => ?_
        have hmax : entry.death.toNat ≤ u32Max.toNat := Nat.le_of_lt_succ entry.death.toNat_lt
        simp only [Function.comp_apply, decide_eq_true_eq]
        omega
      rw [hnone, hnone]

end Tools

/-- The tools of the events that the metric knows. -/
def knownTools (events : List TraceEvent) (metric : ToolMetric) : List String :=
  (events.map (·.toolName)).filter (· ∈ metric.toolNames)

variable {toolName : String} {idx : Nat} {events : List TraceEvent}

theorem indexOf_eq_some {metric : ToolMetric} (h : metric.indexOf toolName = some idx) :
    metric.toolNames[idx]? = some toolName := by
  obtain ⟨hlt, hfound, -⟩ := List.findIdx?_eq_some_iff_getElem.mp h
  rw [List.getElem?_eq_getElem hlt, of_decide_eq_true hfound]

theorem indexOf_isSome {metric : ToolMetric} :
    (metric.indexOf toolName).isSome = decide (toolName ∈ metric.toolNames) := by
  rw [ToolMetric.indexOf, List.findIdx?_isSome, Bool.eq_iff_iff, List.any_eq_true, decide_eq_true_eq]
  simp

theorem length_indexSequence (events : List TraceEvent) (metric : ToolMetric) :
    (indexSequence events metric).length = (knownTools events metric).length := by
  rw [indexSequence, knownTools, List.length_filterMap_eq_countP, ← List.countP_eq_length_filter, List.countP_map]
  exact List.countP_congr fun event _ => by rw [indexOf_isSome, Function.comp_apply]

theorem mem_indexSequence {metric : ToolMetric} :
    idx ∈ indexSequence events metric ↔ ∃ toolName ∈ knownTools events metric, metric.indexOf toolName = some idx := by
  rw [indexSequence, List.mem_filterMap]
  constructor
  · rintro ⟨event, hevent, hidx⟩
    refine ⟨event.toolName, List.mem_filter.mpr ⟨List.mem_map_of_mem hevent, ?_⟩, hidx⟩
    rw [← indexOf_isSome, hidx, Option.isSome_some]
  · rintro ⟨toolName, hknown, hidx⟩
    obtain ⟨event, hevent, rfl⟩ := List.mem_map.mp (List.mem_filter.mp hknown).1
    exact ⟨event, hevent, hidx⟩

theorem card_indices (events : List TraceEvent) (metric : ToolMetric) :
    (indexSequence events metric).toFinset.card = (knownTools events metric).toFinset.card := by
  have hindex : ∀ toolName ∈ (knownTools events metric).toFinset, ∃ idx, metric.indexOf toolName = some idx := by
    intro toolName hknown
    have hmem := (List.mem_filter.mp (List.mem_toFinset.mp hknown)).2
    rw [← indexOf_isSome] at hmem
    exact Option.isSome_iff_exists.mp hmem
  refine (Finset.card_bij (fun toolName hknown => (hindex toolName hknown).choose) ?_ ?_ ?_).symm
  · intro toolName hknown
    exact List.mem_toFinset.mpr
      (mem_indexSequence.mpr ⟨toolName, List.mem_toFinset.mp hknown, (hindex toolName hknown).choose_spec⟩)
  · intro toolName hknown toolName' hknown' heq
    have hname := indexOf_eq_some (hindex toolName hknown).choose_spec
    have hname' := indexOf_eq_some (hindex toolName' hknown').choose_spec
    rw [heq, hname'] at hname
    exact (Option.some.inj hname).symm
  · intro idx hidx
    obtain ⟨toolName, hknown, hindexOf⟩ := mem_indexSequence.mp (List.mem_toFinset.mp hidx)
    have hknown' := List.mem_toFinset.mpr hknown
    exact ⟨toolName, hknown', Option.some.inj ((hindex toolName hknown').choose_spec.symm.trans hindexOf)⟩

theorem tracePersistence_perm {metric : ToolMetric} (maxChainDegree : Nat) (hknown : 2 ≤ (knownTools events metric).length) :
    (tracePersistence events metric maxChainDegree).Perm
      (persistence metric (usedNodes (indexSequence events metric))
        (sortEdges (edgeWeights metric
          (buildTraceChainsFromIndices (indexSequence events metric) metric (max maxChainDegree 1))))) := by
  rw [← length_indexSequence] at hknown
  obtain ⟨chain, hchain, -⟩ := (mem_chains (indexSequence events metric) metric (max maxChainDegree 1) _).mpr
    ⟨0, 1, le_rfl, le_max_right _ _, by omega, rfl⟩
  have hchains : (buildTraceChains events metric (max maxChainDegree 1)).isEmpty = false :=
    List.isEmpty_eq_false_iff_exists_mem.mpr ⟨chain, hchain⟩
  obtain ⟨idx, hidx⟩ := List.exists_mem_of_length_pos (Nat.zero_lt_of_lt hknown)
  have hindices : (indexSequence events metric).isEmpty = false := List.isEmpty_eq_false_iff_exists_mem.mpr ⟨idx, hidx⟩
  have hnodes : (usedNodes (indexSequence events metric)).isEmpty = false := by
    refine List.isEmpty_eq_false_iff_exists_mem.mpr ⟨idx, ?_⟩
    rw [← List.mem_toFinset, toFinset_usedNodes]
    exact List.mem_toFinset.mpr hidx
  obtain ⟨event, hevent, hindexOf⟩ := List.mem_filterMap.mp hidx
  have hevents : events.isEmpty = false := List.isEmpty_eq_false_iff_exists_mem.mpr ⟨event, hevent⟩
  have htools : metric.toolNames.isEmpty = false :=
    List.isEmpty_eq_false_iff_exists_mem.mpr ⟨_, List.mem_of_getElem? (indexOf_eq_some hindexOf)⟩
  unfold tracePersistence
  simp only [hevents, htools, hindices, hchains, hnodes, Bool.or_self, Bool.false_eq_true, if_false]
  exact List.mergeSort_perm ..

/-- **The persistence is exact**: one entry for each known tool, at each threshold as many that live on as the links up to it
leave components, and the finite deaths are the weights of a least spanning forest. No order of links of one weight gives
other deaths. -/
theorem tracePersistence_exact (events : List TraceEvent) (metric : ToolMetric) (maxChainDegree : Nat)
    (hknown : 2 ≤ (knownTools events metric).length) :
    (tracePersistence events metric maxChainDegree).length = (knownTools events metric).toFinset.card ∧
      (∀ threshold < u32Max,
        (tracePersistence events metric maxChainDegree).countP (fun entry => threshold < entry.death) =
          Nat.card ((toolGraph metric (indexSequence events metric) (max maxChainDegree 1) threshold).induce
            {x | x ∈ indexSequence events metric}).ConnectedComponent) ∧
      ((∀ p q w, Weighs metric (indexSequence events metric) (max maxChainDegree 1) p q w → w < u32Max) →
        ∃ forest, LeastSpanningForest metric (indexSequence events metric) (max maxChainDegree 1) forest ∧
          (((tracePersistence events metric maxChainDegree).map (·.death.toNat)).filter (· < u32Max.toNat)).Perm
            (forest.map (·.weight))) ∧
      ∀ links, Listing metric (indexSequence events metric) (max maxChainDegree 1) links →
        ((persistence metric (usedNodes (indexSequence events metric)) links).map (·.death)).Perm
          ((tracePersistence events metric maxChainDegree).map (·.death)) := by
  have hperm := tracePersistence_perm maxChainDegree hknown
  have hlisting : Listing metric (indexSequence events metric) (max maxChainDegree 1) _ := listing_sortEdges
  refine ⟨?_, fun threshold ht => ?_, fun hweights => ⟨_, hlisting.leastSpanningForest, ?_⟩, fun links hlinks => ?_⟩
  · rw [hperm.length_eq, hlisting.length_persistence, card_indices]
  · rw [hperm.countP_eq, hlisting.countP_death ht]
  · exact ((hperm.map _).filter _).trans (hlisting.finite_deaths hweights)
  · exact (hlisting.perm_deaths hlinks).trans (hperm.map _).symm

namespace Sample

def toolEvent (timestampMs : UInt64) (toolName : String) : TraceEvent := ⟨timestampMs, toolName, 1, true⟩

def skipEvents : List TraceEvent := [toolEvent 1 "a", toolEvent 2 "b", toolEvent 3 "c"]

def skipMetric : ToolMetric := ⟨["a", "b", "c"], [[0, 10, 1], [10, 0, 10], [1, 10, 0]]⟩

end Sample

open Sample in
theorem tracePersistence_exact_skip : (tracePersistence skipEvents skipMetric 2).length = 3 ∧
    (tracePersistence skipEvents skipMetric 2).countP (fun entry => 5 < entry.death) =
      Nat.card ((toolGraph skipMetric [0, 1, 2] 2 5).induce {x | x ∈ [0, 1, 2]}).ConnectedComponent ∧
    ∃ forest, LeastSpanningForest skipMetric [0, 1, 2] 2 forest ∧
      (((tracePersistence skipEvents skipMetric 2).map (·.death.toNat)).filter (· < u32Max.toNat)).Perm
        (forest.map (·.weight)) := by
  have hindices : indexSequence skipEvents skipMetric = [0, 1, 2] := by decide
  obtain ⟨hlength, hcount, hforest, -⟩ := tracePersistence_exact skipEvents skipMetric 2 (by decide)
  have hbelow : ∀ a ∈ [0, 1, 2], ∀ b ∈ [0, 1, 2], skipMetric.distance a b < u32Max := by decide
  rw [hindices] at hcount hforest
  refine ⟨hlength.trans (by decide), hcount 5 (by decide), hforest fun p q w hw => ?_⟩
  obtain ⟨i, k, a, b, -, -, ha, hb, -, rfl⟩ := hw.1
  exact hbelow a (List.mem_of_getElem? ha) b (List.mem_of_getElem? hb)

end AgentHalo.Trace.Topology
