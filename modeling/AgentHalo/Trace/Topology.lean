import Mathlib.Data.Finset.Sort
import Mathlib.Order.Bounds.Basic
import AgentHalo.Lib.OrdMap
import AgentHalo.Lib.Kruskal

/-!
# Topology of a trace

The tools that a trace uses are nodes, and two tools that occur close together are linked, at the distance the metric gives
them. `tracePersistence` goes through the links in the order of their weights and merges components by a union-find: each
tool is born at zero, and dies at the weight of the link that merges its component into one with a lower tool. The lower
root is kept, so `find` ends (`find_spec`).
-/

namespace AgentHalo.Trace.Topology

open Parents (Descending parentOf rootOf)

structure TraceEvent where
  timestampMs : UInt64
  toolName : String
  durationMs : UInt64
  success : Bool
deriving DecidableEq, Repr

structure ToolMetric where
  toolNames : List String
  distances : List (List UInt32)
deriving DecidableEq, Repr

structure TraceChain where
  events : List Nat
  length : UInt32
deriving DecidableEq, Repr

structure PersistenceEntry where
  birth : UInt32
  death : UInt32
  representative : List String
deriving DecidableEq, Repr

def u32Max : UInt32 := 4294967295

def saturatingAdd (a b : UInt32) : UInt32 := if a.toNat + b.toNat < 2 ^ 32 then a + b else u32Max

def windows {α : Type} (n : Nat) (l : List α) : List (List α) :=
  (List.range (l.length + 1 - n)).map fun i => (l.drop i).take n

namespace ToolMetric

def indexOf (m : ToolMetric) (toolName : String) : Option Nat := m.toolNames.findIdx? (· = toolName)

def distance (m : ToolMetric) (a b : Nat) : UInt32 := (m.distances[a]?.bind (·[b]?)).getD 0

end ToolMetric

/-! ### Chains and links -/

def buildTraceChainsFromIndices (indices : List Nat) (metric : ToolMetric) (maxChainDegree : Nat) : List TraceChain :=
  if indices.length < 2 ∨ maxChainDegree = 0 then []
  else
    -- the loop over degrees breaks at the first window that is too long
    let degrees := (List.range' 1 maxChainDegree).takeWhile fun degree => degree + 1 ≤ indices.length
    degrees.flatMap fun degree => (windows (degree + 1) indices).map fun segment =>
      { events := segment
        length := (windows 2 segment).foldl
          (fun length pair => saturatingAdd length (metric.distance (pair.getD 0 0) (pair.getD 1 0))) 0 }

def indexSequence (events : List TraceEvent) (metric : ToolMetric) : List Nat :=
  events.filterMap fun event => metric.indexOf event.toolName

def buildTraceChains (events : List TraceEvent) (metric : ToolMetric) (maxChainDegree : Nat) : List TraceChain :=
  buildTraceChainsFromIndices (indexSequence events metric) metric maxChainDegree

abbrev EdgeWeights := Std.ExtTreeMap (Nat × Nat) UInt32 lexOrd.compare

def addChain (metric : ToolMetric) (weights : EdgeWeights) (chain : TraceChain) : EdgeWeights :=
  if chain.events.length < 2 then weights
  else
    let a := chain.events.getD 0 0
    let b := chain.events.getLast?.getD a
    if a = b then weights
    else
      let edge := if a < b then (a, b) else (b, a)
      let d := metric.distance a b
      weights.insert edge
        (match weights[edge]? with
          | some existing => min existing d
          | none => d)

def edgeWeights (metric : ToolMetric) (chains : List TraceChain) : EdgeWeights := chains.foldl (addChain metric) ∅

/-! ### Union-find -/

structure UnionFind where
  parent : List Nat
deriving DecidableEq, Repr

namespace UnionFind

def new (n : Nat) : UnionFind := ⟨List.range n⟩

/-- The recursion of `find`, to a depth. -/
def findWithin : Nat → List Nat → Nat → Nat × List Nat
  | 0, parent, x => (x, parent)
  | depth + 1, parent, x =>
    if parentOf parent x ≠ x then
      let (root, parent) := findWithin depth parent (parentOf parent x)
      (root, parent.set x root)
    else (x, parent)

/-- No path to a root is longer than there are nodes. -/
def find (uf : UnionFind) (x : Nat) : Nat × UnionFind :=
  let (root, parent) := findWithin uf.parent.length uf.parent x
  (root, ⟨parent⟩)

def union (uf : UnionFind) (a b : Nat) : UnionFind :=
  let (ra, uf) := uf.find a
  let (rb, uf) := uf.find b
  if ra ≠ rb then ⟨uf.parent.set rb ra⟩ else uf

end UnionFind

/-! ### Persistence -/

/-- The state of the loop over links. -/
structure Components where
  uf : UnionFind
  entries : List PersistenceEntry
  entryByRoot : OrdMap Nat Nat

def mergedComponentRepresentative (uf : UnionFind) (root : Nat) (metric : ToolMetric) (nodes : List Nat) :
    List String × UnionFind :=
  let (found, uf) := nodes.foldl (fun (found, uf) node =>
    let (r, uf) := uf.find node
    (if r = root then found ++ [node] else found, uf)) (([] : List Nat), uf)
  ((found.filterMap (metric.toolNames[·]?)).mergeSort, uf)

def Components.start (metric : ToolMetric) (nodes : List Nat) : Components where
  uf := .new (nodes.max?.getD 0 + 1)
  entries := nodes.map fun node => { birth := 0, death := u32Max, representative := [metric.toolNames.getD node ""] }
  entryByRoot := nodes.zipIdx.foldl (fun entryByRoot (node, idx) => entryByRoot.insert node idx) ∅

def mergeEdge (metric : ToolMetric) (nodes : List Nat) (s : Components) : (Nat × Nat) × UInt32 → Components
  | ((a, b), distance) =>
    let (ra, uf) := s.uf.find a
    let (rb, uf) := uf.find b
    if ra = rb then { s with uf }
    else
      let keep := min ra rb
      let kill := max ra rb
      let uf := uf.union keep kill
      let entries := match s.entryByRoot[kill]? with
        | some idx => s.entries.modify idx fun entry => { entry with death := distance }
        | none => s.entries
      let entryByRoot := s.entryByRoot.erase kill
      match entryByRoot[keep]? with
      | some keepIdx =>
        let (merged, uf) := mergedComponentRepresentative uf keep metric nodes
        { uf, entries := entries.modify keepIdx fun entry => { entry with representative := merged }, entryByRoot }
      | none => { uf, entries, entryByRoot }

/-- The entries after the links, in the order in which the tools stand. -/
def persistence (metric : ToolMetric) (nodes : List Nat) (sortedEdges : List ((Nat × Nat) × UInt32)) :
    List PersistenceEntry :=
  (sortedEdges.foldl (mergeEdge metric nodes) (.start metric nodes)).entries

/-- Rust's `u32::saturating_sub` of the birth from the death. -/
def PersistenceEntry.life (entry : PersistenceEntry) : Nat := entry.death.toNat - entry.birth.toNat

def sortEdges (weights : EdgeWeights) : List ((Nat × Nat) × UInt32) :=
  weights.toList.mergeSort fun x y => decide (x.2 ≤ y.2)

/-- The indices that occur, in ascending order. -/
def usedNodes (indices : List Nat) : List Nat := indices.toFinset.sort (· ≤ ·)

def tracePersistence (events : List TraceEvent) (metric : ToolMetric) (maxChainDegree : Nat) : List PersistenceEntry :=
  if events.isEmpty || metric.toolNames.isEmpty then []
  else if (indexSequence events metric).isEmpty then []
  else
    let chains := buildTraceChains events metric (max maxChainDegree 1)
    if chains.isEmpty then []
    else
      let nodes := usedNodes (indexSequence events metric)
      if nodes.isEmpty then []
      else
        (persistence metric nodes (sortEdges (edgeWeights metric chains))).mergeSort fun a b => decide (b.life ≤ a.life)

/-! ### Weights -/

/-- Two tools occur at most `degree` places apart, at this distance. -/
def Linked (metric : ToolMetric) (indices : List Nat) (degree p q : Nat) (d : UInt32) : Prop :=
  ∃ i k a b, 1 ≤ k ∧ k ≤ degree ∧ indices[i]? = some a ∧ indices[i + k]? = some b ∧
    (a = p ∧ b = q ∨ a = q ∧ b = p) ∧ metric.distance a b = d

/-- The least distance over the occurrences. -/
def Weighs (metric : ToolMetric) (indices : List Nat) (degree p q : Nat) (weight : UInt32) : Prop :=
  IsLeast {d | Linked metric indices degree p q d} weight

def linkOf (metric : ToolMetric) (chain : TraceChain) : Option ((Nat × Nat) × UInt32) :=
  if chain.events.length < 2 then none
  else
    let a := chain.events.getD 0 0
    let b := chain.events.getLast?.getD a
    if a = b then none else some (if a < b then (a, b) else (b, a), metric.distance a b)

def putLeast (weights : EdgeWeights) (link : (Nat × Nat) × UInt32) : EdgeWeights :=
  weights.insert link.1
    (match weights[link.1]? with
      | some existing => min existing link.2
      | none => link.2)

theorem addChain_eq (metric : ToolMetric) (weights : EdgeWeights) (chain : TraceChain) :
    addChain metric weights chain = (linkOf metric chain).elim weights (putLeast weights) := by
  unfold addChain linkOf
  split_ifs
  · rfl
  · dsimp only
    split_ifs <;> rfl

/-- The weights are the least of what was offered. -/
structure LeastOf (weights : EdgeWeights) (offers : Set ((Nat × Nat) × UInt32)) : Prop where
  least : ∀ edge w, weights[edge]? = some w → IsLeast {d | (edge, d) ∈ offers} w
  held : ∀ edge d, (edge, d) ∈ offers → weights[edge]?.isSome

theorem min_cases (x d : UInt32) : min x d = x ∧ x ≤ d ∨ min x d = d ∧ d ≤ x := by
  obtain hle | hle := UInt32.le_total x d
  · exact .inl ⟨if_pos hle, hle⟩
  · by_cases hle' : x ≤ d
    · exact .inl ⟨if_pos hle', hle'⟩
    · exact .inr ⟨if_neg hle', hle⟩

variable {weights : EdgeWeights} {offers : Set ((Nat × Nat) × UInt32)} {degree p q : Nat}

theorem LeastOf.putLeast (h : LeastOf weights offers) (link : (Nat × Nat) × UInt32) :
    LeastOf (putLeast weights link) (insert link offers) := by
  obtain ⟨edge, d⟩ := link
  have hlookup : ∀ (value : UInt32) (other : Nat × Nat),
      (weights.insert edge value)[other]? = if edge = other then some value else weights[other]? := by
    intro value other
    rw [Std.ExtTreeMap.getElem?_insert]
    exact if_congr Std.LawfulEqCmp.compare_eq_iff_eq rfl rfl
  have hother : ∀ {other}, edge ≠ other →
      {d' | (other, d') ∈ insert (edge, d) offers} = {d' | (other, d') ∈ offers} := by
    intro other hne
    ext d'
    simp [Ne.symm hne]
  unfold Topology.putLeast
  dsimp only
  constructor
  · intro other w hw
    rw [hlookup] at hw
    split_ifs at hw with hsame
    · subst hsame
      cases hold : weights[edge]? with
      | none =>
        rw [hold] at hw
        rw [← Option.some.inj hw]
        refine ⟨.inl rfl, fun d' hd' => ?_⟩
        obtain heq | hmem := hd'
        · rw [(Prod.mk.inj heq).2]
          exact UInt32.le_refl d
        · have hheld := h.held edge d' hmem
          rw [hold] at hheld
          cases hheld
      | some existing =>
        rw [hold] at hw
        have hleast := h.least edge existing hold
        rw [← Option.some.inj hw]
        dsimp only
        obtain ⟨hmin, hle⟩ | ⟨hmin, hle⟩ := min_cases existing d
        · rw [hmin]
          refine ⟨.inr hleast.1, fun d' hd' => ?_⟩
          obtain heq | hmem := hd'
          · rwa [(Prod.mk.inj heq).2]
          · exact hleast.2 hmem
        · rw [hmin]
          refine ⟨.inl rfl, fun d' hd' => ?_⟩
          obtain heq | hmem := hd'
          · rw [(Prod.mk.inj heq).2]
            exact UInt32.le_refl d
          · exact UInt32.le_trans hle (hleast.2 hmem)
    · rw [hother hsame]
      exact h.least other w hw
  · intro other d' hmem
    rw [hlookup]
    split_ifs with hsame
    · rfl
    · refine h.held other d' ?_
      obtain heq | hmem := hmem
      · exact absurd (Prod.mk.inj heq).1.symm hsame
      · exact hmem

theorem leastOf_foldl_addChain (metric : ToolMetric) (chains : List TraceChain) (h : LeastOf weights offers) :
    LeastOf (chains.foldl (addChain metric) weights) (offers ∪ {link | ∃ chain ∈ chains, linkOf metric chain = some link}) := by
  induction chains generalizing weights offers with
  | nil => simpa using h
  | cons chain chains ih =>
    rw [List.foldl_cons, addChain_eq]
    cases hlink : linkOf metric chain with
    | none =>
      have hsame : {link | ∃ c ∈ chain :: chains, linkOf metric c = some link} =
          {link | ∃ c ∈ chains, linkOf metric c = some link} := by
        ext link
        simp [hlink]
      rw [hsame]
      exact ih h
    | some link =>
      have hsame : offers ∪ {link' | ∃ c ∈ chain :: chains, linkOf metric c = some link'} =
          insert link offers ∪ {link' | ∃ c ∈ chains, linkOf metric c = some link'} := by
        ext link'
        simp only [List.exists_mem_cons_iff, hlink, Option.some.injEq, Set.mem_union, Set.mem_ofPred_eq, Set.mem_insert_iff]
        rw [eq_comm (a := link), or_left_comm, or_assoc]
      rw [hsame]
      exact ih (h.putLeast link)

theorem mem_takeWhile_range' {start n length : Nat} :
    degree ∈ (List.range' start n).takeWhile (fun degree => decide (degree + 1 ≤ length)) ↔
      start ≤ degree ∧ degree < start + n ∧ degree + 1 ≤ length := by
  induction n generalizing start with
  | zero => simp; omega
  | succ n ih =>
    rw [List.range'_succ, List.takeWhile_cons]
    split_ifs with hstart
    · rw [List.mem_cons, ih]
      rw [decide_eq_true_eq] at hstart
      omega
    · rw [decide_eq_true_eq] at hstart
      simp only [List.not_mem_nil, false_iff]
      omega

theorem mem_chains (indices : List Nat) (metric : ToolMetric) (degree : Nat) (events : List Nat) :
    (∃ chain ∈ buildTraceChainsFromIndices indices metric degree, chain.events = events) ↔
      ∃ i k, 1 ≤ k ∧ k ≤ degree ∧ i + k < indices.length ∧ events = (indices.drop i).take (k + 1) := by
  unfold buildTraceChainsFromIndices
  split_ifs with hshort
  · simp only [List.not_mem_nil, false_and, exists_false, false_iff]
    rintro ⟨i, k, hk, hdegree, hlength, -⟩
    omega
  · simp only [List.mem_flatMap, List.mem_map, mem_takeWhile_range', windows, List.mem_range]
    constructor
    · rintro ⟨_, ⟨k, ⟨hpos, hdegree, hlength⟩, _, ⟨i, hi, rfl⟩, rfl⟩, rfl⟩
      exact ⟨i, k, hpos, by omega, by omega, rfl⟩
    · rintro ⟨i, k, hpos, hdegree, hlength, rfl⟩
      exact ⟨_, ⟨k, ⟨hpos, by omega, by omega⟩, _, ⟨i, by omega, rfl⟩, rfl⟩, rfl⟩

variable {metric : ToolMetric} {indices : List Nat}

theorem linkOf_stretch {i k a b : Nat} (hk : 1 ≤ k) {length : UInt32}
    (ha : indices[i]? = some a) (hb : indices[i + k]? = some b) :
    linkOf metric ⟨(indices.drop i).take (k + 1), length⟩ =
      if a = b then none else some (if a < b then (a, b) else (b, a), metric.distance a b) := by
  have hlt := (List.getElem?_eq_some_iff.mp hb).1
  have hlength : ((indices.drop i).take (k + 1)).length = k + 1 := by
    rw [List.length_take, List.length_drop]
    omega
  have hfirst : ((indices.drop i).take (k + 1)).getD 0 0 = a := by
    rw [List.getD_eq_getElem?_getD, List.getElem?_take_of_lt (Nat.succ_pos k), List.getElem?_drop, Nat.add_zero, ha,
      Option.getD_some]
  have hlast : ((indices.drop i).take (k + 1)).getLast? = some b := by
    rw [List.getLast?_eq_getElem?, hlength, Nat.add_sub_cancel, List.getElem?_take_of_lt (Nat.lt_succ_self k),
      List.getElem?_drop, hb]
  unfold linkOf
  dsimp only
  rw [if_neg (by omega), hfirst, hlast, Option.getD_some]

theorem offered_iff {d : UInt32} :
    (∃ chain ∈ buildTraceChainsFromIndices indices metric degree, linkOf metric chain = some ((p, q), d)) ↔
      p < q ∧ Linked metric indices degree p q d := by
  constructor
  · rintro ⟨⟨events, length⟩, hchain, hlink⟩
    obtain ⟨i, k, hpos, hdegree, hlt, rfl⟩ := (mem_chains indices metric degree events).mp ⟨_, hchain, rfl⟩
    have ha := List.getElem?_eq_getElem (l := indices) (i := i) (by omega)
    have hb := List.getElem?_eq_getElem (l := indices) (i := i + k) hlt
    rw [linkOf_stretch hpos ha hb] at hlink
    split_ifs at hlink with heq hless
    · obtain ⟨hedge, hd⟩ := Prod.mk.inj (Option.some.inj hlink)
      obtain ⟨rfl, rfl⟩ := Prod.mk.inj hedge
      exact ⟨hless, i, k, _, _, hpos, hdegree, ha, hb, .inl ⟨rfl, rfl⟩, hd⟩
    · obtain ⟨hedge, hd⟩ := Prod.mk.inj (Option.some.inj hlink)
      obtain ⟨rfl, rfl⟩ := Prod.mk.inj hedge
      exact ⟨by omega, i, k, _, _, hpos, hdegree, ha, hb, .inr ⟨rfl, rfl⟩, hd⟩
  · rintro ⟨hlt, i, k, a, b, hpos, hdegree, ha, hb, hends, rfl⟩
    have hlength := (List.getElem?_eq_some_iff.mp hb).1
    obtain ⟨⟨events, length⟩, hchain, rfl⟩ :=
      (mem_chains indices metric degree _).mpr ⟨i, k, hpos, hdegree, hlength, rfl⟩
    refine ⟨_, hchain, ?_⟩
    rw [linkOf_stretch hpos ha hb]
    obtain ⟨rfl, rfl⟩ | ⟨rfl, rfl⟩ := hends
    · rw [if_neg hlt.ne, if_pos hlt]
    · rw [if_neg hlt.ne', if_neg hlt.not_gt]

/-- **The weights are the least distances** of the pairs of tools that are linked. -/
theorem edgeWeights_spec {w : UInt32} :
    (edgeWeights metric (buildTraceChainsFromIndices indices metric degree))[(p, q)]? = some w ↔
      p < q ∧ Weighs metric indices degree p q w := by
  have hempty : LeastOf (∅ : EdgeWeights) ∅ := ⟨fun _ _ h => by simp at h, fun _ _ h => h.elim⟩
  have hleast := leastOf_foldl_addChain metric (buildTraceChainsFromIndices indices metric degree) hempty
  rw [Set.empty_union] at hleast
  change LeastOf (edgeWeights metric (buildTraceChainsFromIndices indices metric degree)) _ at hleast
  generalize edgeWeights metric (buildTraceChainsFromIndices indices metric degree) = weights at hleast
  have hset : p < q → {d | ((p, q), d) ∈ {link | ∃ chain ∈ buildTraceChainsFromIndices indices metric degree,
      linkOf metric chain = some link}} = {d | Linked metric indices degree p q d} := by
    intro hlt
    ext d
    exact offered_iff.trans (and_iff_right hlt)
  constructor
  · intro hw
    have hmin := hleast.least (p, q) w hw
    have hlt := (offered_iff.mp hmin.1).1
    rw [hset hlt] at hmin
    exact ⟨hlt, hmin⟩
  · rintro ⟨hlt, hmin⟩
    have hheld := hleast.held (p, q) w (offered_iff.mpr ⟨hlt, hmin.1⟩)
    obtain ⟨w', hw'⟩ := Option.isSome_iff_exists.mp hheld
    have hmin' := hleast.least (p, q) w' hw'
    rw [hset hlt] at hmin'
    rw [hw', UInt32.le_antisymm (hmin'.2 hmin.1) (hmin.2 hmin'.1)]

/-! ### The union-find -/

variable {uf : UnionFind}

namespace UnionFind

/-- Two parent lists with the same classes. -/
structure SameRoots (parent parent' : List Nat) : Prop where
  descending : Descending parent'
  length : parent'.length = parent.length
  root : ∀ y, rootOf parent' y = rootOf parent y

theorem SameRoots.refl {parent : List Nat} (h : Descending parent) : SameRoots parent parent := ⟨h, rfl, fun _ => rfl⟩

theorem SameRoots.trans {parent parent' parent'' : List Nat} (h : SameRoots parent parent')
    (h' : SameRoots parent' parent'') : SameRoots parent parent'' :=
  ⟨h'.descending, h'.length.trans h.length, fun y => (h'.root y).trans (h.root y)⟩

theorem findWithin_spec {depth : Nat} {parent : List Nat} {x : Nat} (h : Descending parent) (hdepth : x < depth) :
    (findWithin depth parent x).1 = rootOf parent x ∧ SameRoots parent (findWithin depth parent x).2 := by
  induction depth generalizing x with
  | zero => exact absurd hdepth (Nat.not_lt_zero _)
  | succ depth ih =>
    rw [findWithin]
    by_cases hself : parentOf parent x = x
    · rw [if_neg (not_not.mpr hself)]
      exact ⟨(Parents.rootOf_of_self hself).symm, .refl h⟩
    · have hlt : parentOf parent x < x := lt_of_le_of_ne (h x) hself
      obtain ⟨hroot, hsame⟩ := ih (hlt.trans_le (Nat.lt_succ_iff.mp hdepth))
      rw [if_pos hself]
      generalize findWithin depth parent (parentOf parent x) = below at hroot hsame
      obtain ⟨root, parent'⟩ := below
      have hx : root = rootOf parent' x := by
        rw [hsame.root, Parents.rootOf_of_lt hlt]
        exact hroot
      refine ⟨hx.trans (hsame.root x), hsame.trans ⟨?_, List.length_set, fun y => ?_⟩⟩
      · exact hsame.descending.set (hx ▸ Parents.rootOf_le hsame.descending x)
      · dsimp only
        rw [hx, Parents.rootOf_compress hsame.descending]

theorem find_spec (h : Descending uf.parent) (x : Nat) :
    (uf.find x).1 = rootOf uf.parent x ∧ SameRoots uf.parent (uf.find x).2.parent := by
  unfold find
  by_cases hx : x < uf.parent.length
  · exact findWithin_spec h hx
  · have hself : parentOf uf.parent x = x := Parents.parentOf_of_length_le (Nat.not_lt.mp hx)
    have hstays : findWithin uf.parent.length uf.parent x = (x, uf.parent) := by
      cases uf.parent.length with
      | zero => rfl
      | succ depth => rw [findWithin, if_neg (not_not.mpr hself)]
    rw [hstays]
    exact ⟨(Parents.rootOf_of_self hself).symm, .refl h⟩

theorem union_spec (h : Descending uf.parent) {keep kill : Nat} (hkeep : rootOf uf.parent keep = keep)
    (hkill : rootOf uf.parent kill = kill) (hlt : keep < kill) (hlength : kill < uf.parent.length) :
    Descending (uf.union keep kill).parent ∧ (uf.union keep kill).parent.length = uf.parent.length ∧
      ∀ y, rootOf (uf.union keep kill).parent y = if rootOf uf.parent y = kill then keep else rootOf uf.parent y := by
  obtain ⟨hra, hsame⟩ := find_spec h keep
  obtain ⟨hrb, hsame'⟩ := find_spec hsame.descending kill
  have hboth := hsame.trans hsame'
  rw [hkeep] at hra
  rw [hsame.root, hkill] at hrb
  unfold union
  dsimp only
  rw [hra, hrb, if_pos hlt.ne]
  have hkeep' := (hboth.root keep).trans hkeep
  have hkill' := (hboth.root kill).trans hkill
  refine ⟨hboth.descending.set hlt.le, by rw [List.length_set, hboth.length], fun y => ?_⟩
  rw [Parents.rootOf_link hboth.descending hkeep' hkill' hlt (by rwa [hboth.length]), hboth.root]

end UnionFind

theorem mergedComponentRepresentative_spec (h : Descending uf.parent) (root : Nat) (metric : ToolMetric)
    (nodes : List Nat) :
    UnionFind.SameRoots uf.parent (mergedComponentRepresentative uf root metric nodes).2.parent := by
  unfold mergedComponentRepresentative
  dsimp only
  suffices hfold : ∀ found : List Nat, UnionFind.SameRoots uf.parent (nodes.foldl (fun (found, uf) node =>
      let (r, uf) := UnionFind.find uf node
      (if r = root then found ++ [node] else found, uf)) (found, uf)).2.parent from hfold []
  induction nodes generalizing uf with
  | nil => exact fun _ => .refl h
  | cons node nodes ih =>
    intro found
    obtain ⟨-, hsame⟩ := UnionFind.find_spec h node
    exact hsame.trans (ih hsame.descending _)

end AgentHalo.Trace.Topology
