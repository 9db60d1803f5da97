import Mathlib.Tactic
import Mathlib.Combinatorics.SimpleGraph.Acyclic

/-!
# Merging classes along edges

Weighted edges are gone through one by one. An edge between two classes merges them, and one of the two names dies, at the
weight of the edge. When the edges come in the order of their weights, the names that live on at a threshold are the
components of the graph of the edges up to it (`card_living`), and the edges that merged are a spanning forest of the
least weight (`sum_kept_le`).
-/

/-!
## Parent pointers

A partition of numbers, given by a parent for each: a class is a tree, and its root is its own parent. Here no parent is
above its child (`Descending`), so the root of a class is its least element (`rootOf_le`) and can be found by going up.

Making a root the parent of one of its own (`rootOf_compress`) changes no class, and making it the parent of another
root (`rootOf_link`) merges two classes.
-/

namespace Parents

/-- A number that is not in the list is its own parent. -/
def parentOf (parent : List Nat) (x : Nat) : Nat := parent.getD x x

def Descending (parent : List Nat) : Prop := ∀ x, parentOf parent x ≤ x

def rootOf (parent : List Nat) (x : Nat) : Nat :=
  if parentOf parent x < x then rootOf parent (parentOf parent x) else x
termination_by x

variable {parent : List Nat} {x y keep kill : Nat}

theorem rootOf_of_lt (h : parentOf parent x < x) : rootOf parent x = rootOf parent (parentOf parent x) := by
  rw [rootOf, if_pos h]

theorem rootOf_of_self (h : parentOf parent x = x) : rootOf parent x = x := by
  rw [rootOf, if_neg (by omega)]

theorem parentOf_of_length_le (h : parent.length ≤ x) : parentOf parent x = x := by
  rw [parentOf, List.getD_eq_getElem?_getD, List.getElem?_eq_none h, Option.getD_none]

theorem parentOf_range (n : Nat) : parentOf (List.range n) x = x := by
  by_cases hx : x < n
  · rw [parentOf, List.getD_eq_getElem?_getD, List.getElem?_range hx, Option.getD_some]
  · exact parentOf_of_length_le (by simpa using hx)

theorem descending_range (n : Nat) : Descending (List.range n) := fun _ => (parentOf_range n).le

theorem parentOf_set (hx : x < parent.length) (r : Nat) :
    parentOf (parent.set x r) y = if x = y then r else parentOf parent y := by
  unfold parentOf
  rw [List.getD_eq_getElem?_getD, List.getElem?_set, List.getD_eq_getElem?_getD]
  split_ifs
  · rfl
  · rfl

theorem Descending.set (h : Descending parent) {r : Nat} (hr : r ≤ x) : Descending (parent.set x r) := by
  intro y
  by_cases hx : x < parent.length
  · rw [parentOf_set hx]
    split_ifs with hy
    · omega
    · exact h y
  · rw [List.set_eq_of_length_le (Nat.not_lt.mp hx)]
    exact h y

theorem parentOf_rootOf (h : Descending parent) (x : Nat) : parentOf parent (rootOf parent x) = rootOf parent x := by
  induction x using Nat.strong_induction_on with
  | _ x ih =>
    by_cases hlt : parentOf parent x < x
    · rw [rootOf_of_lt hlt]
      exact ih _ hlt
    · have hself : parentOf parent x = x := le_antisymm (h x) (Nat.not_lt.mp hlt)
      rw [rootOf_of_self hself, hself]

theorem rootOf_le (h : Descending parent) (x : Nat) : rootOf parent x ≤ x := by
  induction x using Nat.strong_induction_on with
  | _ x ih =>
    by_cases hlt : parentOf parent x < x
    · rw [rootOf_of_lt hlt]
      exact (ih _ hlt).trans hlt.le
    · rw [rootOf_of_self (le_antisymm (h x) (Nat.not_lt.mp hlt))]

theorem rootOf_compress (h : Descending parent) (x y : Nat) :
    rootOf (parent.set x (rootOf parent x)) y = rootOf parent y := by
  by_cases hx : x < parent.length
  · induction y using Nat.strong_induction_on with
    | _ y ih =>
      have hparent := parentOf_set (y := y) hx (rootOf parent x)
      by_cases hy : x = y
      · subst hy
        rw [if_pos rfl] at hparent
        have hroot : parentOf (parent.set x (rootOf parent x)) (rootOf parent x) = rootOf parent x := by
          rw [parentOf_set hx]
          split_ifs
          · rfl
          · exact parentOf_rootOf h x
        obtain hlt | heq := (rootOf_le h x).lt_or_eq
        · rw [rootOf_of_lt (by rwa [hparent]), hparent, rootOf_of_self hroot]
        · rw [rootOf_of_self (by rw [hparent, heq]), heq]
      · rw [if_neg hy] at hparent
        by_cases hlt : parentOf parent y < y
        · rw [rootOf_of_lt (by rwa [hparent]), hparent, ih _ hlt, ← rootOf_of_lt hlt]
        · have hself : parentOf parent y = y := le_antisymm (h y) (Nat.not_lt.mp hlt)
          rw [rootOf_of_self (by rw [hparent, hself]), rootOf_of_self hself]
  · rw [List.set_eq_of_length_le (Nat.not_lt.mp hx)]

theorem rootOf_link (h : Descending parent) (hkeep : rootOf parent keep = keep) (hkill : rootOf parent kill = kill)
    (hlt : keep < kill) (hlength : kill < parent.length) (y : Nat) :
    rootOf (parent.set kill keep) y = if rootOf parent y = kill then keep else rootOf parent y := by
  induction y using Nat.strong_induction_on with
  | _ y ih =>
    have hparent := parentOf_set (y := y) hlength keep
    by_cases hy : kill = y
    · subst hy
      rw [if_pos rfl] at hparent
      have hroot : parentOf (parent.set kill keep) keep = keep := by
        rw [parentOf_set hlength, if_neg hlt.ne']
        have hfixed := parentOf_rootOf h keep
        rwa [hkeep] at hfixed
      rw [rootOf_of_lt (by rwa [hparent]), hparent, rootOf_of_self hroot, if_pos hkill]
    · rw [if_neg hy] at hparent
      by_cases hbelow : parentOf parent y < y
      · rw [rootOf_of_lt (by rwa [hparent]), hparent, ih _ hbelow, ← rootOf_of_lt hbelow]
      · have hself : parentOf parent y = y := le_antisymm (h y) (Nat.not_lt.mp hbelow)
        rw [rootOf_of_self (by rw [hparent, hself]), rootOf_of_self hself, if_neg (Ne.symm hy)]

end Parents

namespace Kruskal

structure Edge (V W : Type*) where
  a : V
  b : V
  weight : W

variable {V W : Type*}

def graph (es : List (Edge V W)) : SimpleGraph V := SimpleGraph.fromRel fun x y => ∃ e ∈ es, e.a = x ∧ e.b = y

/-- The state of the merging. -/
structure Merging (V W : Type*) where
  /-- The name of the class of a node, one of its nodes. -/
  label : V → V
  /-- When a name died. -/
  death : V → Option W
  /-- The edges that merged. -/
  kept : List (Edge V W)

def start : Merging V W := ⟨id, fun _ => none, []⟩

variable [LinearOrder V]

def Merging.rename (s : Merging V W) (keep kill : V) (e : Edge V W) : Merging V W where
  label x := if s.label x = kill then keep else s.label x
  death := Function.update s.death kill (some e.weight)
  kept := s.kept ++ [e]

section Rename

variable {s : Merging V W} {keep kill x : V} {e : Edge V W}

theorem rename_label_of_eq (h : s.label x = kill) : (s.rename keep kill e).label x = keep := if_pos h

theorem rename_label_of_ne (h : s.label x ≠ kill) : (s.rename keep kill e).label x = s.label x := if_neg h

theorem rename_death_self : (s.rename keep kill e).death kill = some e.weight := Function.update_self ..

theorem rename_death_of_ne (h : x ≠ kill) : (s.rename keep kill e).death x = s.death x := Function.update_of_ne h ..

end Rename

def step (s : Merging V W) (e : Edge V W) : Merging V W :=
  if s.label e.a = s.label e.b then s
  else s.rename (min (s.label e.a) (s.label e.b)) (max (s.label e.a) (s.label e.b)) e

theorem step_of_same {s : Merging V W} {e : Edge V W} (h : s.label e.a = s.label e.b) : step s e = s := if_pos h

theorem step_of_ne {s : Merging V W} {e : Edge V W} (h : s.label e.a ≠ s.label e.b) :
    step s e = s.rename (min (s.label e.a) (s.label e.b)) (max (s.label e.a) (s.label e.b)) e := if_neg h

def run (es : List (Edge V W)) : Merging V W := es.foldl step start

theorem run_snoc (es : List (Edge V W)) (e : Edge V W) : run (es ++ [e]) = step (run es) e := List.foldl_concat ..

/-! ### Classes and components -/

section Graph

omit [LinearOrder V]

theorem graph_adj {es : List (Edge V W)} {x y : V} :
    (graph es).Adj x y ↔ x ≠ y ∧ ∃ e ∈ es, x = e.a ∧ y = e.b ∨ x = e.b ∧ y = e.a := by
  rw [graph, SimpleGraph.fromRel_adj]
  refine and_congr_right fun _ => ⟨?_, ?_⟩
  · rintro (⟨e, he, rfl, rfl⟩ | ⟨e, he, rfl, rfl⟩)
    · exact ⟨e, he, .inl ⟨rfl, rfl⟩⟩
    · exact ⟨e, he, .inr ⟨rfl, rfl⟩⟩
  · rintro ⟨e, he, ⟨rfl, rfl⟩ | ⟨rfl, rfl⟩⟩
    · exact .inl ⟨e, he, rfl, rfl⟩
    · exact .inr ⟨e, he, rfl, rfl⟩

theorem graph_mono {es es' : List (Edge V W)} (h : ∀ e ∈ es, e ∈ es') : graph es ≤ graph es' := by
  intro x y hadj
  obtain ⟨hne, e, he, hends⟩ := graph_adj.mp hadj
  exact graph_adj.mpr ⟨hne, e, h e he, hends⟩

theorem graph_snoc (es : List (Edge V W)) (e : Edge V W) : graph (es ++ [e]) = graph es ⊔ SimpleGraph.edge e.a e.b := by
  ext x y
  rw [SimpleGraph.sup_adj, SimpleGraph.edge_adj, graph_adj, graph_adj]
  constructor
  · rintro ⟨hne, e', he', hends⟩
    obtain he' | he' := List.mem_append.mp he'
    · exact .inl ⟨hne, e', he', hends⟩
    · rw [List.mem_singleton.mp he'] at hends
      exact .inr ⟨hends, hne⟩
  · rintro (⟨hne, e', he', hends⟩ | ⟨hends, hne⟩)
    · exact ⟨hne, e', List.mem_append_left _ he', hends⟩
    · exact ⟨hne, e, List.mem_append_right _ List.mem_cons_self, hends⟩

theorem graph_nil : graph ([] : List (Edge V W)) = ⊥ := by
  ext x y
  simp [graph_adj]

theorem reachable_of_mem {es : List (Edge V W)} {e : Edge V W} (he : e ∈ es) : (graph es).Reachable e.a e.b := by
  by_cases heq : e.a = e.b
  · rw [heq]
  · exact (graph_adj.mpr ⟨heq, e, he, .inl ⟨rfl, rfl⟩⟩).reachable

theorem eq_of_reachable {α : Type*} {es : List (Edge V W)} {f : V → α} (h : ∀ e ∈ es, f e.a = f e.b) {x y : V}
    (hreach : (graph es).Reachable x y) : f x = f y := by
  rw [SimpleGraph.reachable_iff_reflTransGen] at hreach
  induction hreach with
  | refl => rfl
  | tail _ hadj ih =>
    obtain ⟨-, e, he, ⟨rfl, rfl⟩ | ⟨rfl, rfl⟩⟩ := graph_adj.mp hadj
    · exact ih.trans (h e he)
    · exact ih.trans (h e he).symm

theorem reachable_of_edges {es es' : List (Edge V W)} (h : ∀ e ∈ es, (graph es').Reachable e.a e.b) {x y : V}
    (hreach : (graph es).Reachable x y) : (graph es').Reachable x y :=
  SimpleGraph.ConnectedComponent.exact
    (eq_of_reachable (f := (graph es').connectedComponentMk) (fun e he => SimpleGraph.ConnectedComponent.sound (h e he))
      hreach)

end Graph

section Merged

/-- What the merging has come to after these edges. -/
structure Merged (es : List (Edge V W)) (s : Merging V W) : Prop where
  same : ∀ x y, s.label x = s.label y ↔ (graph es).Reachable x y
  named : ∀ x, s.label (s.label x) = s.label x
  dead : ∀ x, s.death x = none ↔ s.label x = x
  weights : ∀ x w, s.death x = some w → ∃ e ∈ es, e.weight = w
  sublist : s.kept.Sublist es
  spans : ∀ x y, (graph s.kept).Reachable x y ↔ (graph es).Reachable x y
  acyclic : (graph s.kept).IsAcyclic

omit [LinearOrder V] in
theorem merged_start : Merged ([] : List (Edge V W)) start where
  same x y := by rw [graph_nil, SimpleGraph.reachable_bot]; rfl
  named _ := rfl
  dead _ := ⟨fun _ => rfl, fun _ => rfl⟩
  weights _ _ h := by cases h
  sublist := .slnil
  spans _ _ := .rfl
  acyclic := by
    rw [start, graph_nil]
    exact SimpleGraph.isAcyclic_bot

omit [LinearOrder V] in
theorem Merged.inside {es : List (Edge V W)} {s : Merging V W} {e : Edge V W} (h : Merged es s)
    (heq : s.label e.a = s.label e.b) : Merged (es ++ [e]) s := by
  have hsame : ∀ x y, (graph es).Reachable x y ↔ (graph (es ++ [e])).Reachable x y := by
    refine fun x y => ⟨fun hreach => hreach.mono (graph_mono fun _ => List.mem_append_left _), fun hreach => ?_⟩
    refine (h.same x y).mp (eq_of_reachable (fun e' he' => ?_) hreach)
    obtain he' | he' := List.mem_append.mp he'
    · exact (h.same _ _).mpr (reachable_of_mem he')
    · rw [List.mem_singleton.mp he', heq]
  exact ⟨fun x y => (h.same x y).trans (hsame x y), h.named, h.dead,
    fun x w hw => (h.weights x w hw).imp fun _ he => ⟨List.mem_append_left _ he.1, he.2⟩,
    h.sublist.trans (List.sublist_append_left _ _), fun x y => (h.spans x y).trans (hsame x y), h.acyclic⟩

/-- The edge joins the nodes of the two names. -/
structure Joins (s : Merging V W) (e : Edge V W) (keep kill : V) : Prop where
  ne : keep ≠ kill
  ends : s.label e.a = keep ∧ s.label e.b = kill ∨ s.label e.a = kill ∧ s.label e.b = keep

theorem Merged.between {es : List (Edge V W)} {s : Merging V W} {e : Edge V W} {keep kill : V} (h : Merged es s)
    (hjoins : Joins s e keep kill) : Merged (es ++ [e]) (s.rename keep kill e) := by
  have hold : ∀ {x y}, (graph es).Reachable x y → (graph (es ++ [e])).Reachable x y :=
    fun hreach => hreach.mono (graph_mono fun _ => List.mem_append_left _)
  have hnew : (graph (es ++ [e])).Reachable e.a e.b :=
    reachable_of_mem (List.mem_append_right _ (List.mem_singleton_self e))
  have hapart : ¬ (graph es).Reachable e.a e.b := by
    rw [← h.same]
    obtain ⟨ha, hb⟩ | ⟨ha, hb⟩ := hjoins.ends
    · rw [ha, hb]
      exact hjoins.ne
    · rw [ha, hb]
      exact hjoins.ne.symm
  have hkeep : s.label keep = keep := by
    obtain ⟨ha, -⟩ | ⟨-, hb⟩ := hjoins.ends
    · rw [← ha, h.named]
    · rw [← hb, h.named]
  have hkill : s.label kill = kill := by
    obtain ⟨-, hb⟩ | ⟨ha, -⟩ := hjoins.ends
    · rw [← hb, h.named]
    · rw [← ha, h.named]
  -- the two names are connected now
  have hmet : (graph (es ++ [e])).Reachable kill keep := by
    obtain ⟨ha, hb⟩ | ⟨ha, hb⟩ := hjoins.ends
    · have hto := hold ((h.same kill e.b).mp (hkill.trans hb.symm))
      exact (hto.trans hnew.symm).trans (hold ((h.same e.a keep).mp (ha.trans hkeep.symm)))
    · have hto := hold ((h.same kill e.a).mp (hkill.trans ha.symm))
      exact (hto.trans hnew).trans (hold ((h.same e.b keep).mp (hb.trans hkeep.symm)))
  have hrenamed : ∀ x, (graph (es ++ [e])).Reachable x ((s.rename keep kill e).label x) := by
    intro x
    by_cases hx : s.label x = kill
    · rw [rename_label_of_eq hx]
      exact (hold ((h.same x kill).mp (hx.trans hkill.symm))).trans hmet
    · rw [rename_label_of_ne hx]
      exact hold ((h.same x (s.label x)).mp (h.named x).symm)
  refine ⟨fun x y => ⟨fun heq => ?_, fun hreach => eq_of_reachable (fun e' he' => ?_) hreach⟩, fun x => ?_, fun x => ?_,
    fun x w hw => ?_, h.sublist.append_right [e], fun x y => ⟨fun hreach => ?_, fun hreach => ?_⟩, ?_⟩
  · exact (hrenamed x).trans (heq ▸ (hrenamed y).symm)
  · obtain he' | he' := List.mem_append.mp he'
    · exact congrArg (fun name => if name = kill then keep else name) ((h.same _ _).mpr (reachable_of_mem he'))
    · rw [List.mem_singleton.mp he']
      obtain ⟨ha, hb⟩ | ⟨ha, hb⟩ := hjoins.ends
      · rw [rename_label_of_ne (ha.trans_ne hjoins.ne), rename_label_of_eq hb, ha]
      · rw [rename_label_of_eq ha, rename_label_of_ne (hb.trans_ne hjoins.ne), hb]
  · by_cases hx : s.label x = kill
    · rw [rename_label_of_eq hx, rename_label_of_ne (hkeep.trans_ne hjoins.ne), hkeep]
    · rw [rename_label_of_ne hx, rename_label_of_ne ((h.named x).trans_ne hx), h.named]
  · by_cases hx : x = kill
    · subst hx
      rw [rename_death_self, rename_label_of_eq hkill]
      exact iff_of_false (Option.some_ne_none _) hjoins.ne
    · rw [rename_death_of_ne hx, h.dead]
      by_cases hlabel : s.label x = kill
      · rw [rename_label_of_eq hlabel]
        refine iff_of_false (fun heq => hx (heq.symm.trans hlabel)) ?_
        rintro rfl
        exact hjoins.ne (hkeep.symm.trans hlabel)
      · rw [rename_label_of_ne hlabel]
  · by_cases hx : x = kill
    · rw [hx, rename_death_self] at hw
      exact ⟨e, List.mem_append_right _ List.mem_cons_self, Option.some.inj hw⟩
    · rw [rename_death_of_ne hx] at hw
      exact (h.weights x w hw).imp fun _ he => ⟨List.mem_append_left _ he.1, he.2⟩
  · exact hreach.mono (graph_mono fun e' he' => (h.sublist.append_right [e]).subset he')
  · refine reachable_of_edges (fun e' he' => ?_) hreach
    obtain he' | he' := List.mem_append.mp he'
    · exact ((h.spans _ _).mpr (reachable_of_mem he')).mono (graph_mono fun _ => List.mem_append_left _)
    · exact reachable_of_mem (List.mem_append_right _ he')
  · rw [Merging.rename, graph_snoc]
    exact h.acyclic.sup_edge_of_not_reachable fun hreach => hapart ((h.spans _ _).mp hreach)

omit [LinearOrder V] in
theorem Merged.living_of_joins {es : List (Edge V W)} {s : Merging V W} {e : Edge V W} {keep kill : V} (h : Merged es s)
    (hjoins : Joins s e keep kill) : s.death kill = none := by
  rw [h.dead]
  obtain ⟨-, hlabel⟩ | ⟨hlabel, -⟩ := hjoins.ends
  · rw [← hlabel, h.named]
  · rw [← hlabel, h.named]

theorem step_cases (s : Merging V W) (e : Edge V W) :
    s.label e.a = s.label e.b ∧ step s e = s ∨
      ∃ keep kill, keep < kill ∧ Joins s e keep kill ∧ step s e = s.rename keep kill e := by
  by_cases heq : s.label e.a = s.label e.b
  · exact .inl ⟨heq, step_of_same heq⟩
  · refine .inr ⟨_, _, min_lt_max.mpr heq, ⟨(min_lt_max.mpr heq).ne, ?_⟩, step_of_ne heq⟩
    obtain hle | hle := le_total (s.label e.a) (s.label e.b)
    · exact .inl ⟨(min_eq_left hle).symm, (max_eq_right hle).symm⟩
    · exact .inr ⟨(max_eq_left hle).symm, (min_eq_right hle).symm⟩

theorem merged_run (es : List (Edge V W)) : Merged es (run es) := by
  induction es using List.reverseRecOn with
  | nil => exact merged_start
  | append_singleton es e ih =>
    rw [run_snoc]
    obtain ⟨heq, hstep⟩ | ⟨keep, kill, -, hjoins, hstep⟩ := step_cases (run es) e
    · rw [hstep]
      exact ih.inside heq
    · rw [hstep]
      exact ih.between hjoins

end Merged

/-! ### Counting -/

section Count

variable {nodes : Finset V} {es : List (Edge V W)}

def Within (nodes : Finset V) (es : List (Edge V W)) : Prop := ∀ e ∈ es, e.a ∈ nodes ∧ e.b ∈ nodes

def living (nodes : Finset V) (es : List (Edge V W)) : Finset V := nodes.filter fun x => (run es).label x = x

omit [LinearOrder V] in
theorem Joins.mem {s : Merging V W} {e : Edge V W} {keep kill : V} (h : Joins s e keep kill)
    (hlabel : ∀ x ∈ nodes, s.label x ∈ nodes) (ha : e.a ∈ nodes) (hb : e.b ∈ nodes) : keep ∈ nodes ∧ kill ∈ nodes := by
  obtain ⟨hkeep, hkill⟩ | ⟨hkill, hkeep⟩ := h.ends
  · exact ⟨hkeep ▸ hlabel _ ha, hkill ▸ hlabel _ hb⟩
  · exact ⟨hkeep ▸ hlabel _ hb, hkill ▸ hlabel _ ha⟩

theorem label_mem (hwithin : Within nodes es) : ∀ x ∈ nodes, (run es).label x ∈ nodes := by
  induction es using List.reverseRecOn with
  | nil => exact fun x hx => hx
  | append_singleton es e ih =>
    have hlabel := ih fun e' he' => hwithin e' (List.mem_append_left _ he')
    obtain ⟨ha, hb⟩ := hwithin e (List.mem_append_right _ List.mem_cons_self)
    intro x hx
    rw [run_snoc]
    obtain ⟨-, hstep⟩ | ⟨keep, kill, -, hjoins, hstep⟩ := step_cases (run es) e
    · rw [hstep]
      exact hlabel x hx
    · rw [hstep]
      by_cases hkill : (run es).label x = kill
      · rw [rename_label_of_eq hkill]
        exact (hjoins.mem hlabel ha hb).1
      · rw [rename_label_of_ne hkill]
        exact hlabel x hx

omit [LinearOrder V] in
theorem reachable_induce (hwithin : Within nodes es) {x y : V} (hx : x ∈ nodes) (hy : y ∈ nodes) :
    ((graph es).induce (nodes : Set V)).Reachable ⟨x, hx⟩ ⟨y, hy⟩ ↔ (graph es).Reachable x y := by
  constructor
  · exact fun h => h.map (SimpleGraph.Embedding.induce (nodes : Set V)).toHom
  · intro h
    rw [SimpleGraph.reachable_iff_reflTransGen] at h
    induction h with
    | refl => rfl
    | @tail z y _ hadj ih =>
      have hz : z ∈ nodes := by
        obtain ⟨-, e, he, ⟨rfl, -⟩ | ⟨rfl, -⟩⟩ := graph_adj.mp hadj
        · exact (hwithin e he).1
        · exact (hwithin e he).2
      exact (ih hz).trans (SimpleGraph.Adj.reachable (show ((graph es).induce (nodes : Set V)).Adj ⟨z, hz⟩ ⟨y, hy⟩ from hadj))

theorem card_living (hwithin : Within nodes es) :
    (living nodes es).card = Nat.card ((graph es).induce (nodes : Set V)).ConnectedComponent := by
  have hmerged := merged_run es
  have hin : ∀ x : living nodes es, x.1 ∈ nodes := fun x => (Finset.mem_filter.mp x.2).1
  have hname : ∀ x : living nodes es, (run es).label x = x := fun x => (Finset.mem_filter.mp x.2).2
  let component : living nodes es → ((graph es).induce (nodes : Set V)).ConnectedComponent :=
    fun x => SimpleGraph.connectedComponentMk _ ⟨x, hin x⟩
  have hbijective : Function.Bijective component := by
    constructor
    · intro x y h
      have hreach := (reachable_induce hwithin (hin x) (hin y)).mp (SimpleGraph.ConnectedComponent.exact h)
      exact Subtype.ext ((hname x).symm.trans (((hmerged.same x y).mpr hreach).trans (hname y)))
    · intro c
      induction c using SimpleGraph.ConnectedComponent.ind with
      | _ x =>
        have hlabel := label_mem hwithin x.1 x.2
        refine ⟨⟨(run es).label x, Finset.mem_filter.mpr ⟨hlabel, hmerged.named x⟩⟩, ?_⟩
        refine SimpleGraph.ConnectedComponent.sound ?_
        exact (reachable_induce hwithin hlabel x.2).mpr ((hmerged.same _ _).mp (hmerged.named x))
  rw [← Nat.card_eq_of_bijective component hbijective, Nat.card_eq_fintype_card, Fintype.card_coe]

omit [LinearOrder V] in
theorem filterMap_congr {f g : V → Option W} {s : Multiset V} (h : ∀ x ∈ s, f x = g x) :
    s.filterMap f = s.filterMap g := by
  induction s using Quotient.inductionOn with
  | _ l => exact congrArg Multiset.ofList (List.filterMap_congr h)

theorem filterMap_death (hwithin : Within nodes es) :
    nodes.val.filterMap (run es).death = ((run es).kept.map (·.weight) : Multiset W) := by
  induction es using List.reverseRecOn with
  | nil =>
    rw [show (run ([] : List (Edge V W))) = start from rfl]
    exact Multiset.eq_zero_of_forall_notMem fun w hw => by simp [start] at hw
  | append_singleton es e ih =>
    have hbefore := ih fun e' he' => hwithin e' (List.mem_append_left _ he')
    obtain ⟨ha, hb⟩ := hwithin e (List.mem_append_right _ List.mem_cons_self)
    rw [run_snoc]
    obtain ⟨-, hstep⟩ | ⟨keep, kill, -, hjoins, hstep⟩ := step_cases (run es) e
    · rw [hstep]
      exact hbefore
    · have hmerged := merged_run es
      have hkill := (hjoins.mem (label_mem fun e' he' => hwithin e' (List.mem_append_left _ he')) ha hb).2
      have hliving := hmerged.living_of_joins hjoins
      have hsplit : nodes.val = kill ::ₘ (nodes.erase kill).val := by
        rw [← Finset.insert_val_of_notMem (Finset.notMem_erase _ _), Finset.insert_erase hkill]
      have hothers : (nodes.erase kill).val.filterMap ((run es).rename keep kill e).death =
          (nodes.erase kill).val.filterMap (run es).death :=
        filterMap_congr fun x hx => rename_death_of_ne (Finset.ne_of_mem_erase hx)
      rw [hsplit, Multiset.filterMap_cons_none _ _ hliving] at hbefore
      rw [hstep, hsplit, Multiset.filterMap_cons_some _ _ _ rename_death_self, hothers, hbefore, Merging.rename,
        List.map_append, List.map_singleton, ← Multiset.coe_add, Multiset.coe_singleton, add_comm, Multiset.singleton_add]

end Count

/-! ### Thresholds -/

section Threshold

variable [LinearOrder W] {nodes : Finset V} {es : List (Edge V W)}

def upTo (t : W) (es : List (Edge V W)) : List (Edge V W) := es.filter (·.weight ≤ t)

omit [LinearOrder V] in
theorem Within.upTo (h : Within nodes es) (t : W) : Within nodes (upTo t es) :=
  fun e he => h e (List.mem_of_mem_filter he)

/-- In the order of the weights, the names that died up to the threshold are those that the edges up to it have killed. The
induction is on the edges: one above the threshold kills a name that is still alive. -/
theorem death_upTo (hsorted : es.Pairwise fun e e' => e.weight ≤ e'.weight) (t : W) (x : V) :
    (∃ w ≤ t, (run es).death x = some w) ↔ (run (upTo t es)).death x ≠ none := by
  induction es using List.reverseRecOn with
  | nil => exact iff_of_false (fun ⟨_, _, h⟩ => by cases h) (fun h => h rfl)
  | append_singleton es e ih =>
    obtain ⟨hsorted, -, hlast⟩ := List.pairwise_append.mp hsorted
    have hle : ∀ e' ∈ es, e'.weight ≤ e.weight := fun e' he' => hlast e' he' e List.mem_cons_self
    by_cases ht : e.weight ≤ t
    · have hall : ∀ e' ∈ es ++ [e], e'.weight ≤ t := by
        intro e' he'
        obtain he' | he' := List.mem_append.mp he'
        · exact (hle e' he').trans ht
        · rwa [List.mem_singleton.mp he']
      rw [upTo, List.filter_eq_self.mpr fun e' he' => decide_eq_true (hall e' he')]
      constructor
      · rintro ⟨w, -, hw⟩
        rw [hw]
        exact Option.some_ne_none w
      · intro hdead
        obtain ⟨w, hw⟩ := Option.ne_none_iff_exists'.mp hdead
        obtain ⟨e', he', rfl⟩ := (merged_run _).weights x w hw
        exact ⟨e'.weight, hall e' he', hw⟩
    · have hskip : upTo t (es ++ [e]) = upTo t es := by
        rw [upTo, List.filter_append, List.filter_cons_of_neg (by simpa using ht), List.filter_nil, List.append_nil]
        rfl
      rw [hskip, run_snoc]
      obtain ⟨-, hstep⟩ | ⟨keep, kill, -, hjoins, hstep⟩ := step_cases (run es) e
      · rw [hstep]
        exact ih hsorted
      · rw [hstep]
        by_cases hx : x = kill
        · subst hx
          have hbefore := ih hsorted
          rw [(merged_run es).living_of_joins hjoins] at hbefore
          rw [rename_death_self, ← hbefore]
          refine iff_of_false ?_ (fun ⟨_, _, h⟩ => by cases h)
          rintro ⟨w, hw, heq⟩
          rw [← Option.some.inj heq] at hw
          exact ht hw
        · rw [rename_death_of_ne hx]
          exact ih hsorted

/-- The names that live on at a threshold. -/
def livingAt (nodes : Finset V) (es : List (Edge V W)) (t : W) : Finset V :=
  nodes.filter fun x => ((run es).death x).all (t < ·)

theorem livingAt_eq (hsorted : es.Pairwise fun e e' => e.weight ≤ e'.weight) (t : W) :
    livingAt nodes es t = living nodes (upTo t es) := by
  refine Finset.filter_congr fun x _ => ?_
  rw [← (merged_run (upTo t es)).dead, ← not_iff_not]
  refine Iff.trans ?_ (death_upTo hsorted t x)
  cases (run es).death x with
  | none => simp
  | some w => simp

/-- **The names that live on at a threshold are the components** of the graph of the edges up to it. -/
theorem card_livingAt (hwithin : Within nodes es) (hsorted : es.Pairwise fun e e' => e.weight ≤ e'.weight) (t : W) :
    (livingAt nodes es t).card = Nat.card ((graph (upTo t es)).induce (nodes : Set V)).ConnectedComponent := by
  rw [livingAt_eq hsorted, card_living (hwithin.upTo t)]

end Threshold

/-! ### The least spanning forest -/

section Optimum

variable {nodes : Finset V}

/-- The edges connect the nodes that the others connect. -/
def Spans (s es : List (Edge V W)) : Prop := ∀ x y, (graph s).Reachable x y ↔ (graph es).Reachable x y

theorem card_living_le {es es' : List (Edge V W)} (hwithin : Within nodes es)
    (h : ∀ x y, (graph es).Reachable x y → (graph es').Reachable x y) :
    (living nodes es').card ≤ (living nodes es).card := by
  have hmerged := merged_run es
  have hmerged' := merged_run es'
  refine Finset.card_le_card_of_injOn (run es).label (fun x hx => ?_) fun x hx y hy heq => ?_
  · exact Finset.mem_filter.mpr ⟨label_mem hwithin x (Finset.mem_filter.mp hx).1, hmerged.named x⟩
  · have hname := (hmerged'.same x y).mpr (h x y ((hmerged.same x y).mp heq))
    rwa [(Finset.mem_filter.mp hx).2, (Finset.mem_filter.mp hy).2] at hname

theorem countP_kept {es : List (Edge V W)} (hwithin : Within nodes es) (p : W → Bool) :
    (run es).kept.countP (fun e => p e.weight) = (nodes.filter fun x => ((run es).death x).any p).card := by
  have hperm : (nodes.toList.filterMap (run es).death).Perm ((run es).kept.map (·.weight)) := by
    have hdeath := filterMap_death hwithin
    rw [← Finset.coe_toList nodes] at hdeath
    exact Multiset.coe_eq_coe.mp hdeath
  have hcount := hperm.countP_eq p
  rw [List.countP_filterMap, List.countP_map] at hcount
  have hnodes : (nodes.filter fun x => ((run es).death x).any p).card =
      nodes.toList.countP fun x => ((run es).death x).any p := by
    rw [Finset.card_def, Finset.filter_val, ← Multiset.countP_eq_card_filter, ← Finset.coe_toList, Multiset.coe_countP]
    exact List.countP_congr fun x _ => by simp
  rw [hnodes]
  refine hcount.symm.trans (List.countP_congr fun x _ => ?_)
  cases (run es).death x <;> rfl

theorem card_living_add_kept {es : List (Edge V W)} (hwithin : Within nodes es) :
    (living nodes es).card + (run es).kept.length = nodes.card := by
  have hkept : (run es).kept.length = (nodes.filter fun x => ¬ (run es).label x = x).card := by
    have hcount := countP_kept hwithin fun _ => true
    rw [List.countP_eq_length.mpr (fun _ _ => rfl)] at hcount
    rw [hcount]
    refine congrArg Finset.card (Finset.filter_congr fun x _ => ?_)
    rw [← (merged_run es).dead]
    cases (run es).death x <;> simp
  rw [hkept]
  exact Finset.card_filter_add_card_filter_not _

theorem length_kept_foldl (s : Merging V W) (es : List (Edge V W)) :
    (es.foldl step s).kept.length ≤ s.kept.length + es.length := by
  induction es generalizing s with
  | nil => exact le_rfl
  | cons e es ih =>
    refine (ih (step s e)).trans ?_
    rw [List.length_cons]
    obtain ⟨-, hstep⟩ | ⟨keep, kill, -, -, hstep⟩ := step_cases s e
    · rw [hstep]
      omega
    · rw [hstep, Merging.rename, List.length_append, List.length_singleton]
      omega

theorem card_living_upTo_le [LinearOrder W] {s es : List (Edge V W)} (hwithin : Within nodes es) (hs : ∀ e ∈ s, e ∈ es)
    (hspans : Spans s es) (t : W) :
    (living nodes (upTo t es)).card ≤ (living nodes es).card + s.countP (t < ·.weight) := by
  have hwithin' : Within nodes s := fun e he => hwithin e (hs e he)
  let above := s.filter (t < ·.weight)
  have hsplit : ∀ e ∈ s, e ∈ upTo t s ++ above := by
    intro e he
    obtain hle | hlt := le_or_gt e.weight t
    · exact List.mem_append_left _ (List.mem_filter.mpr ⟨he, decide_eq_true hle⟩)
    · exact List.mem_append_right _ (List.mem_filter.mpr ⟨he, decide_eq_true hlt⟩)
  have hall : Within nodes (upTo t s ++ above) := by
    intro e he
    obtain he | he := List.mem_append.mp he
    · exact hwithin' e (List.mem_of_mem_filter he)
    · exact hwithin' e (List.mem_of_mem_filter he)
  have hfewer : (living nodes (upTo t es)).card ≤ (living nodes (upTo t s)).card := by
    refine card_living_le (hwithin'.upTo t) fun x y hreach => hreach.mono (graph_mono fun e he => ?_)
    obtain ⟨he, ht⟩ := List.mem_filter.mp he
    exact List.mem_filter.mpr ⟨hs e he, ht⟩
  have hmore : (living nodes (upTo t s ++ above)).card ≤ (living nodes es).card :=
    card_living_le hwithin fun x y hreach => ((hspans x y).mpr hreach).mono (graph_mono hsplit)
  have hlow := card_living_add_kept (hwithin'.upTo t)
  have hwhole := card_living_add_kept hall
  have hkept : (run (upTo t s ++ above)).kept.length ≤ (run (upTo t s)).kept.length + above.length := by
    rw [run, List.foldl_append]
    exact length_kept_foldl _ _
  have habove : s.countP (t < ·.weight) = above.length := List.countP_eq_length_filter
  omega

theorem card_living_upTo_eq [LinearOrder W] {es : List (Edge V W)} (hwithin : Within nodes es)
    (hsorted : es.Pairwise fun e e' => e.weight ≤ e'.weight) (t : W) :
    (living nodes (upTo t es)).card = (living nodes es).card + (run es).kept.countP (t < ·.weight) := by
  rw [← livingAt_eq hsorted, countP_kept hwithin (t < ·), ← Finset.card_union_of_disjoint]
  · refine congrArg Finset.card (Finset.ext fun x => ?_)
    simp only [livingAt, living, Finset.mem_union, Finset.mem_filter, ← and_or_left, ← (merged_run es).dead]
    refine and_congr_right fun _ => ?_
    cases (run es).death x <;> simp
  · refine Finset.disjoint_filter.mpr fun x _ hliving hdied => ?_
    rw [← (merged_run es).dead] at hliving
    rw [hliving] at hdied
    cases hdied

theorem sum_eq_sum_countP {l : List Nat} {bound : Nat} (h : ∀ n ∈ l, n ≤ bound) :
    l.sum = ∑ t ∈ Finset.range bound, l.countP (t < ·) := by
  induction l with
  | nil => simp
  | cons n l ih =>
    have hn : ∑ t ∈ Finset.range bound, (if t < n then 1 else 0) = n := by
      have hbelow : (Finset.range bound).filter (· < n) = Finset.range n := by
        ext t
        have := h n List.mem_cons_self
        rw [Finset.mem_filter, Finset.mem_range, Finset.mem_range]
        omega
      rw [Finset.sum_boole, Nat.cast_id, hbelow, Finset.card_range]
    simp only [List.countP_cons, decide_eq_true_eq, Finset.sum_add_distrib, List.sum_cons, hn,
      ← ih fun m hm => h m (List.mem_cons_of_mem _ hm)]
    exact Nat.add_comm _ _

/-- **The edges that merged are a spanning forest of the least weight.** -/
theorem sum_kept_le {s es : List (Edge V Nat)} (hwithin : Within nodes es)
    (hsorted : es.Pairwise fun e e' => e.weight ≤ e'.weight) (hs : ∀ e ∈ s, e ∈ es) (hspans : Spans s es) :
    ((run es).kept.map (·.weight)).sum ≤ (s.map (·.weight)).sum := by
  let bound := (es.map (·.weight)).sum
  have hbound : ∀ {l : List (Edge V Nat)}, (∀ e ∈ l, e ∈ es) → ∀ n ∈ l.map (·.weight), n ≤ bound := by
    intro l hl n hn
    obtain ⟨e, he, rfl⟩ := List.mem_map.mp hn
    exact List.single_le_sum (fun _ _ => Nat.zero_le _) _ (List.mem_map_of_mem (hl e he))
  rw [sum_eq_sum_countP (hbound fun e he => (merged_run es).sublist.subset he), sum_eq_sum_countP (hbound hs)]
  refine Finset.sum_le_sum fun t _ => ?_
  have hkept := card_living_upTo_eq hwithin hsorted t
  have hneeded := card_living_upTo_le hwithin hs hspans t
  rw [List.countP_map, List.countP_map]
  have hle : (run es).kept.countP (t < ·.weight) ≤ s.countP (t < ·.weight) := by omega
  exact hle

theorem perm_of_countP {l l' : List Nat} (hlength : l.length = l'.length)
    (h : ∀ t, l.countP (t < ·) = l'.countP (t < ·)) : l.Perm l' := by
  have hcount : ∀ (l : List Nat) n, l.count n + l.countP (n < ·) = l.countP (n ≤ ·) := by
    intro l n
    induction l with
    | nil => rfl
    | cons m l ih =>
      simp only [List.count_cons, List.countP_cons, decide_eq_true_eq, beq_iff_eq]
      split_ifs <;> omega
  have hle : ∀ n, l.countP (n ≤ ·) = l'.countP (n ≤ ·) := by
    intro n
    cases n with
    | zero =>
      rw [List.countP_eq_length.mpr (by simp), List.countP_eq_length.mpr (by simp), hlength]
    | succ n => exact h n
  refine List.perm_iff_count.mpr fun n => ?_
  have := hcount l n
  have := hcount l' n
  have := hle n
  have := h n
  omega

end Optimum

end Kruskal
