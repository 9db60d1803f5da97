import Mathlib.Tactic

/-!
# Breadth-first search with a limit

A search keeps a queue of nodes with their depths. It follows the node at the head, and puts each successor that is new at
the end, one level further down, as long as the limit allows. `levels` lists the nodes followed.

The queue holds at most two levels, the upper one in front, so a node is followed at its distance from the root: it is
the end of a walk of that length (`walk_of_mem_levels`), and no walk to it is shorter (`exists_mem_levels`).
-/

namespace Breadth

variable {α : Type*}

/-- A walk over `n` edges. -/
inductive Walk (edge : α → α → Prop) : Nat → α → α → Prop
  | nil (a : α) : Walk edge 0 a a
  | snoc {n : Nat} {a b c : α} (walk : Walk edge n a b) (last : edge b c) : Walk edge (n + 1) a c

variable {a node : α}

theorem Walk.mono {edge edge' : α → α → Prop} (h : ∀ a b, edge a b → edge' a b) {n : Nat} {b : α}
    (hwalk : Walk edge n a b) : Walk edge' n a b := by
  induction hwalk with
  | nil => exact .nil _
  | snoc _ hlast ih => exact ih.snoc (h _ _ hlast)

/-- Successors, among finitely many nodes. -/
structure Graph (α : Type*) where
  targets : Finset α
  next : α → List α
  next_mem : ∀ a, ∀ b ∈ next a, b ∈ targets

def Graph.edge (g : Graph α) (a b : α) : Prop := b ∈ g.next a

structure Frontier (α : Type*) where
  /-- Nodes to follow, with their depths. -/
  queue : List (α × Nat)
  seen : Finset α

variable [DecidableEq α]

namespace Frontier

def start (root : α) (depth : Nat) : Frontier α := ⟨[(root, depth)], {root}⟩

def discover (depth : Nat) (f : Frontier α) (node : α) : Frontier α :=
  if node ∈ f.seen then f else ⟨f.queue ++ [(node, depth)], insert node f.seen⟩

def discoverAll (depth : Nat) (f : Frontier α) (nodes : List α) : Frontier α := nodes.foldl (discover depth) f

end Frontier

/-- The frontier after a node that was at the head is followed. -/
def Graph.follow (g : Graph α) (limit : Nat) (node : α) (depth : Nat) (f : Frontier α) : Frontier α :=
  if depth < limit then f.discoverAll (depth + 1) (g.next node) else f

/-! ### Discovery -/

variable {depth : Nat} {f : Frontier α}

namespace Frontier

theorem discover_of_mem (h : node ∈ f.seen) : f.discover depth node = f :=
  if_pos h

theorem discover_of_notMem (h : node ∉ f.seen) :
    f.discover depth node = ⟨f.queue ++ [(node, depth)], insert node f.seen⟩ :=
  if_neg h

theorem discoverAll_fresh (depth : Nat) (f : Frontier α) (nodes : List α) :
    ∃ fresh : List α, (f.discoverAll depth nodes).queue = f.queue ++ fresh.map (·, depth) ∧ (∀ a ∈ fresh, a ∈ nodes) ∧
      (∀ a, a ∈ (f.discoverAll depth nodes).seen ↔ a ∈ f.seen ∨ a ∈ fresh) ∧
      ∀ a ∈ nodes, a ∈ (f.discoverAll depth nodes).seen := by
  induction nodes generalizing f with
  | nil => exact ⟨[], (List.append_nil _).symm, by simp, by simp [discoverAll], by simp⟩
  | cons node nodes ih =>
    have hstep : f.discoverAll depth (node :: nodes) = (f.discover depth node).discoverAll depth nodes := rfl
    rw [hstep]
    obtain ⟨fresh, hqueue, hfresh, hseen, hall⟩ := ih (f.discover depth node)
    by_cases hnode : node ∈ f.seen
    · rw [discover_of_mem hnode] at hqueue hseen hall ⊢
      refine ⟨fresh, hqueue, fun a ha => List.mem_cons_of_mem _ (hfresh a ha), hseen, fun a ha => ?_⟩
      obtain rfl | ha := List.mem_cons.mp ha
      · exact (hseen a).mpr (.inl hnode)
      · exact hall a ha
    · rw [discover_of_notMem hnode] at hqueue hseen hall ⊢
      refine ⟨node :: fresh, ?_, fun a ha => ?_, fun a => ?_, fun a ha => ?_⟩
      · rw [hqueue, List.append_assoc]
        rfl
      · exact (List.mem_cons.mp ha).elim (fun heq => heq ▸ List.mem_cons_self) fun ha => List.mem_cons_of_mem _ (hfresh a ha)
      · rw [hseen, Finset.mem_insert, List.mem_cons, or_comm (a := a = node), or_assoc]
      · obtain rfl | ha := List.mem_cons.mp ha
        · exact (hseen a).mpr (.inl (Finset.mem_insert_self _ _))
        · exact hall a ha

end Frontier

theorem Graph.follow_fresh (g : Graph α) (limit : Nat) (node : α) (depth : Nat) (f : Frontier α) :
    ∃ fresh : List α, (g.follow limit node depth f).queue = f.queue ++ fresh.map (·, depth + 1) ∧
      (∀ a ∈ fresh, a ∈ g.next node ∧ depth < limit) ∧
      (∀ a, a ∈ (g.follow limit node depth f).seen ↔ a ∈ f.seen ∨ a ∈ fresh) ∧
      (depth < limit → ∀ a ∈ g.next node, a ∈ (g.follow limit node depth f).seen) := by
  unfold Graph.follow
  by_cases hdepth : depth < limit
  · rw [if_pos hdepth]
    obtain ⟨fresh, hqueue, hfresh, hseen, hall⟩ := f.discoverAll_fresh (depth + 1) (g.next node)
    exact ⟨fresh, hqueue, fun a ha => ⟨hfresh a ha, hdepth⟩, hseen, fun _ => hall⟩
  · rw [if_neg hdepth]
    exact ⟨[], (List.append_nil _).symm, by simp, by simp, fun h => absurd h hdepth⟩

def Graph.remaining (g : Graph α) (f : Frontier α) : Nat := 2 * (g.targets \ f.seen).card + f.queue.length

theorem Graph.card_sdiff_insert (g : Graph α) {seen : Finset α} (hnode : node ∈ g.targets)
    (hnew : node ∉ seen) : (g.targets \ insert node seen).card + 1 = (g.targets \ seen).card := by
  rw [Finset.sdiff_insert, Finset.card_erase_add_one (Finset.mem_sdiff.mpr ⟨hnode, hnew⟩)]

theorem Graph.remaining_discoverAll (g : Graph α) (depth : Nat) (f : Frontier α) (nodes : List α)
    (hnodes : ∀ a ∈ nodes, a ∈ g.targets) : g.remaining (f.discoverAll depth nodes) ≤ g.remaining f := by
  induction nodes generalizing f with
  | nil => exact le_rfl
  | cons node nodes ih =>
    refine (ih (f.discover depth node) fun a ha => hnodes a (List.mem_cons_of_mem _ ha)).trans ?_
    by_cases hnode : node ∈ f.seen
    · rw [Frontier.discover_of_mem hnode]
    · have hless := g.card_sdiff_insert (hnodes node List.mem_cons_self) hnode
      rw [Frontier.discover_of_notMem hnode, remaining, remaining, List.length_append, List.length_singleton]
      dsimp only
      omega

theorem Graph.remaining_follow (g : Graph α) (limit : Nat) (node : α) (depth : Nat) (f : Frontier α) :
    g.remaining (g.follow limit node depth f) ≤ g.remaining f := by
  unfold Graph.follow
  split_ifs
  · exact g.remaining_discoverAll _ _ _ (g.next_mem node)
  · exact le_rfl

theorem Graph.remaining_pop (g : Graph α) (entry : α × Nat) (rest : List (α × Nat)) (seen : Finset α) :
    g.remaining ⟨rest, seen⟩ < g.remaining ⟨entry :: rest, seen⟩ :=
  Nat.add_lt_add_left (Nat.lt_succ_self _) _

/-- The nodes that are followed, with their depths. -/
def Graph.levels (g : Graph α) (limit : Nat) : Frontier α → List (α × Nat)
  | ⟨[], _⟩ => []
  | ⟨(node, depth) :: rest, seen⟩ =>
    if depth > limit then g.levels limit ⟨rest, seen⟩
    else (node, depth) :: g.levels limit (g.follow limit node depth ⟨rest, seen⟩)
termination_by f => g.remaining f
decreasing_by
  · exact g.remaining_pop _ _ _
  · exact (g.remaining_follow _ _ _ _).trans_lt (g.remaining_pop _ _ _)

/-! ### Distances -/

section Distance

variable (g : Graph α) (limit : Nat) (root : α) (first : Nat)

/-- The search has followed `done`, and has this frontier. -/
structure Searched (done : List (α × Nat)) (f : Frontier α) : Prop where
  origin : (root, first) ∈ done ++ f.queue
  sound : ∀ p ∈ done ++ f.queue, p.2 ≤ limit ∧ ∃ n, p.2 = first + n ∧ Walk g.edge n root p.1
  seen : ∀ a ∈ f.seen, ∃ depth, (a, depth) ∈ done ++ f.queue
  behind : ∀ p ∈ done, ∀ q ∈ f.queue, p.2 ≤ q.2
  sorted : f.queue.Pairwise fun p q => p.2 ≤ q.2
  near : ∀ p ∈ f.queue, ∀ q ∈ f.queue, p.2 ≤ q.2 + 1
  closed : ∀ p ∈ done, p.2 < limit → ∀ b ∈ g.next p.1, ∃ q ∈ done ++ f.queue, q.1 = b ∧ q.2 ≤ p.2 + 1

variable {g limit root first}

omit [DecidableEq α] in
theorem searched_start (g : Graph α) (root : α) (hlimit : first ≤ limit) :
    Searched g limit root first [] (Frontier.start root first) where
  origin := List.mem_singleton_self _
  sound p hp := by
    rw [List.mem_singleton.mp hp]
    exact ⟨hlimit, 0, rfl, .nil root⟩
  seen a ha := ⟨first, by rw [Finset.mem_singleton.mp ha]; exact List.mem_singleton_self _⟩
  behind := nofun
  sorted := List.pairwise_singleton _ _
  near p hp q hq := by
    rw [List.mem_singleton.mp hp, List.mem_singleton.mp hq]
    exact Nat.le_succ _
  closed := nofun

theorem Searched.follow {done : List (α × Nat)} {rest : List (α × Nat)} {seen : Finset α}
    (h : Searched g limit root first done ⟨(node, depth) :: rest, seen⟩) :
    Searched g limit root first (done ++ [(node, depth)]) (g.follow limit node depth ⟨rest, seen⟩) := by
  obtain ⟨hbelow, hsorted⟩ := List.pairwise_cons.mp h.sorted
  obtain ⟨hlimit, n, hn, hwalk⟩ := h.sound (node, depth) (by simp)
  have hdone : ∀ p ∈ done ++ [(node, depth)], p.2 ≤ depth := by
    intro p hp
    obtain hp | hp := List.mem_append.mp hp
    · exact h.behind p hp (node, depth) List.mem_cons_self
    · rw [List.mem_singleton.mp hp]
  have hrest : ∀ p ∈ rest, p.2 ≤ depth + 1 := fun p hp =>
    h.near p (List.mem_cons_of_mem _ hp) (node, depth) List.mem_cons_self
  obtain ⟨fresh, hqueue, hfresh, hseen, hall⟩ := g.follow_fresh limit node depth ⟨rest, seen⟩
  generalize g.follow limit node depth ⟨rest, seen⟩ = f at hqueue hseen hall
  have hmem : ∀ p, p ∈ done ++ [(node, depth)] ++ f.queue ↔
      p ∈ done ++ (node, depth) :: rest ∨ ∃ b ∈ fresh, (b, depth + 1) = p := by
    intro p
    rw [hqueue]
    simp [or_assoc]
  have hnew : ∀ p ∈ f.queue, p ∈ rest ∨ p.2 = depth + 1 := by
    intro p hp
    rw [hqueue, List.mem_append, List.mem_map] at hp
    exact hp.imp_right fun ⟨b, _, hb⟩ => hb ▸ rfl
  refine ⟨(hmem _).mpr (.inl h.origin), fun p hp => ?_, fun a ha => ?_, fun p hp q hq => ?_, ?_, fun p hp q hq => ?_,
    fun p hp hlt b hb => ?_⟩
  · obtain hp | ⟨b, hb, rfl⟩ := (hmem p).mp hp
    · exact h.sound p hp
    · obtain ⟨hedge, hlt⟩ := hfresh b hb
      exact ⟨hlt, n + 1, by dsimp only at hn ⊢; omega, hwalk.snoc hedge⟩
  · obtain ha | ha := (hseen a).mp ha
    · obtain ⟨k, hk⟩ := h.seen a ha
      exact ⟨k, (hmem _).mpr (.inl hk)⟩
    · exact ⟨depth + 1, (hmem _).mpr (.inr ⟨a, ha, rfl⟩)⟩
  · have hp' := hdone p hp
    obtain hq | hq := hnew q hq
    · exact hp'.trans (hbelow q hq)
    · omega
  · rw [hqueue, List.pairwise_append]
    refine ⟨hsorted, List.pairwise_map.mpr (List.pairwise_of_forall fun _ _ => le_rfl), fun p hp q hq => ?_⟩
    obtain ⟨b, -, rfl⟩ := List.mem_map.mp hq
    exact hrest p hp
  · have hp' : p.2 ≤ depth + 1 := (hnew p hp).elim (hrest p) (fun heq => heq.le)
    have hq' : depth ≤ q.2 := (hnew q hq).elim (hbelow q) (fun heq => by omega)
    omega
  · obtain hp | hp := List.mem_append.mp hp
    · obtain ⟨q, hq, hqb, hqp⟩ := h.closed p hp hlt b hb
      exact ⟨q, (hmem q).mpr (.inl hq), hqb, hqp⟩
    · -- a successor that was seen before is at most one level down, as everything in the queue is
      rw [List.mem_singleton.mp hp] at hlt hb ⊢
      obtain hb' | hb' := (hseen b).mp (hall hlt b hb)
      · obtain ⟨k, hk⟩ := h.seen b hb'
        refine ⟨(b, k), (hmem _).mpr (.inl hk), rfl, ?_⟩
        obtain hk | hk := List.mem_append.mp hk
        · exact (h.behind _ hk (node, depth) List.mem_cons_self).trans (Nat.le_succ _)
        · exact h.near _ hk (node, depth) List.mem_cons_self
      · exact ⟨(b, depth + 1), (hmem _).mpr (.inr ⟨b, hb', rfl⟩), rfl, le_rfl⟩

theorem Searched.levels {done : List (α × Nat)} (h : Searched g limit root first done f) :
    ∃ seen, Searched g limit root first (done ++ g.levels limit f) ⟨[], seen⟩ := by
  induction f using Graph.levels.induct g limit generalizing done with
  | case1 seen =>
    rw [Graph.levels, List.append_nil]
    exact ⟨seen, h⟩
  | case2 node depth rest seen hdepth ih =>
    have hlimit := (h.sound (node, depth) (by simp)).1
    exact absurd hdepth (Nat.not_lt.mpr hlimit)
  | case3 node depth rest seen hdepth ih =>
    rw [Graph.levels, if_neg hdepth, List.append_cons]
    exact ih h.follow

theorem walk_of_mem_levels (hlimit : first ≤ limit) (h : (a, depth) ∈ g.levels limit (.start root first)) :
    depth ≤ limit ∧ ∃ n, depth = first + n ∧ Walk g.edge n root a := by
  obtain ⟨seen, hend⟩ := (searched_start g root hlimit).levels
  exact hend.sound (a, depth) (by simpa using h)

theorem exists_mem_levels {n : Nat} (hwalk : Walk g.edge n root a) (hlimit : first + n ≤ limit) :
    ∃ depth, depth ≤ first + n ∧ (a, depth) ∈ g.levels limit (.start root first) := by
  obtain ⟨seen, hend⟩ := (searched_start g root ((Nat.le_add_right first n).trans hlimit)).levels
  rw [List.nil_append] at hend
  induction hwalk with
  | nil => exact ⟨first, le_rfl, by simpa using hend.origin⟩
  | snoc _ hlast ih =>
    obtain ⟨depth, hdepth, hmem⟩ := ih (by omega) hend
    obtain ⟨q, hq, rfl, hqd⟩ := hend.closed _ hmem (by dsimp only; omega) _ hlast
    exact ⟨q.2, by dsimp only at hqd; omega, by simpa using hq⟩

end Distance

end Breadth
