import Mathlib.Tactic

/-!
# Hash trees that repeat a last node

A hash tree can be built layer by layer, where a last node without a partner is hashed with itself. Climbing a path of the
depth of the tree ends at the root only from a leaf, and only from the leaf at the index if the index is one of the list
(`getElem?_of_climb`). A shorter path climbs from an inner node (`exists_pair_of_climb_of_lt`), and a longer one passes a
leaf (`exists_pair_mem_of_climb_of_lt`). The pairs that are hashed must not collide (`Separated`).
-/

namespace Paired

variable {H : Type*}

/-- Neighbours in pairs; a last node without a partner is paired with itself. -/
def pairs : List H → List (H × H)
  | [] => []
  | [x] => [(x, x)]
  | x :: y :: rest => (x, y) :: pairs rest

@[simp] theorem length_pairs (l : List H) : (pairs l).length = (l.length + 1) / 2 := by
  induction l using pairs.induct with
  | case1 => simp [pairs]
  | case2 x => simp [pairs]
  | case3 x y rest ih =>
    simp only [pairs, List.length_cons, ih]
    omega

theorem getElem?_pairs (l : List H) (i : Nat) :
    (pairs l)[i]? = l[2 * i]?.map fun x => (x, l[2 * i + 1]?.getD x) := by
  induction l using pairs.induct generalizing i with
  | case1 => rfl
  | case2 x =>
    cases i with
    | zero => rfl
    | succ i => simp [pairs, Nat.mul_succ]
  | case3 x y rest ih =>
    cases i with
    | zero => rfl
    | succ i =>
      rw [show 2 * (i + 1) = 2 * i + 1 + 1 by omega]
      simpa [pairs] using ih i

variable {l : List H}

variable {pair : H × H} {l' rest : List H} {n : Nat} {sibling : H}

theorem mem_of_mem_pairs (h : pair ∈ pairs l) : pair.1 ∈ l ∧ pair.2 ∈ l := by
  induction l using pairs.induct with
  | case1 => cases h
  | case2 x =>
    obtain rfl := List.mem_singleton.mp h
    exact ⟨List.mem_singleton_self x, List.mem_singleton_self x⟩
  | case3 x y rest ih =>
    obtain rfl | hrest := List.mem_cons.mp h
    · simp
    · obtain ⟨hfst, hsnd⟩ := ih hrest
      exact ⟨List.mem_cons_of_mem x (List.mem_cons_of_mem y hfst), List.mem_cons_of_mem x (List.mem_cons_of_mem y hsnd)⟩

theorem pairs_inj (hlen : l.length = l'.length) (h : pairs l = pairs l') : l = l' := by
  induction l using pairs.induct generalizing l' with
  | case1 => exact (List.eq_nil_of_length_eq_zero hlen.symm).symm
  | case2 x =>
    obtain ⟨y, rfl⟩ := List.length_eq_one_iff.mp hlen.symm
    simpa [pairs] using h
  | case3 x y rest ih =>
    rcases l' with _ | ⟨a, _ | ⟨b, rest'⟩⟩
    · simp at hlen
    · simp at hlen
    · simp only [pairs, List.cons.injEq, Prod.mk.injEq] at h
      obtain ⟨⟨rfl, rfl⟩, hrest⟩ := h
      rw [ih (by simpa using hlen) hrest]

theorem pairs_append_last (l : List H) (x : H) (h : l.length % 2 = 0) : pairs (l ++ [x, x]) = pairs (l ++ [x]) := by
  induction l using pairs.induct with
  | case1 => rfl
  | case2 y => simp at h
  | case3 y z rest ih =>
    simp only [List.cons_append, pairs]
    rw [ih (by simp only [List.length_cons] at h; omega)]

variable (node : H × H → H)

def layer (l : List H) : List H := (pairs l).map node

@[simp] theorem length_layer (l : List H) : (layer node l).length = (l.length + 1) / 2 := by simp [layer]

/-- The root, by going up while more than one node is left. -/
def root (l : List H) : Option H := if l.length ≤ 1 then l.head? else root (layer node l)
termination_by l.length
decreasing_by
  rw [length_layer]
  omega

/-- The pairs that are hashed for the root. -/
def treePairs (l : List H) : List (H × H) := if l.length ≤ 1 then [] else pairs l ++ treePairs (layer node l)
termination_by l.length
decreasing_by
  rw [length_layer]
  omega

/-- How many layers are above `n` leaves. -/
def depth (n : Nat) : Nat := if n ≤ 1 then 0 else depth ((n + 1) / 2) + 1
termination_by n
decreasing_by omega

/-- A node and its sibling, in the order that the index says. -/
def turn (x sibling : H) (i : Nat) : H × H := if i % 2 = 0 then (x, sibling) else (sibling, x)

def climb (x : H) : List H → Nat → H
  | [], _ => x
  | sibling :: path, i => climb (node (turn x sibling i)) path (i / 2)

/-- The pairs that are hashed on the way. -/
def climbPairs (x : H) : List H → Nat → List (H × H)
  | [], _ => []
  | sibling :: path, i => turn x sibling i :: climbPairs (node (turn x sibling i)) path (i / 2)

/-- The siblings of a node and of those above it. -/
def path (l : List H) (i : Nat) : List H :=
  if l.length ≤ 1 then []
  else (l[if i % 2 = 0 then i + 1 else i - 1]?.or l[i]?).toList ++ path (layer node l) (i / 2)
termination_by l.length
decreasing_by
  rw [length_layer]
  omega

/-- Two lists of pairs without a collision between them. -/
def Separated (front back : List (H × H)) : Prop := ∀ p ∈ front, ∀ q ∈ back, node p = node q → p = q

variable {node}

theorem root_of_le (h : l.length ≤ 1) : root node l = l.head? := by rw [root, if_pos h]

theorem root_of_lt (h : 1 < l.length) : root node l = root node (layer node l) := by
  rw [root, if_neg (by omega)]

theorem root_isSome (node : H × H → H) (hne : l ≠ []) : (root node l).isSome := by
  induction hn : l.length using Nat.strong_induction_on generalizing l with
  | _ n ih =>
    rcases Nat.lt_or_ge 1 l.length with hlt | hle
    · rw [root_of_lt hlt]
      exact ih _ (by rw [length_layer]; omega) (List.ne_nil_of_length_pos (by rw [length_layer]; omega)) rfl
    · rw [root_of_le hle]
      exact List.isSome_head?.mpr hne

theorem treePairs_of_lt (h : 1 < l.length) : treePairs node l = pairs l ++ treePairs node (layer node l) := by
  rw [treePairs, if_neg (by omega)]

theorem treePairs_of_le (h : l.length ≤ 1) : treePairs node l = [] := by rw [treePairs, if_pos h]

theorem depth_of_le (h : n ≤ 1) : depth n = 0 := by rw [depth, if_pos h]

theorem depth_of_lt (h : 1 < n) : depth n = depth ((n + 1) / 2) + 1 := by rw [depth, if_neg (by omega)]

theorem depth_eq_clog (n : Nat) : depth n = Nat.clog 2 n := by
  induction n using Nat.strong_induction_on with
  | _ n ih =>
    rcases Nat.lt_or_ge 1 n with hlt | hle
    · rw [depth_of_lt hlt, ih _ (by omega), Nat.clog_of_one_lt Nat.one_lt_two hlt]
      rfl
    · rw [depth_of_le hle, Nat.clog_of_right_le_one hle]

theorem mem_turn (x sibling : H) (i : Nat) : x = (turn x sibling i).1 ∨ x = (turn x sibling i).2 := by
  unfold turn
  split
  · exact .inl rfl
  · exact .inr rfl

theorem Separated.mono {front front' back back' : List (H × H)} (h : Separated node front back)
    (hfront : ∀ p ∈ front', p ∈ front) (hback : ∀ q ∈ back', q ∈ back) : Separated node front' back' :=
  fun p hp q hq => h p (hfront p hp) q (hback q hq)

variable {x : H} {i : Nat}

theorem Separated.up (hl : 1 < l.length) (h : Separated node (treePairs node l) (climbPairs node x (sibling :: rest) i)) :
    Separated node (treePairs node (layer node l)) (climbPairs node (node (turn x sibling i)) rest (i / 2)) := by
  rw [treePairs_of_lt hl] at h
  exact h.mono (fun p hp => List.mem_append_right _ hp) fun q hq => List.mem_cons_of_mem _ hq

theorem Separated.eq_of_mem_pairs (hl : 1 < l.length)
    (h : Separated node (treePairs node l) (climbPairs node x (sibling :: rest) i)) (hpair : pair ∈ pairs l)
    (hnode : node pair = node (turn x sibling i)) : pair = turn x sibling i := by
  rw [treePairs_of_lt hl] at h
  exact h pair (List.mem_append_left _ hpair) _ List.mem_cons_self hnode

theorem mem_of_climb {path : List H} (hlen : path.length = depth l.length)
    (hsep : Separated node (treePairs node l) (climbPairs node x path i)) (h : root node l = some (climb node x path i)) :
    x ∈ l := by
  induction path generalizing l x i with
  | nil =>
    have hle : l.length ≤ 1 := by
      by_contra hlt
      rw [depth_of_lt (by omega)] at hlen
      cases hlen
    rw [root_of_le hle] at h
    exact List.mem_of_head? h
  | cons sibling rest ih =>
    have hlt : 1 < l.length := by
      by_contra hle
      rw [depth_of_le (by omega)] at hlen
      cases hlen
    rw [depth_of_lt hlt] at hlen
    rw [root_of_lt hlt] at h
    have hmem : node (turn x sibling i) ∈ layer node l :=
      ih (by rw [length_layer]; simpa using hlen) (hsep.up hlt) h
    obtain ⟨pair, hpair, hnode⟩ := List.mem_map.mp hmem
    obtain rfl := hsep.eq_of_mem_pairs hlt hpair hnode
    obtain ⟨hfst, hsnd⟩ := mem_of_mem_pairs hpair
    obtain hx | hx := mem_turn x sibling i
    · exact hx ▸ hfst
    · exact hx ▸ hsnd

theorem getElem?_of_climb {path : List H} (hlen : path.length = depth l.length) (hi : i < l.length)
    (hsep : Separated node (treePairs node l) (climbPairs node x path i)) (h : root node l = some (climb node x path i)) :
    l[i]? = some x := by
  induction path generalizing l x i with
  | nil =>
    have hle : l.length ≤ 1 := by
      by_contra hlt
      rw [depth_of_lt (by omega)] at hlen
      cases hlen
    obtain rfl : i = 0 := by omega
    rw [root_of_le hle, List.head?_eq_getElem?] at h
    exact h
  | cons sibling rest ih =>
    have hlt : 1 < l.length := by
      by_contra hle
      rw [depth_of_le (by omega)] at hlen
      cases hlen
    rw [depth_of_lt hlt] at hlen
    rw [root_of_lt hlt] at h
    have habove : (layer node l)[i / 2]? = some (node (turn x sibling i)) :=
      ih (by rw [length_layer]; simpa using hlen) (by rw [length_layer]; omega) (hsep.up hlt) h
    rw [layer, List.getElem?_map] at habove
    obtain ⟨pair, hpair, hnode⟩ := Option.map_eq_some_iff.mp habove
    obtain rfl := hsep.eq_of_mem_pairs hlt (List.mem_of_getElem? hpair) hnode
    rw [getElem?_pairs] at hpair
    obtain ⟨left, hleft, hboth⟩ := Option.map_eq_some_iff.mp hpair
    unfold turn at hboth
    split at hboth
    · rename_i heven
      obtain ⟨rfl, -⟩ := Prod.mk.inj hboth
      rw [show 2 * (i / 2) = i by omega] at hleft
      exact hleft
    · rename_i hodd
      obtain ⟨-, hright⟩ := Prod.mk.inj hboth
      rw [show 2 * (i / 2) + 1 = i by omega, List.getElem?_eq_getElem hi, Option.getD_some] at hright
      rw [List.getElem?_eq_getElem hi, hright]

theorem exists_pair_of_climb_of_lt {path : List H} (hlen : path.length < depth l.length)
    (hsep : Separated node (treePairs node l) (climbPairs node x path i)) (h : root node l = some (climb node x path i)) :
    ∃ pair ∈ treePairs node l, node pair = x := by
  induction hn : l.length using Nat.strong_induction_on generalizing l with
  | _ n ih =>
    have hlt : 1 < l.length := by
      by_contra hle
      rw [depth_of_le (by omega)] at hlen
      cases hlen
    rw [depth_of_lt hlt] at hlen
    rw [root_of_lt hlt] at h
    have hup : Separated node (treePairs node (layer node l)) (climbPairs node x path i) := by
      rw [treePairs_of_lt hlt] at hsep
      exact hsep.mono (fun p hp => List.mem_append_right _ hp) fun q hq => hq
    rw [treePairs_of_lt hlt]
    rcases Nat.lt_or_ge path.length (depth (layer node l).length) with hshort | hlong
    · obtain ⟨pair, hpair, hnode⟩ := ih _ (by rw [length_layer]; omega) hshort hup h rfl
      exact ⟨pair, List.mem_append_right _ hpair, hnode⟩
    · have hmem : x ∈ layer node l := mem_of_climb (by rw [length_layer] at hlong ⊢; omega) hup h
      obtain ⟨pair, hpair, hnode⟩ := List.mem_map.mp hmem
      exact ⟨pair, List.mem_append_left _ hpair, hnode⟩

theorem exists_pair_mem_of_climb_of_lt {path : List H} (hlen : depth l.length < path.length)
    (hsep : Separated node (treePairs node l) (climbPairs node x path i)) (h : root node l = some (climb node x path i)) :
    ∃ pair ∈ climbPairs node x path i, node pair ∈ l := by
  induction path generalizing x i with
  | nil => cases hlen
  | cons sibling rest ih =>
    have hrest : Separated node (treePairs node l) (climbPairs node (node (turn x sibling i)) rest (i / 2)) :=
      hsep.mono (fun p hp => hp) fun q hq => List.mem_cons_of_mem _ hq
    rcases Nat.lt_or_ge (depth l.length) rest.length with hlong | hshort
    · obtain ⟨pair, hpair, hnode⟩ := ih hlong hrest h
      exact ⟨pair, List.mem_cons_of_mem _ hpair, hnode⟩
    · have hexact : rest.length = depth l.length := by
        simp only [List.length_cons] at hlen
        omega
      exact ⟨_, List.mem_cons_self, mem_of_climb hexact hrest h⟩

theorem root_eq_climb_path (h : l[i]? = some x) : root node l = some (climb node x (path node l i) i) := by
  induction hn : l.length using Nat.strong_induction_on generalizing l i x with
  | _ n ih =>
    obtain ⟨hi, -⟩ := List.getElem?_eq_some_iff.mp h
    rcases Nat.lt_or_ge 1 l.length with hlt | hle
    · rw [root_of_lt hlt, path, if_neg (by omega)]
      have habove (pair : H × H) (hpair : (pairs l)[i / 2]? = some pair) :
          (layer node l)[i / 2]? = some (node pair) := by
        rw [layer, List.getElem?_map, hpair]
        rfl
      by_cases heven : i % 2 = 0
      · have hpair : (pairs l)[i / 2]? = some (x, l[i + 1]?.getD x) := by
          rw [getElem?_pairs, show 2 * (i / 2) = i by omega, h]
          rfl
        have hsibling : l[i + 1]?.or l[i]? = some (l[i + 1]?.getD x) := by
          rw [h]
          cases l[i + 1]? <;> rfl
        rw [if_pos heven, hsibling]
        have hturn : turn x (l[i + 1]?.getD x) i = (x, l[i + 1]?.getD x) := if_pos heven
        exact ih _ (by rw [length_layer]; omega) (hturn ▸ habove _ hpair) rfl
      · obtain ⟨y, hy⟩ : ∃ y, l[i - 1]? = some y := ⟨_, List.getElem?_eq_getElem (by omega)⟩
        have hpair : (pairs l)[i / 2]? = some (y, x) := by
          rw [getElem?_pairs, show 2 * (i / 2) = i - 1 by omega, hy, show i - 1 + 1 = i by omega, h]
          rfl
        rw [if_neg heven, hy]
        have hturn : turn x y i = (y, x) := if_neg heven
        exact ih _ (by rw [length_layer]; omega) (hturn ▸ habove _ hpair) rfl
    · obtain rfl : i = 0 := by omega
      rw [root_of_le hle, path, if_pos hle, List.head?_eq_getElem?, h]
      rfl

theorem root_append_last (x : H) (heven : l.length % 2 = 0) (hne : l ≠ []) :
    root node (l ++ [x, x]) = root node (l ++ [x]) := by
  have hlen : 0 < l.length := List.length_pos_iff.mpr hne
  have hlong : 1 < (l ++ [x, x]).length := by simp
  have hshort : 1 < (l ++ [x]).length := by
    rw [List.length_append, List.length_singleton]
    omega
  rw [root_of_lt hlong, root_of_lt hshort, layer, layer, pairs_append_last l x heven]

theorem eq_of_root_eq (hlen : l.length = l'.length) (hsep : Separated node (treePairs node l) (treePairs node l'))
    (h : root node l = root node l') : l = l' := by
  induction hn : l.length using Nat.strong_induction_on generalizing l l' with
  | _ n ih =>
    rcases Nat.lt_or_ge 1 l.length with hlt | hle
    · have hlt' : 1 < l'.length := by omega
      have hup : root node (layer node l) = root node (layer node l') := by rw [← root_of_lt hlt, ← root_of_lt hlt', h]
      rw [treePairs_of_lt hlt, treePairs_of_lt hlt'] at hsep
      have hlayer : layer node l = layer node l' := by
        refine ih _ (by rw [length_layer]; omega) (by rw [length_layer, length_layer, hlen]) ?_ hup rfl
        exact hsep.mono (fun p hp => List.mem_append_right _ hp) fun q hq => List.mem_append_right _ hq
      refine pairs_inj hlen (List.ext_getElem? fun i => ?_)
      have hnode := congrArg (·[i]?) hlayer
      simp only [layer, List.getElem?_map] at hnode
      cases hp : (pairs l)[i]? with
      | none =>
        rw [hp] at hnode
        exact (Option.map_eq_none_iff.mp hnode.symm).symm
      | some p =>
        rw [hp] at hnode
        obtain ⟨q, hq, hsame⟩ := Option.map_eq_some_iff.mp hnode.symm
        rw [hq, hsep p (List.mem_append_left _ (List.mem_of_getElem? hp)) q
          (List.mem_append_left _ (List.mem_of_getElem? hq)) hsame.symm]
    · have hle' : l'.length ≤ 1 := by omega
      rw [root_of_le hle, root_of_le hle'] at h
      rcases l with _ | ⟨x, _ | ⟨y, rest⟩⟩
      · exact (List.eq_nil_of_length_eq_zero hlen.symm).symm
      · obtain ⟨y, rfl⟩ := List.length_eq_one_iff.mp hlen.symm
        simpa using h
      · simp at hle

end Paired
