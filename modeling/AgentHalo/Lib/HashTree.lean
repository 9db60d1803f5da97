import Mathlib.Tactic

/-!
# Hash trees as binary trees

A layered hash tree that promotes a last node without a partner is the hash of a binary tree (`build`). If nothing that is
hashed collides, trees of one hash are equal (`eq_of_hash_eq`). Climbing from any value along any siblings to the root
follows a path of the tree: the value is the hash of the subtree that the sides lead to (`descend_of_climb`).
-/

/-!
## Pairing layers of a binary hash tree

A hash tree over a list of nodes can be built bottom up: `pairUp` hashes neighbours together and promotes a
last node that has no partner. What a proof about such a tree needs to know of one layer is here:
its length, which node sits above which, how it splits at an even position, and that an injective node hash
makes the layer below recoverable from the layer above.
-/

namespace Layers

variable {H : Type*} (node : H → H → H)

/-- One pairing layer: neighbours are hashed together, a last node without a partner is promoted. -/
def pairUp : List H → List H
  | [] => []
  | [x] => [x]
  | x :: y :: rest => node x y :: pairUp rest

@[simp] theorem pairUp_nil : pairUp node [] = [] := rfl

@[simp] theorem pairUp_singleton (x : H) : pairUp node [x] = [x] := rfl

@[simp] theorem pairUp_cons_cons (x y : H) (rest : List H) :
    pairUp node (x :: y :: rest) = node x y :: pairUp node rest := rfl

@[simp] theorem length_pairUp (l : List H) : (pairUp node l).length = (l.length + 1) / 2 := by
  induction l using pairUp.induct with
  | case1 => simp
  | case2 x => simp
  | case3 x y rest ih =>
    simp only [pairUp_cons_cons, List.length_cons, ih]
    omega

theorem pairUp_append (l l' : List H) (heven : l.length % 2 = 0) :
    pairUp node (l ++ l') = pairUp node l ++ pairUp node l' := by
  induction l using pairUp.induct with
  | case1 => rfl
  | case2 x => simp at heven
  | case3 x y rest ih =>
    have hrest : rest.length % 2 = 0 := by
      simp only [List.length_cons] at heven
      omega
    simp only [List.cons_append, pairUp_cons_cons, ih hrest]

theorem pairUp_take (l : List H) (i : Nat) (hi : 2 * i ≤ l.length) :
    (pairUp node l).take i = pairUp node (l.take (2 * i)) := by
  have hlen : (l.take (2 * i)).length = 2 * i := by simp [hi]
  have hsplit := pairUp_append node (l.take (2 * i)) (l.drop (2 * i)) (by omega)
  rw [List.take_append_drop] at hsplit
  rw [hsplit, List.take_append_of_le_length (by rw [length_pairUp, hlen]; omega), List.take_of_length_le]
  rw [length_pairUp, hlen]
  omega

theorem pairUp_drop (l : List H) (i : Nat) (hi : 2 * i ≤ l.length) :
    (pairUp node l).drop i = pairUp node (l.drop (2 * i)) := by
  have hlen : (l.take (2 * i)).length = 2 * i := by simp [hi]
  have hsplit := pairUp_append node (l.take (2 * i)) (l.drop (2 * i)) (by omega)
  rw [List.take_append_drop] at hsplit
  rw [hsplit, List.drop_append_of_le_length (by rw [length_pairUp, hlen]; omega),
    List.drop_eq_nil_of_le (by rw [length_pairUp, hlen]; omega), List.nil_append]

theorem pairUp_getElem?_pair (l : List H) (i : Nat) (x y : H) (hx : l[2 * i]? = some x)
    (hy : l[2 * i + 1]? = some y) : (pairUp node l)[i]? = some (node x y) := by
  induction i generalizing l with
  | zero =>
    rcases l with _ | ⟨a, _ | ⟨b, rest⟩⟩ <;> simp_all
  | succ i ih =>
    rcases l with _ | ⟨a, _ | ⟨b, rest⟩⟩
    · simp at hx
    · simp [show 2 * (i + 1) = 2 * i + 1 + 1 by omega] at hx
    · rw [show 2 * (i + 1) = 2 * i + 1 + 1 by omega] at hx hy
      simp only [List.getElem?_cons_succ] at hx hy
      simpa using ih rest hx hy

theorem pairUp_getElem?_last (l : List H) (i : Nat) (hlen : l.length = 2 * i + 1) :
    (pairUp node l)[i]? = l[2 * i]? := by
  induction i generalizing l with
  | zero =>
    obtain ⟨x, rfl⟩ := List.length_eq_one_iff.mp hlen
    rfl
  | succ i ih =>
    rcases l with _ | ⟨a, _ | ⟨b, rest⟩⟩
    · simp at hlen
    · simp at hlen
    · rw [show 2 * (i + 1) = 2 * i + 1 + 1 by omega]
      simp only [pairUp_cons_cons, List.getElem?_cons_succ]
      exact ih rest (by simp only [List.length_cons] at hlen; omega)

section Injective

variable {node} (hinj : ∀ a b c d : H, node a b = node c d → a = c ∧ b = d)

include hinj

theorem pairUp_injective (l l' : List H) (hlen : l.length = l'.length)
    (h : pairUp node l = pairUp node l') : l = l' := by
  induction l using pairUp.induct generalizing l' with
  | case1 => exact (List.length_eq_zero_iff.mp hlen.symm).symm
  | case2 x =>
    obtain ⟨y, rfl⟩ := List.length_eq_one_iff.mp hlen.symm
    exact h
  | case3 x y rest ih =>
    rcases l' with _ | ⟨a, _ | ⟨b, rest'⟩⟩
    · simp at hlen
    · simp at hlen
    · simp only [pairUp_cons_cons, List.cons.injEq] at h
      obtain ⟨rfl, rfl⟩ := hinj _ _ _ _ h.1
      rw [ih rest' (by simpa using hlen) h.2]

theorem take_eq_of_pairUp_take_eq (l l' : List H) (i : Nat) (hi : 2 * i ≤ l.length)
    (hi' : 2 * i ≤ l'.length) (h : (pairUp node l).take i = (pairUp node l').take i) :
    l.take (2 * i) = l'.take (2 * i) := by
  rw [pairUp_take node l i hi, pairUp_take node l' i hi'] at h
  exact pairUp_injective hinj _ _ (by simp [hi, hi']) h

end Injective

end Layers

inductive HashTree (α : Type*) where
  | leaf (a : α)
  | node (left right : HashTree α)

namespace HashTree

open Layers

variable {α H : Type*}

/-- How a leaf and a pair of nodes are hashed. -/
structure Hasher (α H : Type*) where
  leaf : α → H
  node : H → H → H

def Hasher.apply (hs : Hasher α H) : α ⊕ H × H → H
  | .inl a => hs.leaf a
  | .inr pair => hs.node pair.1 pair.2

def leaves : HashTree α → List α
  | leaf a => [a]
  | node left right => left.leaves ++ right.leaves

def hash (hs : Hasher α H) : HashTree α → H
  | leaf a => hs.leaf a
  | node left right => hs.node (left.hash hs) (right.hash hs)

def inputs (hs : Hasher α H) : HashTree α → List (α ⊕ H × H)
  | leaf a => [.inl a]
  | node left right => .inr (left.hash hs, right.hash hs) :: (left.inputs hs ++ right.inputs hs)

/-- The subtree below a path from the root; `true` goes right. -/
def descend : HashTree α → List Bool → Option (HashTree α)
  | t, [] => some t
  | leaf _, _ :: _ => none
  | node left right, side :: path => (if side then right else left).descend path

@[simp] theorem descend_nil (t : HashTree α) : t.descend [] = some t := by cases t <;> rfl

theorem descend_append (t : HashTree α) (path rest : List Bool) :
    t.descend (path ++ rest) = (t.descend path).bind (descend · rest) := by
  induction path generalizing t with
  | nil => simp
  | cons side path ih =>
    cases t with
    | leaf a => rfl
    | node left right =>
      simp only [List.cons_append, descend]
      exact ih _

theorem hash_mem_inputs (hs : Hasher α H) (t : HashTree α) : ∃ input ∈ t.inputs hs, t.hash hs = hs.apply input := by
  cases t with
  | leaf a => exact ⟨_, List.mem_singleton_self _, rfl⟩
  | node left right => exact ⟨_, List.mem_cons_self, rfl⟩

variable {hs : Hasher α H} {t sub : HashTree α}

variable {a : α} {path : List Bool} {Q : H → Prop} {level : List H} {x : H} {n i : Nat}

theorem inl_mem_inputs (h : a ∈ t.leaves) : .inl a ∈ t.inputs hs := by
  induction t with
  | leaf b => exact List.mem_singleton.mp h ▸ List.mem_cons_self
  | node left right ihleft ihright =>
    refine List.mem_cons_of_mem _ (List.mem_append.mpr ?_)
    exact (List.mem_append.mp h).imp ihleft ihright

theorem inputs_descend (h : t.descend path = some sub) :
    ∀ input ∈ sub.inputs hs, input ∈ t.inputs hs := by
  induction path generalizing t with
  | nil =>
    rw [descend_nil] at h
    exact fun input hinput => Option.some.inj h ▸ hinput
  | cons side path ih =>
    cases t with
    | leaf a => cases h
    | node left right =>
      intro input hinput
      have hbelow := ih h input hinput
      refine List.mem_cons_of_mem _ (List.mem_append.mpr ?_)
      cases side with
      | false => exact .inl hbelow
      | true => exact .inr hbelow

theorem forall_pair_of_inputs (hQ : ∀ input, Q (hs.apply input)) (t : HashTree α) :
    ∀ pair, .inr pair ∈ t.inputs hs → Q pair.1 ∧ Q pair.2 := by
  have hhash (t : HashTree α) : Q (t.hash hs) := by
    obtain ⟨input, _, heq⟩ := t.hash_mem_inputs hs
    rw [heq]
    exact hQ input
  induction t with
  | leaf a =>
    intro pair h
    cases List.mem_singleton.mp h
  | node left right ihleft ihright =>
    intro pair h
    simp only [inputs, List.mem_cons, List.mem_append, Sum.inr.injEq] at h
    obtain rfl | h | h := h
    · exact ⟨hhash left, hhash right⟩
    · exact ihleft pair h
    · exact ihright pair h

theorem eq_of_hash_eq {t' : HashTree α}
    (hsep : ∀ i ∈ t.inputs hs, ∀ j ∈ t'.inputs hs, hs.apply i = hs.apply j → i = j) (h : t.hash hs = t'.hash hs) : t = t' := by
  induction t generalizing t' with
  | leaf a =>
    cases t' with
    | leaf b => exact congrArg leaf (Sum.inl.inj (hsep _ List.mem_cons_self _ List.mem_cons_self h))
    | node left right => cases hsep _ List.mem_cons_self _ List.mem_cons_self h
  | node left right ihleft ihright =>
    cases t' with
    | leaf b => cases hsep _ List.mem_cons_self _ List.mem_cons_self h
    | node left' right' =>
      have hpair := Sum.inr.inj (hsep _ List.mem_cons_self _ List.mem_cons_self h)
      obtain ⟨hleft, hright⟩ := Prod.mk.inj hpair
      rw [ihleft (fun i hi j hj => hsep i (List.mem_cons_of_mem _ (List.mem_append_left _ hi)) j
          (List.mem_cons_of_mem _ (List.mem_append_left _ hj))) hleft,
        ihright (fun i hi j hj => hsep i (List.mem_cons_of_mem _ (List.mem_append_right _ hi)) j
          (List.mem_cons_of_mem _ (List.mem_append_right _ hj))) hright]

/-! ### Layers -/

theorem pairUp_map {β : Type*} {f : α → β} {node : α → α → α} {node' : β → β → β}
    (hf : ∀ x y, f (node x y) = node' (f x) (f y)) (l : List α) : pairUp node' (l.map f) = (pairUp node l).map f := by
  induction l using pairUp.induct with
  | case1 => rfl
  | case2 x => rfl
  | case3 x y rest ih => simp [hf, ih]

/-- The root, by going up while more than one node is left. -/
def root (node : H → H → H) (level : List H) : Option H :=
  if level.length ≤ 1 then level.head? else root node (pairUp node level)
termination_by level.length
decreasing_by
  rw [length_pairUp]
  omega

def build (level : List (HashTree α)) : Option (HashTree α) := root HashTree.node level

theorem root_of_le {node : H → H → H} (h : level.length ≤ 1) : root node level = level.head? := by
  rw [root, if_pos h]

theorem root_of_lt {node : H → H → H} (h : 1 < level.length) :
    root node level = root node (pairUp node level) := by rw [root, if_neg (by omega)]

variable {level : List (HashTree α)}

theorem build_of_le (h : level.length ≤ 1) : build level = level.head? := root_of_le h

theorem build_of_lt (h : 1 < level.length) : build level = build (pairUp HashTree.node level) :=
  root_of_lt h

theorem root_map_hash (hs : Hasher α H) (level : List (HashTree α)) :
    root hs.node (level.map (HashTree.hash hs)) = (build level).map (HashTree.hash hs) := by
  induction hn : level.length using Nat.strong_induction_on generalizing level with
  | _ n ih =>
    rcases Nat.lt_or_ge 1 level.length with hlt | hle
    · rw [build_of_lt hlt, root_of_lt (by rwa [List.length_map]),
        pairUp_map fun (x y : HashTree α) => (rfl : (x.node y).hash hs = hs.node (x.hash hs) (y.hash hs))]
      exact ih _ (by rw [length_pairUp]; omega) _ rfl
    · rw [build_of_le hle, root_of_le (by rwa [List.length_map]), List.head?_map]

theorem leaves_pairUp (level : List (HashTree α)) :
    (pairUp HashTree.node level).flatMap HashTree.leaves = level.flatMap HashTree.leaves := by
  induction level using pairUp.induct with
  | case1 => rfl
  | case2 x => rfl
  | case3 x y rest ih => simp [ih, HashTree.leaves]

theorem leaves_build (h : build level = some t) : t.leaves = level.flatMap HashTree.leaves := by
  induction hn : level.length using Nat.strong_induction_on generalizing level with
  | _ n ih =>
    rcases Nat.lt_or_ge 1 level.length with hlt | hle
    · rw [build_of_lt hlt] at h
      rw [ih _ (by rw [length_pairUp]; omega) h rfl, leaves_pairUp]
    · rw [build_of_le hle] at h
      rcases level with _ | ⟨x, _ | ⟨y, rest⟩⟩
      · cases h
      · obtain rfl := Option.some.inj h
        simp
      · simp at hle

theorem flatMap_leaves_map_leaf (l : List α) : (l.map HashTree.leaf).flatMap HashTree.leaves = l := by
  induction l with
  | nil => rfl
  | cons a l ih => simp [HashTree.leaves, ih]

theorem build_isSome (hne : level ≠ []) : (build level).isSome := by
  induction hn : level.length using Nat.strong_induction_on generalizing level with
  | _ n ih =>
    rcases Nat.lt_or_ge 1 level.length with hlt | hle
    · rw [build_of_lt hlt]
      exact ih _ (by rw [length_pairUp]; omega) (List.ne_nil_of_length_pos (by rw [length_pairUp]; omega)) rfl
    · rw [build_of_le hle]
      exact List.isSome_head?.mpr hne

/-! ### Climbing -/

/-- A node with its sibling; `true` is a sibling on the left. -/
def beside (x : H) (step : H × Bool) : H × H := if step.2 then (step.1, x) else (x, step.1)

def climb (node : H → H → H) (x : H) : List (H × Bool) → H
  | [] => x
  | step :: steps => climb node (node (beside x step).1 (beside x step).2) steps

/-- The pairs that are hashed on the way. -/
def climbPairs (node : H → H → H) (x : H) : List (H × Bool) → List (H × H)
  | [] => []
  | step :: steps => beside x step :: climbPairs node (node (beside x step).1 (beside x step).2) steps

theorem climb_concat (node : H → H → H) (x : H) (steps : List (H × Bool)) (step : H × Bool) :
    climb node x (steps ++ [step]) =
      node (beside (climb node x steps) step).1 (beside (climb node x steps) step).2 := by
  induction steps generalizing x with
  | nil => rfl
  | cons first steps ih => exact ih _

theorem climbPairs_concat (node : H → H → H) (x : H) (steps : List (H × Bool)) (step : H × Bool) :
    climbPairs node x (steps ++ [step]) = climbPairs node x steps ++ [beside (climb node x steps) step] := by
  induction steps generalizing x with
  | nil => rfl
  | cons first steps ih =>
    simp only [List.cons_append, climbPairs, climb]
    rw [ih]

theorem forall_climbPairs {node : H → H → H} (hQ : ∀ x y, Q (node x y)) (hx : Q x) (steps : List (H × Bool)) :
    ∀ pair ∈ climbPairs node x steps, Q pair.1 ∨ Q pair.2 := by
  induction steps generalizing x with
  | nil =>
    intro pair h
    cases h
  | cons step steps ih =>
    intro pair h
    obtain rfl | h := List.mem_cons.mp h
    · unfold beside
      split
      · exact .inr hx
      · exact .inl hx
    · exact ih (hQ _ _) pair h

/-- A value that climbs to the root is the hash of the subtree that the sides lead to. The induction is on the tree: the
last step of the climb is at its top. -/
theorem descend_of_climb {steps : List (H × Bool)}
    (hsep : ∀ i ∈ t.inputs hs, ∀ pair ∈ climbPairs hs.node x steps, hs.apply i = hs.node pair.1 pair.2 → i = .inr pair)
    (h : t.hash hs = climb hs.node x steps) :
    ∃ sub, t.descend (steps.map Prod.snd).reverse = some sub ∧ sub.hash hs = x := by
  induction t generalizing steps with
  | leaf a =>
    obtain rfl | ⟨steps, step, rfl⟩ := List.eq_nil_or_concat' steps
    · exact ⟨_, rfl, h⟩
    · rw [climbPairs_concat] at hsep
      rw [climb_concat] at h
      cases hsep (.inl a) List.mem_cons_self _ (List.mem_append_right _ List.mem_cons_self) h
  | node left right ihleft ihright =>
    obtain rfl | ⟨steps, ⟨sibling, side⟩, rfl⟩ := List.eq_nil_or_concat' steps
    · exact ⟨_, rfl, h⟩
    · rw [climbPairs_concat] at hsep
      have hbelow (sub : HashTree α) (hsub : ∀ i ∈ sub.inputs hs, i ∈ left.inputs hs ++ right.inputs hs) :
          ∀ i ∈ sub.inputs hs, ∀ pair ∈ climbPairs hs.node x steps, hs.apply i = hs.node pair.1 pair.2 → i = .inr pair :=
        fun i hi pair hpair => hsep i (List.mem_cons_of_mem _ (hsub i hi)) pair (List.mem_append_left _ hpair)
      rw [climb_concat] at h
      have htop := Sum.inr.inj
        (hsep (.inr (left.hash hs, right.hash hs)) List.mem_cons_self _ (List.mem_append_right _ List.mem_cons_self) h)
      cases side with
      | false =>
        obtain ⟨hleft, -⟩ := Prod.mk.inj htop
        obtain ⟨sub, hsub, hhash⟩ := ihleft (hbelow left fun i hi => List.mem_append_left _ hi) hleft
        exact ⟨sub, by simpa [HashTree.descend] using hsub, hhash⟩
      | true =>
        obtain ⟨-, hright⟩ := Prod.mk.inj htop
        obtain ⟨sub, hsub, hhash⟩ := ihright (hbelow right fun i hi => List.mem_append_right _ hi) hright
        exact ⟨sub, by simpa [HashTree.descend] using hsub, hhash⟩

/-! ### The sides of a leaf -/

/-- The side of a node in a layer of `n` nodes; a last node without a partner has none. -/
def side (n i : Nat) : List Bool := if i % 2 = 1 then [true] else if i + 1 < n then [false] else []

/-- The sides on the way from leaf `i` of `n` to the root. -/
def sides (n i : Nat) : List Bool := if n ≤ 1 then [] else side n i ++ sides ((n + 1) / 2) (i / 2)
termination_by n
decreasing_by omega

theorem sides_of_le (h : n ≤ 1) (i : Nat) : sides n i = [] := by rw [sides, if_pos h]

theorem sides_of_lt (h : 1 < n) (i : Nat) : sides n i = side n i ++ sides ((n + 1) / 2) (i / 2) := by
  rw [sides, if_neg (by omega)]

theorem descend_pairUp (h : level[i]? = some sub) :
    ∃ above, (pairUp HashTree.node level)[i / 2]? = some above ∧ above.descend (side level.length i) = some sub := by
  obtain ⟨hi, -⟩ := List.getElem?_eq_some_iff.mp h
  rcases Nat.mod_two_eq_zero_or_one i with heven | hodd
  · rcases Nat.lt_or_ge (i + 1) level.length with hlt | hge
    · refine ⟨.node sub level[i + 1], ?_, by simp [side, heven, hlt, HashTree.descend]⟩
      refine pairUp_getElem?_pair HashTree.node level (i / 2) sub level[i + 1] ?_ ?_
      · rwa [show 2 * (i / 2) = i by omega]
      · rw [show 2 * (i / 2) + 1 = i + 1 by omega, List.getElem?_eq_getElem hlt]
    · refine ⟨sub, ?_, by simp [side, heven, show ¬ i + 1 < level.length by omega]⟩
      rw [pairUp_getElem?_last HashTree.node level (i / 2) (by omega), show 2 * (i / 2) = i by omega, h]
  · refine ⟨.node level[i - 1] sub, ?_, by simp [side, hodd, HashTree.descend]⟩
    refine pairUp_getElem?_pair HashTree.node level (i / 2) level[i - 1] sub ?_ ?_
    · rw [show 2 * (i / 2) = i - 1 by omega, List.getElem?_eq_getElem]
    · rwa [show 2 * (i / 2) + 1 = i by omega]

theorem descend_sides (hbuild : build level = some t) (h : level[i]? = some sub) :
    t.descend (sides level.length i).reverse = some sub := by
  induction hn : level.length using Nat.strong_induction_on generalizing level i sub with
  | _ n ih =>
    subst hn
    rcases Nat.lt_or_ge 1 level.length with hlt | hle
    · rw [build_of_lt hlt] at hbuild
      obtain ⟨above, habove, hbelow⟩ := descend_pairUp h
      have hup := ih _ (by rw [length_pairUp]; omega) hbuild habove rfl
      rw [length_pairUp] at hup
      have hone : (side level.length i).reverse = side level.length i := by
        unfold side
        split
        · rfl
        · split <;> rfl
      rw [sides_of_lt hlt, List.reverse_append, HashTree.descend_append, hup, hone]
      exact hbelow
    · obtain ⟨hi, -⟩ := List.getElem?_eq_some_iff.mp h
      obtain rfl : i = 0 := by omega
      rw [build_of_le hle, List.head?_eq_getElem?, h] at hbuild
      rw [sides_of_le hle, Option.some.inj hbuild]
      exact HashTree.descend_nil t

theorem sides_of_descend (hbuild : build level = some t) (h : t.descend path = some (.leaf a)) :
    ∃ i sub rest, level[i]? = some sub ∧ path = (sides level.length i).reverse ++ rest ∧
      sub.descend rest = some (.leaf a) := by
  induction hn : level.length using Nat.strong_induction_on generalizing level with
  | _ n ih =>
    subst hn
    rcases Nat.lt_or_ge 1 level.length with hlt | hle
    · rw [build_of_lt hlt] at hbuild
      obtain ⟨i, above, rest, habove, rfl, hrest⟩ := ih _ (by rw [length_pairUp]; omega) hbuild rfl
      obtain ⟨hi, -⟩ := List.getElem?_eq_some_iff.mp habove
      rw [length_pairUp] at hi
      have hleft : level[2 * i]? = some level[2 * i] := List.getElem?_eq_getElem (by omega)
      rcases Nat.lt_or_ge (2 * i + 1) level.length with hpair | hlast
      · have hright : level[2 * i + 1]? = some level[2 * i + 1] := List.getElem?_eq_getElem hpair
        obtain rfl : HashTree.node level[2 * i] level[2 * i + 1] = above := by
          rw [pairUp_getElem?_pair HashTree.node level i _ _ hleft hright] at habove
          exact Option.some.inj habove
        rcases rest with _ | ⟨right, rest⟩
        · cases hrest
        · cases right with
          | false =>
            refine ⟨2 * i, _, rest, hleft, ?_, hrest⟩
            rw [sides_of_lt hlt, length_pairUp, show 2 * i / 2 = i by omega]
            simp [side, hpair]
          | true =>
            refine ⟨2 * i + 1, _, rest, hright, ?_, hrest⟩
            rw [sides_of_lt hlt, length_pairUp, show (2 * i + 1) / 2 = i by omega]
            simp [side, show (2 * i + 1) % 2 = 1 by omega]
      · refine ⟨2 * i, _, rest, hleft, ?_, ?_⟩
        · rw [sides_of_lt hlt, length_pairUp, show 2 * i / 2 = i by omega]
          simp [side, show ¬ 2 * i + 1 < level.length by omega]
        · rw [pairUp_getElem?_last HashTree.node level i (by omega), hleft] at habove
          rwa [Option.some.inj habove]
    · rw [build_of_le hle, List.head?_eq_getElem?] at hbuild
      exact ⟨0, t, path, hbuild, by rw [sides_of_le hle]; rfl, h⟩

end HashTree
