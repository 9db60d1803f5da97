import AgentHalo.Transparency.Inclusion

/-!
# Consistency proofs are complete and sound

The verifier's loop climbs two trees at once, with the nodes `fr` and `sr` of both at index `fn_idx`. Before the last node
of the old tree the two layers agree; a path element that is hashed on the left extends the agreement downwards, one on
the right only belongs to the new tree. Completeness (`consistencyLoop_complete`) needs nothing of the hash, soundness
(`consistencyLoop_sound`) needs it injective. The first loop skips the layers in which the last old node is a right child
(`prefix_of_pairUp_prefix`).
-/

namespace AgentHalo.Transparency

open Layers

variable {H : Type} (hs : TreeHasher H)

/-! ### One step of the loop -/

variable {fnIdx sn : Nat}

theorem consistencyLoop_odd (c : H) (path : List H) (fr sr : H) (hsn : sn ≠ 0)
    (hodd : fnIdx % 2 = 1) : consistencyLoop hs (c :: path) fr sr fnIdx sn =
      consistencyLoop hs path (hs.nodeHash c fr) (hs.nodeHash c sr) (fnIdx / 2) (sn / 2) := by
  rw [consistencyLoop, if_neg hsn, if_pos (Or.inl hodd), if_neg (by omega)]

theorem consistencyLoop_even (c : H) (path : List H) (fr sr : H) (hlt : fnIdx < sn)
    (heven : fnIdx % 2 = 0) : consistencyLoop hs (c :: path) fr sr fnIdx sn =
      consistencyLoop hs path fr (hs.nodeHash sr c) (fnIdx / 2) (sn / 2) := by
  rw [consistencyLoop, if_neg (by omega), if_neg (by omega)]

theorem consistencyLoop_nil (fr sr oldRoot newRoot : H) (hsn : sn ≠ 0) :
    consistencyLoop hs [] fr sr fnIdx sn ≠ some (oldRoot, newRoot, 0) := by
  simp [consistencyLoop, hsn]

theorem consistencyLoop_promote (path : List H) (fr sr oldRoot newRoot : H) (hpos : fnIdx ≠ 0)
    (heven : fnIdx % 2 = 0) : consistencyLoop hs path fr sr fnIdx fnIdx = some (oldRoot, newRoot, 0) ↔
      consistencyLoop hs path fr sr (fnIdx / 2) (fnIdx / 2) = some (oldRoot, newRoot, 0) := by
  cases path with
  | nil =>
    have hhalf : fnIdx / 2 ≠ 0 := by omega
    simp [consistencyLoop, hpos, hhalf]
  | cons c path =>
    rw [consistencyLoop, consistencyLoop, if_neg hpos, if_pos (Or.inr rfl), if_pos heven, if_neg (by omega),
      if_pos (Or.inr rfl), shiftWhileEven_even hpos heven]
    split_ifs with hhalf
    · rfl
    · rw [shiftWhileEven_odd (by omega)]

/-! ### The layer above the old and the new layer -/

theorem pairUp_last (l : List H) (i : Nat) (heven : i % 2 = 0) (hlen : l.length = i + 1) :
    (pairUp hs.nodeHash l)[i / 2]? = l[i]? := by
  have := pairUp_getElem?_last hs.nodeHash l (i / 2) (by omega)
  rwa [show 2 * (i / 2) = i by omega] at this

theorem pairUp_leftChild (l : List H) (i : Nat) (x y : H) (heven : i % 2 = 0) (hx : l[i]? = some x)
    (hy : l[i + 1]? = some y) : (pairUp hs.nodeHash l)[i / 2]? = some (hs.nodeHash x y) :=
  pairUp_getElem?_pair hs.nodeHash l (i / 2) x y (by rwa [show 2 * (i / 2) = i by omega])
    (by rwa [show 2 * (i / 2) + 1 = i + 1 by omega])

theorem pairUp_rightChild (l : List H) (i : Nat) (x y : H) (hodd : i % 2 = 1) (hx : l[i - 1]? = some x)
    (hy : l[i]? = some y) : (pairUp hs.nodeHash l)[i / 2]? = some (hs.nodeHash x y) :=
  pairUp_getElem?_pair hs.nodeHash l (i / 2) x y (by rwa [show 2 * (i / 2) = i - 1 by omega])
    (by rwa [show 2 * (i / 2) + 1 = i by omega])

theorem pairUp_take_congr (l l' : List H) (i : Nat) (hi : i ≤ l.length) (hi' : i ≤ l'.length)
    (h : l.take i = l'.take i) :
    (pairUp hs.nodeHash l).take (i / 2) = (pairUp hs.nodeHash l').take (i / 2) := by
  rw [pairUp_take _ _ _ (by omega), pairUp_take _ _ _ (by omega)]
  have := congrArg (List.take (2 * (i / 2))) h
  rw [List.take_take, List.take_take, Nat.min_eq_left (by omega)] at this
  rw [this]

theorem take_succ_eq {l l' : List H} {i : Nat} {x : H} (h : l.take i = l'.take i) (hx : l[i]? = some x)
    (hx' : l'[i]? = some x) : l.take (i + 1) = l'.take (i + 1) := by
  rw [List.take_add_one, List.take_add_one, h, hx, hx']

/-! ### Completeness -/

theorem consistencyLoop_complete (old new : List H) (fnIdx : Nat) (hold : old.length = fnIdx + 1)
    (hle : old.length ≤ new.length) (hagree : old.take fnIdx = new.take fnIdx) (fr sr : H) (path : List H)
    (hfr : old[fnIdx]? = some fr) (hsr : new[fnIdx]? = some sr)
    (hpath : inclusionPath hs new fnIdx = some path) :
    consistencyLoop hs path fr sr fnIdx (new.length - 1) =
      some (merkleTreeHash hs old, merkleTreeHash hs new, 0) := by
  induction hn : new.length using Nat.strong_induction_on generalizing old new fnIdx fr sr path with
  | _ n ih =>
    subst hn
    rcases Nat.lt_or_ge new.length 2 with hsmall | hbig
    · obtain ⟨x, rfl⟩ : ∃ x, new = [x] := List.length_eq_one_iff.mp (by omega)
      obtain rfl : fnIdx = 0 := by simp only [List.length_singleton] at hle; omega
      obtain ⟨y, rfl⟩ : ∃ y, old = [y] := List.length_eq_one_iff.mp hold
      simp only [List.getElem?_cons_zero, Option.some.injEq, inclusionPath_singleton] at hfr hsr hpath
      subst hfr hsr hpath
      simp [consistencyLoop]
    · have hlen := length_pairUp hs.nodeHash new
      have hlenOld := length_pairUp hs.nodeHash old
      obtain ⟨upper, hupper⟩ := exists_inclusionPath hs (pairUp hs.nodeHash new) (fnIdx / 2) (by omega)
      have hup := fun fr sr hfr hsr => ih (pairUp hs.nodeHash new).length (by omega) (pairUp hs.nodeHash old)
        (pairUp hs.nodeHash new) (fnIdx / 2) (by omega) (by omega)
        (pairUp_take_congr hs old new fnIdx (by omega) (by omega) hagree) fr sr upper hfr hsr hupper rfl
      simp only [merkleTreeHash_pairUp,
        show (pairUp hs.nodeHash new).length - 1 = (new.length - 1) / 2 by omega] at hup
      rw [inclusionPath_pairUp hs new fnIdx (by omega), hupper, Option.map_some, Option.some.injEq] at hpath
      subst hpath
      rcases Nat.mod_two_eq_zero_or_one fnIdx with heven | hodd
      · rcases Nat.lt_or_ge fnIdx (new.length - 1) with hlt | hge
        · obtain ⟨right, hright⟩ : ∃ right, new[fnIdx + 1]? = some right :=
            ⟨new[fnIdx + 1], List.getElem?_eq_getElem (by omega)⟩
          simp only [siblingOf, heven, hright, Nat.zero_ne_one, if_false, Option.toList_some, List.singleton_append]
          rw [consistencyLoop_even hs right upper fr sr hlt heven]
          exact hup fr _ (by rw [pairUp_last hs old fnIdx heven hold, hfr])
            (pairUp_leftChild hs new fnIdx sr right heven hsr hright)
        · obtain rfl : fnIdx = new.length - 1 := by omega
          simp only [siblingOf, heven, List.getElem?_eq_none (show new.length ≤ new.length - 1 + 1 by omega),
            Nat.zero_ne_one, if_false, Option.toList_none, List.nil_append]
          rw [consistencyLoop_promote hs upper fr sr _ _ (by omega) heven]
          exact hup fr sr (by rw [pairUp_last hs old _ heven hold, hfr])
            (by rw [pairUp_last hs new _ heven (by omega), hsr])
      · obtain ⟨left, hleft⟩ : ∃ left, new[fnIdx - 1]? = some left :=
          ⟨new[fnIdx - 1], List.getElem?_eq_getElem (by omega)⟩
        have hleftOld : old[fnIdx - 1]? = some left := by
          have := congrArg (·[fnIdx - 1]?) hagree
          simp only [List.getElem?_take_of_lt (show fnIdx - 1 < fnIdx by omega)] at this
          rw [this, hleft]
        simp only [siblingOf, hodd, hleft, if_true, Option.toList_some, List.singleton_append]
        rw [consistencyLoop_odd hs left upper fr sr (by omega) hodd]
        exact hup _ _ (pairUp_rightChild hs old fnIdx left fr hodd hleftOld hfr)
          (pairUp_rightChild hs new fnIdx left sr hodd hleft hsr)

theorem isPowerOfTwo_half {m : Nat} (heven : m % 2 = 0) :
    (m / 2).isPowerOfTwo ↔ m.isPowerOfTwo := by
  constructor
  · intro h
    have := Nat.isPowerOfTwo_mul_two_of_isPowerOfTwo h
    rwa [show m / 2 * 2 = m by omega] at this
  · rintro ⟨k, hk⟩
    cases k with
    | zero => omega
    | succ k => exact ⟨k, by rw [hk, pow_succ]; omega⟩

theorem shiftWhileOdd_even (heven : fnIdx % 2 = 0) : shiftWhileOdd fnIdx sn = (fnIdx, sn) := by
  rw [shiftWhileOdd, if_neg (by omega)]

theorem shiftWhileOdd_odd (hodd : fnIdx % 2 = 1) : shiftWhileOdd fnIdx sn = shiftWhileOdd (fnIdx / 2) (sn / 2) := by
  conv_lhs => rw [shiftWhileOdd]
  rw [if_pos hodd]

/-- The honest path, with the old root in front when the old tree is complete, is nonempty and leads the loop to both
roots. The induction strips the layers in which the last old node is a right child. -/
theorem consistencyLoop_subproof (new : List H) (m : Nat) (hpos : 0 < m) (hm : m < new.length) :
    ∃ first rest,
      (if m.isPowerOfTwo then [merkleTreeHash hs (new.take m)] else []) ++ subproof hs new m true = first :: rest ∧
      consistencyLoop hs rest first first (shiftWhileOdd (m - 1) (new.length - 1)).1
        (shiftWhileOdd (m - 1) (new.length - 1)).2 =
          some (merkleTreeHash hs (new.take m), merkleTreeHash hs new, 0) := by
  induction m using Nat.strong_induction_on generalizing new with
  | _ m ih =>
    rcases Nat.mod_two_eq_zero_or_one m with heven | hodd
    · have hlen := length_pairUp hs.nodeHash new
      obtain ⟨first, rest, hpath, hloop⟩ := ih (m / 2) (by omega) (pairUp hs.nodeHash new) (by omega) (by omega)
      rw [pairUp_take _ _ _ (by omega), show 2 * (m / 2) = m by omega, merkleTreeHash_pairUp,
        merkleTreeHash_pairUp] at hloop
      rw [pairUp_take _ _ _ (by omega), show 2 * (m / 2) = m by omega, merkleTreeHash_pairUp,
        ← subproof_even hs new m true heven hpos (by omega)] at hpath
      simp only [isPowerOfTwo_half heven] at hpath
      refine ⟨first, rest, hpath, ?_⟩
      rw [shiftWhileOdd_odd (by omega), show (m - 1) / 2 = m / 2 - 1 by omega,
        show (new.length - 1) / 2 = (pairUp hs.nodeHash new).length - 1 by omega]
      exact hloop
    · obtain ⟨path, hpath⟩ := exists_inclusionPath hs new (m - 1) (by omega)
      obtain ⟨x, hx⟩ : ∃ x, new[m - 1]? = some x := ⟨new[m - 1], List.getElem?_eq_getElem (by omega)⟩
      have hsub := subproof_odd hs new m true hodd (by omega) (Or.inl hm)
      rw [hpath, hx, Option.map_some, Option.some.injEq] at hsub
      have hlast : (new.take m)[m - 1]? = some x := by rw [List.getElem?_take_of_lt (by omega), hx]
      refine ⟨x, path, ?_, ?_⟩
      · rw [hsub]
        rcases eq_or_ne m 1 with rfl | hne
        · have hone : new.take 1 = [x] := by rw [List.take_add_one, hx]; rfl
          simp [Nat.isPowerOfTwo_one, hone]
        · have hnot : ¬ m.isPowerOfTwo := fun h => hne (eq_one_of_isPowerOfTwo_of_odd h hodd)
          simp [hnot, hne]
      · rw [shiftWhileOdd_even (by omega)]
        exact consistencyLoop_complete hs (new.take m) new (m - 1) (by rw [List.length_take]; omega)
          (by rw [List.length_take]; omega) (by rw [List.take_take, Nat.min_eq_left (by omega)]) x x path hlast hx
          hpath

theorem makeConsistencyProof_isSome_iff (leaves : List H) (m : Nat) :
    (makeConsistencyProof hs leaves m).isSome = true ↔ 1 ≤ m ∧ m ≤ leaves.length := by
  simp only [makeConsistencyProof, consistencyPath, Option.isSome_map]
  split_ifs with hbad hfull
  · simp only [Option.isSome_none, Bool.false_eq_true, false_iff]
    omega
  · simp only [Option.isSome_some, true_iff]
    omega
  · simp only [Option.isSome_some, true_iff]
    omega

theorem verifyConsistencyProof_of_make [DecidableEq H] {leaves : List H} {m : Nat} {proof : ConsistencyProof H}
    (hproof : makeConsistencyProof hs leaves m = some proof) :
    proof.oldSize = m ∧ proof.newSize = leaves.length ∧
      verifyConsistencyProof hs proof (merkleTreeHash hs (leaves.take m)) (merkleTreeHash hs leaves) = true := by
  simp only [makeConsistencyProof, consistencyPath] at hproof
  split_ifs at hproof with hbad hfull
  · simp at hproof
  · obtain rfl : ⟨m, leaves.length, []⟩ = proof := by simpa using hproof
    subst hfull
    have hpos : ¬ leaves = [] := by
      rintro rfl
      simp at hbad
    refine ⟨rfl, rfl, ?_⟩
    simp [verifyConsistencyProof, hpos]
  · obtain rfl : ⟨m, leaves.length, subproof hs leaves m true⟩ = proof := by simpa using hproof
    obtain ⟨first, rest, hpath, hloop⟩ := consistencyLoop_subproof hs leaves m (by omega) (by omega)
    have hfullPath : fullConsistencyPath ⟨m, leaves.length, subproof hs leaves m true⟩
        (merkleTreeHash hs (leaves.take m)) = first :: rest := by
      rw [← hpath, fullConsistencyPath]
      split_ifs <;> rfl
    refine ⟨rfl, rfl, ?_⟩
    simp only [verifyConsistencyProof]
    rw [if_neg (by omega), if_neg hfull, hfullPath]
    simp [hloop]

/-- **Consistency proofs are complete.** A proof is produced exactly for the sizes `1 ≤ m ≤ n`, and it verifies
against the roots of the first `m` leaves and of all of them. -/
theorem makeConsistencyProof_complete [DecidableEq H] (leaves : List H) (m : Nat) :
    ((makeConsistencyProof hs leaves m).isSome = true ↔ 1 ≤ m ∧ m ≤ leaves.length) ∧
      ∀ proof, makeConsistencyProof hs leaves m = some proof →
        verifyConsistencyProof hs proof (merkleTreeHash hs (leaves.take m)) (merkleTreeHash hs leaves) = true := by
  refine ⟨makeConsistencyProof_isSome_iff hs leaves m, ?_⟩
  intro proof hproof
  exact (verifyConsistencyProof_of_make hs hproof).2.2

/-! ### Soundness -/

/-- The loop holds the nodes at `fnIdx` of two layers, and the layers agree before it. -/
structure Held (old new : List H) (fnIdx : Nat) (fr sr : H) : Prop where
  fr : old[fnIdx]? = some fr
  sr : new[fnIdx]? = some sr
  take_eq : old.take fnIdx = new.take fnIdx

section Sound

variable (hinj : ∀ a b c d : H, hs.nodeHash a b = hs.nodeHash c d → a = c ∧ b = d)

include hinj

theorem take_eq_below (old new : List H) (fnIdx : Nat) (hold : old.length = fnIdx + 1) (hle : old.length ≤ new.length)
    (h : (pairUp hs.nodeHash old).take (fnIdx / 2) = (pairUp hs.nodeHash new).take (fnIdx / 2)) :
    old.take (2 * (fnIdx / 2)) = new.take (2 * (fnIdx / 2)) :=
  take_eq_of_pairUp_take_eq hinj old new (fnIdx / 2) (by omega) (by omega) h

variable {new old : List H}

theorem held_of_even {fr sr c : H} (hold : old.length = fnIdx + 1) (hlt : fnIdx < new.length - 1) (heven : fnIdx % 2 = 0)
    (h : Held (pairUp hs.nodeHash old) (pairUp hs.nodeHash new) (fnIdx / 2) fr (hs.nodeHash sr c)) :
    Held old new fnIdx fr sr := by
  obtain ⟨hfr, hsr, htake⟩ := h
  have hbelow := take_eq_below hs hinj old new fnIdx hold (by omega) htake
  rw [show 2 * (fnIdx / 2) = fnIdx by omega] at hbelow
  obtain ⟨node, hnode⟩ : ∃ x, new[fnIdx]? = some x := ⟨new[fnIdx], List.getElem?_eq_getElem (by omega)⟩
  obtain ⟨right, hright⟩ : ∃ x, new[fnIdx + 1]? = some x := ⟨new[fnIdx + 1], List.getElem?_eq_getElem (by omega)⟩
  rw [pairUp_last hs old fnIdx heven hold] at hfr
  rw [pairUp_leftChild hs new fnIdx node right heven hnode hright, Option.some.injEq] at hsr
  obtain ⟨rfl, rfl⟩ := hinj _ _ _ _ hsr
  exact ⟨hfr, hnode, hbelow⟩

theorem held_of_promote {fr sr : H} (hold : old.length = fnIdx + 1)
    (hnew : new.length = fnIdx + 1) (heven : fnIdx % 2 = 0)
    (h : Held (pairUp hs.nodeHash old) (pairUp hs.nodeHash new) (fnIdx / 2) fr sr) : Held old new fnIdx fr sr := by
  obtain ⟨hfr, hsr, htake⟩ := h
  have hbelow := take_eq_below hs hinj old new fnIdx hold (by omega) htake
  rw [show 2 * (fnIdx / 2) = fnIdx by omega] at hbelow
  rw [pairUp_last hs old fnIdx heven hold] at hfr
  rw [pairUp_last hs new fnIdx heven hnew] at hsr
  exact ⟨hfr, hsr, hbelow⟩

theorem held_of_odd {fr sr c : H} (hold : old.length = fnIdx + 1) (hle : old.length ≤ new.length) (hodd : fnIdx % 2 = 1)
    (h : Held (pairUp hs.nodeHash old) (pairUp hs.nodeHash new) (fnIdx / 2) (hs.nodeHash c fr) (hs.nodeHash c sr)) :
    Held old new fnIdx fr sr := by
  obtain ⟨hfr, hsr, htake⟩ := h
  have hbelow := take_eq_below hs hinj old new fnIdx hold hle htake
  rw [show 2 * (fnIdx / 2) = fnIdx - 1 by omega] at hbelow
  obtain ⟨oldLast, holdLast⟩ : ∃ x, old[fnIdx]? = some x := ⟨old[fnIdx], List.getElem?_eq_getElem (by omega)⟩
  obtain ⟨oldLeft, holdLeft⟩ : ∃ x, old[fnIdx - 1]? = some x := ⟨old[fnIdx - 1], List.getElem?_eq_getElem (by omega)⟩
  obtain ⟨newNode, hnewNode⟩ : ∃ x, new[fnIdx]? = some x := ⟨new[fnIdx], List.getElem?_eq_getElem (by omega)⟩
  obtain ⟨newLeft, hnewLeft⟩ : ∃ x, new[fnIdx - 1]? = some x := ⟨new[fnIdx - 1], List.getElem?_eq_getElem (by omega)⟩
  rw [pairUp_rightChild hs old fnIdx oldLeft oldLast hodd holdLeft holdLast, Option.some.injEq] at hfr
  rw [pairUp_rightChild hs new fnIdx newLeft newNode hodd hnewLeft hnewNode, Option.some.injEq] at hsr
  obtain ⟨rfl, rfl⟩ := hinj _ _ _ _ hfr
  obtain ⟨rfl, rfl⟩ := hinj _ _ _ _ hsr
  have hboth := take_succ_eq hbelow holdLeft hnewLeft
  rw [show fnIdx - 1 + 1 = fnIdx by omega] at hboth
  exact ⟨holdLast, hnewNode, hboth⟩

theorem consistencyLoop_sound (old new : List H) (fnIdx : Nat) (hold : old.length = fnIdx + 1)
    (hle : old.length ≤ new.length) (fr sr : H) (path : List H)
    (h : consistencyLoop hs path fr sr fnIdx (new.length - 1) =
      some (merkleTreeHash hs old, merkleTreeHash hs new, 0)) : Held old new fnIdx fr sr := by
  induction hn : new.length using Nat.strong_induction_on generalizing old new fnIdx fr sr path with
  | _ n ih =>
    subst hn
    rcases Nat.lt_or_ge new.length 2 with hsmall | hbig
    · obtain ⟨x, rfl⟩ : ∃ x, new = [x] := List.length_eq_one_iff.mp (by omega)
      obtain rfl : fnIdx = 0 := by simp only [List.length_singleton] at hle; omega
      obtain ⟨y, rfl⟩ : ∃ y, old = [y] := List.length_eq_one_iff.mp hold
      cases path with
      | nil =>
        simp only [consistencyLoop, merkleTreeHash_singleton, Option.some.injEq, Prod.mk.injEq] at h
        exact ⟨by simp [h.1], by simp [h.2.1], rfl⟩
      | cons c path => simp [consistencyLoop] at h
    · -- the rest of the path is a run on the pairing layers
      have hlen := length_pairUp hs.nodeHash new
      have hlenOld := length_pairUp hs.nodeHash old
      have hup := fun fr sr path h => ih (pairUp hs.nodeHash new).length (by omega) (pairUp hs.nodeHash old)
        (pairUp hs.nodeHash new) (fnIdx / 2) (by omega) (by omega) fr sr path h rfl
      simp only [merkleTreeHash_pairUp,
        show (pairUp hs.nodeHash new).length - 1 = (new.length - 1) / 2 by omega] at hup
      rcases Nat.mod_two_eq_zero_or_one fnIdx with heven | hodd
      · rcases Nat.lt_or_ge fnIdx (new.length - 1) with hlt | hge
        · cases path with
          | nil => exact absurd h (consistencyLoop_nil hs fr sr _ _ (by omega))
          | cons c path =>
            rw [consistencyLoop_even hs c path fr sr hlt heven] at h
            exact held_of_even hs hinj hold hlt heven (hup fr _ path h)
        · obtain rfl : fnIdx = new.length - 1 := by omega
          rw [consistencyLoop_promote hs path fr sr _ _ (by omega) heven] at h
          exact held_of_promote hs hinj hold (by omega) heven (hup fr sr path h)
      · cases path with
        | nil => exact absurd h (consistencyLoop_nil hs fr sr _ _ (by omega))
        | cons c path =>
          rw [consistencyLoop_odd hs c path fr sr (by omega) hodd] at h
          exact held_of_odd hs hinj hold hle hodd (hup _ _ path h)

theorem prefix_of_pairUp_prefix (old new : List H) (heven : old.length % 2 = 0) (hle : old.length ≤ new.length)
    (h : pairUp hs.nodeHash old <+: pairUp hs.nodeHash new) : old <+: new := by
  have hlen := length_pairUp hs.nodeHash old
  have htake : (pairUp hs.nodeHash old).take (old.length / 2) = (pairUp hs.nodeHash new).take (old.length / 2) := by
    rw [List.prefix_iff_eq_take.mp h, List.take_take, Nat.min_eq_left (by omega)]
  have := take_eq_of_pairUp_take_eq hinj old new (old.length / 2) (by omega) (by omega) htake
  rw [show 2 * (old.length / 2) = old.length by omega, List.take_length] at this
  exact List.prefix_iff_eq_take.mpr this

theorem prefix_of_consistencyLoop (old new : List H) (hpos : 0 < old.length) (hle : old.length ≤ new.length)
    (first : H) (rest : List H)
    (h : consistencyLoop hs rest first first (shiftWhileOdd (old.length - 1) (new.length - 1)).1
      (shiftWhileOdd (old.length - 1) (new.length - 1)).2 =
        some (merkleTreeHash hs old, merkleTreeHash hs new, 0)) : old <+: new := by
  induction hn : old.length using Nat.strong_induction_on generalizing old new with
  | _ m ih =>
    subst hn
    rcases Nat.mod_two_eq_zero_or_one old.length with heven | hodd
    · have hlen := length_pairUp hs.nodeHash new
      have hlenOld := length_pairUp hs.nodeHash old
      refine prefix_of_pairUp_prefix hs hinj old new heven hle
        (ih (pairUp hs.nodeHash old).length (by omega) _ _ (by omega) (by omega) ?_ rfl)
      rw [shiftWhileOdd_odd (by omega)] at h
      rw [merkleTreeHash_pairUp, merkleTreeHash_pairUp,
        show (pairUp hs.nodeHash old).length - 1 = (old.length - 1) / 2 by omega,
        show (pairUp hs.nodeHash new).length - 1 = (new.length - 1) / 2 by omega]
      exact h
    · rw [shiftWhileOdd_even (by omega)] at h
      obtain ⟨hfr, hsr, hagree⟩ := consistencyLoop_sound hs hinj old new (old.length - 1) (by omega) hle first first
        rest h
      have := take_succ_eq hagree hfr hsr
      rw [show old.length - 1 + 1 = old.length by omega, List.take_length] at this
      exact List.prefix_iff_eq_take.mpr this

/-- **Consistency proofs are sound.** A proof for the sizes of `old` and `new` that is accepted against their roots,
whatever its path, shows that `old` is a prefix of `new`. -/
theorem prefix_of_verifyConsistencyProof [DecidableEq H] (old new : List H) (p : ConsistencyProof H)
    (hold : p.oldSize = old.length) (hnew : p.newSize = new.length)
    (h : verifyConsistencyProof hs p (merkleTreeHash hs old) (merkleTreeHash hs new) = true) : old <+: new := by
  rw [verifyConsistencyProof, hold, hnew] at h
  split_ifs at h with hbad hsame
  · rw [Bool.and_eq_true, decide_eq_true_eq] at h
    rw [merkleTreeHash_injective hs hinj old new hsame h.1]
  · split at h
    · simp at h
    · rename_i first rest hpath
      dsimp only at h
      split at h
      · simp at h
      · rename_i fr sr sn hloop
        simp only [Bool.and_eq_true, decide_eq_true_eq] at h
        obtain ⟨⟨rfl, rfl⟩, rfl⟩ := h
        exact prefix_of_consistencyLoop hs hinj old new (by omega) (by omega) first rest hloop

end Sound

theorem prefix_of_verifyConsistencyProof_pair : [4] <+: [4, 7] :=
  prefix_of_verifyConsistencyProof pairingHasher pairingHasher_injective [4] [4, 7] ⟨1, 2, [7]⟩ rfl rfl (by
    simp [verifyConsistencyProof, fullConsistencyPath, Nat.isPowerOfTwo_one, merkleTreeHash_pair, consistencyLoop,
      shiftWhileOdd])

end AgentHalo.Transparency
