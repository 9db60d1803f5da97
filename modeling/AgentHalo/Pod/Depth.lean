import AgentHalo.Pod.Provenance

/-!
# The depth limit and the graph

The walk of a provenance graph enters an envelope once, at the depth at which it comes to it first. So a path longer than
`maxDepth` may go unreported (`long_path_unreported`), but a report means that a path is too long, an edge that ends only
paths that are too long is reported, and the order of the references plays no part (`depthLimit_of_graph`).
-/

namespace AgentHalo.Pod

open Relation (ReflTransGen TransGen)

section Explored

variable {P : Platform} (J : EnvelopeJson P) (resolve : NodeHash → Option (ProofEnvelope P))
  (options : ProvenanceDagVerifyOptions) (root : ProofEnvelope P) (rootHash : NodeHash)

/-- Some path from the root is longer than the limit. -/
def LongPath (maxDepth : Nat) : Prop :=
  ∃ path, List.IsChain (Upstream resolve root rootHash) (rootHash :: path) ∧ maxDepth < path.length

/-- The walk stopped at the depth limit. -/
structure Halted (s : DagWalkState) : Prop where
  stopped : s.stopWalk = true
  flagged : s.depthLimitExceeded = true
  long : LongPath resolve root rootHash options.maxDepth

/-- The walk goes on. The references of a hash that was entered and is no longer on the path have been followed, each along
a path within the limit. -/
structure Under (path : List NodeHash) (s : DagWalkState) : Prop where
  goes : s.stopWalk = false
  clear : s.depthLimitExceeded = false
  reached : ∀ hash ∈ s.visited, TransGen (Upstream resolve root rootHash) rootHash hash
  onPath : ∀ hash ∈ path, hash = rootHash ∨ hash ∈ s.visited
  followed : ∀ a ∈ s.visited, a ∉ path → ∀ b, Upstream resolve root rootHash a b →
    (b = rootHash ∨ b ∈ s.visited) ∧ Dag.EdgeWithin (Upstream resolve root rootHash) rootHash options.maxDepth a b

/-- A stretch of the walk at one depth went from `s` to `s'` over these hashes. -/
structure Explored (path : List NodeHash) (depth : Nat) (s s' : DagWalkState) (hashes : List NodeHash) : Prop where
  under : Under resolve options root rootHash path s'
  grows : s.visited ⊆ s'.visited
  entered : ∀ hash ∈ hashes, (hash = rootHash ∨ hash ∈ s'.visited) ∧ depth ≤ options.maxDepth

variable {J resolve options root rootHash}

variable {path : List NodeHash} {s t : DagWalkState} {hash : NodeHash}

theorem walkEdges_explored {visit : NodeHash → DagWalkState → Except String DagWalkState} (depth : Nat)
    {edges : List EnvelopeRef} (hvisit : ∀ edge ∈ edges, ∀ s s', Under resolve options root rootHash path s →
      visit edge.envelopeHash s = .ok s' →
      Halted resolve options root rootHash s' ∨
        Explored resolve options root rootHash path depth s s' [edge.envelopeHash]) {s' : DagWalkState}
    (hs : Under resolve options root rootHash path s) (h : walkEdges visit edges s = .ok s') :
    Halted resolve options root rootHash s' ∨
      Explored resolve options root rootHash path depth s s' (edges.map (·.envelopeHash)) := by
  induction edges generalizing s with
  | nil =>
    rw [walkEdges, Except.ok.injEq] at h
    subst h
    exact .inr ⟨hs, Finset.Subset.refl _, by simp⟩
  | cons edge rest ih =>
    rw [walkEdges, if_neg (by simp [hs.goes])] at h
    cases hfirst : visit edge.envelopeHash s with
    | error e =>
      rw [hfirst] at h
      cases h
    | ok t =>
      rw [hfirst] at h
      have hrest : walkEdges visit rest t = .ok s' := h
      obtain hhalted | hhere := hvisit edge List.mem_cons_self s t hs hfirst
      · -- the rest of the loop is skipped
        have hsame : t = s' := by
          cases rest with
          | nil => exact Except.ok.inj hrest
          | cons next more =>
            rw [walkEdges, if_pos hhalted.stopped] at hrest
            exact Except.ok.inj hrest
        exact .inl (hsame ▸ hhalted)
      · refine (ih (fun next hnext => hvisit next (List.mem_cons_of_mem _ hnext)) hhere.under hrest).imp_right
          fun hlater => ⟨hlater.under, hhere.grows.trans hlater.grows, fun hash hmem => ?_⟩
        obtain rfl | hmem := List.mem_cons.mp hmem
        · obtain ⟨hin, hdepth⟩ := hhere.entered _ List.mem_cons_self
          exact ⟨hin.imp_right fun hin => hlater.grows hin, hdepth⟩
        · exact hlater.entered hash hmem

theorem Under.enter (hs : Under resolve options root rootHash path s)
    (hreached : TransGen (Upstream resolve root rootHash) rootHash hash) (hgoes : t.stopWalk = s.stopWalk)
    (hclear : t.depthLimitExceeded = s.depthLimitExceeded) (hvisited : t.visited = insert hash s.visited) :
    Under resolve options root rootHash (path ++ [hash]) t where
  goes := hgoes.trans hs.goes
  clear := hclear.trans hs.clear
  reached other hmem := by
    rw [hvisited] at hmem
    obtain rfl | hmem := Finset.mem_insert.mp hmem
    · exact hreached
    · exact hs.reached other hmem
  onPath other hmem := by
    rw [hvisited]
    obtain hmem | hmem := List.mem_append.mp hmem
    · exact (hs.onPath other hmem).imp_right (Finset.mem_insert_of_mem ·)
    · rw [List.mem_singleton.mp hmem]
      exact .inr (Finset.mem_insert_self _ _)
  followed a hmem hoff b hedge := by
    rw [hvisited] at hmem ⊢
    rw [List.mem_append, List.mem_singleton, not_or] at hoff
    obtain ⟨hin, hwithin⟩ := hs.followed a ((Finset.mem_insert.mp hmem).resolve_left hoff.2) hoff.1 b hedge
    exact ⟨hin.imp_right (Finset.mem_insert_of_mem ·), hwithin⟩

theorem Under.leave (ht : Under resolve options root rootHash (path ++ [hash]) t)
    (hnext : ∀ b, Upstream resolve root rootHash hash b → (b = rootHash ∨ b ∈ t.visited) ∧
      Dag.EdgeWithin (Upstream resolve root rootHash) rootHash options.maxDepth hash b) :
    Under resolve options root rootHash path t where
  goes := ht.goes
  clear := ht.clear
  reached := ht.reached
  onPath other hmem := ht.onPath other (List.mem_append_left _ hmem)
  followed a hmem hoff b hedge := by
    by_cases ha : a = hash
    · subst ha
      exact hnext b hedge
    · refine ht.followed a hmem ?_ b hedge
      rw [List.mem_append, List.mem_singleton, not_or]
      exact ⟨hoff, ha⟩

theorem walk_explored (hfast : options.failFastOnHashMismatch = false)
    (hnodes : {hash | TransGen (Upstream resolve root rootHash) rootHash hash}.encard ≤ options.maxNodes)
    (expectedHash : NodeHash) (trail : List NodeHash)
    (hchain : List.IsChain (Upstream resolve root rootHash) (rootHash :: trail ++ [expectedHash]))
    (s s' : DagWalkState) (hs : Under resolve options root rootHash (rootHash :: trail) s)
    (h : walkProvenanceRef J resolve options expectedHash (trail.length + 1) (rootHash :: trail) s = .ok s') :
    Halted resolve options root rootHash s' ∨
      Explored resolve options root rootHash (rootHash :: trail) (trail.length + 1) s s' [expectedHash] := by
  have hreached := Dag.transGen_of_chain hchain List.mem_cons_self
  rw [walkProvenanceRef, if_neg (by simp [hs.goes])] at h
  by_cases hdepth : trail.length + 1 > options.maxDepth
  · rw [if_pos hdepth] at h
    rw [← Except.ok.inj h]
    refine .inl ⟨rfl, rfl, trail ++ [expectedHash], hchain, ?_⟩
    rwa [List.length_append]
  rw [if_neg hdepth] at h
  have hwithin : trail.length + 1 ≤ options.maxDepth := Nat.not_lt.mp hdepth
  by_cases hpath : expectedHash ∈ rootHash :: trail
  · rw [if_pos hpath] at h
    rw [← Except.ok.inj h]
    refine .inr ⟨⟨hs.goes, hs.clear, hs.reached, hs.onPath, hs.followed⟩, Finset.Subset.refl _, fun hash hmem => ?_⟩
    rw [List.mem_singleton.mp hmem]
    exact ⟨hs.onPath expectedHash hpath, hwithin⟩
  rw [if_neg hpath] at h
  by_cases hvisited : expectedHash ∈ s.visited
  · rw [if_pos hvisited] at h
    rw [← Except.ok.inj h]
    refine .inr ⟨⟨hs.goes, hs.clear, hs.reached, hs.onPath, hs.followed⟩, Finset.Subset.refl _, fun hash hmem => ?_⟩
    rw [List.mem_singleton.mp hmem]
    exact ⟨.inr hvisited, hwithin⟩
  rw [if_neg hvisited] at h
  dsimp only at h
  have hne : expectedHash ≠ rootHash := fun heq => hpath (heq ▸ List.mem_cons_self)
  have hroom : ¬ ((s.reach (trail.length + 1)).enter expectedHash).visited.card > options.maxNodes := by
    have hsub : ((insert expectedHash s.visited : Finset NodeHash) : Set NodeHash).encard ≤ options.maxNodes := by
      refine (Set.encard_le_encard fun hash hmem => ?_).trans hnodes
      obtain rfl | hmem := Finset.mem_insert.mp hmem
      · exact hreached
      · exact hs.reached hash hmem
    rw [Set.encard_coe_eq_coe_finsetCard, Nat.cast_le] at hsub
    exact Nat.not_lt.mpr hsub
  rw [if_neg hroom] at h
  cases hresolve : resolve expectedHash with
  | none =>
    rw [hresolve] at h
    rw [← Except.ok.inj h]
    have hentered := hs.enter (t := { (s.reach (trail.length + 1)).enter expectedHash with
      missingRefs := ((s.reach (trail.length + 1)).enter expectedHash).missingRefs + 1 }) hreached rfl rfl rfl
    refine .inr ⟨hentered.leave fun b hedge => ?_, Finset.subset_insert _ _, fun hash hmem => ?_⟩
    · obtain ⟨envelope, hlookup, -⟩ := hedge
      rw [lookup, if_neg hne, hresolve] at hlookup
      cases hlookup
    · rw [List.mem_singleton.mp hmem]
      exact ⟨.inr (Finset.mem_insert_self _ _), hwithin⟩
  | some envelope =>
    rw [hresolve] at h
    dsimp only at h
    cases hhash : envelope.provenanceHash J with
    | error e =>
      rw [hhash] at h
      cases h
    | ok actualHash =>
      rw [hhash] at h
      dsimp only at h
      rw [if_neg (by simp [hfast])] at h
      have hentered := hs.enter (t := ((s.reach (trail.length + 1)).enter expectedHash).examine
        (actualHash = expectedHash) envelope.verifyLocally.accepted
        (canonicalUpstreamRefs envelope.upstreamEnvelopes).length) hreached rfl rfl rfl
      refine (walkEdges_explored (trail.length + 2) (fun edge hedge t t' ht ht' => ?_) hentered h).imp_right
        fun hbelow => ?_
      · have hnext : Upstream resolve root rootHash expectedHash edge.envelopeHash :=
          (upstream_of_resolve hne hresolve).mpr ⟨edge, mem_canonicalUpstreamRefs.mp hedge, rfl⟩
        have hlength : (trail ++ [expectedHash]).length + 1 = trail.length + 2 := by
          rw [List.length_append, List.length_singleton]
        rw [← hlength] at ht' ⊢
        exact walk_explored hfast hnodes edge.envelopeHash (trail ++ [expectedHash]) (Dag.isChain_snoc hchain hnext) t t' ht
          ht'
      · refine ⟨hbelow.under.leave fun b hedge => ?_, (Finset.subset_insert _ _).trans hbelow.grows, fun hash hmem => ?_⟩
        · obtain ⟨r, hr, rfl⟩ := (upstream_of_resolve hne hresolve).mp hedge
          obtain ⟨hin, hdeeper⟩ :=
            hbelow.entered r.envelopeHash (List.mem_map_of_mem (mem_canonicalUpstreamRefs.mpr hr))
          refine ⟨hin, trail ++ [expectedHash], Dag.isChain_snoc hchain hedge, ?_, ?_⟩
          · rw [← List.cons_append, List.getLast?_concat]
          · rw [List.length_append, List.length_singleton]
            omega
        · rw [List.mem_singleton.mp hmem]
          exact ⟨.inr (hbelow.grows (Finset.mem_insert_self _ _)), hwithin⟩
termination_by options.maxDepth - trail.length
decreasing_by
  rw [List.length_append, List.length_singleton]
  omega

theorem verifyProvenanceDag_explored (hfast : options.failFastOnHashMismatch = false)
    (hhash : root.provenanceHash J = .ok rootHash)
    (hnodes : {hash | TransGen (Upstream resolve root rootHash) rootHash hash}.encard ≤ options.maxNodes)
    {r : ProvenanceDagVerification} (hr : root.verifyProvenanceDagWithOptions J resolve options = .ok r) :
    (r.depthLimitExceeded = true ∧ LongPath resolve root rootHash options.maxDepth) ∨
      (r.depthLimitExceeded = false ∧ ∀ a b, ReflTransGen (Upstream resolve root rootHash) rootHash a →
        Upstream resolve root rootHash a b →
        Dag.EdgeWithin (Upstream resolve root rootHash) rootHash options.maxDepth a b) := by
  unfold ProofEnvelope.verifyProvenanceDagWithOptions at hr
  rw [hhash] at hr
  dsimp only at hr
  cases hwalk : walkEdges (fun hash => walkProvenanceRef J resolve options hash 1 [rootHash])
      (canonicalUpstreamRefs root.upstreamEnvelopes) (.start root.upstreamEnvelopes.length) with
  | error e =>
    rw [hwalk] at hr
    cases hr
  | ok s =>
    rw [hwalk] at hr
    rw [← Except.ok.inj hr]
    have hstart : Under resolve options root rootHash [rootHash] (.start root.upstreamEnvelopes.length) :=
      ⟨rfl, rfl, nofun, fun hash hmem => .inl (List.mem_singleton.mp hmem), nofun⟩
    refine (walkEdges_explored 1 (fun edge hedge t t' ht ht' => ?_) hstart hwalk).imp
      (fun hhalted => ⟨hhalted.flagged, hhalted.long⟩) fun hexplored => ⟨hexplored.under.clear, ?_⟩
    · exact walk_explored hfast hnodes edge.envelopeHash []
        (List.isChain_pair.mpr (upstream_root.mpr ⟨edge, mem_canonicalUpstreamRefs.mp hedge, rfl⟩)) t t' ht ht'
    · have hnext : ∀ b, Upstream resolve root rootHash rootHash b →
          (b = rootHash ∨ b ∈ s.visited) ∧ 1 ≤ options.maxDepth := by
        intro b hedge
        obtain ⟨reference, href, rfl⟩ := upstream_root.mp hedge
        exact hexplored.entered _ (List.mem_map_of_mem (mem_canonicalUpstreamRefs.mpr href))
      have hfollowed : ∀ a, a = rootHash ∨ a ∈ s.visited → ∀ b, Upstream resolve root rootHash a b →
          (b = rootHash ∨ b ∈ s.visited) ∧
            Dag.EdgeWithin (Upstream resolve root rootHash) rootHash options.maxDepth a b := by
        intro a ha b hedge
        by_cases hroot : a = rootHash
        · subst hroot
          exact ⟨(hnext b hedge).1, [], List.isChain_pair.mpr hedge, rfl, (hnext b hedge).2⟩
        · exact hexplored.under.followed a (ha.resolve_left hroot) (by simpa using hroot) b hedge
      have hentered : ∀ a, ReflTransGen (Upstream resolve root rootHash) rootHash a →
          a = rootHash ∨ a ∈ s.visited := by
        intro a hreach
        induction hreach with
        | refl => exact .inl rfl
        | tail _ hedge ih => exact (hfollowed _ ih _ hedge).1
      exact fun a b hreach hedge => (hfollowed a (hentered a hreach) b hedge).2

end Explored

/-! ### The order of the references -/

section Reordered

variable {P : Platform}

/-- The same envelope with its references listed in another order. -/
def Reordered (e e' : ProofEnvelope P) : Prop :=
  ∃ references, e.upstreamEnvelopes.Perm references ∧ e' = { e with upstreamEnvelopes := references }

variable {J : EnvelopeJson P} {resolve resolve' : NodeHash → Option (ProofEnvelope P)}
  {options : ProvenanceDagVerifyOptions} {e e' : ProofEnvelope P}

namespace Reordered

theorem provenanceHash_eq (h : Reordered e e') : e'.provenanceHash J = e.provenanceHash J := by
  obtain ⟨references, hperm, rfl⟩ := h
  unfold ProofEnvelope.provenanceHash ProofEnvelope.hashInput
  rw [canonicalUpstreamHashes_eq_iff.mpr (hperm.map (·.envelopeHash))]

theorem accepted_eq (h : Reordered e e') : e'.verifyLocally.accepted = e.verifyLocally.accepted := by
  obtain ⟨references, hperm, rfl⟩ := h
  have hvalid : (validateUpstreamRefs references).isOk = (validateUpstreamRefs e.upstreamEnvelopes).isOk := by
    rw [Bool.eq_iff_iff, validateUpstreamRefs_ok_iff, validateUpstreamRefs_ok_iff,
      (hperm.map (·.envelopeHash)).nodup_iff]
    simp only [hperm.mem_iff]
  rw [Bool.eq_iff_iff, ProofEnvelope.accepted_iff, ProofEnvelope.accepted_iff, hvalid]
  rfl

theorem canonicalUpstreamRefs_eq (h : Reordered e e') :
    canonicalUpstreamRefs e'.upstreamEnvelopes = canonicalUpstreamRefs e.upstreamEnvelopes := by
  obtain ⟨references, hperm, rfl⟩ := h
  exact (canonicalUpstreamRefs_eq_of_perm hperm).symm

theorem length_eq (h : Reordered e e') : e'.upstreamEnvelopes.length = e.upstreamEnvelopes.length := by
  obtain ⟨references, hperm, rfl⟩ := h
  exact hperm.length_eq.symm

end Reordered

theorem walkProvenanceRef_reordered (hresolve : ∀ hash, Option.Rel Reordered (resolve hash) (resolve' hash))
    (expectedHash : NodeHash) (depth : Nat) (path : List NodeHash) (s : DagWalkState) :
    walkProvenanceRef J resolve' options expectedHash depth path s =
      walkProvenanceRef J resolve options expectedHash depth path s := by
  rw [walkProvenanceRef, walkProvenanceRef]
  split_ifs with hstop hdepth hpath hvisited
  · rfl
  · rfl
  · rfl
  · rfl
  · dsimp only
    split_ifs
    · rfl
    · have hanswer := hresolve expectedHash
      cases hfound : resolve expectedHash with
      | none =>
        rw [hfound] at hanswer
        cases hfound' : resolve' expectedHash with
        | none => rfl
        | some envelope' =>
          rw [hfound'] at hanswer
          cases hanswer
      | some envelope =>
        rw [hfound] at hanswer
        cases hfound' : resolve' expectedHash with
        | none =>
          rw [hfound'] at hanswer
          cases hanswer
        | some envelope' =>
          rw [hfound'] at hanswer
          obtain hsame := Option.rel_some_some.mp hanswer
          have hbelow : (fun hash => walkProvenanceRef J resolve' options hash (depth + 1) (path ++ [expectedHash])) =
              fun hash => walkProvenanceRef J resolve options hash (depth + 1) (path ++ [expectedHash]) :=
            funext fun hash => funext fun t =>
              walkProvenanceRef_reordered hresolve hash (depth + 1) (path ++ [expectedHash]) t
          dsimp only
          rw [hsame.provenanceHash_eq, hsame.accepted_eq, hsame.canonicalUpstreamRefs_eq, hbelow]
termination_by options.maxDepth + 1 - depth

theorem verifyProvenanceDag_reordered {root root' : ProofEnvelope P} (hroot : Reordered root root')
    (hresolve : ∀ hash, Option.Rel Reordered (resolve hash) (resolve' hash)) :
    root'.verifyProvenanceDagWithOptions J resolve' options = root.verifyProvenanceDagWithOptions J resolve options := by
  have hwalk : walkProvenanceRef J resolve' options = walkProvenanceRef J resolve options :=
    funext fun hash => funext fun depth => funext fun path => funext fun s =>
      walkProvenanceRef_reordered hresolve hash depth path s
  unfold ProofEnvelope.verifyProvenanceDagWithOptions
  rw [hwalk, hroot.provenanceHash_eq, hroot.accepted_eq, hroot.canonicalUpstreamRefs_eq, hroot.length_eq]

end Reordered

/-! ### The verdict -/

/-- **What the depth limit says of the graph**, for a graph within the limit of nodes. A report means that some path is too
long. An edge that is reached and ends no path within the limit is reported; so where the paths to an envelope are of one
length, a report means that some path is too long and nothing else. The result does not depend on the order in which the
envelopes list their references. -/
theorem ProofEnvelope.depthLimit_of_graph {P : Platform} (J : EnvelopeJson P)
    (resolve : NodeHash → Option (ProofEnvelope P)) (maxDepth : Nat) (root : ProofEnvelope P) (rootHash : NodeHash)
    (r : ProvenanceDagVerification) (hhash : root.provenanceHash J = .ok rootHash)
    (hnodes : {hash | TransGen (Upstream resolve root rootHash) rootHash hash}.encard ≤
      ProvenanceDagVerifyOptions.default.maxNodes)
    (hr : root.verifyProvenanceDag J resolve maxDepth = .ok r) :
    (r.depthLimitExceeded = true → LongPath resolve root rootHash maxDepth) ∧
    ((∃ a b, ReflTransGen (Upstream resolve root rootHash) rootHash a ∧ Upstream resolve root rootHash a b ∧
        ¬ Dag.EdgeWithin (Upstream resolve root rootHash) rootHash maxDepth a b) →
      r.depthLimitExceeded = true) ∧
    (Dag.Graded (Upstream resolve root rootHash) rootHash →
      (r.depthLimitExceeded = true ↔ LongPath resolve root rootHash maxDepth)) ∧
    ∀ root' resolve', Reordered root root' → (∀ hash, Option.Rel Reordered (resolve hash) (resolve' hash)) →
      root'.verifyProvenanceDag J resolve' maxDepth = .ok r := by
  have hfast : { ProvenanceDagVerifyOptions.default with maxDepth := maxDepth }.failFastOnHashMismatch = false := rfl
  have hexplored := verifyProvenanceDag_explored hfast hhash hnodes hr
  have hlong : r.depthLimitExceeded = true → LongPath resolve root rootHash maxDepth := by
    intro hreported
    obtain ⟨-, hlong⟩ | ⟨hclear, -⟩ := hexplored
    · exact hlong
    · rw [hclear] at hreported
      cases hreported
  have hreport : (∃ a b, ReflTransGen (Upstream resolve root rootHash) rootHash a ∧ Upstream resolve root rootHash a b ∧
      ¬ Dag.EdgeWithin (Upstream resolve root rootHash) rootHash maxDepth a b) → r.depthLimitExceeded = true := by
    rintro ⟨a, b, hreach, hedge, hnot⟩
    obtain ⟨hreported, -⟩ | ⟨-, hwithin⟩ := hexplored
    · exact hreported
    · exact absurd (hwithin a b hreach hedge) hnot
  refine ⟨hlong, hreport, fun hgraded => ⟨hlong, ?_⟩, fun root' resolve' hroot hresolve => ?_⟩
  · rintro ⟨path, hchain, hlength⟩
    exact hreport (Dag.exists_not_edgeWithin hgraded hchain hlength)
  · exact (verifyProvenanceDag_reordered hroot hresolve).trans hr

theorem canonicalUpstreamRefs_derived :
    canonicalUpstreamRefs derivedEnvelope.upstreamEnvelopes = [⟨referenceHash "a", some "a", some 1⟩] :=
  List.mergeSort_singleton _

/-- One envelope derived from another is too deep for a limit of zero. -/
theorem ProofEnvelope.depthLimit_of_graph_two : ∃ r,
    derivedEnvelope.verifyProvenanceDag .reference resolveLeaf 0 = .ok r ∧ r.depthLimitExceeded = true ∧
    LongPath resolveLeaf derivedEnvelope (referenceHash "b") 0 ∧
    (Dag.Graded (Upstream resolveLeaf derivedEnvelope (referenceHash "b")) (referenceHash "b") →
      (r.depthLimitExceeded = true ↔ LongPath resolveLeaf derivedEnvelope (referenceHash "b") 0)) ∧
    ∀ root' resolve', Reordered derivedEnvelope root' → (∀ hash, Option.Rel Reordered (resolveLeaf hash) (resolve' hash)) →
      root'.verifyProvenanceDag .reference resolve' 0 = .ok r := by
  obtain ⟨r, hr, hreported⟩ : ∃ r, derivedEnvelope.verifyProvenanceDag .reference resolveLeaf 0 = .ok r ∧
      r.depthLimitExceeded = true := by
    have hroot : derivedEnvelope.provenanceHash .reference = .ok (referenceHash "b") := rfl
    unfold ProofEnvelope.verifyProvenanceDag ProofEnvelope.verifyProvenanceDagWithOptions
    rw [hroot, canonicalUpstreamRefs_derived]
    dsimp only
    rw [walkEdges, walkProvenanceRef]
    exact ⟨_, rfl, rfl⟩
  have hnodes : {hash | TransGen (Upstream resolveLeaf derivedEnvelope (referenceHash "b")) (referenceHash "b") hash}.encard ≤
      ProvenanceDagVerifyOptions.default.maxNodes := by
    refine (Set.encard_le_encard (t := {referenceHash "a"}) fun hash h => (reached_two h).2).trans ?_
    rw [Set.encard_singleton]
    decide
  obtain ⟨hlong, -, hgraded, horder⟩ :=
    depthLimit_of_graph .reference resolveLeaf 0 derivedEnvelope (referenceHash "b") r rfl hnodes hr
  exact ⟨r, hr, hreported, hlong hreported, hgraded, horder⟩

/-! ### Two ways to one envelope -/

def viaEnvelope : ProofEnvelope .reference :=
  { ProofEnvelope.ofFive (.integer 5) with
    key := "c"
    upstreamEnvelopes := [⟨referenceHash "b", some "b", some 1⟩] }

def diamondEnvelope : ProofEnvelope .reference :=
  { ProofEnvelope.ofFive (.integer 5) with
    key := "d"
    upstreamEnvelopes := [⟨referenceHash "b", some "b", some 1⟩, ⟨referenceHash "c", some "c", some 1⟩] }

def resolveDiamond (hash : NodeHash) : Option (ProofEnvelope .reference) :=
  if hash = referenceHash "a" then some leafEnvelope
  else if hash = referenceHash "b" then some derivedEnvelope
  else if hash = referenceHash "c" then some viaEnvelope
  else none

theorem upstream_diamond {x y : NodeHash} (h : Upstream resolveDiamond diamondEnvelope (referenceHash "d") x y) :
    y = referenceHash "a" ∨ y = referenceHash "b" ∨ y = referenceHash "c" := by
  obtain ⟨envelope, hlookup, reference, href, rfl⟩ := h
  unfold lookup resolveDiamond at hlookup
  split_ifs at hlookup
  · rw [← Option.some.inj hlookup] at href
    obtain rfl | href := List.mem_cons.mp href
    · exact .inr (.inl rfl)
    · exact .inr (.inr (by rw [List.mem_singleton.mp href]))
  · rw [← Option.some.inj hlookup] at href
    cases href
  · rw [← Option.some.inj hlookup] at href
    exact .inl (by rw [List.mem_singleton.mp href])
  · rw [← Option.some.inj hlookup] at href
    exact .inr (.inl (by rw [List.mem_singleton.mp href]))

theorem referenceHash_diamond : referenceHash "b" ≠ referenceHash "a" ∧ referenceHash "c" ≠ referenceHash "a" ∧
    referenceHash "c" ≠ referenceHash "b" ∧ referenceHash "d" ≠ referenceHash "a" ∧
    referenceHash "d" ≠ referenceHash "b" ∧ referenceHash "d" ≠ referenceHash "c" := by
  decide

theorem resolveDiamond_a : resolveDiamond (referenceHash "a") = some leafEnvelope := if_pos rfl

theorem resolveDiamond_b : resolveDiamond (referenceHash "b") = some derivedEnvelope := by
  rw [resolveDiamond, if_neg referenceHash_diamond.1, if_pos rfl]

theorem resolveDiamond_c : resolveDiamond (referenceHash "c") = some viaEnvelope := by
  rw [resolveDiamond, if_neg referenceHash_diamond.2.1, if_neg referenceHash_diamond.2.2.1, if_pos rfl]

theorem longPath_diamond : LongPath resolveDiamond diamondEnvelope (referenceHash "d") 2 := by
  obtain ⟨-, -, -, -, hdb, hdc⟩ := referenceHash_diamond
  refine ⟨[referenceHash "c", referenceHash "b", referenceHash "a"], ?_, by decide⟩
  refine List.isChain_cons_cons.mpr ⟨upstream_root.mpr ⟨_, List.mem_cons_of_mem _ List.mem_cons_self, rfl⟩, ?_⟩
  refine List.isChain_cons_cons.mpr ⟨?_, List.isChain_pair.mpr ?_⟩
  · exact (upstream_of_resolve hdc.symm resolveDiamond_c).mpr ⟨_, List.mem_cons_self, rfl⟩
  · exact (upstream_of_resolve hdb.symm resolveDiamond_b).mpr ⟨_, List.mem_cons_self, rfl⟩

theorem walkEdges_cons {visit : NodeHash → DagWalkState → Except String DagWalkState} {edge : EnvelopeRef}
    {rest : List EnvelopeRef} {s t : DagWalkState} (hgo : s.stopWalk = false) (h : visit edge.envelopeHash s = .ok t) :
    walkEdges visit (edge :: rest) s = walkEdges visit rest t := by
  rw [walkEdges, if_neg (by simp [hgo]), h]
  rfl

theorem canonicalUpstreamRefs_diamond :
    canonicalUpstreamRefs diamondEnvelope.upstreamEnvelopes = diamondEnvelope.upstreamEnvelopes := by
  refine List.mergeSort_of_pairwise (List.pairwise_pair.mpr ?_)
  decide

theorem diamond_unreported : ∃ r, diamondEnvelope.verifyProvenanceDag .reference resolveDiamond 2 = .ok r ∧
    r.depthLimitExceeded = false := by
  obtain ⟨hba, hca, hcb, hda, hdb, hdc⟩ := referenceHash_diamond
  let options : ProvenanceDagVerifyOptions := { ProvenanceDagVerifyOptions.default with maxDepth := 2 }
  have hnodes : options.maxNodes = 10000 := rfl
  have hvia : canonicalUpstreamRefs viaEnvelope.upstreamEnvelopes = [⟨referenceHash "b", some "b", some 1⟩] :=
    List.mergeSort_singleton _
  have hleaf : ∀ s : DagWalkState, s.stopWalk = false → s.visited = {referenceHash "b"} →
      walkProvenanceRef .reference resolveDiamond options (referenceHash "a") 2
        ([referenceHash "d"] ++ [referenceHash "b"]) s =
          .ok (((s.reach 2).enter (referenceHash "a")).examine true leafEnvelope.verifyLocally.accepted 0) := by
    intro s hgo hvisited
    have hnone : canonicalUpstreamRefs leafEnvelope.upstreamEnvelopes = [] := List.mergeSort_nil
    have hcard : (insert (referenceHash "a") s.visited).card ≤ options.maxNodes := by
      rw [hvisited, hnodes]
      exact Finset.card_le_two.trans (by decide)
    rw [walk_of_resolves hgo (Nat.le_refl 2) (by simp [hda.symm, hba.symm]) (by simp [hvisited, hba.symm]) hcard
      resolveDiamond_a rfl, hnone]
    rfl
  let first : DagWalkState := ((((((DagWalkState.start 2).reach 1).enter (referenceHash "b")).examine true
    derivedEnvelope.verifyLocally.accepted 1).reach 2).enter (referenceHash "a")).examine true
      leafEnvelope.verifyLocally.accepted 0
  have hfirst : walkProvenanceRef .reference resolveDiamond options (referenceHash "b") 1 [referenceHash "d"] (.start 2) =
      .ok first := by
    have hcard : (insert (referenceHash "b") (DagWalkState.start 2).visited).card ≤ options.maxNodes := by
      rw [hnodes]
      exact (Finset.card_insert_le _ _).trans (by decide)
    rw [walk_of_resolves rfl (show 1 ≤ 2 by decide) (by simp [hdb.symm]) (Finset.notMem_empty _) hcard
      resolveDiamond_b rfl, canonicalUpstreamRefs_derived, walkEdges_cons rfl (hleaf _ rfl rfl)]
    rfl
  let second : DagWalkState := (((first.reach 1).enter (referenceHash "c")).examine true
    viaEnvelope.verifyLocally.accepted 1).reach 2
  have hsecond : walkProvenanceRef .reference resolveDiamond options (referenceHash "c") 1 [referenceHash "d"] first =
      .ok second := by
    have hcard : (insert (referenceHash "c") first.visited).card ≤ options.maxNodes := by
      rw [hnodes]
      exact (Finset.card_le_three).trans (by decide)
    have hnew : referenceHash "c" ∉ first.visited := by
      simp [first, hca, hcb, DagWalkState.start]
    rw [walk_of_resolves rfl (show 1 ≤ 2 by decide) (by simp [hdc.symm]) hnew hcard resolveDiamond_c rfl,
      hvia, walkEdges_cons rfl (walk_of_visited rfl (Nat.le_refl 2) (by simp [hdb.symm, hcb.symm]) (by simp [first]))]
    rfl
  have hroot : diamondEnvelope.provenanceHash .reference = .ok (referenceHash "d") := rfl
  unfold ProofEnvelope.verifyProvenanceDag ProofEnvelope.verifyProvenanceDagWithOptions
  rw [hroot, canonicalUpstreamRefs_diamond]
  dsimp only
  rw [diamondEnvelope, walkEdges_cons rfl hfirst, walkEdges_cons rfl hsecond]
  exact ⟨_, rfl, rfl⟩

/-- So the limit is not that of the graph. -/
theorem long_path_unreported : ¬ ∀ (resolve : NodeHash → Option (ProofEnvelope .reference)) (maxDepth : Nat)
    (root : ProofEnvelope .reference) (rootHash : NodeHash) (r : ProvenanceDagVerification),
    root.provenanceHash .reference = .ok rootHash →
    {hash | TransGen (Upstream resolve root rootHash) rootHash hash}.encard ≤
      ProvenanceDagVerifyOptions.default.maxNodes →
    root.verifyProvenanceDag .reference resolve maxDepth = .ok r →
    (r.depthLimitExceeded = true ↔ LongPath resolve root rootHash maxDepth) := by
  intro h
  obtain ⟨r, hr, hclear⟩ := diamond_unreported
  have hnodes : {hash | TransGen (Upstream resolveDiamond diamondEnvelope (referenceHash "d")) (referenceHash "d")
      hash}.encard ≤ ProvenanceDagVerifyOptions.default.maxNodes := by
    have hsub : ({hash | TransGen (Upstream resolveDiamond diamondEnvelope (referenceHash "d")) (referenceHash "d")
        hash} : Set NodeHash) ⊆ ({referenceHash "a", referenceHash "b", referenceHash "c"} : Finset NodeHash) := by
      intro hash hreached
      obtain ⟨before, -, hedge⟩ := TransGen.tail'_iff.mp hreached
      simpa using upstream_diamond hedge
    refine (Set.encard_le_encard hsub).trans ?_
    rw [Set.encard_coe_eq_coe_finsetCard, Nat.cast_le]
    exact Finset.card_le_three.trans (by decide)
  have hreported := (h resolveDiamond 2 diamondEnvelope (referenceHash "d") r rfl hnodes hr).mpr longPath_diamond
  rw [hclear] at hreported
  cases hreported

end AgentHalo.Pod
