import AgentHalo.Lib.Dag
import AgentHalo.Pod.Envelope

/-!
# Provenance graphs

An envelope names its inputs by hash, and a resolver finds the envelopes behind the names. `verifyProvenanceDag` walks
this graph depth first: it keeps the path it is on, the set of hashes it has entered, and one counter or flag for each
thing that can be wrong. On a resolver that is a function the verdict is that of the graph
(`verifyProvenanceDag_sound_complete`).
-/

namespace AgentHalo.Pod

open Relation (TransGen)

structure ProvenanceDagVerifyOptions where
  /-- Maximum traversal depth (root = 0). -/
  maxDepth : Nat
  /-- Maximum number of resolved nodes (excluding root). -/
  maxNodes : Nat
  failFastOnHashMismatch : Bool
deriving DecidableEq, Repr

def ProvenanceDagVerifyOptions.default : ProvenanceDagVerifyOptions := ⟨64, 10000, false⟩

/-- Result of transitive DAG verification for upstream envelope references. -/
structure ProvenanceDagVerification where
  rootHash : String
  rootAccepted : Bool
  visitedNodes : Nat
  upstreamEdges : Nat
  maxDepthReached : Nat
  missingRefs : Nat
  hashMismatches : Nat
  invalidNodes : Nat
  cycleDetected : Bool
  depthLimitExceeded : Bool
  nodesLimitExceeded : Bool
  accepted : Bool
deriving DecidableEq, Repr

structure DagWalkState where
  upstreamEdges : Nat
  maxDepthReached : Nat
  missingRefs : Nat
  hashMismatches : Nat
  invalidNodes : Nat
  cycleDetected : Bool
  depthLimitExceeded : Bool
  nodesLimitExceeded : Bool
  stopWalk : Bool
  /-- The hashes entered, which the source passes along beside the counters. -/
  visited : Finset NodeHash
deriving DecidableEq

namespace DagWalkState

def start (upstreamEdges : Nat) : DagWalkState where
  upstreamEdges := upstreamEdges
  maxDepthReached := 0
  missingRefs := 0
  hashMismatches := 0
  invalidNodes := 0
  cycleDetected := false
  depthLimitExceeded := false
  nodesLimitExceeded := false
  stopWalk := false
  visited := ∅

def unflagged (s : DagWalkState) : Bool :=
  s.missingRefs == 0 && s.hashMismatches == 0 && s.invalidNodes == 0 && !s.cycleDetected && !s.depthLimitExceeded
    && !s.nodesLimitExceeded

def reach (s : DagWalkState) (depth : Nat) : DagWalkState := { s with maxDepthReached := max s.maxDepthReached depth }

def enter (s : DagWalkState) (hash : NodeHash) : DagWalkState := { s with visited := insert hash s.visited }

/-- The counts of a node that was resolved: of its hash, of its local verification, and of its references. -/
def examine (s : DagWalkState) (sameHash accepted : Bool) (edges : Nat) : DagWalkState :=
  { s with
    hashMismatches := if sameHash then s.hashMismatches else s.hashMismatches + 1
    invalidNodes := if accepted then s.invalidNodes else s.invalidNodes + 1
    upstreamEdges := s.upstreamEdges + edges }

end DagWalkState

/-- A loop over the references of a node. -/
def walkEdges (visit : NodeHash → DagWalkState → Except String DagWalkState) :
    List EnvelopeRef → DagWalkState → Except String DagWalkState
  | [], s => .ok s
  | edge :: rest, s => if s.stopWalk then .ok s else (visit edge.envelopeHash s).bind (walkEdges visit rest)

section Walk

variable {P : Platform} (J : EnvelopeJson P) (resolve : NodeHash → Option (ProofEnvelope P))
  (options : ProvenanceDagVerifyOptions)

/-- `walk_provenance_ref`. The source pushes the hash on `path` before it goes through the references and pops it
afterwards. -/
def walkProvenanceRef (expectedHash : NodeHash) (depth : Nat) (path : List NodeHash) (s : DagWalkState) :
    Except String DagWalkState :=
  if s.stopWalk then .ok s
  else if depth > options.maxDepth then .ok { s with depthLimitExceeded := true, stopWalk := true }
  else if expectedHash ∈ path then .ok { s.reach depth with cycleDetected := true }
  else if expectedHash ∈ s.visited then .ok (s.reach depth)
  else
    let entered := (s.reach depth).enter expectedHash
    if entered.visited.card > options.maxNodes then
      .ok { entered with nodesLimitExceeded := true, stopWalk := true }
    else
      match resolve expectedHash with
      | none => .ok { entered with missingRefs := entered.missingRefs + 1 }
      | some envelope =>
        match envelope.provenanceHash J with
        | .error e => .error e
        | .ok actualHash =>
          if actualHash ≠ expectedHash ∧ options.failFastOnHashMismatch then
            .ok { entered with hashMismatches := entered.hashMismatches + 1, stopWalk := true }
          else
            let edges := canonicalUpstreamRefs envelope.upstreamEnvelopes
            walkEdges (fun hash => walkProvenanceRef hash (depth + 1) (path ++ [expectedHash])) edges
              (entered.examine (actualHash = expectedHash) envelope.verifyLocally.accepted edges.length)
termination_by options.maxDepth + 1 - depth

namespace ProofEnvelope

def verifyProvenanceDagWithOptions (root : ProofEnvelope P) : Except String ProvenanceDagVerification :=
  match root.provenanceHash J with
  | .error e => .error e
  | .ok rootHash =>
    let rootAccepted := root.verifyLocally.accepted
    (walkEdges (fun hash => walkProvenanceRef J resolve options hash 1 [rootHash])
        (canonicalUpstreamRefs root.upstreamEnvelopes) (.start root.upstreamEnvelopes.length)).map fun s =>
      { rootHash := hexEncode32 rootHash
        rootAccepted
        visitedNodes := s.visited.card + 1
        upstreamEdges := s.upstreamEdges
        maxDepthReached := s.maxDepthReached
        missingRefs := s.missingRefs
        hashMismatches := s.hashMismatches
        invalidNodes := s.invalidNodes
        cycleDetected := s.cycleDetected
        depthLimitExceeded := s.depthLimitExceeded
        nodesLimitExceeded := s.nodesLimitExceeded
        accepted := rootAccepted && s.unflagged }

def verifyProvenanceDag (maxDepth : Nat) (root : ProofEnvelope P) : Except String ProvenanceDagVerification :=
  root.verifyProvenanceDagWithOptions J resolve { ProvenanceDagVerifyOptions.default with maxDepth := maxDepth }

end ProofEnvelope

/-! ### The graph -/

variable (root : ProofEnvelope P) (rootHash : NodeHash)

/-- The envelope behind a hash: the root itself, or the one the resolver finds. -/
def lookup (hash : NodeHash) : Option (ProofEnvelope P) := if hash = rootHash then some root else resolve hash

/-- An edge from an envelope to one it was derived from. -/
def Upstream (a b : NodeHash) : Prop :=
  ∃ envelope, lookup resolve root rootHash a = some envelope ∧ ∃ r ∈ envelope.upstreamEnvelopes, r.envelopeHash = b

/-- The reference resolves to an envelope with its hash, which verifies locally. -/
def Resolves (hash : NodeHash) : Prop :=
  ∃ envelope, resolve hash = some envelope ∧ envelope.provenanceHash J = .ok hash ∧
    envelope.verifyLocally.accepted = true

/-- What the walk is there to establish, of the root and of all that is reached from it. -/
structure VerifiedDag : Prop where
  hash : root.provenanceHash J = .ok rootHash
  accepted : root.verifyLocally.accepted = true
  resolves : ∀ hash, TransGen (Upstream resolve root rootHash) rootHash hash → Resolves J resolve hash
  acyclic : Dag.AcyclicFrom (Upstream resolve root rootHash) rootHash

variable {J resolve options root rootHash}

theorem upstream_root {b : NodeHash} :
    Upstream resolve root rootHash rootHash b ↔ ∃ r ∈ root.upstreamEnvelopes, r.envelopeHash = b := by
  simp [Upstream, lookup]

theorem upstream_of_resolve {a b : NodeHash} {envelope : ProofEnvelope P} (hne : a ≠ rootHash)
    (hresolve : resolve a = some envelope) :
    Upstream resolve root rootHash a b ↔ ∃ r ∈ envelope.upstreamEnvelopes, r.envelopeHash = b := by
  simp [Upstream, lookup, hne, hresolve]

/-! ### One step of the walk -/

variable {s : DagWalkState}

namespace DagWalkState

theorem unflagged_iff : s.unflagged = true ↔ s.missingRefs = 0 ∧ s.hashMismatches = 0 ∧
    s.invalidNodes = 0 ∧ s.cycleDetected = false ∧ s.depthLimitExceeded = false ∧ s.nodesLimitExceeded = false := by
  simp [unflagged, and_assoc]

@[simp] theorem reach_unflagged (s : DagWalkState) (depth : Nat) : (s.reach depth).unflagged = s.unflagged := rfl

@[simp] theorem reach_stopWalk (s : DagWalkState) (depth : Nat) : (s.reach depth).stopWalk = s.stopWalk := rfl

@[simp] theorem reach_visited (s : DagWalkState) (depth : Nat) : (s.reach depth).visited = s.visited := rfl

@[simp] theorem enter_unflagged (s : DagWalkState) (hash : NodeHash) : (s.enter hash).unflagged = s.unflagged := rfl

@[simp] theorem enter_stopWalk (s : DagWalkState) (hash : NodeHash) : (s.enter hash).stopWalk = s.stopWalk := rfl

@[simp] theorem enter_visited (s : DagWalkState) (hash : NodeHash) :
    (s.enter hash).visited = insert hash s.visited := rfl

@[simp] theorem examine_stopWalk (s : DagWalkState) (sameHash accepted : Bool) (edges : Nat) :
    (s.examine sameHash accepted edges).stopWalk = s.stopWalk := rfl

@[simp] theorem examine_visited (s : DagWalkState) (sameHash accepted : Bool) (edges : Nat) :
    (s.examine sameHash accepted edges).visited = s.visited := rfl

theorem examine_unflagged (s : DagWalkState) (sameHash accepted : Bool) (edges : Nat) :
    (s.examine sameHash accepted edges).unflagged = (s.unflagged && sameHash && accepted) := by
  cases sameHash <;> cases accepted <;> simp [examine, unflagged]

end DagWalkState

/-- The references of a node are walked one level further down, with the node on the path. -/
abbrev visitBelow (J : EnvelopeJson P) (resolve : NodeHash → Option (ProofEnvelope P))
    (options : ProvenanceDagVerifyOptions) (depth : Nat) (path : List NodeHash) (expectedHash : NodeHash) :
    NodeHash → DagWalkState → Except String DagWalkState :=
  fun hash => walkProvenanceRef J resolve options hash (depth + 1) (path ++ [expectedHash])

variable {expectedHash : NodeHash} {path : List NodeHash}

/-- What happened in a visit that left no mark: the hash had been entered before, or its node was examined and the
references of the node were walked. -/
theorem walk_of_unflagged {depth : Nat} {s' : DagWalkState}
    (h : walkProvenanceRef J resolve options expectedHash depth path s = .ok s') (hgo : s.stopWalk = false)
    (hclear : s'.unflagged = true) :
    depth ≤ options.maxDepth ∧ expectedHash ∉ path ∧
      ((expectedHash ∈ s.visited ∧ s' = s.reach depth) ∨
        ∃ envelope actualHash, resolve expectedHash = some envelope ∧ envelope.provenanceHash J = .ok actualHash ∧
          walkEdges (visitBelow J resolve options depth path expectedHash)
            (canonicalUpstreamRefs envelope.upstreamEnvelopes)
            (((s.reach depth).enter expectedHash).examine (actualHash = expectedHash) envelope.verifyLocally.accepted
              (canonicalUpstreamRefs envelope.upstreamEnvelopes).length) = .ok s') := by
  have hmarked : ∀ {t : DagWalkState}, (Except.ok t : Except String DagWalkState) = .ok s' → t.unflagged = true := by
    intro t ht
    rw [Except.ok.inj ht]
    exact hclear
  rw [walkProvenanceRef, if_neg (by simp [hgo])] at h
  by_cases hdepth : depth > options.maxDepth
  · rw [if_pos hdepth] at h
    simpa using (DagWalkState.unflagged_iff.mp (hmarked h)).2.2.2.2.1
  rw [if_neg hdepth] at h
  by_cases hpath : expectedHash ∈ path
  · rw [if_pos hpath] at h
    simpa using (DagWalkState.unflagged_iff.mp (hmarked h)).2.2.2.1
  rw [if_neg hpath] at h
  refine ⟨Nat.le_of_not_lt hdepth, hpath, ?_⟩
  by_cases hvisited : expectedHash ∈ s.visited
  · rw [if_pos hvisited] at h
    exact .inl ⟨hvisited, (Except.ok.inj h).symm⟩
  rw [if_neg hvisited] at h
  dsimp only at h
  by_cases hcard : ((s.reach depth).enter expectedHash).visited.card > options.maxNodes
  · rw [if_pos hcard] at h
    simpa using (DagWalkState.unflagged_iff.mp (hmarked h)).2.2.2.2.2
  rw [if_neg hcard] at h
  cases hresolve : resolve expectedHash with
  | none =>
    rw [hresolve] at h
    simpa using (DagWalkState.unflagged_iff.mp (hmarked h)).1
  | some envelope =>
    rw [hresolve] at h
    dsimp only at h
    cases hhash : envelope.provenanceHash J with
    | error e =>
      rw [hhash] at h
      cases h
    | ok actualHash =>
      rw [hhash] at h
      dsimp only at h
      by_cases hfast : actualHash ≠ expectedHash ∧ options.failFastOnHashMismatch
      · rw [if_pos hfast] at h
        simpa using (DagWalkState.unflagged_iff.mp (hmarked h)).2.1
      · rw [if_neg hfast] at h
        exact .inr ⟨envelope, actualHash, rfl, hhash, h⟩

theorem walk_of_resolves {depth : Nat}
    {envelope : ProofEnvelope P} (hgo : s.stopWalk = false) (hdepth : depth ≤ options.maxDepth)
    (hpath : expectedHash ∉ path) (hvisited : expectedHash ∉ s.visited)
    (hcard : (insert expectedHash s.visited).card ≤ options.maxNodes) (hresolve : resolve expectedHash = some envelope)
    (hhash : envelope.provenanceHash J = .ok expectedHash) :
    walkProvenanceRef J resolve options expectedHash depth path s =
      walkEdges (visitBelow J resolve options depth path expectedHash)
        (canonicalUpstreamRefs envelope.upstreamEnvelopes)
        (((s.reach depth).enter expectedHash).examine true envelope.verifyLocally.accepted
          (canonicalUpstreamRefs envelope.upstreamEnvelopes).length) := by
  rw [walkProvenanceRef, if_neg (by simp [hgo]), if_neg (by omega), if_neg hpath, if_neg hvisited]
  dsimp only
  have hroom : ¬ ((s.reach depth).enter expectedHash).visited.card > options.maxNodes := Nat.not_lt.mpr hcard
  rw [if_neg hroom, hresolve]
  dsimp only
  rw [hhash]
  dsimp only
  rw [if_neg (by simp)]
  simp

theorem walk_of_visited {depth : Nat}
    (hgo : s.stopWalk = false) (hdepth : depth ≤ options.maxDepth) (hpath : expectedHash ∉ path)
    (hvisited : expectedHash ∈ s.visited) :
    walkProvenanceRef J resolve options expectedHash depth path s = .ok (s.reach depth) := by
  rw [walkProvenanceRef, if_neg (by simp [hgo]), if_neg (by omega), if_neg hpath, if_pos hvisited]

/-! ### Soundness

A hash that was entered and is no longer on the path is finished: it is grounded. A visit that leaves no mark keeps this
and grounds the node it visits.
-/

/-- The hash is not the root's, and it resolves. -/
def Passes (J : EnvelopeJson P) (resolve : NodeHash → Option (ProofEnvelope P)) (rootHash hash : NodeHash) : Prop :=
  hash ≠ rootHash ∧ Resolves J resolve hash

/-- The hash and all that is reached from it resolve, away from the root. -/
abbrev Finished (J : EnvelopeJson P) (resolve : NodeHash → Option (ProofEnvelope P)) (root : ProofEnvelope P)
    (rootHash : NodeHash) : NodeHash → Prop :=
  Dag.Grounded (Upstream resolve root rootHash) (Passes J resolve rootHash)

/-- What was entered is on the path or finished. -/
def Settled (J : EnvelopeJson P) (resolve : NodeHash → Option (ProofEnvelope P)) (root : ProofEnvelope P)
    (rootHash : NodeHash) (path : List NodeHash) (s : DagWalkState) : Prop :=
  ∀ hash ∈ s.visited, hash ∈ path ∨ Finished J resolve root rootHash hash

/-- A stretch of the walk from `s` to `s'` that left no mark did not stop, started without one, and finished the hashes
it was for. -/
structure Finishes (J : EnvelopeJson P) (resolve : NodeHash → Option (ProofEnvelope P)) (root : ProofEnvelope P)
    (rootHash : NodeHash) (path : List NodeHash) (s s' : DagWalkState) (hashes : List NodeHash) : Prop where
  goes : s'.stopWalk = false
  clear : s.unflagged = true
  settled : Settled J resolve root rootHash path s → Settled J resolve root rootHash path s'
  finished : Settled J resolve root rootHash path s → ∀ hash ∈ hashes, Finished J resolve root rootHash hash

variable (J resolve root rootHash) in
theorem walkEdges_finishes {visit : NodeHash → DagWalkState → Except String DagWalkState} (path : List NodeHash)
    (hvisit : ∀ hash s s', visit hash s = .ok s' → s.stopWalk = false → s'.unflagged = true →
      Finishes J resolve root rootHash path s s' [hash])
    (edges : List EnvelopeRef) (s s' : DagWalkState) (h : walkEdges visit edges s = .ok s') (hgo : s.stopWalk = false)
    (hclear : s'.unflagged = true) :
    Finishes J resolve root rootHash path s s' (edges.map (·.envelopeHash)) := by
  induction edges generalizing s with
  | nil =>
    rw [walkEdges, Except.ok.injEq] at h
    subst h
    exact ⟨hgo, hclear, id, by simp⟩
  | cons edge rest ih =>
    rw [walkEdges, if_neg (by simp [hgo])] at h
    cases hfirst : visit edge.envelopeHash s with
    | error e =>
      rw [hfirst] at h
      cases h
    | ok t =>
      rw [hfirst] at h
      have hrest : walkEdges visit rest t = .ok s' := h
      -- a loop that stopped here would end in a marked state
      have htgo : t.stopWalk = false := by
        by_contra hstop
        rw [Bool.not_eq_false] at hstop
        have hsame : t = s' := by
          cases rest with
          | nil => exact Except.ok.inj hrest
          | cons next more =>
            rw [walkEdges, if_pos hstop] at hrest
            exact Except.ok.inj hrest
        rw [hsame] at hfirst hstop
        rw [(hvisit _ _ _ hfirst hgo hclear).goes] at hstop
        cases hstop
      have hlater := ih t hrest htgo
      have hhere := hvisit _ _ _ hfirst hgo hlater.clear
      refine ⟨hlater.goes, hhere.clear, fun hs => hlater.settled (hhere.settled hs), fun hs hash hmem => ?_⟩
      obtain rfl | hmem := List.mem_cons.mp hmem
      · exact hhere.finished hs _ List.mem_cons_self
      · exact hlater.finished (hhere.settled hs) hash hmem

theorem walk_finishes (expectedHash : NodeHash) (depth : Nat) (path : List NodeHash) (s s' : DagWalkState)
    (hroot : rootHash ∈ path) (h : walkProvenanceRef J resolve options expectedHash depth path s = .ok s')
    (hgo : s.stopWalk = false) (hclear : s'.unflagged = true) :
    Finishes J resolve root rootHash path s s' [expectedHash] := by
  induction hn : options.maxDepth + 1 - depth generalizing expectedHash depth path s s' with
  | zero =>
    have hdepth := (walk_of_unflagged h hgo hclear).1
    omega
  | succ n ih =>
    obtain ⟨hdepth, hpath, ⟨hvisited, rfl⟩ | ⟨envelope, actualHash, hresolve, hhash, hwalk⟩⟩ :=
      walk_of_unflagged h hgo hclear
    · refine ⟨hgo, hclear, id, fun hs hash hmem => ?_⟩
      rw [List.mem_singleton.mp hmem]
      exact (hs expectedHash hvisited).resolve_left hpath
    · have hbelow := walkEdges_finishes J resolve root rootHash (path ++ [expectedHash])
        (fun hash t t' ht htgo htclear => ih hash (depth + 1) (path ++ [expectedHash]) t t'
          (List.mem_append_left _ hroot) ht htgo htclear (by omega))
        _ _ _ hwalk hgo hclear
      have hfirst := hbelow.clear
      rw [DagWalkState.examine_unflagged, Bool.and_eq_true, Bool.and_eq_true, decide_eq_true_eq] at hfirst
      obtain ⟨⟨hbefore, rfl⟩, haccepted⟩ := hfirst
      have hentered : Settled J resolve root rootHash path s → Settled J resolve root rootHash (path ++ [actualHash])
          (((s.reach depth).enter actualHash).examine (actualHash = actualHash) envelope.verifyLocally.accepted
            (canonicalUpstreamRefs envelope.upstreamEnvelopes).length) := by
        intro hs hash hmem
        obtain rfl | hmem := Finset.mem_insert.mp hmem
        · exact .inl (by simp)
        · exact (hs hash hmem).imp_left (List.mem_append_left _)
      have hne : actualHash ≠ rootHash := by
        rintro rfl
        exact hpath hroot
      have hnode : Settled J resolve root rootHash path s → Finished J resolve root rootHash actualHash := by
        intro hs
        refine .intro actualHash ⟨hne, envelope, hresolve, hhash, haccepted⟩ fun b hb => ?_
        obtain ⟨r, hr, rfl⟩ := (upstream_of_resolve hne hresolve).mp hb
        exact hbelow.finished (hentered hs) _ (List.mem_map_of_mem (mem_canonicalUpstreamRefs.mpr hr))
      refine ⟨hbelow.goes, hbefore, fun hs hash hmem => ?_, fun hs hash hmem => ?_⟩
      · obtain hon | hdone := hbelow.settled (hentered hs) hash hmem
        · obtain hon | hon := List.mem_append.mp hon
          · exact .inl hon
          · rw [List.mem_singleton.mp hon]
            exact .inr (hnode hs)
        · exact .inr hdone
      · rw [List.mem_singleton.mp hmem]
        exact hnode hs

/-! ### Completeness

In a verified graph that fits the limits no visit leaves a mark: the walk enters only hashes that are reached, and its
path is a path of the graph.
-/

/-- The walk goes on, nothing wrong was seen, and only hashes that are reached were entered. -/
structure Unmarked (resolve : NodeHash → Option (ProofEnvelope P)) (root : ProofEnvelope P) (rootHash : NodeHash)
    (s : DagWalkState) : Prop where
  goes : s.stopWalk = false
  clear : s.unflagged = true
  reached : ∀ hash ∈ s.visited, TransGen (Upstream resolve root rootHash) rootHash hash

variable (resolve root rootHash) in
theorem walkEdges_unmarked (visit : NodeHash → DagWalkState → Except String DagWalkState) (edges : List EnvelopeRef)
    (hvisit : ∀ edge ∈ edges, ∀ s, Unmarked resolve root rootHash s →
      ∃ s', visit edge.envelopeHash s = .ok s' ∧ Unmarked resolve root rootHash s')
    (s : DagWalkState) (hs : Unmarked resolve root rootHash s) :
    ∃ s', walkEdges visit edges s = .ok s' ∧ Unmarked resolve root rootHash s' := by
  induction edges generalizing s with
  | nil => exact ⟨s, rfl, hs⟩
  | cons edge rest ih =>
    obtain ⟨t, hfirst, ht⟩ := hvisit edge List.mem_cons_self s hs
    obtain ⟨s', hrest, hs'⟩ := ih (fun next hnext => hvisit next (List.mem_cons_of_mem _ hnext)) t ht
    refine ⟨s', ?_, hs'⟩
    rw [walkEdges, if_neg (by simp [hs.goes]), hfirst]
    exact hrest

theorem walk_unmarked (hdag : VerifiedDag J resolve root rootHash)
    (hnodes : {hash | TransGen (Upstream resolve root rootHash) rootHash hash}.encard ≤ options.maxNodes)
    (hpaths : Dag.PathsWithin (Upstream resolve root rootHash) rootHash options.maxDepth) (expectedHash : NodeHash)
    (trail : List NodeHash)
    (hchain : List.IsChain (Upstream resolve root rootHash) (rootHash :: trail ++ [expectedHash])) (s : DagWalkState)
    (hs : Unmarked resolve root rootHash s) :
    ∃ s', walkProvenanceRef J resolve options expectedHash (trail.length + 1) (rootHash :: trail) s = .ok s' ∧
      Unmarked resolve root rootHash s' := by
  have hdepth : trail.length + 1 ≤ options.maxDepth := by
    have hlen := hpaths (trail ++ [expectedHash]) hchain
    rwa [List.length_append] at hlen
  have hpath := Dag.not_mem_of_chain hdag.acyclic hchain
  have hreached := Dag.transGen_of_chain hchain List.mem_cons_self
  by_cases hvisited : expectedHash ∈ s.visited
  · exact ⟨_, walk_of_visited hs.goes hdepth hpath hvisited, hs.goes, hs.clear, hs.reached⟩
  obtain ⟨envelope, hresolve, hhash, haccepted⟩ := hdag.resolves expectedHash hreached
  have hentered : ∀ hash ∈ insert expectedHash s.visited,
      TransGen (Upstream resolve root rootHash) rootHash hash := by
    intro hash hmem
    obtain rfl | hmem := Finset.mem_insert.mp hmem
    · exact hreached
    · exact hs.reached hash hmem
  have hcard : (insert expectedHash s.visited).card ≤ options.maxNodes := by
    have hsub : ((insert expectedHash s.visited : Finset NodeHash) : Set NodeHash).encard ≤ options.maxNodes :=
      (Set.encard_le_encard fun hash hmem => hentered hash hmem).trans hnodes
    rwa [Set.encard_coe_eq_coe_finsetCard, Nat.cast_le] at hsub
  rw [walk_of_resolves hs.goes hdepth hpath hvisited hcard hresolve hhash]
  have hne : expectedHash ≠ rootHash := fun heq => hpath (heq ▸ List.mem_cons_self)
  refine walkEdges_unmarked _ _ _ _ _ (fun edge hedge t ht => ?_) _ ⟨hs.goes, ?_, hentered⟩
  · have hnext : Upstream resolve root rootHash expectedHash edge.envelopeHash :=
      (upstream_of_resolve hne hresolve).mpr ⟨edge, mem_canonicalUpstreamRefs.mp hedge, rfl⟩
    have hbelow := walk_unmarked hdag hnodes hpaths edge.envelopeHash (trail ++ [expectedHash])
      (Dag.isChain_snoc hchain hnext) t ht
    rwa [List.length_append] at hbelow
  · rw [DagWalkState.examine_unflagged, haccepted]
    simpa using hs.clear
termination_by options.maxDepth - trail.length
decreasing_by
  rw [List.length_append, List.length_singleton]
  omega

/-- **Provenance verification decides the graph.** What is accepted is a verified graph, and a verified graph within the
limits is accepted. -/
theorem ProofEnvelope.verifyProvenanceDag_sound_complete (J : EnvelopeJson P)
    (resolve : NodeHash → Option (ProofEnvelope P)) (options : ProvenanceDagVerifyOptions) (root : ProofEnvelope P) :
    (∀ r, root.verifyProvenanceDagWithOptions J resolve options = .ok r → r.accepted = true →
      ∃ rootHash, VerifiedDag J resolve root rootHash) ∧
    (∀ rootHash, VerifiedDag J resolve root rootHash →
      {hash | TransGen (Upstream resolve root rootHash) rootHash hash}.encard ≤ options.maxNodes →
      Dag.PathsWithin (Upstream resolve root rootHash) rootHash options.maxDepth →
      ∃ r, root.verifyProvenanceDagWithOptions J resolve options = .ok r ∧ r.accepted = true) := by
  constructor
  · intro r hr haccepted
    unfold verifyProvenanceDagWithOptions at hr
    cases hhash : root.provenanceHash J with
    | error e =>
      rw [hhash] at hr
      cases hr
    | ok rootHash =>
      rw [hhash] at hr
      dsimp only at hr
      cases hwalk : walkEdges (fun hash => walkProvenanceRef J resolve options hash 1 [rootHash])
          (canonicalUpstreamRefs root.upstreamEnvelopes) (.start root.upstreamEnvelopes.length) with
      | error e =>
        rw [hwalk] at hr
        cases hr
      | ok s =>
        rw [hwalk] at hr
        rw [← Except.ok.inj hr] at haccepted
        obtain ⟨hroot, hclear⟩ := Bool.and_eq_true_iff.mp haccepted
        have hfinishes := walkEdges_finishes J resolve root rootHash [rootHash]
          (fun hash t t' ht htgo htclear =>
            walk_finishes hash 1 [rootHash] t t' List.mem_cons_self ht htgo htclear)
          _ _ _ hwalk rfl hclear
        have hnext : ∀ b, Upstream resolve root rootHash rootHash b → Finished J resolve root rootHash b := by
          intro b hb
          obtain ⟨reference, href, rfl⟩ := upstream_root.mp hb
          exact hfinishes.finished (fun hash hmem => absurd hmem (Finset.notMem_empty hash)) _
            (List.mem_map_of_mem (mem_canonicalUpstreamRefs.mpr href))
        obtain ⟨hacyclic, hpasses⟩ := Dag.acyclicFrom_of_grounded (fun a ha => ha.1) hnext
        exact ⟨rootHash, hhash, hroot, fun hash hreached => (hpasses hash hreached).2, hacyclic⟩
  · intro rootHash hdag hnodes hpaths
    obtain ⟨s, hwalk, hs⟩ := walkEdges_unmarked resolve root rootHash
      (fun hash => walkProvenanceRef J resolve options hash 1 [rootHash])
      (canonicalUpstreamRefs root.upstreamEnvelopes)
      (fun edge hedge t ht => walk_unmarked hdag hnodes hpaths edge.envelopeHash []
        (List.isChain_pair.mpr (upstream_root.mpr ⟨edge, mem_canonicalUpstreamRefs.mp hedge, rfl⟩)) t ht)
      (.start root.upstreamEnvelopes.length) ⟨rfl, rfl, fun hash hmem => absurd hmem (Finset.notMem_empty hash)⟩
    unfold verifyProvenanceDagWithOptions
    rw [hdag.hash]
    dsimp only
    rw [hwalk]
    exact ⟨_, rfl, Bool.and_eq_true_iff.mpr ⟨hdag.accepted, hs.clear⟩⟩

end Walk

/-! ### Two envelopes -/

/-- An encoder to compute with: the object with the key alone. -/
def EnvelopeJson.reference : EnvelopeJson Platform.reference where
  toVec input := .ok (Text.utf8 ("\x7b\"key\":\"" ++ (input.key ++ "\"\x7d")))

def referenceHash (key : String) : NodeHash :=
  Platform.reference.sha256 (Text.utf8 provenanceHashDomain ++ [0] ++
    Text.utf8 ("\x7b\"key\":\"" ++ (key ++ "\"\x7d")))

theorem referenceHash_getElem_two (key : String) (b : UInt8) (hkey : Text.utf8 key = [b]) :
    (referenceHash key)[2] = b := by
  have hend : Text.utf8 "\"\x7d" = [34, 125] := by decide
  unfold referenceHash
  rw [Text.utf8_append, Text.utf8_append, hkey, hend]
  simp [Platform.reference, Reference.digest]

def leafEnvelope : ProofEnvelope .reference := { ProofEnvelope.ofFive (.integer 5) with key := "a" }

def derivedEnvelope : ProofEnvelope .reference :=
  { ProofEnvelope.ofFive (.integer 5) with
    key := "b"
    upstreamEnvelopes := [⟨referenceHash "a", some "a", some 1⟩] }

def resolveLeaf (hash : NodeHash) : Option (ProofEnvelope .reference) :=
  if hash = referenceHash "a" then some leafEnvelope else none

theorem referenceHash_ne : referenceHash "a" ≠ referenceHash "b" := by
  intro h
  have hthird := congrArg (·[2]) h
  simp only [referenceHash_getElem_two "a" 97 (by decide),
    referenceHash_getElem_two "b" 98 (by decide)] at hthird
  exact absurd hthird (by decide)

theorem upstream_two_iff (x y : NodeHash) :
    Upstream resolveLeaf derivedEnvelope (referenceHash "b") x y ↔ x = referenceHash "b" ∧ y = referenceHash "a" := by
  constructor
  · rintro ⟨envelope, hlookup, reference, href, rfl⟩
    unfold lookup at hlookup
    split_ifs at hlookup with hroot
    · rw [← Option.some.inj hlookup] at href
      exact ⟨hroot, by rw [List.mem_singleton.mp href]⟩
    · unfold resolveLeaf at hlookup
      split_ifs at hlookup
      rw [← Option.some.inj hlookup] at href
      cases href
  · rintro ⟨rfl, rfl⟩
    exact upstream_root.mpr ⟨_, List.mem_singleton_self _, rfl⟩

theorem reached_two {x y : NodeHash}
    (h : TransGen (Upstream resolveLeaf derivedEnvelope (referenceHash "b")) x y) :
    x = referenceHash "b" ∧ y = referenceHash "a" := by
  induction h with
  | single hedge => exact (upstream_two_iff _ _).mp hedge
  | tail _ hedge ih => exact absurd (ih.2.symm.trans ((upstream_two_iff _ _).mp hedge).1) referenceHash_ne

theorem verifiedDag_two : VerifiedDag .reference resolveLeaf derivedEnvelope (referenceHash "b") where
  hash := rfl
  accepted := by
    refine (ProofEnvelope.accepted_iff _).mpr ⟨rfl, rfl, ?_, ?_⟩
    · exact ((ProofEnvelope.accepted_iff _).mp (ProofEnvelope.ofFive_accepted (.integer 5))).2.2.1
    · refine (validateUpstreamRefs_ok_iff _).mpr ⟨fun r hr => ?_, List.nodup_singleton _⟩
      rw [List.mem_singleton.mp hr]
      intro hzero
      have hthird := congrArg (·[2]) hzero
      simp only [referenceHash_getElem_two "a" 97 (by decide)] at hthird
      exact absurd hthird (by decide)
  resolves hash h := by
    rw [(reached_two h).2]
    exact ⟨leafEnvelope, if_pos rfl, rfl, ProofEnvelope.ofFive_accepted (.integer 5)⟩
  acyclic a _ hcycle := referenceHash_ne ((reached_two hcycle).2.symm.trans (reached_two hcycle).1)

theorem verifyProvenanceDag_two : ∃ r, derivedEnvelope.verifyProvenanceDagWithOptions .reference resolveLeaf .default =
    .ok r ∧ r.accepted = true := by
  refine (ProofEnvelope.verifyProvenanceDag_sound_complete .reference resolveLeaf .default derivedEnvelope).2
    (referenceHash "b") verifiedDag_two ?_ fun path hpath => ?_
  · refine (Set.encard_le_encard (t := {referenceHash "a"}) fun hash h => (reached_two h).2).trans ?_
    rw [Set.encard_singleton]
    decide
  · cases path with
    | nil => exact Nat.zero_le _
    | cons first rest =>
      cases rest with
      | nil => exact Nat.succ_le_of_lt (show 0 < 64 by decide)
      | cons second rest =>
        obtain ⟨hfirst, htail⟩ := List.isChain_cons_cons.mp hpath
        have hsecond := (List.isChain_cons_cons.mp htail).1
        exact absurd (((upstream_two_iff _ _).mp hfirst).2.symm.trans ((upstream_two_iff _ _).mp hsecond).1)
          referenceHash_ne

end AgentHalo.Pod
