import AgentHalo.Lib.Run
import AgentHalo.Pod.Capability

/-!
# Revocation

The store appends every token it is given and revokes the first one with an id. What is revoked no longer verifies; a
second token with the same id stays as it was. So revocation takes the authority of an id away exactly when no token
with the id after the first can still verify (`SpentAfterFirst`), and in particular as long as no id enters the store
twice (`Fresh`), which two of the callers of `create` check and the others do not.
-/

namespace AgentHalo.Pod

/-! ### The store -/

/-- The file of a store: its path, the directory it is in and the file it is first written to. -/
structure StorePath where
  path : String
  parent : Option String
  tmp : String

/-- What the operating system answers to the steps of a save. -/
structure SaveAnswers where
  createDirAll : Except String Unit
  writeTmp : Except String Unit
  chmodTmp : Except String Unit
  rename : Except String Unit
  chmod : Except String Unit

namespace CapabilityStore

def new : CapabilityStore := ⟨[]⟩

def create (store : CapabilityStore) (token : CapabilityToken) : CapabilityStore := ⟨store.tokens ++ [token]⟩

/-- The loop of `revoke`. -/
def revokeIn (tokenId : NodeHash) : List CapabilityToken → List CapabilityToken × Bool
  | [] => ([], false)
  | token :: rest =>
    if token.tokenId = tokenId then ({ token with revoked := true } :: rest, true)
    else
      let (rest, found) := revokeIn tokenId rest
      (token :: rest, found)

def revoke (store : CapabilityStore) (tokenId : NodeHash) : CapabilityStore × Bool :=
  let (tokens, found) := revokeIn tokenId store.tokens
  (⟨tokens⟩, found)

def listActive {P : Platform} (C : DidCodec P) (J : CapabilityJson) (store : CapabilityStore) (now : UInt64) :
    List CapabilityToken := store.tokens.filter fun token => (verifyCapability C J token now).isOk

/-- The outcome of a save and what the file holds afterwards; `none` is no file. The rename is what replaces it. -/
def save (J : CapabilityJson) (at_ : StorePath) (os : SaveAnswers) (file : Option Bytes) (store : CapabilityStore) :
    Except String Unit × Option Bytes :=
  match (if at_.parent.isSome then os.createDirAll else .ok ()) with
  | .error e => (.error ("create capability store dir " ++ at_.parent.getD "" ++ ": " ++ e), file)
  | .ok () =>
    match J.storeToVecPretty store with
    | .error e => (.error ("serialize capability store " ++ at_.path ++ ": " ++ e), file)
    | .ok raw =>
      match os.writeTmp with
      | .error e => (.error ("write temp capability store " ++ at_.tmp ++ ": " ++ e), file)
      | .ok () =>
        match os.chmodTmp with
        | .error e => (.error ("chmod temp capability store " ++ at_.tmp ++ ": " ++ e), file)
        | .ok () =>
          match os.rename with
          | .error e => (.error ("rename capability store " ++ at_.tmp ++ " -> " ++ at_.path ++ ": " ++ e), file)
          | .ok () => (os.chmod.mapError fun e => "chmod capability store " ++ at_.path ++ ": " ++ e, some raw)

/-- `read` is the error of reading the file, when there is one. -/
def loadOrDefault (J : CapabilityJson) (at_ : StorePath) (read : Option String) (file : Option Bytes) :
    Except String CapabilityStore :=
  match file with
  | none => .ok new
  | some raw =>
    match read with
    | some e => .error ("read capability store " ++ at_.path ++ ": " ++ e)
    | none => (J.storeFromSlice raw).mapError fun e => "parse capability store " ++ at_.path ++ ": " ++ e

end CapabilityStore

/-- Stores read back as they were written. -/
def CapabilityJson.RoundTrips (J : CapabilityJson) : Prop :=
  ∀ store raw, J.storeToVecPretty store = .ok raw → J.storeFromSlice raw = .ok store

/-! ### Runs -/

/-- A store in memory and its file. -/
structure StoreWorld where
  store : CapabilityStore
  file : Option Bytes

inductive StoreOp where
  | create (token : CapabilityToken)
  | revoke (tokenId : NodeHash)
  | save (os : SaveAnswers)
  | load (read : Option String)

namespace StoreWorld

def start : StoreWorld := ⟨.new, none⟩

variable (J : CapabilityJson) (at_ : StorePath)

/-- A load that fails leaves the caller with the store it had. -/
def step (w : StoreWorld) : StoreOp → StoreWorld
  | .create token => { w with store := w.store.create token }
  | .revoke tokenId => { w with store := (w.store.revoke tokenId).1 }
  | .save os => { w with file := (w.store.save J at_ os w.file).2 }
  | .load read =>
    match CapabilityStore.loadOrDefault J at_ read w.file with
    | .ok store => { w with store := store }
    | .error _ => w

/-- A token that is created has an id that the store does not hold. -/
def Fresh (w : StoreWorld) : StoreOp → Prop
  | .create token => ∀ held ∈ w.store.tokens, held.tokenId ≠ token.tokenId
  | _ => True

end StoreWorld

open CapabilityStore (loadOrDefault revokeIn revoke)

/-! ### What revoking does -/

section Revoking

variable {P : Platform} {C : DidCodec P} {J : CapabilityJson} {at_ : StorePath}

/-- No token with the id is listed as active, and no tool call is authorized by one. -/
structure Revoked (C : DidCodec P) (J : CapabilityJson) (store : CapabilityStore) (tokenId : NodeHash) : Prop where
  inactive : ∀ now, ∀ token ∈ store.listActive C J now, token.tokenId ≠ tokenId
  unauthorized : ∀ senderDid toolName now, storeAuthorizesToolCall C J store senderDid toolName now = true →
    ∃ token ∈ store.tokens, token.tokenId ≠ tokenId ∧ tokenAuthorizesToolCall C J token senderDid toolName now = true

/-- Of the tokens with the id, those after the first verify at no time. -/
def SpentAfterFirst (C : DidCodec P) (J : CapabilityJson) (store : CapabilityStore) (tokenId : NodeHash) : Prop :=
  ∀ token ∈ (store.tokens.filter (·.tokenId = tokenId)).tail, ∀ now, (verifyCapability C J token now).isOk = false

theorem revokeIn_cases (tokenId : NodeHash) (tokens : List CapabilityToken) :
    (revokeIn tokenId tokens = (tokens, false) ∧ ∀ token ∈ tokens, token.tokenId ≠ tokenId) ∨
      ∃ before token after, tokens = before ++ token :: after ∧ token.tokenId = tokenId ∧
        (∀ other ∈ before, other.tokenId ≠ tokenId) ∧
        revokeIn tokenId tokens = (before ++ { token with revoked := true } :: after, true) := by
  induction tokens with
  | nil => exact .inl ⟨rfl, by simp⟩
  | cons token rest ih =>
    by_cases hid : token.tokenId = tokenId
    · refine .inr ⟨[], token, rest, rfl, hid, by simp, ?_⟩
      rw [revokeIn, if_pos hid]
      rfl
    obtain ⟨hnone, hothers⟩ | ⟨before, found, after, hrest, hfound, hbefore, hrun⟩ := ih
    · refine .inl ⟨?_, List.forall_mem_cons.mpr ⟨hid, hothers⟩⟩
      rw [revokeIn, if_neg hid, hnone]
    · refine .inr ⟨token :: before, found, after, by rw [hrest]; rfl, hfound,
        List.forall_mem_cons.mpr ⟨hid, hbefore⟩, ?_⟩
      rw [revokeIn, if_neg hid, hrun]
      rfl

theorem revoke_eq_false_iff (store : CapabilityStore) (tokenId : NodeHash) :
    (store.revoke tokenId).2 = false ↔ ∀ token ∈ store.tokens, token.tokenId ≠ tokenId := by
  unfold revoke
  obtain ⟨hrun, hothers⟩ | ⟨before, token, after, htokens, hid, -, hrun⟩ := revokeIn_cases tokenId store.tokens
  · rw [hrun]
    exact iff_of_true rfl hothers
  · rw [hrun]
    refine iff_of_false (by simp) fun hothers => hothers token ?_ hid
    rw [htokens]
    simp

theorem revoke_tokenIds (store : CapabilityStore) (tokenId : NodeHash) :
    (store.revoke tokenId).1.tokens.map (·.tokenId) = store.tokens.map (·.tokenId) := by
  unfold revoke
  obtain ⟨hrun, -⟩ | ⟨before, token, after, htokens, -, -, hrun⟩ := revokeIn_cases tokenId store.tokens
  · rw [hrun]
  · rw [hrun, htokens]
    simp

variable {token : CapabilityToken} {store : CapabilityStore}

theorem verifyCapability_isOk_of_revoked (hrevoked : token.revoked = true) (now : UInt64) :
    (verifyCapability C J token now).isOk = false := by
  cases hverify : verifyCapability C J token now with
  | error e => rfl
  | ok u =>
    have hlive := ((verifyCapability_ok_iff C J token now).mp hverify).2.1
    rw [hrevoked] at hlive
    cases hlive

theorem verifies_of_authorizes {senderDid toolName : String} {now : UInt64}
    (h : tokenAuthorizesToolCall C J token senderDid toolName now = true) :
    (verifyCapability C J token now).isOk = true := by
  unfold tokenAuthorizesToolCall at h
  simp only [Bool.and_eq_true] at h
  exact h.1.1

theorem revoked_iff (store : CapabilityStore) (tokenId : NodeHash) : Revoked C J store tokenId ↔
    ∀ token ∈ store.tokens, token.tokenId = tokenId → ∀ now, (verifyCapability C J token now).isOk = false := by
  constructor
  · intro h token htoken hid now
    by_contra hlive
    rw [Bool.not_eq_false] at hlive
    exact h.inactive now token (List.mem_filter.mpr ⟨htoken, hlive⟩) hid
  · intro h
    refine ⟨fun now token hactive hid => ?_, fun senderDid toolName now hauthorizes => ?_⟩
    · obtain ⟨htoken, hlive⟩ := List.mem_filter.mp hactive
      rw [h token htoken hid now] at hlive
      cases hlive
    · obtain ⟨token, htoken, hauthorized⟩ := List.any_eq_true.mp hauthorizes
      refine ⟨token, htoken, fun hid => ?_, hauthorized⟩
      have hlive := verifies_of_authorizes hauthorized
      rw [h token htoken hid now] at hlive
      cases hlive

/-- **One revocation**: it takes the id's authority away exactly when the later tokens with the id have none. -/
theorem revoked_revoke_iff {tokenId : NodeHash} (hfound : (store.revoke tokenId).2 = true) :
    Revoked C J (store.revoke tokenId).1 tokenId ↔ SpentAfterFirst C J store tokenId := by
  rw [revoked_iff]
  unfold revoke at hfound ⊢
  obtain ⟨hrun, -⟩ | ⟨before, token, after, htokens, hid, hbefore, hrun⟩ := revokeIn_cases tokenId store.tokens
  · rw [hrun] at hfound
    cases hfound
  rw [hrun]
  have htail : (store.tokens.filter (·.tokenId = tokenId)).tail = after.filter (·.tokenId = tokenId) := by
    have hnone : before.filter (·.tokenId = tokenId) = [] := List.filter_eq_nil_iff.mpr (by simpa using hbefore)
    rw [htokens, List.filter_append, hnone, List.nil_append, List.filter_cons_of_pos (by simpa using hid), List.tail_cons]
  unfold SpentAfterFirst
  rw [htail]
  constructor
  · intro h later hlater now
    obtain ⟨hmem, hsame⟩ := List.mem_filter.mp hlater
    exact h later (by simp [hmem]) (of_decide_eq_true hsame) now
  · intro h other hother hsame now
    obtain hother | hother := List.mem_append.mp hother
    · exact absurd hsame (hbefore other hother)
    obtain rfl | hother := List.mem_cons.mp hother
    · exact verifyCapability_isOk_of_revoked rfl now
    · exact h other (List.mem_filter.mpr ⟨hother, decide_eq_true hsame⟩) now

/-! ### Runs with fresh ids -/

/-- No id occurs twice, in memory or in what the file reads back as. -/
structure Distinct (J : CapabilityJson) (w : StoreWorld) : Prop where
  store : (w.store.tokens.map (·.tokenId)).Nodup
  file : ∀ raw store, w.file = some raw → J.storeFromSlice raw = .ok store → (store.tokens.map (·.tokenId)).Nodup

theorem distinct_start : Distinct J .start := ⟨List.nodup_nil, fun _ _ h => by cases h⟩

variable (J at_) in
theorem save_file (os : SaveAnswers) (file : Option Bytes) (store : CapabilityStore) :
    (store.save J at_ os file).2 = file ∨
      ∃ raw, J.storeToVecPretty store = .ok raw ∧ (store.save J at_ os file).2 = some raw := by
  unfold CapabilityStore.save
  split
  · exact .inl rfl
  · cases hraw : J.storeToVecPretty store with
    | error e => exact .inl rfl
    | ok raw =>
      dsimp only
      split
      · exact .inl rfl
      · split
        · exact .inl rfl
        · split
          · exact .inl rfl
          · exact .inr ⟨raw, rfl, rfl⟩

theorem loadOrDefault_ok {read : Option String} {file : Option Bytes}
    (h : loadOrDefault J at_ read file = .ok store) :
    store = .new ∨ ∃ raw, file = some raw ∧ J.storeFromSlice raw = .ok store := by
  unfold loadOrDefault at h
  cases file with
  | none => exact .inl (Except.ok.inj h).symm
  | some raw =>
    cases read with
    | some e => cases h
    | none => exact .inr ⟨raw, rfl, mapError_eq_ok.mp h⟩

variable (at_) in
theorem distinct_step (hjson : J.RoundTrips) (w : StoreWorld) (op : StoreOp) (hw : Distinct J w) (hfresh : w.Fresh op) :
    Distinct J (w.step J at_ op) := by
  cases op with
  | create token =>
    refine ⟨?_, hw.file⟩
    have hnew : token.tokenId ∉ w.store.tokens.map (·.tokenId) := by
      intro hmem
      obtain ⟨held, hheld, hid⟩ := List.mem_map.mp hmem
      exact hfresh held hheld hid
    simp only [StoreWorld.step, CapabilityStore.create, List.map_append, List.map_cons, List.map_nil]
    exact List.nodup_append.mpr ⟨hw.store, List.nodup_singleton _, fun a ha b hb => by
      rintro rfl
      exact hnew (List.mem_singleton.mp hb ▸ ha)⟩
  | revoke tokenId =>
    refine ⟨?_, hw.file⟩
    have hids := revoke_tokenIds w.store tokenId
    exact hids ▸ hw.store
  | save os =>
    refine ⟨hw.store, fun raw store hfile hread => ?_⟩
    obtain hsame | ⟨written, hwritten, hsaved⟩ := save_file J at_ os w.file w.store
    · exact hw.file raw store (hsame.symm.trans hfile) hread
    · obtain rfl := Option.some.inj (hsaved.symm.trans hfile)
      obtain rfl := Except.ok.inj ((hjson w.store written hwritten).symm.trans hread)
      exact hw.store
  | load read =>
    cases hload : loadOrDefault J at_ read w.file with
    | error e =>
      have hstep : w.step J at_ (.load read) = w := by simp only [StoreWorld.step, hload]
      rw [hstep]
      exact hw
    | ok store =>
      have hstep : w.step J at_ (.load read) = { w with store := store } := by simp only [StoreWorld.step, hload]
      rw [hstep]
      refine ⟨?_, hw.file⟩
      obtain rfl | ⟨raw, hfile, hread⟩ := loadOrDefault_ok hload
      · exact List.nodup_nil
      · exact hw.file raw store hfile hread

theorem spentAfterFirst_of_nodup (h : (store.tokens.map (·.tokenId)).Nodup) (tokenId : NodeHash) :
    SpentAfterFirst C J store tokenId := by
  have hlen : (store.tokens.filter (·.tokenId = tokenId)).length ≤ 1 := by
    have hcount := List.nodup_iff_count_le_one.mp h tokenId
    rw [List.count_eq_countP, List.countP_map, List.countP_eq_length_filter] at hcount
    have hsame : store.tokens.filter (·.tokenId = tokenId) =
        store.tokens.filter ((· == tokenId) ∘ fun token => token.tokenId) := by
      refine List.filter_congr fun token _ => ?_
      simp [Function.comp, beq_eq_decide]
    rw [hsame]
    exact hcount
  intro token htoken
  have hnone : (store.tokens.filter (·.tokenId = tokenId)).tail = [] := by
    rw [← List.length_eq_zero_iff, List.length_tail]
    omega
  rw [hnone] at htoken
  cases htoken

/-- **Revocation in every run.** A revocation that reports no token is right. One that reports a token takes the
authority of the id away exactly when the later tokens with the id have none; and it does so in every run whose tokens
enter the store with fresh ids. -/
theorem revocation_effective_iff (C : DidCodec P) (J : CapabilityJson) (hjson : J.RoundTrips) (at_ : StorePath)
    (ops : List StoreOp) (tokenId : NodeHash) :
    (((Run.exec (StoreWorld.step J at_) .start ops).store.revoke tokenId).2 = false →
      ∀ token ∈ (Run.exec (StoreWorld.step J at_) .start ops).store.tokens, token.tokenId ≠ tokenId) ∧
    (((Run.exec (StoreWorld.step J at_) .start ops).store.revoke tokenId).2 = true →
      (Revoked C J ((Run.exec (StoreWorld.step J at_) .start ops).store.revoke tokenId).1 tokenId ↔
        SpentAfterFirst C J (Run.exec (StoreWorld.step J at_) .start ops).store tokenId)) ∧
    (Run.Along (StoreWorld.step J at_) StoreWorld.Fresh .start ops →
      ((Run.exec (StoreWorld.step J at_) .start ops).store.revoke tokenId).2 = true →
        Revoked C J ((Run.exec (StoreWorld.step J at_) .start ops).store.revoke tokenId).1 tokenId) := by
  refine ⟨(revoke_eq_false_iff _ _).mp, revoked_revoke_iff, fun hfresh hfound => ?_⟩
  have hdistinct := Run.exec_invariant_along (distinct_step at_ hjson) distinct_start hfresh
  exact (revoked_revoke_iff hfound).mpr (spentAfterFirst_of_nodup hdistinct.store tokenId)

end Revoking

theorem reference_roundTrips : CapabilityJson.reference.RoundTrips := by
  intro store raw h
  simp only [CapabilityJson.reference] at h ⊢
  split at h
  · rename_i hempty
    cases store
    cases hempty
    rw [if_pos (Except.ok.inj h).symm]
  · cases h

/-- A store that is saved and loaded, given one token and told to revoke it. -/
theorem revocation_after_reload : ∃ token : CapabilityToken,
    verifyCapability .reference .reference token 5 = .ok () ∧
      Revoked (P := Platform.reference) .reference .reference
        ((Run.exec (StoreWorld.step .reference ⟨"store.json", none, "store.json.tmp"⟩) .start
          [.save ⟨.ok (), .ok (), .ok (), .ok (), .ok ()⟩, .load none, .create token]).store.revoke token.tokenId).1
        token.tokenId := by
  obtain ⟨token, -, -, -, hverify⟩ := exists_referenceToken "did:a" (Vector.replicate 32 0)
  refine ⟨token, hverify, ?_⟩
  have hstore : (Run.exec (StoreWorld.step .reference ⟨"store.json", none, "store.json.tmp"⟩) .start
      [.save ⟨.ok (), .ok (), .ok (), .ok (), .ok ()⟩, .load none]).store = .new := by
    simp [StoreWorld.step, StoreWorld.start, CapabilityStore.save, loadOrDefault, CapabilityStore.new,
      CapabilityJson.reference, Except.mapError]
  have hrevoke : (CapabilityStore.new.create token).revoke token.tokenId =
      (⟨[{ token with revoked := true }]⟩, true) := by
    simp [CapabilityStore.new, CapabilityStore.create, revoke, revokeIn]
  refine (revocation_effective_iff .reference .reference reference_roundTrips ⟨"store.json", none, "store.json.tmp"⟩
    [.save ⟨.ok (), .ok (), .ok (), .ok (), .ok ()⟩, .load none, .create token] token.tokenId).2.2 ?_ ?_
  · refine ⟨trivial, trivial, fun held hheld => ?_, trivial⟩
    exact absurd (hstore ▸ hheld) List.not_mem_nil
  · exact (congrArg (fun store => ((store.create token).revoke token.tokenId).2) hstore).trans (congrArg Prod.snd hrevoke)

/-- Created twice and revoked, a token is still active. -/
theorem duplicate_token_survives_revocation : ∃ token : CapabilityToken, ∀ at_ : StorePath,
    let w := Run.exec (StoreWorld.step .reference at_) .start [.create token, .create token]
    (w.store.revoke token.tokenId).2 = true ∧
      ¬ Revoked (P := Platform.reference) .reference .reference (w.store.revoke token.tokenId).1 token.tokenId := by
  obtain ⟨token, -, -, -, hverify⟩ := exists_referenceToken "did:a" (Vector.replicate 32 0)
  refine ⟨token, fun at_ => ?_⟩
  have hstore : (Run.exec (StoreWorld.step .reference at_) .start [.create token, .create token]).store =
      ⟨[token, token]⟩ := rfl
  have hrevoke : (CapabilityStore.mk [token, token]).revoke token.tokenId =
      (⟨[{ token with revoked := true }, token]⟩, true) := by
    simp [revoke, revokeIn]
  dsimp only
  rw [hstore, hrevoke]
  refine ⟨rfl, fun h => ?_⟩
  have hspent := (revoked_iff _ _).mp h token (by simp) rfl 5
  rw [hverify] at hspent
  cases hspent

end AgentHalo.Pod
