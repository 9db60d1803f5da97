import AgentHalo.Lib.OrdMap
import AgentHalo.Base.Platform

/-!
# Witnesses

A witness configuration names the witnesses, holds their key pairs for both signature schemes, and fixes the threshold
and the scheme to sign with. The names, the threshold and the allowed schemes are public fields that a caller may set
to anything; the key maps are private and are only ever filled in pairs, which is the invariant the structure carries.

Signing with the first witnesses and then checking the threshold succeeds exactly when the configuration is `Usable`:
one direction holds whatever the schemes do (`usable_of_quorum`), the other needs them correct (`quorum_of_usable`).
-/

namespace AgentHalo.Engine

open Text (utf8 hexEncode)

inductive WitnessSignatureAlgorithm where
  | ed25519
  | mlDsa65
deriving DecidableEq, Repr

namespace WitnessSignatureAlgorithm

def asTag : WitnessSignatureAlgorithm → String
  | .ed25519 => "ed25519"
  | .mlDsa65 => "ml_dsa65"

def fromTag (tag : String) : Option WitnessSignatureAlgorithm :=
  if tag = "ed25519" then some .ed25519 else if tag = "ml_dsa65" then some .mlDsa65 else none

theorem fromTag_asTag (a : WitnessSignatureAlgorithm) : fromTag a.asTag = some a := by
  cases a <;> decide

end WitnessSignatureAlgorithm

inductive WitnessKeyMaterialSource where
  | envMasterSeed
  | providedMasterSeed
  | insecureDefaultSeed
deriving DecidableEq, Repr

structure WitnessConfig (P : Platform) where
  threshold : Nat
  witnesses : List String
  signingAlgorithm : WitnessSignatureAlgorithm
  keyMaterialSource : WitnessKeyMaterialSource
  allowedAlgorithms : Finset WitnessSignatureAlgorithm
  ed25519VerifyingKeys : OrdMap String P.ed25519.VerifyingKey
  ed25519SigningKeys : OrdMap String P.ed25519.SigningKey
  mldsa65VerifyingKeys : OrdMap String P.mldsa65.VerifyingKey
  mldsa65SigningKeys : OrdMap String P.mldsa65.SigningKey
  ed25519_paired : ∀ w : String, ed25519VerifyingKeys[w]? = ed25519SigningKeys[w]?.map P.ed25519.verifyingKey
  mldsa65_paired : ∀ w : String, mldsa65VerifyingKeys[w]? = mldsa65SigningKeys[w]?.map P.mldsa65.verifyingKey

inductive WitnessError where
  | missingSigningKey (witness : String)
  | missingVerifyingKey (witness : String)
  | missingMlDsaSigningKey (witness : String)
  | missingMlDsaVerifyingKey (witness : String)
  | invalidSignatureHex
  | invalidMlDsaSignatureHex
  | mlDsaSigningFailed
  | unknownAlgorithmTag (tag : String)
deriving DecidableEq, Repr

variable {P : Platform}

/-! ### Building a configuration -/

namespace WitnessConfig

/-- The key seed of a witness under one scheme's domain. -/
def keySeed (P : Platform) (domain seed witness : String) : Vector UInt8 32 :=
  Text.firstHalf (P.sha512 (utf8 domain ++ utf8 seed ++ [0] ++ utf8 witness))

/-- The keys derived for each listed witness, a later duplicate writing the same entry again. -/
def keyTable {K : Type} (witnesses : List String) (key : String → K) : OrdMap String K :=
  witnesses.foldl (fun table w => table.insert w (key w)) ∅

theorem keyTable_getElem? {K : Type} (witnesses : List String) (key : String → K) (w : String) :
    (keyTable witnesses key)[w]? = if w ∈ witnesses then some (key w) else none := by
  have general : ∀ (ws : List String) (table : OrdMap String K),
      (ws.foldl (fun table w => table.insert w (key w)) table)[w]? =
        if w ∈ ws then some (key w) else table[w]? := by
    intro ws
    induction ws with
    | nil => intro table; simp
    | cons head rest ih =>
      intro table
      rw [List.foldl_cons, ih, OrdMap.get?_insert]
      by_cases hrest : w ∈ rest
      · simp [hrest]
      · by_cases hhead : head = w
        · subst hhead
          simp [hrest]
        · simp [hrest, hhead, Ne.symm hhead]
  have htable := general witnesses ∅
  rw [Std.ExtTreeMap.getElem?_empty] at htable
  exact htable

/-- The allowed algorithms named by the environment, both when it names none. -/
def allowedFromEnv (csv : Option String) : Finset WitnessSignatureAlgorithm :=
  let parsed := csv.map fun csv =>
    ((csv.splitOn ",").filterMap fun tok => WitnessSignatureAlgorithm.fromTag (Text.trim tok)).toFinset
  match parsed with
  | some set => if set = ∅ then {.ed25519, .mlDsa65} else set
  | none => {.ed25519, .mlDsa65}

def withSeedAlgorithmSource (P : Platform) (allowedEnv : Option String) (threshold : Nat) (witnesses : List String)
    (seed : String) (signingAlgorithm : WitnessSignatureAlgorithm) (keyMaterialSource : WitnessKeyMaterialSource) :
    WitnessConfig P :=
  let edKey := fun w => P.ed25519.fromBytes (keySeed P "nucleusdb.witness.sk.v2|ed25519" seed w)
  let mlKey := fun w => P.mldsa65.fromSeed (keySeed P "nucleusdb.witness.sk.v2|ml_dsa65" seed w)
  { threshold, witnesses, signingAlgorithm, keyMaterialSource
    allowedAlgorithms := insert signingAlgorithm (allowedFromEnv allowedEnv)
    ed25519VerifyingKeys := keyTable witnesses fun w => P.ed25519.verifyingKey (edKey w)
    ed25519SigningKeys := keyTable witnesses edKey
    mldsa65VerifyingKeys := keyTable witnesses fun w => P.mldsa65.verifyingKey (mlKey w)
    mldsa65SigningKeys := keyTable witnesses mlKey
    ed25519_paired := by
      intro w
      rw [keyTable_getElem?, keyTable_getElem?]
      split_ifs <;> rfl
    mldsa65_paired := by
      intro w
      rw [keyTable_getElem?, keyTable_getElem?]
      split_ifs <;> rfl }

def withSeed (P : Platform) (allowedEnv : Option String) (threshold : Nat) (witnesses : List String) (seed : String) :
    WitnessConfig P :=
  withSeedAlgorithmSource P allowedEnv threshold witnesses seed .mlDsa65 .providedMasterSeed

end WitnessConfig

/-! ### Signing and verifying -/

def signMessageWithAlgorithm (cfg : WitnessConfig P) (algorithm : WitnessSignatureAlgorithm) (witness message : String) :
    Except WitnessError String :=
  match algorithm with
  | .ed25519 =>
    match cfg.ed25519SigningKeys[witness]? with
    | none => .error (.missingSigningKey witness)
    | some sk => .ok (hexEncode (P.ed25519.sign sk (utf8 message)).toList)
  | .mlDsa65 =>
    match cfg.mldsa65SigningKeys[witness]? with
    | none => .error (.missingMlDsaSigningKey witness)
    | some sk =>
      match P.mldsa65.signDeterministic sk (utf8 message) [] with
      | none => .error .mlDsaSigningFailed
      | some sig => .ok (hexEncode (P.mldsa65.encode sig).toList)

def signMessage (cfg : WitnessConfig P) (witness message : String) : Except WitnessError String :=
  signMessageWithAlgorithm cfg cfg.signingAlgorithm witness message

def verifySignatureWithAlgorithm (cfg : WitnessConfig P) (algorithm : WitnessSignatureAlgorithm)
    (witness message sigHex : String) : Except WitnessError Bool :=
  match algorithm with
  | .ed25519 =>
    match cfg.ed25519VerifyingKeys[witness]? with
    | none => .error (.missingVerifyingKey witness)
    | some vk =>
      match Text.decodeHexExact 64 sigHex with
      | none => .error .invalidSignatureHex
      | some sig => .ok (P.ed25519.verify vk (utf8 message) sig)
  | .mlDsa65 =>
    match cfg.mldsa65VerifyingKeys[witness]? with
    | none => .error (.missingMlDsaVerifyingKey witness)
    | some vk =>
      match (Text.hexDecodeDynamic sigHex).bind (Text.toArray 3309) with
      | none => .error .invalidMlDsaSignatureHex
      | some enc =>
        match P.mldsa65.decode enc with
        | none => .error .invalidMlDsaSignatureHex
        | some sig => .ok (P.mldsa65.verifyWithContext vk (utf8 message) [] sig)

/-- A signature that counts: the name is on the list and the signature verifies. -/
def countsFor (cfg : WitnessConfig P) (algorithm : WitnessSignatureAlgorithm) (message : String)
    (entry : String × String) : Bool :=
  decide (entry.1 ∈ cfg.witnesses)
    && (verifySignatureWithAlgorithm cfg algorithm entry.1 message entry.2).toOption.getD false

def verifyQuorumForAlgorithm (cfg : WitnessConfig P) (algorithm : WitnessSignatureAlgorithm) (message : String)
    (sigs : List (String × String)) : Bool :=
  if algorithm ∉ cfg.allowedAlgorithms then false
  else
    let okUnique := sigs.foldl (fun acc entry =>
      if countsFor cfg algorithm message entry then insert entry.1 acc else acc) (∅ : Finset String)
    decide (okUnique.card ≥ cfg.threshold)

def parseAlgorithmTag (tag : String) : Except WitnessError WitnessSignatureAlgorithm :=
  match WitnessSignatureAlgorithm.fromTag tag with
  | some a => .ok a
  | none => .error (.unknownAlgorithmTag tag)

/-- The signing loop of a commit: the listed witnesses in order, stopping at the first failure. -/
def signAll (cfg : WitnessConfig P) (message : String) : List String → Except WitnessError (List (String × String))
  | [] => .ok []
  | w :: rest => do
    let sig ← signMessage cfg w message
    let sigs ← signAll cfg message rest
    return (w, sig) :: sigs

/-! ### When signing and the quorum succeed -/

/-- The witness has a signing key for the scheme in use. -/
def hasSigningKey (cfg : WitnessConfig P) (witness : String) : Bool :=
  match cfg.signingAlgorithm with
  | .ed25519 => cfg.ed25519SigningKeys[witness]?.isSome
  | .mlDsa65 => cfg.mldsa65SigningKeys[witness]?.isSome

variable {cfg : WitnessConfig P} {w message : String} {sigs : List (String × String)} {names : List String}

theorem signMessage_of_hasSigningKey (hP : P.SignaturesCorrect) (hkey : hasSigningKey cfg w = true) (message : String) :
    ∃ sig, signMessage cfg w message = .ok sig ∧
      verifySignatureWithAlgorithm cfg cfg.signingAlgorithm w message sig = .ok true := by
  unfold hasSigningKey at hkey
  unfold signMessage signMessageWithAlgorithm verifySignatureWithAlgorithm
  cases halg : cfg.signingAlgorithm with
  | ed25519 =>
    rw [halg] at hkey
    obtain ⟨sk, hsk⟩ := Option.isSome_iff_exists.mp hkey
    dsimp only
    rw [hsk]
    refine ⟨_, rfl, ?_⟩
    rw [cfg.ed25519_paired, hsk]
    dsimp only [Option.map_some]
    rw [Text.decodeHexExact_hexEncode]
    dsimp only
    rw [hP.ed25519.verify_sign]
  | mlDsa65 =>
    rw [halg] at hkey
    obtain ⟨sk, hsk⟩ := Option.isSome_iff_exists.mp hkey
    obtain ⟨sig, hsig⟩ := Option.isSome_iff_exists.mp (hP.mldsa65.sign_isSome sk (utf8 message))
    dsimp only
    rw [hsk]
    dsimp only
    rw [hsig]
    refine ⟨_, rfl, ?_⟩
    rw [cfg.mldsa65_paired, hsk]
    dsimp only [Option.map_some]
    rw [Text.hexDecodeDynamic_hexEncode, Option.bind_some, Text.toArray_toList]
    dsimp only
    rw [hP.mldsa65.decode_encode]
    dsimp only
    rw [hP.mldsa65.verify_sign sk (utf8 message) sig hsig]

theorem hasSigningKey_of_signMessage {sig : String} (h : signMessage cfg w message = .ok sig) : hasSigningKey cfg w = true := by
  unfold signMessage signMessageWithAlgorithm at h
  unfold hasSigningKey
  cases halg : cfg.signingAlgorithm with
  | ed25519 =>
    rw [halg] at h
    dsimp only at h ⊢
    cases hsk : cfg.ed25519SigningKeys[w]? with
    | none => rw [hsk] at h; exact absurd h (by simp)
    | some sk => rfl
  | mlDsa65 =>
    rw [halg] at h
    dsimp only at h ⊢
    cases hsk : cfg.mldsa65SigningKeys[w]? with
    | none => rw [hsk] at h; exact absurd h (by simp)
    | some sk => rfl

theorem signAll_cons_ok {rest : List String} :
    signAll cfg message (w :: rest) = .ok sigs ↔
      ∃ sig tail, signMessage cfg w message = .ok sig ∧ signAll cfg message rest = .ok tail ∧ sigs = (w, sig) :: tail := by
  rw [signAll]
  cases hw : signMessage cfg w message with
  | error e => simp [bind, Except.bind]
  | ok sig =>
    cases hrest : signAll cfg message rest with
    | error e => simp [bind, Except.bind]
    | ok tail => simp [bind, Except.bind, pure, Except.pure, eq_comm]

theorem hasSigningKey_of_signAll (h : signAll cfg message names = .ok sigs) :
    (∀ w ∈ names, hasSigningKey cfg w = true) ∧ sigs.map (·.1) = names := by
  induction names generalizing sigs with
  | nil =>
    rw [signAll] at h
    cases h
    exact ⟨fun w hw => absurd hw List.not_mem_nil, rfl⟩
  | cons w rest ih =>
    obtain ⟨sig, tail, hsig, htail, rfl⟩ := signAll_cons_ok.mp h
    obtain ⟨hkeys, hnames⟩ := ih htail
    refine ⟨?_, by rw [List.map_cons, hnames]⟩
    intro v hv
    rcases List.mem_cons.mp hv with rfl | hv
    · exact hasSigningKey_of_signMessage hsig
    · exact hkeys v hv

theorem signAll_of_hasSigningKey (hP : P.SignaturesCorrect) (message : String)
    (hkeys : ∀ w ∈ names, hasSigningKey cfg w = true) (hlisted : ∀ w ∈ names, w ∈ cfg.witnesses) :
    ∃ sigs, signAll cfg message names = .ok sigs ∧
      ∀ entry ∈ sigs, countsFor cfg cfg.signingAlgorithm message entry = true := by
  induction names with
  | nil => exact ⟨[], rfl, fun entry hentry => absurd hentry List.not_mem_nil⟩
  | cons w rest ih =>
    obtain ⟨tail, htail, hcounts⟩ := ih (fun v hv => hkeys v (List.mem_cons_of_mem w hv))
      (fun v hv => hlisted v (List.mem_cons_of_mem w hv))
    obtain ⟨sig, hsig, hverify⟩ := signMessage_of_hasSigningKey hP (hkeys w List.mem_cons_self) message
    refine ⟨(w, sig) :: tail, signAll_cons_ok.mpr ⟨sig, tail, hsig, htail, rfl⟩, ?_⟩
    intro entry hentry
    rcases List.mem_cons.mp hentry with rfl | hentry
    · unfold countsFor
      rw [hverify]
      simpa [Except.toOption] using hlisted w List.mem_cons_self
    · exact hcounts entry hentry

theorem foldl_insert_eq_union {α β : Type} [DecidableEq β] (f : α → β) (keep : α → Bool) (xs : List α) (acc : Finset β) :
    xs.foldl (fun acc x => if keep x then insert (f x) acc else acc) acc = acc ∪ ((xs.filter keep).map f).toFinset := by
  induction xs generalizing acc with
  | nil => simp
  | cons x rest ih =>
    rw [List.foldl_cons, ih]
    by_cases hx : keep x = true
    · rw [if_pos hx, List.filter_cons_of_pos hx, List.map_cons, List.toFinset_cons]
      ext y
      simp only [Finset.mem_union, Finset.mem_insert]
      tauto
    · rw [if_neg hx, List.filter_cons_of_neg hx]

theorem verifyQuorumForAlgorithm_iff (cfg : WitnessConfig P) (algorithm : WitnessSignatureAlgorithm) (message : String)
    (sigs : List (String × String)) :
    verifyQuorumForAlgorithm cfg algorithm message sigs = true ↔
      algorithm ∈ cfg.allowedAlgorithms ∧
        cfg.threshold ≤ ((sigs.filter (countsFor cfg algorithm message)).map (·.1)).toFinset.card := by
  unfold verifyQuorumForAlgorithm
  by_cases hallowed : algorithm ∈ cfg.allowedAlgorithms
  · rw [if_neg (not_not.mpr hallowed)]
    dsimp only
    rw [foldl_insert_eq_union, Finset.empty_union]
    simp [hallowed]
  · rw [if_pos hallowed]
    simp [hallowed]

def WitnessConfig.signers (cfg : WitnessConfig P) : List String := cfg.witnesses.take cfg.threshold

/-- The configuration can sign and meet its own threshold: its scheme is allowed, and the witnesses it signs with are
distinct and have keys. -/
def WitnessConfig.Usable (cfg : WitnessConfig P) : Prop :=
  cfg.signingAlgorithm ∈ cfg.allowedAlgorithms ∧ cfg.signers.Nodup ∧ ∀ w ∈ cfg.signers, hasSigningKey cfg w = true

instance (cfg : WitnessConfig P) : Decidable cfg.Usable := inferInstanceAs (Decidable (_ ∧ _ ∧ _))

theorem WitnessConfig.usable_of_quorum (hlen : cfg.threshold ≤ cfg.witnesses.length)
    (hsign : signAll cfg message cfg.signers = .ok sigs)
    (hquorum : verifyQuorumForAlgorithm cfg cfg.signingAlgorithm message sigs = true) : cfg.Usable := by
  obtain ⟨hkeys, hnames⟩ := hasSigningKey_of_signAll hsign
  obtain ⟨hallowed, hcard⟩ := (verifyQuorumForAlgorithm_iff _ _ _ _).mp hquorum
  refine ⟨hallowed, ?_, hkeys⟩
  have hlength : cfg.signers.length = cfg.threshold := by
    unfold WitnessConfig.signers
    rw [List.length_take]
    omega
  have hsub : ((sigs.filter (countsFor cfg cfg.signingAlgorithm message)).map (·.1)).toFinset ⊆
      cfg.signers.toFinset := by
    intro w hw
    rw [List.mem_toFinset] at hw ⊢
    rw [← hnames]
    exact (List.filter_sublist.map _).subset hw
  have hle : cfg.signers.length ≤ cfg.signers.toFinset.card := by
    rw [hlength]
    exact hcard.trans (Finset.card_le_card hsub)
  rw [← Multiset.coe_nodup, ← Multiset.toFinset_card_eq_card_iff_nodup]
  exact le_antisymm (Multiset.toFinset_card_le _) hle

theorem WitnessConfig.quorum_of_usable (hP : P.SignaturesCorrect) (hlen : cfg.threshold ≤ cfg.witnesses.length)
    (husable : cfg.Usable) (message : String) :
    ∃ sigs, signAll cfg message cfg.signers = .ok sigs ∧
      verifyQuorumForAlgorithm cfg cfg.signingAlgorithm message sigs = true := by
  obtain ⟨hallowed, hnodup, hkeys⟩ := husable
  obtain ⟨sigs, hsign, hcounts⟩ := signAll_of_hasSigningKey hP message hkeys
    (fun w hw => List.mem_of_mem_take hw)
  refine ⟨sigs, hsign, (verifyQuorumForAlgorithm_iff _ _ _ _).mpr ⟨hallowed, ?_⟩⟩
  rw [List.filter_eq_self.mpr hcounts, (hasSigningKey_of_signAll hsign).2, List.toFinset_card_of_nodup hnodup]
  unfold WitnessConfig.signers
  rw [List.length_take]
  omega

end AgentHalo.Engine

/-!
## What a quorum counts

The quorum check makes one pass over a list of signatures, with a set of the names that have counted so far. What it
decides is a property of the list as a whole: how many configured witnesses have a signature in it that verifies. The
set of these witnesses (`vouching`) does not see the order of the list, its duplicates, or the entries that do not count.
-/

namespace AgentHalo.Engine

variable {P : Platform} (cfg : WitnessConfig P) (algorithm : WitnessSignatureAlgorithm) (message : String)

/-- The witness has a signature in the list that verifies for the message. -/
def Vouches (sigs : List (String × String)) (witness : String) : Prop :=
  ∃ entry ∈ sigs, entry.1 = witness ∧ verifySignatureWithAlgorithm cfg algorithm witness message entry.2 = .ok true

instance (sigs : List (String × String)) : DecidablePred (Vouches cfg algorithm message sigs) :=
  fun _ => inferInstanceAs (Decidable (∃ _ ∈ _, _ ∧ _))

/-- The configured witnesses that vouch for the message. -/
def vouching (sigs : List (String × String)) : Finset String :=
  cfg.witnesses.toFinset.filter (Vouches cfg algorithm message sigs)

variable {cfg algorithm message}

theorem countsFor_iff {entry : String × String} : countsFor cfg algorithm message entry = true ↔
    entry.1 ∈ cfg.witnesses ∧ verifySignatureWithAlgorithm cfg algorithm entry.1 message entry.2 = .ok true := by
  unfold countsFor
  rw [Bool.and_eq_true, decide_eq_true_iff]
  cases verifySignatureWithAlgorithm cfg algorithm entry.1 message entry.2 <;> simp [Except.toOption]

variable {sigs sigs' : List (String × String)}

theorem mem_vouching {w : String} : w ∈ vouching cfg algorithm message sigs ↔
    ∃ entry ∈ sigs, entry.1 = w ∧ countsFor cfg algorithm message entry = true := by
  simp only [vouching, Vouches, Finset.mem_filter, List.mem_toFinset, countsFor_iff]
  constructor
  · rintro ⟨hlisted, entry, hentry, rfl, hverify⟩
    exact ⟨entry, hentry, rfl, hlisted, hverify⟩
  · rintro ⟨entry, hentry, rfl, hlisted, hverify⟩
    exact ⟨hlisted, entry, hentry, rfl, hverify⟩

theorem vouching_eq_counted (sigs : List (String × String)) : vouching cfg algorithm message sigs =
    ((sigs.filter (countsFor cfg algorithm message)).map (·.1)).toFinset := by
  ext w
  simp only [mem_vouching, List.mem_toFinset, List.mem_map, List.mem_filter]
  constructor
  · rintro ⟨entry, hentry, rfl, hcounts⟩
    exact ⟨entry, ⟨hentry, hcounts⟩, rfl⟩
  · rintro ⟨entry, ⟨hentry, hcounts⟩, rfl⟩
    exact ⟨entry, hentry, rfl, hcounts⟩

theorem verifyQuorumForAlgorithm_iff_vouching (sigs : List (String × String)) :
    verifyQuorumForAlgorithm cfg algorithm message sigs = true ↔
      algorithm ∈ cfg.allowedAlgorithms ∧ cfg.threshold ≤ (vouching cfg algorithm message sigs).card := by
  rw [verifyQuorumForAlgorithm_iff, vouching_eq_counted]

theorem vouching_mono (h : ∀ entry ∈ sigs, countsFor cfg algorithm message entry = true → entry ∈ sigs') :
    vouching cfg algorithm message sigs ⊆ vouching cfg algorithm message sigs' := by
  intro w hw
  obtain ⟨entry, hentry, hname, hcounts⟩ := mem_vouching.mp hw
  exact mem_vouching.mpr ⟨entry, h entry hentry hcounts, hname, hcounts⟩

theorem verifyQuorumForAlgorithm_congr
    (h : ∀ entry, countsFor cfg algorithm message entry = true → (entry ∈ sigs ↔ entry ∈ sigs')) :
    verifyQuorumForAlgorithm cfg algorithm message sigs = verifyQuorumForAlgorithm cfg algorithm message sigs' := by
  have hsame : vouching cfg algorithm message sigs = vouching cfg algorithm message sigs' :=
    (vouching_mono fun entry hentry hcounts => (h entry hcounts).mp hentry).antisymm
      (vouching_mono fun entry hentry hcounts => (h entry hcounts).mpr hentry)
  rw [Bool.eq_iff_iff, verifyQuorumForAlgorithm_iff_vouching, verifyQuorumForAlgorithm_iff_vouching, hsame]

variable (cfg algorithm message)

/-- The quorum is met when the scheme is allowed and enough configured witnesses vouch. Neither the order of the list
matters, nor an entry that repeats another, that a stranger made, or that does not verify; more entries never hurt. -/
theorem quorum_counts_vouching_witnesses (sigs : List (String × String)) :
    (verifyQuorumForAlgorithm cfg algorithm message sigs = true ↔
      algorithm ∈ cfg.allowedAlgorithms ∧
        cfg.threshold ≤ (cfg.witnesses.toFinset.filter fun w => ∃ entry ∈ sigs, entry.1 = w ∧
          verifySignatureWithAlgorithm cfg algorithm w message entry.2 = .ok true).card) ∧
    (∀ sigs' : List (String × String), sigs.Perm sigs' →
      verifyQuorumForAlgorithm cfg algorithm message sigs' = verifyQuorumForAlgorithm cfg algorithm message sigs) ∧
    (∀ (before after : List (String × String)) (entry : String × String), sigs = before ++ after →
      entry ∈ sigs ∨ entry.1 ∉ cfg.witnesses ∨
        verifySignatureWithAlgorithm cfg algorithm entry.1 message entry.2 ≠ .ok true →
      verifyQuorumForAlgorithm cfg algorithm message (before ++ entry :: after) =
        verifyQuorumForAlgorithm cfg algorithm message sigs) ∧
    ∀ sigs' : List (String × String), sigs ⊆ sigs' → verifyQuorumForAlgorithm cfg algorithm message sigs = true →
      verifyQuorumForAlgorithm cfg algorithm message sigs' = true := by
  refine ⟨verifyQuorumForAlgorithm_iff_vouching sigs, ?_, ?_, ?_⟩
  · intro sigs' hperm
    exact verifyQuorumForAlgorithm_congr fun entry _ => hperm.mem_iff.symm
  · rintro before after entry rfl hidle
    refine verifyQuorumForAlgorithm_congr fun other hcounts => ?_
    have hmem : other ∈ before ++ entry :: after ↔ other = entry ∨ other ∈ before ++ after := by
      simp only [List.mem_append, List.mem_cons]
      tauto
    rw [hmem]
    refine or_iff_right_of_imp ?_
    rintro rfl
    obtain hrepeats | hstranger | hinvalid := hidle
    · exact hrepeats
    · exact absurd (countsFor_iff.mp hcounts).1 hstranger
    · exact absurd (countsFor_iff.mp hcounts).2 hinvalid
  · intro sigs' hsub hmet
    obtain ⟨hallowed, hcard⟩ := (verifyQuorumForAlgorithm_iff_vouching sigs).mp hmet
    exact (verifyQuorumForAlgorithm_iff_vouching sigs').mpr
      ⟨hallowed, hcard.trans (Finset.card_le_card (vouching_mono fun entry hentry _ => hsub hentry))⟩

end AgentHalo.Engine
