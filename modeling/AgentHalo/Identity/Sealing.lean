import AgentHalo.Identity.Append

/-!
# The entry that an append writes

The entry that `prepare` hands over fits the ledger it was made for: its number, its link and its hash are those that
`verifyEntry` expects next, its signature verifies, and its signer is the one the ledger has pinned. What is left to
verification is the part of the entry that the caller chose, its version and the digests of a completed genesis
(`Admissible`).
-/

namespace AgentHalo.Identity

open Lines Outcome
open Text (utf8 hexEncode trim trimChars isWhitespace eqIgnoreAsciiCase eqIgnoreAsciiCase_self)

/-! ### Signatures -/

section Signatures

variable {P : Platform} {K : PqKeyCodec P}

/-- A verifying key that is encoded decodes to itself. -/
def PqKeyCodec.Lawful (K : PqKeyCodec P) : Prop := ∀ vk, K.decode (K.encode vk) = vk

/-- A wallet names the key it signs with. -/
structure PqWallet.Names (K : PqKeyCodec P) (wallet : PqWallet) (key : P.mldsa65.SigningKey) : Prop where
  publicKeyHex : wallet.publicKeyHex = hexEncode (K.encode (P.mldsa65.verifyingKey key)).toList
  keyId : wallet.keyId = keyIdForPublicKey P wallet.publicKeyHex

/-- The wallets of either kind name the keys they sign with. -/
structure WalletFiles.Consistent (K : PqKeyCodec P) (files : WalletFiles) : Prop where
  v1 : ∀ wallet key, files.loadWallet = .ok wallet → keypairFromWallet K wallet = .ok key → wallet.Names K key
  v2 : ∀ scope wallet key, files.loadWalletV2 scope = .ok wallet → keypairFromWalletV2 P wallet = .ok key →
    wallet.Names K key

theorem trim_hexEncode (bytes : Bytes) : trim (hexEncode bytes) = hexEncode bytes := by
  have hnone : ∀ c ∈ (hexEncode bytes).toList, isWhitespace c = false := by
    intro c hc
    by_contra hwhite
    refine Text.not_mem_hexEncode (c := c) (fun d hd => hwhite ?_) bytes hc
    have hdigit : ∀ d : Fin 16, isWhitespace (Text.hexDigit d.val) = false := by decide
    rw [← hd, hdigit d]
  have hdrop (cs : List Char) (h : ∀ c ∈ cs, isWhitespace c = false) : cs.dropWhile isWhitespace = cs := by
    cases cs with
    | nil => rfl
    | cons c rest => rw [List.dropWhile_cons_of_neg (by simp [h c List.mem_cons_self])]
  unfold trim trimChars
  rw [hdrop _ hnone, hdrop _ fun c hc => hnone c (List.mem_reverse.mp hc), List.reverse_reverse, String.ofList_toList]

theorem pqHexDecodeDynamic_hexEncode {bytes : Bytes} (h : bytes ≠ []) :
    pqHexDecodeDynamic (hexEncode bytes) = .ok bytes := by
  have hlength := Text.utf8_hexEncode_length bytes
  have hpos := List.length_pos_iff.mpr h
  have hempty : (utf8 (hexEncode bytes)).isEmpty = false := by
    rw [List.isEmpty_eq_false_iff]
    exact List.ne_nil_of_length_pos (by omega)
  unfold pqHexDecodeDynamic
  rw [hempty, hlength, Nat.mul_mod_left, Text.decodeHexPairs_hexEncode]
  rfl

variable {files : WalletFiles} {sig : LedgerSignatureRef}

variable {wallet : PqWallet} {key : P.mldsa65.SigningKey} {F : LedgerFormat} {entry : IdentityLedgerEntry F}

theorem resolve_signWith {payload : Bytes} (hnames : wallet.Names K key) (h : signWith files wallet key payload = .ok sig)
    (vars : LedgerEnv) (walletIdentity : Option (String × String)) :
    resolveSignaturePublicKey vars walletIdentity sig = .ok wallet.publicKeyHex := by
  simp only [signWith, bind, pure, Except.pure, bind_eq_ok, okOr_eq_ok, require_eq_ok] at h
  obtain ⟨signature, -, u, -, u', -, hsig⟩ := h
  obtain rfl := Except.ok.inj hsig
  have hne : wallet.publicKeyHex ≠ "" := by
    intro hempty
    have hlength := Text.utf8_hexEncode_length (K.encode (P.mldsa65.verifyingKey key)).toList
    rw [← hnames.publicKeyHex, hempty, Vector.length_toList] at hlength
    exact absurd hlength (by decide)
  unfold resolveSignaturePublicKey
  rw [Option.map_some, hnames.publicKeyHex, trim_hexEncode, ← hnames.publicKeyHex, Option.filter_some,
    if_pos (by simpa using hne)]

theorem verifySignatureRef_signWith (hM : P.mldsa65.Correct) (hK : K.Lawful) (hnames : wallet.Names K key)
    (h : signWith files wallet key (utf8 (entrySignaturePayload entry.entryHash)) = .ok sig) (vars : LedgerEnv)
    (walletIdentity : Option (String × String)) :
    verifySignatureRef K vars walletIdentity entry sig = .ok wallet.publicKeyHex := by
  have hresolve := resolve_signWith hnames h vars walletIdentity
  simp only [signWith, bind, pure, Except.pure, bind_eq_ok, okOr_eq_ok, require_eq_ok] at h
  obtain ⟨signature, hsignature, u, -, u', -, hsig⟩ := h
  obtain rfl := Except.ok.inj hsig
  have hdetached : verifyDetachedSignature K (utf8 (entrySignaturePayload entry.entryHash)) wallet.publicKeyHex
      (hexEncode (P.mldsa65.encode signature).toList) = .ok true := by
    have hvk : (K.encode (P.mldsa65.verifyingKey key)).toList ≠ [] :=
      List.ne_nil_of_length_pos (by simp)
    have hsigBytes : (P.mldsa65.encode signature).toList ≠ [] := List.ne_nil_of_length_pos (by simp)
    simp only [verifyDetachedSignature, hnames.publicKeyHex, pqHexDecodeDynamic_hexEncode hvk,
      pqHexDecodeDynamic_hexEncode hsigBytes, Text.toArray_toList, hM.decode_encode, okOr, bind, Except.bind, pure,
      Except.pure]
    rw [hK]
    exact congrArg Except.ok (hM.verify_sign key _ signature hsignature)
  simp only [verifySignatureRef, bind, pure, Except.pure, bind_eq_ok, require_eq_ok, mapError_eq_ok]
  refine ⟨(), eqIgnoreAsciiCase_self _, (), eqIgnoreAsciiCase_self _, (), eqIgnoreAsciiCase_self _,
    wallet.publicKeyHex, hresolve, (), ?_, true, hdetached, (), rfl, rfl⟩
  rw [hnames.keyId]
  exact eqIgnoreAsciiCase_self _

theorem verifySignatureRef_trySign (hM : P.mldsa65.Correct) (hK : K.Lawful) (hfiles : files.Consistent K)
    {scope : Option (Vector UInt8 32)} (h : trySignEntryHashWithKey K files entry.entryHash scope = some sig) :
    ∃ pubkey, ∀ vars walletIdentity, resolveSignaturePublicKey vars walletIdentity sig = .ok pubkey ∧
      verifySignatureRef K vars walletIdentity entry sig = .ok pubkey := by
  obtain ⟨wallet, key, hnames, hsign⟩ : ∃ wallet key, PqWallet.Names K wallet key ∧
      signWith files wallet key (utf8 (entrySignaturePayload entry.entryHash)) = .ok sig := by
    unfold trySignEntryHashWithKey at h
    split at h
    · cases h
    · cases hv1 : signPqPayload K files (utf8 (entrySignaturePayload entry.entryHash)) with
      | ok sig' =>
        simp only [hv1, Option.some.injEq] at h
        subst h
        unfold signPqPayload at hv1
        split at hv1
        · simp only [bind, bind_eq_ok] at hv1
          obtain ⟨wallet, hwallet, key, hkey, hsign⟩ := hv1
          exact ⟨wallet, key, hfiles.v1 wallet key hwallet hkey, hsign⟩
        · split at hv1 <;> cases hv1
      | error e =>
        simp only [hv1] at h
        obtain ⟨scope, -, hv2⟩ := Option.bind_eq_some_iff.mp h
        cases hsigned : signPqPayloadV2 P files scope (utf8 (entrySignaturePayload entry.entryHash)) with
        | error e =>
          rw [hsigned] at hv2
          cases hv2
        | ok sig' =>
          rw [hsigned] at hv2
          obtain rfl := Option.some.inj hv2
          simp only [signPqPayloadV2, bind, bind_eq_ok] at hsigned
          obtain ⟨wallet, hwallet, key, hkey, hsign⟩ := hsigned
          exact ⟨wallet, key, hfiles.v2 scope wallet key hwallet hkey, hsign⟩
  exact ⟨wallet.publicKeyHex, fun vars walletIdentity => ⟨resolve_signWith hnames hsign vars walletIdentity,
    verifySignatureRef_signWith hM hK hnames hsign vars walletIdentity⟩⟩

end Signatures

/-! ### The pinned signer -/

section Pinned

variable {P : Platform} {K : PqKeyCodec P} {env : LedgerEnv} {F : LedgerFormat}

variable {entry : IdentityLedgerEntry F}

variable {vars : LedgerEnv} {pubkey : String} {pinned' : Option String} {entries : List (IdentityLedgerEntry F)}

theorem verifySignatureRef_resolve {walletIdentity : Option (String × String)}
    (h : verifySignatureRef K vars walletIdentity entry sig = .ok pubkey) :
    resolveSignaturePublicKey vars walletIdentity sig = .ok pubkey := by
  simp only [verifySignatureRef, bind, pure, Except.pure, bind_eq_ok, Except.ok.injEq] at h
  obtain ⟨-, -, -, -, -, -, signer, hsigner, -, -, -, -, -, -, rfl⟩ := h
  exact hsigner

variable {signer pinned : Option String}

theorem verifySigner_ok (h : verifySigner K env entry = .ok signer) :
    (entry.signature = none ∧ signer = none) ∨ ∃ sig pubkey, entry.signature = some sig ∧ signer = some pubkey ∧
      resolveSignaturePublicKey env env.walletIdentity sig = .ok pubkey := by
  unfold verifySigner at h
  cases hsig : entry.signature with
  | none =>
    simp only [hsig, Except.ok.injEq] at h
    exact .inl ⟨rfl, h.symm⟩
  | some sig =>
    simp only [hsig, map_eq_ok] at h
    obtain ⟨pubkey, hverify, rfl⟩ := h
    exact .inr ⟨sig, pubkey, rfl, rfl, verifySignatureRef_resolve hverify⟩

theorem pinSigner_ok {seq : UInt64} (h : pinSigner pinned signer seq = .ok pinned') : pinned' = pinned.or signer := by
  cases signer with
  | none =>
    cases pinned <;> exact (Except.ok.inj h).symm
  | some pubkey =>
    cases pinned with
    | none => exact (Except.ok.inj h).symm
    | some pinnedKey =>
      simp only [pinSigner, bind, pure, Except.pure, bind_eq_ok, Except.ok.injEq] at h
      obtain ⟨-, -, rfl⟩ := h
      rfl

theorem verifyKind_ok (hsigner : verifySigner K env entry = .ok signer)
    (h : verifyKind P env pinned entry signer = .ok pinned') :
    pinned' = if pinsSigner entry then pinned.or signer else pinned := by
  unfold verifyKind at h
  by_cases hkind : entry.kind = .genesisEntropyHarvested
  · rw [if_pos hkind] at h
    simp only [verifyGenesis, bind, bind_eq_ok] at h
    obtain ⟨-, -, h⟩ := h
    by_cases hstatus : eqIgnoreAsciiCase entry.status "completed" = true
    · rw [if_pos hstatus] at h
      obtain ⟨-, -, h⟩ := bind_eq_ok.mp h
      rw [pinSigner_ok h]
      obtain ⟨hnone, rfl⟩ | ⟨sig, pubkey, hsome, rfl, -⟩ := verifySigner_ok hsigner
      · simp [pinsSigner, hnone]
      · simp [pinsSigner, hkind, hstatus, hsome]
    · rw [if_neg hstatus] at h
      obtain rfl := Except.ok.inj h
      simp [pinsSigner, hstatus]
  · rw [if_neg hkind] at h
    obtain rfl := Except.ok.inj h
    simp [pinsSigner, hkind]

/-- The signer that a verified ledger pins: none, or the key that its first signed and completed genesis entry resolves
to. -/
inductive PinnedBy (env : LedgerEnv) (entries : List (IdentityLedgerEntry F)) : Option String → Prop where
  | none (h : entries.find? pinsSigner = none) : PinnedBy env entries none
  | some {e : IdentityLedgerEntry F} {sig : LedgerSignatureRef} {pubkey : String}
      (hfirst : entries.find? pinsSigner = some e) (hsig : e.signature = some sig)
      (hresolve : resolveSignaturePublicKey env env.walletIdentity sig = .ok pubkey) : PinnedBy env entries (some pubkey)

theorem verifyFrom_pinned {st : ChainState} (h : verifyFrom K env 0 .start entries = .ok st) :
    PinnedBy env entries st.pinnedSignerPublicKey := by
  induction entries using List.reverseRecOn generalizing st with
  | nil =>
    obtain rfl := Except.ok.inj h
    exact .none rfl
  | append_singleton front e ih =>
    obtain ⟨before, hbefore, hlast⟩ := verifyFrom_concat h
    obtain ⟨-, -, -, -, signer, pinned, hsigner, hkind, -, rfl⟩ := verifyEntry_ok_iff.mp hlast
    obtain rfl := verifyKind_ok hsigner hkind
    have hpinned := ih hbefore
    dsimp only
    generalize before.pinnedSignerPublicKey = pinned at hpinned ⊢
    cases hpinned with
    | none hnone =>
      have hfind : (front ++ [e]).find? pinsSigner = [e].find? pinsSigner := by
        rw [List.find?_append, hnone, Option.none_or]
      by_cases he : pinsSigner e = true
      · obtain ⟨hunsigned, -⟩ | ⟨sig, pubkey, hsig, rfl, hresolve⟩ := verifySigner_ok hsigner
        · simp [pinsSigner, hunsigned] at he
        · rw [if_pos he]
          exact .some (by rw [hfind, List.find?_cons_of_pos he]) hsig hresolve
      · rw [if_neg he]
        exact .none (by rw [hfind, List.find?_cons_of_neg he, List.find?_nil])
    | some hfirst hsig hresolve =>
      rw [Option.some_or, ite_self]
      exact .some (by rw [List.find?_append, hfirst, Option.some_or]) hsig hresolve

theorem resolve_or {first : Option (String × String)} (second : Option (String × String))
    (h : resolveSignaturePublicKey vars first sig = .ok pubkey) :
    resolveSignaturePublicKey vars (first.or second) sig = .ok pubkey := by
  cases first with
  | some wallet => exact h
  | none =>
    unfold resolveSignaturePublicKey at h ⊢
    cases hkey : (sig.publicKeyHex.map trim).filter (· ≠ "") with
    | some key =>
      rw [hkey] at h
      exact h
    | none =>
      simp only [hkey, Option.filter_none] at h
      by_cases hstrict : vars.strictLedgerSignatureFieldsSet = true
      · rw [if_pos hstrict] at h
        cases h
      · rw [if_neg hstrict] at h
        cases h

theorem pinnedSigner_eq {env : AppendEnv} (h : PinnedBy env.ledgerEnv entries pinned) (scope : Option (Vector UInt8 32)) :
    pinnedSigner env.vars (env.walletIdentity scope) entries = pinned := by
  unfold pinnedSigner
  cases h with
  | none hnone =>
    rw [hnone]
    rfl
  | some hfirst hsig hresolve =>
    have hresolved := resolve_or (scope.bind fun key => (env.wallets.walletKeyIdentityV2 key).toOption.join)
      hresolve
    rw [hfirst, Option.bind_some, hsig, Option.bind_some]
    exact congrArg Except.toOption hresolved

end Pinned

/-! ### The new entry -/

section Entry

variable {P : Platform} {K : PqKeyCodec P} {F : LedgerFormat}

/-- What verification asks of the parts of an entry that the caller of an append chooses. -/
structure Admissible (event : IdentityLedgerEntry F) : Prop where
  version : event.version = ledgerVersion
  anchored : event.kind = .genesisEntropyHarvested → eqIgnoreAsciiCase event.status "completed" = true →
    ∃ anchor, event.genesisEntropySha256 = some anchor ∧ wellFormedAnchor anchor = true ∧
      (payloadAnchor event).getD "" = anchor

variable {entry : IdentityLedgerEntry F}

theorem legacyHashMatch_of_current (halgo : entry.hashAlgorithm = some HashAlgorithm.current.asStr)
    (hhash : computeEntryHash P entry = entry.entryHash) : legacyHashMatch P entry = false := by
  unfold legacyHashMatch
  rw [decide_eq_false_iff_not, ← hhash]
  intro heq
  have hlength := congrArg List.length (Text.hexEncode_inj heq)
  rw [halgo] at hlength
  simp [hashBytes, HashAlgorithm.fromField, HashAlgorithm.current, HashAlgorithm.asStr] at hlength

theorem verifyGenesisAnchor_ok_iff :
    verifyGenesisAnchor entry false = .ok () ↔ ∃ anchor, entry.genesisEntropySha256 = some anchor ∧
      wellFormedAnchor anchor = true ∧ (payloadAnchor entry).getD "" = anchor := by
  unfold verifyGenesisAnchor
  cases entry.genesisEntropySha256 with
  | none => simp
  | some anchor =>
    simp only [bind, bind_eq_ok, require_eq_ok, decide_eq_true_eq, exists_const, Option.some.injEq, exists_eq_left']

variable {idx : Nat} {st : ChainState} {path line : String} {readLine : Nat → Except String Unit}
  {event : IdentityLedgerEntry F} {scope : Option (Vector UInt8 32)}

theorem pinSigner_of_verifyPinned {pinned : Option String} {seq : UInt64} (h : verifyPinned pinned signer seq = .ok ()) :
    pinSigner pinned signer seq = .ok (pinned.or signer) ∧ verifyPinned (pinned.or signer) signer seq = .ok () := by
  cases signer with
  | none => cases pinned <;> exact ⟨rfl, rfl⟩
  | some pubkey =>
    cases pinned with
    | none => exact ⟨rfl, require_eq_ok.mpr (eqIgnoreAsciiCase_self pubkey)⟩
    | some pinnedKey =>
      refine ⟨?_, h⟩
      have hsame := require_eq_ok.mp h
      simp [pinSigner, hsame, require, bind, Except.bind, pure, Except.pure]

theorem verifyEntry_ok_iff_admissible {env : LedgerEnv} (hseq : entry.seq = st.expectedSeq)
    (hprev : entry.prevHash = st.lastHash) (halgo : entry.hashAlgorithm = some HashAlgorithm.current.asStr)
    (hhash : computeEntryHash P entry = entry.entryHash) (hsigner : verifySigner K env entry = .ok signer)
    (hpinned : verifyPinned st.pinnedSignerPublicKey signer entry.seq = .ok ())
    (hsigned : entry.kind = .genesisEntropyHarvested → entry.signature.isSome = true) :
    (∃ st', verifyEntry K env idx st entry = .ok st') ↔ Admissible entry := by
  have hformat := legacyHashMatch_of_current halgo hhash
  have hgenesisSigned (hkind : entry.kind = .genesisEntropyHarvested) :
      verifyGenesisSigned env entry false = .ok () := by
    unfold verifyGenesisSigned
    rw [if_pos (hsigned hkind)]
  constructor
  · rintro ⟨st', h⟩
    obtain ⟨hversion, -, -, -, signer', pinned, -, hkindOk, -, -⟩ := verifyEntry_ok_iff.mp h
    refine ⟨hversion, fun hkind hstatus => ?_⟩
    unfold verifyKind at hkindOk
    simp only [if_pos hkind, verifyGenesis, bind, bind_eq_ok, if_pos hstatus] at hkindOk
    obtain ⟨u, -, u', hanchor, -⟩ := hkindOk
    rw [hformat] at hanchor
    exact verifyGenesisAnchor_ok_iff.mp hanchor
  · intro h
    obtain ⟨hpin, hpinned'⟩ := pinSigner_of_verifyPinned hpinned
    have hkindOk : ∃ pinned, verifyKind P env st.pinnedSignerPublicKey entry signer = .ok pinned ∧
        verifyPinned pinned signer entry.seq = .ok () := by
      unfold verifyKind
      by_cases hkind : entry.kind = .genesisEntropyHarvested
      · rw [if_pos hkind]
        by_cases hstatus : eqIgnoreAsciiCase entry.status "completed" = true
        · have hanchor := verifyGenesisAnchor_ok_iff.mpr (h.anchored hkind hstatus)
          refine ⟨st.pinnedSignerPublicKey.or signer, ?_, hpinned'⟩
          simp only [verifyGenesis, bind, hgenesisSigned hkind, Except.bind, if_pos hstatus, hformat, hanchor, hpin]
        · refine ⟨st.pinnedSignerPublicKey, ?_, hpinned⟩
          simp only [verifyGenesis, bind, hformat, hgenesisSigned hkind, Except.bind, if_neg hstatus, pure, Except.pure]
      · rw [if_neg hkind]
        exact ⟨st.pinnedSignerPublicKey, rfl, hpinned⟩
    obtain ⟨pinned, hkindOk, hpinnedOk⟩ := hkindOk
    exact ⟨_, verifyEntry_ok_iff.mpr ⟨h.version, hseq, hprev, .inl hhash, signer, pinned, hsigner, hkindOk, hpinnedOk,
      rfl⟩⟩

variable {entries : List (IdentityLedgerEntry F)}

theorem verifyFrom_next {env : LedgerEnv} (h : verifyFrom K env 0 .start entries = .ok st) :
    (entries.getLast?.map fun e => nextSeq e.seq).getD 1 = st.expectedSeq ∧
      entries.getLast?.map (·.entryHash) = st.lastHash := by
  obtain rfl | ⟨front, e, rfl⟩ := List.eq_nil_or_concat' entries
  · obtain rfl := Except.ok.inj h
    exact ⟨rfl, rfl⟩
  · obtain ⟨before, -, hlast⟩ := verifyFrom_concat h
    obtain ⟨-, hseq, -, -, hhash, hexpected⟩ := verifyEntry_ok hlast
    rw [List.getLast?_concat, hhash, hexpected, ← hseq]
    exact ⟨rfl, rfl⟩

/-- The checks that an append makes before it writes. -/
structure Prepared (K : PqKeyCodec P) (L : LedgerLines F) (env : AppendEnv) (file : Option (List Char))
    (event : IdentityLedgerEntry F) (scope : Option (Vector UInt8 32)) (entries : List (IdentityLedgerEntry F))
    (entry : IdentityLedgerEntry F) (line : String) : Prop where
  read : ledgerOf L env.path file = .ok entries
  accepted : verifyChain K env.ledgerEnv entries = .ok ()
  isSealed : entry = sealedEntry K env entries event scope
  signed : entry.kind = .genesisEntropyHarvested → entry.signature.isSome = true
  pinned : checkPinned env (env.walletIdentity scope) (pinnedSigner env.vars (env.walletIdentity scope) entries)
    entry.signature = .ok ()
  written : L.entryToString entry = .ok line

variable {L : LedgerLines F}

theorem loadFrom_ok {fileLines : List (List Char)} (h : loadFrom L path readLine idx fileLines = .ok entries) :
    loadFrom L path (fun _ => .ok ()) idx fileLines = .ok entries := by
  induction fileLines generalizing idx entries with
  | nil => exact h
  | cons line rest ih =>
    unfold loadFrom at h ⊢
    cases hread : readLine idx with
    | error e =>
      rw [hread] at h
      cases h
    | ok u =>
      rw [hread] at h
      dsimp only at h ⊢
      by_cases hblank : trim (String.ofList line) = ""
      · rw [if_pos hblank] at h ⊢
        exact ih h
      · rw [if_neg hblank] at h ⊢
        cases hparse : L.entryFromStr (String.ofList line) with
        | error e =>
          rw [hparse] at h
          cases h
        | ok entry =>
          rw [hparse] at h
          obtain ⟨tail, htail, rfl⟩ := map_eq_ok.mp h
          exact map_eq_ok.mpr ⟨tail, ih htail, rfl⟩

variable {file : Option (List Char)}

theorem loadEntries_ok {openForRead : Except String Unit} (h : loadEntries L path openForRead readLine file = .ok entries) :
    ledgerOf L path file = .ok entries := by
  unfold loadEntries at h
  cases file with
  | none => exact h
  | some text =>
    cases openForRead with
    | error e => cases h
    | ok u => exact loadFrom_ok h

theorem prepared_of_prepare {env : AppendEnv} {os : AppendAnswers}
    (h : prepare K L env os file event scope = .ok (entries, entry, line)) :
    Prepared K L env file event scope entries entry line := by
  simp only [prepare, bind, pure, Except.pure, bind_eq_ok, require_eq_ok, mapError_eq_ok, Except.ok.injEq,
    Prod.mk.injEq] at h
  obtain ⟨u₁, -, u₂, -, loaded, hloaded, u₃, haccepted, u₄, hsigned, u₅, hpinned, text, htext, rfl, rfl, rfl⟩ := h
  refine ⟨loadEntries_ok hloaded, haccepted, rfl, fun hkind => ?_, hpinned, htext⟩
  rw [Bool.not_eq_true', Bool.and_eq_false_iff] at hsigned
  obtain hother | hsome := hsigned
  · exact absurd hkind (of_decide_eq_false hother)
  · simpa using hsome

theorem verifyChain_sealed_iff (hM : P.mldsa65.Correct) (hK : K.Lawful) {env : AppendEnv}
    (hwallets : env.wallets.Consistent K) (h : Prepared K L env file event scope entries entry line) :
    verifyChain K env.ledgerEnv (entries ++ [entry]) = .ok () ↔ Admissible event := by
  obtain ⟨st, hst⟩ := verifyChain_ok h.accepted
  obtain ⟨hseq, hprev⟩ := verifyFrom_next hst
  have hpinnedBy := pinnedSigner_eq (verifyFrom_pinned hst) scope
  have hpinned := h.pinned
  rw [hpinnedBy] at hpinned
  -- the signer of the new entry, and the check against the pinned one
  obtain ⟨signer, hsigner, hcheck⟩ : ∃ signer, verifySigner K env.ledgerEnv entry = .ok signer ∧
      verifyPinned st.pinnedSignerPublicKey signer entry.seq = .ok () := by
    cases hsig : entry.signature with
    | none =>
      refine ⟨none, by simp only [verifySigner, hsig], ?_⟩
      cases st.pinnedSignerPublicKey <;> rfl
    | some sig =>
      have hsign : trySignEntryHashWithKey K env.wallets entry.entryHash scope = some sig := by
        rw [← hsig, h.isSealed]
        rfl
      obtain ⟨pubkey, hpubkey⟩ := verifySignatureRef_trySign hM hK hwallets hsign
      refine ⟨some pubkey, by simp only [verifySigner, hsig, (hpubkey _ _).2, Except.map], ?_⟩
      cases hpin : st.pinnedSignerPublicKey with
      | none => rfl
      | some pinnedKey =>
        rw [hsig, hpin] at hpinned
        simp only [checkPinned, bind, bind_eq_ok, (hpubkey _ _).1, Except.ok.injEq, exists_eq_left',
          require_eq_ok] at hpinned
        exact require_eq_ok.mpr hpinned
  have hentry : (∃ st', verifyEntry K env.ledgerEnv entries.length st entry = .ok st') ↔ Admissible entry := by
    refine verifyEntry_ok_iff_admissible ?_ ?_ ?_ ?_ hsigner hcheck h.signed
    · rw [h.isSealed]
      exact hseq
    · rw [h.isSealed]
      exact hprev
    · rw [h.isSealed]
      rfl
    · rw [h.isSealed]
      rfl
  have hevent : Admissible entry ↔ Admissible event := by
    rw [h.isSealed]
    exact ⟨fun h => ⟨h.version, h.anchored⟩, fun h => ⟨h.version, h.anchored⟩⟩
  rw [← hevent, ← hentry, verifyChain, map_eq_ok, verifyFrom_append, hst]
  have hlast : verifyFrom K env.ledgerEnv (0 + entries.length) st [entry] =
      verifyEntry K env.ledgerEnv entries.length st entry := by
    rw [Nat.zero_add, verifyFrom]
    cases verifyEntry K env.ledgerEnv entries.length st entry <;> rfl
  show (∃ st', verifyFrom K env.ledgerEnv (0 + entries.length) st [entry] = .ok st' ∧ () = ()) ↔ _
  rw [hlast]
  simp only [and_true]

end Entry

end AgentHalo.Identity
