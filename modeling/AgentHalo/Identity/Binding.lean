import AgentHalo.Base.Reference
import AgentHalo.Identity.Ledger
import AgentHalo.Lib.Words
import AgentHalo.Store.Typed
import Mathlib.Data.List.GetD

/-!
# What the head hash binds

Two ledgers of one length that are both accepted and end in the same hash are compared entry by entry, from the last one
back: the hashes are equal, so the hashed texts are, and the hash of the entry before is what follows the last `|`. The
rest of the text does not determine the fields; what is missing is `SameLayout`, where each text ends and in which of the
two formats it was hashed. The ledgers agree on their events exactly when they agree on that.
-/

namespace AgentHalo.Identity

open Separators
open Text (utf8 not_mem_toString toString_u64_inj)

variable {F : LedgerFormat}

/-- The fields of an entry that describe the event. -/
structure SameEvent (e e' : IdentityLedgerEntry F) : Prop where
  seq : e.seq = e'.seq
  timestamp : e.timestamp = e'.timestamp
  kind : e.kind = e'.kind
  provider : e.provider = e'.provider
  tokenRef : e.tokenRefSha256 = e'.tokenRefSha256
  expiresAt : e.expiresAt = e'.expiresAt
  status : e.status = e'.status
  payload : e.payload = e'.payload
  genesis : e.genesisEntropySha256 = e'.genesisEntropySha256

theorem SameEvent.symm {e e' : IdentityLedgerEntry F} (h : SameEvent e e') : SameEvent e' e :=
  ⟨h.seq.symm, h.timestamp.symm, h.kind.symm, h.provider.symm, h.tokenRef.symm, h.expiresAt.symm, h.status.symm,
    h.payload.symm, h.genesis.symm⟩

/-- Two entries are hashed in one format and their texts are present together and end together. The older format does
not contain the genesis digest, so there it has to be the same one. -/
structure SameLayout (P : Platform) (e e' : IdentityLedgerEntry F) : Prop where
  format : legacyHashMatch P e = legacyHashMatch P e'
  provider : e.provider.map String.length = e'.provider.map String.length
  tokenRef : e.tokenRefSha256.map String.length = e'.tokenRefSha256.map String.length
  status : e.status.length = e'.status.length
  genesis : e.genesisEntropySha256.map String.length = e'.genesisEntropySha256.map String.length
  unhashed : legacyHashMatch P e = true → e.genesisEntropySha256 = e'.genesisEntropySha256

/-- The texts that are hashed to verify a ledger. -/
def hashedTexts (entries : List (IdentityLedgerEntry F)) : Set Bytes :=
  {text | ∃ entry ∈ entries, text = utf8 (entryPayloadForHash entry) ∨ text = utf8 (entryPayloadForHashLegacy entry)}

/-- Neither hash function has a collision among these texts. -/
structure CollisionFreeOn (P : Platform) (texts : Set Bytes) : Prop where
  sha256 : Set.InjOn P.sha256 texts
  sha512 : Set.InjOn P.sha512 texts

/-- A payload that is written reads back. -/
def LedgerFormat.RoundTrips (F : LedgerFormat) : Prop :=
  ∀ value, ∃ text, F.valueToString value = .ok text ∧ F.valueFromStr text = .ok value

/-! ### Hashes -/

section Hashes

variable {P : Platform}

theorem bar_not_mem_hashHex (algo : HashAlgorithm) (data : Bytes) : '|' ∉ (hashHex P algo data).toList :=
  Text.not_mem_hexEncode (by decide) _

theorem hashHex_inj {texts : Set Bytes} (hfree : CollisionFreeOn P texts) {algo algo' : HashAlgorithm} {a b : Bytes}
    (ha : a ∈ texts) (hb : b ∈ texts) (h : hashHex P algo a = hashHex P algo' b) : algo = algo' ∧ a = b := by
  have hbytes := Text.hexEncode_inj h
  have hlength := congrArg List.length hbytes
  cases algo
  · cases algo'
    · exact ⟨rfl, hfree.sha256 ha hb (Vector.toList_inj.mp hbytes)⟩
    · simp [hashBytes] at hlength
  · cases algo'
    · simp [hashBytes] at hlength
    · exact ⟨rfl, hfree.sha512 ha hb (Vector.toList_inj.mp hbytes)⟩

end Hashes

/-! ### Hashed texts -/

section Texts

theorem bar_not_mem_debug (kind : IdentityLedgerKind) : '|' ∉ kind.debug.toList := by
  cases kind <;> decide

theorem debug_inj {a b : IdentityLedgerKind} (h : a.debug = b.debug) : a = b := by
  cases a <;> cases b <;> first | rfl | exact absurd h (by decide)

theorem bar_not_mem_expiresAt (expiresAt : Option UInt64) : '|' ∉ ((expiresAt.map toString).getD "").toList := by
  cases expiresAt with
  | none => exact List.not_mem_nil
  | some at_ => exact not_mem_toString (by decide) at_.toNat

theorem expiresAt_inj {a b : Option UInt64} (h : (a.map toString).getD "" = (b.map toString).getD "") : a = b := by
  have hdigits (n : UInt64) : toString n ≠ "" := by
    intro hempty
    have hnil : Nat.toDigits 10 n.toNat = [] := by
      rw [← Nat.toList_repr]
      exact congrArg String.toList hempty
    exact absurd hnil Nat.toDigits_ne_nil
  cases a with
  | none =>
    cases b with
    | none => rfl
    | some n => exact absurd h.symm (hdigits n)
  | some m =>
    cases b with
    | none => exact absurd h (hdigits m)
    | some n => exact congrArg some (toString_u64_inj h)

theorem optional_inj {a b : Option String} (hlength : a.map String.length = b.map String.length)
    (h : a.getD "" = b.getD "") : a = b := by
  cases a <;> cases b <;> simp_all

theorem optional_length {a b : Option String} (h : a.map String.length = b.map String.length) :
    (a.getD "").toList.length = (b.getD "").toList.length := by
  rw [String.length_toList, String.length_toList]
  cases a <;> cases b <;> simp_all

theorem hashedFields_toList (e : IdentityLedgerEntry F) : (hashedFields e).toList =
    hashDomain.toList ++ ("|v=".toList ++ ((toString e.version).toList ++ ("|seq=".toList ++ ((toString e.seq).toList ++
      ("|ts=".toList ++ ((toString e.timestamp).toList ++ ("|kind=".toList ++ (e.kind.debug.toList ++
        ("|provider=".toList ++ ((e.provider.getD "").toList ++ ("|token_ref=".toList ++
          ((e.tokenRefSha256.getD "").toList ++ ("|expires_at=".toList ++
            (((e.expiresAt.map toString).getD "").toList ++ ("|status=".toList ++ (e.status.toList ++
              ("|payload=".toList ++ (payloadJson e.payload).toList))))))))))))))))) := by
  unfold hashedFields
  simp only [String.toList_append, List.append_assoc]

theorem cut_label {a b c d rest : List Char} (label : String) (hlabel : label.toList = '|' :: rest) (ha : '|' ∉ a)
    (hc : '|' ∉ c) (h : a ++ (label.toList ++ b) = c ++ (label.toList ++ d)) : a = c ∧ b = d := by
  rw [hlabel] at h
  obtain ⟨hfield, hrest⟩ := append_cons_inj_of_not_mem ha hc h
  exact ⟨hfield, List.append_cancel_left hrest⟩

theorem cut_last {a b c d rest : List Char} (label : String) (hlabel : label.toList = '|' :: rest)
    (hrest : '|' ∉ rest) (hb : '|' ∉ b) (hd : '|' ∉ d) (h : a ++ (label.toList ++ b) = c ++ (label.toList ++ d)) :
    a = c ∧ b = d := by
  rw [hlabel] at h
  have hb' : '|' ∉ rest ++ b := by simp [hrest, hb]
  have hd' : '|' ∉ rest ++ d := by simp [hrest, hd]
  obtain ⟨hfront, hback⟩ := append_cons_inj_of_not_mem_right hb' hd' h
  exact ⟨hfront, List.append_cancel_left hback⟩

/-- Entries of one version and number whose texts end at the same places: the common part of the formats determines the
fields, and what follows the payload is left over. -/
theorem hashedFields_cut {e e' : IdentityLedgerEntry F} (hversion : e.version = e'.version) (hseq : e.seq = e'.seq)
    (hprovider : e.provider.map String.length = e'.provider.map String.length)
    (htokenRef : e.tokenRefSha256.map String.length = e'.tokenRefSha256.map String.length)
    (hstatus : e.status.length = e'.status.length) {back back' : List Char}
    (h : (hashedFields e).toList ++ back = (hashedFields e').toList ++ back') :
    (e.timestamp = e'.timestamp ∧ e.kind = e'.kind ∧ e.provider = e'.provider ∧ e.tokenRefSha256 = e'.tokenRefSha256 ∧
      e.expiresAt = e'.expiresAt ∧ e.status = e'.status) ∧
      (payloadJson e.payload).toList ++ back = (payloadJson e'.payload).toList ++ back' := by
  simp only [hashedFields_toList, List.append_assoc, hversion, hseq] at h
  have h := List.append_cancel_left (List.append_cancel_left (List.append_cancel_left (List.append_cancel_left
    (List.append_cancel_left (List.append_cancel_left h)))))
  obtain ⟨htimestamp, h⟩ := cut_label "|kind=" rfl (not_mem_toString (by decide) e.timestamp.toNat)
    (not_mem_toString (by decide) e'.timestamp.toNat) h
  obtain ⟨hkind, h⟩ := cut_label "|provider=" rfl (bar_not_mem_debug e.kind) (bar_not_mem_debug e'.kind) h
  obtain ⟨hproviderText, h⟩ := List.append_inj h (optional_length hprovider)
  have h := List.append_cancel_left h
  obtain ⟨htokenText, h⟩ := List.append_inj h (optional_length htokenRef)
  have h := List.append_cancel_left h
  obtain ⟨hexpires, h⟩ := cut_label "|status=" rfl (bar_not_mem_expiresAt e.expiresAt)
    (bar_not_mem_expiresAt e'.expiresAt) h
  obtain ⟨hstatusText, h⟩ := List.append_inj h (by rw [String.length_toList, String.length_toList, hstatus])
  have h := List.append_cancel_left h
  exact ⟨⟨toString_u64_inj (String.toList_injective htimestamp), debug_inj (String.toList_injective hkind),
    optional_inj hprovider (String.toList_injective hproviderText),
    optional_inj htokenRef (String.toList_injective htokenText), expiresAt_inj (String.toList_injective hexpires),
    String.toList_injective hstatusText⟩, h⟩

end Texts

/-! ### Two entries with one hash -/

section Entries

variable {P : Platform} {e e' : IdentityLedgerEntry F}

theorem entryPayloadForHash_toList (e : IdentityLedgerEntry F) : (entryPayloadForHash e).toList =
    (hashedFields e).toList ++ ("|genesis_entropy_sha256=".toList ++ ((e.genesisEntropySha256.getD "").toList
      ++ ("|prev_hash=".toList ++ (e.prevHash.getD "").toList))) := by
  unfold entryPayloadForHash
  simp only [String.toList_append, List.append_assoc]

theorem entryPayloadForHashLegacy_toList (e : IdentityLedgerEntry F) : (entryPayloadForHashLegacy e).toList =
    (hashedFields e).toList ++ ("|prev_hash=".toList ++ (e.prevHash.getD "").toList) := by
  unfold entryPayloadForHashLegacy
  simp only [String.toList_append, List.append_assoc]

theorem payload_inj (hround : F.RoundTrips) {v w : F.Value} (h : payloadJson v = payloadJson w) : v = w := by
  obtain ⟨vText, hv, hvBack⟩ := hround v
  obtain ⟨wText, hw, hwBack⟩ := hround w
  simp only [payloadJson, hv, hw] at h
  rw [h, hwBack] at hvBack
  exact (Except.ok.inj hvBack).symm

/-- The part of an entry's acceptance that speaks of its hash, with the previous hash as it occurs in a chain. -/
structure Hashed (P : Platform) (texts : Set Bytes) (e : IdentityLedgerEntry F) : Prop where
  version : e.version = ledgerVersion
  hash : computeEntryHash P e = e.entryHash ∨ legacyHashMatch P e = true
  prev : '|' ∉ (e.prevHash.getD "").toList
  current : utf8 (entryPayloadForHash e) ∈ texts
  legacy : utf8 (entryPayloadForHashLegacy e) ∈ texts

theorem Hashed.entryHash_legacy (h : legacyHashMatch P e = true) :
    e.entryHash = hashHex P .sha256 (utf8 (entryPayloadForHashLegacy e)) := (of_decide_eq_true h).symm

theorem Hashed.entryHash_current {texts : Set Bytes} (he : Hashed P texts e) (h : legacyHashMatch P e = false) :
    e.entryHash = hashHex P (.fromField e.hashAlgorithm) (utf8 (entryPayloadForHash e)) := by
  obtain hcurrent | hlegacy := he.hash
  · exact hcurrent.symm
  · rw [h] at hlegacy
    cases hlegacy

variable {texts : Set Bytes} (hfree : CollisionFreeOn P texts) (he : Hashed P texts e)
  (he' : Hashed P texts e') (hsame : e.entryHash = e'.entryHash)

include hfree he he' hsame

theorem sameEvent_of_sameLayout (hround : F.RoundTrips) (hseq : e.seq = e'.seq) (hlayout : SameLayout P e e') :
    SameEvent e e' ∧ e.prevHash.getD "" = e'.prevHash.getD "" := by
  have hversion := he.version.trans he'.version.symm
  cases hformat : legacyHashMatch P e with
  | true =>
    have hformat' := hlayout.format.symm.trans hformat
    have hhash := ((Hashed.entryHash_legacy hformat).symm.trans hsame).trans (Hashed.entryHash_legacy hformat')
    have htext := congrArg String.toList (Store.utf8_inj (hashHex_inj hfree he.legacy he'.legacy hhash).2)
    rw [entryPayloadForHashLegacy_toList, entryPayloadForHashLegacy_toList] at htext
    obtain ⟨⟨htimestamp, hkind, hprovider, htokenRef, hexpires, hstatus⟩, hrest⟩ :=
      hashedFields_cut hversion hseq hlayout.provider hlayout.tokenRef hlayout.status htext
    obtain ⟨hpayload, hprev⟩ := cut_last "|prev_hash=" rfl (by decide) he.prev he'.prev hrest
    exact ⟨⟨hseq, htimestamp, hkind, hprovider, htokenRef, hexpires, hstatus,
      payload_inj hround (String.toList_injective hpayload), hlayout.unhashed hformat⟩, String.toList_injective hprev⟩
  | false =>
    have hformat' := hlayout.format.symm.trans hformat
    have hhash := ((he.entryHash_current hformat).symm.trans hsame).trans (he'.entryHash_current hformat')
    have htext := congrArg String.toList (Store.utf8_inj (hashHex_inj hfree he.current he'.current hhash).2)
    rw [entryPayloadForHash_toList, entryPayloadForHash_toList] at htext
    obtain ⟨⟨htimestamp, hkind, hprovider, htokenRef, hexpires, hstatus⟩, hrest⟩ :=
      hashedFields_cut hversion hseq hlayout.provider hlayout.tokenRef hlayout.status htext
    simp only [← List.append_assoc] at hrest
    rw [List.append_assoc _ "|prev_hash=".toList, List.append_assoc _ "|prev_hash=".toList] at hrest
    obtain ⟨hfront, hprev⟩ := cut_last "|prev_hash=" rfl (by decide) he.prev he'.prev hrest
    obtain ⟨hfront, hgenesis⟩ := List.append_inj' hfront (optional_length hlayout.genesis)
    exact ⟨⟨hseq, htimestamp, hkind, hprovider, htokenRef, hexpires, hstatus,
      payload_inj hround (String.toList_injective (List.append_cancel_right hfront)),
      optional_inj hlayout.genesis (String.toList_injective hgenesis)⟩, String.toList_injective hprev⟩

theorem legacyHashMatch_of_sameEvent (hevent : SameEvent e e') (hformat : legacyHashMatch P e = true) :
    legacyHashMatch P e' = true := by
  by_contra hother
  rw [Bool.not_eq_true] at hother
  have hhash := ((Hashed.entryHash_legacy hformat).symm.trans hsame).trans (he'.entryHash_current hother)
  have htext := congrArg String.toList (Store.utf8_inj (hashHex_inj hfree he.legacy he'.current hhash).2)
  have hfields : hashedFields e = hashedFields e' := by
    unfold hashedFields
    rw [he.version, he'.version, hevent.seq, hevent.timestamp, hevent.kind, hevent.provider, hevent.tokenRef,
      hevent.expiresAt, hevent.status, hevent.payload]
  rw [entryPayloadForHashLegacy_toList, entryPayloadForHash_toList, hfields] at htext
  have hcut : [] ++ ("|prev_hash=".toList ++ (e.prevHash.getD "").toList) =
      ("|genesis_entropy_sha256=".toList ++ (e'.genesisEntropySha256.getD "").toList)
        ++ ("|prev_hash=".toList ++ (e'.prevHash.getD "").toList) := by
    rw [List.nil_append, List.append_assoc]
    exact List.append_cancel_left htext
  have hlabel := (cut_last "|prev_hash=" rfl (by decide) he.prev he'.prev hcut).1
  have hlength := congrArg List.length hlabel
  rw [List.length_append, List.length_nil] at hlength
  exact absurd hlength (by
    have hpos : 0 < "|genesis_entropy_sha256=".toList.length := by decide
    omega)

end Entries

/-! ### Ledgers -/

theorem forall₂_append_singleton {α β : Type*} {R : α → β → Prop} {l : List α} {l' : List β} {a : α} {b : β} :
    List.Forall₂ R (l ++ [a]) (l' ++ [b]) ↔ List.Forall₂ R l l' ∧ R a b := by
  rw [← List.forall₂_reverse_iff, List.reverse_append, List.reverse_append]
  simp [and_comm]

section Ledgers

variable {P : Platform} {K : PqKeyCodec P} {env env' : LedgerEnv}

variable {front entries : List (IdentityLedgerEntry F)}

variable {st : ChainState}

theorem verifyFrom_concat (h : verifyFrom K env 0 .start (front ++ [e]) = .ok st) :
    ∃ before, verifyFrom K env 0 .start front = .ok before ∧ verifyEntry K env front.length before e = .ok st := by
  rw [verifyFrom_append, Outcome.bind_eq_ok] at h
  obtain ⟨before, hbefore, hlast⟩ := h
  simp only [verifyFrom, Outcome.bind_eq_ok, Nat.zero_add] at hlast
  obtain ⟨st', hst', hend⟩ := hlast
  obtain rfl := Except.ok.inj hend
  exact ⟨before, hbefore, hst'⟩

theorem verifyFrom_state (h : verifyFrom K env 0 .start entries = .ok st) :
    st.lastHash = entries.getLast?.map (·.entryHash) ∧ st.expectedSeq = nextSeq^[entries.length] 1 ∧
      '|' ∉ (st.lastHash.getD "").toList := by
  induction entries using List.reverseRecOn generalizing st with
  | nil =>
    obtain rfl := Except.ok.inj h
    exact ⟨rfl, rfl, List.not_mem_nil⟩
  | append_singleton front e ih =>
    obtain ⟨before, hbefore, hlast⟩ := verifyFrom_concat h
    obtain ⟨-, -, -, hhash, hlastHash, hseq⟩ := verifyEntry_ok hlast
    refine ⟨by rw [hlastHash, List.getLast?_concat]; rfl, ?_, ?_⟩
    · rw [hseq, (ih hbefore).2.1, List.length_append, List.length_singleton, Function.iterate_succ_apply']
    · rw [hlastHash]
      show '|' ∉ e.entryHash.toList
      obtain hcurrent | hlegacy := hhash
      · rw [← hcurrent]
        exact bar_not_mem_hashHex _ _
      · rw [← of_decide_eq_true hlegacy]
        exact bar_not_mem_hashHex _ _

theorem hashed_of_verified {before : ChainState} (hbefore : verifyFrom K env 0 .start front = .ok before)
    (hlast : verifyEntry K env front.length before e = .ok st) (htexts : hashedTexts (front ++ [e]) ⊆ texts) :
    Hashed P texts e := by
  obtain ⟨hversion, -, hprev, hhash, -, -⟩ := verifyEntry_ok hlast
  exact ⟨hversion, hhash, hprev ▸ (verifyFrom_state hbefore).2.2, htexts ⟨e, by simp, .inl rfl⟩,
    htexts ⟨e, by simp, .inr rfl⟩⟩

theorem hashedTexts_front : hashedTexts front ⊆ hashedTexts (front ++ [e]) := by
  rintro text ⟨entry, hentry, htext⟩
  exact ⟨entry, List.mem_append_left _ hentry, htext⟩

theorem sameEvents_iff_of_verified (hfree : CollisionFreeOn P texts) (hround : F.RoundTrips)
    {entries' : List (IdentityLedgerEntry F)} (hlength : entries.length = entries'.length) {st' : ChainState}
    (h : verifyFrom K env 0 .start entries = .ok st) (h' : verifyFrom K env' 0 .start entries' = .ok st')
    (htexts : hashedTexts entries ⊆ texts) (htexts' : hashedTexts entries' ⊆ texts) (hhead : st.lastHash = st'.lastHash) :
    List.Forall₂ SameEvent entries entries' ↔ List.Forall₂ (SameLayout P) entries entries' := by
  induction entries using List.reverseRecOn generalizing entries' st st' with
  | nil =>
    obtain rfl := List.length_eq_zero_iff.mp hlength.symm
    exact iff_of_true .nil .nil
  | append_singleton front e ih =>
    obtain rfl | ⟨front', e', rfl⟩ := List.eq_nil_or_concat' entries'
    · simp at hlength
    obtain ⟨before, hbefore, hlast⟩ := verifyFrom_concat h
    obtain ⟨before', hbefore', hlast'⟩ := verifyFrom_concat h'
    have hfronts : front.length = front'.length := by simpa using hlength
    have he := hashed_of_verified hbefore hlast htexts
    have he' := hashed_of_verified hbefore' hlast' htexts'
    obtain ⟨-, hseq, hprev, -, hhash, -⟩ := verifyEntry_ok hlast
    obtain ⟨-, hseq', hprev', -, hhash', -⟩ := verifyEntry_ok hlast'
    obtain ⟨hlastHash, hexpected, -⟩ := verifyFrom_state hbefore
    obtain ⟨hlastHash', hexpected', -⟩ := verifyFrom_state hbefore'
    have hnumber : e.seq = e'.seq := by rw [hseq, hseq', hexpected, hexpected', hfronts]
    have hsame : e.entryHash = e'.entryHash := Option.some.inj (hhash.symm.trans (hhead.trans hhash'))
    have hlayout := sameEvent_of_sameLayout hfree he he' hsame hround hnumber
    have hentries : SameEvent e e' ↔ SameLayout P e e' := by
      refine ⟨fun hevent => ⟨Bool.eq_iff_iff.mpr ⟨?_, ?_⟩, by rw [hevent.provider], by rw [hevent.tokenRef],
        by rw [hevent.status], by rw [hevent.genesis], fun _ => hevent.genesis⟩, fun h => (hlayout h).1⟩
      · exact legacyHashMatch_of_sameEvent hfree he he' hsame hevent
      · exact legacyHashMatch_of_sameEvent hfree he' he hsame.symm hevent.symm
    rw [forall₂_append_singleton, forall₂_append_singleton, hentries]
    refine and_congr_left fun hl => ih hfronts hbefore hbefore' (hashedTexts_front.trans htexts)
      (hashedTexts_front.trans htexts') ?_
    -- the previous hashes are both absent or both present, and their texts are equal
    have htext : before.lastHash.getD "" = before'.lastHash.getD "" := by
      rw [← hprev, ← hprev']
      exact (hlayout hl).2
    rw [hlastHash, hlastHash'] at htext ⊢
    obtain rfl | ⟨rest, last, rfl⟩ := List.eq_nil_or_concat' front
    · obtain rfl := List.length_eq_zero_iff.mp hfronts.symm
      rfl
    · obtain rfl | ⟨rest', last', rfl⟩ := List.eq_nil_or_concat' front'
      · simp at hfronts
      · rw [List.getLast?_concat, List.getLast?_concat] at htext ⊢
        exact congrArg some htext

theorem verifyChain_ok (h : verifyChain K env entries = .ok ()) : ∃ st, verifyFrom K env 0 .start entries = .ok st := by
  obtain ⟨st, hst, -⟩ := Outcome.map_eq_ok.mp h
  exact ⟨st, hst⟩

/-- **What the head hash of a ledger binds**: accepted ledgers of one length with one head hash record the same events
exactly when their entries are laid out alike. -/
theorem sameEvents_iff_sameLayouts (K : PqKeyCodec P) (env env' : LedgerEnv) (hround : F.RoundTrips)
    (entries entries' : List (IdentityLedgerEntry F)) (hfree : CollisionFreeOn P (hashedTexts (entries ++ entries')))
    (haccepted : verifyChain K env entries = .ok ()) (haccepted' : verifyChain K env' entries' = .ok ())
    (hlength : entries.length = entries'.length)
    (hhead : entries.getLast?.map (·.entryHash) = entries'.getLast?.map (·.entryHash)) :
    List.Forall₂ SameEvent entries entries' ↔ List.Forall₂ (SameLayout P) entries entries' := by
  obtain ⟨st, hst⟩ := verifyChain_ok haccepted
  obtain ⟨st', hst'⟩ := verifyChain_ok haccepted'
  have hleft : hashedTexts entries ⊆ hashedTexts (entries ++ entries') := by
    rintro text ⟨entry, hentry, htext⟩
    exact ⟨entry, List.mem_append_left _ hentry, htext⟩
  have hright : hashedTexts entries' ⊆ hashedTexts (entries ++ entries') := by
    rintro text ⟨entry, hentry, htext⟩
    exact ⟨entry, List.mem_append_right _ hentry, htext⟩
  refine sameEvents_iff_of_verified hfree hround hlength hst hst' hleft hright ?_
  rw [(verifyFrom_state hst).1, (verifyFrom_state hst').1]
  exact hhead

theorem verifyChain_singleton (hversion : e.version = ledgerVersion) (hseq : e.seq = 1) (hprev : e.prevHash = none)
    (hsignature : e.signature = none) (hkind : e.kind ≠ .genesisEntropyHarvested)
    (hhash : computeEntryHash P e = e.entryHash) : verifyChain K env [e] = .ok () := by
  simp [verifyChain, verifyFrom, verifyEntry, verifySigner, verifyKind, verifyPinned, ChainState.start, hversion, hseq,
    hprev, hsignature, hkind, hhash, Outcome.require, Except.map, Except.bind, bind, pure, Except.pure]

end Ledgers

/-! ### Two providers with one head hash -/

def LedgerFormat.reference : LedgerFormat where
  Value := String
  valueToString := .ok
  valueFromStr := .ok
  getStr _ _ := none
  debugString s := "\"" ++ s ++ "\""

theorem LedgerFormat.reference_roundTrips : LedgerFormat.reference.RoundTrips := fun value => ⟨value, rfl, rfl⟩

def PqKeyCodec.reference : PqKeyCodec .reference where
  encode key := Vector.ofFn fun i => (Vector.toList key).getD i 0
  decode bytes := Vector.ofFn (n := 32) fun i => bytes.toList.getD i 0

/-- The first entry of a ledger, for a provider and a token reference. -/
def revokedEntry (provider tokenRef : Option String) : IdentityLedgerEntry .reference where
  version := 1
  seq := 1
  timestamp := 0
  kind := .socialTokenRevoked
  provider
  tokenRefSha256 := tokenRef
  expiresAt := none
  status := "revoked"
  payload := "null"
  genesisEntropySha256 := none
  prevHash := none
  entryHash := ""
  signature := none
  hashAlgorithm := some "sha512"

def hashedEntry (provider tokenRef : Option String) : IdentityLedgerEntry .reference :=
  { revokedEntry provider tokenRef with entryHash := computeEntryHash .reference (revokedEntry provider tokenRef) }

theorem hashedEntry_accepted (env : LedgerEnv) (provider tokenRef : Option String) :
    verifyChain PqKeyCodec.reference env [hashedEntry provider tokenRef] = .ok () := by
  have hkind : (hashedEntry provider tokenRef).kind ≠ .genesisEntropyHarvested := by simp [hashedEntry, revokedEntry]
  exact verifyChain_singleton (e := hashedEntry provider tokenRef) rfl rfl rfl rfl hkind
    (computeEntryHash_setHash .reference (revokedEntry provider tokenRef) _)

theorem hashedFields_revokedEntry (provider tokenRef : String) :
    hashedFields (revokedEntry (some (provider ++ "|token_ref=" ++ tokenRef)) none) =
      hashedFields (revokedEntry (some provider) (some (tokenRef ++ "|token_ref="))) := by
  unfold hashedFields revokedEntry
  simp only [Option.getD_some, Option.getD_none, String.append_empty, String.append_assoc]

theorem digest_ne {n i : Nat} (hi : i < n) (front front' : Bytes) {back back' : Bytes} (hback : i < back.length)
    (hback' : i < back'.length) (h : back.reverse.getD i 0 ≠ back'.reverse.getD i 0) :
    Reference.digest n (front ++ back) ≠ Reference.digest n (front' ++ back') := by
  intro heq
  have hget := congrArg (fun v : Vector UInt8 n => v[i]) heq
  simp only [Reference.digest, Vector.getElem_ofFn, List.reverse_append] at hget
  rw [List.getD_append _ _ _ _ (by simpa using hback), List.getD_append _ _ _ _ (by simpa using hback')] at hget
  exact h hget

theorem injOn_digest {n : Nat} {a b : Bytes} (hne : Reference.digest n a ≠ Reference.digest n b) {texts : Set Bytes}
    (h : ∀ text ∈ texts, text = a ∨ text = b) : Set.InjOn (Reference.digest n) texts := by
  intro x hx y hy hxy
  obtain rfl | rfl := h x hx
  · obtain rfl | rfl := h y hy
    · rfl
    · exact absurd hxy hne
  · obtain rfl | rfl := h y hy
    · exact absurd hxy.symm hne
    · rfl

theorem revokedEntry_text (provider tokenRef : Option String) :
    utf8 (entryPayloadForHash (revokedEntry provider tokenRef)) =
      utf8 (hashedFields (revokedEntry provider tokenRef)) ++ utf8 "|genesis_entropy_sha256=|prev_hash=" := by
  have htext : entryPayloadForHash (revokedEntry provider tokenRef) =
      hashedFields (revokedEntry provider tokenRef) ++ "|genesis_entropy_sha256=|prev_hash=" := by
    unfold entryPayloadForHash
    simp only [String.append_assoc]
    rfl
  rw [htext, Text.utf8_append]

theorem revokedEntry_textLegacy (provider tokenRef : Option String) :
    ∃ front, utf8 (entryPayloadForHashLegacy (revokedEntry provider tokenRef)) = front ++ utf8 "null|prev_hash=" := by
  obtain ⟨front, hfront⟩ : ∃ front, hashedFields (revokedEntry provider tokenRef) = front ++ "null" := ⟨_, rfl⟩
  have htext : entryPayloadForHashLegacy (revokedEntry provider tokenRef) = front ++ "null|prev_hash=" := by
    unfold entryPayloadForHashLegacy
    rw [hfront]
    simp only [String.append_assoc]
    rfl
  exact ⟨utf8 front, by rw [htext, Text.utf8_append]⟩

theorem collisionFreeOn_revoked {texts : Set Bytes} (provider tokenRef : Option String)
    (h : ∀ text ∈ texts, text = utf8 (entryPayloadForHash (revokedEntry provider tokenRef)) ∨
      text = utf8 (entryPayloadForHashLegacy (revokedEntry provider tokenRef))) :
    CollisionFreeOn .reference texts := by
  obtain ⟨front, hlegacy⟩ := revokedEntry_textLegacy provider tokenRef
  rw [revokedEntry_text, hlegacy] at h
  have hne {n : Nat} (hn : 11 < n) :
      Reference.digest n (utf8 (hashedFields (revokedEntry provider tokenRef)) ++
        utf8 "|genesis_entropy_sha256=|prev_hash=") ≠ Reference.digest n (front ++ utf8 "null|prev_hash=") :=
    digest_ne hn _ _ (by decide) (by decide) (by decide)
  exact ⟨injOn_digest (hne (n := 32) (by decide)) h, injOn_digest (hne (n := 64) (by decide)) h⟩

theorem mem_hashedTexts_hashedEntry {text : Bytes} {provider tokenRef : Option String}
    (h : text = utf8 (entryPayloadForHash (hashedEntry provider tokenRef)) ∨
      text = utf8 (entryPayloadForHashLegacy (hashedEntry provider tokenRef))) :
    text = utf8 (entryPayloadForHash (revokedEntry provider tokenRef)) ∨
      text = utf8 (entryPayloadForHashLegacy (revokedEntry provider tokenRef)) := by
  unfold hashedEntry at h
  rw [entryPayloadForHash_setHash, entryPayloadForHashLegacy_setHash] at h
  exact h

def LedgerEnv.reference : LedgerEnv := ⟨none, none, none, none⟩

/-- The two fields of the one entry are one field of the other. -/
def glued : IdentityLedgerEntry .reference := hashedEntry (some ("a" ++ "|token_ref=" ++ "b")) none

def apart : IdentityLedgerEntry .reference := hashedEntry (some "a") (some ("b" ++ "|token_ref="))

theorem glued_apart : CollisionFreeOn .reference (hashedTexts ([glued] ++ [apart])) ∧
    [glued].getLast?.map (·.entryHash) = [apart].getLast?.map (·.entryHash) := by
  have hfields := hashedFields_revokedEntry "a" "b"
  have hcurrent : entryPayloadForHash (revokedEntry (some ("a" ++ "|token_ref=" ++ "b")) none) =
      entryPayloadForHash (revokedEntry (some "a") (some ("b" ++ "|token_ref="))) := by
    unfold entryPayloadForHash
    rw [hfields]
    rfl
  have hlegacy : entryPayloadForHashLegacy (revokedEntry (some ("a" ++ "|token_ref=" ++ "b")) none) =
      entryPayloadForHashLegacy (revokedEntry (some "a") (some ("b" ++ "|token_ref="))) := by
    unfold entryPayloadForHashLegacy
    rw [hfields]
    rfl
  constructor
  · refine collisionFreeOn_revoked (some "a") (some ("b" ++ "|token_ref=")) ?_
    rintro text ⟨e, he, htext⟩
    obtain rfl | rfl : e = glued ∨ e = apart := by simpa using he
    · rw [← hcurrent, ← hlegacy]
      exact mem_hashedTexts_hashedEntry htext
    · exact mem_hashedTexts_hashedEntry htext
  · have hhash : computeEntryHash .reference (revokedEntry (some ("a" ++ "|token_ref=" ++ "b")) none) =
        computeEntryHash .reference (revokedEntry (some "a") (some ("b" ++ "|token_ref="))) := by
      unfold computeEntryHash
      rw [hcurrent]
      rfl
    exact congrArg some hhash

theorem sameEvents_of_two_ledgers : ¬ List.Forall₂ SameEvent [glued] [apart] := by
  refine (sameEvents_iff_sameLayouts PqKeyCodec.reference .reference .reference LedgerFormat.reference_roundTrips
    [glued] [apart] glued_apart.1 (hashedEntry_accepted .reference _ _) (hashedEntry_accepted .reference _ _) rfl
    glued_apart.2).not.mpr ?_
  rintro (- | ⟨hlayout, -⟩)
  exact absurd hlayout.tokenRef (by simp [glued, apart, hashedEntry, revokedEntry])

/-- Two accepted ledgers of one entry have the same head hash and name different providers. -/
theorem provider_not_bound : ∃ e e' : IdentityLedgerEntry .reference,
    CollisionFreeOn .reference (hashedTexts ([e] ++ [e'])) ∧
      verifyChain PqKeyCodec.reference .reference [e] = .ok () ∧
      verifyChain PqKeyCodec.reference .reference [e'] = .ok () ∧
      [e].getLast?.map (·.entryHash) = [e'].getLast?.map (·.entryHash) ∧ e.provider ≠ e'.provider :=
  ⟨glued, apart, glued_apart.1, hashedEntry_accepted _ _ _, hashedEntry_accepted _ _ _, glued_apart.2,
    by simp [glued, apart, hashedEntry, revokedEntry]⟩

end AgentHalo.Identity
