import AgentHalo.Store.Codec
import AgentHalo.Verifier.Checker

/-!
# Signing a certificate

The signer appends the signer's name and key to a certificate and signs the lines. It trims its lines at the end only and
signs every line that is not empty; the checker trims both ends and leaves comments and malformed metadata out. They are
over one text exactly if every line of the certificate is one that both keep as it is (`signing_keeps_iff`).
-/

namespace AgentHalo.Verifier

open Outcome
open Pod (DidCodec DIDIdentity typeEd25519)
open Text (utf8 isWhitespace trimChars)

def trimEndChars (line : List Char) : List Char := (line.reverse.dropWhile isWhitespace).reverse

def metaLine (key value : String) : List Char := "#META ".toList ++ key.toList ++ ' ' :: value.toList

def isSigningLine (line : List Char) : Bool :=
  "#META signing_did ".toList.isPrefixOf line || "#META signing_key_multibase ".toList.isPrefixOf line ||
    "#META signature_ed25519 ".toList.isPrefixOf line

def bodyLines (body : String) : List (List Char) :=
  ((Lines.lines body.toList).map trimEndChars).filter (· ≠ [])

variable {P : Platform}

def payloadLines (body did keyMultibase : String) : List (List Char) :=
  bodyLines body ++ [metaLine "signing_did" did, metaLine "signing_key_multibase" keyMultibase]

def signedPayload (body did keyMultibase : String) : String :=
  String.ofList (['\n'].intercalate (payloadLines body did keyMultibase))

def signCertificateText (B : Base64) (body : String) (identity : DIDIdentity P) : Except String String := do
  let method ← okOr "local DID document is missing an Ed25519 verification method"
    (identity.didDocument.verificationMethod.find? (·.type = typeEd25519))
  require (((Lines.lines body.toList).map trimEndChars).all fun line => !isSigningLine line)
    "certificate already contains signing metadata"
  let payload := signedPayload body identity.did method.publicKeyMultibase
  let signature := P.ed25519.sign identity.ed25519SigningKey (utf8 payload)
  return payload ++ "\n" ++ String.ofList (metaLine "signature_ed25519" (B.encode signature.toList)) ++ "\n"

/-! ### Trimming -/

variable {line : List Char}

theorem trimEndChars_eq_nil_iff : trimEndChars line = [] ↔ trimChars line = [] := by
  rw [Text.trimChars_eq_nil_iff, trimEndChars, List.reverse_eq_nil_iff, List.dropWhile_eq_nil_iff]
  simp

theorem trimEndChars_cons (c : Char) (line : List Char) : trimEndChars (c :: line) =
    if trimEndChars line = [] then if isWhitespace c then [] else [c] else c :: trimEndChars line := by
  unfold trimEndChars
  rw [List.reverse_cons, List.dropWhile_append]
  cases hrest : line.reverse.dropWhile isWhitespace with
  | nil => cases hc : isWhitespace c <;> simp [hc]
  | cons d rest => simp

theorem dropWhile_trimEndChars (line : List Char) :
    (trimEndChars line).dropWhile isWhitespace = trimEndChars (line.dropWhile isWhitespace) := by
  induction line with
  | nil => rfl
  | cons c line ih =>
    cases hc : isWhitespace c with
    | false =>
      rw [List.dropWhile_cons_of_neg (by simp [hc]), trimEndChars_cons]
      split <;> simp [hc]
    | true =>
      rw [List.dropWhile_cons_of_pos hc, ← ih, trimEndChars_cons]
      split
      · rename_i hnil
        simp [hnil]
      · rw [List.dropWhile_cons_of_pos hc]

theorem trimEndChars_trimEndChars (line : List Char) : trimEndChars (trimEndChars line) = trimEndChars line :=
  List.rdropWhile_idempotent isWhitespace line

theorem trimChars_trimEndChars (line : List Char) : trimChars (trimEndChars line) = trimChars line :=
  calc
    trimChars (trimEndChars line) = trimEndChars ((trimEndChars line).dropWhile isWhitespace) := rfl
    _ = trimEndChars (trimEndChars (line.dropWhile isWhitespace)) := by rw [dropWhile_trimEndChars]
    _ = trimEndChars (line.dropWhile isWhitespace) := trimEndChars_trimEndChars _

theorem getLast?_trimEndChars {c : Char} (h : (trimEndChars line).getLast? = some c) : isWhitespace c = false := by
  have hhead := List.head?_dropWhile_not isWhitespace line.reverse
  rw [trimEndChars, List.getLast?_reverse] at h
  rw [h] at hhead
  simpa using hhead

theorem trimChars_eq_self {c d : Char} (hc : isWhitespace c = false) (hd : isWhitespace d = false)
    (hlast : (c :: line).getLast? = some d) : trimChars (c :: line) = c :: line := by
  have hend : trimEndChars (c :: line) = c :: line := by
    unfold trimEndChars
    rw [← List.head?_reverse] at hlast
    cases hreverse : (c :: line).reverse with
    | nil => simp at hreverse
    | cons e rest =>
      rw [hreverse] at hlast
      obtain rfl := Option.some.inj hlast
      rw [List.dropWhile_cons_of_neg (by simp [hd]), ← hreverse, List.reverse_reverse]
  calc
    trimChars (c :: line) = trimEndChars ((c :: line).dropWhile isWhitespace) := rfl
    _ = trimEndChars (c :: line) := by rw [List.dropWhile_cons_of_neg (by simp [hc])]
    _ = c :: line := hend

theorem trimChars_cons_of_pos {c : Char} (hc : isWhitespace c = true) (line : List Char) :
    trimChars (c :: line) = trimChars line := by
  unfold trimChars
  rw [List.dropWhile_cons_of_pos hc]

/-! ### Written lines of metadata -/

/-- A text without white space, and not empty. -/
structure Word (s : String) : Prop where
  nonempty : s ≠ ""
  solid : ∀ c ∈ s.toList, isWhitespace c = false

namespace Word

variable {s : String}

theorem of_all (hne : s ≠ "") (h : (s.toList.all fun c => !isWhitespace c) = true) : Word s :=
  ⟨hne, fun c hc => by simpa using List.all_eq_true.mp h c hc⟩

theorem toList_ne_nil (h : Word s) : s.toList ≠ [] := fun hnil => h.nonempty (String.toList_eq_nil_iff.mp hnil)

theorem exists_getLast? (h : Word s) : ∃ d, s.toList.getLast? = some d ∧ isWhitespace d = false :=
  ⟨_, List.getLast?_eq_some_getLast h.toList_ne_nil, h.solid _ (List.getLast_mem _)⟩

theorem trimChars_append {t : String} (hs : Word s) (ht : Word t) (middle : List Char) :
    trimChars (s.toList ++ middle ++ t.toList) = s.toList ++ middle ++ t.toList := by
  obtain ⟨c, rest, hcons⟩ := List.exists_cons_of_ne_nil hs.toList_ne_nil
  obtain ⟨d, hd, hsolid⟩ := ht.exists_getLast?
  have hc : isWhitespace c = false := hs.solid c (hcons ▸ List.mem_cons_self)
  have hlast : (s.toList ++ middle ++ t.toList).getLast? = some d := by rw [List.getLast?_append, hd]; rfl
  rw [hcons] at hlast ⊢
  exact trimChars_eq_self hc hsolid hlast

theorem trimChars_self (hs : Word s) : trimChars s.toList = s.toList := by
  obtain ⟨c, rest, hcons⟩ := List.exists_cons_of_ne_nil hs.toList_ne_nil
  obtain ⟨d, hd, hsolid⟩ := hs.exists_getLast?
  have hc : isWhitespace c = false := hs.solid c (hcons ▸ List.mem_cons_self)
  rw [hcons] at hd ⊢
  exact trimChars_eq_self hc hsolid hd

end Word

theorem metaLine_eq (key value : String) :
    metaLine key value = '#' :: 'M' :: 'E' :: 'T' :: 'A' :: ' ' :: (key.toList ++ ' ' :: value.toList) := rfl

section MetaLine

variable {key value : String} (hkey : Word key) (hvalue : Word value)

include hvalue in
theorem trimChars_metaLine : trimChars (metaLine key value) = metaLine key value := by
  have hword : Word "#META" := .of_all (by decide) (by decide)
  have hmeta : "#META".toList = ['#', 'M', 'E', 'T', 'A'] := rfl
  have hsplit : metaLine key value = "#META".toList ++ (' ' :: key.toList ++ [' ']) ++ value.toList := by
    rw [metaLine_eq, hmeta]
    simp only [List.append_assoc, List.cons_append, List.nil_append]
  exact (congrArg trimChars hsplit).trans ((hword.trimChars_append hvalue _).trans hsplit.symm)

include hvalue in
theorem stripCr_metaLine : Lines.stripCr (metaLine key value) = metaLine key value := by
  obtain ⟨d, hd, hsolid⟩ := hvalue.exists_getLast?
  have hback : (' ' :: value.toList).getLast? = some d := by
    rw [List.getLast?_cons, hd]
    rfl
  have hlast : (metaLine key value).getLast? = some d :=
    (List.getLast?_append_of_ne_nil _ (List.cons_ne_nil _ _)).trans hback
  refine if_neg fun hcr => ?_
  rw [hlast] at hcr
  obtain rfl := Option.some.inj hcr
  exact absurd hsolid (by decide)

include hkey hvalue

theorem metaRest_metaLine : metaRest (metaLine key value) = key.toList ++ ' ' :: value.toList := by
  have hdrop : (metaLine key value).drop 5 = ' ' :: (key.toList ++ [' '] ++ value.toList) := by simp [metaLine_eq]
  rw [metaRest, hdrop, trimChars_cons_of_pos (by decide), hkey.trimChars_append hvalue]
  simp

theorem metaKey_metaLine : metaKey (metaLine key value) = key := by
  rw [metaKey, metaRest_metaLine hkey hvalue, List.takeWhile_append_of_pos fun c hc => by rw [hkey.solid c hc]; rfl]
  simp [show isWhitespace ' ' = true by decide]

theorem metaValue_metaLine : metaValue (metaLine key value) = value := by
  rw [metaValue, metaRest_metaLine hkey hvalue, List.dropWhile_append_of_pos fun c hc => by rw [hkey.solid c hc]; rfl]
  simp [show isWhitespace ' ' = true by decide, hvalue.trimChars_self]

theorem newline_not_mem_metaLine : '\n' ∉ metaLine key value := by
  have hsolid {s : String} (hs : Word s) : '\n' ∉ s.toList := fun hmem => absurd (hs.solid _ hmem) (by decide)
  simp [metaLine_eq, hsolid hkey, hsolid hvalue]

theorem scanLine_metaLine (scan : Scan) : scanLine scan (metaLine key value) =
    { scan with
      metadata := (parseMeta scan.metadata key value).1
      errors := scan.errors ++ (parseMeta scan.metadata key value).2
      signableLines :=
        if key ≠ "signature_ed25519" then scan.signableLines ++ [metaLine key value] else scan.signableLines } := by
  have hne : metaLine key value ≠ [] := List.cons_ne_nil _ _
  have hcomment : isComment (metaLine key value) = false := rfl
  have hmeta : isMeta (metaLine key value) = true := rfl
  rw [scanLine, if_neg (by simp [hne, hcomment]), if_pos hmeta, scanMeta, metaKey_metaLine hkey hvalue,
    metaValue_metaLine hkey hvalue, if_neg (by simp [hkey.nonempty, hvalue.nonempty])]

end MetaLine

/-! ### The lines of a signed certificate -/

theorem newline_not_mem_trimEndChars (h : '\n' ∉ line) : '\n' ∉ trimEndChars line := by
  intro hmem
  exact h (List.mem_reverse.mp (List.dropWhile_subset _ (List.mem_reverse.mp hmem)))

theorem newline_not_mem_trimChars (h : '\n' ∉ line) : '\n' ∉ trimChars line :=
  newline_not_mem_trimEndChars fun hmem => h (List.dropWhile_subset _ hmem)

theorem stripCr_trimEndChars (line : List Char) : Lines.stripCr (trimEndChars line) = trimEndChars line :=
  if_neg fun hcr => absurd (getLast?_trimEndChars hcr) (by decide)

theorem mem_bodyLines {body : String} :
    line ∈ bodyLines body ↔ ∃ raw ∈ Lines.lines body.toList, trimEndChars raw = line ∧ line ≠ [] := by
  simp only [bodyLines, List.mem_filter, List.mem_map, decide_eq_true_eq]
  constructor
  · rintro ⟨⟨raw, hraw, rfl⟩, hne⟩
    exact ⟨raw, hraw, rfl, hne⟩
  · rintro ⟨raw, hraw, rfl, hne⟩
    exact ⟨⟨raw, hraw, rfl⟩, hne⟩

theorem newline_not_mem_bodyLines {body : String} (h : line ∈ bodyLines body) : '\n' ∉ line := by
  obtain ⟨raw, hraw, rfl, -⟩ := mem_bodyLines.mp h
  exact newline_not_mem_trimEndChars (Lines.not_mem_of_mem_lines hraw)

theorem foldl_bodyLines (scan : Scan) (raws : List (List Char)) :
    ((((raws.map trimEndChars).filter (· ≠ [])).map trimChars).foldl scanLine scan) =
      (raws.map trimChars).foldl scanLine scan := by
  induction raws generalizing scan with
  | nil => rfl
  | cons raw raws ih =>
    rw [List.map_cons, List.map_cons, List.foldl_cons]
    by_cases hblank : trimEndChars raw = []
    · rw [List.filter_cons_of_neg (by simp [hblank]), ih, trimEndChars_eq_nil_iff.mp hblank, scanLine, if_pos (.inl rfl)]
    · rw [List.filter_cons_of_pos (by simp [hblank]), List.map_cons, List.foldl_cons, trimChars_trimEndChars, ih]

section Words

variable {body did keyMultibase sigB64 : String} (hdid : Word did) (hkeyMultibase : Word keyMultibase) (hsig : Word sigB64)
include hdid hkeyMultibase

theorem newline_not_mem_payloadLines : ∀ line ∈ payloadLines body did keyMultibase, '\n' ∉ line := by
  intro line hline
  simp only [payloadLines, List.mem_append, List.mem_cons, List.not_mem_nil, or_false] at hline
  obtain hbody | rfl | rfl := hline
  · exact newline_not_mem_bodyLines hbody
  · exact newline_not_mem_metaLine (.of_all (by decide) (by decide)) hdid
  · exact newline_not_mem_metaLine (.of_all (by decide) (by decide)) hkeyMultibase

include hsig

theorem scanText_signed :
    scanText (signedPayload body did keyMultibase ++ "\n" ++ String.ofList (metaLine "signature_ed25519" sigB64) ++ "\n") =
      { scanText body with
        metadata := { (scanText body).metadata with
          signingDid := some did, signingKeyMultibase := some keyMultibase, signatureEd25519 := some sigB64 }
        signableLines := (scanText body).signableLines ++
          [metaLine "signing_did" did, metaLine "signing_key_multibase" keyMultibase] } := by
  have hwritten : (signedPayload body did keyMultibase ++ "\n" ++ String.ofList (metaLine "signature_ed25519" sigB64) ++
      "\n").toList = Lines.written (payloadLines body did keyMultibase ++ [metaLine "signature_ed25519" sigB64]) := by
    have hjoin : ['\n'].intercalate (payloadLines body did keyMultibase) ++ ['\n'] =
        Lines.written (payloadLines body did keyMultibase) :=
      Lines.intercalate_append_newline (by simp [payloadLines])
    simp only [String.toList_append, signedPayload, String.toList_ofList]
    rw [show "\n".toList = ['\n'] from rfl, hjoin]
    simp [Lines.written]
  have hsigKey : Word "signature_ed25519" := .of_all (by decide) (by decide)
  have hdidKey : Word "signing_did" := .of_all (by decide) (by decide)
  have hkeyKey : Word "signing_key_multibase" := .of_all (by decide) (by decide)
  have hlines : Lines.lines (Lines.written (payloadLines body did keyMultibase ++ [metaLine "signature_ed25519" sigB64])) =
      payloadLines body did keyMultibase ++ [metaLine "signature_ed25519" sigB64] := by
    rw [Lines.lines_written]
    · have hbody : (bodyLines body).map Lines.stripCr = bodyLines body := by
        refine (List.map_congr_left fun line hline => ?_).trans (List.map_id _)
        obtain ⟨raw, -, rfl, -⟩ := mem_bodyLines.mp hline
        exact stripCr_trimEndChars raw
      simp [payloadLines, hbody, stripCr_metaLine hdid, stripCr_metaLine hkeyMultibase, stripCr_metaLine hsig]
    · intro line hline
      obtain hline | hline := List.mem_append.mp hline
      · exact newline_not_mem_payloadLines hdid hkeyMultibase line hline
      · exact List.mem_singleton.mp hline ▸ newline_not_mem_metaLine hsigKey hsig
  rw [scanText, hwritten, hlines, payloadLines]
  simp only [List.map_append, List.map_cons, List.map_nil, List.foldl_append, List.foldl_cons, List.foldl_nil,
    trimChars_metaLine hdid, trimChars_metaLine hkeyMultibase, trimChars_metaLine hsig, bodyLines, foldl_bodyLines]
  rw [scanLine_metaLine hdidKey hdid, scanLine_metaLine hkeyKey hkeyMultibase, scanLine_metaLine hsigKey hsig]
  simp [parseMeta, scanText]

end Words

/-! ### The lines that the checker keeps -/

def IsMetaOf (line : List Char) (key : String) : Prop :=
  isComment line = false ∧ isMeta line = true ∧ metaKey line = key ∧ key ≠ "" ∧ metaValue line ≠ ""

def signable? (line : List Char) : Option (List Char) :=
  if line = [] ∨ isComment line = true then none
  else if isMeta line = true ∧ (metaKey line = "" ∨ metaValue line = "" ∨ metaKey line = "signature_ed25519") then none
  else some line

theorem eq_of_signable? {kept : List Char} (h : signable? line = some kept) : kept = line := by
  unfold signable? at h
  split at h
  · cases h
  · split at h
    · cases h
    · exact (Option.some.inj h).symm

theorem signableLines_scanLine (scan : Scan) (line : List Char) :
    (scanLine scan line).signableLines = scan.signableLines ++ (signable? line).toList := by
  unfold scanLine signable?
  split
  · simp
  · split
    · rename_i hmeta
      unfold scanMeta
      split
      · rename_i hbad
        rw [if_pos ⟨hmeta, hbad.elim .inl fun h => .inr (.inl h)⟩]
        simp
      · rename_i hgood
        obtain ⟨hkey, hvalue⟩ := not_or.mp hgood
        by_cases hsig : metaKey line = "signature_ed25519"
        · simp [hsig, hmeta]
        · simp [hsig, hkey, hvalue]
    · rename_i hmeta
      rw [if_neg fun h => hmeta h.1]
      rfl

theorem signableLines_foldl (scan : Scan) (ls : List (List Char)) :
    (ls.foldl scanLine scan).signableLines = scan.signableLines ++ ls.filterMap signable? := by
  induction ls generalizing scan with
  | nil => simp
  | cons line ls ih =>
    rw [List.foldl_cons, ih, signableLines_scanLine, List.filterMap_cons]
    cases signable? line <;> simp

section Field

variable (field : ExportMetadata → Option String) (key : String)
  (hset : ∀ m value, (field (parseMeta m key value).1).isSome)
  (hother : ∀ m key' value, key' ≠ key → field (parseMeta m key' value).1 = field m)

include hset in
theorem field_scanLine_of_isMetaOf (h : IsMetaOf line key) (scan : Scan) :
    (field (scanLine scan line).metadata).isSome := by
  obtain ⟨hcomment, hmeta, rfl, hkey, hvalue⟩ := h
  have hne : line ≠ [] := by
    rintro rfl
    cases hmeta
  rw [scanLine, if_neg (by simp [hne, hcomment]), if_pos hmeta, scanMeta, if_neg (by simp [hkey, hvalue])]
  exact hset _ _

include hother

theorem field_scanLine_of_not (h : ¬ IsMetaOf line key) (scan : Scan) :
    field (scanLine scan line).metadata = field scan.metadata := by
  unfold scanLine
  split
  · rfl
  · rename_i hcomment
    split
    · rename_i hmeta
      unfold scanMeta
      split
      · rfl
      · rename_i hgood
        refine hother _ _ _ fun hkey => h ?_
        obtain ⟨hkeyNe, hvalue⟩ := not_or.mp hgood
        exact ⟨by simpa using (not_or.mp hcomment).2, hmeta, hkey, hkey ▸ hkeyNe, hvalue⟩
    · rfl

include hset

theorem field_foldl (scan : Scan) (ls : List (List Char)) : field (ls.foldl scanLine scan).metadata = none ↔
    field scan.metadata = none ∧ ∀ line ∈ ls, ¬ IsMetaOf line key := by
  -- a field that is set stays set: read the list from its end
  induction ls using List.reverseRecOn with
  | nil => simp
  | append_singleton ls line ih =>
    rw [List.foldl_append, List.foldl_cons, List.foldl_nil]
    by_cases hline : IsMetaOf line key
    · have hsome := field_scanLine_of_isMetaOf field key hset hline (ls.foldl scanLine scan)
      constructor
      · intro hnone
        rw [hnone] at hsome
        cases hsome
      · rintro ⟨-, hall⟩
        exact absurd hline (hall line (by simp))
    · rw [field_scanLine_of_not field key hother hline, ih, List.forall_mem_append]
      simp [hline]

end Field

theorem signingKeyMultibase_scanText (raw : String) : (scanText raw).metadata.signingKeyMultibase = none ↔
    ∀ line ∈ (Lines.lines raw.toList).map trimChars, ¬ IsMetaOf line "signing_key_multibase" := by
  unfold scanText
  rw [field_foldl ExportMetadata.signingKeyMultibase "signing_key_multibase" (fun _ _ => rfl) ?_]
  · simp [Scan.empty, ExportMetadata.default]
  · intro m key value hkey
    unfold parseMeta
    split <;> first | rfl | (split <;> rfl) | exact absurd rfl hkey

theorem signatureEd25519_scanText (raw : String) : (scanText raw).metadata.signatureEd25519 = none ↔
    ∀ line ∈ (Lines.lines raw.toList).map trimChars, ¬ IsMetaOf line "signature_ed25519" := by
  unfold scanText
  rw [field_foldl ExportMetadata.signatureEd25519 "signature_ed25519" (fun _ _ => rfl) ?_]
  · simp [Scan.empty, ExportMetadata.default]
  · intro m key value hkey
    unfold parseMeta
    split <;> first | rfl | (split <;> rfl) | exact absurd rfl hkey

theorem filterMap_eq_self_iff {α : Type*} {f : α → Option α} {l : List α} :
    l.filterMap f = l ↔ ∀ a ∈ l, f a = some a := by
  induction l with
  | nil => simp
  | cons a l ih =>
    rw [List.filterMap_cons, List.forall_mem_cons, ← ih]
    cases hfa : f a with
    | none =>
      -- the list would be as long as one that is shorter
      refine iff_of_false (fun h => ?_) (by simp)
      have hlen := List.length_filterMap_le f l
      rw [show l.filterMap f = a :: l from h, List.length_cons] at hlen
      omega
    | some b => simp

theorem signableLines_eq_bodyLines_iff (body : String) : (scanText body).signableLines = bodyLines body ↔
    ∀ line ∈ Lines.lines body.toList, trimChars line ≠ [] → signable? (trimChars line) = some (trimEndChars line) := by
  have hsignable : (scanText body).signableLines = (bodyLines body).filterMap fun line => signable? (trimChars line) := by
    rw [scanText, ← foldl_bodyLines, signableLines_foldl, List.filterMap_map]
    rfl
  rw [hsignable, filterMap_eq_self_iff]
  constructor
  · intro h line hline hne
    have hkept := h _ (mem_bodyLines.mpr ⟨line, hline, rfl, fun hnil => hne (trimEndChars_eq_nil_iff.mp hnil)⟩)
    rwa [trimChars_trimEndChars] at hkept
  · intro h line hline
    obtain ⟨raw, hraw, rfl, hne⟩ := mem_bodyLines.mp hline
    rw [trimChars_trimEndChars]
    exact h raw hraw fun hnil => hne (trimEndChars_eq_nil_iff.mpr hnil)

/-- A line that both sides keep as it is: not indented, not a comment, and if metadata then with key and value, neither a
signature nor a signing key. -/
structure KeptAsIs (line : List Char) : Prop where
  front : trimEndChars line = trimChars line
  comment : isComment (trimChars line) = false
  complete : isMeta (trimChars line) = true → metaKey (trimChars line) ≠ "" ∧ metaValue (trimChars line) ≠ ""
  unsigned : isMeta (trimChars line) = true →
    metaKey (trimChars line) ≠ "signature_ed25519" ∧ metaKey (trimChars line) ≠ "signing_key_multibase"

theorem keptAsIs_iff (hne : trimChars line ≠ []) : KeptAsIs line ↔
    signable? (trimChars line) = some (trimEndChars line) ∧ ¬ IsMetaOf (trimChars line) "signing_key_multibase" := by
  constructor
  · rintro ⟨hfront, hcomment, hcomplete, hunsigned⟩
    refine ⟨?_, fun ⟨_, hmeta, hkey, _, _⟩ => (hunsigned hmeta).2 hkey⟩
    rw [signable?, if_neg (by simp [hne, hcomment]), if_neg, hfront]
    rintro ⟨hmeta, hkey | hvalue | hsig⟩
    · exact (hcomplete hmeta).1 hkey
    · exact (hcomplete hmeta).2 hvalue
    · exact (hunsigned hmeta).1 hsig
  · rintro ⟨hsignable, hkey⟩
    have hfront := eq_of_signable? hsignable
    unfold signable? at hsignable
    split at hsignable
    · cases hsignable
    rename_i hcomment
    split at hsignable
    · cases hsignable
    rename_i hmeta
    have hcomment' : isComment (trimChars line) = false := by simpa using (not_or.mp hcomment).2
    have hcomplete (h : isMeta (trimChars line) = true) :
        metaKey (trimChars line) ≠ "" ∧ metaValue (trimChars line) ≠ "" ∧
          metaKey (trimChars line) ≠ "signature_ed25519" := by
      simpa [h] using hmeta
    refine ⟨hfront, hcomment', fun h => ⟨(hcomplete h).1, (hcomplete h).2.1⟩, fun h => ⟨(hcomplete h).2.2, fun hsame => ?_⟩⟩
    exact hkey ⟨hcomment', h, hsame, by decide, (hcomplete h).2.1⟩

theorem newline_not_mem_signableLines {body : String} (h : line ∈ (scanText body).signableLines) : '\n' ∉ line := by
  rw [scanText, signableLines_foldl] at h
  obtain ⟨trimmed, htrimmed, hkept⟩ := List.mem_filterMap.mp (by simpa [Scan.empty] using h :
    line ∈ ((Lines.lines body.toList).map trimChars).filterMap signable?)
  obtain ⟨raw, hraw, rfl⟩ := List.mem_map.mp htrimmed
  rw [eq_of_signable? hkept]
  exact newline_not_mem_trimChars (Lines.not_mem_of_mem_lines hraw)

theorem forall_keptAsIs_iff (body : String) :
    (∀ line ∈ Lines.lines body.toList, trimChars line ≠ [] → KeptAsIs line) ↔
      (scanText body).signableLines = bodyLines body ∧ (scanText body).metadata.signingKeyMultibase = none := by
  rw [signableLines_eq_bodyLines_iff, signingKeyMultibase_scanText]
  constructor
  · intro h
    refine ⟨fun line hline hne => ((keptAsIs_iff hne).mp (h line hline hne)).1, fun trimmed htrimmed hkey => ?_⟩
    obtain ⟨line, hline, rfl⟩ := List.mem_map.mp htrimmed
    have hne : trimChars line ≠ [] := by
      intro hnil
      rw [hnil] at hkey
      cases hkey.2.1
    exact ((keptAsIs_iff hne).mp (h line hline hne)).2 hkey
  · rintro ⟨hsignable, hkey⟩ line hline hne
    exact (keptAsIs_iff hne).mpr ⟨hsignable line hline hne, hkey _ (List.mem_map_of_mem hline)⟩

theorem signatureEd25519_of_signableLines {body : String} (h : (scanText body).signableLines = bodyLines body) :
    (scanText body).metadata.signatureEd25519 = none := by
  rw [signatureEd25519_scanText]
  rintro trimmed htrimmed ⟨hcomment, hmeta, hkey, -, -⟩
  obtain ⟨line, hline, rfl⟩ := List.mem_map.mp htrimmed
  have hne : trimChars line ≠ [] := by
    intro hnil
    rw [hnil] at hmeta
    cases hmeta
  have hkept := (signableLines_eq_bodyLines_iff body).mp h line hline hne
  rw [signable?, if_neg (by simp [hne, hcomment]), if_pos ⟨hmeta, .inr (.inr hkey)⟩] at hkept
  cases hkept

/-! ### What signing keeps -/

/-- Base64 text is decoded to what it encodes, and has no white space. -/
structure Base64.Lawful (B : Base64) : Prop where
  decode_encode : ∀ bytes, B.decode (B.encode bytes) = .ok bytes
  word : ∀ bytes, bytes ≠ [] → Word (B.encode bytes)

/-- Multibase text has no white space and is not empty. -/
def Printable (C : DidCodec P) : Prop := ∀ payload, Word (C.multibaseEncode payload)

/-- The signature is valid and the certificate says what it said. -/
structure KeptBySigning (signed unsigned : VerificationResult) : Prop where
  valid : signed.metadata.signatureValid = some true
  theorems : signed.theoremNames = unsigned.theoremNames
  axioms : signed.axiomsUsed = unsigned.axiomsUsed
  errors : signed.errors = unsigned.errors

theorem payload_eq_iff {body did keyMultibase : String} (hdid : Word did) (hkeyMultibase : Word keyMultibase) :
    String.ofList (['\n'].intercalate ((scanText body).signableLines ++
        [metaLine "signing_did" did, metaLine "signing_key_multibase" keyMultibase])) =
      signedPayload body did keyMultibase ↔ (scanText body).signableLines = bodyLines body := by
  constructor
  · intro h
    have hlists := String.ofList_injective h
    refine List.append_cancel_right (Lines.intercalate_inj ?_ (newline_not_mem_payloadLines hdid hkeyMultibase) (by simp)
      (by simp) hlists)
    intro line hline
    obtain hbody | htail := List.mem_append.mp hline
    · exact newline_not_mem_signableLines hbody
    · have hmem : line ∈ payloadLines body did keyMultibase := List.mem_append_right _ htail
      exact newline_not_mem_payloadLines hdid hkeyMultibase line hmem
  · intro h
    rw [h]
    rfl

/-- The identity's key as its document has it. -/
def keyMultibase (C : DidCodec P) (identity : DIDIdentity P) : String :=
  Pod.encodeMultibaseKey C Pod.multicodecEd25519Pub (identity.ed25519PublicKey C).toList

section Main

variable {C : DidCodec P} {B : Base64} (hC : C.Lawful) (hB : B.Lawful) (hprint : Printable C) {identity : DIDIdentity P}
  (hid : identity.WellFormed C)

include hC in
theorem decodeEd25519VerifyingKey_keyMultibase : decodeEd25519VerifyingKey C (keyMultibase C identity) =
    .ok (P.ed25519.verifyingKey identity.ed25519SigningKey) := by
  simp [decodeEd25519VerifyingKey, keyMultibase, Pod.encodeMultibaseKey, hC.multibase, Except.mapError, require, okOr, bind,
    Except.bind, Text.toArray_toList, DIDIdentity.ed25519PublicKey, hC.ed25519Key]

include hid in
theorem signCertificateText_eq_ok {body signed : String} (h : signCertificateText B body identity = .ok signed) :
    signed = signedPayload body identity.did (keyMultibase C identity) ++ "\n" ++
      String.ofList (metaLine "signature_ed25519" (B.encode (P.ed25519.sign identity.ed25519SigningKey
        (utf8 (signedPayload body identity.did (keyMultibase C identity)))).toList)) ++ "\n" := by
  unfold signCertificateText at h
  simp only [bind, pure, Except.pure, bind_eq_ok, require_eq_ok, okOr_eq_ok, Except.ok.injEq] at h
  obtain ⟨method, hmethod, _, -, rfl⟩ := h
  obtain ⟨x25519PublicKey, mlkem768PublicKey, hdocument⟩ := hid.document
  rw [hdocument] at hmethod
  obtain rfl := Option.some.inj hmethod
  rfl

include hC hB in
theorem checkSignature_sign (message : Bytes) (payload : String) :
    checkSignature C B (P.ed25519.verifyingKey identity.ed25519SigningKey)
        (B.encode (P.ed25519.sign identity.ed25519SigningKey message).toList) payload =
      (P.ed25519.verify (P.ed25519.verifyingKey identity.ed25519SigningKey) (utf8 payload)
        (P.ed25519.sign identity.ed25519SigningKey message), []) := by
  have hne : (P.ed25519.sign identity.ed25519SigningKey message).toList ≠ [] :=
    List.ne_nil_of_length_pos (by simp)
  rw [checkSignature, hB.decode_encode]
  simp only [hne, if_false, hC.ed25519Signature]

include hprint in
theorem word_keyMultibase (identity : DIDIdentity P) : Word (keyMultibase C identity) := hprint _

include hprint hid in
theorem word_did : Word identity.did := by
  have hkey := hprint (Pod.multicodecEd25519Pub ++ (identity.ed25519PublicKey C).toList)
  rw [hid.did]
  refine ⟨fun hnil => hkey.nonempty (String.append_eq_empty_iff.mp hnil).2, fun c hc => ?_⟩
  rw [Pod.didFromEd25519PublicKey, String.toList_append] at hc
  obtain hc | hc := List.mem_append.mp hc
  · have hprefix : Pod.didKeyPrefix.toList.all (fun c => !isWhitespace c) = true := by decide
    simpa using List.all_eq_true.mp hprefix c hc
  · exact hkey.solid c hc

include hC hB hprint hid in
theorem result_signed {body signed : String} (h : signCertificateText B body identity = .ok signed) :
    ∃ scan : Scan, (scanText signed).result C B = scan.conclude (some (P.ed25519.verify
        (P.ed25519.verifyingKey identity.ed25519SigningKey) (utf8 (scanText signed).payload)
        (P.ed25519.sign identity.ed25519SigningKey
          (utf8 (signedPayload body identity.did (keyMultibase C identity)))))) (scanText body).errors ∧
      scan.theorems = (scanText body).theorems ∧ scan.axioms = (scanText body).axioms ∧
      (scanText signed).payload = String.ofList (['\n'].intercalate ((scanText body).signableLines ++
        [metaLine "signing_did" identity.did, metaLine "signing_key_multibase" (keyMultibase C identity)])) := by
  have hdid := word_did hprint hid
  have hsig : Word (B.encode (P.ed25519.sign identity.ed25519SigningKey
      (utf8 (signedPayload body identity.did (keyMultibase C identity)))).toList) :=
    hB.word _ (List.ne_nil_of_length_pos (by simp))
  have hscan := @scanText_signed body _ _ _ hdid (word_keyMultibase hprint identity) hsig
  rw [← signCertificateText_eq_ok hid h] at hscan
  refine ⟨scanText signed, ?_, by rw [hscan], by rw [hscan], by rw [hscan]; rfl⟩
  have hmetadata : (scanText signed).metadata.signatureEd25519 = some (B.encode (P.ed25519.sign
      identity.ed25519SigningKey (utf8 (signedPayload body identity.did (keyMultibase C identity)))).toList) := by rw [hscan]
  have hkeyMb : (scanText signed).metadata.signingKeyMultibase = some (keyMultibase C identity) := by rw [hscan]
  have herrors : (scanText signed).errors = (scanText body).errors := by rw [hscan]
  unfold Scan.result
  rw [hmetadata, hkeyMb]
  simp only [decodeEd25519VerifyingKey_keyMultibase hC, checkSignature_sign hC hB, herrors, List.append_nil]

theorem errors_result_eq_iff (scan : Scan) (hsig : scan.metadata.signatureEd25519 = none) :
    scan.errors = (scan.result C B).errors ↔ scan.metadata.signingKeyMultibase = none := by
  unfold Scan.result
  rw [hsig]
  cases scan.metadata.signingKeyMultibase with
  | none => exact iff_of_true rfl rfl
  | some key => simp [Scan.conclude]

theorem result_theorems_axioms (scan : Scan) :
    (scan.result C B).theoremNames = scan.theorems ∧ (scan.result C B).axiomsUsed = scan.axioms := by
  unfold Scan.result
  split
  · exact ⟨rfl, rfl⟩
  · split <;> exact ⟨rfl, rfl⟩
  · exact ⟨rfl, rfl⟩

include hC hB hprint hid in
/-- A signed certificate verifies and says what the certificate said exactly if every line of the certificate that is not
blank is one that the signer and the checker keep as it is. -/
theorem signing_keeps_iff (hE : P.ed25519.Correct) (body signed path path' : String)
    (hsigned : signCertificateText B body identity = .ok signed)
    (hbinds : P.ed25519.verify (P.ed25519.verifyingKey identity.ed25519SigningKey) (utf8 (scanText signed).payload)
        (P.ed25519.sign identity.ed25519SigningKey
          (utf8 (signedPayload body identity.did (keyMultibase C identity)))) = true →
      (scanText signed).payload = signedPayload body identity.did (keyMultibase C identity)) :
    (∃ result result', verifyExport C B path (.ok signed) = .ok result ∧ verifyExport C B path' (.ok body) = .ok result' ∧
        KeptBySigning result result') ↔
      ∀ line ∈ Lines.lines body.toList, trimChars line ≠ [] → KeptAsIs line := by
  obtain ⟨scan, hresult, htheorems, haxioms, hpayload⟩ := result_signed hC hB hprint hid hsigned
  obtain ⟨htheorems', haxioms'⟩ := result_theorems_axioms (C := C) (B := B) (scanText body)
  have hvalid : P.ed25519.verify (P.ed25519.verifyingKey identity.ed25519SigningKey) (utf8 (scanText signed).payload)
      (P.ed25519.sign identity.ed25519SigningKey (utf8 (signedPayload body identity.did (keyMultibase C identity)))) = true ↔
      (scanText body).signableLines = bodyLines body := by
    rw [← payload_eq_iff (word_did hprint hid) (word_keyMultibase hprint identity), ← hpayload]
    refine ⟨hbinds, fun hsame => ?_⟩
    rw [hsame]
    exact hE.verify_sign _ _
  rw [forall_keptAsIs_iff, ← hvalid]
  constructor
  · rintro ⟨result, result', hsignedResult, hbodyResult, hkept⟩
    obtain rfl := Except.ok.inj hsignedResult
    obtain rfl := Except.ok.inj hbodyResult
    have hverified := Option.some.inj (by simpa [hresult, Scan.conclude] using hkept.valid)
    refine ⟨hverified, ?_⟩
    have herrors := hkept.errors
    rw [hresult] at herrors
    exact (errors_result_eq_iff _ (signatureEd25519_of_signableLines (hvalid.mp hverified))).mp herrors
  · rintro ⟨hverified, hkey⟩
    refine ⟨_, _, rfl, rfl, ?_⟩
    rw [hresult]
    exact
      { valid := congrArg some hverified
        theorems := htheorems.trans htheorems'.symm
        axioms := haxioms.trans haxioms'.symm
        errors := (errors_result_eq_iff _ (signatureEd25519_of_signableLines (hvalid.mp hverified))).mpr hkey }

end Main

/-! ### A certificate with a comment -/

section Comment

/-- A signature holds the length of the message and the key. -/
def lengthSignature (key : Vector UInt8 32) (message : Bytes) : Vector UInt8 64 :=
  Reference.digest 64 (Text.toLeBytes (UInt64.ofNat message.length) ++ key.toList)

def lengthEd25519 : Ed25519 where
  SigningKey := Vector UInt8 32
  VerifyingKey := Vector UInt8 32
  fromBytes := id
  verifyingKey := id
  sign := lengthSignature
  verify vk message signature := signature == lengthSignature vk message

theorem lengthEd25519_correct : lengthEd25519.Correct where
  verify_sign sk message := beq_self_eq_true (lengthSignature sk message)

def lengthPlatform : Platform := { Platform.reference with ed25519 := lengthEd25519 }

def lengthCodec : DidCodec lengthPlatform where
  multibaseEncode payload := Pod.DidCodec.reference.multibaseEncode payload
  multibaseDecode encoded := Pod.DidCodec.reference.multibaseDecode encoded
  ed25519KeyToBytes vk := vk
  ed25519KeyFromBytes key := .ok key
  ed25519SignatureFromSlice bytes := Pod.DidCodec.reference.ed25519SignatureFromSlice bytes
  mldsa65KeyEncode vk := Pod.DidCodec.reference.mldsa65KeyEncode vk
  mldsa65KeyDecode bytes := Pod.DidCodec.reference.mldsa65KeyDecode bytes

theorem lengthCodec_lawful : lengthCodec.Lawful where
  multibase payload := Pod.DidCodec.reference_lawful.multibase payload
  ed25519Key _ := rfl
  ed25519Signature signature := Pod.DidCodec.reference_lawful.ed25519Signature signature
  mldsa65Key vk := Pod.DidCodec.reference_lawful.mldsa65Key vk

theorem word_hexEncode {bytes : Bytes} (h : bytes ≠ []) : Word (Text.hexEncode bytes) := by
  refine ⟨fun hnil => ?_, fun c hc => ?_⟩
  · have hlen := Text.utf8_hexEncode_length bytes
    rw [hnil] at hlen
    have hpos := List.length_pos_iff.mpr h
    have hempty : (utf8 "").length = 0 := rfl
    omega
  · by_contra hwhite
    refine Text.not_mem_hexEncode (c := c) (fun d hd => hwhite ?_) bytes hc
    rw [← hd]
    exact (by decide : ∀ d : Fin 16, isWhitespace (Text.hexDigit d.val) = false) d

theorem lengthCodec_printable : Printable lengthCodec := by
  intro payload
  refine ⟨fun hnil => ?_, fun c hc => ?_⟩
  · have hempty : "f" ++ Text.hexEncode payload = "" := hnil
    exact absurd (String.append_eq_empty_iff.mp hempty).1 (by decide)
  · have hmem : c ∈ ("f" ++ Text.hexEncode payload).toList := hc
    rw [String.toList_append] at hmem
    obtain hmem | hmem := List.mem_append.mp hmem
    · obtain rfl : c = 'f' := List.mem_singleton.mp hmem
      decide
    · have hne : payload ≠ [] := by
        rintro rfl
        cases hmem
      exact (word_hexEncode hne).solid c hmem

/-- Hexadecimal text in the place of base 64. -/
def hexText : Base64 where
  encode := Text.hexEncode
  decode s := okOr "Invalid byte" (Text.hexDecodeDynamic s)

theorem hexText_lawful : hexText.Lawful where
  decode_encode bytes := by
    rw [hexText]
    simp only [Text.hexDecodeDynamic_hexEncode]
    rfl
  word _ := word_hexEncode

def ownKey : Vector UInt8 32 := Vector.replicate 32 1

def ownIdentity : DIDIdentity lengthPlatform where
  did := Pod.didFromEd25519PublicKey lengthCodec ownKey
  didDocument := Pod.buildDidDocumentFromParts lengthCodec (Pod.didFromEd25519PublicKey lengthCodec ownKey) ownKey
    (lengthCodec.mldsa65KeyEncode ownKey).toList (Vector.replicate 32 0) []
  ed25519SigningKey := ownKey
  mldsa65SigningKey := ownKey

theorem ownIdentity_wellFormed : ownIdentity.WellFormed lengthCodec where
  did := rfl
  document := ⟨Vector.replicate 32 0, [], rfl⟩

def signedText (body : String) : String :=
  signedPayload body ownIdentity.did (keyMultibase lengthCodec ownIdentity) ++ "\n" ++
    String.ofList (metaLine "signature_ed25519" (hexText.encode (lengthPlatform.ed25519.sign ownIdentity.ed25519SigningKey
      (utf8 (signedPayload body ownIdentity.did (keyMultibase lengthCodec ownIdentity)))).toList)) ++ "\n"

theorem signCertificateText_own {body : String}
    (h : (((Lines.lines body.toList).map trimEndChars).all fun line => !isSigningLine line) = true) :
    signCertificateText hexText body ownIdentity = .ok (signedText body) := by
  unfold signCertificateText
  rw [h]
  rfl

def cleanBody : String := "#THM T\n#AX propext\n"

def commentedBody : String := "-- by hand\n#THM T\n"

theorem signCertificateText_cleanBody : signCertificateText hexText cleanBody ownIdentity = .ok (signedText cleanBody) :=
  signCertificateText_own (by decide)

theorem signCertificateText_commentedBody :
    signCertificateText hexText commentedBody ownIdentity = .ok (signedText commentedBody) :=
  signCertificateText_own (by decide)

theorem payload_cleanBody : (scanText (signedText cleanBody)).payload =
    signedPayload cleanBody ownIdentity.did (keyMultibase lengthCodec ownIdentity) := by
  obtain ⟨-, -, -, -, hpayload⟩ := result_signed lengthCodec_lawful hexText_lawful lengthCodec_printable
    ownIdentity_wellFormed signCertificateText_cleanBody
  rw [hpayload, payload_eq_iff (word_did lengthCodec_printable ownIdentity_wellFormed)
    (word_keyMultibase lengthCodec_printable ownIdentity)]
  decide

theorem signing_keeps_iff_cleanBody :
    (∃ result result', verifyExport lengthCodec hexText "signed.lean4export" (.ok (signedText cleanBody)) = .ok result ∧
        verifyExport lengthCodec hexText "plain.lean4export" (.ok cleanBody) = .ok result' ∧
        KeptBySigning result result') ↔
      ∀ line ∈ Lines.lines cleanBody.toList, trimChars line ≠ [] → KeptAsIs line :=
  signing_keeps_iff lengthCodec_lawful hexText_lawful lengthCodec_printable ownIdentity_wellFormed lengthEd25519_correct
    cleanBody (signedText cleanBody) "signed.lean4export" "plain.lean4export" signCertificateText_cleanBody
    fun _ => payload_cleanBody

theorem verify_shorter {key : Vector UInt8 32} {message longer : Bytes} (n : Nat) (hn : 0 < n) (hlt : n < 2 ^ 64)
    (hlength : longer.length = message.length + n) :
    lengthEd25519.verify key message (lengthEd25519.sign key longer) = false := by
  refine beq_false_of_ne fun hsame => ?_
  have hinput := List.append_inj_left (Reference.eq_of_digest (by simp [Text.toLeBytes]) (by simp [Text.toLeBytes]) hsame)
    (by simp [Text.toLeBytes])
  have hword := congrArg Text.fromLeBytes hinput
  rw [Text.fromLeBytes_toLeBytes, Text.fromLeBytes_toLeBytes] at hword
  have hnat := congrArg UInt64.toNat hword
  rw [UInt64.toNat_ofNat', UInt64.toNat_ofNat', hlength] at hnat
  omega

theorem length_utf8_intercalate_cons (line : List Char) {rest : List (List Char)} (h : rest ≠ []) :
    (utf8 (String.ofList (['\n'].intercalate (line :: rest)))).length =
      (utf8 (String.ofList (['\n'].intercalate rest))).length + ((line.flatMap String.utf8EncodeChar).length + 1) := by
  obtain ⟨next, rest, rfl⟩ := List.exists_cons_of_ne_nil h
  have hbreak : (String.utf8EncodeChar '\n').length = 1 := by decide
  unfold utf8
  rw [String.toList_ofList, String.toList_ofList, List.intercalate_cons_cons, List.flatMap_append, List.flatMap_append,
    List.length_append, List.length_append, List.flatMap_singleton, hbreak]
  omega

/-- The signer signs the comment and the checker skips it. -/
theorem commented_invalid : ∃ result,
    ownIdentity.WellFormed lengthCodec ∧ lengthPlatform.ed25519.Correct ∧
      signCertificateText hexText commentedBody ownIdentity = .ok (signedText commentedBody) ∧
      verifyExport lengthCodec hexText "signed.lean4export" (.ok (signedText commentedBody)) = .ok result ∧
      result.metadata.signatureValid = some false := by
  refine ⟨_, ownIdentity_wellFormed, lengthEd25519_correct, signCertificateText_commentedBody, rfl, ?_⟩
  obtain ⟨scan, hresult, -, -, hpayload⟩ := result_signed lengthCodec_lawful hexText_lawful lengthCodec_printable
    ownIdentity_wellFormed signCertificateText_commentedBody
  have hlines : (scanText commentedBody).signableLines = ["#THM T".toList] := by decide
  have hbody : bodyLines commentedBody = ["-- by hand".toList, "#THM T".toList] := by decide
  have hcomment : ("-- by hand".toList.flatMap String.utf8EncodeChar).length + 1 = 11 := by decide
  have hlength : (utf8 (signedPayload commentedBody ownIdentity.did (keyMultibase lengthCodec ownIdentity))).length =
      (utf8 (scanText (signedText commentedBody)).payload).length + 11 := by
    rw [hpayload, hlines, signedPayload, payloadLines, hbody, List.cons_append,
      length_utf8_intercalate_cons "-- by hand".toList (by simp), hcomment]
  have hverify := @verify_shorter ownKey _ _ 11 (by omega) (by omega) hlength
  rw [hresult]
  exact congrArg some hverify

end Comment

end AgentHalo.Verifier
