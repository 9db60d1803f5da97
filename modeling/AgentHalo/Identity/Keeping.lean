import AgentHalo.Base.Scan
import AgentHalo.Identity.Sealing

/-!
# When an append keeps the ledger

An append that writes its line and succeeds should leave a ledger that is the old one with the new entry, and one that
fails should leave the ledger as it was. It does so exactly when it does not get as far as the file, or the write goes
through, the last line of the file is complete, the entry reads back from its line, and it is admissible: what the last
verification rejects has been written by then, and it looks at the entry in memory, not at the one in the file.

The file is compared through the text after its last line feed, which the new line is added to.
-/

namespace AgentHalo.Identity

open Lines Outcome
open Text (trim isWhitespace trim_eq_empty_iff)

/-- White space between the tokens of a JSON text. -/
def jsonWhitespace (c : Char) : Bool := c = ' ' || c = '\t' || c = '\n' || c = '\r'

/-- How `serde_json` treats the lines of a ledger: an entry is written as one object on one line; white space in front of
a line is skipped if it is that of JSON and an error otherwise; text behind a complete entry is an error. -/
structure LedgerLines.Lawful {F : LedgerFormat} (L : LedgerLines F) : Prop where
  skipped : ∀ blank text : List Char, (∀ c ∈ blank, jsonWhitespace c = true) → ∀ entry,
    L.entryFromStr (String.ofList (blank ++ text)) = .ok entry ↔ L.entryFromStr (String.ofList text) = .ok entry
  object : ∀ entry line, L.entryToString entry = .ok line →
    ∃ inner, line.toList = '\x7b' :: (inner ++ ['\x7d']) ∧ '\n' ∉ inner
  trailing : ∀ text entry, L.entryFromStr (String.ofList text) = .ok entry → ∀ rest entry',
    L.entryFromStr (String.ofList (text ++ '\x7b' :: rest)) ≠ .ok entry'
  leading : ∀ blank : List Char, (∀ c ∈ blank, isWhitespace c = true) → (∃ c ∈ blank, jsonWhitespace c = false) →
    ∀ rest entry, L.entryFromStr (String.ofList (blank ++ '\x7b' :: rest)) ≠ .ok entry

section Reading

variable {F : LedgerFormat} {L : LedgerLines F} {path : String}

def read (L : LedgerLines F) (path : String) (idx : Nat) (fileLines : List (List Char)) :
    Except String (List (IdentityLedgerEntry F)) := loadFrom L path (fun _ => .ok ()) idx fileLines

variable {rest : List (List Char)}

variable {idx : Nat} {line : List Char}

theorem read_cons_blank (h : trim (String.ofList line) = "") : read L path idx (line :: rest) = read L path (idx + 1) rest := by
  simp only [read, loadFrom, if_pos h]

theorem read_cons (h : trim (String.ofList line) ≠ "") {entry : IdentityLedgerEntry F}
    (hparse : L.entryFromStr (String.ofList line) = .ok entry) :
    read L path idx (line :: rest) = (read L path (idx + 1) rest).map (entry :: ·) := by
  simp only [read, loadFrom, if_neg h, hparse]

theorem read_cons_ne_ok (h : trim (String.ofList line) ≠ "")
    (hparse : ∀ entry, L.entryFromStr (String.ofList line) ≠ .ok entry) (entries : List (IdentityLedgerEntry F)) :
    read L path idx (line :: rest) ≠ .ok entries := by
  intro hread
  simp only [read, loadFrom, if_neg h] at hread
  cases hcase : L.entryFromStr (String.ofList line) with
  | error e =>
    rw [hcase] at hread
    cases hread
  | ok entry => exact hparse entry hcase

theorem read_append (idx : Nat) (front back : List (List Char)) : read L path idx (front ++ back) =
    (read L path idx front).bind fun entries => (read L path (idx + front.length) back).map (entries ++ ·) := by
  induction front generalizing idx with
  | nil =>
    simp only [List.nil_append, List.length_nil, Nat.add_zero]
    show read L path idx back = (read L path idx back).map fun entries => [] ++ entries
    cases read L path idx back <;> rfl
  | cons line rest ih =>
    have hidx : idx + 1 + rest.length = idx + (line :: rest).length := by simp [Nat.add_assoc, Nat.add_comm 1]
    rw [List.cons_append]
    by_cases hblank : trim (String.ofList line) = ""
    · rw [read_cons_blank hblank, read_cons_blank hblank, ih, hidx]
    · cases hparse : L.entryFromStr (String.ofList line) with
      | error e => simp only [read, loadFrom, if_neg hblank, hparse, Except.bind]
      | ok entry =>
        rw [read_cons hblank hparse, read_cons hblank hparse, ih, hidx]
        cases read L path (idx + 1) rest with
        | error e => rfl
        | ok entries =>
          show Except.map _ (Except.map _ _) = Except.map _ _
          cases read L path (idx + (line :: rest).length) back <;> rfl

end Reading

/-! ### The last line -/

section LastLine

variable {F : LedgerFormat} {L : LedgerLines F} {path : String}

theorem isWhitespace_of_json {c : Char} (h : jsonWhitespace c = true) : isWhitespace c = true := by
  simp only [jsonWhitespace, Bool.or_eq_true, decide_eq_true_eq] at h
  obtain ((rfl | rfl) | rfl) | rfl := h <;> decide

variable {k : Nat}

theorem lines_glued {tail line : List Char} (htail : '\n' ∉ tail) (hline : '\n' ∉ line)
    (hlast : line.getLast? ≠ some '\r') (hne : line ≠ []) (hk : 0 < k) :
    lines (tail ++ (line ++ ['\n']).take k) = [tail ++ line.take k] := by
  have hpos := List.length_pos_iff.mpr hne
  obtain hshort | hlong := Nat.lt_or_ge line.length k
  · rw [List.take_of_length_le (by simpa using hshort), List.take_of_length_le (by omega), ← List.append_assoc]
    have hnl : '\n' ∉ tail ++ line := by simp [htail, hline]
    rw [lines, linesFrom_append_newline hnl]
    have hcr : stripCr (tail ++ line) = tail ++ line := by
      rw [stripCr, if_neg (by rwa [List.getLast?_append_of_ne_nil _ hne])]
    rw [List.nil_append, hcr]
    rfl
  · rw [List.take_append_of_le_length hlong]
    have hnl : '\n' ∉ tail ++ line.take k := by
      simp only [List.mem_append, htail, false_or]
      exact fun h => hline (List.mem_of_mem_take h)
    have hlength : (line.take k).length = k := by simpa using hlong
    have hne' : tail ++ line.take k ≠ [] := by
      rintro h
      rw [(List.append_eq_nil_iff.mp h).2] at hlength
      simp only [List.length_nil] at hlength
      omega
    rw [lines, linesFrom_of_not_mem [] hnl, List.nil_append, if_neg hne']

theorem ledgerOf_eq_read (file : Option (List Char)) : ledgerOf L path file = read L path 0 (lines (file.getD [])) := by
  cases file <;> rfl

def lastLine (file : Option (List Char)) : List Char := unterminated (file.getD [])

variable {file : Option (List Char)} {entries : List (IdentityLedgerEntry F)}

theorem ledgerOf_cases (h : ledgerOf L path file = .ok entries) :
    ∃ front, read L path 0 (lines (terminated (file.getD []))) = .ok front ∧
      ((∀ c ∈ lastLine file, isWhitespace c = true) ∧ entries = front ∨
        (¬ ∀ c ∈ lastLine file, isWhitespace c = true) ∧
          ∃ e, L.entryFromStr (String.ofList (lastLine file)) = .ok e ∧ entries = front ++ [e]) := by
  have hlines := lines_append (file.getD []) []
  rw [List.append_nil, List.append_nil] at hlines
  have htail : lines (unterminated (file.getD [])) = if lastLine file = [] then [] else [lastLine file] :=
    linesFrom_of_not_mem [] (not_mem_unterminated (file.getD []))
  rw [ledgerOf_eq_read, hlines, htail, read_append, bind_eq_ok] at h
  obtain ⟨front, hfront, hrest⟩ := h
  obtain ⟨added, hadded, rfl⟩ := map_eq_ok.mp hrest
  refine ⟨front, hfront, ?_⟩
  by_cases hblank : trim (String.ofList (lastLine file)) = ""
  · refine .inl ⟨(trim_eq_empty_iff _).mp hblank, ?_⟩
    have hnil : added = [] := by
      split at hadded
      · exact (Except.ok.inj hadded).symm
      · rw [read_cons_blank hblank] at hadded
        exact (Except.ok.inj hadded).symm
    rw [hnil, List.append_nil]
  · rw [if_neg (by rintro hnil; exact hblank (by rw [hnil]; rfl))] at hadded
    cases hparse : L.entryFromStr (String.ofList (lastLine file)) with
    | error e => exact absurd hadded (read_cons_ne_ok hblank (by rw [hparse]; exact fun _ => nofun) _)
    | ok e =>
      rw [read_cons hblank hparse] at hadded
      exact .inr ⟨fun h => hblank ((trim_eq_empty_iff _).mpr h), e, rfl, congrArg (front ++ ·) (Except.ok.inj hadded).symm⟩

/-- The file behind a line written up to its `k`-th character. -/
def glue (file : Option (List Char)) (line : String) (k : Nat) : Option (List Char) :=
  some (file.getD [] ++ (line.toList ++ ['\n']).take k)

variable (hL : L.Lawful) {entry : IdentityLedgerEntry F} {line : String} (hline : L.entryToString entry = .ok line)
include hL hline

variable (path) in
theorem ledgerOf_glue (file : Option (List Char)) (hk : 0 < k) : ∃ n, ledgerOf L path (glue file line k) =
    (read L path 0 (lines (terminated (file.getD [])))).bind fun front =>
      (read L path n [lastLine file ++ line.toList.take k]).map (front ++ ·) := by
  obtain ⟨inner, hobject, hinner⟩ := hL.object entry line hline
  have hnl : '\n' ∉ line.toList := by
    rw [hobject]
    simp [hinner]
  have hlast : line.toList.getLast? ≠ some '\r' := by
    rw [hobject, List.getLast?_cons, List.getLast?_concat]
    simp
  have hne : line.toList ≠ [] := by
    rw [hobject]
    simp
  refine ⟨0 + (lines (terminated (file.getD []))).length, ?_⟩
  show ledgerOf L path (some (file.getD [] ++ (line.toList ++ ['\n']).take k)) = _
  rw [ledgerOf_eq_read, Option.getD_some, lines_append, read_append,
    lines_glued (not_mem_unterminated _) hnl hlast hne hk]
  rfl

theorem take_line (hk : 0 < k) : ∃ rest, line.toList.take k = '\x7b' :: rest := by
  obtain ⟨inner, hobject, -⟩ := hL.object entry line hline
  obtain ⟨j, rfl⟩ := Nat.exists_eq_succ_of_ne_zero hk.ne'
  exact ⟨(inner ++ ['\x7d']).take j, by rw [hobject]; rfl⟩

theorem trim_glued (tail : List Char) (hk : 0 < k) : trim (String.ofList (tail ++ line.toList.take k)) ≠ "" := by
  obtain ⟨rest, hrest⟩ := take_line hL hline hk
  rw [ne_eq, trim_eq_empty_iff, hrest]
  intro hwhite
  exact absurd (hwhite '\x7b' (by simp)) (by decide)

theorem ledgerOf_written (h : ledgerOf L path file = .ok entries) (hblank : ∀ c ∈ lastLine file, jsonWhitespace c = true) :
    ledgerOf L path (some (file.getD [] ++ (line.toList ++ ['\n']))) = .ok (entries ++ [entry]) ↔
      L.entryFromStr line = .ok entry := by
  obtain ⟨front, hfront, hcases⟩ := ledgerOf_cases h
  obtain rfl : entries = front := by
    obtain ⟨-, heq⟩ | ⟨hsome, -⟩ := hcases
    · exact heq
    · exact absurd (fun c hc => isWhitespace_of_json (hblank c hc)) hsome
  have hpos := Nat.succ_pos line.toList.length
  obtain ⟨n, hglue⟩ := ledgerOf_glue path hL hline file hpos
  have htrim := trim_glued hL hline (lastLine file) hpos
  have hskipped := hL.skipped (lastLine file) line.toList hblank entry
  rw [String.ofList_toList] at hskipped
  unfold glue at hglue
  rw [List.take_of_length_le (by simp), List.take_of_length_le (Nat.le_succ _), hfront] at hglue
  rw [List.take_of_length_le (Nat.le_succ _)] at htrim
  rw [hglue, ← hskipped]
  simp only [Except.bind, map_eq_ok]
  constructor
  · rintro ⟨added, hadded, hentries⟩
    cases hparse : L.entryFromStr (String.ofList (lastLine file ++ line.toList)) with
    | error e => exact absurd hadded (read_cons_ne_ok htrim (by rw [hparse]; exact fun _ => nofun) _)
    | ok e =>
      rw [read_cons htrim hparse] at hadded
      obtain rfl := Except.ok.inj hadded
      rw [(List.cons.inj (List.append_cancel_left hentries)).1]
  · intro hparse
    exact ⟨[entry], by rw [read_cons htrim hparse]; rfl, rfl⟩

theorem ledgerOf_glue_ne (h : ledgerOf L path file = .ok entries) (hk : 0 < k) :
    ledgerOf L path (glue file line k) ≠ .ok entries := by
  obtain ⟨front, hfront, hcases⟩ := ledgerOf_cases h
  obtain ⟨n, hglue⟩ := ledgerOf_glue path hL hline file hk
  have htrim := trim_glued hL hline (lastLine file) hk
  rw [hglue, hfront, ne_eq]
  simp only [Except.bind, map_eq_ok]
  rintro ⟨added, hadded, hentries⟩
  cases hparse : L.entryFromStr (String.ofList (lastLine file ++ line.toList.take k)) with
  | error e => exact read_cons_ne_ok htrim (by rw [hparse]; exact fun _ => nofun) _ hadded
  | ok e =>
    rw [read_cons htrim hparse] at hadded
    obtain rfl := Except.ok.inj hadded
    obtain ⟨-, rfl⟩ | ⟨-, before, hbefore, -⟩ := hcases
    · simp at hentries
    · obtain ⟨rest, hrest⟩ := take_line hL hline hk
      rw [hrest] at hparse
      exact hL.trailing _ _ hbefore _ _ hparse

theorem ledgerOf_glue_ne_ok (h : ledgerOf L path file = .ok entries) (hblank : ¬ ∀ c ∈ lastLine file, jsonWhitespace c = true)
    (hk : 0 < k) (entries' : List (IdentityLedgerEntry F)) : ledgerOf L path (glue file line k) ≠ .ok entries' := by
  obtain ⟨front, hfront, hcases⟩ := ledgerOf_cases h
  obtain ⟨n, hglue⟩ := ledgerOf_glue path hL hline file hk
  have htrim := trim_glued hL hline (lastLine file) hk
  have hparse (e : IdentityLedgerEntry F) :
      L.entryFromStr (String.ofList (lastLine file ++ line.toList.take k)) ≠ .ok e := by
    obtain ⟨rest, hrest⟩ := take_line hL hline hk
    rw [hrest]
    obtain ⟨hwhite, -⟩ | ⟨-, before, hbefore, -⟩ := hcases
    · refine hL.leading _ hwhite ?_ _ _
      push Not at hblank
      simpa using hblank
    · exact hL.trailing _ _ hbefore _ _
  rw [hglue, hfront, ne_eq]
  simp only [Except.bind, map_eq_ok]
  rintro ⟨added, hadded, -⟩
  exact read_cons_ne_ok htrim hparse _ hadded

end LastLine

/-! ### The append -/

section Append

variable {P : Platform} {K : PqKeyCodec P} {F : LedgerFormat} {L : LedgerLines F} {env : AppendEnv} {os : AppendAnswers}
  {file : Option (List Char)} {event : IdentityLedgerEntry F} {scope : Option (Vector UInt8 32)}
  {entries : List (IdentityLedgerEntry F)}

/-- A successful append adds its entry, which becomes the head; a failed one leaves the ledger as it was. -/
def Keeps (K : PqKeyCodec P) (L : LedgerLines F) (env : AppendEnv) (file : Option (List Char))
    (entries : List (IdentityLedgerEntry F)) : Except String (IdentityLedgerEntry F) × Option (List Char) → Prop
  | (.ok entry, file') => ledgerOf L env.path file' = .ok (entries ++ [entry]) ∧
      verifyChain K env.ledgerEnv (entries ++ [entry]) = .ok () ∧
      (entries ++ [entry]).getLast?.map (·.entryHash) = some entry.entryHash
  | (.error _, file') => ledgerOf L env.path file' = ledgerOf L env.path file

/-- Nothing stops the append before something of its line is in the file. -/
structure ReachesFile (K : PqKeyCodec P) (L : LedgerLines F) (env : AppendEnv) (os : AppendAnswers)
    (file : Option (List Char)) (event : IdentityLedgerEntry F) (scope : Option (Vector UInt8 32))
    (entries : List (IdentityLedgerEntry F)) : Prop where
  unlocked : os.lockPoisoned = false
  dir : os.ensureHaloDir = .ok ()
  loaded : loadEntries L env.path os.openForRead os.readLine file = .ok entries
  signed : event.kind = .genesisEntropyHarvested → (sealedEntry K env entries event scope).signature.isSome = true
  pinned : checkPinned env (env.walletIdentity scope) (pinnedSigner env.vars (env.walletIdentity scope) entries)
    (sealedEntry K env entries event scope).signature = .ok ()
  line : ∃ line, L.entryToString (sealedEntry K env entries event scope) = .ok line
  opened : os.openForAppend = .ok ()
  written : ∀ e, os.write ≠ .failed 0 e

/-- The whole line goes behind a complete one and reads back as the entry it was written from, and verification accepts
what the caller chose. -/
structure CleanAppend (K : PqKeyCodec P) (L : LedgerLines F) (env : AppendEnv) (os : AppendAnswers)
    (file : Option (List Char)) (event : IdentityLedgerEntry F) (scope : Option (Vector UInt8 32))
    (entries : List (IdentityLedgerEntry F)) : Prop where
  written : os.write = .done
  lastLine : ∀ c ∈ lastLine file, jsonWhitespace c = true
  readsBack : ∀ line, L.entryToString (sealedEntry K env entries event scope) = .ok line →
    L.entryFromStr line = .ok (sealedEntry K env entries event scope)
  admissible : Admissible event

variable {loaded : List (IdentityLedgerEntry F)}

theorem prepare_of_reachesFile (haccepted : verifyChain K env.ledgerEnv entries = .ok ())
    (h : ReachesFile K L env os file event scope entries)
    (hline : L.entryToString (sealedEntry K env entries event scope) = .ok line) :
    prepare K L env os file event scope = .ok (entries, sealedEntry K env entries event scope, line) := by
  have hsigned : (!(decide ((sealedEntry K env entries event scope).kind = .genesisEntropyHarvested) &&
      (sealedEntry K env entries event scope).signature.isNone)) = true := by
    rw [Bool.not_eq_true', Bool.and_eq_false_iff, decide_eq_false_iff_not, ← Bool.not_eq_true, Option.isNone_iff_eq_none,
      ← ne_eq _ none, ← Option.isSome_iff_ne_none]
    exact not_or_of_imp h.signed
  simp only [prepare, bind, pure, Except.pure, bind_eq_ok, require_eq_ok, mapError_eq_ok, Except.ok.injEq,
    Prod.mk.injEq, exists_const, h.unlocked, h.dir, h.loaded, haccepted, hsigned, h.pinned, hline, Bool.not_false,
    exists_eq_left', true_and, and_self]

theorem reachesFile_of_prepare (hread : ledgerOf L env.path file = .ok entries)
    (h : prepare K L env os file event scope = .ok (loaded, entry, line)) (hopened : os.openForAppend = .ok ())
    (hwritten : ∀ e, os.write ≠ .failed 0 e) : ReachesFile K L env os file event scope entries := by
  have hprepared := prepared_of_prepare h
  obtain rfl : loaded = entries := Except.ok.inj (hprepared.read.symm.trans hread)
  simp only [prepare, bind, bind_eq_ok, require_eq_ok, Bool.not_eq_true'] at h
  obtain ⟨u₁, hunlocked, u₂, hdir, loaded', hloaded, -⟩ := h
  obtain rfl : loaded' = loaded := Except.ok.inj ((loadEntries_ok hloaded).symm.trans hread)
  obtain rfl := hprepared.isSealed
  exact ⟨hunlocked, hdir, hloaded, hprepared.signed, hprepared.pinned, ⟨line, hprepared.written⟩, hopened, hwritten⟩

theorem appendEntryWithKey_of_prepare (h : prepare K L env os file event scope = .ok (loaded, entry, line))
    (hopened : os.openForAppend = .ok ()) : appendEntryWithKey K L env os file event scope =
      match os.write with
      | .failed written e => (.error ("append identity social ledger: " ++ e), glue file line written)
      | .done =>
        match verifyChain K env.ledgerEnv (loaded ++ [entry]) with
        | .error e => (.error e, some (file.getD [] ++ (line.toList ++ ['\n'])))
        | .ok () => (.ok entry, some (file.getD [] ++ (line.toList ++ ['\n']))) := by
  unfold appendEntryWithKey
  rw [h, hopened]
  rfl

theorem keeps_of_not_reachesFile (hread : ledgerOf L env.path file = .ok entries)
    (h : ¬ReachesFile K L env os file event scope entries) :
    Keeps K L env file entries (appendEntryWithKey K L env os file event scope) := by
  cases hprepare : prepare K L env os file event scope with
  | error e =>
    unfold appendEntryWithKey
    rw [hprepare]
    exact rfl
  | ok prepared =>
    obtain ⟨loaded, entry, line⟩ := prepared
    cases hopened : os.openForAppend with
    | error e =>
      unfold appendEntryWithKey
      rw [hprepare, hopened]
      exact rfl
    | ok u =>
      obtain ⟨e, hwrite⟩ : ∃ e, os.write = .failed 0 e := by
        by_contra hwritten
        push Not at hwritten
        exact h (reachesFile_of_prepare hread hprepare hopened hwritten)
      rw [appendEntryWithKey_of_prepare hprepare hopened, hwrite]
      -- an empty write may create the file
      show ledgerOf L env.path (some (file.getD [] ++ [])) = _
      rw [ledgerOf_eq_read, ledgerOf_eq_read, Option.getD_some, List.append_nil]

theorem keeps_iff_cleanAppend (hM : P.mldsa65.Correct) (hK : K.Lawful) (hL : L.Lawful)
    (hwallets : env.wallets.Consistent K) (hread : ledgerOf L env.path file = .ok entries)
    (haccepted : verifyChain K env.ledgerEnv entries = .ok ()) (h : ReachesFile K L env os file event scope entries) :
    Keeps K L env file entries (appendEntryWithKey K L env os file event scope) ↔
      CleanAppend K L env os file event scope entries := by
  obtain ⟨line, hline⟩ := h.line
  have hprepare := prepare_of_reachesFile haccepted h hline
  have hsealed := verifyChain_sealed_iff hM hK hwallets (prepared_of_prepare hprepare)
  rw [appendEntryWithKey_of_prepare hprepare h.opened]
  have hwhole : glue file line (line.toList.length + 1) = some (file.getD [] ++ (line.toList ++ ['\n'])) := by
    rw [glue, List.take_of_length_le (by simp)]
  have hpos := Nat.succ_pos line.toList.length
  cases hwrite : os.write with
  | failed written e =>
    refine iff_of_false (fun hkeeps => ?_) fun hclean => nomatch hwrite.symm.trans hclean.written
    have hne : written ≠ 0 := fun hzero => h.written e (hzero ▸ hwrite)
    exact ledgerOf_glue_ne hL hline hread (Nat.pos_of_ne_zero hne) (Eq.trans hkeeps hread)
  | done =>
    dsimp only
    cases hverify : verifyChain K env.ledgerEnv (entries ++ [sealedEntry K env entries event scope]) with
    | error e =>
      refine iff_of_false (fun hkeeps => ?_) fun hclean => ?_
      · exact ledgerOf_glue_ne hL hline hread hpos (hwhole ▸ Eq.trans hkeeps hread)
      · nomatch hverify.symm.trans (hsealed.mpr hclean.admissible)
    | ok u =>
      constructor
      · rintro ⟨hledger, -, -⟩
        have hblank : ∀ c ∈ lastLine file, jsonWhitespace c = true := by
          by_contra hblank
          exact ledgerOf_glue_ne_ok hL hline hread hblank hpos _ (hwhole ▸ hledger)
        refine ⟨hwrite, hblank, fun line' hline' => ?_, hsealed.mp hverify⟩
        obtain rfl := Except.ok.inj (hline.symm.trans hline')
        exact (ledgerOf_written hL hline hread hblank).mp hledger
      · intro hclean
        refine ⟨(ledgerOf_written hL hline hread hclean.lastLine).mpr (hclean.readsBack line hline), hverify, ?_⟩
        rw [List.getLast?_concat]
        rfl

/-- An append keeps the ledger exactly when it stops before the file or is clean. -/
theorem keeps_iff (hM : P.mldsa65.Correct) (hK : K.Lawful) (hL : L.Lawful) (hwallets : env.wallets.Consistent K)
    (hread : ledgerOf L env.path file = .ok entries) (haccepted : verifyChain K env.ledgerEnv entries = .ok ()) :
    Keeps K L env file entries (appendEntryWithKey K L env os file event scope) ↔
      (ReachesFile K L env os file event scope entries → CleanAppend K L env os file event scope entries) := by
  by_cases h : ReachesFile K L env os file event scope entries
  · rw [keeps_iff_cleanAppend hM hK hL hwallets hread haccepted h]
    exact ⟨fun hclean _ => hclean, fun hclean => hclean h⟩
  · exact iff_of_true (keeps_of_not_reachesFile hread h) fun hreach => absurd hreach h

end Append

/-! ### A ledger of one line -/

section OneLine

variable {F : LedgerFormat}

/-- The lines of a ledger in which one entry occurs, with its JSON text. -/
def LedgerLines.only (occurs : IdentityLedgerEntry F → Bool) (entry : IdentityLedgerEntry F) (json : List Char) :
    LedgerLines F where
  entryToString e := if occurs e then .ok (String.ofList json) else .error "another entry"
  entryFromStr s := if s.toList.dropWhile jsonWhitespace = json then .ok entry else .error "another text"

variable {occurs : IdentityLedgerEntry F → Bool}

variable {e : IdentityLedgerEntry F} {json : List Char}

theorem LedgerLines.only_entryToString {line : String} :
    (LedgerLines.only occurs entry json).entryToString e = .ok line ↔ occurs e = true ∧ String.ofList json = line := by
  unfold only
  dsimp only
  split <;> simp [*]

theorem LedgerLines.only_entryFromStr {text : List Char} :
    (LedgerLines.only occurs entry json).entryFromStr (String.ofList text) = .ok e ↔
      text.dropWhile jsonWhitespace = json ∧ entry = e := by
  unfold only
  dsimp only
  rw [String.toList_ofList]
  split <;> simp [*]

theorem LedgerLines.only_lawful {inner : List Char} (hinner : '\n' ∉ inner) :
    (LedgerLines.only occurs entry ('\x7b' :: (inner ++ ['\x7d']))).Lawful := by
  refine ⟨?_, ?_, ?_, ?_⟩
  · intro blank text hblank e
    rw [only_entryFromStr, only_entryFromStr, List.dropWhile_append_of_pos hblank]
  · intro e line hline
    obtain ⟨-, rfl⟩ := only_entryToString.mp hline
    exact ⟨inner, String.toList_ofList, hinner⟩
  · intro text e htext rest e' htext'
    obtain ⟨hjson, -⟩ := only_entryFromStr.mp htext
    obtain ⟨hlong, -⟩ := only_entryFromStr.mp htext'
    rw [List.dropWhile_append, hjson] at hlong
    simp at hlong
  · intro blank hwhite ⟨c, hc, hodd⟩ rest e htext
    obtain ⟨hjson, -⟩ := only_entryFromStr.mp htext
    rw [List.dropWhile_append] at hjson
    cases hdrop : blank.dropWhile jsonWhitespace with
    | nil =>
      rw [List.dropWhile_eq_nil_iff] at hdrop
      rw [hdrop c hc] at hodd
      cases hodd
    | cons d tail =>
      rw [hdrop] at hjson
      obtain rfl : d = '\x7b' := (List.cons.inj hjson).1
      have hd := hwhite _ ((List.dropWhile_suffix _).mem (hdrop ▸ List.mem_cons_self))
      exact absurd hd (by decide)

end OneLine

/-- An entry occurs when all its fields are those of the one entry. -/
instance : DecidableEq (IdentityLedgerEntry .reference) := fun e e' =>
  have : DecidableEq LedgerFormat.reference.Value := inferInstanceAs (DecidableEq String)
  decidable_of_iff (e.version = e'.version ∧ e.seq = e'.seq ∧ e.timestamp = e'.timestamp ∧ e.kind = e'.kind ∧
    e.provider = e'.provider ∧ e.tokenRefSha256 = e'.tokenRefSha256 ∧ e.expiresAt = e'.expiresAt ∧
    e.status = e'.status ∧ e.payload = e'.payload ∧ e.genesisEntropySha256 = e'.genesisEntropySha256 ∧
    e.prevHash = e'.prevHash ∧ e.entryHash = e'.entryHash ∧ e.signature = e'.signature ∧
    e.hashAlgorithm = e'.hashAlgorithm) (by cases e; cases e'; simp)

def AppendEnv.reference : AppendEnv where
  vars := .reference
  wallets :=
    { v1Exists := false
      loadWallet := .error "no PQ wallet found"
      v2Exists := false
      loadWalletV2 := fun _ => .error "no PQ wallet found"
      saveSignature := .ok ()
      now := 0 }
  path := "identity_social_ledger.jsonl"

def AppendAnswers.reference : AppendAnswers where
  lockPoisoned := false
  ensureHaloDir := .ok ()
  openForRead := .ok ()
  readLine _ := .ok ()
  openForAppend := .ok ()
  write := .done

/-- A revocation under some version, and the entry it becomes at the start of a ledger. -/
def revocation (version : UInt8) : IdentityLedgerEntry .reference := { revokedEntry none none with version }

def firstEntry (version : UInt8) : IdentityLedgerEntry .reference :=
  sealedEntry PqKeyCodec.reference .reference [] (revocation version) none

def firstFields (version : UInt8) : List Char :=
  "\"version\":".toList ++ (toString version.toNat).toList ++
    ",\"seq\":1,\"timestamp\":0,\"kind\":\"SocialTokenRevoked\"".toList ++
    ",\"provider\":null,\"token_ref_sha256\":null,\"expires_at\":null".toList ++
    ",\"status\":\"revoked\",\"payload\":null,\"prev_hash\":null,\"entry_hash\":\"".toList ++
    (firstEntry version).entryHash.toList ++ "\",\"signature\":null,\"hash_algorithm\":\"sha512\"".toList

def firstLines (version : UInt8) : LedgerLines .reference :=
  .only (fun e => decide (firstEntry version = e)) (firstEntry version) ('\x7b' :: (firstFields version ++ ['\x7d']))

theorem newline_not_mem_firstFields (version : UInt8) : '\n' ∉ firstFields version := by
  have hversion : '\n' ∉ (toString version.toNat).toList := Text.not_mem_toString (by decide) version.toNat
  have hhash : '\n' ∉ (firstEntry version).entryHash.toList := Text.not_mem_hexEncode (by decide) _
  unfold firstFields
  simp only [List.mem_append, not_or]
  exact ⟨⟨⟨⟨⟨⟨by decide, hversion⟩, by decide⟩, by decide⟩, by decide⟩, hhash⟩, by decide⟩

theorem firstLines_lawful (version : UInt8) : (firstLines version).Lawful := by
  unfold firstLines
  exact LedgerLines.only_lawful (newline_not_mem_firstFields version)

theorem PqKeyCodec.reference_lawful : PqKeyCodec.reference.Lawful := by
  have hround (key : Vector UInt8 32) : Vector.ofFn (n := 32) (fun i =>
      (Vector.ofFn (n := 1952) fun j => key.toList.getD j 0).toList.getD i 0) = key := by
    refine Vector.ext fun i hi => ?_
    simp [Nat.lt_trans hi (by decide : 32 < 1952)]
  exact hround

theorem AppendEnv.reference_consistent : AppendEnv.reference.wallets.Consistent PqKeyCodec.reference :=
  ⟨fun _ _ h => (nomatch h), fun _ _ _ h => (nomatch h)⟩

theorem firstEntry_reachesFile (version : UInt8) :
    ReachesFile PqKeyCodec.reference (firstLines version) .reference .reference none (revocation version) none [] where
  unlocked := rfl
  dir := rfl
  loaded := rfl
  signed := by simp [revocation, revokedEntry]
  pinned := rfl
  line := ⟨_, LedgerLines.only_entryToString.mpr ⟨decide_eq_true rfl, rfl⟩⟩
  opened := rfl
  written := nofun

theorem revocation_clean :
    CleanAppend PqKeyCodec.reference (firstLines 1) .reference .reference none (revocation 1) none [] where
  written := rfl
  lastLine c hc := absurd hc List.not_mem_nil
  readsBack line hline := by
    obtain ⟨-, rfl⟩ := LedgerLines.only_entryToString.mp hline
    exact LedgerLines.only_entryFromStr.mpr ⟨List.dropWhile_cons_of_neg (by decide), rfl⟩
  admissible := ⟨rfl, fun hkind => absurd hkind (by simp [revocation, revokedEntry])⟩

/-- The first append to a ledger that does not exist yet. -/
theorem keeps_firstAppend :
    ReachesFile PqKeyCodec.reference (firstLines 1) .reference .reference none (revocation 1) none [] ∧
      Keeps PqKeyCodec.reference (firstLines 1) .reference none []
        (appendEntryWithKey PqKeyCodec.reference (firstLines 1) .reference .reference none (revocation 1) none) := by
  refine ⟨firstEntry_reachesFile 1, ?_⟩
  rw [keeps_iff Platform.reference_signaturesCorrect.mldsa65 PqKeyCodec.reference_lawful (firstLines_lawful 1)
    AppendEnv.reference_consistent rfl rfl]
  exact fun _ => revocation_clean

/-- An event with another version is refused, but its line is in the file. -/
theorem rejected_line_stays :
    Platform.reference.mldsa65.Correct ∧ PqKeyCodec.reference.Lawful ∧ (firstLines 2).Lawful ∧
      AppendEnv.reference.wallets.Consistent PqKeyCodec.reference ∧
      ledgerOf (firstLines 2) AppendEnv.reference.path none = .ok [] ∧
      verifyChain PqKeyCodec.reference AppendEnv.reference.ledgerEnv ([] : List (IdentityLedgerEntry .reference)) = .ok () ∧
      ¬ Keeps PqKeyCodec.reference (firstLines 2) .reference none []
        (appendEntryWithKey PqKeyCodec.reference (firstLines 2) .reference .reference none (revocation 2) none) := by
  refine ⟨Platform.reference_signaturesCorrect.mldsa65, PqKeyCodec.reference_lawful, firstLines_lawful 2,
    AppendEnv.reference_consistent, rfl, rfl, ?_⟩
  rw [keeps_iff_cleanAppend Platform.reference_signaturesCorrect.mldsa65 PqKeyCodec.reference_lawful
    (firstLines_lawful 2) AppendEnv.reference_consistent rfl rfl (firstEntry_reachesFile 2)]
  exact fun hclean => absurd hclean.admissible.version (by decide)

end AgentHalo.Identity
