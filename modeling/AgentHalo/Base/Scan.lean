import AgentHalo.Base.Text
import Mathlib.Data.List.DropRight
import Mathlib.Data.List.TakeWhile

/-!
# Scanning text

What the settlement adapter and the capability patterns use to take keys apart: prefixes and suffixes, the first
separator, a repeated suffix trimmed off, and numbers printed and parsed back. Strings are compared through their
characters; every function here has one lemma that says what it returns on a string put together by `++`.
-/

namespace AgentHalo.Text

/-- Rust's `str::ends_with` with a string. -/
def endsWith (s suf : String) : Bool := suf.toList.isSuffixOf s.toList

/-- The slice `&s[pre.len()..]`, taken after `starts_with`. -/
def after (pre s : String) : String := String.ofList (s.toList.drop pre.toList.length)

/-- Rust's `str::strip_prefix` with a string. -/
def stripPrefix (s pre : String) : Option String := if startsWith s pre then some (after pre s) else none

/-- Rust's `str::contains` with a string. -/
def contains (s pat : String) : Bool := s.toList.tails.any pat.toList.isPrefixOf

/-- Rust's `str::split_once` with one character. -/
def splitOnce (c : Char) (s : String) : Option (String × String) :=
  match s.toList.dropWhile (· != c) with
  | [] => none
  | _ :: rest => some (String.ofList (s.toList.takeWhile (· != c)), String.ofList rest)

/-- The trimming loop on characters: as long as the pattern is there, it goes. -/
def trimEndLoop (pat : List Char) : Nat → List Char → List Char
  | 0, cs => cs
  | fuel + 1, cs => if pat.isSuffixOf cs then trimEndLoop pat fuel (cs.take (cs.length - pat.length)) else cs

/-- Rust's `str::trim_end_matches` with a nonempty string. -/
def trimEndMatchesStr (pat s : String) : String := String.ofList (trimEndLoop pat.toList s.toList.length s.toList)

/-- Rust's `u64::to_be_bytes`. -/
def toBeBytes (w : UInt64) : Bytes := (toLeBytes w).reverse

/-! ### Prefixes and suffixes -/

theorem startsWith_iff (s pre : String) : startsWith s pre = true ↔ ∃ rest, s = pre ++ rest := by
  unfold startsWith
  rw [List.isPrefixOf_iff_prefix]
  constructor
  · rintro ⟨rest, hrest⟩
    refine ⟨String.ofList rest, ?_⟩
    rw [← String.toList_inj, String.toList_append, String.toList_ofList, hrest]
  · rintro ⟨rest, rfl⟩
    rw [String.toList_append]
    exact List.prefix_append _ _

theorem endsWith_iff (s suf : String) : endsWith s suf = true ↔ ∃ front, s = front ++ suf := by
  unfold endsWith
  rw [List.isSuffixOf_iff_suffix]
  constructor
  · rintro ⟨front, hfront⟩
    refine ⟨String.ofList front, ?_⟩
    rw [← String.toList_inj, String.toList_append, String.toList_ofList, hfront]
  · rintro ⟨front, rfl⟩
    rw [String.toList_append]
    exact List.suffix_append _ _

@[simp] theorem startsWith_append (pre rest : String) : startsWith (pre ++ rest) pre = true :=
  (startsWith_iff _ _).mpr ⟨rest, rfl⟩

@[simp] theorem after_append (pre rest : String) : after pre (pre ++ rest) = rest := by
  unfold after
  rw [String.toList_append, List.drop_left, String.ofList_toList]

theorem startsWith_append_append (front s pre : String) : startsWith (front ++ s) (front ++ pre) = startsWith s pre := by
  rw [Bool.eq_iff_iff, startsWith_iff, startsWith_iff]
  constructor
  · rintro ⟨rest, hrest⟩
    rw [String.append_assoc] at hrest
    exact ⟨rest, (String.append_right_inj front).mp hrest⟩
  · rintro ⟨rest, rfl⟩
    exact ⟨rest, (String.append_assoc ..).symm⟩

theorem eq_append_of_stripPrefix {s pre rest : String} (h : stripPrefix s pre = some rest) : s = pre ++ rest := by
  unfold stripPrefix at h
  split at h
  · rename_i hstarts
    obtain ⟨tail, rfl⟩ := (startsWith_iff s pre).mp hstarts
    rw [after_append] at h
    rw [Option.some.inj h]
  · cases h

@[simp] theorem stripPrefix_append (pre rest : String) : stripPrefix (pre ++ rest) pre = some rest := by
  rw [stripPrefix, if_pos (startsWith_append pre rest), after_append]

/-! ### Letter case -/

theorem lt_asciiLower {c : Char} (hne : c ≠ asciiLower c) : c < asciiLower c := by
  have hletters : ∀ d : Fin 26, Char.ofNat (65 + d.val) < asciiLower (Char.ofNat (65 + d.val)) := by decide
  have hupper : 'A' ≤ c ∧ c ≤ 'Z' := by
    by_contra hother
    exact hne (if_neg hother).symm
  have hlow : 65 ≤ c.toNat := hupper.1
  have hhigh : c.toNat ≤ 90 := hupper.2
  have hletter := hletters ⟨c.toNat - 65, by omega⟩
  rwa [show 65 + (c.toNat - 65) = c.toNat by omega, Char.ofNat_toNat] at hletter

theorem lt_toAsciiLowercase {s : String} (hne : s ≠ toAsciiLowercase s) : s < toAsciiLowercase s := by
  have hchars : ∀ cs : List Char, cs ≠ cs.map asciiLower → cs < cs.map asciiLower := by
    intro cs
    induction cs with
    | nil => intro h; exact absurd rfl h
    | cons c rest ih =>
      intro h
      rw [List.map_cons]
      by_cases hc : c = asciiLower c
      · have hrest : rest < rest.map asciiLower := ih fun heq => h (by rw [List.map_cons, ← hc, ← heq])
        rw [← hc]
        exact List.Lex.cons hrest
      · exact List.Lex.rel (lt_asciiLower hc)
  rw [String.lt_iff]
  unfold toAsciiLowercase at hne ⊢
  rw [String.toList_ofList]
  refine hchars s.toList ?_
  intro heq
  rw [← heq, String.ofList_toList] at hne
  exact hne rfl

/-! ### White space at the ends -/

theorem trimChars_trimChars (cs : List Char) : trimChars (trimChars cs) = trimChars cs := by
  have hfront : (trimChars cs).dropWhile isWhitespace = trimChars cs := by
    obtain ⟨rest, hrest⟩ := List.rdropWhile_prefix (p := isWhitespace) (l := cs.dropWhile isWhitespace)
    have hsame : trimChars cs = (cs.dropWhile isWhitespace).rdropWhile isWhitespace := rfl
    rw [← hsame] at hrest
    cases htrim : trimChars cs with
    | nil => rfl
    | cons c tail =>
      -- the first character left is the first that is not white space
      have hhead := List.head?_dropWhile_not isWhitespace cs
      rw [← hrest, htrim] at hhead
      have hc : isWhitespace c = false := by simpa using hhead
      simp [hc]
  calc
    trimChars (trimChars cs) = ((trimChars cs).dropWhile isWhitespace).rdropWhile isWhitespace := rfl
    _ = (trimChars cs).rdropWhile isWhitespace := by rw [hfront]
    _ = trimChars cs := List.rdropWhile_idempotent isWhitespace (cs.dropWhile isWhitespace)

theorem trim_trim (s : String) : trim (trim s) = trim s := by
  unfold trim
  rw [String.toList_ofList, trimChars_trimChars]

theorem trimChars_cons_append {c : Char} (hc : isWhitespace c = false) (cs : List Char) {back : List Char}
    (hback : trimChars back = back) (hne : back ≠ []) : trimChars (c :: cs ++ back) = c :: cs ++ back := by
  have hfront : (c :: cs ++ back).dropWhile isWhitespace = c :: cs ++ back := by simp [hc]
  have hlast : ¬ isWhitespace (back.getLast hne) = true := by
    have hkept : (back.dropWhile isWhitespace).rdropWhile isWhitespace = back := hback
    have hnot := List.rdropWhile_last_not isWhitespace (back.dropWhile isWhitespace) (hkept.symm ▸ hne)
    simpa only [hkept] using hnot
  calc
    trimChars (c :: cs ++ back) = ((c :: cs ++ back).dropWhile isWhitespace).rdropWhile isWhitespace := rfl
    _ = (c :: cs ++ back).rdropWhile isWhitespace := by rw [hfront]
    _ = c :: cs ++ back := by
      rw [List.rdropWhile_eq_self_iff]
      intro _
      rw [List.getLast_append_of_ne_nil _ hne]
      exact hlast

theorem trimChars_eq_nil_iff (cs : List Char) : trimChars cs = [] ↔ ∀ c ∈ cs, isWhitespace c = true := by
  unfold trimChars
  rw [List.reverse_eq_nil_iff, List.dropWhile_eq_nil_iff]
  constructor
  · intro h
    -- the first character that is left would be white space
    have hnil : cs.dropWhile isWhitespace = [] := by
      cases hdrop : cs.dropWhile isWhitespace with
      | nil => rfl
      | cons c rest =>
        have hhead := List.head?_dropWhile_not isWhitespace cs
        have hc := h c (by simp [hdrop])
        rw [hdrop] at hhead
        simp [hc] at hhead
    exact List.dropWhile_eq_nil_iff.mp hnil
  · intro h c hc
    exact h c (List.dropWhile_suffix _ |>.mem (List.mem_reverse.mp hc))

theorem trim_eq_empty_iff (cs : List Char) : trim (String.ofList cs) = "" ↔ ∀ c ∈ cs, isWhitespace c = true := by
  rw [← trimChars_eq_nil_iff, trim, String.toList_ofList, ← String.toList_inj, String.toList_ofList]
  rfl

theorem splitOnce_append {c : Char} {a : String} (h : c ∉ a.toList) (b : String) :
    splitOnce c (a ++ String.singleton c ++ b) = some (a, b) := by
  have hall : ∀ x ∈ a.toList, (x != c) = true := by
    intro x hx
    rw [bne_iff_ne]
    rintro rfl
    exact h hx
  have hlist : (a ++ String.singleton c ++ b).toList = a.toList ++ c :: b.toList := by
    simp [String.toList_append]
  unfold splitOnce
  rw [hlist, List.dropWhile_append_of_pos hall, List.takeWhile_append_of_pos hall]
  simp

/-! ### Trimming -/

def repeated (pat : String) (k : Nat) : String := String.ofList (List.replicate k pat.toList).flatten

theorem repeated_succ (pat : String) (k : Nat) : repeated pat (k + 1) = pat ++ repeated pat k := by
  unfold repeated
  rw [← String.toList_inj]
  simp [List.replicate_succ]

theorem trimEndLoop_spec (pat : List Char) (fuel : Nat) (cs : List Char) :
    ∃ k, cs = trimEndLoop pat fuel cs ++ (List.replicate k pat).flatten := by
  induction fuel generalizing cs with
  | zero => exact ⟨0, by simp [trimEndLoop]⟩
  | succ fuel ih =>
    unfold trimEndLoop
    split
    · rename_i hsuf
      obtain ⟨front, rfl⟩ := List.isSuffixOf_iff_suffix.mp hsuf
      have htake : (front ++ pat).take ((front ++ pat).length - pat.length) = front := by
        rw [List.length_append, Nat.add_sub_cancel, List.take_left]
      rw [htake]
      obtain ⟨k, hk⟩ := ih front
      refine ⟨k + 1, ?_⟩
      rw [List.replicate_succ', List.flatten_append, List.flatten_singleton, ← List.append_assoc, ← hk]
    · exact ⟨0, by simp⟩

theorem eq_trimEndMatchesStr_append {s pat : String} (h : endsWith s pat = true) :
    ∃ k, s = trimEndMatchesStr pat s ++ repeated pat (k + 1) := by
  have hsuf : pat.toList.isSuffixOf s.toList = true := h
  have hlist : ∃ k, s.toList =
      trimEndLoop pat.toList s.toList.length s.toList ++ (List.replicate (k + 1) pat.toList).flatten := by
    obtain ⟨front, hfront⟩ := List.isSuffixOf_iff_suffix.mp hsuf
    cases hlen : s.toList.length with
    | zero =>
      have hnil : s.toList = [] := List.eq_nil_of_length_eq_zero hlen
      rw [hnil, List.append_eq_nil_iff] at hfront
      exact ⟨0, by rw [hnil, hfront.2]; rfl⟩
    | succ fuel =>
      have htake : s.toList.take (s.toList.length - pat.toList.length) = front := by
        rw [← hfront, List.length_append, Nat.add_sub_cancel, List.take_left]
      have hstep : trimEndLoop pat.toList (fuel + 1) s.toList = trimEndLoop pat.toList fuel front := by
        rw [trimEndLoop, if_pos hsuf, htake]
      obtain ⟨k, hk⟩ := trimEndLoop_spec pat.toList fuel front
      refine ⟨k, ?_⟩
      rw [hstep, List.replicate_succ', List.flatten_append, List.flatten_singleton, ← List.append_assoc, ← hk, hfront]
  obtain ⟨k, hk⟩ := hlist
  refine ⟨k, ?_⟩
  unfold trimEndMatchesStr repeated
  rw [← String.toList_inj]
  simp only [String.toList_append, String.toList_ofList]
  exact hk

theorem not_isSuffixOf_trimEndLoop {pat : List Char} (hpat : pat ≠ []) (fuel : Nat) {cs : List Char}
    (hfuel : cs.length ≤ fuel) : pat.isSuffixOf (trimEndLoop pat fuel cs) = false := by
  induction fuel generalizing cs with
  | zero =>
    obtain rfl := List.eq_nil_of_length_eq_zero (Nat.le_zero.mp hfuel)
    rw [← Bool.not_eq_true, trimEndLoop, List.isSuffixOf_iff_suffix, List.suffix_nil]
    exact hpat
  | succ fuel ih =>
    have hpos := List.length_pos_of_ne_nil hpat
    unfold trimEndLoop
    split
    · refine ih ?_
      rw [List.length_take]
      omega
    · rename_i hsuf
      exact Bool.not_eq_true _ |>.mp hsuf

theorem endsWith_trimEndMatchesStr {pat : String} (hpat : pat ≠ "") (s : String) :
    endsWith (trimEndMatchesStr pat s) pat = false := by
  have hne : pat.toList ≠ [] := by
    intro hnil
    exact hpat (String.toList_inj.mp hnil)
  unfold endsWith trimEndMatchesStr
  rw [String.toList_ofList]
  exact not_isSuffixOf_trimEndLoop hne _ (Nat.le_refl _)

theorem trimEndMatchesStr_append {pat base : String} (hpat : pat ≠ "") (hbase : endsWith base pat = false) :
    trimEndMatchesStr pat (base ++ pat) = base := by
  have hstay (fuel : Nat) : trimEndLoop pat.toList fuel base.toList = base.toList := by
    cases fuel with
    | zero => rfl
    | succ fuel => exact if_neg (Bool.not_eq_true _ |>.mpr hbase)
  have hsuf : pat.toList.isSuffixOf (base.toList ++ pat.toList) = true := by
    rw [List.isSuffixOf_iff_suffix]
    exact List.suffix_append _ _
  have hloop (fuel : Nat) (hfuel : 0 < fuel) : trimEndLoop pat.toList fuel (base.toList ++ pat.toList) = base.toList := by
    cases fuel with
    | zero => exact absurd hfuel (Nat.lt_irrefl 0)
    | succ fuel =>
      rw [trimEndLoop, if_pos hsuf, List.length_append, Nat.add_sub_cancel, List.take_left]
      exact hstay fuel
  have hlen : 0 < (base.toList ++ pat.toList).length := by
    rw [List.length_append]
    refine Nat.add_pos_right _ (List.length_pos_of_ne_nil ?_)
    intro hnil
    exact hpat (String.toList_inj.mp hnil)
  unfold trimEndMatchesStr
  rw [String.toList_append, hloop _ hlen, String.ofList_toList]

/-! ### Printed numbers -/

theorem digitsValue_toDigits (n : Nat) : digitsValue (Nat.toDigits 10 n) = some n := by
  have hdigits : ∀ c ∈ Nat.toDigits 10 n, '0' ≤ c ∧ c ≤ '9' := by
    intro c hc
    have hdigit := Nat.isDigit_of_mem_toDigits (by decide) (by decide) hc
    simpa [Char.isDigit, Char.le_def] using hdigit
  have hne : Nat.toDigits 10 n ≠ [] := Nat.toDigits_ne_nil
  have hvalue : (Nat.toDigits 10 n).foldl (fun acc c => acc * 10 + (c.toNat - '0'.toNat)) 0 = n := by
    calc
      _ = (Nat.toDigits 10 n).foldl (fun acc c => 10 * acc + (c.toNat - '0'.toNat)) 0 := by
        simp only [Nat.mul_comm]
      _ = Nat.ofDigitChars 10 (Nat.toDigits 10 n) 0 := Nat.ofDigitChars_eq_foldl.symm
      _ = n := Nat.ofDigitChars_ten_toDigits
  unfold digitsValue
  rw [if_neg, hvalue]
  simpa [hne] using hdigits

theorem parseU64_toString (w : UInt64) : parseU64 (toString w) = some w := by
  have hlist : (toString w).toList = Nat.toDigits 10 w.toNat := Nat.toList_repr
  have hplus : ∀ rest, Nat.toDigits 10 w.toNat ≠ '+' :: rest := by
    intro rest h
    apply not_mem_toString (show '+'.isDigit = false by decide) w.toNat
    have hrepr : (toString w.toNat).toList = Nat.toDigits 10 w.toNat := Nat.toList_repr
    rw [hrepr, h]
    exact List.mem_cons_self
  unfold parseU64
  rw [hlist]
  split
  · rename_i rest h
    exact absurd h (hplus rest)
  · dsimp only
    rw [digitsValue_toDigits, Option.bind_some, if_pos w.toNat_lt, UInt64.ofNat_toNat]

/-! ### Hexadecimal text -/

theorem toAsciiLowercase_hexEncode (bytes : Bytes) : toAsciiLowercase (hexEncode bytes) = hexEncode bytes := by
  have hdigits : ∀ d : Fin 16, asciiLower (hexDigit d.val) = hexDigit d.val := by decide
  have hbyte : ∀ b : UInt8, (hexByte b).map asciiLower = hexByte b := by
    intro b
    have hb := b.toNat_lt
    have hhigh := hdigits ⟨b.toNat / 16, by omega⟩
    have hlow := hdigits ⟨b.toNat % 16, by omega⟩
    simp only at hhigh hlow
    simp [hexByte, hhigh, hlow]
  unfold toAsciiLowercase hexEncode
  rw [String.toList_ofList, List.map_flatMap]
  simp only [hbyte]

theorem length_of_decodeHexPairs {raw bytes : Bytes} (h : decodeHexPairs raw = some bytes) :
    raw.length = 2 * bytes.length := by
  induction raw using decodeHexPairs.induct generalizing bytes with
  | case1 hi lo rest ih =>
    rw [decodeHexPairs] at h
    simp only [bind, Option.bind_eq_some_iff] at h
    obtain ⟨high, -, low, -, tail, htail, hbytes⟩ := h
    obtain rfl := Option.some.inj hbytes
    rw [List.length_cons, List.length_cons, List.length_cons, ih htail]
    omega
  | case2 =>
    obtain rfl := Option.some.inj h
    rfl
  | case3 => cases h

end AgentHalo.Text
