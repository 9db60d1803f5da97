import AgentHalo.Base.Lines
import AgentHalo.Base.Scan

/-!
# Documents in chunks

A document is cut into sections at its headings and a section into paragraphs at its empty lines. Paragraphs are collected in a
bucket, which becomes a chunk when the next one does not fit; a paragraph beyond the hard limit becomes chunks of its own.
What is shorter than twenty bytes is dropped. A paragraph of twenty bytes within the hard limit is in one chunk as it is, and
of a longer one only a last slice can be missing (`chunkDocument_keeps`).
-/

namespace AgentHalo.Memory

open Lines (lines)
open Text (isWhitespace trimChars)

def softWordLimit : Nat := 512
def hardWordLimit : Nat := 2048
def minChars : Nat := 20

def byteLen (text : List Char) : Nat := (text.map Char.utf8Size).sum

/-- `str::split_whitespace`. -/
def words (text : List Char) : List (List Char) := (text.splitOnP isWhitespace).filter (· ≠ [])

def isAsciiWhitespace (c : Char) : Bool := c = ' ' ∨ c = '\t' ∨ c = '\n' ∨ c = '\x0c' ∨ c = '\r'

/-- `str::split("\n\n")`. -/
def splitDouble : List Char → List (List Char)
  | [] => [[]]
  | '\n' :: '\n' :: rest => [] :: splitDouble rest
  | c :: rest => (splitDouble rest).modifyHead (c :: ·)

/-- `count` pieces of `size` elements each, the last one with what is left. -/
def takeSlices {α : Type} (size : Nat) : Nat → List α → List (List α)
  | 0, _ => []
  | count + 1, l => l.take size :: takeSlices size count (l.drop size)

/-- `slice::chunks`. -/
def slices {α : Type} (size : Nat) (l : List α) : List (List α) := takeSlices size ((l.length + size - 1) / size) l

/-! ### Sections -/

def isHeadingBoundary (line : List Char) : Bool :=
  let trimmed := line.dropWhile isWhitespace
  let hashCount := (trimmed.takeWhile (· = '#')).length
  if trimmed.head? ≠ some '#' then false
  else if ¬ (1 ≤ hashCount ∧ hashCount ≤ 6) then false
  else (trimmed[hashCount]?.map isAsciiWhitespace).getD false

/-- `join("\n")` and `trim`. -/
def joinTrim (current : List (List Char)) : List Char := trimChars (['\n'].intercalate current)

structure Gathering where
  sections : List (Option (List Char) × List Char)
  currentHeading : Option (List Char)
  current : List (List Char)

/-- The sections with the one that is being read. -/
def Gathering.closed (g : Gathering) : List (Option (List Char) × List Char) :=
  if g.current ≠ [] then g.sections ++ [(g.currentHeading, joinTrim g.current)] else g.sections

def Gathering.line (g : Gathering) (line : List Char) : Gathering :=
  if isHeadingBoundary line then ⟨g.closed, some (trimChars line), [line]⟩
  else { g with current := g.current ++ [line] }

def sectionsOf (document : List Char) : List (Option (List Char) × List Char) :=
  let sections := ((lines document).foldl Gathering.line ⟨[], none, []⟩).closed
  if sections = [] then [(none, document)] else sections

/-! ### Paragraphs -/

def headingPrefix : Option (List Char) → List Char
  | none => []
  | some h =>
    let clean := trimChars (h.dropWhile (· = '#'))
    if clean = [] then [] else "[Section: ".toList ++ clean ++ "] ".toList

/-- The chunks of a paragraph beyond the hard limit. -/
def longChunks (headingPrefix p : List Char) : List (List Char) :=
  ((slices hardWordLimit (words p)).map fun slice => headingPrefix ++ [' '].intercalate slice).filter
    (minChars ≤ byteLen ·)

/-- The chunk that a bucket becomes, if it is not too short. -/
def bucketChunk (headingPrefix bucket : List Char) : List (List Char) :=
  if minChars ≤ byteLen bucket then
    [if bucket.head? = some '[' ∨ bucket.head? = some '#' then trimChars bucket else headingPrefix ++ trimChars bucket]
  else []

structure Filling where
  chunks : List (List Char)
  bucket : List Char

/-- The bucket becomes a chunk where the next words do not fit. -/
def Filling.makeRoom (headingPrefix : List Char) (f : Filling) (newWords : Nat) : Filling :=
  if f.bucket ≠ [] ∧ softWordLimit < (words f.bucket).length + newWords then
    ⟨f.chunks ++ bucketChunk headingPrefix f.bucket, []⟩
  else f

def Filling.push (f : Filling) (p : List Char) : Filling :=
  { f with bucket := (if f.bucket ≠ [] then f.bucket ++ ['\n', '\n'] else f.bucket) ++ p }

def Filling.add (headingPrefix : List Char) (f : Filling) (paragraph : List Char) : Filling :=
  let p := trimChars paragraph
  if p = [] then f
  else if hardWordLimit < (words p).length then { f with chunks := f.chunks ++ longChunks headingPrefix p }
  else (f.makeRoom headingPrefix (words p).length).push p

def sectionChunks (part : Option (List Char) × List Char) : List (List Char) :=
  let f := (splitDouble part.2).foldl (Filling.add (headingPrefix part.1)) ⟨[], []⟩
  f.chunks ++ bucketChunk (headingPrefix part.1) f.bucket

def chunkDocument (document : List Char) : List (List Char) := (sectionsOf document).flatMap sectionChunks

/-! ### Sections and paragraphs -/

/-- A section: from a heading, or from the start, up to the next heading. -/
def IsSection (ls body : List (List Char)) : Prop :=
  ∃ before after, ls = before ++ body ++ after ∧ body ≠ [] ∧
    (before = [] ∨ ∀ line ∈ body.head?, isHeadingBoundary line = true) ∧
    (∀ line ∈ body.tail, isHeadingBoundary line = false) ∧ (∀ line ∈ after.head?, isHeadingBoundary line = true)

def headingOf (body : List (List Char)) : Option (List Char) := (body.head?.filter isHeadingBoundary).map trimChars

/-- A paragraph: the lines from an empty line, or from the start, up to the next empty line. -/
def IsParagraph (body run : List (List Char)) : Prop :=
  ∃ before after, body = before ++ run ++ after ∧ run ≠ [] ∧ (∀ line ∈ run, line ≠ []) ∧
    (∀ line ∈ before.getLast?, line = []) ∧ (∀ line ∈ after.head?, line = [])

/-! ### White space around a text -/

abbrev Blank (w : List Char) : Prop := ∀ c ∈ w, isWhitespace c = true

/-- The text is not empty and has no white space at its ends. -/
structure Tight (p : List Char) : Prop where
  ne_nil : p ≠ []
  head : ∀ c ∈ p.head?, isWhitespace c = false
  last : ∀ c ∈ p.getLast?, isWhitespace c = false

variable {w text a rest b : List Char}

variable {w' y : List Char} {t ls : List (List Char)} {α : Type} {size : Nat} {l : List α}

theorem Blank.append (h : Blank w) (h' : Blank w') : Blank (w ++ w') :=
  List.forall_mem_append.mpr ⟨h, h'⟩

theorem Blank.reverse (h : Blank w) : Blank w.reverse := fun c hc => h c (List.mem_reverse.mp hc)

theorem Tight.reverse {p : List Char} (h : Tight p) : Tight p.reverse where
  ne_nil := List.reverse_ne_nil_iff.mpr h.ne_nil
  head c hc := h.last c (List.head?_reverse ▸ hc)
  last c hc := h.head c (List.getLast?_reverse ▸ hc)

theorem Tight.dropWhile {p : List Char} (h : Tight p) (a b : List Char) :
    (a ++ p ++ b).dropWhile isWhitespace = a.dropWhile isWhitespace ++ p ++ b := by
  have hkept : (p ++ b).dropWhile isWhitespace = p ++ b := by
    cases hp : p with
    | nil => exact absurd hp h.ne_nil
    | cons c rest => simp [h.head c (by simp [hp])]
  rw [List.append_assoc, List.dropWhile_append, hkept]
  split_ifs with hblank
  · rw [List.isEmpty_iff.mp hblank, List.nil_append]
  · rw [List.append_assoc]

theorem Tight.trimChars_append {p : List Char} (h : Tight p) (a b : List Char) :
    trimChars (a ++ p ++ b) = a.dropWhile isWhitespace ++ p ++ (b.reverse.dropWhile isWhitespace).reverse := by
  have hback := h.reverse.dropWhile b.reverse (a.dropWhile isWhitespace).reverse
  rw [trimChars, h.dropWhile, List.reverse_append, List.reverse_append, ← List.append_assoc, hback]
  simp only [List.reverse_append, List.reverse_reverse, List.append_assoc]

theorem dropWhile_blank (h : Blank w) : w.dropWhile isWhitespace = [] :=
  List.dropWhile_eq_nil_iff.mpr h

theorem Tight.trimChars_blank {p : List Char} (h : Tight p) (hw : Blank w) (hw' : Blank w') :
    trimChars (w ++ p ++ w') = p := by
  rw [h.trimChars_append, dropWhile_blank hw, dropWhile_blank hw'.reverse, List.reverse_nil, List.nil_append,
    List.append_nil]

theorem Tight.part_trimChars {p : List Char} (h : Tight p) (hpart : p <:+: text) : p <:+: trimChars text := by
  obtain ⟨a, b, rfl⟩ := hpart
  rw [h.trimChars_append]
  exact List.infix_append _ _ _

theorem head_dropWhile (text : List Char) : ∀ c ∈ (text.dropWhile isWhitespace).head?, isWhitespace c = false := by
  intro c hc
  have hnot := List.head?_dropWhile_not isWhitespace text
  rw [hc] at hnot
  simpa using hnot

theorem exists_trimChars (text : List Char) : ∃ w w', text = w ++ trimChars text ++ w' ∧ Blank w ∧ Blank w' := by
  refine ⟨text.takeWhile isWhitespace, ((text.dropWhile isWhitespace).reverse.takeWhile isWhitespace).reverse, ?_,
    fun c hc => List.mem_takeWhile_imp hc, fun c hc => List.mem_takeWhile_imp (List.mem_reverse.mp hc)⟩
  rw [trimChars, List.append_assoc, ← List.reverse_append, List.takeWhile_append_dropWhile, List.reverse_reverse,
    List.takeWhile_append_dropWhile]

theorem tight_trimChars (hne : trimChars text ≠ []) : Tight (trimChars text) := by
  refine ⟨hne, ?_, ?_⟩
  · intro c hc
    have hfront : text.dropWhile isWhitespace =
        trimChars text ++ ((text.dropWhile isWhitespace).reverse.takeWhile isWhitespace).reverse := by
      rw [trimChars, ← List.reverse_append, List.takeWhile_append_dropWhile, List.reverse_reverse]
    refine head_dropWhile text c ?_
    rw [hfront, List.head?_append, Option.mem_def.mp hc]
    rfl
  · intro c hc
    rw [trimChars, List.getLast?_reverse] at hc
    exact head_dropWhile _ c hc

/-! ### Splitting at empty lines -/

def NoDouble (p : List Char) : Prop := ¬ ['\n', '\n'] <:+: p

/-- White space, perhaps after a text that ends in an empty line. -/
def Boundary (a : List Char) : Prop := ∃ front w, a = front ++ w ∧ Blank w ∧ (front = [] ∨ ∃ c, front = c ++ ['\n', '\n'])

theorem blank_nil : Blank [] := fun _ hc => absurd hc List.not_mem_nil

theorem blank_newline : Blank ['\n'] := List.forall_mem_singleton.mpr (by decide)

theorem boundary_nil : Boundary [] := ⟨[], [], rfl, blank_nil, .inl rfl⟩

theorem Boundary.append (h : Boundary a) (hw : Blank w) : Boundary (a ++ w) := by
  obtain ⟨front, w', rfl, hw', hfront⟩ := h
  exact ⟨front, w' ++ w, by simp, hw'.append hw, hfront⟩

theorem Boundary.dropWhile (h : Boundary a) : Boundary (a.dropWhile isWhitespace) := by
  obtain ⟨front, w, rfl, hw, rfl | ⟨c, rfl⟩⟩ := h
  · rw [List.nil_append, dropWhile_blank hw]
    exact boundary_nil
  · rw [List.append_assoc, List.dropWhile_append]
    split_ifs
    · rw [dropWhile_blank (Blank.append (show Blank ['\n', '\n'] from blank_newline.append blank_newline) hw)]
      exact boundary_nil
    · exact ⟨c.dropWhile isWhitespace ++ ['\n', '\n'], w, (List.append_assoc _ _ _).symm, hw, .inr ⟨_, rfl⟩⟩

theorem splitDouble_cons {c : Char} (h : ¬ (c = '\n' ∧ rest.head? = some '\n')) :
    splitDouble (c :: rest) = (splitDouble rest).modifyHead (c :: ·) := by
  rw [splitDouble.eq_3]
  rintro rest' rfl rfl
  exact h ⟨rfl, rfl⟩

theorem noDouble_cons {c : Char} : NoDouble (c :: rest) ↔ ¬ (c = '\n' ∧ rest.head? = some '\n') ∧ NoDouble rest := by
  unfold NoDouble
  rw [List.infix_cons_iff, not_or]
  refine and_congr_left fun _ => not_congr ?_
  cases rest with
  | nil => simp
  | cons d rest => simp [List.cons_prefix_cons, eq_comm]

theorem splitDouble_boundary (h : Boundary b.reverse) : ∃ w t, splitDouble b = w :: t ∧ Blank w := by
  obtain ⟨front, w, hb, hw, hfront⟩ := h
  obtain ⟨w, back, rfl, hw, hback⟩ : ∃ w back, b = w ++ back ∧ Blank w ∧ (back = [] ∨ ∃ c, back = '\n' :: '\n' :: c) := by
    refine ⟨w.reverse, front.reverse, by rw [← List.reverse_append, ← hb, List.reverse_reverse], hw.reverse, ?_⟩
    obtain rfl | ⟨c, rfl⟩ := hfront
    · exact .inl rfl
    · exact .inr ⟨c.reverse, by simp⟩
  clear hb
  induction w with
  | nil =>
    obtain rfl | ⟨c, rfl⟩ := hback
    · exact ⟨[], [], rfl, blank_nil⟩
    · exact ⟨[], splitDouble c, rfl, blank_nil⟩
  | cons d w ih =>
    by_cases hdouble : d = '\n' ∧ (w ++ back).head? = some '\n'
    · obtain ⟨rfl, hhead⟩ := hdouble
      obtain ⟨rest, hrest⟩ := List.head?_eq_some_iff.mp hhead
      rw [List.cons_append, hrest]
      exact ⟨[], splitDouble rest, rfl, blank_nil⟩
    · obtain ⟨hd, hw⟩ := List.forall_mem_cons.mp hw
      obtain ⟨w', t, hsplit, hw'⟩ := ih hw
      rw [List.cons_append, splitDouble_cons hdouble, hsplit]
      exact ⟨d :: w', t, rfl, List.forall_mem_cons.mpr ⟨hd, hw'⟩⟩

theorem splitDouble_append {p : List Char} (hne : p ≠ []) (hlast : ∀ c ∈ p.getLast?, isWhitespace c = false)
    (hdouble : NoDouble p) (hb : Boundary b.reverse) : ∃ w t, splitDouble (p ++ b) = (p ++ w) :: t ∧ Blank w := by
  induction p with
  | nil => exact absurd rfl hne
  | cons c rest ih =>
    obtain ⟨hfirst, hrest⟩ := noDouble_cons.mp hdouble
    cases rest with
    | nil =>
      have hc : c ≠ '\n' := by
        rintro rfl
        exact absurd (hlast '\n' rfl) (by decide)
      obtain ⟨w, t, hsplit, hw⟩ := splitDouble_boundary hb
      refine ⟨w, t, ?_, hw⟩
      rw [List.cons_append, List.nil_append, splitDouble_cons fun h => hc h.1, hsplit]
      rfl
    | cons d rest =>
      obtain ⟨w, t, hsplit, hw⟩ := ih (List.cons_ne_nil d rest) (by simpa using hlast) hrest
      refine ⟨w, t, ?_, hw⟩
      have hcons : splitDouble (c :: (d :: rest ++ b)) = (splitDouble (d :: rest ++ b)).modifyHead (c :: ·) :=
        splitDouble_cons hfirst
      rw [List.cons_append, hcons, hsplit]
      rfl

theorem mem_splitDouble_blank (hw : Blank w) (hhead : text.head? ≠ some '\n') (htext : splitDouble text = y :: t) :
    ∃ w', Blank w' ∧ w' ++ y ∈ splitDouble (w ++ text) := by
  induction w using splitDouble.induct with
  | case1 => exact ⟨[], blank_nil, by rw [List.nil_append, htext]; exact List.mem_cons_self⟩
  | case2 rest ih =>
    obtain ⟨w', hw', hmem⟩ := ih fun c hc => hw c (List.mem_cons_of_mem _ (List.mem_cons_of_mem _ hc))
    exact ⟨w', hw', List.mem_cons_of_mem _ hmem⟩
  | case3 c rest hsingle ih =>
    obtain ⟨hc, hrest⟩ := List.forall_mem_cons.mp hw
    obtain ⟨w', hw', hmem⟩ := ih hrest
    have hcons : splitDouble (c :: (rest ++ text)) = (splitDouble (rest ++ text)).modifyHead (c :: ·) := by
      refine splitDouble_cons ?_
      rintro ⟨rfl, hnext⟩
      cases rest with
      | nil => exact hhead hnext
      | cons d rest => exact hsingle rest rfl (by simp at hnext; rw [hnext])
    rw [List.cons_append, hcons]
    cases hsplit : splitDouble (rest ++ text) with
    | nil =>
      rw [hsplit] at hmem
      cases hmem
    | cons x xs =>
      rw [hsplit] at hmem
      obtain rfl | htail := List.mem_cons.mp hmem
      · exact ⟨c :: w', List.forall_mem_cons.mpr ⟨hc, hw'⟩, List.mem_cons_self⟩
      · exact ⟨w', hw', List.mem_cons_of_mem _ htail⟩

theorem mem_splitDouble_tail {c : List Char} (hw : Blank w) (hhead : text.head? ≠ some '\n')
    (htext : splitDouble text = y :: t) :
    ∃ w', Blank w' ∧ w' ++ y ∈ (splitDouble (c ++ '\n' :: '\n' :: (w ++ text))).tail := by
  induction c using splitDouble.induct with
  | case1 => exact mem_splitDouble_blank hw hhead htext
  | case2 rest ih =>
    obtain ⟨w', hw', hmem⟩ := ih
    exact ⟨w', hw', List.mem_of_mem_tail hmem⟩
  | case3 c rest hsingle ih =>
    by_cases hthree : c = '\n' ∧ rest = []
    · obtain ⟨rfl, rfl⟩ := hthree
      -- three line feeds: the third is white space before the piece
      exact mem_splitDouble_blank (w := '\n' :: w) (List.forall_mem_cons.mpr ⟨by decide, hw⟩) hhead htext
    · obtain ⟨w', hw', hmem⟩ := ih
      refine ⟨w', hw', ?_⟩
      rw [List.cons_append, splitDouble_cons, List.tail_modifyHead]
      · exact hmem
      · rintro ⟨rfl, hnext⟩
        cases rest with
        | nil => exact hthree ⟨rfl, rfl⟩
        | cons d rest => exact hsingle rest rfl (by simp at hnext; rw [hnext])

theorem exists_piece {p : List Char} (hp : Tight p) (hdouble : NoDouble p) (ha : Boundary a)
    (hb : Boundary b.reverse) : ∃ x ∈ splitDouble (a ++ p ++ b), trimChars x = p := by
  obtain ⟨w, t, hsplit, hw⟩ := splitDouble_append hp.ne_nil hp.last hdouble hb
  have hhead : (p ++ b).head? ≠ some '\n' := by
    cases hcons : p with
    | nil => exact absurd hcons hp.ne_nil
    | cons c rest =>
      rintro hc
      obtain rfl : c = '\n' := by simpa using hc
      exact absurd (hp.head '\n' (by simp [hcons])) (by decide)
  obtain ⟨w', hw', hmem⟩ : ∃ w', Blank w' ∧ w' ++ (p ++ w) ∈ splitDouble (a ++ (p ++ b)) := by
    obtain ⟨front, w', rfl, hw', rfl | ⟨c, rfl⟩⟩ := ha
    · exact mem_splitDouble_blank hw' hhead hsplit
    · obtain ⟨w'', hw'', hmem⟩ := mem_splitDouble_tail (c := c) hw' hhead hsplit
      refine ⟨w'', hw'', ?_⟩
      simpa using List.mem_of_mem_tail hmem
  rw [← List.append_assoc] at hmem
  exact ⟨w' ++ (p ++ w), hmem, by rw [← List.append_assoc, hp.trimChars_blank hw' hw]⟩

/-! ### From lines to text -/

theorem join_append {ls' : List (List Char)} (h : ls ≠ []) (h' : ls' ≠ []) :
    ['\n'].intercalate (ls ++ ls') = ['\n'].intercalate ls ++ '\n' :: ['\n'].intercalate ls' := by
  induction ls with
  | nil => exact absurd rfl h
  | cons line ls ih =>
    cases ls with
    | nil =>
      rw [List.singleton_append, List.intercalate_cons_of_ne_nil h', List.intercalate_singleton, List.append_assoc]
      rfl
    | cons next rest =>
      rw [List.cons_append, List.intercalate_cons_of_ne_nil (by simp), ih (List.cons_ne_nil _ _),
        List.intercalate_cons_of_ne_nil (List.cons_ne_nil _ _)]
      simp only [List.append_assoc]

theorem noDouble_append {line : List Char} (hline : '\n' ∉ line) (hrest : NoDouble rest) : NoDouble (line ++ rest) := by
  induction line with
  | nil => exact hrest
  | cons c line ih =>
    refine noDouble_cons.mpr ⟨?_, ih (List.not_mem_of_not_mem_cons hline)⟩
    rintro ⟨rfl, -⟩
    exact hline List.mem_cons_self

theorem noDouble_nil : NoDouble [] := by
  unfold NoDouble
  decide

variable {run body ws : List (List Char)}

theorem noDouble_join (hline : ∀ line ∈ run, '\n' ∉ line) (hne : ∀ line ∈ run, line ≠ []) :
    NoDouble (['\n'].intercalate run) := by
  induction run with
  | nil => exact noDouble_nil
  | cons line rest ih =>
    obtain ⟨hfirst, hlines⟩ := List.forall_mem_cons.mp hline
    have hrest := ih hlines (List.forall_mem_cons.mp hne).2
    cases rest with
    | nil => simpa using noDouble_append hfirst noDouble_nil
    | cons next rest =>
      rw [List.intercalate_cons_of_ne_nil (List.cons_ne_nil _ _), List.append_assoc]
      refine noDouble_append hfirst (noDouble_cons.mpr ⟨?_, hrest⟩)
      -- the next line does not begin with a line feed
      rintro ⟨-, hhead⟩
      obtain ⟨c, next, rfl⟩ := List.exists_cons_of_ne_nil (hne next (by simp))
      have hc : c = '\n' := by
        cases rest with
        | nil => simpa using hhead
        | cons _ _ => simpa [List.intercalate_cons_cons] using hhead
      exact hlines (c :: next) List.mem_cons_self (hc ▸ List.mem_cons_self)

theorem boundary_written {before : List (List Char)} (h : ∀ line ∈ before.getLast?, line = []) :
    Boundary (Lines.written before) := by
  obtain rfl | ⟨front, last, rfl⟩ := List.eq_nil_or_concat before
  · exact boundary_nil
  obtain rfl : last = [] := h last (by simp)
  obtain rfl | ⟨front, line, rfl⟩ := List.eq_nil_or_concat front
  · exact ⟨[], ['\n'], rfl, blank_newline, .inl rfl⟩
  · exact ⟨Lines.written front ++ line ++ ['\n', '\n'], [], by simp [Lines.written],
      blank_nil, .inr ⟨_, rfl⟩⟩

theorem join_paragraph (h : IsParagraph body run) :
    ∃ a b, ['\n'].intercalate body = a ++ ['\n'].intercalate run ++ b ∧ Boundary a ∧ Boundary b.reverse := by
  obtain ⟨before, after, rfl, hrun, -, hbefore, hafter⟩ := h
  obtain ⟨b, hb, hboundary⟩ : ∃ b, ['\n'].intercalate (run ++ after) = ['\n'].intercalate run ++ b ∧
      Boundary b.reverse := by
    cases after with
    | nil => exact ⟨[], by simp, boundary_nil⟩
    | cons line after =>
      obtain rfl : line = [] := hafter line rfl
      refine ⟨_, join_append hrun (List.cons_ne_nil _ _), ?_⟩
      cases after with
      | nil => exact ⟨[], ['\n'], rfl, blank_newline, .inl rfl⟩
      | cons next rest =>
        rw [List.intercalate_cons_cons]
        exact ⟨(['\n'].intercalate (next :: rest)).reverse ++ ['\n', '\n'], [], by simp,
          blank_nil, .inr ⟨_, rfl⟩⟩
  cases hnil : before with
  | nil => exact ⟨[], b, hb, boundary_nil, hboundary⟩
  | cons line rest =>
    refine ⟨Lines.written before, b, ?_, boundary_written hbefore, hboundary⟩
    have hne : before ≠ [] := hnil ▸ List.cons_ne_nil _ _
    rw [← hnil, List.append_assoc, join_append hne (by simp [hrun]), hb, ← Lines.intercalate_append_newline hne]
    simp

/-- **A paragraph is a piece** of its section. -/
theorem exists_piece_of_paragraph (h : IsParagraph body run)
    (hline : ∀ line ∈ body, '\n' ∉ line) (hne : joinTrim run ≠ []) :
    ∃ x ∈ splitDouble (joinTrim body), trimChars x = joinTrim run := by
  obtain ⟨a, b, hbody, ha, hb⟩ := join_paragraph h
  obtain ⟨before, after, rfl, -, hrun, -⟩ := h
  obtain ⟨w, w', htext, hw, hw'⟩ := exists_trimChars (['\n'].intercalate run)
  have htight : Tight (joinTrim run) := tight_trimChars hne
  have hdouble : NoDouble (joinTrim run) := by
    have hjoin := noDouble_join (fun line hl => hline line (by simp [hl])) hrun
    exact fun hpart => hjoin (hpart.trans ⟨w, w', htext.symm⟩)
  have hsplit : joinTrim (before ++ run ++ after) = (a ++ w).dropWhile isWhitespace ++ joinTrim run ++
      (((w' ++ b).reverse).dropWhile isWhitespace).reverse := by
    have hcut : ['\n'].intercalate (before ++ run ++ after) = (a ++ w) ++ joinTrim run ++ (w' ++ b) := by
      rw [hbody, htext]
      simp only [joinTrim, List.append_assoc]
    rw [← htight.trimChars_append, ← hcut]
    rfl
  rw [hsplit]
  refine exists_piece htight hdouble (ha.append hw).dropWhile ?_
  rw [List.reverse_reverse, List.reverse_append]
  exact (hb.append hw'.reverse).dropWhile

/-! ### Sections -/

theorem Gathering.sections_subset_closed (g : Gathering) : g.sections ⊆ g.closed := by
  unfold Gathering.closed
  split_ifs
  · exact List.subset_append_left _ _
  · exact List.Subset.refl _

theorem Gathering.closed_subset_line (g : Gathering) (line : List Char) (h : isHeadingBoundary line = true) :
    g.closed ⊆ (g.line line).sections := by
  rw [Gathering.line, if_pos h]
  exact List.Subset.refl _

theorem Gathering.sections_subset_line (g : Gathering) (line : List Char) : g.sections ⊆ (g.line line).sections := by
  unfold Gathering.line
  split_ifs
  · exact g.sections_subset_closed
  · exact List.Subset.refl _

theorem Gathering.sections_subset_foldl (g : Gathering) (ls : List (List Char)) :
    g.sections ⊆ (ls.foldl Gathering.line g).sections := by
  induction ls generalizing g with
  | nil => exact List.Subset.refl _
  | cons line rest ih => exact List.Subset.trans (g.sections_subset_line line) (ih (g.line line))

theorem Gathering.foldl_of_not_heading (g : Gathering) (h : ∀ line ∈ ls, isHeadingBoundary line = false) :
    ls.foldl Gathering.line g = { g with current := g.current ++ ls } := by
  induction ls generalizing g with
  | nil => simp
  | cons line rest ih =>
    obtain ⟨hline, hrest⟩ := List.forall_mem_cons.mp h
    rw [List.foldl_cons, ih _ hrest, Gathering.line, if_neg (by simp [hline])]
    simp

theorem mem_sectionsOf {document : List Char} (h : IsSection (lines document) body) :
    (headingOf body, joinTrim body) ∈ sectionsOf document := by
  obtain ⟨before, after, hlines, hne, hfirst, htail, hafter⟩ := h
  obtain ⟨line, rest, rfl⟩ := List.exists_cons_of_ne_nil hne
  -- the state after the first line of the section
  obtain ⟨sections, hstart⟩ : ∃ sections, (before.foldl Gathering.line ⟨[], none, []⟩).line line =
      ⟨sections, headingOf (line :: rest), [line]⟩ := by
    cases hheading : isHeadingBoundary line with
    | true => exact ⟨_, by simp [Gathering.line, headingOf, hheading]; rfl⟩
    | false =>
      obtain rfl | hhead := hfirst
      · exact ⟨[], by simp [Gathering.line, headingOf, hheading]⟩
      · rw [hhead line rfl] at hheading
        cases hheading
  have hbody : (before ++ (line :: rest)).foldl Gathering.line ⟨[], none, []⟩ =
      ⟨sections, headingOf (line :: rest), line :: rest⟩ := by
    have hrest : ∀ line ∈ rest, isHeadingBoundary line = false := htail
    rw [List.foldl_append, List.foldl_cons, hstart, Gathering.foldl_of_not_heading _ hrest]
    rfl
  have hclosed : (headingOf (line :: rest), joinTrim (line :: rest)) ∈
      (⟨sections, headingOf (line :: rest), line :: rest⟩ : Gathering).closed := by
    simp [Gathering.closed]
  have hmem : (headingOf (line :: rest), joinTrim (line :: rest)) ∈
      ((lines document).foldl Gathering.line ⟨[], none, []⟩).closed := by
    rw [hlines, List.foldl_append, hbody]
    cases after with
    | nil => exact hclosed
    | cons next after =>
      rw [List.foldl_cons]
      refine Gathering.sections_subset_closed _ (Gathering.sections_subset_foldl _ after ?_)
      exact Gathering.closed_subset_line _ next (hafter next rfl) hclosed
  unfold sectionsOf
  rw [if_neg (List.ne_nil_of_mem hmem)]
  exact hmem

/-! ### Words -/

def IsWord (w : List Char) : Prop := w ≠ [] ∧ ∀ c ∈ w, isWhitespace c = false

theorem not_mem_splitOnP {p : Char → Bool} (h : w ∈ text.splitOnP p) : ∀ c ∈ w, p c = false := by
  induction text generalizing w with
  | nil =>
    obtain rfl : w = [] := by simpa using h
    exact fun c hc => absurd hc List.not_mem_nil
  | cons d rest ih =>
    rw [List.splitOnP_cons_eq_if_modifyHead] at h
    split_ifs at h with hd
    · obtain rfl | hrest := List.mem_cons.mp h
      · exact fun c hc => absurd hc List.not_mem_nil
      · exact ih hrest
    · obtain ⟨x, xs, hsplit⟩ := List.exists_cons_of_ne_nil (List.splitOnP_ne_nil p rest)
      rw [hsplit] at h
      obtain rfl | hrest := List.mem_cons.mp h
      · exact List.forall_mem_cons.mpr ⟨by simpa using hd, ih (hsplit ▸ List.mem_cons_self)⟩
      · exact ih (hsplit ▸ List.mem_cons_of_mem _ hrest)

theorem isWord_of_mem_words (h : w ∈ words text) : IsWord w := by
  obtain ⟨hmem, hne⟩ := List.mem_filter.mp h
  exact ⟨of_decide_eq_true hne, not_mem_splitOnP hmem⟩

theorem words_join (h : ∀ w ∈ ws, IsWord w) : words ([' '].intercalate ws) = ws := by
  induction ws with
  | nil => decide
  | cons w rest ih =>
    obtain ⟨⟨hne, hword⟩, hrest⟩ := List.forall_mem_cons.mp h
    cases rest with
    | nil => simp [words, List.splitOnP_eq_singleton hword, hne]
    | cons next rest =>
      rw [List.intercalate_cons_of_ne_nil (List.cons_ne_nil _ _), List.append_assoc, List.singleton_append, words,
        List.splitOnP_append_cons_of_forall_mem hword ' ' (by decide), List.filter_cons_of_pos (by simpa using hne)]
      exact congrArg _ (ih hrest)

theorem length_le_byteLen (text : List Char) : text.length ≤ byteLen text := by
  unfold byteLen
  induction text with
  | nil => exact Nat.le_refl _
  | cons c rest ih =>
    have hc := Char.utf8Size_pos c
    simp only [List.length_cons, List.map_cons, List.sum_cons]
    omega

theorem byteLen_append (a b : List Char) : byteLen (a ++ b) = byteLen a + byteLen b := by simp [byteLen]

theorem byteLen_le_of_part {p : List Char} (h : p <:+: text) : byteLen p ≤ byteLen text := by
  obtain ⟨a, b, rfl⟩ := h
  rw [byteLen_append, byteLen_append]
  omega

theorem newline_not_mem_join (h : ∀ w ∈ ws, IsWord w) : '\n' ∉ [' '].intercalate ws := by
  induction ws with
  | nil => simp
  | cons w rest ih =>
    obtain ⟨⟨-, hword⟩, hrest⟩ := List.forall_mem_cons.mp h
    have hw : '\n' ∉ w := fun hmem => absurd (hword '\n' hmem) (by decide)
    cases rest with
    | nil => simpa using hw
    | cons next rest =>
      rw [List.intercalate_cons_of_ne_nil (List.cons_ne_nil _ _), List.mem_append, List.mem_append]
      rintro ((hmem | hspace) | hmem)
      · exact hw hmem
      · exact absurd hspace (by decide)
      · exact ih hrest hmem

theorem tight_join (hne : ws ≠ []) (h : ∀ w ∈ ws, IsWord w) : Tight ([' '].intercalate ws) := by
  induction ws with
  | nil => exact absurd rfl hne
  | cons w rest ih =>
    obtain ⟨⟨hword, hwhite⟩, hrest⟩ := List.forall_mem_cons.mp h
    cases rest with
    | nil =>
      rw [List.intercalate_singleton]
      exact ⟨hword, fun c hc => hwhite c (List.mem_of_mem_head? hc), fun c hc => hwhite c (List.mem_of_mem_getLast? hc)⟩
    | cons next rest =>
      have htight := ih (List.cons_ne_nil _ _) hrest
      rw [List.intercalate_cons_of_ne_nil (List.cons_ne_nil _ _)]
      refine ⟨by simp, fun c hc => ?_, fun c hc => ?_⟩
      · obtain ⟨d, tail, rfl⟩ := List.exists_cons_of_ne_nil hword
        obtain rfl : d = c := by simpa using hc
        exact hwhite d List.mem_cons_self
      · rw [List.getLast?_append_of_ne_nil _ htight.ne_nil] at hc
        exact htight.last c hc

theorem length_le_length_join (h : ∀ w ∈ ws, IsWord w) : ws.length ≤ ([' '].intercalate ws).length := by
  induction ws with
  | nil => exact Nat.le_refl _
  | cons w rest ih =>
    obtain ⟨⟨hne, -⟩, hrest⟩ := List.forall_mem_cons.mp h
    have hw := List.length_pos_iff.mpr hne
    have hlength := ih hrest
    cases rest with
    | nil =>
      rw [List.intercalate_singleton]
      exact hw
    | cons next rest =>
      rw [List.intercalate_cons_of_ne_nil (List.cons_ne_nil _ _)]
      simp only [List.length_append, List.length_cons] at hlength ⊢
      omega

/-! ### Slices -/

theorem takeSlices_spec {count : Nat} (hlower : size * count < l.length) (hupper : l.length ≤ size * (count + 1)) :
    ∃ full, takeSlices size (count + 1) l = full ++ [l.drop (size * count)] ∧ full.flatten = l.take (size * count) ∧
      ∀ slice ∈ full, slice.length = size := by
  induction count generalizing l with
  | zero =>
    refine ⟨[], ?_, rfl, fun slice hslice => absurd hslice List.not_mem_nil⟩
    rw [takeSlices, List.take_of_length_le (by simpa using hupper)]
    rfl
  | succ count ih =>
    rw [Nat.mul_succ] at hlower hupper
    obtain ⟨full, hslices, hflatten, hfull⟩ := ih (l := l.drop size) (by rw [List.length_drop]; omega)
      (by rw [List.length_drop]; omega)
    refine ⟨l.take size :: full, ?_, ?_, ?_⟩
    · rw [takeSlices, hslices, List.drop_drop, Nat.mul_succ, Nat.add_comm]
      rfl
    · rw [List.flatten_cons, hflatten, Nat.mul_succ, Nat.add_comm, List.take_add]
    · refine List.forall_mem_cons.mpr ⟨?_, hfull⟩
      rw [List.length_take]
      omega

theorem slices_spec (hsize : 0 < size) (hne : l ≠ []) :
    ∃ full, slices size l = full ++ [l.drop (size * ((l.length - 1) / size))] ∧
      full.flatten = l.take (size * ((l.length - 1) / size)) ∧ ∀ slice ∈ full, slice.length = size := by
  have hpos := List.length_pos_iff.mpr hne
  have hdiv := Nat.div_add_mod (l.length - 1) size
  have hmod := Nat.mod_lt (l.length - 1) hsize
  have hcount : (l.length + size - 1) / size = (l.length - 1) / size + 1 := by
    rw [show l.length + size - 1 = (l.length - 1) + size by omega, Nat.add_div_right _ hsize]
  rw [slices, hcount]
  refine takeSlices_spec ?_ ?_
  · omega
  · rw [Nat.mul_succ]
    omega

/-- The words behind the last full slice but one: the last slice, which may be shorter. -/
def lastSlice (ws : List (List Char)) : List (List Char) := ws.drop (hardWordLimit * ((ws.length - 1) / hardWordLimit))

/-- The words that are dropped: the last slice, if it makes a text that is too short. -/
def droppedWords (pre : List Char) (ws : List (List Char)) : List (List Char) :=
  if byteLen (pre ++ [' '].intercalate (lastSlice ws)) < minChars then lastSlice ws else []

theorem longChunks_spec (pre : List Char) {p : List Char} (hlong : hardWordLimit < (words p).length) :
    ∃ texts : List (List Char), texts.map (pre ++ ·) = longChunks pre p ∧
      texts.flatMap words ++ droppedWords pre (words p) = words p := by
  obtain ⟨full, hslices, hflatten, hfull⟩ := slices_spec (show 0 < hardWordLimit by decide)
    (List.ne_nil_of_length_pos (Nat.zero_lt_of_lt hlong))
  have hwhole : full.flatten ++ lastSlice (words p) = words p := by
    rw [hflatten]
    exact List.take_append_drop _ _
  change slices hardWordLimit (words p) = full ++ [lastSlice (words p)] at hslices
  have hword : ∀ slice ∈ full ++ [lastSlice (words p)], ∀ w ∈ slice, IsWord w := by
    intro slice hslice w hw
    refine isWord_of_mem_words (show w ∈ words p from ?_)
    rw [← hwhole, ← List.flatten_concat]
    exact List.mem_flatten.mpr ⟨slice, hslice, hw⟩
  have hkept : (full.map fun slice => pre ++ [' '].intercalate slice).filter (minChars ≤ byteLen ·) =
      full.map fun slice => pre ++ [' '].intercalate slice := by
    refine List.filter_eq_self.mpr fun chunk hchunk => decide_eq_true ?_
    obtain ⟨slice, hslice, rfl⟩ := List.mem_map.mp hchunk
    have hjoin := length_le_length_join (hword slice (List.mem_append_left _ hslice))
    have hbytes := length_le_byteLen ([' '].intercalate slice)
    rw [hfull slice hslice] at hjoin
    rw [byteLen_append]
    unfold minChars hardWordLimit at *
    omega
  have hwords : (full.map fun slice => [' '].intercalate slice).flatMap words = full.flatten := by
    rw [List.flatMap_map, List.flatten_eq_flatMap]
    exact List.flatMap_congr fun slice hslice => words_join (hword slice (List.mem_append_left _ hslice))
  have hsplit : longChunks pre p = (full.map fun slice => pre ++ [' '].intercalate slice) ++
      [pre ++ [' '].intercalate (lastSlice (words p))].filter (minChars ≤ byteLen ·) := by
    rw [longChunks, hslices, List.map_append, List.filter_append, hkept]
    rfl
  unfold droppedWords
  by_cases hlast : byteLen (pre ++ [' '].intercalate (lastSlice (words p))) < minChars
  · refine ⟨full.map fun slice => [' '].intercalate slice, ?_, ?_⟩
    · rw [hsplit, List.filter_cons_of_neg (by simpa using hlast)]
      simp
    · rw [hwords, if_pos hlast, hwhole]
  · refine ⟨full.map (fun slice => [' '].intercalate slice) ++ [[' '].intercalate (lastSlice (words p))], ?_, ?_⟩
    · rw [hsplit, List.filter_cons_of_pos (by simpa using hlast)]
      simp
    · rw [if_neg hlast, List.append_nil, List.flatMap_append, hwords, List.flatMap_singleton,
        words_join (hword (lastSlice (words p)) (by simp)), hwhole]

/-! ### The bucket -/

section Bucket

variable {pre p : List Char}

/-- The text is in a chunk or in the bucket. -/
def Filling.Holds (f : Filling) (p : List Char) : Prop := (∃ chunk ∈ f.chunks, p <:+: chunk) ∨ p <:+: f.bucket

theorem exists_bucketChunk {bucket : List Char} (hp : Tight p) (hlong : minChars ≤ byteLen p) (h : p <:+: bucket) :
    ∃ chunk ∈ bucketChunk pre bucket, p <:+: chunk := by
  have htrim : p <:+: trimChars bucket := hp.part_trimChars h
  unfold bucketChunk
  rw [if_pos (hlong.trans (byteLen_le_of_part h))]
  refine ⟨_, List.mem_singleton_self _, ?_⟩
  split_ifs
  · exact htrim
  · exact htrim.trans (List.suffix_append _ _).isInfix

variable {f : Filling}

theorem Filling.Holds.makeRoom (hp : Tight p) (hlong : minChars ≤ byteLen p) (h : f.Holds p) (n : Nat) :
    (f.makeRoom pre n).Holds p := by
  unfold Filling.makeRoom
  split_ifs
  · obtain ⟨chunk, hchunk, hpart⟩ | hbucket := h
    · exact .inl ⟨chunk, List.mem_append_left _ hchunk, hpart⟩
    · obtain ⟨chunk, hchunk, hpart⟩ := @exists_bucketChunk pre _ _ hp hlong hbucket
      exact .inl ⟨chunk, List.mem_append_right _ hchunk, hpart⟩
  · exact h

theorem Filling.Holds.push (h : f.Holds p) (q : List Char) : (f.push q).Holds p := by
  refine h.imp id fun hbucket => ?_
  unfold Filling.push
  dsimp only
  split_ifs
  · exact hbucket.trans ((List.prefix_append _ _).trans (List.prefix_append _ _)).isInfix
  · exact hbucket.trans (List.prefix_append _ _).isInfix

theorem Filling.holds_push (f : Filling) (p : List Char) : (f.push p).Holds p := .inr (List.suffix_append _ _).isInfix

theorem Filling.Holds.add (hp : Tight p) (hlong : minChars ≤ byteLen p) (h : f.Holds p)
    (paragraph : List Char) : (f.add pre paragraph).Holds p := by
  unfold Filling.add
  dsimp only
  split_ifs
  · exact h
  · exact h.imp (fun ⟨chunk, hchunk, hpart⟩ => ⟨chunk, List.mem_append_left _ hchunk, hpart⟩) id
  · exact (h.makeRoom hp hlong _).push _

theorem Filling.chunks_prefix_add (f : Filling) (paragraph : List Char) : f.chunks <+: (f.add pre paragraph).chunks := by
  unfold Filling.add Filling.makeRoom Filling.push
  dsimp only
  split_ifs
  all_goals first | exact List.prefix_rfl | exact List.prefix_append _ _

theorem Filling.Holds.foldl (hp : Tight p) (hlong : minChars ≤ byteLen p) (h : f.Holds p)
    (paragraphs : List (List Char)) : (paragraphs.foldl (Filling.add pre) f).Holds p := by
  induction paragraphs generalizing f with
  | nil => exact h
  | cons x rest ih => exact ih (h.add hp hlong x)

theorem Filling.chunks_prefix_foldl (f : Filling) (paragraphs : List (List Char)) :
    f.chunks <+: (paragraphs.foldl (Filling.add pre) f).chunks := by
  induction paragraphs generalizing f with
  | nil => exact List.prefix_rfl
  | cons x rest ih => exact (f.chunks_prefix_add x).trans (ih _)

end Bucket
variable {part : Option (List Char) × List Char} {x : List Char}

theorem mem_sectionChunks (hx : x ∈ splitDouble part.2) (hne : trimChars x ≠ []) (hlong : minChars ≤ byteLen (trimChars x))
    (hwords : (words (trimChars x)).length ≤ hardWordLimit) : ∃ chunk ∈ sectionChunks part, trimChars x <:+: chunk := by
  have htight := tight_trimChars hne
  obtain ⟨before, after, hsplit⟩ := List.mem_iff_append.mp hx
  have hholds : ((splitDouble part.2).foldl (Filling.add (headingPrefix part.1)) ⟨[], []⟩).Holds (trimChars x) := by
    rw [hsplit, List.foldl_append, List.foldl_cons]
    refine Filling.Holds.foldl htight hlong ?_ after
    unfold Filling.add
    dsimp only
    rw [if_neg hne, if_neg (Nat.not_lt.mpr hwords)]
    exact Filling.holds_push _ _
  unfold sectionChunks
  obtain ⟨chunk, hchunk, hpart⟩ | hbucket := hholds
  · exact ⟨chunk, List.mem_append_left _ hchunk, hpart⟩
  · obtain ⟨chunk, hchunk, hpart⟩ := @exists_bucketChunk (headingPrefix part.1) _ _ htight hlong hbucket
    exact ⟨chunk, List.mem_append_right _ hchunk, hpart⟩

theorem longChunks_together (hx : x ∈ splitDouble part.2) (hwords : hardWordLimit < (words (trimChars x)).length) :
    longChunks (headingPrefix part.1) (trimChars x) <:+: sectionChunks part := by
  have hne : trimChars x ≠ [] := by
    intro hnil
    rw [hnil] at hwords
    exact absurd hwords (by decide)
  obtain ⟨before, after, hsplit⟩ := List.mem_iff_append.mp hx
  have hfront : (before.foldl (Filling.add (headingPrefix part.1)) ⟨[], []⟩).chunks ++
      longChunks (headingPrefix part.1) (trimChars x) <+:
      ((splitDouble part.2).foldl (Filling.add (headingPrefix part.1)) ⟨[], []⟩).chunks := by
    have hadd (f : Filling) : (f.add (headingPrefix part.1) x).chunks =
        f.chunks ++ longChunks (headingPrefix part.1) (trimChars x) := by
      unfold Filling.add
      dsimp only
      rw [if_neg hne, if_pos hwords]
    rw [hsplit, List.foldl_append, List.foldl_cons, ← hadd]
    exact Filling.chunks_prefix_foldl _ after
  unfold sectionChunks
  exact (List.suffix_append _ _).isInfix.trans (hfront.isInfix.trans (List.prefix_append _ _).isInfix)

theorem infix_flatMap {α β : Type*} {f : α → List β} {l : List α} {a : α} (h : a ∈ l) : f a <:+: l.flatMap f := by
  obtain ⟨before, after, rfl⟩ := List.mem_iff_append.mp h
  rw [List.flatMap_append, List.flatMap_cons]
  exact List.infix_append' _ _ _

/-- **What chunking keeps**: a paragraph of at least twenty bytes and at most 2048 words is in one chunk as it is, and of a
longer one the words in order, but for those of a last slice that makes a text of less than twenty bytes. -/
theorem chunkDocument_keeps (document : List Char) (body run : List (List Char)) (hbody : IsSection (lines document) body)
    (hrun : IsParagraph body run) :
    (minChars ≤ byteLen (joinTrim run) → (words (joinTrim run)).length ≤ hardWordLimit →
      ∃ chunk ∈ chunkDocument document, joinTrim run <:+: chunk) ∧
    (hardWordLimit < (words (joinTrim run)).length → ∃ texts : List (List Char),
      texts.map (headingPrefix (headingOf body) ++ ·) <:+: chunkDocument document ∧
      texts.flatMap words ++ droppedWords (headingPrefix (headingOf body)) (words (joinTrim run)) =
        words (joinTrim run)) := by
  have hline : ∀ line ∈ body, '\n' ∉ line := by
    obtain ⟨before, after, hlines, -⟩ := hbody
    exact fun line hl => Lines.not_mem_of_mem_lines (show line ∈ lines document by rw [hlines]; simp [hl])
  have hpart := mem_sectionsOf hbody
  have hchunks : sectionChunks (headingOf body, joinTrim body) <:+: chunkDocument document := infix_flatMap hpart
  constructor
  · intro hlong hwords
    have hne : joinTrim run ≠ [] := by
      intro hnil
      rw [hnil] at hlong
      exact absurd hlong (by decide)
    obtain ⟨x, hx, htrim⟩ := exists_piece_of_paragraph hrun hline hne
    rw [← htrim] at hne hlong hwords ⊢
    obtain ⟨chunk, hchunk, hpart⟩ := @mem_sectionChunks (headingOf body, joinTrim body) _ hx hne hlong hwords
    exact ⟨chunk, hchunks.subset hchunk, hpart⟩
  · intro hwords
    have hne : joinTrim run ≠ [] := by
      intro hnil
      rw [hnil] at hwords
      exact absurd hwords (by decide)
    obtain ⟨x, hx, htrim⟩ := exists_piece_of_paragraph hrun hline hne
    obtain ⟨texts, htexts, hkept⟩ := longChunks_spec (headingPrefix (headingOf body)) hwords
    refine ⟨texts, ?_, hkept⟩
    rw [← htrim] at hwords htexts
    rw [htexts]
    exact (@longChunks_together (headingOf body, joinTrim body) _ hx hwords).trans hchunks

/-- A paragraph under a heading. -/
theorem chunkDocument_keeps_titled :
    ∃ chunk ∈ chunkDocument "# Title\n\nSome text of twenty bytes.".toList, "Some text of twenty bytes.".toList <:+: chunk := by
  have hbody : IsSection (lines "# Title\n\nSome text of twenty bytes.".toList)
      ["# Title".toList, [], "Some text of twenty bytes.".toList] :=
    ⟨[], [], by decide, by decide, .inl rfl, by decide, by decide⟩
  have hrun : IsParagraph ["# Title".toList, [], "Some text of twenty bytes.".toList]
      ["Some text of twenty bytes.".toList] := ⟨["# Title".toList, []], [], by decide, by decide, by decide, by decide, by decide⟩
  have hjoin : joinTrim ["Some text of twenty bytes.".toList] = "Some text of twenty bytes.".toList := by decide
  exact hjoin ▸ (chunkDocument_keeps _ _ _ hbody hrun).1 (by decide) (by decide)

/-! ### A short last slice -/

theorem splitDouble_of_not_mem (h : '\n' ∉ text) : splitDouble text = [text] := by
  induction text with
  | nil => rfl
  | cons c rest ih =>
    rw [splitDouble_cons fun hc => h (hc.1 ▸ List.mem_cons_self), ih (List.not_mem_of_not_mem_cons h)]
    rfl

theorem chunkDocument_line {line : List Char} (hline : '\n' ∉ line) (htight : Tight line)
    (hheading : isHeadingBoundary line = false) (hlong : hardWordLimit < (words line).length) :
    chunkDocument line = longChunks [] line := by
  have hlines : lines line = [line] := by
    rw [lines, Lines.linesFrom_of_not_mem [] hline, List.nil_append, if_neg htight.ne_nil]
  have htrim : trimChars line = line := by simpa using htight.trimChars_blank blank_nil blank_nil
  have hsections : sectionsOf line = [(none, line)] := by
    simp [sectionsOf, hlines, Gathering.line, hheading, Gathering.closed, joinTrim, htrim]
  have hadd : (⟨[], []⟩ : Filling).add [] line = ⟨longChunks [] line, []⟩ := by
    simp [Filling.add, htrim, htight.ne_nil, hlong]
  have hbucket : bucketChunk [] [] = [] := by decide
  simp only [chunkDocument, hsections, List.flatMap_cons, List.flatMap_nil, sectionChunks, headingPrefix,
    splitDouble_of_not_mem hline, List.foldl_cons, List.foldl_nil, hadd, hbucket, List.append_nil]

def longWords : List (List Char) := List.replicate hardWordLimit ['a'] ++ [['b']]

def longDocument : List Char := [' '].intercalate longWords

theorem isWord_of_mem_longWords : ∀ w ∈ longWords, IsWord w := by
  intro w hw
  obtain hfront | hlast := List.mem_append.mp hw
  · rw [List.eq_of_mem_replicate hfront]
    exact ⟨by decide, List.forall_mem_singleton.mpr (by decide)⟩
  · rw [List.mem_singleton.mp hlast]
    exact ⟨by decide, List.forall_mem_singleton.mpr (by decide)⟩

theorem words_longDocument : words longDocument = longWords := words_join isWord_of_mem_longWords

theorem newline_not_mem_longDocument : '\n' ∉ longDocument := newline_not_mem_join isWord_of_mem_longWords

theorem tight_longDocument : Tight longDocument := tight_join (by simp [longWords]) isWord_of_mem_longWords

theorem slices_longWords : slices hardWordLimit longWords = [List.replicate hardWordLimit ['a'], [['b']]] := by
  have hlength : longWords.length = hardWordLimit + 1 := by simp [longWords]
  have hcount : (longWords.length + hardWordLimit - 1) / hardWordLimit = 2 := by
    rw [hlength]
    rfl
  have htake : longWords.take hardWordLimit = List.replicate hardWordLimit ['a'] := List.take_left' (by simp)
  have hdrop : longWords.drop hardWordLimit = [['b']] := List.drop_left' (by simp)
  rw [slices, hcount, takeSlices, takeSlices, htake, hdrop]
  rfl

theorem chunkDocument_longDocument :
    chunkDocument longDocument = [[' '].intercalate (List.replicate hardWordLimit ['a'])] := by
  have hheading : isHeadingBoundary longDocument = false := by rfl
  have hwords : hardWordLimit < (words longDocument).length := by simp [words_longDocument, longWords]
  have hword : ∀ w ∈ List.replicate hardWordLimit ['a'], IsWord w :=
    fun w hw => isWord_of_mem_longWords w (List.mem_append_left _ hw)
  have hfirst : minChars ≤ byteLen ([' '].intercalate (List.replicate hardWordLimit ['a'])) := by
    have hjoin := length_le_length_join hword
    have hbytes := length_le_byteLen ([' '].intercalate (List.replicate hardWordLimit ['a']))
    rw [List.length_replicate] at hjoin
    unfold minChars hardWordLimit at *
    omega
  have hlast : byteLen ['b'] < minChars := by decide
  rw [chunkDocument_line newline_not_mem_longDocument tight_longDocument hheading hwords, longChunks, words_longDocument,
    slices_longWords]
  simp [hfirst, hlast]

/-- A document of one paragraph, of which no chunk has the last word. -/
theorem last_word_dropped : ¬ ∀ document body run, IsSection (lines document) body → IsParagraph body run →
    hardWordLimit < (words (joinTrim run)).length → ∃ texts : List (List Char),
      texts.map (headingPrefix (headingOf body) ++ ·) <:+: chunkDocument document ∧
      texts.flatMap words = words (joinTrim run) := by
  intro h
  have hlines : lines longDocument = [longDocument] := by
    rw [lines, Lines.linesFrom_of_not_mem [] newline_not_mem_longDocument, List.nil_append,
      if_neg tight_longDocument.ne_nil]
  have htrim : joinTrim [longDocument] = longDocument := by
    rw [joinTrim, List.intercalate_singleton]
    simpa using tight_longDocument.trimChars_blank blank_nil blank_nil
  have hsection : IsSection (lines longDocument) [longDocument] :=
    ⟨[], [], by rw [hlines]; rfl, by simp, .inl rfl, by simp, by simp⟩
  have hparagraph : IsParagraph [longDocument] [longDocument] :=
    ⟨[], [], rfl, by simp, fun line hline => List.mem_singleton.mp hline ▸ tight_longDocument.ne_nil, by simp, by simp⟩
  obtain ⟨texts, hpart, hwords⟩ := h longDocument _ _ hsection hparagraph
    (by rw [htrim, words_longDocument]; simp [longWords])
  rw [htrim, words_longDocument] at hwords
  have hheading : headingPrefix (headingOf [longDocument]) = [] := by rfl
  rw [hheading, chunkDocument_longDocument] at hpart
  -- at most one chunk, with the words of the first slice
  have hsub : texts <:+: [[' '].intercalate (List.replicate hardWordLimit ['a'])] := by simpa using hpart
  have hcount := (hsub.flatMap words).length_le
  rw [hwords, List.flatMap_singleton, words_join fun w hw => isWord_of_mem_longWords w (List.mem_append_left _ hw)] at hcount
  simp [longWords] at hcount

end AgentHalo.Memory
