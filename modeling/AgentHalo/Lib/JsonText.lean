import Mathlib.Data.List.TakeWhile

/-!
# JSON text

A JSON value written without white space, as `serde_json` does. No two values have one text (`text_inj`): what is written of
a value tells where it ends, except that a number goes on as long as what follows could belong to it.
-/

namespace JsonText

/-! ### Values -/

/-- The characters of which numbers are written. -/
def inNumeral (c : Char) : Bool := c.isDigit || c == '-' || c == '+' || c == '.' || c == 'e'

/-- The text of a number. -/
structure Numeral where
  chars : List Char
  nonempty : chars ≠ []
  numeric : ∀ c ∈ chars, inNumeral c = true
deriving DecidableEq

variable {c : Char}

namespace Numeral

variable {m n : Nat}

theorem inNumeral_of_mem_toDigits (h : c ∈ Nat.toDigits 10 n) : inNumeral c = true := by
  have hdigit := Nat.isDigit_of_mem_toDigits (by decide) (by decide) h
  rw [inNumeral, hdigit]
  rfl

def ofNat (n : Nat) : Numeral := ⟨Nat.toDigits 10 n, Nat.toDigits_ne_nil, fun _ h => inNumeral_of_mem_toDigits h⟩

def ofInt : Int → Numeral
  | .ofNat n => ofNat n
  | .negSucc n =>
    ⟨'-' :: Nat.toDigits 10 (n + 1), List.cons_ne_nil _ _,
      List.forall_mem_cons.mpr ⟨by decide, fun _ h => inNumeral_of_mem_toDigits h⟩⟩

theorem toDigits_inj (h : Nat.toDigits 10 m = Nat.toDigits 10 n) : m = n := by
  rw [← Nat.ofDigitChars_ten_toDigits (n := m), h, Nat.ofDigitChars_ten_toDigits]

theorem ofNat_inj (h : ofNat m = ofNat n) : m = n := toDigits_inj (congrArg chars h)

theorem ofInt_inj {i j : Int} (h : ofInt i = ofInt j) : i = j := by
  have hsign : ∀ (n : Nat) (cs : List Char), Nat.toDigits 10 n ≠ '-' :: cs := by
    intro n cs heq
    have hdigit := Nat.isDigit_of_mem_toDigits (n := n) (by decide) (by decide) (heq ▸ List.mem_cons_self)
    exact absurd hdigit (by decide)
  have hchars := congrArg chars h
  cases i with
  | ofNat m =>
    cases j with
    | ofNat n => exact congrArg _ (toDigits_inj hchars)
    | negSucc n => exact absurd hchars (hsign m _)
  | negSucc m =>
    cases j with
    | ofNat n => exact absurd hchars.symm (hsign n _)
    | negSucc n => exact congrArg _ (Nat.succ.inj (toDigits_inj (List.cons.inj hchars).2))

end Numeral

inductive Json where
  | null
  | bool (b : Bool)
  | number (n : Numeral)
  | string (s : String)
  | array (items : List Json)
  | object (fields : List (String × Json))

/-! ### Writing -/

/-- A character of a string: quotes, backslashes and control characters are escaped. -/
def escape (c : Char) : List Char :=
  if c = '"' then ['\\', '"']
  else if c = '\\' then ['\\', '\\']
  else if c = '\x08' then ['\\', 'b']
  else if c = '\t' then ['\\', 't']
  else if c = '\n' then ['\\', 'n']
  else if c = '\x0c' then ['\\', 'f']
  else if c = '\r' then ['\\', 'r']
  else if c.toNat < 32 then ['\\', 'u', '0', '0', Nat.digitChar (c.toNat / 16), Nat.digitChar (c.toNat % 16)]
  else [c]

def quote (s : String) : List Char := '"' :: (s.toList.flatMap escape ++ ['"'])

def joined : List (List Char) → List Char
  | [] => []
  | part :: rest => part ++ rest.flatMap (',' :: ·)

mutual

def text : Json → List Char
  | .null => ['n', 'u', 'l', 'l']
  | .bool true => ['t', 'r', 'u', 'e']
  | .bool false => ['f', 'a', 'l', 's', 'e']
  | .number n => n.chars
  | .string s => quote s
  | .array items => '[' :: (joined (texts items) ++ [']'])
  | .object fields => '\x7b' :: (joined (fieldTexts fields) ++ ['\x7d'])

def texts : List Json → List (List Char)
  | [] => []
  | item :: rest => text item :: texts rest

def fieldTexts : List (String × Json) → List (List Char)
  | [] => []
  | (name, value) :: rest => (quote name ++ ':' :: text value) :: fieldTexts rest

end

def fieldText (field : String × Json) : List Char := quote field.1 ++ ':' :: text field.2

theorem texts_eq (items : List Json) : texts items = items.map text := by
  induction items with
  | nil => rfl
  | cons item rest ih => rw [texts, List.map_cons, ih]

theorem fieldTexts_eq (fields : List (String × Json)) : fieldTexts fields = fields.map fieldText := by
  induction fields with
  | nil => rfl
  | cons field rest ih => rw [fieldTexts, List.map_cons, ih, fieldText]

/-! ### Strings -/

/-- The control character with this escape. -/
def control (x y : Char) : Option Char :=
  ((List.range 32).find? fun n => Nat.digitChar (n / 16) == x && Nat.digitChar (n % 16) == y).map Char.ofNat

def unescape : List Char → Option (Char × List Char)
  | '\\' :: '"' :: rest => some ('"', rest)
  | '\\' :: '\\' :: rest => some ('\\', rest)
  | '\\' :: 'b' :: rest => some ('\x08', rest)
  | '\\' :: 't' :: rest => some ('\t', rest)
  | '\\' :: 'n' :: rest => some ('\n', rest)
  | '\\' :: 'f' :: rest => some ('\x0c', rest)
  | '\\' :: 'r' :: rest => some ('\r', rest)
  | '\\' :: 'u' :: '0' :: '0' :: x :: y :: rest => (control x y).map fun c => (c, rest)
  | c :: rest => if c = '\\' ∨ c = '"' then none else some (c, rest)
  | [] => none

theorem control_digitChar (h : c.toNat < 32) :
    control (Nat.digitChar (c.toNat / 16)) (Nat.digitChar (c.toNat % 16)) = some c := by
  have hall : ∀ n : Fin 32, control (Nat.digitChar (n.val / 16)) (Nat.digitChar (n.val % 16)) = some (Char.ofNat n.val) := by
    decide
  rw [hall ⟨c.toNat, h⟩, Char.ofNat_toNat]

theorem unescape_escape (c : Char) (rest : List Char) : unescape (escape c ++ rest) = some (c, rest) := by
  unfold escape
  split_ifs with hquote hslash hb ht hn hf hr hcontrol
  · rw [hquote]; rfl
  · rw [hslash]; rfl
  · rw [hb]; rfl
  · rw [ht]; rfl
  · rw [hn]; rfl
  · rw [hf]; rfl
  · rw [hr]; rfl
  · simp only [List.cons_append, List.nil_append, unescape, control_digitChar hcontrol, Option.map_some]
  · rw [List.singleton_append, unescape.eq_def]
    split <;> simp_all

variable {rest rest' : List Char}

theorem escape_tell {c' : Char} (h : escape c ++ rest = escape c' ++ rest') : c = c' ∧ rest = rest' := by
  have hread := unescape_escape c rest
  rw [h, unescape_escape] at hread
  exact (Prod.mk.inj (Option.some.inj hread)).imp Eq.symm Eq.symm

theorem escape_ne_quote (c : Char) (rest rest' : List Char) : escape c ++ rest ≠ '"' :: rest' := by
  intro h
  have hread := unescape_escape c rest
  rw [h] at hread
  cases hread

theorem quote_tell {s s' : String} (h : quote s ++ rest = quote s' ++ rest') : s = s' ∧ rest = rest' := by
  have hbody : ∀ l l' : List Char, l.flatMap escape ++ '"' :: rest = l'.flatMap escape ++ '"' :: rest' →
      l = l' ∧ rest = rest' := by
    intro l
    induction l with
    | nil =>
      intro l' h
      cases l' with
      | nil => exact ⟨rfl, (List.cons.inj h).2⟩
      | cons c l' =>
        rw [List.flatMap_cons, List.append_assoc] at h
        exact absurd h.symm (escape_ne_quote c _ _)
    | cons c l ih =>
      intro l' h
      rw [List.flatMap_cons, List.append_assoc] at h
      cases l' with
      | nil => exact absurd h (escape_ne_quote c _ _)
      | cons c' l' =>
        rw [List.flatMap_cons, List.append_assoc] at h
        obtain ⟨rfl, hmore⟩ := escape_tell h
        obtain ⟨rfl, hrest⟩ := ih l' hmore
        exact ⟨rfl, hrest⟩
  unfold quote at h
  simp only [List.cons_append, List.append_assoc, List.nil_append, List.cons.injEq, true_and] at h
  obtain ⟨hlist, hrest⟩ := hbody s.toList s'.toList h
  exact ⟨String.toList_inj.mp hlist, hrest⟩

/-! ### Where a value ends -/

/-- No number goes on with what follows. -/
def Stops (rest : List Char) : Prop := ∀ c ∈ rest.head?, inNumeral c = false

theorem stops_cons (h : inNumeral c = false) (rest : List Char) : Stops (c :: rest) := by
  rintro c' hc'
  rwa [← Option.mem_some_iff.mp hc']

/-- What is written of an element tells it from all others, and where it ends. -/
def Tells {α : Type} (write : α → List Char) (a : α) : Prop :=
  ∀ a' rest rest', Stops rest → Stops rest' → write a ++ rest = write a' ++ rest' → a = a' ∧ rest = rest'

theorem takeWhile_numeral (n : Numeral) (h : Stops rest) : (n.chars ++ rest).takeWhile inNumeral = n.chars := by
  rw [List.takeWhile_append_of_pos n.numeric]
  cases rest with
  | nil => simp
  | cons c rest => rw [List.takeWhile_cons_of_neg (by rw [h c rfl]; exact Bool.false_ne_true), List.append_nil]

theorem numeral_tell : ∀ n, Tells Numeral.chars n := by
  intro n n' rest rest' hstops hstops' h
  have hchars := takeWhile_numeral n hstops
  rw [h, takeWhile_numeral n' hstops'] at hchars
  rw [hchars] at h
  refine ⟨?_, List.append_cancel_left h⟩
  cases n
  cases n'
  cases hchars
  rfl

section Lists

variable {α : Type} {write : α → List Char} {close : Char} {l : List α}
  (hclose : inNumeral close = false ∧ close ≠ ',') (htell : ∀ a ∈ l, Tells write a)

include hclose htell

theorem more_tell {l' : List α}
    (h : (l.map write).flatMap (',' :: ·) ++ close :: rest = (l'.map write).flatMap (',' :: ·) ++ close :: rest') :
    l = l' ∧ rest = rest' := by
  induction l generalizing l' with
  | nil =>
    cases l' with
    | nil => exact ⟨rfl, (List.cons.inj h).2⟩
    | cons a' l' => exact absurd (List.cons.inj h).1 hclose.2
  | cons a l ih =>
    cases l' with
    | nil => exact absurd (List.cons.inj h).1.symm hclose.2
    | cons a' l' =>
      have hstops : ∀ (more : List α) (rest : List Char), Stops ((more.map write).flatMap (',' :: ·) ++ close :: rest) := by
        intro more rest
        cases more with
        | nil => exact stops_cons hclose.1 _
        | cons b more => exact stops_cons (by decide) _
      simp only [List.map_cons, List.flatMap_cons, List.cons_append, List.append_assoc, List.cons.injEq, true_and] at h
      obtain ⟨rfl, hmore⟩ := htell a List.mem_cons_self a' _ _ (hstops l rest) (hstops l' rest') h
      obtain ⟨rfl, hrest⟩ := ih (fun b hb => htell b (List.mem_cons_of_mem _ hb)) hmore
      exact ⟨rfl, hrest⟩

theorem joined_tell (hopen : ∀ a, ∃ c cs, write a = c :: cs ∧ c ≠ close) {l' : List α}
    (h : joined (l.map write) ++ close :: rest = joined (l'.map write) ++ close :: rest') : l = l' ∧ rest = rest' := by
  cases l with
  | nil =>
    cases l' with
    | nil => exact ⟨rfl, (List.cons.inj h).2⟩
    | cons a' l' =>
      obtain ⟨c, cs, hwrite, hne⟩ := hopen a'
      rw [List.map_cons, joined, hwrite] at h
      exact absurd (List.cons.inj h).1.symm hne
  | cons a l =>
    cases l' with
    | nil =>
      obtain ⟨c, cs, hwrite, hne⟩ := hopen a
      rw [List.map_cons, joined, hwrite] at h
      exact absurd (List.cons.inj h).1 hne
    | cons a' l' =>
      -- with a comma in front of the first elements the lists are told apart
      have hcomma : ((a :: l).map write).flatMap (',' :: ·) ++ close :: rest =
          ((a' :: l').map write).flatMap (',' :: ·) ++ close :: rest' := by
        simp only [List.map_cons, joined] at h
        simp only [List.map_cons, List.flatMap_cons, List.cons_append, h]
      exact more_tell hclose htell hcomma

end Lists

/-! ### Values are told apart -/

/-- Which kind of value starts with this character. -/
def kindOf (c : Char) : Nat :=
  if c = 'n' then 0 else if c = 't' then 1 else if c = 'f' then 2 else if c = '"' then 4 else if c = '[' then 5
  else if c = '\x7b' then 6 else 3

def Json.kind : Json → Nat
  | .null => 0
  | .bool true => 1
  | .bool false => 2
  | .number _ => 3
  | .string _ => 4
  | .array _ => 5
  | .object _ => 6

theorem kindOf_numeral (h : inNumeral c = true) : kindOf c = 3 := by
  unfold kindOf
  split_ifs with hn ht hf hquote hbracket hbrace
  all_goals first | rfl | (subst c; exact absurd h (by decide))

theorem text_head (t : Json) : ∃ c cs, text t = c :: cs ∧ kindOf c = t.kind ∧ c ≠ ']' := by
  cases t with
  | null => exact ⟨_, _, rfl, rfl, by decide⟩
  | bool b =>
    cases b
    · exact ⟨_, _, rfl, rfl, by decide⟩
    · exact ⟨_, _, rfl, rfl, by decide⟩
  | number n =>
    obtain ⟨c, cs, hchars⟩ := List.exists_cons_of_ne_nil n.nonempty
    have hc : inNumeral c = true := n.numeric c (hchars ▸ List.mem_cons_self)
    refine ⟨c, cs, hchars, kindOf_numeral hc, ?_⟩
    rintro rfl
    exact absurd hc (by decide)
  | string s => exact ⟨_, _, rfl, rfl, by decide⟩
  | array items => exact ⟨_, _, rfl, rfl, by decide⟩
  | object fields => exact ⟨_, _, rfl, rfl, by decide⟩

theorem kind_eq_of_text {t t' : Json} (h : text t ++ rest = text t' ++ rest') : t.kind = t'.kind := by
  obtain ⟨c, cs, htext, hkind, -⟩ := text_head t
  obtain ⟨c', cs', htext', hkind', -⟩ := text_head t'
  rw [htext, htext'] at h
  rw [← hkind, ← hkind', (List.cons.inj h).1]

theorem fieldText_tell {field : String × Json} (h : Tells text field.2) : Tells fieldText field := by
  intro field' rest rest' hstops hstops' htext
  simp only [fieldText, List.append_assoc, List.cons_append] at htext
  obtain ⟨hname, hvalue⟩ := quote_tell htext
  obtain ⟨hsame, hrest⟩ := h _ _ _ hstops hstops' (List.cons.inj hvalue).2
  exact ⟨Prod.ext hname hsame, hrest⟩

theorem fieldText_head (field : String × Json) : ∃ c cs, fieldText field = c :: cs ∧ c ≠ '\x7d' := ⟨_, _, rfl, by decide⟩

theorem joined_texts_tell {items items' : List Json} (htell : ∀ item ∈ items, Tells text item)
    (h : text (.array items) ++ rest = text (.array items') ++ rest') : items = items' ∧ rest = rest' := by
  have hopen : ∀ item, ∃ c cs, text item = c :: cs ∧ c ≠ ']' := by
    intro item
    obtain ⟨c, cs, htext, -, hne⟩ := text_head item
    exact ⟨c, cs, htext, hne⟩
  simp only [text, texts_eq, List.cons_append, List.append_assoc, List.nil_append, List.cons.injEq, true_and] at h
  exact joined_tell (by decide) htell hopen h

theorem joined_fieldTexts_tell {fields fields' : List (String × Json)} (htell : ∀ field ∈ fields, Tells text field.2)
    (h : text (.object fields) ++ rest = text (.object fields') ++ rest') :
    fields = fields' ∧ rest = rest' := by
  simp only [text, fieldTexts_eq, List.cons_append, List.append_assoc, List.nil_append, List.cons.injEq, true_and] at h
  exact joined_tell (by decide) (fun field hfield => fieldText_tell (htell field hfield)) fieldText_head h

/-- **A value ends where its text does.** The induction is on the size of the value. -/
theorem text_tell (t : Json) : Tells text t := by
  intro t' rest rest' hstops hstops' h
  have hkind := kind_eq_of_text h
  match t with
  | .null =>
    cases t' with
    | null => exact ⟨rfl, List.append_cancel_left h⟩
    | bool b => cases b <;> cases hkind
    | _ => cases hkind
  | .bool b =>
    cases t' with
    | bool b' =>
      cases b <;> cases b'
      · exact ⟨rfl, List.append_cancel_left h⟩
      · cases hkind
      · cases hkind
      · exact ⟨rfl, List.append_cancel_left h⟩
    | _ => cases b <;> cases hkind
  | .number n =>
    cases t' with
    | number n' =>
      obtain ⟨hsame, hrest⟩ := numeral_tell n n' rest rest' hstops hstops' h
      exact ⟨congrArg _ hsame, hrest⟩
    | bool b => cases b <;> cases hkind
    | _ => cases hkind
  | .string s =>
    cases t' with
    | string s' =>
      obtain ⟨hsame, hrest⟩ := quote_tell h
      exact ⟨congrArg _ hsame, hrest⟩
    | bool b => cases b <;> cases hkind
    | _ => cases hkind
  | .array items =>
    cases t' with
    | array items' =>
      obtain ⟨hsame, hrest⟩ := joined_texts_tell (fun item _ => text_tell item) h
      exact ⟨congrArg _ hsame, hrest⟩
    | bool b => cases b <;> cases hkind
    | _ => cases hkind
  | .object fields =>
    cases t' with
    | object fields' =>
      obtain ⟨hsame, hrest⟩ := joined_fieldTexts_tell (fun field _ => text_tell field.2) h
      exact ⟨congrArg _ hsame, hrest⟩
    | bool b => cases b <;> cases hkind
    | _ => cases hkind
termination_by sizeOf t
decreasing_by
  · have hlt := List.sizeOf_lt_of_mem ‹item ∈ items›
    simp only [Json.array.sizeOf_spec]
    omega
  · have hlt := List.sizeOf_lt_of_mem ‹field ∈ fields›
    have hvalue : sizeOf field.2 < sizeOf field := by
      cases field
      simp only [Prod.mk.sizeOf_spec]
      omega
    simp only [Json.object.sizeOf_spec]
    omega

/-- **No two values have one text.** -/
theorem text_inj {t t' : Json} (h : text t = text t') : t = t' := by
  have hnil : Stops [] := fun c hc => by cases hc
  refine (text_tell t t' [] [] hnil hnil ?_).1
  rw [h]

/-! ### Fields that may be left out -/

def skipNone (fields : List (String × Option Json)) : List (String × Json) :=
  fields.filterMap fun field => field.2.map fun value => (field.1, value)

theorem name_mem_of_mem_skipNone {fields : List (String × Option Json)} {field : String × Json} (h : field ∈ skipNone fields) :
    field.1 ∈ fields.map (·.1) := by
  obtain ⟨field', hmem, hvalue⟩ := List.mem_filterMap.mp h
  obtain ⟨value, -, rfl⟩ := Option.map_eq_some_iff.mp hvalue
  exact List.mem_map_of_mem hmem

theorem skipNone_inj {fields fields' : List (String × Option Json)} (hnames : fields.map (·.1) = fields'.map (·.1))
    (hnodup : (fields.map (·.1)).Nodup) (h : skipNone fields = skipNone fields') : fields = fields' := by
  induction fields generalizing fields' with
  | nil => exact (List.map_eq_nil_iff.mp hnames.symm).symm
  | cons field fields ih =>
    obtain ⟨name, value⟩ := field
    obtain ⟨⟨name', value'⟩, fields', rfl, hname, hothers⟩ := List.map_eq_cons_iff.mp hnames.symm
    obtain rfl : name' = name := hname
    obtain ⟨hfresh, hnodup⟩ := List.nodup_cons.mp hnodup
    have hrest : value = value' ∧ skipNone fields = skipNone fields' := by
      cases value with
      | none =>
        cases value' with
        | none => exact ⟨rfl, h⟩
        | some v' =>
          have hfirst : (name', v') ∈ skipNone fields := by
            rw [show skipNone fields = (name', v') :: skipNone fields' from h]
            exact List.mem_cons_self
          exact absurd (name_mem_of_mem_skipNone hfirst) hfresh
      | some v =>
        cases value' with
        | none =>
          have hfirst : (name', v) ∈ skipNone fields' := by
            rw [show skipNone fields' = (name', v) :: skipNone fields from h.symm]
            exact List.mem_cons_self
          exact absurd (hothers ▸ name_mem_of_mem_skipNone hfirst) hfresh
        | some v' =>
          obtain ⟨hfield, hmore⟩ := List.cons.inj h
          exact ⟨congrArg some (Prod.mk.inj hfield).2, hmore⟩
    rw [hrest.1, ih hothers.symm hnodup hrest.2]

end JsonText
