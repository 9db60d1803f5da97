import AgentHalo.Base.Reference
import AgentHalo.Base.Scan
import AgentHalo.Engine.State

/-!
# What the key-value digest commits to

`key_value_digest` hashes one text, `key=value;` for every key in key order, with the keys as they are. A key may itself
contain `=number;`, and then the text does not say where the key ends. `Cutter` cuts after every `=number;`, inside keys
as well: the `cuts` of an entry depend on that entry only, and two texts are the same exactly when their cuts are
(`segments_eq_iff`).
-/

namespace AgentHalo.Engine

open Text (utf8)
open Store (KeyMap)

/-! ### The text under the digest -/

/-- The map a state and a key map denote; a missing cell reads as zero. -/
def denoted (state : State) (keymap : KeyMap) (key : String) : Option UInt64 := (keymap.get key).map state.cell

def entries (state : State) (keymap : KeyMap) : List (String × UInt64) :=
  keymap.allKeys.map fun (k, idx) => (k, state.cell idx)

def segment (entry : List Char × UInt64) : List Char := entry.1 ++ '=' :: ((toString entry.2).toList ++ [';'])

/-- The text that is hashed, after its prefix. -/
def digestText (state : State) (keymap : KeyMap) : String :=
  String.ofList ((entries state keymap).flatMap fun e => segment (e.1.toList, e.2))

theorem entries_sorted (state : State) (keymap : KeyMap) :
    (entries state keymap).Pairwise fun a b => compare a.1 b.1 = .lt :=
  List.pairwise_map.mpr Std.ExtTreeMap.ordered_keys_toList

variable {state state' : State} {keymap keymap' : KeyMap}

theorem mem_entries {k : String} {v : UInt64} : (k, v) ∈ entries state keymap ↔ denoted state keymap k = some v := by
  unfold entries denoted KeyMap.get KeyMap.allKeys
  rw [List.mem_map, Option.map_eq_some_iff]
  constructor
  · rintro ⟨⟨k', idx⟩, hmem, heq⟩
    obtain ⟨rfl, rfl⟩ := Prod.mk.inj heq
    exact ⟨idx, Std.ExtTreeMap.mem_toList_iff_getElem?_eq_some.mp hmem, rfl⟩
  · rintro ⟨idx, hidx, rfl⟩
    exact ⟨(k, idx), Std.ExtTreeMap.mem_toList_iff_getElem?_eq_some.mpr hidx, rfl⟩

theorem entries_eq_iff :
    entries state keymap = entries state' keymap' ↔ denoted state keymap = denoted state' keymap' := by
  constructor
  · intro h
    funext k
    apply Option.ext
    intro v
    rw [← mem_entries, ← mem_entries, h]
  · intro h
    refine OrdMap.eq_of_sorted_of_mem_iff (r := fun a b => compare a.1 b.1 = .lt) ?_ ?_ (entries_sorted _ _)
      (entries_sorted _ _) ?_
    · intro a
      simp
    · intro a b c hab hbc
      exact Std.TransCmp.lt_trans hab hbc
    · rintro ⟨k, v⟩
      rw [mem_entries, mem_entries, h]

theorem keyValueDigest_eq (P : Platform) (state : State) (keymap : KeyMap) :
    keyValueDigest P state keymap = P.sha256 (utf8 "NucleusDB.KeyValueDigest|" ++ utf8 (digestText state keymap)) := by
  have hsorted : ((entries state keymap).mergeSort fun a b => (compare a.1 b.1).isLE) = entries state keymap :=
    List.mergeSort_of_pairwise ((entries_sorted state keymap).imp fun h => by rw [h]; rfl)
  have htext : ∀ es : List (String × UInt64),
      utf8 (String.ofList (es.flatMap fun e => segment (e.1.toList, e.2))) =
        es.flatMap fun e => utf8 e.1 ++ utf8 "=" ++ utf8 (toString e.2) ++ utf8 ";" := by
    intro es
    induction es with
    | nil => rfl
    | cons e rest ih =>
      rw [List.flatMap_cons, List.flatMap_cons, String.ofList_append, Text.utf8_append, ih, segment]
      simp [utf8, List.flatMap_append]
  unfold keyValueDigest digestText
  rw [htext]
  exact congrArg P.sha256 (congrArg (_ ++ ·) (congrArg (List.flatMap _) hsorted))

/-! ### Cutting a text after every `=number;` -/

/-- A reader of the text: the entries it has cut off, the characters since then, and, apart, a `=` with the digits after
it as long as they may become a number. -/
structure Cutter where
  done : List (List Char × UInt64)
  cur : List Char
  num : Option (List Char)
deriving DecidableEq, Repr

namespace Cutter

def start : Cutter := ⟨[], [], none⟩

/-- The digits as they are printed for a word. -/
def numeral (digits : List Char) : Option UInt64 :=
  (Text.parseU64 (String.ofList digits)).bind fun v => if (toString v).toList = digits then some v else none

/-- The characters since the last cut. -/
def pending (c : Cutter) : List Char :=
  match c.num with
  | none => c.cur
  | some digits => c.cur ++ '=' :: digits

def step (c : Cutter) (ch : Char) : Cutter :=
  if ch = '=' then { c with cur := c.pending, num := some [] }
  else
    match c.num with
    | none => { c with cur := c.cur ++ [ch] }
    | some digits =>
      if ch = ';' then
        match numeral digits with
        | some v => ⟨c.done ++ [(c.cur, v)], [], none⟩
        | none => { c with cur := c.pending ++ [ch], num := none }
      else if ch.isDigit then { c with num := some (digits ++ [ch]) }
      else { c with cur := c.pending ++ [ch], num := none }

def text (c : Cutter) : List Char := c.done.flatMap segment ++ c.pending

theorem eq_of_numeral {digits : List Char} {v : UInt64} (h : numeral digits = some v) : (toString v).toList = digits := by
  unfold numeral at h
  obtain ⟨w, -, hw⟩ := Option.bind_eq_some_iff.mp h
  split_ifs at hw with heq
  rw [← Option.some.inj hw]
  exact heq

theorem numeral_toString (v : UInt64) : numeral (toString v).toList = some v := by
  unfold numeral
  rw [String.ofList_toList, Text.parseU64_toString, Option.bind_some, if_pos rfl]

theorem text_step (c : Cutter) (ch : Char) : (c.step ch).text = c.text ++ [ch] := by
  obtain ⟨done, cur, num⟩ := c
  unfold step text
  by_cases heq : ch = '='
  · rw [if_pos heq, heq]
    simp [pending]
  rw [if_neg heq]
  cases num with
  | none => simp [pending]
  | some digits =>
    dsimp only
    by_cases hsemi : ch = ';'
    · rw [if_pos hsemi, hsemi]
      cases hnum : numeral digits with
      | none => simp [pending]
      | some v => simp [pending, segment, eq_of_numeral hnum]
    rw [if_neg hsemi]
    split_ifs <;> simp [pending]

theorem text_foldl (c : Cutter) (cs : List Char) : (cs.foldl step c).text = c.text ++ cs := by
  induction cs generalizing c with
  | nil => simp
  | cons ch rest ih => rw [List.foldl_cons, ih, text_step, List.append_assoc, List.singleton_append]

theorem step_done (front : List (List Char × UInt64)) (c : Cutter) (ch : Char) :
    step { c with done := front ++ c.done } ch = { c.step ch with done := front ++ (c.step ch).done } := by
  obtain ⟨done, cur, num⟩ := c
  unfold step
  by_cases heq : ch = '='
  · rw [if_pos heq, if_pos heq]
    rfl
  rw [if_neg heq, if_neg heq]
  cases num with
  | none => rfl
  | some digits =>
    dsimp only
    by_cases hsemi : ch = ';'
    · rw [if_pos hsemi, if_pos hsemi]
      cases numeral digits with
      | none => rfl
      | some v => simp
    rw [if_neg hsemi, if_neg hsemi]
    split_ifs <;> rfl

theorem foldl_done (front : List (List Char × UInt64)) (c : Cutter) (cs : List Char) :
    cs.foldl step { c with done := front ++ c.done } =
      { cs.foldl step c with done := front ++ (cs.foldl step c).done } := by
  induction cs generalizing c with
  | nil => rfl
  | cons ch rest ih => rw [List.foldl_cons, List.foldl_cons, step_done, ih]

theorem foldl_digits (c : Cutter) {digits : List Char} (hc : c.num = some digits) {more : List Char}
    (hmore : ∀ d ∈ more, d.isDigit = true) : more.foldl step c = { c with num := some (digits ++ more) } := by
  induction more generalizing c digits with
  | nil =>
    rw [List.append_nil, ← hc]
    rfl
  | cons d rest ih =>
    have hd := hmore d List.mem_cons_self
    have hstep : c.step d = { c with num := some (digits ++ [d]) } := by
      unfold step
      rw [hc, if_neg (by rintro rfl; simp at hd)]
      dsimp only
      rw [if_neg (by rintro rfl; simp at hd), if_pos hd]
    rw [List.foldl_cons, hstep, ih _ rfl fun e he => hmore e (List.mem_cons_of_mem _ he), List.append_assoc,
      List.singleton_append]

theorem foldl_number (c : Cutter) (v : UInt64) :
    ('=' :: ((toString v).toList ++ [';'])).foldl step c = ⟨c.done ++ [(c.pending, v)], [], none⟩ := by
  have hdigits : ∀ d ∈ (toString v).toList, d.isDigit = true := by
    intro d hd
    by_contra hno
    exact Text.not_mem_toString (by simpa using hno) v.toNat hd
  have hequals : c.step '=' = { c with cur := c.pending, num := some [] } := by
    unfold step
    rw [if_pos rfl]
  rw [List.foldl_cons, hequals, List.foldl_append, foldl_digits _ rfl hdigits, List.nil_append, List.foldl_cons,
    List.foldl_nil]
  unfold step
  rw [if_neg (by decide)]
  dsimp only
  rw [if_pos rfl, numeral_toString]

end Cutter

open Cutter (start)

/-- What the reader finds in the text of one entry. -/
def cuts (entry : List Char × UInt64) : List (List Char × UInt64) := ((segment entry).foldl Cutter.step start).done

theorem foldl_segment (entry : List Char × UInt64) :
    (segment entry).foldl Cutter.step start = { start with done := cuts entry } := by
  have hend : (segment entry).foldl Cutter.step start =
      ⟨(entry.1.foldl Cutter.step start).done ++ [((entry.1.foldl Cutter.step start).pending, entry.2)], [], none⟩ := by
    unfold segment
    rw [List.foldl_append, Cutter.foldl_number]
  unfold cuts
  rw [hend]
  rfl

theorem foldl_segments (es : List (List Char × UInt64)) :
    (es.flatMap segment).foldl Cutter.step start = { start with done := es.flatMap cuts } := by
  induction es with
  | nil => rfl
  | cons e rest ih =>
    have hdone := Cutter.foldl_done (cuts e) start (rest.flatMap segment)
    rw [ih] at hdone
    rw [List.flatMap_cons, List.foldl_append, foldl_segment, List.flatMap_cons]
    simpa [start] using hdone

theorem flatMap_segment_cuts (es : List (List Char × UInt64)) : (es.flatMap cuts).flatMap segment = es.flatMap segment := by
  have htext := Cutter.text_foldl start (es.flatMap segment)
  rw [foldl_segments] at htext
  simpa [Cutter.text, Cutter.pending, start] using htext

theorem segments_eq_iff (es es' : List (List Char × UInt64)) :
    es.flatMap segment = es'.flatMap segment ↔ es.flatMap cuts = es'.flatMap cuts := by
  constructor
  · intro h
    have hdone := congrArg (fun t => (t.foldl Cutter.step start).done) h
    simpa [foldl_segments] using hdone
  · intro h
    rw [← flatMap_segment_cuts es, h, flatMap_segment_cuts es']

theorem cuts_of_unmarked {key : List Char} (hkey : ∀ front v back, key ≠ front ++ segment ([], v) ++ back) (value : UInt64) :
    cuts (key, value) = [(key, value)] := by
  have htext := Cutter.text_foldl start key
  have hdone : (key.foldl Cutter.step start).done = [] := by
    by_contra hne
    obtain ⟨e, rest, he⟩ := List.exists_cons_of_ne_nil hne
    refine hkey e.1 e.2 (rest.flatMap segment ++ (key.foldl Cutter.step start).pending) ?_
    rw [Cutter.text, he] at htext
    simpa [Cutter.text, Cutter.pending, start, segment] using htext.symm
  have hpending : (key.foldl Cutter.step start).pending = key := by
    rw [Cutter.text, hdone] at htext
    simpa [Cutter.text, Cutter.pending, start] using htext
  unfold cuts segment
  rw [List.foldl_append, Cutter.foldl_number, hdone, hpending]
  rfl

/-! ### Faithfulness -/

def hashedText (state : State) (keymap : KeyMap) : Bytes :=
  utf8 "NucleusDB.KeyValueDigest|" ++ utf8 (digestText state keymap)

/-- The entries of a map, cut after every `=number;` in their keys. -/
def cutEntries (state : State) (keymap : KeyMap) : List (List Char × UInt64) :=
  (entries state keymap).flatMap fun e => cuts (e.1.toList, e.2)

theorem hashedText_eq_iff :
    hashedText state keymap = hashedText state' keymap' ↔ cutEntries state keymap = cutEntries state' keymap' := by
  have hcuts := segments_eq_iff ((entries state keymap).map fun e => (e.1.toList, e.2))
    ((entries state' keymap').map fun e => (e.1.toList, e.2))
  simp only [List.flatMap_map] at hcuts
  unfold cutEntries
  rw [← hcuts]
  unfold hashedText digestText
  constructor
  · intro h
    exact String.ofList_inj.mp (Store.utf8_inj (List.append_cancel_left h))
  · intro h
    rw [h]

/-- **When the digest is a commitment to the map.** Two states and key maps have one digest exactly when they denote one
map, unless they denote two maps whose entries are the same once every key is cut after each `=number;` in it. -/
theorem keyValueDigest_faithful_iff (P : Platform) (state state' : State) (keymap keymap' : KeyMap)
    (hfree : P.sha256 (hashedText state keymap) = P.sha256 (hashedText state' keymap') →
      hashedText state keymap = hashedText state' keymap') :
    (keyValueDigest P state keymap = keyValueDigest P state' keymap' ↔ denoted state keymap = denoted state' keymap') ↔
      (cutEntries state keymap = cutEntries state' keymap' → denoted state keymap = denoted state' keymap') := by
  rw [keyValueDigest_eq, keyValueDigest_eq]
  have htexts : P.sha256 (hashedText state keymap) = P.sha256 (hashedText state' keymap') ↔
      cutEntries state keymap = cutEntries state' keymap' := by
    rw [← hashedText_eq_iff]
    exact ⟨hfree, congrArg P.sha256⟩
  have hsame (h : denoted state keymap = denoted state' keymap') :
      cutEntries state keymap = cutEntries state' keymap' := by
    unfold cutEntries
    rw [entries_eq_iff.mpr h]
  exact ⟨fun h hcuts => h.mp (htexts.mpr hcuts),
    fun h => ⟨fun hdigest => h (htexts.mp hdigest), fun heq => htexts.mpr (hsame heq)⟩⟩

def Marked (key : String) : Prop := ∃ front v back, key.toList = front ++ segment ([], v) ++ back

theorem denoted_eq_of_cutEntries_eq
    (hkeys : ∀ e ∈ entries state keymap, ¬ Marked e.1) (hkeys' : ∀ e ∈ entries state' keymap', ¬ Marked e.1)
    (h : cutEntries state keymap = cutEntries state' keymap') : denoted state keymap = denoted state' keymap' := by
  have huncut : ∀ es : List (String × UInt64), (∀ e ∈ es, ¬ Marked e.1) →
      es.flatMap (fun e => cuts (e.1.toList, e.2)) = es.map fun e => (e.1.toList, e.2) := by
    intro es hes
    rw [List.map_eq_flatMap]
    exact List.flatMap_congr fun e he => cuts_of_unmarked (fun front v back heq => hes e he ⟨front, v, back, heq⟩) e.2
  unfold cutEntries at h
  rw [huncut _ hkeys, huncut _ hkeys'] at h
  refine entries_eq_iff.mp (List.map_injective_iff.mpr ?_ h)
  rintro ⟨k, v⟩ ⟨k', v'⟩ heq
  obtain ⟨hk, hv⟩ := Prod.mk.inj heq
  exact Prod.ext (String.toList_inj.mp hk) hv

section Pairs

def oneKey (key : String) : KeyMap := (KeyMap.new.getOrCreate key).2

def twoKeys (key key' : String) : KeyMap := ((oneKey key).getOrCreate key').2

theorem keyValueDigest_faithful_iff_one_two :
    (keyValueDigest .reference ⟨[1]⟩ (oneKey "a") = keyValueDigest .reference ⟨[2]⟩ (oneKey "a") ↔
      denoted ⟨[1]⟩ (oneKey "a") = denoted ⟨[2]⟩ (oneKey "a")) ↔
    (cutEntries ⟨[1]⟩ (oneKey "a") = cutEntries ⟨[2]⟩ (oneKey "a") →
      denoted ⟨[1]⟩ (oneKey "a") = denoted ⟨[2]⟩ (oneKey "a")) :=
  keyValueDigest_faithful_iff .reference ⟨[1]⟩ ⟨[2]⟩ (oneKey "a") (oneKey "a") (by decide)

/-- The one key `a=1;b` and the two keys `a` and `b` give one text, whatever the hash. -/
theorem keyValueDigest_collides :
    hashedText ⟨[2]⟩ (oneKey "a=1;b") = hashedText ⟨[1, 2]⟩ (twoKeys "a" "b") ∧
      (∀ P, keyValueDigest P ⟨[2]⟩ (oneKey "a=1;b") = keyValueDigest P ⟨[1, 2]⟩ (twoKeys "a" "b")) ∧
      denoted ⟨[2]⟩ (oneKey "a=1;b") ≠ denoted ⟨[1, 2]⟩ (twoKeys "a" "b") := by
  have htext : hashedText ⟨[2]⟩ (oneKey "a=1;b") = hashedText ⟨[1, 2]⟩ (twoKeys "a" "b") := by decide
  have hmissing : denoted ⟨[2]⟩ (oneKey "a=1;b") "a" = none := by decide
  have hheld : denoted ⟨[1, 2]⟩ (twoKeys "a" "b") "a" = some 1 := by decide
  refine ⟨htext, fun P => ?_, fun h => ?_⟩
  · rw [keyValueDigest_eq, keyValueDigest_eq]
    exact congrArg P.sha256 htext
  · rw [h, hheld] at hmissing
    cases hmissing

end Pairs

end AgentHalo.Engine
