import Mathlib.Data.Char
import AgentHalo.Base.Reference
import AgentHalo.Base.Scan
import AgentHalo.Lib.Words
import AgentHalo.Store.Blobs

/-!
# Searching under a prefix

A search may be confined to the keys with a given prefix. The index then scans the keys from the prefix up to the prefix
with its last character replaced by the next one. The next one is computed in a byte, so it is the next character only
below U+00FF; from there on it is a smaller one, the range runs backwards, and the scan panics.
-/

namespace AgentHalo.Store

open Text (startsWith startsWith_iff)

/-! ### The keys in a range -/

/-- Rust's `BTreeMap::range` over `start..stop`; `none` is the panic on a range that runs backwards. -/
def keyRange {V : Type} (m : OrdMap String V) (start stop : String) : Option (List (String × V)) :=
  if stop < start then none
  else some (m.toList.filter fun entry => decide (start ≤ entry.1) && decide (entry.1 < stop))

/-- Rust's `char::from(last as u8 + 1)`, wrapping around. -/
def nextByte (last : Char) : Char := Char.ofUInt8 (last.toUInt8 + 1)

def scanned {V : Type} (m : OrdMap String V) : Option String → Option (List (String × V))
  | some pfx =>
    match pfx.toList.getLast? with
    | some last => keyRange m pfx (String.ofList (pfx.toList.dropLast ++ [nextByte last]))
    | none => some m.toList
  | none => some m.toList

theorem toNat_nextByte (last : Char) : (nextByte last).toNat = (last.toNat + 1) % 256 := by
  have hbyte : (nextByte last).toNat = (last.toUInt8 + 1).toNat := rfl
  have hlast : last.toUInt8.toNat = last.toNat % 256 := UInt32.toNat_toUInt8 last.val
  rw [hbyte, UInt8.toNat_add, hlast]
  exact Nat.mod_add_mod _ _ _

theorem lt_iff_toNat_lt {c d : Char} : c < d ↔ c.toNat < d.toNat := Iff.rfl

theorem between_nextByte {last : Char} (h : last.toNat < 0xFF) (x : Char) :
    ¬ x < last ∧ x < nextByte last ↔ x = last := by
  rw [lt_iff_toNat_lt, lt_iff_toNat_lt, toNat_nextByte, Nat.mod_eq_of_lt (by omega), ← Char.toNat_inj]
  omega

theorem nextByte_lt {last : Char} (h : 0xFF ≤ last.toNat) : nextByte last < last := by
  rw [lt_iff_toNat_lt, toNat_nextByte]
  omega

section Scan

variable {V : Type} (m : OrdMap String V) {pfx : String}

theorem scanned_empty (h : pfx.toList.getLast? = none) :
    scanned m (some pfx) = some (m.toList.filter fun entry => startsWith entry.1 pfx) := by
  have hnil : pfx.toList = [] := List.getLast?_eq_none_iff.mp h
  have hall : ∀ entry ∈ m.toList, startsWith entry.1 pfx = true := by
    intro entry _
    unfold startsWith
    rw [hnil]
    rfl
  rw [scanned, h, List.filter_eq_self.mpr hall]

theorem scanned_of_lt {last : Char} (hlast : pfx.toList.getLast? = some last) (h : last.toNat < 0xFF) :
    scanned m (some pfx) = some (m.toList.filter fun entry => startsWith entry.1 pfx) := by
  have hpfx : pfx.toList = pfx.toList.dropLast ++ [last] := (List.dropLast_append_getLast? _ hlast).symm
  have hrange : ∀ key : String, (pfx ≤ key ∧ key < String.ofList (pfx.toList.dropLast ++ [nextByte last])) ↔
      startsWith key pfx = true := by
    intro key
    rw [← String.not_lt, String.lt_iff, String.lt_iff, String.toList_ofList, hpfx, List.dropLast_concat,
      PrefixRange.between_iff_isPrefix (between_nextByte h), ← hpfx]
    exact List.isPrefixOf_iff_prefix.symm
  have hforward : ¬ String.ofList (pfx.toList.dropLast ++ [nextByte last]) < pfx := by
    intro hback
    have hself := (hrange pfx).mpr ((startsWith_iff _ _).mpr ⟨"", (String.append_empty).symm⟩)
    exact absurd (String.lt_trans hself.2 hback) (String.lt_irrefl _)
  rw [scanned, hlast]
  dsimp only
  rw [keyRange, if_neg hforward]
  refine congrArg some (List.filter_congr fun entry _ => ?_)
  rw [Bool.eq_iff_iff, Bool.and_eq_true, decide_eq_true_iff, decide_eq_true_iff]
  exact hrange entry.1

theorem scanned_of_ge {last : Char} (hlast : pfx.toList.getLast? = some last) (h : 0xFF ≤ last.toNat) :
    scanned m (some pfx) = none := by
  have hpfx : pfx.toList = pfx.toList.dropLast ++ [last] := (List.dropLast_append_getLast? _ hlast).symm
  have hback : String.ofList (pfx.toList.dropLast ++ [nextByte last]) < pfx := by
    rw [String.lt_iff, String.toList_ofList, hpfx, List.dropLast_concat]
    exact PrefixRange.append_singleton_lt (nextByte_lt h) _
  rw [scanned, hlast]
  exact if_pos hback

theorem mem_toList_of_scanned {pfx : Option String} {entries : List (String × V)} (h : scanned m pfx = some entries)
    {entry : String × V} (hmem : entry ∈ entries) : entry ∈ m.toList := by
  unfold scanned keyRange at h
  split at h
  · split at h
    · split_ifs at h
      obtain rfl := Option.some.inj h
      exact List.mem_of_mem_filter hmem
    · obtain rfl := Option.some.inj h
      exact hmem
  · obtain rfl := Option.some.inj h
    exact hmem

end Scan

/-! ### The search -/

namespace VectorIndex

variable {A : F64}

/-- The nearest of the entries: scored, in order of distance, and cut off. -/
def nearest (query : List A.F) (k : Nat) (metric : DistanceMetric) (entries : List (String × List A.F)) :
    List (String × A.F) :=
  let scored := entries.map fun entry => (entry.1, computeDistance query entry.2 metric)
  let sorted := match metric with
    | .innerProduct => scored.mergeSort fun a b => !A.lt a.2 b.2
    | _ => scored.mergeSort fun a b => !A.lt b.2 a.2
  sorted.take k

/-- `none` is a panic. -/
def searchWithPrefix (v : VectorIndex A) (query : List A.F) (k : Nat) (metric : DistanceMetric) (pfx : Option String) :
    Option (Except String (List (String × A.F))) :=
  if v.vectors.entries.isEmpty then some (.ok [])
  else if v.expectedDims.any fun expected => query.length != expected then
    some (.error ("query dimension mismatch: expected " ++ toString (v.expectedDims.getD 0) ++ ", got "
      ++ toString query.length))
  else (scanned v.vectors.entries pfx).map fun entries => .ok (nearest query k metric entries)

variable {query : List A.F} {k : Nat} {metric : DistanceMetric}

theorem exists_of_mem_nearest {entries : List (String × List A.F)} {result : String × A.F}
    (h : result ∈ nearest query k metric entries) :
    ∃ entry ∈ entries, entry.1 = result.1 := by
  have hscored : result ∈ entries.map fun entry => (entry.1, computeDistance query entry.2 metric) := by
    cases metric with
    | cosine => exact List.mem_mergeSort.mp (List.mem_of_mem_take h)
    | l2 => exact List.mem_mergeSort.mp (List.mem_of_mem_take h)
    | innerProduct => exact List.mem_mergeSort.mp (List.mem_of_mem_take h)
  obtain ⟨entry, hentry, rfl⟩ := List.mem_map.mp hscored
  exact ⟨entry, hentry, rfl⟩

theorem isSome_of_searchWithPrefix {v : VectorIndex A} {pfx : Option String} {results : List (String × A.F)}
    (hsearch : v.searchWithPrefix query k metric pfx = some (.ok results)) {key : String} (hmem : key ∈ results.map (·.1)) :
    v.vectors.entries[key]?.isSome = true := by
  unfold searchWithPrefix at hsearch
  split_ifs at hsearch
  · obtain rfl := Except.ok.inj (Option.some.inj hsearch)
    cases hmem
  · cases Option.some.inj hsearch
  · obtain ⟨entries, hentries, hresults⟩ := Option.map_eq_some_iff.mp hsearch
    obtain rfl := Except.ok.inj hresults
    obtain ⟨result, hresult, rfl⟩ := List.mem_map.mp hmem
    obtain ⟨entry, hentry, hkey⟩ := exists_of_mem_nearest hresult
    have hstored := Std.ExtTreeMap.mem_toList_iff_getElem?_eq_some.mp (mem_toList_of_scanned _ hentries hentry)
    rw [← hkey, hstored]
    rfl

theorem nearest_nil (query : List A.F) (k : Nat) (metric : DistanceMetric) : nearest query k metric [] = [] := by
  unfold nearest
  cases metric <;> simp

section Prefix

variable (v : VectorIndex A) {query : List A.F} {k : Nat} {metric : DistanceMetric} {pfx : String}

theorem searchWithPrefix_of_dims (hdims : ∀ expected, v.expectedDims = some expected → query.length = expected)
    (hne : v.vectors.entries.isEmpty = false) : v.searchWithPrefix query k metric (some pfx) =
      (scanned v.vectors.entries (some pfx)).map fun entries => .ok (nearest query k metric entries) := by
  have hmatch : (v.expectedDims.any fun expected => query.length != expected) = false := by
    cases hexpected : v.expectedDims with
    | none => rfl
    | some expected => simpa using hdims expected hexpected
  unfold searchWithPrefix
  rw [hne, hmatch, if_neg Bool.false_ne_true, if_neg Bool.false_ne_true]

theorem searchWithPrefix_of_isEmpty (hempty : v.vectors.entries.isEmpty = true) :
    v.searchWithPrefix query k metric (some pfx) =
      some (.ok (nearest query k metric (v.vectors.entries.toList.filter fun entry => startsWith entry.1 pfx))) := by
  have hnil : v.vectors.entries.toList = [] := by
    rw [← List.isEmpty_iff, Std.ExtTreeMap.isEmpty_toList]
    exact hempty
  unfold searchWithPrefix
  rw [if_pos hempty, hnil, List.filter_nil, nearest_nil]

end Prefix

/-- **When a search under a prefix is the plain search of the keys under it**: if the index is empty, or the prefix is empty
or ends in a character below U+00FF. Otherwise the search panics. -/
theorem searchWithPrefix_iff (v : VectorIndex A) (query : List A.F) (k : Nat) (metric : DistanceMetric) (pfx : String)
    (hdims : ∀ expected, v.expectedDims = some expected → query.length = expected) :
    v.searchWithPrefix query k metric (some pfx) =
        some (.ok (nearest query k metric (v.vectors.entries.toList.filter fun entry => startsWith entry.1 pfx))) ↔
      v.vectors.entries.isEmpty = true ∨ ∀ last, pfx.toList.getLast? = some last → last.toNat < 0xFF := by
  cases hempty : v.vectors.entries.isEmpty with
  | true => exact iff_of_true (v.searchWithPrefix_of_isEmpty hempty) (.inl rfl)
  | false =>
    rw [v.searchWithPrefix_of_dims hdims hempty, or_iff_right Bool.false_ne_true]
    cases hlast : pfx.toList.getLast? with
    | none =>
      rw [scanned_empty _ hlast]
      exact iff_of_true rfl fun last h => nomatch h
    | some last =>
      by_cases hbelow : last.toNat < 0xFF
      · rw [scanned_of_lt _ hlast hbelow]
        exact iff_of_true rfl fun other hother => Option.some.inj hother ▸ hbelow
      · rw [scanned_of_ge _ hlast (Nat.le_of_not_lt hbelow)]
        exact iff_of_false (fun h => nomatch h) fun h => hbelow (h last rfl)

/-! ### One vector -/

/-- A new index after the insertion of a vector of one component. -/
def singleIndex (A : F64) (key : String) : VectorIndex A := ((new A 0).upsert key [A.lit 10 1] 0).2

theorem singleIndex_entries (A : F64) (key : String) :
    (singleIndex A key).vectors.entries = (∅ : OrdMap String (List A.F)).insert key [A.lit 10 1] ∧
      (singleIndex A key).expectedDims = some 1 := by
  have hempty : ((new A 0).vectors.applyTimeMaintenance 0).entries = ∅ := BoundedStore.applyTimeMaintenance_entries _ _
  have hmax : ((new A 0).vectors.applyTimeMaintenance 0).maxEntries = defaultVectorCeiling :=
    BoundedStore.applyTimeMaintenance_maxEntries _ _
  have hsize : (((new A 0).vectors.applyTimeMaintenance 0).entries.insert key [A.lit 10 1]).size ≤
      ((new A 0).vectors.applyTimeMaintenance 0).maxEntries := by
    rw [hempty, hmax, Std.ExtTreeMap.size_insert, if_neg (by simp), Std.ExtTreeMap.size_empty]
    decide
  obtain ⟨hentries, -⟩ := BoundedStore.write_entries _ key [A.lit 10 1] 0 hsize
  rw [hempty] at hentries
  have hdims : (singleIndex A key).expectedDims =
      if (((new A 0).vectors.applyTimeMaintenance 0).entries.insert key [A.lit 10 1]).size >
          ((new A 0).vectors.applyTimeMaintenance 0).maxEntries ∧ (singleIndex A key).vectors.entries.isEmpty
        then none else some 1 := rfl
  rw [hdims, if_neg fun hover => absurd hsize (Nat.not_le.mpr hover.1)]
  exact ⟨hentries, rfl⟩

theorem singleIndex_isEmpty (A : F64) (key : String) : (singleIndex A key).vectors.entries.isEmpty = false := by
  rw [(singleIndex_entries A key).1, Std.ExtTreeMap.isEmpty_eq_size_beq_zero, Std.ExtTreeMap.size_insert,
    if_neg (by simp)]
  rfl

/-- A prefix of a stored key that ends in `~`. -/
theorem searchWithPrefix_tilde :
    (singleIndex Platform.reference.f64 "~a").searchWithPrefix [Platform.reference.f64.lit 10 1] 1 .l2 (some "~") =
      some (.ok (nearest [Platform.reference.f64.lit 10 1] 1 .l2
        ((singleIndex Platform.reference.f64 "~a").vectors.entries.toList.filter fun entry => startsWith entry.1 "~"))) := by
  refine (searchWithPrefix_iff _ _ 1 .l2 "~" ?_).mpr (.inr ?_)
  · rintro expected hexpected
    rw [(singleIndex_entries _ _).2] at hexpected
    exact Option.some.inj hexpected
  · intro last hlast
    obtain rfl : '~' = last := Option.some.inj hlast
    decide

/-- The search under a stored key that ends in U+00FF panics. -/
theorem searchWithPrefix_diaeresis :
    (singleIndex Platform.reference.f64 "\u00ff").searchWithPrefix [Platform.reference.f64.lit 10 1] 1 .l2 (some "\u00ff") =
      none := by
  have hempty := singleIndex_isEmpty Platform.reference.f64 "\u00ff"
  rw [searchWithPrefix_of_dims _ ?_ hempty, scanned_of_ge _ rfl (by decide)]
  · rfl
  · rintro expected hexpected
    rw [(singleIndex_entries _ _).2] at hexpected
    exact Option.some.inj hexpected

end VectorIndex

end AgentHalo.Store
