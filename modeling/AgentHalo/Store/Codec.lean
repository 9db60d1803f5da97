import AgentHalo.Store.Typed

/-!
# Decoding inverts encoding

A typed value is split into a tag, a cell and, for the blob types, a payload. `decode_encode` puts the three together
again, for every one of the eight types. Null, integers and booleans need nothing; texts rest on the UTF-8 round trip;
floats, vectors and JSON rest on the platform reading back what it wrote (`RoundTrips`), which for the doubles of a
vector is lifted through the little-endian words of its payload.
-/

namespace AgentHalo

namespace Text

theorem toLeBytes_length (w : UInt64) : (toLeBytes w).length = 8 := by
  unfold toLeBytes
  rw [List.length_map, List.length_range]

theorem shift_or_toNat (acc : UInt64) (b : UInt8) (hroom : acc.toNat < 2 ^ 56) :
    ((acc <<< 8) ||| b.toUInt64).toNat = b.toNat + 256 * acc.toNat := by
  have hb := b.toNat_lt
  have hmod : acc.toNat * 2 ^ 8 % 2 ^ 64 = acc.toNat * 2 ^ 8 := Nat.mod_eq_of_lt (by omega)
  have hor : acc.toNat * 2 ^ 8 ||| b.toNat = 2 ^ 8 * acc.toNat + b.toNat := by
    rw [Nat.mul_comm]
    exact (Nat.two_pow_add_eq_or_of_lt hb acc.toNat).symm
  simp only [UInt64.toNat_or, UInt64.toNat_shiftLeft, UInt8.toNat_toUInt64, Nat.shiftLeft_eq]
  have height : UInt64.toNat 8 % 64 = 8 := rfl
  rw [height, hmod, hor]
  omega

theorem foldr_shift_or_toNat (bs : Bytes) (hlen : bs.length ≤ 8) :
    (bs.foldr (fun b (acc : UInt64) => (acc <<< 8) ||| b.toUInt64) 0).toNat = Nat.ofDigits 256 (bs.map (·.toNat)) := by
  induction bs with
  | nil => rfl
  | cons b rest ih =>
    rw [List.length_cons] at hlen
    have hrest := ih (by omega)
    have hbound : Nat.ofDigits 256 (rest.map (·.toNat)) < 256 ^ rest.length := by
      have h := Nat.ofDigits_lt_base_pow_length (b := 256) (l := rest.map (·.toNat)) (by decide) (by
        intro d hd
        obtain ⟨b', -, rfl⟩ := List.mem_map.mp hd
        exact b'.toNat_lt)
      rwa [List.length_map] at h
    have hpow : 256 ^ rest.length ≤ 256 ^ 7 := Nat.pow_le_pow_right (by decide) (by omega)
    rw [List.foldr_cons, shift_or_toNat _ _ (by rw [hrest]; omega), hrest, List.map_cons, Nat.ofDigits_cons]

theorem fromLeBytes_toLeBytes (w : UInt64) : fromLeBytes (toLeBytes w) = w := by
  have hw := w.toNat_lt
  apply UInt64.toNat_inj.mp
  unfold fromLeBytes
  rw [List.take_of_length_le (by rw [toLeBytes_length]), foldr_shift_or_toNat _ (by rw [toLeBytes_length])]
  simp [toLeBytes, List.range_succ, Nat.ofDigits_cons, Nat.shiftRight_eq_div_pow]
  omega

theorem toLeBytes_fromLeBytes {bs : Bytes} (h : bs.length = 8) : toLeBytes (fromLeBytes bs) = bs := by
  obtain ⟨a, b, c, d, e, f, g, i, rfl⟩ : ∃ a b c d e f g i, bs = [a, b, c, d, e, f, g, i] := by
    match bs, h with
    | [a, b, c, d, e, f, g, i], _ => exact ⟨a, b, c, d, e, f, g, i, rfl⟩
  have hvalue : (fromLeBytes [a, b, c, d, e, f, g, i]).toNat =
      Nat.ofDigits 256 ([a, b, c, d, e, f, g, i].map UInt8.toNat) := foldr_shift_or_toNat _ (by simp)
  simp only [List.map_cons, List.map_nil, Nat.ofDigits_cons, Nat.ofDigits_nil] at hvalue
  have hbyte : ∀ (n : Nat) (byte : UInt8), n < 64 → byte.toNat = (fromLeBytes [a, b, c, d, e, f, g, i]).toNat / 2 ^ n % 256 →
      (fromLeBytes [a, b, c, d, e, f, g, i] >>> UInt64.ofNat n).toUInt8 = byte := by
    intro n byte hn hb
    apply UInt8.toNat_inj.mp
    rw [hb, UInt64.toNat_toUInt8, UInt64.toNat_shiftRight, UInt64.toNat_ofNat_of_lt' (by simp [UInt64.size]; omega),
      Nat.mod_eq_of_lt hn, Nat.shiftRight_eq_div_pow]
  have ha := a.toNat_lt
  have hb := b.toNat_lt
  have hc := c.toNat_lt
  have hd := d.toNat_lt
  have he := e.toNat_lt
  have hf := f.toNat_lt
  have hg := g.toNat_lt
  have hi := i.toNat_lt
  unfold toLeBytes
  simp only [List.range_succ, List.range_zero, List.nil_append, List.cons_append, List.map_cons, List.map_nil]
  rw [hbyte _ a, hbyte _ b, hbyte _ c, hbyte _ d, hbyte _ e, hbyte _ f, hbyte _ g, hbyte _ i] <;> omega
end Text

namespace Store

/-! ### Blocks of a payload -/

section Chunks

variable {α : Type} {n : Nat}

theorem toChunksGo_append (xs rest : List α) (block : Array α) (done : Array (List α))
    (hroom : block.size + xs.length ≤ n) :
    List.toChunks.go n (xs ++ rest) block done = List.toChunks.go n rest (block ++ xs.toArray) done := by
  induction xs generalizing block with
  | nil => simp
  | cons x xs ih =>
    rw [List.length_cons] at hroom
    have hopen : (block.size == n) = false := by
      rw [beq_eq_false_iff_ne]
      omega
    rw [List.cons_append, List.toChunks.go, hopen, if_neg Bool.false_ne_true, ih _ (by rw [Array.size_push]; omega)]
    congr 1
    simp

theorem toChunksGo_flatten (blocks : List (List α)) (hn : 0 < n) (hblocks : ∀ b ∈ blocks, b.length = n)
    (block : Array α) (hfull : block.size = n) (done : Array (List α)) :
    List.toChunks.go n blocks.flatten block done = done.toList ++ block.toList :: blocks := by
  induction blocks generalizing block done with
  | nil => simp [List.toChunks.go]
  | cons b rest ih =>
    obtain ⟨hb, hrest⟩ := List.forall_mem_cons.mp hblocks
    cases b with
    | nil =>
      rw [List.length_nil] at hb
      omega
    | cons x xs =>
      rw [List.length_cons] at hb
      have hsize : ((Array.mkEmpty n).push x ++ xs.toArray).size = n := by
        simp
        omega
      rw [List.flatten_cons, List.cons_append, List.toChunks.go, hfull, beq_self_eq_true, if_pos rfl,
        toChunksGo_append xs _ _ _ (by simp; omega), ih hrest _ hsize]
      simp

theorem toChunks_flatten (blocks : List (List α)) (hn : 0 < n) (hblocks : ∀ b ∈ blocks, b.length = n) :
    blocks.flatten.toChunks n = blocks := by
  cases blocks with
  | nil => rfl
  | cons b rest =>
    obtain ⟨hb, hrest⟩ := List.forall_mem_cons.mp hblocks
    cases b with
    | nil =>
      rw [List.length_nil] at hb
      omega
    | cons x xs =>
      obtain ⟨m, rfl⟩ : ∃ m, n = m + 1 := ⟨n - 1, by omega⟩
      rw [List.length_cons] at hb
      have hsize : (#[x] ++ xs.toArray).size = m + 1 := by
        simp
        omega
      have hstart : ((x :: xs) :: rest).flatten.toChunks (m + 1) =
          List.toChunks.go (m + 1) (xs ++ rest.flatten) #[x] #[] := by
        simp [List.toChunks]
      rw [hstart, toChunksGo_append xs _ _ _ (by simp; omega), toChunksGo_flatten rest hn hrest _ hsize]
      simp

end Chunks

/-! ### Vectors -/

variable {P : Platform}

theorem vectorToBytes_length (dims : List P.f64.F) : (vectorToBytes P dims).length = 8 * dims.length := by
  unfold vectorToBytes
  rw [List.length_flatMap]
  simp only [Text.toLeBytes_length, List.map_const', List.sum_replicate, smul_eq_mul]
  exact Nat.mul_comm _ _

theorem bytesToVector_vectorToBytes (dims : List P.f64.F)
    (hbits : ∀ d ∈ dims, P.f64.fromBits (P.f64.toBits d) = d) :
    bytesToVector P (vectorToBytes P dims) = .ok dims := by
  have hchunks : (vectorToBytes P dims).toChunks 8 = dims.map fun d => Text.toLeBytes (P.f64.toBits d) := by
    unfold vectorToBytes
    rw [List.flatMap_def]
    refine toChunks_flatten _ (by decide) ?_
    intro b hb
    obtain ⟨d, -, rfl⟩ := List.mem_map.mp hb
    exact Text.toLeBytes_length _
  unfold bytesToVector
  rw [if_neg (by rw [vectorToBytes_length]; omega), hchunks, List.map_map]
  have hread : ∀ d ∈ dims, P.f64.fromBits (Text.fromLeBytes (Text.toLeBytes (P.f64.toBits d))) = id d := by
    intro d hd
    rw [Text.fromLeBytes_toLeBytes, hbits d hd]
    rfl
  exact congrArg Except.ok ((List.map_congr_left hread).trans dims.map_id)

/-! ### All types -/

namespace TypedValue

/-- The platform reads back the doubles and the JSON of the value bit for bit. -/
def RoundTrips : TypedValue P → Prop
  | .float v => P.f64.fromBits (P.f64.toBits v) = v
  | .json v => P.json.fromSlice (P.json.toVec v) = .ok v
  | .vector dims => ∀ d ∈ dims, P.f64.fromBits (P.f64.toBits d) = d
  | _ => True

theorem decode_encode (key : String) (value : TypedValue P) (h : value.RoundTrips) :
    decode value.tag (value.encode key).1 (value.encode key).2 = .ok value := by
  cases value with
  | null => rfl
  | integer v => simp only [tag, encode, decode, Int64.toInt64_toUInt64]
  | float v =>
    have hbits : P.f64.fromBits (P.f64.toBits v) = v := h
    simp only [tag, encode, decode, hbits]
  | bool v => cases v <;> rfl
  | text s => simp only [tag, encode, decode, fromUtf8_utf8]
  | json v =>
    have hjson : P.json.fromSlice (P.json.toVec v) = .ok v := h
    simp only [tag, encode, decode, hjson]
  | bytes b => rfl
  | vector dims =>
    simp only [tag, encode, decode, bytesToVector_vectorToBytes dims h]
    rfl

end TypedValue

end Store

end AgentHalo
