import AgentHalo.Base.Text

/-!
# Byte strings in pieces

`slice::chunks` of the standard library: a byte string is cut into pieces of one size, the last one with what is left. Put
together again, the pieces are the byte string; filled up with zeros first, they are the byte string with zeros behind it.
-/

namespace AgentHalo.Slices

/-- `count` pieces of `size` bytes each, the last one with what is left. -/
def pieces (size : Nat) : Nat → Bytes → List Bytes
  | 0, _ => []
  | count + 1, data => data.take size :: pieces size count (data.drop size)

/-- Rust's `usize::div_ceil`. -/
def divCeil (a b : Nat) : Nat := (a + b - 1) / b

/-- Rust's `slice::chunks`. -/
def sliceChunks (size : Nat) (data : Bytes) : List Bytes := pieces size (divCeil data.length size) data

@[simp] theorem length_pieces (size count : Nat) (data : Bytes) : (pieces size count data).length = count := by
  induction count generalizing data with
  | zero => rfl
  | succ count ih => simp [pieces, ih]

variable {size count : Nat} {data piece : Bytes}

theorem flatten_pieces (h : data.length ≤ size * count) :
    (pieces size count data).flatten = data := by
  induction count generalizing data with
  | zero =>
    have hnil : data = [] := List.eq_nil_of_length_eq_zero (by simpa using h)
    simp [pieces, hnil]
  | succ count ih =>
    have hrest : (data.drop size).length ≤ size * count := by
      rw [List.length_drop]
      rw [Nat.mul_succ] at h
      omega
    rw [pieces, List.flatten_cons, ih hrest, List.take_append_drop]

theorem le_mul_divCeil (n : Nat) (hsize : 0 < size) : n ≤ size * divCeil n size := by
  have hdiv := Nat.div_add_mod (n + size - 1) size
  have hmod := Nat.mod_lt (n + size - 1) hsize
  unfold divCeil
  omega

@[simp] theorem length_sliceChunks (size : Nat) (data : Bytes) :
    (sliceChunks size data).length = divCeil data.length size := length_pieces _ _ _

theorem flatten_sliceChunks (hsize : 0 < size) (data : Bytes) : (sliceChunks size data).flatten = data :=
  flatten_pieces (le_mul_divCeil data.length hsize)

theorem divCeil_pos {n : Nat} (hn : 0 < n) (hsize : 0 < size) : 0 < divCeil n size := by
  have hle := le_mul_divCeil n hsize
  rcases Nat.eq_zero_or_pos (divCeil n size) with hzero | hpos
  · rw [hzero] at hle
    omega
  · exact hpos

/-- A piece filled up with zeros to its full size. -/
def padTo (size : Nat) (piece : Bytes) : Bytes := piece ++ List.replicate (size - piece.length) 0

theorem length_padTo (h : piece.length ≤ size) : (padTo size piece).length = size := by
  unfold padTo
  rw [List.length_append, List.length_replicate]
  omega

theorem length_le_of_mem_pieces (h : piece ∈ pieces size count data) :
    piece.length ≤ size := by
  induction count generalizing data with
  | zero => cases h
  | succ count ih =>
    rcases List.mem_cons.mp h with rfl | hrest
    · exact List.length_take_le _ _
    · exact ih hrest

theorem flatMap_padTo_pieces (h : data.length ≤ size * count) :
    (pieces size count data).flatMap (padTo size) = data ++ List.replicate (size * count - data.length) 0 := by
  induction count generalizing data with
  | zero =>
    have hnil : data = [] := List.eq_nil_of_length_eq_zero (by simpa using h)
    simp [pieces, hnil]
  | succ count ih =>
    rw [Nat.mul_succ] at h
    have hrest : (data.drop size).length ≤ size * count := by
      rw [List.length_drop]
      omega
    rw [pieces, List.flatMap_cons, ih hrest, Nat.mul_succ, padTo, List.length_drop, List.length_take]
    rcases Nat.le_total size data.length with hfull | hshort
    · rw [Nat.min_eq_left hfull, Nat.sub_self, List.replicate_zero, List.append_nil, ← List.append_assoc,
        List.take_append_drop, show size * count + size - data.length = size * count - (data.length - size) by omega]
    · rw [Nat.min_eq_right hshort, List.take_of_length_le hshort, List.drop_of_length_le hshort, List.nil_append,
        List.append_assoc, ← List.replicate_add,
        show size * count + size - data.length = size - data.length + (size * count - (data.length - size)) by omega]

theorem take_flatMap_padTo (hsize : 0 < size) (data : Bytes) :
    ((sliceChunks size data).flatMap (padTo size)).take data.length = data := by
  rw [sliceChunks, flatMap_padTo_pieces (le_mul_divCeil data.length hsize), List.take_left]

end AgentHalo.Slices
