import Mathlib.Data.List.OfFn

set_option autoImplicit false

/-!
# Aesm: choosing an attestation key id

`AesmKeyIds::select_algorithm_id` (lib.rs:123-139) reads the buffer of
supported attestation key ids that the AESM daemon returns, an array of
`sgx_att_key_id_ext_t` records, and returns the first record whose
`base.algorithm_id` is the one asked for:

    for i in self.keys.chunks_exact(size_of::<sgx_att_key_id_ext_t>()) {
        let ptr = i.as_ptr() as *const sgx_att_key_id_ext_t;
        let algorithm = unsafe { .. read_unaligned(&(*ptr).base.algorithm_id) };
        if algorithm == algorithm_id as u32 { return Ok(Some(i.to_vec())); }
    }
    Ok(None)

The record's layout comes from `sgx_types`, outside this repository.  It is a
parameter here (`KeyIdLayout`) carrying the two facts the code relies on: the
size is positive (`chunks_exact` panics on zero) and the 4-byte field lies
inside the record.  The `println!` of each record's fields is left out.

`selectAlgorithmId_first_match` states the result by record index: the
`k`-th record is the `size` bytes at offset `k * size`, and only the
`len / size` whole records count.
-/

namespace RustSgx.Aesm

/-- Where a key id record keeps its algorithm id:
`size_of::<sgx_att_key_id_ext_t>()` and the offset of `base.algorithm_id`. -/
structure KeyIdLayout where
  size : Nat
  algorithmIdOffset : Nat
  size_pos : 0 < size
  field_le : algorithmIdOffset + 4 ≤ size

/-- `AesmKeyIds`: the daemon's buffer of key id records. -/
structure AesmKeyIds where
  keys : List UInt8

/-- `n` pieces of `size` bytes from the front of `l`. -/
def chunks (size : Nat) : List UInt8 → Nat → List (List UInt8)
  | _, 0 => []
  | l, n + 1 => l.take size :: chunks size (l.drop size) n

/-- `slice::chunks_exact(size)`: the `len / size` whole pieces of `size`
bytes, in order; a shorter remainder is never yielded. -/
def chunksExact (size : Nat) (l : List UInt8) : List (List UInt8) :=
  chunks size l (l.length / size)

example : chunksExact 2 [1, 2, 3, 4, 5] = [[1, 2], [3, 4]] := by decide

/-- `ptr::read_unaligned` of a `u32` at byte `off`, little-endian as on every
target SGX runs on. -/
def readU32 (record : List UInt8) (off : Nat) : UInt32 :=
  let b (i : Nat) : UInt32 := (record.getD (off + i) 0).toUInt32
  b 0 ||| b 1 <<< 8 ||| b 2 <<< 16 ||| b 3 <<< 24

/-- `base.algorithm_id` of a key id record. -/
def algorithmIdOf (layout : KeyIdLayout) (record : List UInt8) : UInt32 :=
  readU32 record layout.algorithmIdOffset

/-- `AesmKeyIds::select_algorithm_id` (lib.rs:123-139); `algorithm_id as u32`
is the `UInt32` asked for.  The function never returns an error, so the
error type is left open (`Error` in the crate). -/
def AesmKeyIds.selectAlgorithmId {ε : Type} (self : AesmKeyIds) (layout : KeyIdLayout)
    (algorithmId : UInt32) : Except ε (Option (List UInt8)) :=
  .ok ((chunksExact layout.size self.keys).find? fun i => algorithmIdOf layout i == algorithmId)

/-! ## Records by index -/

/-- The `k`-th record of `keys`: the `size` bytes at offset `k * size`. -/
def keyRecord (layout : KeyIdLayout) (keys : List UInt8) (k : Nat) : List UInt8 :=
  (keys.drop (k * layout.size)).take layout.size

/-- How many whole records `keys` holds. -/
def recordCount (layout : KeyIdLayout) (keys : List UInt8) : Nat := keys.length / layout.size

theorem chunks_eq_map_range (size : Nat) (l : List UInt8) (n : Nat) :
    chunks size l n = (List.range n).map fun k => (l.drop (k * size)).take size := by
  induction n generalizing l with
  | zero => rfl
  | succ n ih =>
    rw [chunks, ih, List.range_succ_eq_map, List.map_cons, List.map_map]
    simp [Function.comp_def, Nat.succ_mul, Nat.add_comm]

theorem chunksExact_eq_map_keyRecord (layout : KeyIdLayout) (keys : List UInt8) :
    chunksExact layout.size keys = (List.range (recordCount layout keys)).map (keyRecord layout keys) :=
  chunks_eq_map_range _ _ _

section
variable (layout : KeyIdLayout) {keys : List UInt8} {k : Nat}

/-- The records before the last whole one end inside `keys`. -/
theorem succ_mul_size_le (hk : k < recordCount layout keys) :
    k * layout.size + layout.size ≤ keys.length :=
  calc k * layout.size + layout.size = (k + 1) * layout.size := (Nat.succ_mul k _).symm
    _ ≤ recordCount layout keys * layout.size := Nat.mul_le_mul_right _ hk
    _ ≤ keys.length := Nat.div_mul_le_self _ _

/-- Every record counted is whole. -/
theorem keyRecord_length (hk : k < recordCount layout keys) :
    (keyRecord layout keys k).length = layout.size := by
  have := succ_mul_size_le layout hk
  simp only [keyRecord, List.length_take, List.length_drop]
  omega

/-- The records do not reach past the last whole one. -/
theorem keyRecord_take (hk : k < recordCount layout keys) :
    keyRecord layout (keys.take (recordCount layout keys * layout.size)) k =
      keyRecord layout keys k := by
  have h : (k + 1) * layout.size ≤ recordCount layout keys * layout.size :=
    Nat.mul_le_mul_right _ hk
  rw [Nat.succ_mul] at h
  rw [keyRecord, List.drop_take, List.take_take, keyRecord]
  congr 1
  omega

theorem recordCount_take :
    recordCount layout (keys.take (recordCount layout keys * layout.size)) =
      recordCount layout keys := by
  have h := Nat.div_mul_le_self keys.length layout.size
  simp only [recordCount, List.length_take] at h ⊢
  rw [Nat.min_eq_left h, Nat.mul_div_cancel _ layout.size_pos]

end

/-! ## The first matching record -/

section
variable {ε : Type} (self : AesmKeyIds) (layout : KeyIdLayout) (algorithmId : UInt32)

theorem selectAlgorithmId_eq_find :
    self.selectAlgorithmId layout algorithmId =
      (.ok (((List.range (recordCount layout self.keys)).map (keyRecord layout self.keys)).find?
        fun i => algorithmIdOf layout i == algorithmId) : Except ε (Option (List UInt8))) := by
  rw [AesmKeyIds.selectAlgorithmId, chunksExact_eq_map_keyRecord]

/-- **`select_algorithm_id` returns the first matching whole record.**  For
every buffer and every algorithm id, the result is `Ok(Some r)` exactly when
`r` is the `k`-th whole record for some `k`, its algorithm id is the one asked
for, and no earlier record's is; it is `Ok(None)` exactly when no whole
record's algorithm id matches; and the bytes after the last whole record do
not change the result. -/
theorem selectAlgorithmId_first_match :
    (∀ r, self.selectAlgorithmId layout algorithmId = (.ok (some r) : Except ε _) ↔
      ∃ k < recordCount layout self.keys, r = keyRecord layout self.keys k ∧
        algorithmIdOf layout r = algorithmId ∧
        ∀ j < k, algorithmIdOf layout (keyRecord layout self.keys j) ≠ algorithmId) ∧
    (self.selectAlgorithmId layout algorithmId = (.ok none : Except ε _) ↔
      ∀ k < recordCount layout self.keys,
        algorithmIdOf layout (keyRecord layout self.keys k) ≠ algorithmId) ∧
    self.selectAlgorithmId layout algorithmId =
      ((AesmKeyIds.mk (self.keys.take (recordCount layout self.keys * layout.size))).selectAlgorithmId
        layout algorithmId : Except ε _) := by
  refine ⟨fun r => ?_, ?_, ?_⟩
  · rw [selectAlgorithmId_eq_find, Except.ok.injEq, List.find?_eq_some_iff_getElem]
    simp only [List.length_map, List.length_range, List.getElem_map, List.getElem_range,
      beq_iff_eq, Bool.not_eq_true', beq_eq_false_iff_ne]
    constructor
    · rintro ⟨hr, k, hk, rfl, hfirst⟩
      exact ⟨k, hk, rfl, hr, hfirst⟩
    · rintro ⟨k, hk, rfl, hr, hfirst⟩
      exact ⟨hr, k, hk, rfl, hfirst⟩
  · rw [selectAlgorithmId_eq_find, Except.ok.injEq, List.find?_eq_none]
    simp
  · rw [selectAlgorithmId_eq_find, selectAlgorithmId_eq_find, recordCount_take]
    congr 2
    exact List.map_congr_left fun k hk => (keyRecord_take layout (List.mem_range.mp hk)).symm

/-- **Only whole records are returned.**  Whatever the buffer, a record that
`select_algorithm_id` returns has exactly `size_of::<sgx_att_key_id_ext_t>()`
bytes: a trailing partial record never comes out. -/
theorem selectAlgorithmId_whole_record {r : List UInt8}
    (h : self.selectAlgorithmId layout algorithmId = (.ok (some r) : Except ε _)) :
    r.length = layout.size := by
  rw [selectAlgorithmId_eq_find, Except.ok.injEq] at h
  obtain ⟨k, hk, rfl⟩ := List.mem_map.mp (List.mem_of_find?_eq_some h)
  exact keyRecord_length layout (List.mem_range.mp hk)

end

/-- A layout of 8-byte records with the algorithm id at offset 2. -/
def eightByteLayout : KeyIdLayout := ⟨8, 2, by decide, by decide⟩

theorem selectAlgorithmId_skips_partial_record :
    (AesmKeyIds.mk [0, 0, 5, 0, 0, 0, 0, 0, 1, 2, 3]).selectAlgorithmId eightByteLayout 5 =
        (.ok (some [0, 0, 5, 0, 0, 0, 0, 0]) : Except Unit _) ∧
      [0, 0, 5, 0, 0, 0, 0, 0].length = eightByteLayout.size :=
  ⟨rfl, selectAlgorithmId_whole_record (ε := Unit) ⟨[0, 0, 5, 0, 0, 0, 0, 0, 1, 2, 3]⟩
    eightByteLayout 5 rfl⟩

end RustSgx.Aesm
