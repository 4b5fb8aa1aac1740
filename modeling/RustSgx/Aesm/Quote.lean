import Mathlib.Data.List.Basic
import RustSgx.Aesm.Message

set_option autoImplicit false

/-!
# Aesm: quote types and the quote buffer size

Two parts of `aesm-client` compute rather than talk to the daemon.

A `QuoteType` goes to the daemon as a `u32` (lib.rs:74-101): `into` encodes
it and `QuoteType::from_u32` decodes it.

`QuoteInfo::quote_buffer_size` (lib.rs:172-188) sizes the buffer for a quote
from the length of the signature revocation list, in `u32` arithmetic.  Its
comment gives the exact signature size, `352 + 4 + 4 + entries * 160`, and
computes instead a bound that needs no parsing of the list: an `nr_proof` is
five field elements where a list entry is four, so `len * 5 / 4` covers the
proofs.  `quoteBufferSize_toNat_eq` is what the function computes for every
list, wrapping included.  `quoteBufferSize_covers_signature` shows the bound
is one for a list of any header and any number of entries of four 32-byte
field elements, as long as `len * 5` fits in a `u32`.

What happens past that point depends on the build.  `quoteBufferSize` is the
release build, where `u32` arithmetic wraps; `quoteBufferSizeChecked` is the
debug build (cargo's default profile), where an overflowing `*` or `+`
panics (`none`).  `quoteBufferSizeChecked_eq` shows the two agree exactly
while `len * 5` fits, the length cut to 32 bits by `as u32` in both.
`quoteBufferSize_wraps_below_bound` shows that past that point no build
returns a size that covers the bound's own formula: the release build wraps
below it, and the debug build panics.
-/

namespace RustSgx.Aesm

/-- `QuoteType` (lib.rs:74-80), a `#[repr(u32)]` enum. -/
inductive QuoteType where
  | unlinkable
  | linkable
  deriving DecidableEq, Repr

/-- `impl Into<u32> for QuoteType` (lib.rs:82-90). -/
def QuoteType.into : QuoteType → UInt32
  | .unlinkable => 0
  | .linkable => 1

/-- `QuoteType::from_u32` (lib.rs:92-100). -/
def QuoteType.fromU32 (v : UInt32) : Except Error QuoteType :=
  match v with
  | 0 => .ok .unlinkable
  | 1 => .ok .linkable
  | _ => .error (.invalidQuoteType v)

/-! ## The quote buffer size -/

/-- `QuoteInfo::quote_buffer_size` (lib.rs:172-188) in a release build.
`sig_rl.len() as u32` keeps the low 32 bits of the length and the arithmetic
is `u32`, wrapping as a release build's does.  The `QuoteInfo` it is called
on is not read. -/
def quoteBufferSize (sigRl : List UInt8) : UInt32 :=
  let quoteLength : UInt32 := 436 + 288 + 12 + 4 + 16
  let sigLength : UInt32 := 352 + 4 + 4 + (sigRl.length.toUInt32 * 5 / 4) + 128
  quoteLength + sigLength

/-! `u32` arithmetic read on `Nat`: each operation wraps modulo `2^32`. -/

theorem toNat_toUInt32 (n : Nat) : n.toUInt32.toNat = n % UInt32.size := rfl

theorem u32_toNat_ofNat (n : Nat) : (no_index (OfNat.ofNat n : UInt32)).toNat = n % UInt32.size :=
  rfl

theorem u32_toNat_add (x y : UInt32) : (x + y).toNat = (x.toNat + y.toNat) % UInt32.size := rfl

theorem u32_toNat_mul (x y : UInt32) : (x * y).toNat = (x.toNat * y.toNat) % UInt32.size := rfl

/-- What `quote_buffer_size` computes for every list: the length is cut to
32 bits and `len * 5` wraps; nothing after it does. -/
theorem quoteBufferSize_toNat_eq (sigRl : List UInt8) :
    (quoteBufferSize sigRl).toNat = 1244 + sigRl.length % UInt32.size * 5 % UInt32.size / 4 := by
  simp only [quoteBufferSize, u32_toNat_add, u32_toNat_mul, UInt32.toNat_div, u32_toNat_ofNat,
    toNat_toUInt32, UInt32.size, Nat.reduceMod, Nat.reduceAdd]
  have : sigRl.length % 4294967296 * 5 % 4294967296 / 4 < 1073741824 := by omega
  simp (disch := omega) only [Nat.mod_eq_of_lt]
  omega

/-- While `len * 5` fits in a `u32`, no operation wraps. -/
theorem quoteBufferSize_toNat {sigRl : List UInt8} (h : sigRl.length * 5 < UInt32.size) :
    (quoteBufferSize sigRl).toNat = 756 + (360 + sigRl.length * 5 / 4 + 128) := by
  simp only [UInt32.size] at h
  rw [quoteBufferSize_toNat_eq, UInt32.size, Nat.mod_eq_of_lt (by omega : sigRl.length < 4294967296),
    Nat.mod_eq_of_lt h]
  omega

/-- **The buffer size covers the exact quote.**  For a revocation list of any
header and any number of entries of four 32-byte field elements, the size
`quote_buffer_size` computes is at least the quote's exact size, with the
signature sized as the comment's "truly correct way" does, `352 + 4 + 4 +
entries * 160`, as long as `len * 5` fits in a `u32`. -/
theorem quoteBufferSize_covers_signature (sigRl : List UInt8) (header entries : Nat)
    (hlen : sigRl.length = header + 128 * entries) (hfit : sigRl.length * 5 < UInt32.size) :
    (436 + 288 + 12 + 4 + 16) + (352 + 4 + 4 + entries * 160) ≤ (quoteBufferSize sigRl).toNat := by
  rw [quoteBufferSize_toNat hfit, hlen]
  omega

theorem quoteBufferSize_covers_two_entries :
    (List.replicate 272 (0 : UInt8)).length = 16 + 128 * 2 ∧
      (List.replicate 272 (0 : UInt8)).length * 5 < UInt32.size ∧
      (436 + 288 + 12 + 4 + 16) + (352 + 4 + 4 + 2 * 160) ≤
        (quoteBufferSize (List.replicate 272 0)).toNat :=
  ⟨by rw [List.length_replicate], by rw [List.length_replicate]; decide,
    quoteBufferSize_covers_signature (List.replicate 272 0) 16 2 (by rw [List.length_replicate])
      (by rw [List.length_replicate]; decide)⟩

/-! ## A debug build -/

/-- `u32` `*` with overflow checks, as a debug build runs it: `none` where the
check panics. -/
def checkedMul (x y : UInt32) : Option UInt32 :=
  if x.toNat * y.toNat < UInt32.size then some (x * y) else none

/-- `u32` `+` with overflow checks, as a debug build runs it. -/
def checkedAdd (x y : UInt32) : Option UInt32 :=
  if x.toNat + y.toNat < UInt32.size then some (x + y) else none

/-- `QuoteInfo::quote_buffer_size` in a debug build: each `*` and `+` on a
value computed at run time is checked, and `none` is the panic of a failed
check.  `as u32` truncates in both builds, and the constant sums fold at
compile time. -/
def quoteBufferSizeChecked (sigRl : List UInt8) : Option UInt32 := do
  let quoteLength : UInt32 := 436 + 288 + 12 + 4 + 16
  let scaled ← checkedMul sigRl.length.toUInt32 5
  let sigLength ← checkedAdd (352 + 4 + 4) (scaled / 4) >>= (checkedAdd · 128)
  checkedAdd quoteLength sigLength

/-- The additions after `len * 5` never overflow, whatever the product: its
quarter is below `2^30`. -/
theorem checkedAdds_eq_some (scaled : UInt32) :
    (checkedAdd (352 + 4 + 4) (scaled / 4) >>= (checkedAdd · 128)) >>=
        checkedAdd (436 + 288 + 12 + 4 + 16) =
      some (436 + 288 + 12 + 4 + 16 + (352 + 4 + 4 + scaled / 4 + 128)) := by
  have hq : (scaled / 4).toNat < 1073741824 := by
    have := scaled.toNat_lt_size
    simp only [UInt32.toNat_div, u32_toNat_ofNat, UInt32.size, Nat.reduceMod] at this ⊢
    omega
  simp (disch := omega) only [checkedAdd, u32_toNat_add, u32_toNat_ofNat, UInt32.size, if_pos,
    Option.bind_eq_bind, Option.some_bind]

/-- The two builds agree exactly while `len * 5` fits in a `u32`, the length
cut to 32 bits; past it the debug build panics. -/
theorem quoteBufferSizeChecked_eq (sigRl : List UInt8) :
    quoteBufferSizeChecked sigRl =
      if sigRl.length % UInt32.size * 5 < UInt32.size then some (quoteBufferSize sigRl)
      else none := by
  have hmul : sigRl.length.toUInt32.toNat * (5 : UInt32).toNat =
      sigRl.length % UInt32.size * 5 := rfl
  rw [quoteBufferSizeChecked, checkedMul, hmul]
  split
  · exact checkedAdds_eq_some _
  · rfl

/-- **Past `u32` no build returns a size that covers the bound.**  For every
revocation list whose `len * 5` does not fit in a `u32`: in a release build
the multiplication wraps and `quote_buffer_size` returns less than the bound
its comment sets out to compute, `quote_length + 352 + 4 + 4 + len * 5 / 4 +
128`; in a debug build the multiplication panics when the length itself fits
in a `u32`, and any size a debug build does return (the length cut to 32 bits
by `as u32`) is below that bound too. -/
theorem quoteBufferSize_wraps_below_bound (sigRl : List UInt8)
    (hwrap : UInt32.size ≤ sigRl.length * 5) :
    (quoteBufferSize sigRl).toNat <
        (436 + 288 + 12 + 4 + 16) + (352 + 4 + 4 + sigRl.length * 5 / 4 + 128) ∧
      (sigRl.length < UInt32.size → quoteBufferSizeChecked sigRl = none) ∧
      ∀ size, quoteBufferSizeChecked sigRl = some size →
        size.toNat < (436 + 288 + 12 + 4 + 16) + (352 + 4 + 4 + sigRl.length * 5 / 4 + 128) := by
  have hrel : (quoteBufferSize sigRl).toNat <
      (436 + 288 + 12 + 4 + 16) + (352 + 4 + 4 + sigRl.length * 5 / 4 + 128) := by
    rw [quoteBufferSize_toNat_eq]
    simp only [UInt32.size] at hwrap ⊢
    omega
  refine ⟨hrel, fun hlen => ?_, fun size h => ?_⟩
  · rw [quoteBufferSizeChecked_eq, Nat.mod_eq_of_lt hlen, if_neg (by omega)]
  · rw [quoteBufferSizeChecked_eq] at h
    split at h
    · cases h; exact hrel
    · cases h

theorem quoteBufferSize_wraps_at_overflow :
    UInt32.size ≤ (List.replicate 858993460 (0 : UInt8)).length * 5 ∧
      (quoteBufferSize (List.replicate 858993460 0)).toNat <
          (436 + 288 + 12 + 4 + 16) +
            (352 + 4 + 4 + (List.replicate 858993460 (0 : UInt8)).length * 5 / 4 + 128) ∧
        quoteBufferSizeChecked (List.replicate 858993460 0) = none :=
  have h := quoteBufferSize_wraps_below_bound (List.replicate 858993460 0)
    (by rw [List.length_replicate]; decide)
  ⟨by rw [List.length_replicate]; decide, h.1, h.2.1 (by rw [List.length_replicate]; decide)⟩

end RustSgx.Aesm
