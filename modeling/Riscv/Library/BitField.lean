import Riscv.Library.BitVecField

/-!
The `BitField` trait of the `bit_field` crate, on words of every width. The
crate is a dependency whose source is not part of this development, so its three
operations are data here, and `BitField.Lawful` collects what the crate
documents for them on arguments it accepts: bit `i` counts from the least
significant bit, a range is non-empty and lies inside the word, `get_bits`
shifts the range down to bit 0, and `set_bits` replaces exactly the range and
panics when the value has a set bit above the range's length.

Every theorem about a register that reads or writes through the crate takes a
`BitField` and its `Lawful` proof. `BitField.documented` is one lawful
instance; it is used only to instantiate those theorems at concrete inputs.
-/

/-- A range argument of the crate: `lo..hi` or `lo..=hi`. -/
inductive BitRange where
  | exclusive (lo hi : Nat)
  | inclusive (lo hi : Nat)
  deriving DecidableEq, Repr

namespace BitRange

/-- The first bit of the range. -/
def start : BitRange → Nat
  | exclusive lo _ => lo
  | inclusive lo _ => lo

/-- One past the last bit of the range. -/
def stop : BitRange → Nat
  | exclusive _ hi => hi
  | inclusive _ hi => hi + 1

/-- The number of bits in the range. -/
def len (r : BitRange) : Nat := r.stop - r.start

/-- The crate accepts a range of a `w`-bit word when it is non-empty and ends
inside the word. -/
def Valid (r : BitRange) (w : Nat) : Prop := r.start < r.stop ∧ r.stop ≤ w

instance (r : BitRange) (w : Nat) : Decidable (r.Valid w) :=
  inferInstanceAs (Decidable (_ ∧ _))

@[simp] theorem start_exclusive (lo hi : Nat) : (exclusive lo hi).start = lo := rfl
@[simp] theorem start_inclusive (lo hi : Nat) : (inclusive lo hi).start = lo := rfl
@[simp] theorem stop_exclusive (lo hi : Nat) : (exclusive lo hi).stop = hi := rfl
@[simp] theorem stop_inclusive (lo hi : Nat) : (inclusive lo hi).stop = hi + 1 := rfl
@[simp] theorem len_exclusive (lo hi : Nat) : (exclusive lo hi).len = hi - lo := rfl
@[simp] theorem len_inclusive (lo hi : Nat) : (inclusive lo hi).len = hi + 1 - lo := rfl

theorem Valid.start_add_len {r : BitRange} {w : Nat} (h : r.Valid w) :
    r.start + r.len ≤ w := by
  unfold len
  have := h.1
  have := h.2
  omega

end BitRange

/-- The operations of the crate's `BitField` trait. `setBits` returns `none`
where the crate panics. -/
structure BitField where
  getBit : {w : Nat} → BitVec w → Nat → Bool
  getBits : {w : Nat} → BitVec w → BitRange → BitVec w
  setBits : {w : Nat} → BitVec w → BitRange → BitVec w → Option (BitVec w)

namespace BitField

/-- The crate's documented behaviour on the arguments it accepts. -/
structure Lawful (bf : BitField) : Prop where
  getBit_eq : ∀ {w : Nat} (x : BitVec w) (i : Nat), i < w → bf.getBit x i = x.getLsbD i
  getBits_eq : ∀ {w : Nat} (x : BitVec w) (r : BitRange), r.Valid w →
    bf.getBits x r = x.field r.start r.len
  setBits_eq : ∀ {w : Nat} (x : BitVec w) (r : BitRange) (v : BitVec w), r.Valid w →
    bf.setBits x r v =
      if v.toNat < 2 ^ r.len then some (x.replaceField r.start r.len v) else none

/-- The operations exactly as documented, with the crate's panics as `none`
also on ranges it rejects. -/
def documented : BitField where
  getBit x i := x.getLsbD i
  getBits x r := x.field r.start r.len
  setBits {w} x r v :=
    if r.Valid w ∧ v.toNat < 2 ^ r.len then some (x.replaceField r.start r.len v) else none

theorem documented_lawful : documented.Lawful where
  getBit_eq _ _ _ := rfl
  getBits_eq _ _ _ := rfl
  setBits_eq x r v hr := by
    simp [documented, hr]

variable {bf : BitField}

/-- A value that fits its range is written into exactly that range. -/
theorem Lawful.setBits_of_lt (hbf : bf.Lawful) {w : Nat} (x : BitVec w) {r : BitRange}
    (v : BitVec w) (hr : r.Valid w) (hv : v.toNat < 2 ^ r.len) :
    bf.setBits x r v = some (x.replaceField r.start r.len v) := by
  rw [hbf.setBits_eq x r v hr, if_pos hv]

/-- `set_bits` on an exclusive range with a value that fits. -/
theorem Lawful.setBits_exclusive (hbf : bf.Lawful) {w : Nat} (x v : BitVec w) {lo hi : Nat}
    (hr : lo < hi ∧ hi ≤ w) (hv : v.toNat < 2 ^ (hi - lo)) :
    bf.setBits x (.exclusive lo hi) v = some (x.replaceField lo (hi - lo) v) :=
  hbf.setBits_of_lt x v hr hv

/-- `get_bits` on an exclusive range. -/
theorem Lawful.getBits_exclusive (hbf : bf.Lawful) {w : Nat} (x : BitVec w) {lo hi : Nat}
    (hr : lo < hi ∧ hi ≤ w) : bf.getBits x (.exclusive lo hi) = x.field lo (hi - lo) :=
  hbf.getBits_eq x _ hr

/-- A value with a set bit above the range's length makes `set_bits` panic. -/
theorem Lawful.setBits_of_le (hbf : bf.Lawful) {w : Nat} (x : BitVec w) {r : BitRange}
    (v : BitVec w) (hr : r.Valid w) (hv : 2 ^ r.len ≤ v.toNat) :
    bf.setBits x r v = none := by
  rw [hbf.setBits_eq x r v hr, if_neg (by omega)]

/-- `set_bits` either panics or returns the replaced word. -/
theorem Lawful.setBits_eq_some (hbf : bf.Lawful) {w : Nat} {x : BitVec w} {r : BitRange}
    {v y : BitVec w} (hr : r.Valid w) (h : bf.setBits x r v = some y) :
    v.toNat < 2 ^ r.len ∧ y = x.replaceField r.start r.len v := by
  rw [hbf.setBits_eq x r v hr] at h
  split at h
  · exact ⟨by assumption, (Option.some.inj h).symm⟩
  · cases h

/-- What `set_bits` writes into a range, `get_bits` reads back. -/
theorem Lawful.getBits_of_setBits (hbf : bf.Lawful) {w : Nat} {x y v : BitVec w}
    {r : BitRange} (hr : r.Valid w) (h : bf.setBits x r v = some y) :
    bf.getBits y r = v := by
  obtain ⟨hv, rfl⟩ := hbf.setBits_eq_some hr h
  rw [hbf.getBits_eq _ r hr, BitVec.field_replaceField_self x v hr.start_add_len,
    BitVec.field_zero_of_lt hv]

/-- `set_bits` leaves every bit outside its range as it was. -/
theorem Lawful.getLsbD_of_setBits (hbf : bf.Lawful) {w : Nat} {x y v : BitVec w}
    {r : BitRange} (hr : r.Valid w) (h : bf.setBits x r v = some y) {i : Nat}
    (hi : i < r.start ∨ r.stop ≤ i) : y.getLsbD i = x.getLsbD i := by
  obtain ⟨-, rfl⟩ := hbf.setBits_eq_some hr h
  apply BitVec.getLsbD_replaceField_of_not_mem
  unfold BitRange.len
  have := hr.1
  omega

/-- A getter built on `get_bit` reads its one bit only. -/
theorem Lawful.readsOnly_getBit (hbf : bf.Lawful) {w i : Nat} (hi : i < w) :
    BitVec.ReadsOnly (w := w) (bf.getBit · i) (· = i) := by
  intro x y h
  dsimp only
  rw [hbf.getBit_eq x i hi, hbf.getBit_eq y i hi]
  exact h i rfl

/-- A getter built on `get_bits` reads its range only. -/
theorem Lawful.readsOnly_getBits (hbf : bf.Lawful) {w : Nat} {r : BitRange}
    (hr : r.Valid w) :
    BitVec.ReadsOnly (w := w) (bf.getBits · r) (fun i => r.start ≤ i ∧ i < r.stop) := by
  intro x y h
  dsimp only
  rw [hbf.getBits_eq x r hr, hbf.getBits_eq y r hr]
  apply BitVec.readsOnly_field
  intro i hi
  have hstop : r.start + r.len = r.stop := by
    unfold BitRange.len
    have := hr.1
    omega
  exact h i ⟨hi.1, hstop ▸ hi.2⟩

end BitField
