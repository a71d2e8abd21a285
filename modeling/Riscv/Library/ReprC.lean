import Mathlib.Tactic

/-!
The layout of a `#[repr(C)]` struct whose fields are arrays of one element
type: fields are laid out in declaration order with no padding between them,
since every field has the element's alignment, and a scalar field is an array
of one element. Element `i` of field `f` sits at the field's offset plus `i`
elements; the offset of a field is the size of the fields before it.

The facts a driver over such a struct relies on: every slot is aligned
(`dvd_slot`), the slots of different elements never overlap
(`slot_disjoint`), and every slot lies inside the struct
(`slot_add_le_size`). Neither needs the field names to be distinct: a
field's offset is that of its first occurrence.
-/

namespace ReprC

variable {F : Type} [DecidableEq F] (sz : Nat) (len : F → Nat)

/-- The byte offset of field `f` among the fields `fs`, each an array of
`len g` elements of `sz` bytes. -/
def offset : List F → F → Nat
  | [], _ => 0
  | g :: gs, f => if g = f then 0 else sz * len g + offset gs f

/-- `size_of` the struct. -/
def size (fs : List F) : Nat := sz * (fs.map len).sum

/-- The byte offset of element `i` of field `f`. -/
def slot (fs : List F) (f : F) (i : Nat) : Nat := offset sz len fs f + sz * i

variable {sz len}

@[simp] theorem offset_cons_self (f : F) (fs : List F) : offset sz len (f :: fs) f = 0 := by
  simp [offset]

theorem offset_cons_of_ne {f g : F} (fs : List F) (h : g ≠ f) :
    offset sz len (g :: fs) f = sz * len g + offset sz len fs f := by
  simp [offset, h]

omit [DecidableEq F] in
theorem size_cons (g : F) (fs : List F) : size sz len (g :: fs) = sz * len g + size sz len fs := by
  simp [size, Nat.mul_add]

theorem slot_cons_of_ne {f g : F} (fs : List F) (h : g ≠ f) (i : Nat) :
    slot sz len (g :: fs) f i = sz * len g + slot sz len fs f i := by
  rw [slot, slot, offset_cons_of_ne fs h, Nat.add_assoc]

/-- Element `i` of an array ends before any later element `j` starts. -/
theorem mul_add_le_mul (sz : Nat) {i j : Nat} (h : i < j) : sz * i + sz ≤ sz * j := by
  have hle := Nat.mul_le_mul_left sz (Nat.succ_le_of_lt h)
  rwa [Nat.mul_succ] at hle

/-- Every element is aligned to the element size. -/
theorem dvd_slot (fs : List F) (f : F) (i : Nat) : sz ∣ slot sz len fs f i := by
  induction fs with
  | nil => exact ⟨i, by rw [slot, offset, Nat.zero_add]⟩
  | cons g gs ih =>
      by_cases hg : g = f
      · subst hg
        exact ⟨i, by rw [slot, offset_cons_self, Nat.zero_add]⟩
      · rw [slot_cons_of_ne gs hg]
        exact Nat.dvd_add (Nat.dvd_mul_right sz _) ih

/-- Every element of a field lies inside the struct. -/
theorem slot_add_le_size {fs : List F} {f : F} {i : Nat} (hf : f ∈ fs) (hi : i < len f) :
    slot sz len fs f i + sz ≤ size sz len fs := by
  induction fs with
  | nil => cases hf
  | cons g gs ih =>
      rw [size_cons]
      by_cases hg : g = f
      · -- the field is the first one: its elements fill the first `len f` slots
        subst hg
        have hle := mul_add_le_mul sz hi
        rw [slot, offset_cons_self]
        omega
      · have hgs : f ∈ gs := (List.mem_cons.mp hf).resolve_left (Ne.symm hg)
        rw [slot_cons_of_ne gs hg]
        have := ih hgs
        omega

/-- The first field's elements come before every element of a later field. -/
theorem slot_self_add_le {f g : F} (gs : List F) (hgf : f ≠ g) {i : Nat} (hi : i < len f)
    (j : Nat) : slot sz len (f :: gs) f i + sz ≤ slot sz len (f :: gs) g j := by
  have hle := mul_add_le_mul sz hi
  rw [slot, offset_cons_self, slot_cons_of_ne gs hgf]
  omega

/-- Two different elements have disjoint slots: one ends before the other
starts. The induction is on the fields; a field met first comes before every
later one, and two elements of one field are `sz` bytes apart per index. -/
theorem slot_disjoint {fs : List F} {f g : F} {i j : Nat} (hf : f ∈ fs) (hg : g ∈ fs)
    (hi : i < len f) (hj : j < len g) (hne : f ≠ g ∨ i ≠ j) :
    slot sz len fs f i + sz ≤ slot sz len fs g j ∨
      slot sz len fs g j + sz ≤ slot sz len fs f i := by
  induction fs with
  | nil => cases hf
  | cons h hs ih =>
      by_cases hfh : h = f <;> by_cases hgh : h = g
      · -- one field: the indices differ
        subst hfh hgh
        have hij : i ≠ j := hne.resolve_left (fun h => h rfl)
        rw [slot, slot]
        rcases Nat.lt_or_gt_of_ne hij with hlt | hlt
        · exact .inl (by have := mul_add_le_mul sz hlt; omega)
        · exact .inr (by have := mul_add_le_mul sz hlt; omega)
      · subst hfh
        exact .inl (slot_self_add_le hs hgh hi j)
      · subst hgh
        exact .inr (slot_self_add_le hs hfh hj i)
      · -- both fields come later: shift the induction hypothesis by the first field
        have hfs : f ∈ hs := (List.mem_cons.mp hf).resolve_left (Ne.symm hfh)
        have hgs : g ∈ hs := (List.mem_cons.mp hg).resolve_left (Ne.symm hgh)
        rw [slot_cons_of_ne hs hfh, slot_cons_of_ne hs hgh]
        rcases ih hfs hgs with hlt | hlt
        · exact .inl (by omega)
        · exact .inr (by omega)

end ReprC
