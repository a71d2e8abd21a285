import Riscv.Register.Csr

/-!
The counter-enable registers `mcounteren` and `scounteren`
(`register/mcounteren.rs`, `register/scounteren.rs`), and `mseccfg`
(`register/mseccfg.rs`).

The two counter-enable registers have the same code: bit `k` enables counter
`k`, `cy`, `tm` and `ir` are bits 0 to 2 with `set_clear_csr!` helpers, and
`hpm(index)`, `set_hpm(index)` and `clear_hpm(index)` take the counter at run
time behind `assert!(3 <= index && index < 32)`. The indexed functions are
written once in `Counteren` and each register applies them to its own word.
A failed assert is `none`.
-/

namespace Riscv

namespace Counteren

variable {x : Xlen} (bf : BitField)

/-- `hpm(index)` on the register's word. -/
def hpm (bits : Usize x) (index : Nat) : Option Bool :=
  if 3 ≤ index ∧ index < 32 then some (bf.getBit bits index) else none

/-- `set_hpm(index)`: `_set(1 << index)` after the assert. -/
def setHpm (index : Nat) (value : Usize x) : Option (Usize x) :=
  if 3 ≤ index ∧ index < 32 then some (Csr.set (1 <<< index) value) else none

/-- `clear_hpm(index)`: `_clear(1 << index)` after the assert. -/
def clearHpm (index : Nat) (value : Usize x) : Option (Usize x) :=
  if 3 ≤ index ∧ index < 32 then some (Csr.clear (1 <<< index) value) else none

end Counteren

/-- mcounteren register -/
structure Mcounteren (x : Xlen) where
  bits : Usize x

namespace Mcounteren

variable {x : Xlen} (bf : BitField)

def cy (r : Mcounteren x) : Bool := bf.getBit r.bits 0

def tm (r : Mcounteren x) : Bool := bf.getBit r.bits 1

def ir (r : Mcounteren x) : Bool := bf.getBit r.bits 2

def hpm (r : Mcounteren x) (index : Nat) : Option Bool := Counteren.hpm bf r.bits index

def read (value : Usize x) : Mcounteren x := ⟨value⟩

def setCy : Usize x → Usize x := Csr.set (1 <<< 0)
def clearCy : Usize x → Usize x := Csr.clear (1 <<< 0)
def setTm : Usize x → Usize x := Csr.set (1 <<< 1)
def clearTm : Usize x → Usize x := Csr.clear (1 <<< 1)
def setIr : Usize x → Usize x := Csr.set (1 <<< 2)
def clearIr : Usize x → Usize x := Csr.clear (1 <<< 2)

def setHpm : Nat → Usize x → Option (Usize x) := Counteren.setHpm
def clearHpm : Nat → Usize x → Option (Usize x) := Counteren.clearHpm

end Mcounteren

/-- scounteren register -/
structure Scounteren (x : Xlen) where
  bits : Usize x

namespace Scounteren

variable {x : Xlen} (bf : BitField)

def cy (r : Scounteren x) : Bool := bf.getBit r.bits 0

def tm (r : Scounteren x) : Bool := bf.getBit r.bits 1

def ir (r : Scounteren x) : Bool := bf.getBit r.bits 2

def hpm (r : Scounteren x) (index : Nat) : Option Bool := Counteren.hpm bf r.bits index

def read (value : Usize x) : Scounteren x := ⟨value⟩

def setCy : Usize x → Usize x := Csr.set (1 <<< 0)
def clearCy : Usize x → Usize x := Csr.clear (1 <<< 0)
def setTm : Usize x → Usize x := Csr.set (1 <<< 1)
def clearTm : Usize x → Usize x := Csr.clear (1 <<< 1)
def setIr : Usize x → Usize x := Csr.set (1 <<< 2)
def clearIr : Usize x → Usize x := Csr.clear (1 <<< 2)

def setHpm : Nat → Usize x → Option (Usize x) := Counteren.setHpm
def clearHpm : Nat → Usize x → Option (Usize x) := Counteren.clearHpm

end Scounteren

namespace Counteren

variable {x : Xlen} {bf : BitField}

/-- Counter `k`'s enable at bit `k`. -/
def layout (x : Xlen) : FlagLayout (Fin 32) x.bits :=
  ⟨Fin.val, Fin.val_injective, fun k => lt_of_lt_of_le k.isLt x.le_bits⟩

/-- `set_hpm` is the assert and then the write of counter `index`. -/
theorem setHpm_eq (index : Nat) (value : Usize x) :
    setHpm index value =
      if h : 3 ≤ index ∧ index < 32 then some ((layout x).write ⟨index, h.2⟩ true value)
      else none := by
  unfold setHpm
  by_cases h : 3 ≤ index ∧ index < 32
  · rw [if_pos h, dif_pos h]
    exact congrArg some (Csr.writes_set (layout x) ⟨index, h.2⟩ rfl value)
  · rw [if_neg h, dif_neg h]

theorem clearHpm_eq (index : Nat) (value : Usize x) :
    clearHpm index value =
      if h : 3 ≤ index ∧ index < 32 then some ((layout x).write ⟨index, h.2⟩ false value)
      else none := by
  unfold clearHpm
  by_cases h : 3 ≤ index ∧ index < 32
  · rw [if_pos h, dif_pos h]
    exact congrArg some (Csr.writes_clear (layout x) ⟨index, h.2⟩ rfl value)
  · rw [if_neg h, dif_neg h]

/-- `hpm(index)` is the assert and then the read of counter `index`. -/
theorem hpm_eq (hbf : bf.Lawful) (bits : Usize x) (index : Nat) :
    hpm bf bits index =
      if h : 3 ≤ index ∧ index < 32 then some ((layout x).get bits ⟨index, h.2⟩) else none := by
  unfold hpm
  by_cases h : 3 ≤ index ∧ index < 32
  · rw [if_pos h, dif_pos h, hbf.getBit_eq bits index (lt_of_lt_of_le h.2 x.le_bits)]
    rfl
  · rw [if_neg h, dif_neg h]

/-- After a write of counter `k`, `hpm(j)` returns the value written when
`j = k` and otherwise what it returned before; an index the assert rejects
still panics. -/
theorem hpm_write (hbf : bf.Lawful) (k : Fin 32) (b : Bool) (bits : Usize x) (j : Nat) :
    hpm bf ((layout x).write k b bits) j =
      if k.val = j ∧ 3 ≤ j then some b else hpm bf bits j := by
  rw [hpm_eq hbf, hpm_eq hbf]
  by_cases hj : 3 ≤ j ∧ j < 32
  · rw [dif_pos hj, dif_pos hj, FlagLayout.get_write]
    by_cases hkj : k.val = j
    · have hk : k = ⟨j, hj.2⟩ := Fin.ext hkj
      rw [if_pos hk, if_pos ⟨hkj, hj.1⟩]
    · have hk : k ≠ ⟨j, hj.2⟩ := fun h => hkj (congrArg Fin.val h)
      rw [if_neg hk, if_neg fun h => hkj h.1]
  · -- `k < 32`, so an index the assert rejects is never `k`'s
    rw [dif_neg hj, dif_neg hj, if_neg fun (h : k.val = j ∧ 3 ≤ j) => hj ⟨h.2, h.1 ▸ k.isLt⟩]

/-- The getters `cy`, `tm`, `ir` as reads of counters 0 to 2. -/
theorem getBit_eq_get (hbf : bf.Lawful) (k : Fin 32) (bits : Usize x) :
    bf.getBit bits k.val = (layout x).get bits k :=
  hbf.getBit_eq _ _ ((layout x).bit_lt k)

/-- A helper of one of the counters below 3 leaves every `hpm(j)` as it was. -/
theorem hpm_of_writes (hbf : bf.Lawful) {h : Usize x → Usize x} {k : Fin 32} {b : Bool}
    (hw : (layout x).Writes h k b) (hk : k.val < 3) (v : Usize x) (j : Nat) :
    hpm bf (h v) j = hpm bf v j := by
  rw [hw v, hpm_write hbf, if_neg]
  rintro ⟨rfl, hj⟩
  omega

/-- `set_hpm(i)` and `clear_hpm(i)` panic exactly when the assert fails;
otherwise `hpm(i)` then returns the value written, while `hpm(j)` for every
other `j` and the bits of `cy`, `tm`, `ir` are as they were. -/
theorem hpm_helpers (hbf : bf.Lawful) (i : Nat) (b : Bool) (v : Usize x) :
    ((if b then setHpm i v else clearHpm i v) = none ↔ ¬ (3 ≤ i ∧ i < 32)) ∧
    ∀ v', (if b then setHpm i v else clearHpm i v) = some v' →
      (∀ j, hpm bf v' j = if i = j then some b else hpm bf v j) ∧
      ∀ k < 3, bf.getBit v' k = bf.getBit v k := by
  -- both helpers are the assert followed by `write` of counter `i`
  have hwrite : (if b then setHpm i v else clearHpm i v) =
      if h : 3 ≤ i ∧ i < 32 then some ((layout x).write ⟨i, h.2⟩ b v) else none := by
    cases b
    · exact clearHpm_eq i v
    · exact setHpm_eq i v
  rw [hwrite]
  by_cases hi : 3 ≤ i ∧ i < 32
  · rw [dif_pos hi]
    refine ⟨⟨fun h => (nomatch h), fun h => absurd hi h⟩, ?_⟩
    rintro v' ⟨⟩
    refine ⟨fun j => ?_, fun k hk => ?_⟩
    · rw [hpm_write hbf]
      by_cases hij : i = j
      · subst hij
        rw [if_pos ⟨rfl, hi.1⟩, if_pos rfl]
      · rw [if_neg fun h => hij h.1, if_neg hij]
    · -- the fixed counters sit below 3, so `write` of counter `i` misses them
      have hne : (⟨i, hi.2⟩ : Fin 32) ≠ ⟨k, by omega⟩ := fun h => by
        have := congrArg Fin.val h
        simp only at this
        omega
      rw [getBit_eq_get hbf ⟨k, by omega⟩, getBit_eq_get hbf ⟨k, by omega⟩,
        FlagLayout.get_write, if_neg hne]
  · rw [dif_neg hi]
    exact ⟨⟨fun _ => hi, fun _ => rfl⟩, fun v' h => nomatch h⟩

end Counteren

namespace Mcounteren

def interface {x : Xlen} (bf : BitField) : FlagLayout.Interface (Fin 32) x.bits where
  get
    | 0 => some fun v => (read v).cy bf
    | 1 => some fun v => (read v).tm bf
    | 2 => some fun v => (read v).ir bf
    | _ => none
  write
    | 0, true => some setCy
    | 0, false => some clearCy
    | 1, true => some setTm
    | 1, false => some clearTm
    | 2, true => some setIr
    | 2, false => some clearIr
    | _, _ => none

end Mcounteren

namespace Scounteren

def interface {x : Xlen} (bf : BitField) : FlagLayout.Interface (Fin 32) x.bits where
  get
    | 0 => some fun v => (read v).cy bf
    | 1 => some fun v => (read v).tm bf
    | 2 => some fun v => (read v).ir bf
    | _ => none
  write
    | 0, true => some setCy
    | 0, false => some clearCy
    | 1, true => some setTm
    | 1, false => some clearTm
    | 2, true => some setIr
    | 2, false => some clearIr
    | _, _ => none

end Scounteren

section Counteren

variable {x : Xlen} {bf : BitField}

open Counteren

/-- The fixed helpers write counters below 3 only. -/
theorem Mcounteren.write_lt {k : Fin 32} {b : Bool} {h : Usize x → Usize x}
    (hh : (Mcounteren.interface bf).write k b = some h) : k.val < 3 := by
  match k, b, hh with
  | 0, _, _ => decide
  | 1, _, _ => decide
  | 2, _, _ => decide

theorem Mcounteren.interface_agrees (hbf : bf.Lawful) :
    (layout x).Agrees (Mcounteren.interface bf) := by
  apply Csr.agrees_of_masks _ hbf
  · intro k g hg
    match k, hg with
    | 0, rfl | 1, rfl | 2, rfl => rfl
  · intro k b h hh
    match k, b, hh with
    | 0, true, rfl | 0, false, rfl | 1, true, rfl | 1, false, rfl | 2, true, rfl
    | 2, false, rfl => rfl

/-- Scounteren's getters and helpers are mcounteren's, word for word. -/
theorem Scounteren.interface_eq : Scounteren.interface (x := x) bf = Mcounteren.interface bf :=
  rfl

theorem Scounteren.write_lt {k : Fin 32} {b : Bool} {h : Usize x → Usize x}
    (hh : (Scounteren.interface bf).write k b = some h) : k.val < 3 :=
  Mcounteren.write_lt (Scounteren.interface_eq ▸ hh)

theorem Scounteren.interface_agrees (hbf : bf.Lawful) :
    (layout x).Agrees (Scounteren.interface bf) :=
  Scounteren.interface_eq ▸ Mcounteren.interface_agrees hbf

/-- What both counter-enable registers do, stated once over their shared code:
the indexed helpers by `hpm_helpers`, and the fixed helpers of any interface
that agrees with the layout and writes counters below 3 only. -/
theorem Counteren.fixed_helpers (hbf : bf.Lawful) {I : FlagLayout.Interface (Fin 32) x.bits}
    (hI : (layout x).Agrees I) (hlt : ∀ k b h, I.write k b = some h → k.val < 3) :
    (∀ (i : Nat) (b : Bool) (v : Usize x),
      ((if b then setHpm i v else clearHpm i v) = none ↔ ¬ (3 ≤ i ∧ i < 32)) ∧
      ∀ v', (if b then setHpm i v else clearHpm i v) = some v' →
        (∀ j, hpm bf v' j = if i = j then some b else hpm bf v j) ∧
        bf.getBit v' 0 = bf.getBit v 0 ∧ bf.getBit v' 1 = bf.getBit v 1 ∧
        bf.getBit v' 2 = bf.getBit v 2) ∧
    ∀ (k k' : Fin 32) (b : Bool) h g, I.write k b = some h → I.get k' = some g → ∀ v,
      g (h v) = (if k = k' then b else g v) ∧ ∀ j, hpm bf (h v) j = hpm bf v j := by
  refine ⟨fun i b v => ?_, fun k k' b h g hh hg v => ?_⟩
  · obtain ⟨hnone, hsome⟩ := hpm_helpers hbf i b v
    refine ⟨hnone, fun v' hv' => ?_⟩
    obtain ⟨hpm', hlow⟩ := hsome v' hv'
    exact ⟨hpm', hlow 0 (by decide), hlow 1 (by decide), hlow 2 (by decide)⟩
  · exact ⟨hI.frame hh hg v, hpm_of_writes hbf (hI.2 k b h hh) (hlt k b h hh) v⟩

/-- `mcounteren`: `set_hpm(i)`/`clear_hpm(i)` panic exactly when the assert
fails and otherwise change `hpm(i)` only; each of `set_cy`, `clear_cy`,
`set_tm`, `clear_tm`, `set_ir`, `clear_ir` changes its own getter only and
leaves every `hpm(j)`. -/
theorem mcounteren_helpers (hbf : bf.Lawful) :
    (∀ (i : Nat) (b : Bool) (v : Usize x),
      ((if b then Mcounteren.setHpm i v else Mcounteren.clearHpm i v) = none ↔
          ¬ (3 ≤ i ∧ i < 32)) ∧
      ∀ v', (if b then Mcounteren.setHpm i v else Mcounteren.clearHpm i v) = some v' →
        (∀ j, (Mcounteren.read v').hpm bf j =
            if i = j then some b else (Mcounteren.read v).hpm bf j) ∧
        (Mcounteren.read v').cy bf = (Mcounteren.read v).cy bf ∧
        (Mcounteren.read v').tm bf = (Mcounteren.read v).tm bf ∧
        (Mcounteren.read v').ir bf = (Mcounteren.read v).ir bf) ∧
    ∀ (k k' : Fin 32) (b : Bool) h g, (Mcounteren.interface (x := x) bf).write k b = some h →
      (Mcounteren.interface bf).get k' = some g → ∀ v,
        g (h v) = (if k = k' then b else g v) ∧
        ∀ j, (Mcounteren.read (h v)).hpm bf j = (Mcounteren.read v).hpm bf j := by
  exact fixed_helpers hbf (Mcounteren.interface_agrees hbf) fun _ _ _ => Mcounteren.write_lt

theorem mcounteren_helpers_documented :
    BitField.documented.Lawful ∧
    (∀ (i : Nat) (b : Bool) (v : Usize .rv64),
      ((if b then Mcounteren.setHpm i v else Mcounteren.clearHpm i v) = none ↔
          ¬ (3 ≤ i ∧ i < 32)) ∧
      ∀ v', (if b then Mcounteren.setHpm i v else Mcounteren.clearHpm i v) = some v' →
        (∀ j, (Mcounteren.read v').hpm .documented j =
            if i = j then some b else (Mcounteren.read v).hpm .documented j) ∧
        (Mcounteren.read v').cy .documented = (Mcounteren.read v).cy .documented ∧
        (Mcounteren.read v').tm .documented = (Mcounteren.read v).tm .documented ∧
        (Mcounteren.read v').ir .documented = (Mcounteren.read v).ir .documented) ∧
    ∀ (k k' : Fin 32) (b : Bool) h g,
      (Mcounteren.interface (x := .rv64) .documented).write k b = some h →
      (Mcounteren.interface .documented).get k' = some g → ∀ v,
        g (h v) = (if k = k' then b else g v) ∧
        ∀ j, (Mcounteren.read (h v)).hpm .documented j = (Mcounteren.read v).hpm .documented j :=
  ⟨BitField.documented_lawful, mcounteren_helpers BitField.documented_lawful⟩

/-- `scounteren` has the same code as `mcounteren`, and the same behaviour. -/
theorem scounteren_helpers (hbf : bf.Lawful) :
    (∀ (i : Nat) (b : Bool) (v : Usize x),
      ((if b then Scounteren.setHpm i v else Scounteren.clearHpm i v) = none ↔
          ¬ (3 ≤ i ∧ i < 32)) ∧
      ∀ v', (if b then Scounteren.setHpm i v else Scounteren.clearHpm i v) = some v' →
        (∀ j, (Scounteren.read v').hpm bf j =
            if i = j then some b else (Scounteren.read v).hpm bf j) ∧
        (Scounteren.read v').cy bf = (Scounteren.read v).cy bf ∧
        (Scounteren.read v').tm bf = (Scounteren.read v).tm bf ∧
        (Scounteren.read v').ir bf = (Scounteren.read v).ir bf) ∧
    ∀ (k k' : Fin 32) (b : Bool) h g, (Scounteren.interface (x := x) bf).write k b = some h →
      (Scounteren.interface bf).get k' = some g → ∀ v,
        g (h v) = (if k = k' then b else g v) ∧
        ∀ j, (Scounteren.read (h v)).hpm bf j = (Scounteren.read v).hpm bf j := by
  -- the same code as mcounteren's, so the same shared statement
  exact fixed_helpers hbf (Scounteren.interface_agrees hbf) fun _ _ _ => Scounteren.write_lt

theorem scounteren_helpers_documented :
    BitField.documented.Lawful ∧
    (∀ (i : Nat) (b : Bool) (v : Usize .rv64),
      ((if b then Scounteren.setHpm i v else Scounteren.clearHpm i v) = none ↔
          ¬ (3 ≤ i ∧ i < 32)) ∧
      ∀ v', (if b then Scounteren.setHpm i v else Scounteren.clearHpm i v) = some v' →
        (∀ j, (Scounteren.read v').hpm .documented j =
            if i = j then some b else (Scounteren.read v).hpm .documented j) ∧
        (Scounteren.read v').cy .documented = (Scounteren.read v).cy .documented ∧
        (Scounteren.read v').tm .documented = (Scounteren.read v).tm .documented ∧
        (Scounteren.read v').ir .documented = (Scounteren.read v).ir .documented) ∧
    ∀ (k k' : Fin 32) (b : Bool) h g,
      (Scounteren.interface (x := .rv64) .documented).write k b = some h →
      (Scounteren.interface .documented).get k' = some g → ∀ v,
        g (h v) = (if k = k' then b else g v) ∧
        ∀ j, (Scounteren.read (h v)).hpm .documented j = (Scounteren.read v).hpm .documented j :=
  ⟨BitField.documented_lawful, scounteren_helpers BitField.documented_lawful⟩

end Counteren

/-- mseccfg register -/
structure Mseccfg (x : Xlen) where
  bits : Usize x

namespace Mseccfg

variable {x : Xlen} (bf : BitField)

/-- Rule Locking Bypass -/
def rlb (r : Mseccfg x) : Bool := bf.getBit r.bits 2

/-- Machine Mode Whitelist Policy -/
def mmwp (r : Mseccfg x) : Bool := bf.getBit r.bits 1

/-- Machine Mode Lockdown -/
def mml (r : Mseccfg x) : Bool := bf.getBit r.bits 0

def read (value : Usize x) : Mseccfg x := ⟨value⟩

def setRlb : Usize x → Usize x := Csr.set (1 <<< 2)
def clearRlb : Usize x → Usize x := Csr.clear (1 <<< 2)
def setMmwp : Usize x → Usize x := Csr.set (1 <<< 1)
def clearMmwp : Usize x → Usize x := Csr.clear (1 <<< 1)
def setMml : Usize x → Usize x := Csr.set (1 <<< 0)
def clearMml : Usize x → Usize x := Csr.clear (1 <<< 0)

inductive Flag where
  | rlb
  | mmwp
  | mml
  deriving DecidableEq, Repr

def Flag.bit : Flag → Nat
  | rlb => 2
  | mmwp => 1
  | mml => 0

theorem Flag.bit_injective : Function.Injective Flag.bit := by
  intro f g h
  cases f <;> cases g <;> first | rfl | cases h

def Flag.layout (x : Xlen) : FlagLayout Flag x.bits :=
  ⟨Flag.bit, Flag.bit_injective,
    fun f => lt_of_lt_of_le (by cases f <;> decide) x.le_bits⟩

def interface : FlagLayout.Interface Flag x.bits where
  get
    | .rlb => some fun v => (read v).rlb bf
    | .mmwp => some fun v => (read v).mmwp bf
    | .mml => some fun v => (read v).mml bf
  write
    | .rlb, true => some setRlb
    | .rlb, false => some clearRlb
    | .mmwp, true => some setMmwp
    | .mmwp, false => some clearMmwp
    | .mml, true => some setMml
    | .mml, false => some clearMml

variable {bf}

theorem interface_agrees (hbf : bf.Lawful) : (Flag.layout x).Agrees (interface bf) := by
  apply Csr.agrees_of_masks _ hbf
  · intro f g hg
    cases f <;> cases hg <;> rfl
  · intro f b h hh
    cases f <;> cases b <;> cases hh <;> rfl

/-- Each of `set_rlb`, `clear_rlb`, `set_mmwp`, `clear_mmwp`, `set_mml`,
`clear_mml` makes its own getter return the value written and leaves the
other two getters unchanged. -/
theorem mseccfg_helpers (hbf : bf.Lawful) :
    ∀ (f f' : Flag) (b : Bool) h g, (interface (x := x) bf).write f b = some h →
      (interface bf).get f' = some g → ∀ v, g (h v) = if f = f' then b else g v := by
  intro f f' b h g hh hg v
  exact (interface_agrees hbf).frame hh hg v

theorem mseccfg_helpers_documented :
    BitField.documented.Lawful ∧
    ∀ (f f' : Flag) (b : Bool) h g, (interface (x := .rv32) .documented).write f b = some h →
      (interface .documented).get f' = some g → ∀ v, g (h v) = if f = f' then b else g v :=
  ⟨BitField.documented_lawful, mseccfg_helpers BitField.documented_lawful⟩

end Mseccfg

end Riscv
