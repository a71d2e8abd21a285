import Riscv.Register.Csr

/-!
The supervisor cause register `scause` (`register/scause.rs`). The top bit of
the word says whether the trap was an interrupt, and the rest is the cause
code. Three tables meet here: `Interrupt::from` and `Exception::from` decode a
code, and `scause::set` encodes a cause with a `match` of its own, panicking
on `Unknown`. `Trap` is the crate's enum, generic over the two enums so that
the other cause registers can share it.

The round trip holds in both directions: every known cause is written and read
back, and every word that decodes to a known cause is what `set` writes for it.
-/

namespace Riscv

/-- Trap Cause -/
inductive Trap (I E : Type) where
  | interrupt (i : I)
  | exception (e : E)
  deriving DecidableEq, Repr

/-- scause register -/
structure Scause (x : Xlen) where
  bits : Usize x

namespace Scause

inductive Interrupt where
  | userSoft
  | supervisorSoft
  | userTimer
  | supervisorTimer
  | userExternal
  | supervisorExternal
  | unknown
  deriving DecidableEq, Repr

inductive Exception where
  | instructionMisaligned
  | instructionFault
  | illegalInstruction
  | breakpoint
  | loadFault
  | storeMisaligned
  | storeFault
  | userEnvCall
  | instructionPageFault
  | loadPageFault
  | storePageFault
  | unknown
  deriving DecidableEq, Repr

def Interrupt.from (nr : Nat) : Interrupt :=
  match nr with
  | 0 => userSoft
  | 1 => supervisorSoft
  | 4 => userTimer
  | 5 => supervisorTimer
  | 8 => userExternal
  | 9 => supervisorExternal
  | _ => unknown

def Exception.from (nr : Nat) : Exception :=
  match nr with
  | 0 => instructionMisaligned
  | 1 => instructionFault
  | 2 => illegalInstruction
  | 3 => breakpoint
  | 5 => loadFault
  | 6 => storeMisaligned
  | 7 => storeFault
  | 8 => userEnvCall
  | 12 => instructionPageFault
  | 13 => loadPageFault
  | 15 => storePageFault
  | _ => unknown

/-- The interrupt `match` inside `scause::set`; `none` is its `panic!`. -/
def Interrupt.nr : Interrupt → Option Nat
  | userSoft => some 0
  | supervisorSoft => some 1
  | userTimer => some 4
  | supervisorTimer => some 5
  | userExternal => some 8
  | supervisorExternal => some 9
  | unknown => none

/-- The exception `match` inside `scause::set`; `none` is its `panic!`. -/
def Exception.nr : Exception → Option Nat
  | instructionMisaligned => some 0
  | instructionFault => some 1
  | illegalInstruction => some 2
  | breakpoint => some 3
  | loadFault => some 5
  | storeMisaligned => some 6
  | storeFault => some 7
  | userEnvCall => some 8
  | instructionPageFault => some 12
  | loadPageFault => some 13
  | storePageFault => some 15
  | unknown => none

variable {x : Xlen} (bf : BitField)

/-- Returns the code field -/
def code (r : Scause x) : Usize x :=
  let bit : Usize x := (1 : Usize x) <<< (x.bits - 1)
  r.bits &&& ~~~bit

/-- Is trap cause an interrupt. -/
def isInterrupt (r : Scause x) : Bool := bf.getBit r.bits (x.bits - 1)

/-- Is trap cause an exception. -/
def isException (r : Scause x) : Bool := !r.isInterrupt bf

/-- Trap Cause -/
def cause (r : Scause x) : Trap Interrupt Exception :=
  if r.isInterrupt bf then
    .interrupt (Interrupt.from r.code.toNat)
  else
    .exception (Exception.from r.code.toNat)

/-- `scause::set`: the word written, or `none` where it panics. -/
def set : Trap Interrupt Exception → Option (Usize x)
  | .interrupt i => i.nr.map fun nr => BitVec.ofNat x.bits nr ||| (1 : Usize x) <<< (x.bits - 1)
  | .exception e => e.nr.map fun nr => BitVec.ofNat x.bits nr

/-- A cause that names a known interrupt or exception. -/
def Known : Trap Interrupt Exception → Prop
  | .interrupt i => i ≠ .unknown
  | .exception e => e ≠ .unknown

instance : DecidablePred Known
  | .interrupt i => inferInstanceAs (Decidable (i ≠ .unknown))
  | .exception e => inferInstanceAs (Decidable (e ≠ .unknown))

/-! ### The tables are inverse on known causes -/

theorem Interrupt.from_of_nr {i : Interrupt} {n : Nat} (h : i.nr = some n) :
    Interrupt.from n = i := by
  cases i <;> cases h <;> rfl

theorem Exception.from_of_nr {e : Exception} {n : Nat} (h : e.nr = some n) :
    Exception.from n = e := by
  cases e <;> cases h <;> rfl

theorem Interrupt.nr_from {n : Nat} (h : Interrupt.from n ≠ .unknown) :
    (Interrupt.from n).nr = some n := by
  match n with
  | 0 | 1 | 4 | 5 | 8 | 9 => rfl
  | 2 | 3 | 6 | 7 => exact absurd rfl h
  | n + 10 => exact absurd rfl h

theorem Exception.nr_from {n : Nat} (h : Exception.from n ≠ .unknown) :
    (Exception.from n).nr = some n := by
  match n with
  | 0 | 1 | 2 | 3 | 5 | 6 | 7 | 8 | 12 | 13 | 15 => rfl
  | 4 | 9 | 10 | 11 | 14 => exact absurd rfl h
  | n + 16 => exact absurd rfl h

theorem Interrupt.nr_lt {i : Interrupt} {n : Nat} (h : i.nr = some n) : n < 16 := by
  cases i <;> cases h <;> decide

theorem Exception.nr_lt {e : Exception} {n : Nat} (h : e.nr = some n) : n < 16 := by
  cases e <;> cases h <;> decide

theorem Interrupt.nr_isSome {i : Interrupt} (h : i ≠ .unknown) : ∃ n, i.nr = some n := by
  cases i <;> first | exact absurd rfl h | exact ⟨_, rfl⟩

theorem Exception.nr_isSome {e : Exception} (h : e ≠ .unknown) : ∃ n, e.nr = some n := by
  cases e <;> first | exact absurd rfl h | exact ⟨_, rfl⟩

/-! ### The word: the top bit and the code -/

variable {bf}

theorem code_eq (r : Scause x) : r.code = r.bits &&& ~~~((1 : Usize x) <<< (x.bits - 1)) := rfl

theorem isInterrupt_eq (hbf : bf.Lawful) (r : Scause x) :
    r.isInterrupt bf = r.bits.getLsbD (x.bits - 1) := by
  have hbits := x.le_bits
  exact hbf.getBit_eq _ _ (by omega)

theorem cause_of_getLsbD_true (hbf : bf.Lawful) {w : Usize x} (h : w.getLsbD (x.bits - 1) = true) :
    (Scause.mk w).cause bf = .interrupt (Interrupt.from (Scause.mk w).code.toNat) := by
  rw [cause, if_pos (by rw [isInterrupt_eq hbf, h])]

theorem cause_of_getLsbD_false (hbf : bf.Lawful) {w : Usize x}
    (h : w.getLsbD (x.bits - 1) = false) :
    (Scause.mk w).cause bf = .exception (Exception.from (Scause.mk w).code.toNat) := by
  rw [cause, if_neg (by rw [isInterrupt_eq hbf, h]; decide)]

/-- A code below 16 leaves the top bit of the word clear. -/
theorem getLsbD_top_ofNat (x : Xlen) {n : Nat} (hn : n < 16) :
    (BitVec.ofNat x.bits n).getLsbD (x.bits - 1) = false := by
  have hbits := x.le_bits
  have hpow : 16 ≤ 2 ^ (x.bits - 1) :=
    calc 16 = 2 ^ 4 := rfl
      _ ≤ 2 ^ (x.bits - 1) := Nat.pow_le_pow_right (by decide) (by omega)
  exact BitVec.getLsbD_ofNat_of_lt (by omega)

theorem toNat_ofNat_of_lt (x : Xlen) {n : Nat} (hn : n < 16) :
    (BitVec.ofNat x.bits n).toNat = n :=
  x.toNat_ofNat_of_lt (by omega)

/-- The word `set` writes for an interrupt decodes to that interrupt's code. -/
theorem cause_interrupt_word (hbf : bf.Lawful) {n : Nat} (hn : n < 16) :
    (Scause.mk (BitVec.ofNat x.bits n ||| (1 : Usize x) <<< (x.bits - 1))).cause bf =
      .interrupt (Interrupt.from n) := by
  have hbits := x.le_bits
  have htop : (BitVec.ofNat x.bits n ||| (1 : Usize x) <<< (x.bits - 1)).getLsbD (x.bits - 1) =
      true :=
    BitVec.getLsbD_or_one_shiftLeft_self _ (by omega)
  have hcode : (Scause.mk (BitVec.ofNat x.bits n ||| (1 : Usize x) <<< (x.bits - 1))).code =
      BitVec.ofNat x.bits n := by
    rw [code_eq]
    exact BitVec.or_one_shiftLeft_and_not _ (getLsbD_top_ofNat x hn)
  rw [cause_of_getLsbD_true hbf htop, hcode, toNat_ofNat_of_lt x hn]

/-- The word `set` writes for an exception decodes to that exception's code. -/
theorem cause_exception_word (hbf : bf.Lawful) {n : Nat} (hn : n < 16) :
    (Scause.mk (BitVec.ofNat x.bits n)).cause bf = .exception (Exception.from n) := by
  have hcode : (Scause.mk (BitVec.ofNat x.bits n)).code = BitVec.ofNat x.bits n := by
    rw [code_eq]
    exact BitVec.and_not_one_shiftLeft_of_getLsbD _ (getLsbD_top_ofNat x hn)
  rw [cause_of_getLsbD_false hbf (getLsbD_top_ofNat x hn), hcode, toNat_ofNat_of_lt x hn]

/-- Every known cause is written, and decodes back to itself. -/
theorem cause_set (hbf : bf.Lawful) {t : Trap Interrupt Exception} (ht : Known t) :
    ∃ bits, set (x := x) t = some bits ∧ (Scause.mk bits).cause bf = t := by
  cases t with
  | interrupt i =>
      obtain ⟨n, hn⟩ := Interrupt.nr_isSome ht
      refine ⟨_, by rw [set, hn, Option.map_some], ?_⟩
      rw [cause_interrupt_word hbf (Interrupt.nr_lt hn), Interrupt.from_of_nr hn]
  | exception e =>
      obtain ⟨n, hn⟩ := Exception.nr_isSome ht
      refine ⟨_, by rw [set, hn, Option.map_some], ?_⟩
      rw [cause_exception_word hbf (Exception.nr_lt hn), Exception.from_of_nr hn]

/-- The code of a word read as a number, written back as a `usize`. -/
theorem ofNat_toNat_code (r : Scause x) : BitVec.ofNat x.bits r.code.toNat = r.code := by
  rw [BitVec.ofNat_toNat, BitVec.setWidth_eq]

/-- Every word that decodes to a known cause is what `set` writes for it: the
code is the word without its top bit, and the top bit is the interrupt flag. -/
theorem set_cause (hbf : bf.Lawful) (r : Scause x) (h : Known (r.cause bf)) :
    set (r.cause bf) = some r.bits := by
  cases htop : r.bits.getLsbD (x.bits - 1) with
  | true =>
      rw [cause_of_getLsbD_true hbf htop] at h ⊢
      rw [set, Interrupt.nr_from h, Option.map_some, ofNat_toNat_code, code_eq]
      exact congrArg some (BitVec.and_not_one_shiftLeft_or r.bits htop)
  | false =>
      rw [cause_of_getLsbD_false hbf htop] at h ⊢
      rw [set, Exception.nr_from h, Option.map_some, ofNat_toNat_code, code_eq]
      exact congrArg some (BitVec.and_not_one_shiftLeft_of_getLsbD r.bits htop)

/-- `scause::set` and `Scause::cause` are inverse: every known cause is
written and decodes back to itself, and every word that decodes to a known
cause is exactly the word `set` writes for that cause. -/
theorem cause_round_trip (hbf : bf.Lawful) :
    (∀ t : Trap Interrupt Exception, Known t →
      ∃ bits : Usize x, set t = some bits ∧ (Scause.mk bits).cause bf = t) ∧
    (∀ r : Scause x, Known (r.cause bf) → set (r.cause bf) = some r.bits) :=
  ⟨fun _ ht => cause_set hbf ht, set_cause hbf⟩

theorem cause_round_trip_timer :
    Known (Trap.interrupt Interrupt.supervisorTimer) ∧
    ∃ bits : Usize .rv64, set (Trap.interrupt Interrupt.supervisorTimer) = some bits ∧
      (Scause.mk bits).cause BitField.documented = Trap.interrupt Interrupt.supervisorTimer :=
  have hknown : Known (Trap.interrupt Interrupt.supervisorTimer) := by decide
  ⟨hknown, (cause_round_trip BitField.documented_lawful).1 _ hknown⟩

end Scause

end Riscv
