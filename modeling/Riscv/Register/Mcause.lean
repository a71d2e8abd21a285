import Riscv.Register.Scause
import Riscv.Register.Medeleg

/-!
The machine cause register `mcause` (`register/mcause.rs`), and how its
decoder compares with the one of `scause`. The two registers share the word
format, a top interrupt bit over the cause code, but each module has its own
`Interrupt` and `Exception` enums and its own `from` tables. `mcause` tests
and clears the top bit with masks chosen by `cfg(target_pointer_width)`, where
`scause` goes through `bit_field`. (`ucause` has only its raw bits and no
decoder.)

`mcause`'s exception table is exactly the set of codes `medeleg` can delegate.
`scause`'s tables are sub-tables of `mcause`'s: every cause `scause` decodes
to a known variant, `mcause` decodes to the variant of the same name. The
converse fails for exceptions: `scause` has no variant for codes 4, 9 and 11,
although `medeleg` has a getter and a `set_*` helper for each of them.
-/

namespace Riscv

/-- Apply a map to the interrupt or the exception of a cause. -/
def Trap.map {I E I' E' : Type} (fi : I → I') (fe : E → E') : Trap I E → Trap I' E'
  | .interrupt i => .interrupt (fi i)
  | .exception e => .exception (fe e)

/-- mcause register -/
structure Mcause (x : Xlen) where
  bits : Usize x

namespace Mcause

inductive Interrupt where
  | userSoft
  | supervisorSoft
  | machineSoft
  | userTimer
  | supervisorTimer
  | machineTimer
  | userExternal
  | supervisorExternal
  | machineExternal
  | unknown
  deriving DecidableEq, Repr

inductive Exception where
  | instructionMisaligned
  | instructionFault
  | illegalInstruction
  | breakpoint
  | loadMisaligned
  | loadFault
  | storeMisaligned
  | storeFault
  | userEnvCall
  | supervisorEnvCall
  | machineEnvCall
  | instructionPageFault
  | loadPageFault
  | storePageFault
  | unknown
  deriving DecidableEq, Repr

def Interrupt.from (nr : Nat) : Interrupt :=
  match nr with
  | 0 => userSoft
  | 1 => supervisorSoft
  | 3 => machineSoft
  | 4 => userTimer
  | 5 => supervisorTimer
  | 7 => machineTimer
  | 8 => userExternal
  | 9 => supervisorExternal
  | 11 => machineExternal
  | _ => unknown

def Exception.from (nr : Nat) : Exception :=
  match nr with
  | 0 => instructionMisaligned
  | 1 => instructionFault
  | 2 => illegalInstruction
  | 3 => breakpoint
  | 4 => loadMisaligned
  | 5 => loadFault
  | 6 => storeMisaligned
  | 7 => storeFault
  | 8 => userEnvCall
  | 9 => supervisorEnvCall
  | 11 => machineEnvCall
  | 12 => instructionPageFault
  | 13 => loadPageFault
  | 15 => storePageFault
  | _ => unknown

variable {x : Xlen}

/-- Returns the code field -/
def code (r : Mcause x) : Usize x :=
  match x, r with
  | .rv32, r => r.bits &&& ~~~((1 : Usize .rv32) <<< 31)
  | .rv64, r => r.bits &&& ~~~((1 : Usize .rv64) <<< 63)

/-- Is trap cause an interrupt. -/
def isInterrupt (r : Mcause x) : Bool :=
  match x, r with
  | .rv32, r => r.bits &&& (1 : Usize .rv32) <<< 31 == (1 : Usize .rv32) <<< 31
  | .rv64, r => r.bits &&& (1 : Usize .rv64) <<< 63 == (1 : Usize .rv64) <<< 63

/-- Is trap cause an exception. -/
def isException (r : Mcause x) : Bool := !r.isInterrupt

/-- Trap Cause -/
def cause (r : Mcause x) : Trap Interrupt Exception :=
  if r.isInterrupt then
    .interrupt (Interrupt.from r.code.toNat)
  else
    .exception (Exception.from r.code.toNat)

/-! ### The word: both `cfg` arms are the top bit -/

theorem code_eq (r : Mcause x) : r.code = r.bits &&& ~~~((1 : Usize x) <<< (x.bits - 1)) := by
  cases x <;> rfl

theorem isInterrupt_eq (r : Mcause x) : r.isInterrupt = r.bits.getLsbD (x.bits - 1) := by
  cases x with
  | rv32 => exact BitVec.and_one_shiftLeft_beq r.bits (by decide)
  | rv64 => exact BitVec.and_one_shiftLeft_beq r.bits (by decide)

/-- `mcause` masks out the same top bit as `scause`. -/
theorem code_mk_eq_scause (w : Usize x) : (Mcause.mk w).code = (Scause.mk w).code := by
  rw [code_eq, Scause.code_eq]

theorem cause_of_getLsbD_true {w : Usize x} (h : w.getLsbD (x.bits - 1) = true) :
    (Mcause.mk w).cause = .interrupt (Interrupt.from (Mcause.mk w).code.toNat) := by
  rw [cause, if_pos (by rw [isInterrupt_eq, h])]

theorem cause_of_getLsbD_false {w : Usize x} (h : w.getLsbD (x.bits - 1) = false) :
    (Mcause.mk w).cause = .exception (Exception.from (Mcause.mk w).code.toNat) := by
  rw [cause, if_neg (by rw [isInterrupt_eq, h]; decide)]

end Mcause

/-! ### The same exception under the names of `medeleg` and `scause` -/

/-- The `mcause` exception that a `medeleg` bit delegates. -/
def Medeleg.Flag.exception : Medeleg.Flag → Mcause.Exception
  | .instructionMisaligned => .instructionMisaligned
  | .instructionFault => .instructionFault
  | .illegalInstruction => .illegalInstruction
  | .breakpoint => .breakpoint
  | .loadMisaligned => .loadMisaligned
  | .loadFault => .loadFault
  | .storeMisaligned => .storeMisaligned
  | .storeFault => .storeFault
  | .userEnvCall => .userEnvCall
  | .supervisorEnvCall => .supervisorEnvCall
  | .machineEnvCall => .machineEnvCall
  | .instructionPageFault => .instructionPageFault
  | .loadPageFault => .loadPageFault
  | .storePageFault => .storePageFault

/-- The `mcause` variant of the same name. -/
def Scause.Interrupt.toMcause : Scause.Interrupt → Mcause.Interrupt
  | .userSoft => .userSoft
  | .supervisorSoft => .supervisorSoft
  | .userTimer => .userTimer
  | .supervisorTimer => .supervisorTimer
  | .userExternal => .userExternal
  | .supervisorExternal => .supervisorExternal
  | .unknown => .unknown

/-- The `mcause` variant of the same name. -/
def Scause.Exception.toMcause : Scause.Exception → Mcause.Exception
  | .instructionMisaligned => .instructionMisaligned
  | .instructionFault => .instructionFault
  | .illegalInstruction => .illegalInstruction
  | .breakpoint => .breakpoint
  | .loadFault => .loadFault
  | .storeMisaligned => .storeMisaligned
  | .storeFault => .storeFault
  | .userEnvCall => .userEnvCall
  | .instructionPageFault => .instructionPageFault
  | .loadPageFault => .loadPageFault
  | .storePageFault => .storePageFault
  | .unknown => .unknown

/-- A `scause` cause under the `mcause` names. -/
def Scause.toMcause :
    Trap Scause.Interrupt Scause.Exception → Trap Mcause.Interrupt Mcause.Exception :=
  Trap.map Scause.Interrupt.toMcause Scause.Exception.toMcause

namespace Mcause

/-- `mcause`'s exception table decodes exactly the codes of `medeleg`'s bits. -/
theorem Exception.from_eq_flag (n : Nat) :
    Exception.from n = ((Medeleg.Flag.ofCode n).map Medeleg.Flag.exception).getD .unknown := by
  match n with
  | 0 | 1 | 2 | 3 | 4 | 5 | 6 | 7 | 8 | 9 | 10 | 11 | 12 | 13 | 14 | 15 => rfl
  | n + 16 => rfl

theorem Exception.from_code (f : Medeleg.Flag) : Exception.from f.code = f.exception := by
  rw [Exception.from_eq_flag, Medeleg.Flag.ofCode_code]
  rfl

/-- `mcause` and `medeleg` share one exception table: `mcause` decodes the
code of every `medeleg` bit to the exception of that bit, and every other code
to `Unknown`. -/
theorem mcause_decodes_medeleg_bits :
    (∀ f : Medeleg.Flag, Exception.from f.code = f.exception) ∧
    (∀ n : Nat, (∀ f : Medeleg.Flag, f.code ≠ n) → Exception.from n = .unknown) := by
  refine ⟨Exception.from_code, fun n hn => ?_⟩
  rw [Exception.from_eq_flag]
  cases hf : Medeleg.Flag.ofCode n with
  | none => rfl
  | some f => exact absurd (Medeleg.Flag.code_of_ofCode hf) (hn f)

theorem mcause_decodes_medeleg_bits_reserved :
    (∀ f : Medeleg.Flag, f.code ≠ 10) ∧ Exception.from 10 = .unknown :=
  have hnone : ∀ f : Medeleg.Flag, f.code ≠ 10 := by
    intro f
    cases f <;> decide
  ⟨hnone, mcause_decodes_medeleg_bits.2 10 hnone⟩

/-- Every interrupt code `scause` knows, `mcause` decodes to the same name. -/
theorem Interrupt.from_of_scause {n : Nat} (h : Scause.Interrupt.from n ≠ .unknown) :
    (Scause.Interrupt.from n).toMcause = Interrupt.from n := by
  match n with
  | 0 | 1 | 4 | 5 | 8 | 9 => rfl
  | 2 | 3 | 6 | 7 => exact absurd rfl h
  | n + 10 => exact absurd rfl h

/-- Every exception code `scause` knows, `mcause` decodes to the same name. -/
theorem Exception.from_of_scause {n : Nat} (h : Scause.Exception.from n ≠ .unknown) :
    (Scause.Exception.from n).toMcause = Exception.from n := by
  match n with
  | 0 | 1 | 2 | 3 | 5 | 6 | 7 | 8 | 12 | 13 | 15 => rfl
  | 4 | 9 | 10 | 11 | 14 => exact absurd rfl h
  | n + 16 => exact absurd rfl h

/-- The delegable exceptions that `scause`'s table has no variant for. -/
theorem scause_from_code_eq_unknown (f : Medeleg.Flag) :
    Scause.Exception.from f.code = .unknown ↔
      f ∈ [.loadMisaligned, .supervisorEnvCall, .machineEnvCall] := by
  cases f <;> decide

variable {bf : BitField} {x : Xlen}

/-- The `scause` decoder refines the `mcause` one: wherever `scause` names a
known cause, `mcause` names the cause of the same name. Both read the same top
bit and the same code; the tables then agree by `from_of_scause`. -/
theorem cause_of_scause_known (hbf : bf.Lawful) (w : Usize x)
    (h : Scause.Known ((Scause.mk w).cause bf)) :
    (Mcause.mk w).cause = Scause.toMcause ((Scause.mk w).cause bf) := by
  have hcode := code_mk_eq_scause w
  cases htop : w.getLsbD (x.bits - 1) with
  | true =>
      rw [Scause.cause_of_getLsbD_true hbf htop] at h ⊢
      rw [cause_of_getLsbD_true htop, hcode, Scause.toMcause, Trap.map,
        Interrupt.from_of_scause h]
  | false =>
      rw [Scause.cause_of_getLsbD_false hbf htop] at h ⊢
      rw [cause_of_getLsbD_false htop, hcode, Scause.toMcause, Trap.map,
        Exception.from_of_scause h]

/-- `scause` does not decode every exception `medeleg` can delegate. For every
exception word whose code is a `medeleg` bit, `mcause` decodes the delegated
exception; `scause` decodes `Unknown` exactly for load-misaligned and the
supervisor and machine environment calls, and the exception of the same name
for the rest. Interrupt words agree wherever `scause` knows the code. -/
theorem scause_misses_delegated (hbf : bf.Lawful) :
    (∀ (f : Medeleg.Flag) (w : Usize x), w.getLsbD (x.bits - 1) = false →
      (Mcause.mk w).code.toNat = f.code →
      (Mcause.mk w).cause = .exception f.exception ∧
      ((Scause.mk w).cause bf = .exception .unknown ↔
        f ∈ [.loadMisaligned, .supervisorEnvCall, .machineEnvCall]) ∧
      (f ∉ [.loadMisaligned, .supervisorEnvCall, .machineEnvCall] →
        Scause.toMcause ((Scause.mk w).cause bf) = (Mcause.mk w).cause)) ∧
    (∀ (w : Usize x) (i : Scause.Interrupt), (Scause.mk w).cause bf = .interrupt i →
      i ≠ .unknown →
      (Mcause.mk w).cause = .interrupt i.toMcause) := by
  refine ⟨fun f w htop hcode => ?_, fun w i hi hknown => ?_⟩
  · have hscause : (Scause.mk w).cause bf = .exception (Scause.Exception.from f.code) := by
      rw [Scause.cause_of_getLsbD_false hbf htop, ← code_mk_eq_scause, hcode]
    have hmcause : (Mcause.mk w).cause = .exception f.exception := by
      rw [cause_of_getLsbD_false htop, hcode, Exception.from_code]
    refine ⟨hmcause, ?_, fun hf => ?_⟩
    · rw [hscause, Trap.exception.injEq, scause_from_code_eq_unknown]
    · have hknown : Scause.Known ((Scause.mk w).cause bf) := by
        rw [hscause]
        exact mt (scause_from_code_eq_unknown f).mp hf
      exact (cause_of_scause_known hbf w hknown).symm
  · have hknown : Scause.Known ((Scause.mk w).cause bf) := by
      rw [hi]
      exact hknown
    rw [cause_of_scause_known hbf w hknown, hi]
    rfl

theorem scause_misses_delegated_load :
    (4 : Usize .rv64).getLsbD 63 = false ∧
    (Mcause.mk (4 : Usize .rv64)).code.toNat = Medeleg.Flag.loadMisaligned.code ∧
    (Mcause.mk (4 : Usize .rv64)).cause = .exception .loadMisaligned ∧
    (Scause.mk (4 : Usize .rv64)).cause BitField.documented = .exception .unknown := by
  have htop : (4 : Usize .rv64).getLsbD 63 = false := by decide
  have hcode : (Mcause.mk (4 : Usize .rv64)).code.toNat = Medeleg.Flag.loadMisaligned.code := by
    decide
  obtain ⟨hmcause, hscause, -⟩ :=
    (scause_misses_delegated BitField.documented_lawful).1 .loadMisaligned 4 htop hcode
  exact ⟨htop, hcode, hmcause, hscause.mpr (by decide)⟩

end Mcause

end Riscv
