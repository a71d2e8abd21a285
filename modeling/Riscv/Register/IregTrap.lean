import Riscv.Register.Ireg
import Riscv.Library.Interleave

/-!
The indirect register file under traps. Each function of `mireg.rs` and
`sireg.rs` is two CSR instructions: a write of the select CSR, then one access
of the register CSR (`csrr`, `csrw`, `csrrs` or `csrrc`, each atomic).
Nothing between the two masks interrupts, so a trap taken after the select
write runs its handler to completion before the access; a handler is not
itself interrupted, since a trap clears the interrupt enable.

A handler that calls these functions itself leaves the select CSR naming its
own last register, and the interrupted access lands there: the interrupted
write is lost and another register's bit changes
(`trap_misdirects_writer`). A handler that saves the select CSR on entry and
writes it back before it returns cannot be seen: a program of calls with such
handlers taken between any two instructions returns and leaves what the
program returns and leaves in which each handler ran just before the call it
interrupted (`saving_handlers_serial`).
-/

namespace Riscv

namespace Ireg

variable {x : Xlen}

/-- The access of the register CSR: `_read()`, `_write(value)`, `_set(bits)`
or `_clear(bits)`. -/
inductive Access (x : Xlen) where
  | read
  | write (value : Usize x)
  | set (bits : Usize x)
  | clear (bits : Usize x)

/-- The access, on whatever register the select CSR names when it runs; it
returns that register's word as it found it. -/
def Access.run : Access x → File x → Usize x × File x
  | .read, s => (s.read, s)
  | .write value, s => (s.read, s.write value)
  | .set bits, s => (s.read, s.set bits)
  | .clear bits, s => (s.read, s.clear bits)

/-- A call of the file's functions: the select index it writes, then its access. -/
structure Call (x : Xlen) where
  select : Usize x
  access : Access x

/-- The call's two instructions with no trap between them. -/
def Call.run (c : Call x) (s : File x) : Usize x × File x :=
  c.access.run (s.writeSelect c.select)

/-! ### Every function of the file is one call -/

section Calls

variable (first : Register) (i : Usize x) (value : Usize x) (s : File x)

def eideliveryCall (a : Access x) : Call x := ⟨BitVec.ofNat x.bits Register.eidelivery.toNat, a⟩

def eithresholdCall (a : Access x) : Call x := ⟨BitVec.ofNat x.bits Register.eithreshold.toNat, a⟩

def readBitCall : Call x := ⟨selectOf first i, .read⟩

def setBitCall : Call x := ⟨selectOf first i, .set ((1 : Usize x) <<< (intRegisterBit i).2.toNat)⟩

def clearBitCall : Call x :=
  ⟨selectOf first i, .clear ((1 : Usize x) <<< (intRegisterBit i).2.toNat)⟩

theorem readEidelivery_call :
    readEidelivery s = (⟨((eideliveryCall .read).run s).1⟩, ((eideliveryCall .read).run s).2) :=
  rfl

theorem writeEidelivery_call : writeEidelivery value s = ((eideliveryCall (.write value)).run s).2 :=
  rfl

theorem readEithreshold_call : readEithreshold s = (eithresholdCall .read).run s := rfl

theorem writeEithreshold_call :
    writeEithreshold value s = ((eithresholdCall (.write value)).run s).2 :=
  rfl

/-- `read_eip` and `read_eie` test the bit of the word their call reads. -/
theorem readBit_call :
    readBit first i s =
      (((readBitCall first i).run s).1 >>> (intRegisterBit i).2.toNat &&& 1 == 1,
        ((readBitCall first i).run s).2) :=
  rfl

theorem setBit_call : setBit first i s = ((setBitCall first i).run s).2 := rfl

theorem clearBit_call : clearBit first i s = ((clearBitCall first i).run s).2 := rfl

end Calls

/-- The call each writer makes. -/
def Writer.call (w : Writer) (i : Usize x) : Call x :=
  match w with
  | .setEip | .setEie => setBitCall w.first i
  | .clearEip | .clearEie => clearBitCall w.first i

theorem Writer.run_call (w : Writer) (i : Usize x) (s : File x) :
    w.run i s = ((w.call i).run s).2 := by
  cases w <;> rfl

/-! ### The select CSR between the two instructions -/

@[simp] theorem File.writeSelect_writeSelect (s : File x) (v v' : Usize x) :
    (s.writeSelect v).writeSelect v' = s.writeSelect v' := rfl

/-- A call overwrites the select CSR before it reads it. -/
theorem Call.run_writeSelect (c : Call x) (v : Usize x) (s : File x) :
    c.run (s.writeSelect v) = c.run s := rfl

/-- The calls of a handler, one after another. -/
def runCalls (cs : List (Call x)) (s : File x) : File x :=
  cs.foldl (fun s c => (c.run s).2) s

/-- Calls do not depend on the select CSR they start from; only an empty list
of calls leaves it. -/
theorem runCalls_writeSelect_reg (cs : List (Call x)) (v : Usize x) (s : File x) :
    (runCalls cs (s.writeSelect v)).reg = (runCalls cs s).reg := by
  cases cs with
  | nil => rfl
  | cons c cs => rw [runCalls, List.foldl_cons, Call.run_writeSelect]; rfl

/-- A trap handler that makes the calls `cs`, saving the select CSR on entry
and writing it back before it returns. -/
def saving (cs : List (Call x)) (s : File x) : File x :=
  (runCalls cs s).writeSelect s.select

/-- A saving handler commutes with a write of the select CSR. -/
theorem saving_writeSelect (cs : List (Call x)) (v : Usize x) (s : File x) :
    saving cs (s.writeSelect v) = (saving cs s).writeSelect v := by
  show File.mk v (runCalls cs (s.writeSelect v)).reg = File.mk v (runCalls cs s).reg
  rw [runCalls_writeSelect_reg]

/-- Handlers taken one after another, each a saving handler. -/
def handleAll (hs : List (List (Call x))) (s : File x) : File x :=
  hs.foldl (fun s h => saving h s) s

theorem handleAll_append (hs hs' : List (List (Call x))) (s : File x) :
    handleAll (hs ++ hs') s = handleAll hs' (handleAll hs s) :=
  List.foldl_append

theorem handleAll_writeSelect (hs : List (List (Call x))) (v : Usize x) (s : File x) :
    handleAll hs (s.writeSelect v) = (handleAll hs s).writeSelect v := by
  induction hs generalizing s with
  | nil => rfl
  | cons h hs ih =>
      rw [handleAll, List.foldl_cons, saving_writeSelect]
      exact ih _

/-! ### Programs preempted by saving handlers -/

/-- A call with the traps taken around it: the handlers run before its select
write and those run between the select write and the access. A handler is
the list of calls it makes. -/
structure Trapped (x : Xlen) where
  before : List (List (Call x))
  call : Call x
  between : List (List (Call x))

/-- The call with its traps taken where they struck. -/
def Trapped.run (t : Trapped x) (s : File x) : Usize x × File x :=
  t.call.access.run (handleAll t.between ((handleAll t.before s).writeSelect t.call.select))

/-- The same handlers, all taken before the call, and the call whole. -/
def Trapped.serial (t : Trapped x) (s : File x) : Usize x × File x :=
  t.call.run (handleAll (t.before ++ t.between) s)

/-- The step lemma: a saving handler taken between a call's two instructions
does what it does taken before the call. -/
theorem Trapped.run_eq_serial (t : Trapped x) (s : File x) : t.run s = t.serial s := by
  rw [Trapped.run, handleAll_writeSelect, Trapped.serial, handleAll_append]
  rfl

/-- Every program of calls of `mireg`/`sireg` (each function of the modules is
one call: `readEidelivery_call`, ..., `clearBit_call`), with any saving
handlers taken before any call or between its select write and its access,
on either XLEN and from every state of the file, returns for each call the
word it returns, and leaves the file, as the program without traps in which
each handler runs just before the call it interrupted. -/
theorem saving_handlers_serial (ts : List (Trapped x)) (s : File x) :
    Interleave.runSeq Trapped.run ts s = Interleave.runSeq Trapped.serial ts s := by
  induction ts generalizing s with
  | nil => rfl
  | cons t ts ih => rw [Interleave.runSeq_cons, Interleave.runSeq_cons, Trapped.run_eq_serial, ih]

/-! ### A handler that does not restore the select CSR -/

/-- The call with one trap taken between its instructions, whose handler makes
the call `h` and returns. -/
def Call.runInterrupted (c h : Call x) (s : File x) : Usize x × File x :=
  c.access.run (h.run (s.writeSelect c.select)).2

theorem Access.run_select (a : Access x) (u : File x) : (a.run u).2.select = u.select := by
  cases a <;> rfl

/-- An access changes the selected register only. -/
theorem Access.run_reg_of_ne (a : Access x) (u : File x) {sel : Nat} (h : sel ≠ u.select.toNat) :
    (a.run u).2.reg sel = u.reg sel := by
  cases a with
  | read => rfl
  | write value => exact Function.update_of_ne h _ _
  | set bits => exact Function.update_of_ne h _ _
  | clear bits => exact Function.update_of_ne h _ _

theorem Call.run_select (c : Call x) (s : File x) : (c.run s).2.select = c.select :=
  Access.run_select _ _

theorem Call.run_reg_of_ne (c : Call x) (s : File x) {sel : Nat} (h : sel ≠ c.select.toNat) :
    (c.run s).2.reg sel = s.reg sel :=
  Access.run_reg_of_ne _ _ h

/-- A writer's access: `_set(1 << bit)` or `_clear(1 << bit)`. -/
theorem Writer.access_run (w : Writer) (i : Usize x) (u : File x) :
    ((w.call i).access.run u).2 =
      if w.value then u.set ((1 : Usize x) <<< (intRegisterBit i).2.toNat)
      else u.clear ((1 : Usize x) <<< (intRegisterBit i).2.toNat) := by
  cases w <;> rfl

/-- A writer's access sets or clears the interrupt's bit in the register the
select CSR names when it runs. -/
theorem Writer.getLsbD_access (w : Writer) (i : Usize x) (u : File x) (sel k : Nat) :
    ((((w.call i).access.run u).2.reg sel).getLsbD k) =
      if sel = u.select.toNat ∧ k = (slot x w.first.toNat i.toNat).2 then w.value
      else (u.reg sel).getLsbD k := by
  have hk := slot_snd_lt x w.first.toNat i.toNat
  -- the mask `1 << bit` holds the interrupt's bit only
  have hmask : ((1 : Usize x) <<< (intRegisterBit i).2.toNat).getLsbD k =
      decide (k = (slot x w.first.toNat i.toNat).2) := by
    rw [BitVec.getLsbD_one_shiftLeft_eq, toNat_intRegisterBit_snd w.first.toNat]
    by_cases hki : k = (slot x w.first.toNat i.toNat).2 <;> simp [hki, hk]
  rw [Writer.access_run]
  cases w.value
  · -- a clear: the selected register loses the interrupt's bit
    rw [if_neg Bool.false_ne_true, File.getLsbD_clear_reg, hmask]
    by_cases hsel : sel = u.select.toNat <;>
      by_cases hki : k = (slot x w.first.toNat i.toNat).2 <;> simp [hsel, hki]
  · -- a set: the selected register gains it
    rw [if_pos rfl, File.getLsbD_set_reg, hmask]
    by_cases hsel : sel = u.select.toNat <;>
      by_cases hki : k = (slot x w.first.toNat i.toNat).2 <;> simp [hsel, hki]

/-- For each of `set_eip`, `clear_eip`, `set_eie` and `clear_eie` on an
interrupt `i`, and a trap handler that makes any one call of the file (a read
or a write, of any register but `i`'s), on either XLEN and from every state
of the file: with the trap taken between the select write and the access,
the interrupted write is lost, interrupt `i` reading as before the call, and
the register the handler selected gets interrupt `i`'s bit written instead;
run whole, before or after the handler, the call leaves interrupt `i` at the
written value. -/
theorem trap_misdirects_writer (w : Writer) (i : Usize x) (h : Call x)
    (hne : h.select.toNat ≠ (slot x w.first.toNat i.toNat).1) (s : File x) :
    (w.reader i ((w.call i).runInterrupted h s).2).1 = (w.reader i s).1 ∧
    (((w.call i).runInterrupted h s).2.reg h.select.toNat).getLsbD
        (slot x w.first.toNat i.toNat).2 = w.value ∧
    (w.reader i (w.run i (h.run s).2)).1 = w.value ∧
    (w.reader i (h.run (w.run i s)).2).1 = w.value := by
  -- the handler's call leaves the select CSR naming the handler's register
  have ht : ((w.call i).runInterrupted h s).2 = ((w.call i).access.run (h.run s).2).2 := by
    rw [Call.runInterrupted, Call.run_writeSelect]
  have hsel : (h.run s).2.select = h.select := Call.run_select h s
  refine ⟨?_, ?_, ?_, ?_⟩
  · -- interrupt `i`'s register is neither the handler's nor the access's
    rw [Writer.reader_fst, ht, Writer.getLsbD_access, if_neg (fun hc => hne (hsel ▸ hc.1).symm),
      Call.run_reg_of_ne h s (Ne.symm hne), Writer.reader_fst]
  · rw [ht, Writer.getLsbD_access, if_pos ⟨by rw [hsel], rfl⟩]
  · exact Writer.reader_run_self w i _
  · rw [Writer.reader_fst, Call.run_reg_of_ne h _ (Ne.symm hne), Writer.getLsbD_run,
      if_pos ⟨rfl, rfl⟩]

/-- A handler's `read_eie(5)` taken inside `set_eip(5)` on RV64. -/
theorem trap_misdirects_writer_read :
    (readBitCall (.eie 0) (5 : Usize .rv64)).select.toNat ≠
        (slot .rv64 Writer.setEip.first.toNat (5 : Usize .rv64).toNat).1 ∧
      (Writer.setEip.reader 5 ((Writer.setEip.call 5).runInterrupted
          (readBitCall (.eie 0) 5) (zeroFile .rv64)).2).1 =
        (Writer.setEip.reader 5 (zeroFile .rv64)).1 ∧
      (((Writer.setEip.call 5).runInterrupted (readBitCall (.eie 0) 5) (zeroFile .rv64)).2.reg
          (readBitCall (.eie 0) (5 : Usize .rv64)).select.toNat).getLsbD
        (slot .rv64 Writer.setEip.first.toNat (5 : Usize .rv64).toNat).2 = Writer.setEip.value ∧
      (Writer.setEip.reader 5 (Writer.setEip.run 5
          ((readBitCall (.eie 0) 5).run (zeroFile .rv64)).2)).1 = Writer.setEip.value ∧
      (Writer.setEip.reader 5 ((readBitCall (.eie 0) 5).run
          (Writer.setEip.run 5 (zeroFile .rv64))).2).1 = Writer.setEip.value :=
  have hne : (readBitCall (.eie 0) (5 : Usize .rv64)).select.toNat ≠
      (slot .rv64 Writer.setEip.first.toNat (5 : Usize .rv64).toNat).1 := by decide
  ⟨hne, trap_misdirects_writer .setEip 5 _ hne (zeroFile .rv64)⟩

end Ireg

end Riscv
