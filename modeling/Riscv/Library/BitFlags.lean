import Riscv.Library.BitVecField

/-!
A word used as a set of flags. Each flag of an index type `F` owns one bit:
`get` reads it, `set` ors in its one-bit mask, `clear` ands out the
complement of that mask, and `write f b` sets or clears `f` as `b` says.

A `FlagLayout` carries the two facts every result needs: distinct flags own
distinct bits, and every bit lies inside the word. Under them a write changes
the flag it names and no other (`get_write`), so an interface of getters and
helpers built on one layout is correct as soon as each getter reads, and each
helper writes, the bit the layout gives its flag (`Reads`, `Writes`).
-/

/-- Where each flag of `F` sits in a `w`-bit word. -/
structure FlagLayout (F : Type) (w : Nat) where
  bit : F → Nat
  bit_injective : Function.Injective bit
  bit_lt : ∀ f, bit f < w

namespace FlagLayout

variable {F : Type} {w : Nat} (L : FlagLayout F w)

/-- The one-bit mask `1 << bit f`. -/
def mask (f : F) : BitVec w := (1 : BitVec w) <<< L.bit f

def get (v : BitVec w) (f : F) : Bool := v.getLsbD (L.bit f)

def set (f : F) (v : BitVec w) : BitVec w := v ||| L.mask f

def clear (f : F) (v : BitVec w) : BitVec w := v &&& ~~~L.mask f

/-- Set `f` when `b` holds, clear it otherwise. -/
def write (f : F) (b : Bool) (v : BitVec w) : BitVec w := if b then L.set f v else L.clear f v

/-- A getter that reads flag `f`. -/
def Reads (g : BitVec w → Bool) (f : F) : Prop := ∀ v, g v = L.get v f

/-- A helper that writes `b` to flag `f`. -/
def Writes (h : BitVec w → BitVec w) (f : F) (b : Bool) : Prop := ∀ v, h v = L.write f b v

variable {L}

/-- The mask of `f` holds bit `bit f` only; no range condition is left,
since the layout puts the bit inside the word. -/
theorem getLsbD_mask (f : F) (i : Nat) : (L.mask f).getLsbD i = decide (i = L.bit f) := by
  rw [mask, BitVec.getLsbD_one_shiftLeft_eq]
  by_cases h : i = L.bit f
  · simp [h, L.bit_lt f]
  · simp [h]

/-- Two flags share a bit exactly when they are the same flag. -/
theorem bit_eq_iff (f g : F) : L.bit g = L.bit f ↔ f = g :=
  ⟨fun h => (L.bit_injective h).symm, fun h => h ▸ rfl⟩

variable [DecidableEq F]

theorem decide_bit_eq (f g : F) : decide (L.bit g = L.bit f) = decide (f = g) :=
  decide_eq_decide.mpr (bit_eq_iff f g)

@[simp] theorem get_set (f g : F) (v : BitVec w) :
    L.get (L.set f v) g = (L.get v g || decide (f = g)) := by
  rw [get, set, BitVec.getLsbD_or, getLsbD_mask, decide_bit_eq]
  rfl

@[simp] theorem get_clear (f g : F) (v : BitVec w) :
    L.get (L.clear f v) g = (L.get v g && !decide (f = g)) := by
  rw [get, clear, BitVec.getLsbD_and, BitVec.getLsbD_not, getLsbD_mask, decide_bit_eq]
  by_cases hfg : f = g
  · simp [hfg]
  · have hin : L.bit g < w := L.bit_lt g
    simp [hfg, hin, get]

/-- A write changes the flag it names, to the value written, and no other. -/
theorem get_write (f g : F) (b : Bool) (v : BitVec w) :
    L.get (L.write f b v) g = if f = g then b else L.get v g := by
  cases b with
  | true =>
      rw [write, if_pos rfl, get_set]
      by_cases hfg : f = g <;> simp [hfg]
  | false =>
      rw [write, if_neg Bool.false_ne_true, get_clear]
      by_cases hfg : f = g <;> simp [hfg]

/-- A getter of `f'` after a helper that writes `b` to `f` returns `b` when
`f = f'` and otherwise what it returned before. -/
theorem Reads.apply_writes {g : BitVec w → Bool} {h : BitVec w → BitVec w} {f f' : F}
    {b : Bool} (hg : L.Reads g f') (hh : L.Writes h f b) (v : BitVec w) :
    g (h v) = if f = f' then b else g v := by
  rw [hg, hh, get_write, ← hg]

omit [DecidableEq F] in
/-- A helper of `f` leaves unchanged every function of the word that does not
read `f`'s bit, such as the getter of a multi-bit field elsewhere. -/
theorem Writes.apply_readsOnly {α : Type} {h : BitVec w → BitVec w} {f : F} {b : Bool}
    {r : BitVec w → α} {s : Nat → Prop} (hh : L.Writes h f b) (hr : BitVec.ReadsOnly r s)
    (hs : ¬ s (L.bit f)) (v : BitVec w) : r (h v) = r v := by
  have hm : ∀ i, s i → (L.mask f).getLsbD i = false := by
    intro i hi
    rw [getLsbD_mask, decide_eq_false_iff_not]
    rintro rfl
    exact hs hi
  rw [hh, write]
  cases b with
  | true => exact hr.apply_or hm v
  | false => exact hr.apply_and_not hm v

end FlagLayout

/-- The getters and helpers of a flag register, by flag: `none` where the
register has no getter, or no helper, for a flag. -/
structure FlagLayout.Interface (F : Type) (w : Nat) where
  get : F → Option (BitVec w → Bool)
  write : F → Bool → Option (BitVec w → BitVec w)

namespace FlagLayout

variable {F : Type} {w : Nat} (L : FlagLayout F w)

/-- Every getter of the interface reads its flag's bit and every helper writes it. -/
def Agrees (I : Interface F w) : Prop :=
  (∀ f g, I.get f = some g → L.Reads g f) ∧ ∀ f b h, I.write f b = some h → L.Writes h f b

variable {L} [DecidableEq F]

/-- The frame rule of an interface that agrees with its layout: a helper of
`f` writing `b` makes the getter of `f` return `b` and leaves the getter of
every other flag unchanged. -/
theorem Agrees.frame {I : Interface F w} (hI : L.Agrees I) {f f' : F} {b : Bool}
    {h : BitVec w → BitVec w} {g : BitVec w → Bool}
    (hh : I.write f b = some h) (hg : I.get f' = some g) (v : BitVec w) :
    g (h v) = if f = f' then b else g v :=
  (hI.1 f' g hg).apply_writes (hI.2 f b h hh) v

/-- The value that a sequence of writes leaves in flag `g`: the last one
written to it, if any was. -/
def lastWrite : List (F × Bool) → F → Option Bool
  | [], _ => none
  | (f, b) :: ws, g => (lastWrite ws g).or (if f = g then some b else none)

omit [DecidableEq F] in
/-- A program's calls of the interface's helpers, in order; `none` when the
interface has no helper for one of the writes. -/
def Interface.runWrites (I : Interface F w) : List (F × Bool) → BitVec w → Option (BitVec w)
  | [], v => some v
  | (f, b) :: ws, v => (I.write f b).bind fun h => I.runWrites ws (h v)

/-- The run rule: after any sequence of helper calls, the getter of `f`
returns the value last written to `f`, or what it returned before when no
call wrote `f`. The induction is on the calls, with the frame rule as step. -/
theorem Agrees.runWrites {I : Interface F w} (hI : L.Agrees I) {f : F} {g : BitVec w → Bool}
    (hg : I.get f = some g) (ws : List (F × Bool)) (v v' : BitVec w)
    (hrun : I.runWrites ws v = some v') : g v' = (lastWrite ws f).getD (g v) := by
  induction ws generalizing v with
  | nil =>
      cases hrun
      rfl
  | cons fb ws ih =>
      obtain ⟨f', b⟩ := fb
      cases hh : I.write f' b with
      | none =>
          rw [Interface.runWrites, hh, Option.bind_none] at hrun
          cases hrun
      | some h =>
          rw [Interface.runWrites, hh, Option.bind_some] at hrun
          rw [ih (h v) hrun, hI.frame hh hg v, lastWrite]
          cases lastWrite ws f with
          | some c => rfl
          | none => by_cases hf : f' = f <;> simp [hf]

end FlagLayout
