import Mathlib.Tactic

/-!
Rust's unsigned integer arithmetic under the two standard build profiles. A
`dev` build has `overflow-checks` on, so `a + b`, `a - b` and `a * b` panic
when the exact result does not fit; a `release` build wraps them modulo
`2 ^ w`. A panic is `none`. The overflow tests are the core predicates
`BitVec.uaddOverflow`, `BitVec.usubOverflow` and `BitVec.umulOverflow`. A
shift `a >> k` overflows when `k` is not below the width: the debug build
panics and the release build shifts by `k` masked to the width.

Where no overflow happens both profiles compute the exact result, and the
lemmas here say so; where one does, the debug build panics and the release
build returns the wrapped value.

A call that changes a state, such as a device's registers, and may panic is an
`EStateM Unit σ`: its panic is `.error () s`, with the state `s` it had
reached, so what it wrote before panicking stays written.
-/

namespace Rust

/-- The overflow behaviour of a build. -/
inductive Profile where
  | debug
  | release
  deriving DecidableEq, Repr

namespace Profile

variable {w : Nat}

/-- `a + b` on `w`-bit unsigned integers. -/
def add : Profile → BitVec w → BitVec w → Option (BitVec w)
  | debug, a, b => if a.uaddOverflow b then none else some (a + b)
  | release, a, b => some (a + b)

/-- `a - b` on `w`-bit unsigned integers. -/
def sub : Profile → BitVec w → BitVec w → Option (BitVec w)
  | debug, a, b => if a.usubOverflow b then none else some (a - b)
  | release, a, b => some (a - b)

/-- `a * b` on `w`-bit unsigned integers. -/
def mul : Profile → BitVec w → BitVec w → Option (BitVec w)
  | debug, a, b => if a.umulOverflow b then none else some (a * b)
  | release, a, b => some (a * b)

/-- `a >> k` on `w`-bit unsigned integers; `w` is a power of two, so masking
the shift amount is taking it modulo `w`. -/
def shr : Profile → BitVec w → Nat → Option (BitVec w)
  | debug, a, k => if k < w then some (a >>> k) else none
  | release, a, k => some (a >>> (k % w))

/-- Without overflow, both profiles add exactly. -/
theorem add_of_lt (p : Profile) {a b : BitVec w} (h : a.toNat + b.toNat < 2 ^ w) :
    p.add a b = some (a + b) ∧ (a + b).toNat = a.toNat + b.toNat := by
  have hexact : (a + b).toNat = a.toNat + b.toNat := BitVec.toNat_add_of_lt h
  cases p with
  | debug =>
      have hno : a.uaddOverflow b = false := by
        simp [BitVec.uaddOverflow, h]
      exact ⟨by rw [add, hno, if_neg (by decide)], hexact⟩
  | release => exact ⟨rfl, hexact⟩

/-- A shift by less than the width is the same in both profiles. -/
theorem shr_of_lt (p : Profile) (a : BitVec w) {k : Nat} (h : k < w) :
    p.shr a k = some (a >>> k) := by
  cases p with
  | debug => rw [shr, if_pos h]
  | release => rw [shr, Nat.mod_eq_of_lt h]

/-- Without underflow, both profiles subtract exactly. -/
theorem sub_of_le (p : Profile) {a b : BitVec w} (h : b.toNat ≤ a.toNat) :
    ∃ c, p.sub a b = some c ∧ c.toNat = a.toNat - b.toNat := by
  have hexact : (a - b).toNat = a.toNat - b.toNat := BitVec.toNat_sub_of_le h
  cases p with
  | debug =>
      have hno : a.usubOverflow b = false := by
        simp [BitVec.usubOverflow, not_lt.mpr h]
      exact ⟨a - b, by rw [sub, hno, if_neg (by decide)], hexact⟩
  | release => exact ⟨a - b, rfl, hexact⟩

/-- On underflow the debug build panics. -/
theorem sub_debug_of_lt {a b : BitVec w} (h : a.toNat < b.toNat) : debug.sub a b = none := by
  have hover : a.usubOverflow b = true := by simp [BitVec.usubOverflow, h]
  rw [sub, hover, if_pos rfl]

/-- On underflow the release build wraps around `2 ^ w`. -/
theorem sub_release_of_lt {a b : BitVec w} (h : a.toNat < b.toNat) :
    release.sub a b = some (a - b) ∧ (a - b).toNat = 2 ^ w - b.toNat + a.toNat := by
  refine ⟨rfl, ?_⟩
  have hb := b.isLt
  rw [BitVec.toNat_sub, Nat.mod_eq_of_lt (by omega)]

/-- Without overflow, both profiles multiply exactly. -/
theorem mul_of_lt (p : Profile) {a b : BitVec w} (h : a.toNat * b.toNat < 2 ^ w) :
    ∃ c, p.mul a b = some c ∧ c.toNat = a.toNat * b.toNat := by
  have hexact : (a * b).toNat = a.toNat * b.toNat := by
    rw [BitVec.toNat_mul, Nat.mod_eq_of_lt h]
  cases p with
  | debug =>
      have hno : a.umulOverflow b = false := by
        simp [BitVec.umulOverflow, h]
      exact ⟨a * b, by rw [mul, hno, if_neg (by decide)], hexact⟩
  | release => exact ⟨a * b, rfl, hexact⟩

/-- On overflow the debug build panics. -/
theorem mul_debug_of_le {a b : BitVec w} (h : 2 ^ w ≤ a.toNat * b.toNat) :
    debug.mul a b = none := by
  have hover : a.umulOverflow b = true := by simp [BitVec.umulOverflow, h]
  rw [mul, hover, if_pos rfl]

end Profile

section Panic

variable {σ α β : Type}

/-- `assert!(cond)`. -/
def assert (cond : Bool) : EStateM Unit σ Unit := fun s =>
  if cond then .ok () s else .error () s

/-- Checked arithmetic inside a call: a `none` result panics. -/
def checked (r : Option α) : EStateM Unit σ α := fun s =>
  match r with
  | some a => .ok a s
  | none => .error () s

theorem assert_bind (c : Bool) (k : Unit → EStateM Unit σ β) (s : σ) :
    (assert c >>= k) s = if c then k () s else .error () s := by
  cases c <;> rfl

theorem checked_some_bind (a : α) (k : α → EStateM Unit σ β) (s : σ) :
    (checked (some a) >>= k) s = k a s := rfl

theorem bind_of_ok {x : EStateM Unit σ α} {k : α → EStateM Unit σ β} {s s' : σ} {a : α}
    (h : x s = .ok a s') : (x >>= k) s = k a s' := by
  show EStateM.bind x k s = _
  rw [EStateM.bind, h]

/-- The state a call ends in, whether it returned or panicked. -/
def after : EStateM.Result Unit σ α → σ
  | .ok _ s => s
  | .error _ s => s

/-- Every run of `m`, returning or panicking, ends in a state that `R`
relates to the state it started from. -/
def Preserves (R : σ → σ → Prop) (m : EStateM Unit σ α) : Prop :=
  ∀ s, R s (after (m s))

/-! The rules below build `Preserves` for a call from its parts, for a
relation `R` that is reflexive (checks and arithmetic write nothing) and
transitive (the parts of a call run one after another). -/

section Rules

variable {R : σ → σ → Prop} (hrefl : ∀ s, R s s)
include hrefl

theorem preserves_pure (a : α) : Preserves R (pure a : EStateM Unit σ α) :=
  fun s => hrefl s

theorem preserves_assert (c : Bool) : Preserves R (assert c : EStateM Unit σ Unit) := by
  intro s
  cases c
  · exact hrefl s
  · exact hrefl s

theorem preserves_checked (r : Option α) : Preserves R (checked r : EStateM Unit σ α) := by
  intro s
  cases r
  · exact hrefl s
  · exact hrefl s

omit hrefl in
/-- A panic in the first part ends the call where the first part stopped; a
return runs the rest from there. -/
theorem Preserves.bind (htrans : ∀ s t u, R s t → R t u → R s u) {m : EStateM Unit σ α}
    {k : α → EStateM Unit σ β} (hm : Preserves R m) (hk : ∀ a, Preserves R (k a)) :
    Preserves R (m >>= k) := by
  intro s
  have hfirst := hm s
  show R s (after (EStateM.bind m k s))
  cases hms : m s with
  | ok a t =>
      rw [hms] at hfirst
      simp only [EStateM.bind, hms]
      exact htrans _ _ _ hfirst (hk a t)
  | error e t =>
      rw [hms] at hfirst
      simp only [EStateM.bind, hms]
      exact hfirst

end Rules

/-! A call on a state refines a call on an abstract state read off it
(`Simulates`): it returns or panics as the abstract call does, in a state
that reads as the abstract call's. The rule for `>>=` carries this through a
call's parts and a run's calls. -/

section Simulation

variable {τ : Type}

/-- A call's outcome with its state read through `f`. -/
def mapState (f : σ → τ) : EStateM.Result Unit σ α → EStateM.Result Unit τ α
  | .ok a s => .ok a (f s)
  | .error e s => .error e (f s)

/-- Every run of `m`, returning or panicking, reads through `f` as the run of
`m'` from the state the start reads as. -/
def Simulates (f : σ → τ) (m : EStateM Unit σ α) (m' : EStateM Unit τ α) : Prop :=
  ∀ s, mapState f (m s) = m' (f s)

theorem Simulates.bind {f : σ → τ} {m : EStateM Unit σ α} {m' : EStateM Unit τ α}
    {k : α → EStateM Unit σ β} {k' : α → EStateM Unit τ β} (hm : Simulates f m m')
    (hk : ∀ a, Simulates f (k a) (k' a)) : Simulates f (m >>= k) (m' >>= k') := by
  intro s
  have hfirst := hm s
  show mapState f (EStateM.bind m k s) = EStateM.bind m' k' (f s)
  cases hms : m s with
  | ok a t =>
      rw [hms] at hfirst
      -- the abstract call returned the same value, in the state `t` reads as
      simp only [EStateM.bind, hms, ← hfirst, mapState]
      exact hk a t
  | error e t =>
      rw [hms] at hfirst
      simp only [EStateM.bind, hms, ← hfirst, mapState]

end Simulation

end Panic

end Rust
