import Mathlib.Data.List.Basic
import Mathlib.Logic.Function.Basic

/-!
Threads that share one state and take one small step at a time. Every thread
runs the same code, a function of its own local state and the shared state;
a schedule names the thread that takes each step, so each interleaving of the
threads' steps is the run of a schedule.

Three facts carry the results built on this. A thread that a schedule does
not name keeps its local state (`exec_locals_of_not_mem`). A schedule that
runs each thread's steps back to back does what the threads' operations do
one after another (`exec_serial`), as soon as a thread run alone does its
operation (`Computes`). A round in which each of some threads takes one step,
whose new local state the shared state does not decide, sets those local
states and folds the threads' writes over the shared state (`exec_round`).
And an invariant that every step keeps, while a condition holds before and
after it, holds at the end of every run along which the condition always
holds (`Always.exec`).
-/

namespace Interleave

variable {α β σ L ι : Type}

/-- Operations done one after another on a state, with their results in order. -/
def runSeq (op : α → σ → β × σ) : List α → σ → List β × σ
  | [], s => ([], s)
  | a :: as, s =>
      let first := op a s
      let rest := runSeq op as first.2
      (first.1 :: rest.1, rest.2)

@[simp] theorem runSeq_nil (op : α → σ → β × σ) (s : σ) : runSeq op [] s = ([], s) := rfl

@[simp] theorem runSeq_cons (op : α → σ → β × σ) (a : α) (as : List α) (s : σ) :
    runSeq op (a :: as) s =
      ((op a s).1 :: (runSeq op as (op a s).2).1, (runSeq op as (op a s).2).2) := rfl

/-- Every thread's local state, and the shared state. -/
@[ext] structure Config (ι L σ : Type) where
  locals : ι → L
  shared : σ

variable [DecidableEq ι] (code : L → σ → L × σ)

/-- Thread `i` takes one step. -/
def Config.stepAt (c : Config ι L σ) (i : ι) : Config ι L σ :=
  ⟨Function.update c.locals i (code (c.locals i) c.shared).1, (code (c.locals i) c.shared).2⟩

/-- Run a schedule: the threads take steps in the order it names them. -/
def exec : List ι → Config ι L σ → Config ι L σ
  | [], c => c
  | i :: sch, c => exec sch (c.stepAt code i)

/-- One thread run alone for `n` steps. -/
def solo : Nat → L → σ → L × σ
  | 0, l, s => (l, s)
  | n + 1, l, s => solo n (code l s).1 (code l s).2

/-- `P` holds of the configuration before each step of the schedule and after the last. -/
def Always (P : Config ι L σ → Prop) : List ι → Config ι L σ → Prop
  | [], c => P c
  | i :: sch, c => P c ∧ Always P sch (c.stepAt code i)

/-- Run alone for `n` steps from `start a`, a thread does the operation `op a`:
it ends in `finish` of the operation's result, with the operation's shared state. -/
def Computes (n : Nat) (start : α → L) (finish : β → L) (op : α → σ → β × σ) : Prop :=
  ∀ a s, solo code n (start a) s = (finish (op a s).1, (op a s).2)

variable {code}

@[simp] theorem stepAt_locals_self (c : Config ι L σ) (i : ι) :
    (c.stepAt code i).locals i = (code (c.locals i) c.shared).1 :=
  Function.update_self _ _ _

theorem stepAt_locals_of_ne (c : Config ι L σ) {i j : ι} (h : j ≠ i) :
    (c.stepAt code i).locals j = c.locals j :=
  Function.update_of_ne h _ _

@[simp] theorem stepAt_shared (c : Config ι L σ) (i : ι) :
    (c.stepAt code i).shared = (code (c.locals i) c.shared).2 := rfl

@[simp] theorem exec_nil (c : Config ι L σ) : exec code [] c = c := rfl

@[simp] theorem exec_cons (i : ι) (sch : List ι) (c : Config ι L σ) :
    exec code (i :: sch) c = exec code sch (c.stepAt code i) := rfl

theorem exec_append (sch sch' : List ι) (c : Config ι L σ) :
    exec code (sch ++ sch') c = exec code sch' (exec code sch c) := by
  induction sch generalizing c with
  | nil => rfl
  | cons i sch ih => exact ih _

/-- A thread that the schedule never names keeps its local state. -/
theorem exec_locals_of_not_mem {sch : List ι} {i : ι} (h : i ∉ sch) (c : Config ι L σ) :
    (exec code sch c).locals i = c.locals i := by
  induction sch generalizing c with
  | nil => rfl
  | cons j sch ih =>
      rw [List.mem_cons, not_or] at h
      rw [exec_cons, ih h.2, stepAt_locals_of_ne c h.1]

/-- A schedule of `n` steps of one thread runs that thread alone. -/
theorem exec_replicate (n : Nat) (i : ι) (c : Config ι L σ) :
    exec code (List.replicate n i) c =
      ⟨Function.update c.locals i (solo code n (c.locals i) c.shared).1,
        (solo code n (c.locals i) c.shared).2⟩ := by
  induction n generalizing c with
  | zero => simp [solo]
  | succ n ih =>
      rw [List.replicate_succ, exec_cons, ih, stepAt_locals_self]
      simp only [Config.stepAt, Function.update_idem, solo]

/-- Threads whose calls a schedule runs back to back, each thread's steps
together, do what their operations do one after another: each thread ends in
`finish` of its operation's result, and the shared state is the last
operation's. Each thread must start at `start` of its input; the induction is
on the threads, and carries that the threads still to run are at their start. -/
theorem exec_serial {n : Nat} {start : α → L} {finish : β → L} {op : α → σ → β × σ}
    (hcode : Computes code n start finish op) (inp : ι → α) (ts : List ι) (hts : ts.Nodup)
    (c : Config ι L σ) (hc : ∀ i ∈ ts, c.locals i = start (inp i)) :
    ts.map (exec code (ts.flatMap fun i => List.replicate n i) c).locals =
        (runSeq op (ts.map inp) c.shared).1.map finish ∧
      (exec code (ts.flatMap fun i => List.replicate n i) c).shared =
        (runSeq op (ts.map inp) c.shared).2 := by
  induction ts generalizing c with
  | nil => simp
  | cons i ts ih =>
      obtain ⟨hi, hnd⟩ := List.nodup_cons.mp hts
      -- thread `i` runs first, alone, and does `op (inp i)`
      have hfirst : exec code (List.replicate n i) c =
          ⟨Function.update c.locals i (finish (op (inp i) c.shared).1),
            (op (inp i) c.shared).2⟩ := by
        rw [exec_replicate, hc i List.mem_cons_self, hcode]
      have hrest : ∀ j ∈ ts, (exec code (List.replicate n i) c).locals j = start (inp j) := by
        intro j hj
        have hji : j ≠ i := fun h => hi (h ▸ hj)
        rw [hfirst]
        dsimp only
        rw [Function.update_of_ne hji]
        exact hc j (List.mem_cons_of_mem i hj)
      -- and no later step is one of its own
      have hnot : i ∉ ts.flatMap fun j => List.replicate n j := by
        rw [List.mem_flatMap]
        rintro ⟨j, hj, hij⟩
        exact hi (List.eq_of_mem_replicate hij ▸ hj)
      obtain ⟨hlocals, hshared⟩ := ih hnd _ hrest
      rw [List.flatMap_cons, exec_append]
      refine ⟨?_, ?_⟩
      · rw [List.map_cons, exec_locals_of_not_mem hnot, hlocals, hfirst]
        simp
      · rw [hshared, hfirst]
        simp

/-- Each of some distinct threads takes one step, in the order listed. While
the shared state satisfies `P`, thread `i`'s step moves it to `f i` and
writes `g i` over the shared state, which keeps `P`. -/
theorem exec_round (P : σ → Prop) (f : ι → L) (g : ι → σ → σ) (hg : ∀ i s, P s → P (g i s))
    (ts : List ι) (hts : ts.Nodup) (c : Config ι L σ) (hP : P c.shared)
    (hstep : ∀ i ∈ ts, ∀ s, P s → code (c.locals i) s = (f i, g i s)) :
    exec code ts c =
      ⟨fun j => if j ∈ ts then f j else c.locals j, ts.foldl (fun s i => g i s) c.shared⟩ := by
  induction ts generalizing c with
  | nil => ext j <;> simp
  | cons i ts ih =>
      obtain ⟨hi, hnd⟩ := List.nodup_cons.mp hts
      have hone : c.stepAt code i = ⟨Function.update c.locals i (f i), g i c.shared⟩ := by
        simp only [Config.stepAt, hstep i List.mem_cons_self c.shared hP]
      have hrest : ∀ j ∈ ts, ∀ s, P s → code ((c.stepAt code i).locals j) s = (f j, g j s) := by
        intro j hj s hs
        have hji : j ≠ i := fun h => hi (h ▸ hj)
        rw [stepAt_locals_of_ne c hji]
        exact hstep j (List.mem_cons_of_mem i hj) s hs
      rw [exec_cons, ih hnd _ (hone ▸ hg i _ hP) hrest, hone]
      ext j
      · by_cases hj : j ∈ ts
        · have hji : j ∈ i :: ts := List.mem_cons_of_mem i hj
          simp only [hj, hji, if_true]
        · by_cases hji : j = i
          · subst hji
            simp [hj]
          · simp [hj, hji]
      · simp

theorem Always.head {P : Config ι L σ → Prop} {sch : List ι} {c : Config ι L σ}
    (h : Always code P sch c) : P c := by
  cases sch with
  | nil => exact h
  | cons i sch => exact h.1

/-- A decidable condition is decided along a schedule, one configuration at a
time, so that `decide` checks it of a concrete run. -/
instance Always.decidable {P : Config ι L σ → Prop} [DecidablePred P] :
    (sch : List ι) → (c : Config ι L σ) → Decidable (Always code P sch c)
  | [], c => inferInstanceAs (Decidable (P c))
  | i :: sch, c =>
      have : Decidable (Always code P sch (c.stepAt code i)) := Always.decidable sch _
      inferInstanceAs (Decidable (P c ∧ Always code P sch (c.stepAt code i)))

/-- The invariant rule: an invariant that each step keeps, when `P` holds
before and after the step, holds after every run along which `P` always holds. -/
theorem Always.exec {P I : Config ι L σ → Prop}
    (hstep : ∀ c i, I c → P c → P (c.stepAt code i) → I (c.stepAt code i))
    (sch : List ι) (c : Config ι L σ) (hI : I c) (hP : Always code P sch c) :
    I (exec code sch c) := by
  induction sch generalizing c with
  | nil => exact hI
  | cons i sch ih =>
      obtain ⟨hc, hrest⟩ := hP
      exact ih _ (hstep c i hI hc (Always.head hrest)) hrest

end Interleave
