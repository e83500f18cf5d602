import Mathlib.Logic.Function.Basic

/-!
# Programs that ask, and threads that run them

A `Prog` asks its surroundings questions; a `Machine` gives every question an atomic step on a
shared state, with any answer the step allows. Failures, clocks and the choices of a scheduler
are answers like any other. A property of every `Reach`able configuration is one of every
schedule. `Prog.runWith` is one thread, alone, against a function that answers.
-/

namespace Conc

/-- Code that asks questions `op : Op`, each answered by an `Ans op`, and
returns an `α`. -/
inductive Prog (Op : Type) (Ans : Op → Type) (α : Type) : Type where
  | ret (a : α) : Prog Op Ans α
  | call (op : Op) (k : Ans op → Prog Op Ans α) : Prog Op Ans α

namespace Prog

variable {Op : Type} {Ans : Op → Type} {α β : Type}

/-- One program after the other. -/
def bind : Prog Op Ans α → (α → Prog Op Ans β) → Prog Op Ans β
  | .ret a, f => f a
  | .call op k, f => .call op fun a => (k a).bind f

instance : Monad (Prog Op Ans) where
  pure := .ret
  bind := bind

/-- One question. -/
def ask (op : Op) : Prog Op Ans (Ans op) := .call op .ret

@[simp] theorem pure_eq (a : α) : (pure a : Prog Op Ans α) = .ret a := rfl

@[simp] theorem ret_bind (a : α) (f : α → Prog Op Ans β) :
    (Prog.ret a >>= f) = f a := rfl

@[simp] theorem call_bind (op : Op) (k : Ans op → Prog Op Ans α)
    (f : α → Prog Op Ans β) :
    (Prog.call op k >>= f) = .call op fun a => k a >>= f := rfl

@[simp] theorem ask_bind (op : Op) (f : Ans op → Prog Op Ans β) :
    (ask op >>= f) = .call op f := rfl

/-- Run a program alone, against a function that answers every question and
says what the state is afterwards. -/
def runWith {St : Type} (serve : (op : Op) → St → Ans op × St) :
    Prog Op Ans α → St → α × St
  | .ret a, s => (a, s)
  | .call op k, s => (k (serve op s).1).runWith serve (serve op s).2

variable {St : Type}

@[simp] theorem runWith_ret (serve : (op : Op) → St → Ans op × St)
    (a : α) (s : St) : (Prog.ret a).runWith serve s = (a, s) := rfl

@[simp] theorem runWith_call (serve : (op : Op) → St → Ans op × St) (op : Op)
    (k : Ans op → Prog Op Ans α) (s : St) :
    (Prog.call op k).runWith serve s =
      (k (serve op s).1).runWith serve (serve op s).2 := rfl

theorem runWith_bind (serve : (op : Op) → St → Ans op × St)
    (p : Prog Op Ans α) (f : α → Prog Op Ans β) (s : St) :
    (p >>= f).runWith serve s =
      (f (p.runWith serve s).1).runWith serve (p.runWith serve s).2 := by
  induction p generalizing s with
  | ret a => rfl
  | call op k ih =>
    rw [call_bind, runWith_call, runWith_call]
    exact ih _ _

theorem runWith_bind_of {serve : (op : Op) → St → Ans op × St}
    {p : Prog Op Ans α} {s s' : St} {a : α} (h : p.runWith serve s = (a, s'))
    (f : α → Prog Op Ans β) :
    (p >>= f).runWith serve s = (f a).runWith serve s' := by
  rw [runWith_bind, h]

end Prog

/-- What questions do: `exec t op s a s'` is one atomic step, in which thread `t` asks `op`, is
answered `a` and leaves `s'`. The other fields say what starting, returning and crashing do, and
what the environment does by itself. -/
structure Machine (Tid Op : Type) (Ans : Op → Type) (St α : Type) where
  start : Tid → Prog Op Ans α → St → St → Prop
  exec : Tid → (op : Op) → St → Ans op → St → Prop
  finish : Tid → α → St → St → Prop
  crash : Tid → St → St → Prop
  env : St → St → Prop

/-- The shared state and what every thread has left to do. -/
structure Config (Tid Op : Type) (Ans : Op → Type) (St α : Type) where
  st : St
  procs : Tid → Option (Prog Op Ans α)

section Steps

variable {Tid Op : Type} {Ans : Op → Type} {St α : Type} [DecidableEq Tid]

/-- A thread goes on, starts, returns or crashes, or the environment moves. -/
inductive Step (M : Machine Tid Op Ans St α) :
    Config Tid Op Ans St α → Config Tid Op Ans St α → Prop where
  | start {c : Config Tid Op Ans St α} {t : Tid} {p : Prog Op Ans α} {s' : St}
      (hidle : c.procs t = none) (h : M.start t p c.st s') :
      Step M c ⟨s', Function.update c.procs t (some p)⟩
  | exec {c : Config Tid Op Ans St α} {t : Tid} {op : Op}
      {k : Ans op → Prog Op Ans α} {a : Ans op} {s' : St}
      (hrun : c.procs t = some (.call op k)) (h : M.exec t op c.st a s') :
      Step M c ⟨s', Function.update c.procs t (some (k a))⟩
  | finish {c : Config Tid Op Ans St α} {t : Tid} {a : α} {s' : St}
      (hrun : c.procs t = some (.ret a)) (h : M.finish t a c.st s') :
      Step M c ⟨s', Function.update c.procs t none⟩
  | crash {c : Config Tid Op Ans St α} {t : Tid} {p : Prog Op Ans α} {s' : St}
      (hrun : c.procs t = some p) (h : M.crash t c.st s') :
      Step M c ⟨s', Function.update c.procs t none⟩
  | env {c : Config Tid Op Ans St α} {s' : St} (h : M.env c.st s') :
      Step M c ⟨s', c.procs⟩

/-- The configurations some schedule reaches from an initial state with every
thread idle. -/
inductive Reach (M : Machine Tid Op Ans St α) (init : St → Prop) :
    Config Tid Op Ans St α → Prop where
  | init {s : St} (h : init s) : Reach M init ⟨s, fun _ => none⟩
  | step {c c' : Config Tid Op Ans St α} (hc : Reach M init c)
      (h : Step M c c') : Reach M init c'

variable {M : Machine Tid Op Ans St α} {init : St → Prop}

variable {serve : (op : Op) → St → Ans op × St}

/-- A thread runs alone to the end of its program, if `serve` only answers what the machine
allows. -/
theorem Reach.alone {P : St → Prop} {t : Tid}
    (hserve : ∀ op s, P s → M.exec t op s (serve op s).1 (serve op s).2 ∧
      P (serve op s).2)
    {p : Prog Op Ans α} {s : St} {procs : Tid → Option (Prog Op Ans α)}
    (hP : P s) (h : Reach M init ⟨s, Function.update procs t (some p)⟩) :
    Reach M init ⟨(p.runWith serve s).2,
      Function.update procs t (some (.ret (p.runWith serve s).1))⟩ ∧
      P (p.runWith serve s).2 := by
  induction p generalizing s with
  | ret a => exact ⟨h, hP⟩
  | call op k ih =>
    obtain ⟨hexec, hP'⟩ := hserve op s hP
    refine ih _ hP' ?_
    have hstep := Reach.step h (Step.exec (Function.update_self _ _ _) hexec)
    rwa [Function.update_idem] at hstep

theorem Reach.job {P : St → Prop} {t : Tid}
    (hserve : ∀ op s, P s → M.exec t op s (serve op s).1 (serve op s).2 ∧
      P (serve op s).2)
    {p : Prog Op Ans α} {s s₀ s' : St} {procs : Tid → Option (Prog Op Ans α)}
    (h : Reach M init ⟨s, procs⟩) (hidle : procs t = none)
    (hstart : M.start t p s s₀) (hP : P s₀)
    (hfinish : M.finish t (p.runWith serve s₀).1 (p.runWith serve s₀).2 s') :
    Reach M init ⟨s', procs⟩ := by
  have hrun := (Reach.alone hserve hP (.step h (.start hidle hstart))).1
  have hend := Reach.step hrun (Step.finish (Function.update_self _ _ _) hfinish)
  rwa [Function.update_idem, ← hidle, Function.update_eq_self] at hend

end Steps

end Conc
