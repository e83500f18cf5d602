import Microjet.Lib.Log
import Microjet.Proofs.HostMoves

/-!
# A Start that fails

The first hook of `Start` that returns an error is the last one it calls. The body then closes
the app and ends with that error, under the message of its phase, so every call of `Start`
returns it (`FailInv`).
-/

namespace Microjet.Host

open Errorx

variable {K I H W : Type}

/-- The body ends with the error. -/
def Starting.Failed (err : Err) (c : Starting K I H W) : Prop :=
  c = .failing err ∨ c = .done (some err)

variable {c : Starting K I H W}

theorem Starting.Failed.enter {err : Err} (h : c.Failed err) :
    c.enter.Failed err := by
  rcases h with rfl | rfl
  · exact .inl rfl
  · exact .inr rfl

/-- The body is over but for the close. -/
def Starting.ended : Starting K I H W → Bool
  | .failing _ => true
  | .done _ => true
  | _ => false

theorem Starting.Failed.ended {err : Err} (h : c.Failed err) :
    c.ended = true := by
  rcases h with rfl | rfl <;> rfl

/-- The message of a phase. -/
def Phase.message : Phase → String
  | .config => "initializing services"
  | .init => "initializing services"
  | .setup => "setting up services"
  | .start => "starting services"
  | .close => ""

/-- The error that ends `Start`. -/
def Note.failure : Note K I H W → Option Err
  | .returned .close _ _ _ => none
  | .returned p _ _ (some e) => some (Runtime.phaseError p.message e)
  | _ => none

/-- Something `Start` does. -/
def Note.ofStart : Note K I H W → Bool
  | .called .close _ _ => false
  | .called _ _ _ => true
  | .launched _ => true
  | _ => false

/-- `Start` does nothing after a failure. -/
def HaltsOnFailure (n : Note K I H W) (older : List (Note K I H W)) : Prop :=
  n.ofStart = true → ∀ m ∈ older, m.failure = none

namespace Starting

/-- A failure in the log is what the body ends with. -/
structure Course (c : Starting K I H W) (log : List (Note K I H W)) : Prop where
  failed : ∀ n ∈ log, ∀ err, n.failure = some err → c.Failed err
  answered : ∀ err, .answered .start err ∈ log → c = .done err
  halts : Log.Each HaltsOnFailure log

variable {c c' : Starting K I H W} {log : List (Note K I H W)} {n : Note K I H W}

variable (h : c.Course log)

include h

theorem Course.not_failed (hc : c.ended = false) :
    ∀ m ∈ log, m.failure = none := by
  intro m hm
  cases hmf : m.failure with
  | none => rfl
  | some err => cases hc.symm.trans (h.failed m hm err hmf).ended

theorem Course.not_answered (hc : c.ended = false) (err : Option Err) :
    .answered .start err ∉ log := by
  intro hm
  rw [h.answered err hm] at hc
  cases hc

theorem Course.move (hc : c.ended = false) : c'.Course log where
  failed := fun m hm err herr => by
    rw [h.not_failed hc m hm] at herr
    cases herr
  answered := fun err hm => absurd hm (h.not_answered hc err)
  halts := h.halts

theorem Course.go (hc : c.ended = false)
    (hf : ∀ err, n.failure = some err → c'.Failed err) (ha : ∀ err, n ≠ .answered .start err) :
    c'.Course (n :: log) where
  failed := fun m hm err herr => by
    rcases List.mem_cons.mp hm with rfl | hm
    · exact hf err herr
    · rw [h.not_failed hc m hm] at herr
      cases herr
  answered := fun err hm => by
    rcases List.mem_cons.mp hm with hm | hm
    · exact absurd hm.symm (ha err)
    · exact absurd hm (h.not_answered hc err)
  halts := ⟨fun _ => h.not_failed hc, h.halts⟩

theorem Course.note (hf : n.failure = none)
    (ha : ∀ err, n = .answered .start err → c = .done err) (hs : n.ofStart = false) :
    c.Course (n :: log) where
  failed := fun m hm err herr => by
    rcases List.mem_cons.mp hm with rfl | hm
    · rw [hf] at herr
      cases herr
    · exact h.failed m hm err herr
  answered := fun err hm => by
    rcases List.mem_cons.mp hm with hm | hm
    · exact ha err hm.symm
    · exact h.answered err hm
  halts := by
    refine ⟨fun hn => ?_, h.halts⟩
    rw [hs] at hn
    cases hn

theorem Course.enter : c.enter.Course log := by
  cases c with
  | fresh => exact h.move rfl
  | _ => exact h

end Starting

namespace Runtime

variable [DecidableEq K] [DecidableEq I] {svc : I → Service} {s s' : Runtime K I H W}
  {c : Starting K I H W}

omit [DecidableEq K] [DecidableEq I] in
theorem answer_start {err : Option Err} (h : s.answer .start = some err) :
    s.start = .done err := by
  simp only [answer] at h
  split at h
  next hc =>
    cases h
    exact hc
  next => cases h

theorem StartMoves.course (hs : c.Course s.log) (h : StartMoves svc s c s') :
    s'.start.Course s'.log := by
  cases h with
  | @callInit r k todo i htodo hi hdue hhas =>
    exact (hs.note (n := .visited _ _ _ _) rfl nofun rfl).go rfl nofun nofun
  | @initFailed r k i e =>
    refine hs.go rfl (fun err herr => .inl ?_) nofun
    cases hp : r.pass <;> rw [hp] at herr <;> cases herr <;> rfl
  | setupFailed | startFailed =>
    refine hs.go rfl (fun err herr => .inl ?_) nofun
    cases herr
    rfl
  | @initReturned r k i =>
    refine hs.go rfl (fun err herr => ?_) nofun
    cases hp : r.pass <;> rw [hp] at herr <;> cases herr
  | visit | callSetup | setupReturned | handler | handlerReturned | handlerFailed | callStart
  | startReturned | launch | launchService => exact hs.go rfl nofun nofun
  | fail hclosed =>
    refine ⟨fun m hm e he => ?_, fun e hm => ?_, hs.halts⟩
    · rcases hs.failed m hm e he with hf | hf <;> cases hf
      exact .inr rfl
    · cases hs.answered e hm
  | _ => exact hs.move rfl

omit [DecidableEq K] [DecidableEq I] in
theorem course_init : (Runtime.start {} : Starting K I H W).Course [] := ⟨nofun, nofun, trivial⟩

theorem course_step [DecidableEq W] {e : Event K I H W} (hs : s.start.Course s.log)
    (h : s.step svc e = some s') : s'.start.Course s'.log := by
  cases moves h with
  | start hc hstack h =>
    subst hc
    exact h.course hs
  | close he hc h =>
    cases h with
    | callClose | closeReturned => exact hs.note rfl nofun rfl
    | _ => exact hs
  | call e =>
    cases e with
    | start => exact hs.enter
    | _ => exact hs
  | @answered t e rest err hstack ha =>
    refine hs.note rfl (fun x hx => ?_) rfl
    cases hx
    exact answer_start ha
  | provide | handlerReturned | handlerFailed | handler => exact hs.note rfl nofun rfl
  | _ => exact hs

/-! ### The stack of the body's goroutine -/

/-- The stack is empty unless a hook is running. -/
def Idle (s : Runtime K I H W) : Prop := s.start.busy = false → s.stack .start = []

omit [DecidableEq K] [DecidableEq I] in
theorem busy_of_outside (ho : s.outside .start = true) (hs : s.Idle) : s.start.busy = true := by
  cases hb : s.start.busy with
  | true => rfl
  | false =>
    rw [outside, hs hb, hb] at ho
    cases ho

omit [DecidableEq K] [DecidableEq I] in
theorem Idle.push {t : Thread} {f : Frame H} (hs : s.Idle) (ho : s.outside t = true)
    (hstart : s'.start.busy = s.start.busy)
    (hstack : s'.stack = Function.update s.stack t (f :: s.stack t)) : s'.Idle := by
  intro hb
  rw [hstart] at hb
  rw [hstack]
  by_cases ht : t = .start
  · subst ht
    cases hb.symm.trans (busy_of_outside ho hs)
  · rw [Function.update_of_ne (Ne.symm ht)]
    exact hs hb

omit [DecidableEq K] [DecidableEq I] in
theorem Idle.pop {t : Thread} {f : Frame H} {fs rest : List (Frame H)} (hs : s.Idle)
    (htop : s.stack t = f :: rest) (hstart : s'.start.busy = s.start.busy)
    (hstack : s'.stack = Function.update s.stack t fs) : s'.Idle := by
  intro hb
  rw [hstart] at hb
  rw [hstack]
  by_cases ht : t = .start
  · subst ht
    rw [hs hb] at htop
    cases htop
  · rw [Function.update_of_ne (Ne.symm ht)]
    exact hs hb

omit [DecidableEq K] [DecidableEq I] in
theorem enter_busy (s : Runtime K I H W) (e : Entry) : (s.enter e).start.busy = s.start.busy := by
  cases e with
  | start =>
    show s.start.enter.busy = s.start.busy
    cases s.start <;> rfl
  | _ => rfl

theorem StartMoves.stack (h : StartMoves svc s c s') : s'.stack = s.stack := by
  cases h <;> rfl

theorem Idle.step [DecidableEq W] {e : Event K I H W} (hs : s.Idle)
    (h : s.step svc e = some s') : s'.Idle := by
  cases moves h with
  | start hc hstack h => exact fun _ => h.stack ▸ hstack
  | close he hc h => cases h <;> exact hs
  | drain ho => exact hs.push ho rfl rfl
  | call e ho =>
    refine hs.push (f := .await e) ho (enter_busy s e) ?_
    cases e <;> rfl
  | handlerReturned htop | handlerFailed htop | handler htop | drained htop | answered htop =>
    exact hs.pop htop rfl rfl
  | _ => exact hs

end Runtime

end Microjet.Host
