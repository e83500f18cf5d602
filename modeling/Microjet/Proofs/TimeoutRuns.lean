import Microjet.Lib.Run
import Microjet.Middleware.Timeout
import Microjet.Proofs.GinCalls

/-!
# The timeout writer under every schedule

A run is described by the writer it started from and the calls so far (`Inv`). Whether a request
is answered as expired is a matter of the moves alone (`Expired`, `Timing`): it is not enough
that the deferred function reads no expiry, since the watcher may still be selecting, but
nothing closes `ctx.Done()` by itself before the watcher has been waited for.
-/

namespace Microjet.Middleware

open Gin Trace

def onCode (code : Int) : Call → Int
  | .writeHeader code => code
  | _ => code

/-- The last code. -/
def finalCode (cs : List Call) : Int := cs.foldl onCode 200

/-- The headers at the end. -/
def finalHeader (h : Header) (cs : List Call) : Header := cs.foldl Call.onHeader h

/-- What a commit calls. -/
def commitCalls (cs : List Call) : List Call :=
  .writeHeader (finalCode cs) :: if payloads cs = [] then [] else [.write (payloads cs)]

def timeoutHeader (h : Header) : Header := h.set contentType jsonContentType

/-- What the watcher calls. -/
def timeoutCalls : List Call := [.writeHeader 503, .write timeoutBody, .flush]

def withHeader (w : ResponseWriter) (h : Header) : ResponseWriter := { w with header := h }

namespace TimeoutWriter

variable {w : TimeoutWriter} {c : Call} {cs : List Call}

theorem calls_append (cs ds : List Call) : w.calls (cs ++ ds) = (w.calls cs).calls ds :=
  List.foldl_append

theorem calls_snoc : w.calls (cs ++ [c]) = (w.calls cs).call c := by
  rw [calls_append]
  rfl

theorem call_buffering (h : w.state = .stBuffering) :
    w.call c =
      { w with
        buf := w.buf ++ c.payload
        code := onCode w.code c
        header := c.onHeader w.header } := by
  obtain ⟨under, buf, code, state, header⟩ := w
  cases h
  cases c <;> simp [call, changeHeader, writeHeader, write, writeString, writeHeaderNow, flush,
    onCode, Call.onHeader, Call.payload]

theorem call_passthrough (h : w.state = .stPassthrough) :
    w.call c = { w with under := w.under.call c } := by
  obtain ⟨under, buf, code, state, header⟩ := w
  cases h
  cases c <;> rfl

theorem call_timedOut (h : w.state = .stTimedOut) :
    w.call c = { w with header := (w.call c).header } := by
  obtain ⟨under, buf, code, state, header⟩ := w
  cases h
  cases c <;> rfl

theorem calls_buffering (h : w.state = .stBuffering) :
    w.calls cs =
      { w with
        buf := w.buf ++ payloads cs
        code := cs.foldl onCode w.code
        header := finalHeader w.header cs } := by
  induction cs generalizing w with
  | nil => simp [calls, payloads, finalHeader]
  | cons c cs ih =>
    have hstate : (w.call c).state = .stBuffering := by
      rw [call_buffering h]
      exact h
    show (w.call c).calls cs = _
    rw [ih hstate, call_buffering h]
    simp [payloads, finalHeader]

theorem calls_new (g : ResponseWriter) :
    (newTimeoutWriter g).calls cs =
      { under := g
        buf := payloads cs
        code := finalCode cs
        state := .stBuffering
        header := finalHeader g.header cs } :=
  calls_buffering rfl

theorem calls_passthrough (h : w.state = .stPassthrough) :
    w.calls cs = { w with under := w.under.calls cs } := by
  induction cs generalizing w with
  | nil => rfl
  | cons c cs ih =>
    have hstate : (w.call c).state = .stPassthrough := by
      rw [call_passthrough h]
      exact h
    show (w.call c).calls cs = _
    rw [ih hstate, call_passthrough h]
    rfl

/-! ### Leaving the buffer -/

theorem writeTimeout_of_ne (h : w.state ≠ .stBuffering) : w.writeTimeout = w := if_pos h

theorem commit_of_ne (h : w.state ≠ .stBuffering) : w.commit = w := if_pos h

theorem enablePassthrough_of_ne (h : w.state ≠ .stBuffering) : w.enablePassthrough = w :=
  if_pos h

theorem writeTimeout_new (g : ResponseWriter) :
    ((newTimeoutWriter g).calls cs).writeTimeout =
      { under := (withHeader g (timeoutHeader g.header)).calls timeoutCalls
        buf := payloads cs
        code := 503
        state := .stTimedOut
        header := finalHeader g.header cs } := by
  rw [calls_new]
  rfl

theorem commit_new (g : ResponseWriter) :
    ((newTimeoutWriter g).calls cs).commit =
      { under := (withHeader g (finalHeader g.header cs)).calls (commitCalls cs)
        buf := payloads cs
        code := finalCode cs
        state := .stPassthrough
        header := finalHeader g.header cs } := by
  rw [calls_new]
  simp only [commit, commitCalls, ne_eq, not_true, if_false]
  by_cases hbuf : payloads cs = []
  · simp [hbuf, ResponseWriter.calls, ResponseWriter.call, withHeader]
  · simp [hbuf, ResponseWriter.calls, ResponseWriter.call, withHeader, List.length_pos_iff]

theorem enablePassthrough_new (g : ResponseWriter) :
    ((newTimeoutWriter g).calls cs).enablePassthrough =
      { under := g
        buf := []
        code := finalCode cs
        state := .stPassthrough
        header := finalHeader g.header cs } := by
  rw [calls_new]
  rfl

end TimeoutWriter

/-- The steps, as a relation. -/
inductive Race.Moves (r : Race) : Move → Race → Prop
  | call (c : Call) (hmain : r.main = .handling) :
      Moves r (.call c) { r with tw := r.tw.call c }
  | ctxDone : Moves r .ctxDone { r with ctxDone := true }
  | deadline : Moves r .deadline { r with pastDeadline := true }
  | select (hsel : r.watcher = .selecting) (hctx : r.ctxDone = true) :
      Moves r .select { r with watcher := .firing }
  | retire : Moves r .retire { r with watcher := .exited }
  | fire (hfire : r.watcher = .firing) :
      Moves r .fire { r with tw := r.tw.writeTimeout, watcher := .exited }
  | finish (p : Bool) (hmain : r.main = .handling) :
      Moves r (.finish p) { r with main := .ended p }
  | checkErr (p : Bool) (hmain : r.main = .ended p) :
      Moves r .checkErr { r with main := .checked p r.ctxDone }
  | checkDeadline (p e : Bool) (hmain : r.main = .checked p e) :
      Moves r .checkDeadline { r with main := .decided p (e || r.pastDeadline) }
  | closeDone (p e : Bool) (hmain : r.main = .decided p e) :
      Moves r .closeDone { r with done := true, main := .closed p e }
  | wait (p e : Bool) (hmain : r.main = .closed p e) (hexit : r.watcher = .exited) :
      Moves r .wait { r with main := .waited p e }
  | answer (p e : Bool) (hmain : r.main = .waited p e) :
      Moves r .answer
        { r with tw := if e then r.tw.writeTimeout else r.tw, main := .answered p e }
  | cancel (p e : Bool) (hmain : r.main = .answered p e) :
      Moves r .cancel { r with ctxDone := true, main := .cancelled p e }
  | settle (p e : Bool) (hmain : r.main = .cancelled p e) :
      Moves r .settle
        { r with
          tw := if p then r.tw.enablePassthrough else r.tw.commit
          main := .returned p e }
  | outer (c : Call) (p e : Bool) (hmain : r.main = .returned p e) :
      Moves r (.outer c) { r with tw := r.tw.call c }

theorem Race.moves {r r' : Race} {m : Move} (h : r.step m = some r') : r.Moves m r' := by
  cases m with
  | ctxDone =>
    cases h
    exact .ctxDone
  | deadline =>
    cases h
    exact .deadline
  | select =>
    obtain ⟨⟨hsel, hctx⟩, heq⟩ := Option.ite_none_right_eq_some.mp h
    cases heq
    exact .select hsel hctx
  | retire =>
    obtain ⟨_, heq⟩ := Option.ite_none_right_eq_some.mp h
    cases heq
    exact .retire
  | fire =>
    obtain ⟨hfire, heq⟩ := Option.ite_none_right_eq_some.mp h
    cases heq
    exact .fire hfire
  | call c =>
    simp only [Race.step] at h
    split at h
    · next hmain =>
        cases h
        exact .call c hmain
    · cases h
  | finish p =>
    cases hmain : r.main <;> simp only [Race.step, hmain] at h <;> cases h
    exact .finish p hmain
  | checkErr =>
    cases hmain : r.main <;> simp only [Race.step, hmain] at h <;> cases h
    exact .checkErr _ hmain
  | checkDeadline =>
    cases hmain : r.main <;> simp only [Race.step, hmain] at h <;> cases h
    exact .checkDeadline _ _ hmain
  | closeDone =>
    cases hmain : r.main <;> simp only [Race.step, hmain] at h <;> cases h
    exact .closeDone _ _ hmain
  | wait =>
    simp only [Race.step] at h
    split at h
    · next hmain =>
        obtain ⟨hexit, heq⟩ := Option.ite_none_right_eq_some.mp h
        cases heq
        exact .wait _ _ hmain hexit
    · cases h
  | answer =>
    cases hmain : r.main <;> simp only [Race.step, hmain] at h <;> cases h
    exact .answer _ _ hmain
  | cancel =>
    cases hmain : r.main <;> simp only [Race.step, hmain] at h <;> cases h
    exact .cancel _ _ hmain
  | settle =>
    cases hmain : r.main <;> simp only [Race.step, hmain] at h <;> cases h
    exact .settle _ _ hmain
  | outer c =>
    simp only [Race.step] at h
    split at h
    · next hmain =>
        cases h
        exact .outer c _ _ hmain
    · cases h

/-! ### The invariant -/

/-- The calls of the handler. -/
def handlerCalls (ms : List Move) : List Call := ms.filterMap Move.handlerCall

/-- The calls of the outer layers. -/
def outerCalls (ms : List Move) : List Call := ms.filterMap Move.outerCall

/-- The writer after the handler's calls. -/
def handled (g : ResponseWriter) (ms : List Move) : TimeoutWriter :=
  (newTimeoutWriter g).calls (handlerCalls ms)

/-- The writer after the commit. -/
def settled (g : ResponseWriter) (panicked : Bool) (ms : List Move) : TimeoutWriter :=
  (if panicked then (handled g ms).enablePassthrough else (handled g ms).commit).calls
    (outerCalls ms)

/-- The writer may still buffer. -/
def Main.undecided : Main → Bool
  | .answered _ expired => !expired
  | .cancelled _ expired => !expired
  | .returned _ _ => false
  | _ => true

/-- What the writers are in each state. -/
structure Inv (g : ResponseWriter) (ms : List Move) (r : Race) : Prop where
  buffering : r.tw.state = .stBuffering →
    r.tw = handled g ms ∧ r.main.undecided = true ∧ outerCalls ms = []
  passthrough : r.tw.state = .stPassthrough →
    ∃ panicked, r.main = .returned panicked false ∧ r.tw = settled g panicked ms
  timedOut : r.tw.state = .stTimedOut →
    r.tw.under = (withHeader g (timeoutHeader g.header)).calls timeoutCalls ∧
      r.tw.code = 503

namespace Inv

variable {g : ResponseWriter} {ms : List Move} {r r' : Race} {m : Move}

theorem of_buffering (hst : r.tw.state = .stBuffering) (htw : r.tw = handled g ms)
    (hund : r.main.undecided = true) (hnone : outerCalls ms = []) : Inv g ms r where
  buffering _ := ⟨htw, hund, hnone⟩
  passthrough h := by simp [hst] at h
  timedOut h := by simp [hst] at h

theorem of_passthrough (panicked : Bool) (hst : r.tw.state = .stPassthrough)
    (hmain : r.main = .returned panicked false) (htw : r.tw = settled g panicked ms) :
    Inv g ms r where
  buffering h := by simp [hst] at h
  passthrough _ := ⟨panicked, hmain, htw⟩
  timedOut h := by simp [hst] at h

theorem of_timedOut (hst : r.tw.state = .stTimedOut)
    (hunder : r.tw.under = (withHeader g (timeoutHeader g.header)).calls timeoutCalls)
    (hcode : r.tw.code = 503) : Inv g ms r where
  buffering h := by simp [hst] at h
  passthrough h := by simp [hst] at h
  timedOut _ := ⟨hunder, hcode⟩

theorem start (g : ResponseWriter) : Inv g [] (Race.start g) :=
  of_buffering rfl rfl rfl rfl

theorem handled_snoc (h : m.handlerCall = none) : handled g (ms ++ [m]) = handled g ms := by
  simp [handled, handlerCalls, h]

theorem outerCalls_snoc (h : m.outerCall = none) : outerCalls (ms ++ [m]) = outerCalls ms := by
  simp [outerCalls, h]

theorem settled_snoc {panicked : Bool} (h : m.handlerCall = none) (h' : m.outerCall = none) :
    settled g panicked (ms ++ [m]) = settled g panicked ms := by
  rw [settled, settled, handled_snoc h, outerCalls_snoc h']

section

variable (hr : Inv g ms r)

include hr

theorem quiet (htw : r'.tw = r.tw) (h : m.handlerCall = none) (h' : m.outerCall = none)
    (hmain : r.main.undecided = true → r'.main.undecided = true)
    (hret : ∀ p e, r.main = .returned p e → r'.main = r.main) : Inv g (ms ++ [m]) r' where
  buffering hst := by
    rw [htw] at hst
    obtain ⟨heq, hund, hnone⟩ := hr.buffering hst
    rw [htw, handled_snoc h, outerCalls_snoc h']
    exact ⟨heq, hmain hund, hnone⟩
  passthrough hst := by
    rw [htw] at hst
    obtain ⟨p, hp, heq⟩ := hr.passthrough hst
    refine ⟨p, (hret p false hp).trans hp, ?_⟩
    rw [htw, settled_snoc h h']
    exact heq
  timedOut hst := by
    rw [htw] at hst ⊢
    exact hr.timedOut hst

theorem writeTimeout (htw : r'.tw = r.tw.writeTimeout)
    (h : m.handlerCall = none) (h' : m.outerCall = none)
    (hret : ∀ p e, r.main = .returned p e → r'.main = r.main) : Inv g (ms ++ [m]) r' := by
  cases hst : r.tw.state with
  | stBuffering =>
    obtain ⟨heq, _⟩ := hr.buffering hst
    rw [heq, handled, TimeoutWriter.writeTimeout_new] at htw
    exact of_timedOut (by rw [htw]) (by rw [htw]) (by rw [htw])
  | stPassthrough =>
    obtain ⟨p, hp, heq⟩ := hr.passthrough hst
    rw [TimeoutWriter.writeTimeout_of_ne (by simp [hst])] at htw
    exact of_passthrough p (by rw [htw, hst]) ((hret p false hp).trans hp)
      (by rw [htw, settled_snoc h h', heq])
  | stTimedOut =>
    obtain ⟨hunder, hcode⟩ := hr.timedOut hst
    rw [TimeoutWriter.writeTimeout_of_ne (by simp [hst])] at htw
    exact of_timedOut (by rw [htw, hst]) (by rw [htw, hunder]) (by rw [htw, hcode])

theorem call_timedOut {c : Call} (hst : r.tw.state = .stTimedOut)
    (htw : r'.tw = r.tw.call c) {ms' : List Move} : Inv g ms' r' := by
  obtain ⟨hunder, hcode⟩ := hr.timedOut hst
  rw [TimeoutWriter.call_timedOut hst] at htw
  exact of_timedOut (by rw [htw, hst]) (by rw [htw, hunder]) (by rw [htw, hcode])

theorem call {c : Call} (hmain : r.main = .handling) :
    Inv g (ms ++ [.call c]) { r with tw := r.tw.call c } := by
  cases hst : r.tw.state with
  | stBuffering =>
    obtain ⟨heq, hund, hnone⟩ := hr.buffering hst
    have hcalls : handlerCalls (ms ++ [.call c]) = handlerCalls ms ++ [c] := by
      simp [handlerCalls, Move.handlerCall]
    refine of_buffering ?_ ?_ hund ((outerCalls_snoc rfl).trans hnone)
    · show (r.tw.call c).state = _
      rw [TimeoutWriter.call_buffering hst]
      exact hst
    · show r.tw.call c = _
      rw [heq, handled, handled, hcalls, TimeoutWriter.calls_snoc]
  | stPassthrough =>
    obtain ⟨p, hp, _⟩ := hr.passthrough hst
    rw [hmain] at hp
    simp at hp
  | stTimedOut => exact hr.call_timedOut hst rfl

theorem outer {c : Call} {p e : Bool} (hmain : r.main = .returned p e) :
    Inv g (ms ++ [.outer c]) { r with tw := r.tw.call c } := by
  cases hst : r.tw.state with
  | stBuffering =>
    obtain ⟨_, hund, _⟩ := hr.buffering hst
    rw [hmain] at hund
    simp [Main.undecided] at hund
  | stPassthrough =>
    obtain ⟨p, hp, heq⟩ := hr.passthrough hst
    have hcalls : outerCalls (ms ++ [.outer c]) = outerCalls ms ++ [c] := by
      simp [outerCalls, Move.outerCall]
    refine of_passthrough p ?_ hp ?_
    · show (r.tw.call c).state = _
      rw [TimeoutWriter.call_passthrough hst]
      exact hst
    · show r.tw.call c = _
      rw [settled, handled_snoc (by rfl), hcalls, TimeoutWriter.calls_snoc, heq, settled]
  | stTimedOut => exact hr.call_timedOut hst rfl

theorem settle {p e : Bool} (hmain : r.main = .cancelled p e) :
    Inv g (ms ++ [.settle])
      { r with
        tw := if p then r.tw.enablePassthrough else r.tw.commit
        main := .returned p e } := by
  cases hst : r.tw.state with
  | stBuffering =>
    obtain ⟨heq, hund, hnone⟩ := hr.buffering hst
    rw [hmain] at hund
    have he : e = false := by simpa [Main.undecided] using hund
    have htw : (if p then r.tw.enablePassthrough else r.tw.commit) =
        settled g p (ms ++ [.settle]) := by
      rw [settled_snoc rfl rfl, settled, hnone, heq]
      rfl
    refine of_passthrough p ?_ (by rw [he]) htw
    cases p with
    | false =>
      show r.tw.commit.state = _
      rw [heq, handled, TimeoutWriter.commit_new]
    | true =>
      show r.tw.enablePassthrough.state = _
      rw [heq, handled, TimeoutWriter.enablePassthrough_new]
  | stPassthrough =>
    obtain ⟨p, hp, _⟩ := hr.passthrough hst
    rw [hmain] at hp
    simp at hp
  | stTimedOut =>
    obtain ⟨hunder, hcode⟩ := hr.timedOut hst
    have htw : (if p then r.tw.enablePassthrough else r.tw.commit) = r.tw := by
      rw [TimeoutWriter.enablePassthrough_of_ne (by simp [hst]),
        TimeoutWriter.commit_of_ne (by simp [hst]), ite_self]
    rw [htw]
    exact of_timedOut hst hunder hcode

theorem advance (htw : r'.tw = r.tw) (h : m.handlerCall = none)
    (h' : m.outerCall = none) (hund : r'.main.undecided = r.main.undecided)
    (hbefore : ∀ p e, r.main ≠ .returned p e) : Inv g (ms ++ [m]) r' :=
  hr.quiet htw h h' (fun hu => hund.trans hu) fun p e hp => absurd hp (hbefore p e)

theorem step (h : r.step m = some r') : Inv g (ms ++ [m]) r' := by
  cases Race.moves h with
  | call c hmain => exact hr.call hmain
  | ctxDone => exact hr.quiet rfl rfl rfl id fun _ _ _ => rfl
  | deadline => exact hr.quiet rfl rfl rfl id fun _ _ _ => rfl
  | select => exact hr.quiet rfl rfl rfl id fun _ _ _ => rfl
  | retire => exact hr.quiet rfl rfl rfl id fun _ _ _ => rfl
  | fire => exact hr.writeTimeout rfl rfl rfl fun _ _ _ => rfl
  | finish p hmain => exact hr.advance rfl rfl rfl (by rw [hmain]; rfl) (by simp [hmain])
  | checkErr p hmain => exact hr.advance rfl rfl rfl (by rw [hmain]; rfl) (by simp [hmain])
  | checkDeadline p e hmain =>
    exact hr.advance rfl rfl rfl (by rw [hmain]; rfl) (by simp [hmain])
  | closeDone p e hmain => exact hr.advance rfl rfl rfl (by rw [hmain]; rfl) (by simp [hmain])
  | wait p e hmain => exact hr.advance rfl rfl rfl (by rw [hmain]; rfl) (by simp [hmain])
  | answer p e hmain =>
    cases e with
    | false => exact hr.advance rfl rfl rfl (by rw [hmain]; rfl) (by simp [hmain])
    | true => exact hr.writeTimeout rfl rfl rfl fun p e hp => by simp [hmain] at hp
  | cancel p e hmain => exact hr.advance rfl rfl rfl (by rw [hmain]; rfl) (by simp [hmain])
  | settle p e hmain => exact hr.settle hmain
  | outer c p e hmain => exact hr.outer hmain

end

theorem run (h : run Race.step (Race.start g) ms = some r) : Inv g ms r :=
  run_hist (start g) (fun _ _ _ _ hr h => hr.step h) h

end Inv

/-! ### Being late -/

/-- The move `a` is made and, later, `b`. -/
def Precedes (a b : Move) (ms : List Move) : Prop := [a, b].Sublist ms

/-- The watcher fires, or the deferred function finds the context done or the deadline past. -/
def Expired (ms : List Move) : Prop :=
  .fire ∈ ms ∨ Precedes .ctxDone .checkErr ms ∨ Precedes .deadline .checkDeadline ms

def Main.afterWait : Main → Bool
  | .waited .. | .answered .. | .cancelled .. | .returned .. => true
  | _ => false

def Main.afterAnswer : Main → Bool
  | .answered .. | .cancelled .. | .returned .. => true
  | _ => false

def Main.afterCancel : Main → Bool
  | .cancelled .. | .returned .. => true
  | _ => false

def Main.expired : Main → Bool
  | .checked _ e | .decided _ e | .closed _ e | .waited _ e | .answered _ e
  | .cancelled _ e | .returned _ e => e
  | _ => false

/-- What the moves say about the flags. The context may be done without a `ctxDone` only after
the `cancel`, which comes when the watcher is gone. -/
structure Timing (ms : List Move) (r : Race) : Prop where
  ctx : r.ctxDone = true → .ctxDone ∈ ms ∨ r.main.afterCancel = true
  done : .ctxDone ∈ ms → r.ctxDone = true
  past : r.pastDeadline = true ↔ .deadline ∈ ms
  exited : r.main.afterWait = true → r.watcher = .exited
  fired : .fire ∈ ms ∨ r.watcher = .firing → .ctxDone ∈ ms
  expired : r.main.expired = true ↔
    Precedes .ctxDone .checkErr ms ∨ Precedes .deadline .checkDeadline ms
  timedOut : r.tw.state = .stTimedOut ↔
    .fire ∈ ms ∨ r.main.afterAnswer = true ∧ r.main.expired = true
  passthrough : r.tw.state = .stPassthrough → r.main.afterCancel = true

namespace Timing

variable {ms : List Move} {r r' : Race} {m : Move}

theorem precedes_snoc {a b : Move} :
    Precedes a b (ms ++ [m]) ↔ Precedes a b ms ∨ b = m ∧ a ∈ ms := by
  unfold Precedes
  rw [← List.reverse_sublist, ← @List.reverse_sublist _ _ ms, List.reverse_append]
  simp [List.sublist_cons_iff]

variable {w : TimeoutWriter}

theorem call_state {c : Call} : (w.call c).state = w.state := by
  cases hst : w.state with
  | stBuffering =>
    rw [TimeoutWriter.call_buffering hst]
    exact hst
  | stPassthrough =>
    rw [TimeoutWriter.call_passthrough hst]
    exact hst
  | stTimedOut =>
    rw [TimeoutWriter.call_timedOut hst]
    exact hst

theorem writeTimeout_state (h : w.state ≠ .stPassthrough) :
    w.writeTimeout.state = .stTimedOut := by
  unfold TimeoutWriter.writeTimeout
  cases hst : w.state <;> simp_all

theorem settle_state {p : Bool} :
    (if p then w.enablePassthrough else w.commit).state =
      if w.state = .stBuffering then .stPassthrough else w.state := by
  unfold TimeoutWriter.enablePassthrough TimeoutWriter.commit
  cases p <;> cases hst : w.state <;> simp [hst]

theorem start (g : ResponseWriter) : Timing [] (Race.start g) := by
  constructor <;> simp [Race.start, newTimeoutWriter, Precedes, Main.expired, Main.afterWait,
    Main.afterAnswer]

theorem step (hr : Timing ms r) (h : r.step m = some r') : Timing (ms ++ [m]) r' := by
  obtain ⟨ctx, done, past, exited, fired, expired, timedOut, passthrough⟩ := hr
  have hwait : r.main.afterCancel = true → r.main.afterWait = true := by
    cases r.main <;> simp [Main.afterCancel, Main.afterWait]
  -- most moves leave the writer alone and are none of those the fields speak of
  cases Race.moves h with
  | call c | outer c => constructor <;> simp_all [precedes_snoc, call_state]
  | ctxDone | deadline | retire => constructor <;> simp_all [precedes_snoc]
  | select hsel hctx =>
    constructor <;> simp_all [precedes_snoc]
  | fire hfire =>
    have hst : r.tw.state ≠ .stPassthrough := fun hst => by
      simp [exited (hwait (passthrough hst))] at hfire
    constructor <;> simp_all [precedes_snoc, writeTimeout_state]
  | finish p hmain | closeDone p e hmain | wait p e hmain hexit | cancel p e hmain =>
    constructor <;> simp_all [precedes_snoc, Main.afterWait, Main.afterAnswer,
      Main.afterCancel, Main.expired]
  | checkErr p hmain =>
    constructor <;> simp_all [precedes_snoc, Main.afterWait, Main.afterAnswer,
      Main.afterCancel, Main.expired]
    exact ⟨ctx, done⟩
  | checkDeadline p e hmain =>
    constructor <;> simp_all [precedes_snoc, or_assoc, Main.afterWait, Main.afterAnswer,
      Main.afterCancel, Main.expired]
  | answer p e hmain =>
    constructor <;> cases e <;> simp_all [precedes_snoc, writeTimeout_state, Main.afterWait,
      Main.afterAnswer, Main.afterCancel, Main.expired]
  | settle p e hmain =>
    constructor <;> simp_all [precedes_snoc, settle_state, Main.afterWait, Main.afterAnswer,
      Main.afterCancel, Main.expired]
    cases hst : r.tw.state <;> simp_all

theorem run {g : ResponseWriter} (h : Trace.run Race.step (Race.start g) ms = some r) :
    Timing ms r :=
  run_hist (start g) (fun _ _ _ _ hr h => hr.step h) h

theorem timedOut_iff {p e : Bool} (hr : Timing ms r) (hret : r.main = .returned p e) :
    r.tw.state = .stTimedOut ↔ Expired ms := by
  rw [hr.timedOut, hr.expired, hret]
  simp [Main.afterAnswer, Expired]

end Timing

end Microjet.Middleware
