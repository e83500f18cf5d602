import Microjet.Proofs.TimeoutRuns

/-!
# What the client gets under Timeout

A commit replaces the handler's calls by two, the last code and the whole body. `Status` returns
the code that was buffered, also after the commit, which is wrong for an error rendered by
`Error` or a panic caught by `Recovery` (`errors_logged_as_ok`).
-/

namespace Microjet.Middleware

open Gin Trace

variable {g w : ResponseWriter} {ms : List Move} {r : Race} {cs : List Call}

/-- Since `g`, the writer has got the complete 503, under the headers of `g` and the content
type. -/
def Got503 (g w : ResponseWriter) : Prop :=
  w.header = timeoutHeader g.header ∧
  w.received = g.received ++
    [(timeoutHeader g.header, .writeHeader 503), (timeoutHeader g.header, .write timeoutBody),
      (timeoutHeader g.header, .flush)]

/-- Since `g`, the writer has got the last headers and code of the handler, and all it wrote. -/
def GotHandled (g : ResponseWriter) (cs : List Call) (w : ResponseWriter) : Prop :=
  w.header = finalHeader g.header cs ∧
  w.received = g.received ++ (finalHeader g.header cs, .writeHeader (finalCode cs)) ::
    if payloads cs = [] then [] else [(finalHeader g.header cs, .write (payloads cs))]

theorem got_writeHeader (code : Int) :
    (w.writeHeader code).header = w.header ∧
      (w.writeHeader code).received = w.received ++ [(w.header, .writeHeader code)] := by
  unfold ResponseWriter.writeHeader
  dsimp only
  split <;> exact ⟨rfl, rfl⟩

theorem got_send : w.send.header = w.header ∧ w.send.received = w.received := by
  unfold ResponseWriter.send
  split <;> exact ⟨rfl, rfl⟩

theorem got_begin : w.send.begin.header = w.header ∧ w.send.begin.received = w.received := by
  unfold ResponseWriter.begin
  split <;> exact got_send

theorem got_write (b : GoString) :
    (w.write b).header = w.header ∧
      (w.write b).received = w.received ++ [(w.header, .write b)] := by
  unfold ResponseWriter.write
  dsimp only
  split
  · exact got_send (w := w.receive (.write b))
  · split <;> exact got_begin (w := w.receive (.write b))

theorem got_flush :
    w.flush.header = w.header ∧ w.flush.received = w.received ++ [(w.header, .flush)] := by
  unfold ResponseWriter.flush
  dsimp only
  split
  · exact got_send (w := w.receive .flush)
  · exact got_begin (w := w.receive .flush)

theorem got503 (g : ResponseWriter) :
    Got503 g ((withHeader g (timeoutHeader g.header)).calls timeoutCalls) := by
  simp only [Got503, ResponseWriter.calls, timeoutCalls, List.foldl, ResponseWriter.call,
    got_writeHeader, got_write, got_flush]
  simp [withHeader]

theorem gotHandled (g : ResponseWriter) (cs : List Call) :
    GotHandled g cs ((withHeader g (finalHeader g.header cs)).calls (commitCalls cs)) := by
  simp only [GotHandled, ResponseWriter.calls, commitCalls, List.foldl, ResponseWriter.call]
  split <;> simp [ResponseWriter.call, got_writeHeader, got_write, withHeader]

variable {r' : Race}

theorem step_tw {m : Move} (h : r.step m = some r') :
    r'.tw = r.tw ∨ (∃ c, r'.tw = r.tw.call c) ∨ r'.tw = r.tw.writeTimeout ∨
      r'.tw = r.tw.enablePassthrough ∨ r'.tw = r.tw.commit := by
  unfold Race.step at h
  grind

theorem step_timedOut {m : Move} (hst : r.tw.state = .stTimedOut)
    (h : r.step m = some r') : r'.tw.state = .stTimedOut ∧ r'.tw.under = r.tw.under := by
  have hne : r.tw.state ≠ .stBuffering := by simp [hst]
  obtain htw | ⟨c, htw⟩ | htw | htw | htw := step_tw h
  · exact ⟨htw ▸ hst, by rw [htw]⟩
  · rw [htw, TimeoutWriter.call_timedOut hst]
    exact ⟨hst, rfl⟩
  · rw [htw, TimeoutWriter.writeTimeout_of_ne hne]
    exact ⟨hst, rfl⟩
  · rw [htw, TimeoutWriter.enablePassthrough_of_ne hne]
    exact ⟨hst, rfl⟩
  · rw [htw, TimeoutWriter.commit_of_ne hne]
    exact ⟨hst, rfl⟩

theorem run_timedOut {ms : List Move} (hst : r.tw.state = .stTimedOut)
    (h : run Race.step r ms = some r') :
    r'.tw.state = .stTimedOut ∧ r'.tw.under = r.tw.under := by
  refine run_inv (I := fun r' => r'.tw.state = .stTimedOut ∧ r'.tw.under = r.tw.under)
    (C := fun _ _ => True) (fun r₁ m r₂ hr _ hm => ?_) ⟨hst, rfl⟩
    (along_of_forall (fun _ _ => trivial) _ _) h
  obtain ⟨hst₂, hunder⟩ := step_timedOut hr.1 hm
  exact ⟨hst₂, hunder.trans hr.2⟩

theorem settled_eq (g : ResponseWriter) (panicked : Bool) (ms : List Move) :
    (settled g panicked ms).under =
        (if panicked then g
          else (withHeader g (finalHeader g.header (handlerCalls ms))).calls
            (commitCalls (handlerCalls ms))).calls (outerCalls ms) ∧
      (settled g panicked ms).code = finalCode (handlerCalls ms) := by
  cases panicked with
  | false =>
    simp only [settled, handled, Bool.false_eq_true, if_false, TimeoutWriter.commit_new]
    rw [TimeoutWriter.calls_passthrough rfl]
    exact ⟨rfl, rfl⟩
  | true =>
    simp only [settled, handled, if_true, TimeoutWriter.enablePassthrough_new]
    rw [TimeoutWriter.calls_passthrough rfl]
    exact ⟨rfl, rfl⟩

theorem Inv.returned {p e : Bool} (hr : Inv g ms r) (hret : r.main = .returned p e) :
    (r.tw.state = .stTimedOut ∧
      r.tw.under = (withHeader g (timeoutHeader g.header)).calls timeoutCalls ∧
      r.tw.code = 503) ∨
    (r.tw.state = .stPassthrough ∧ e = false ∧ r.tw = settled g p ms) := by
  cases hst : r.tw.state with
  | stBuffering =>
    obtain ⟨_, hund, _⟩ := hr.buffering hst
    rw [hret] at hund
    simp [Main.undecided] at hund
  | stPassthrough =>
    obtain ⟨p', hp, heq⟩ := hr.passthrough hst
    rw [hret] at hp
    cases hp
    exact .inr ⟨rfl, rfl, heq⟩
  | stTimedOut => exact .inl ⟨rfl, hr.timedOut hst⟩

/-- Before the return gin's writer is as it was, or it has the complete 503. At the return it has
the complete 503, or what the handler left, or after a panic in time nothing. After the 503
nothing that is called on the writer reaches it. -/
theorem one_response (h : run Race.step (Race.start g) ms = some r) :
    ((∀ p e, r.main ≠ .returned p e) → r.tw.under = g ∨ Got503 g r.tw.under) ∧
    (∀ p e, r.main = .returned p e → outerCalls ms = [] →
      Got503 g r.tw.under ∨
      (p = false ∧ e = false ∧ GotHandled g (handlerCalls ms) r.tw.under) ∨
      (p = true ∧ e = false ∧ r.tw.under = g)) ∧
    (r.tw.state = .stTimedOut → Got503 g r.tw.under ∧
      ∀ ms' r', run Race.step r ms' = some r' → r'.tw.under = r.tw.under) := by
  have hr := Inv.run h
  refine ⟨fun hnot => ?_, fun p e hret hnone => ?_, fun hst => ?_⟩
  · cases hst : r.tw.state with
    | stBuffering =>
      left
      rw [(hr.buffering hst).1, handled, TimeoutWriter.calls_new]
    | stPassthrough =>
      obtain ⟨p, hp, _⟩ := hr.passthrough hst
      exact absurd hp (hnot p false)
    | stTimedOut =>
      right
      rw [(hr.timedOut hst).1]
      exact got503 g
  · obtain ⟨_, hunder, _⟩ | ⟨_, he, heq⟩ := hr.returned hret
    · left
      rw [hunder]
      exact got503 g
    · right
      have hunder := (settled_eq g p ms).1
      rw [hnone, ← heq] at hunder
      cases p with
      | false =>
        left
        refine ⟨rfl, he, ?_⟩
        rw [hunder]
        exact gotHandled g _
      | true => exact .inr ⟨rfl, he, hunder⟩
  · refine ⟨?_, fun ms' r' h' => (run_timedOut hst h').2⟩
    rw [(hr.timedOut hst).1]
    exact got503 g

/-- The deferred function, with the watcher exiting. -/
def epilogue (panicked : Bool) : List Move :=
  [.finish panicked, .checkErr, .checkDeadline, .closeDone, .wait, .answer, .cancel, .settle]

/-- The same, without a cancel. -/
def quietEpilogue (panicked : Bool) : List Move :=
  [.finish panicked, .checkErr, .checkDeadline, .closeDone, .retire, .wait, .answer, .cancel,
    .settle]

theorem one_response_late :
    ∃ r, run Race.step (Race.start {})
        ([.call (.write (bytes "par")), .ctxDone, .select, .fire,
          .call (.write (bytes "tial"))] ++ epilogue false) = some r ∧
      r.main = .returned false true ∧ Got503 {} r.tw.under := by
  have hrun : ∃ r, run Race.step (Race.start {})
      ([.call (.write (bytes "par")), .ctxDone, .select, .fire,
        .call (.write (bytes "tial"))] ++ epilogue false) = some r ∧
      r.main = .returned false true ∧ r.tw.state = .stTimedOut := ⟨_, rfl, rfl, rfl⟩
  obtain ⟨r, hr, hret, hst⟩ := hrun
  exact ⟨r, hr, hret, ((one_response hr).2.2 hst).1⟩

/-! ### Transparency -/

/-- A header change, `WriteHeader` or a write. -/
def plain : Call → Bool
  | .writeHeaderNow => false
  | .flush => false
  | _ => true

/-- Layers that send set a final status of their own first. -/
def Settles (os : List Call) : Prop :=
  os.any Call.sends = true → ∃ code, codeAt os = some code ∧ isFinal code = true

/-- As gin's `Recovery` and, around it, `Error` do. -/
theorem settles_layers (panicked : Bool) (errs : List Errorx.Err) (body : GoString) :
    Settles (recoveryLayer panicked ++ errorLayer errs body) := by
  have hstatus : ∀ err, isFinal (errorStatus err) = true ∧
      bodyAllowedForStatus (errorStatus err) = true ∧ 0 < errorStatus err := by
    intro err
    unfold errorStatus
    split <;> decide
  intro hany
  cases panicked with
  | true => exact ⟨500, rfl, rfl⟩
  | false =>
    cases herr : errs.getLast? with
    | none => simp [recoveryLayer, errorLayer, herr] at hany
    | some err =>
      obtain ⟨hfinal, hallowed, hpos⟩ := hstatus err
      exact ⟨errorStatus err, by simp [recoveryLayer, errorLayer, herr, json, render,
        hallowed, codeAt, Call.sends, Call.code, hpos, writeContentType], hfinal⟩

/-- The status on the commit. -/
def commitStatus (status : Int) (cs : List Call) : Int :=
  if 0 < finalCode cs then finalCode cs else status

/-- Gin's writer when the buffered headers and code are on it. -/
def committing (g : ResponseWriter) (cs : List Call) : ResponseWriter :=
  (withHeader g (finalHeader g.header cs)).writeHeader (finalCode cs)

theorem committing_eq (hg : g.sent = .nothing) (cs : List Call) :
    (committing g cs).sent = .nothing ∧
    (committing g cs).status = commitStatus g.status cs ∧
    (committing g cs).header = finalHeader g.header cs ∧ (committing g cs).body = g.body := by
  obtain ⟨hsent, hstatus, hheader, hbody, _⟩ := ResponseWriter.call_quiet
    (w := withHeader g (finalHeader g.header cs)) hg (c := .writeHeader (finalCode cs)) rfl
  exact ⟨hsent, hstatus, hheader, hbody⟩

theorem commit_calls (os : List Call) :
    ((withHeader g (finalHeader g.header cs)).calls (commitCalls cs)).calls os =
      if payloads cs = [] then (committing g cs).calls os
      else ((committing g cs).call (.write (payloads cs))).calls os := by
  unfold commitCalls
  split <;> rfl

variable {os : List Call}

theorem settles_response (hw : w.sent = .nothing) (hos : Settles os) :
    (w.calls os).response =
      (finalStatus ((codeAt os).getD w.status)).map fun status =>
        ⟨status, headerAt w.header os, extend status w.body (payloads os)⟩ := by
  rw [← statusAt_eq]
  cases hany : os.any Call.sends with
  | false =>
    obtain ⟨hsent, hstatus, hheader, hbody, hpayloads⟩ := ResponseWriter.calls_quiet hw hany
    simp [ResponseWriter.response, hsent, hstatus, hheader, hbody, hpayloads]
  | true =>
    obtain ⟨code, hcode, hfinal⟩ := hos hany
    have hstatus : statusAt w.status os = code := by rw [statusAt_eq, hcode]; rfl
    rw [← hstatus] at hfinal
    have hreturns := ResponseWriter.returns_of_valid hw
      (finalStatus_isSome.mp ⟨_, finalStatus_of_isFinal hfinal⟩)
    obtain ⟨status, hfs, hsent, hbody⟩ :=
      ResponseWriter.calls_sends hw hreturns hany (.inl hfinal)
    simp [ResponseWriter.response, hsent, hbody, hfs]

section Responses

variable {hc os : List Call}

/-- The commit of a body: if `net/http` panics, the outer layers find a response that
has not begun. -/
theorem body_response (hg : g.sent = .nothing) (hc os : List Call) :
    (∀ status, finalStatus (commitStatus g.status hc) = some status →
      (((committing g hc).call (.write (payloads hc))).calls os).response =
        some ⟨status, finalHeader g.header hc,
          extend status g.body (payloads hc ++ payloads os)⟩) ∧
    (finalStatus (commitStatus g.status hc) = none → ∃ h,
      (((committing g hc).call (.write (payloads hc))).calls os).response =
        some ⟨200, h, g.body ++ payloads os⟩) := by
  obtain ⟨hsent, hstatus, hheader, hbody⟩ := committing_eq hg hc
  refine ⟨fun status hfs => ?_, fun hnone => ?_⟩
  · rw [← hstatus] at hfs
    obtain ⟨hsent', hbody'⟩ := ResponseWriter.call_sends (c := .write (payloads hc)) hsent rfl
      (.inr (by simp)) hfs
    rw [ResponseWriter.calls_response_final hsent', hbody', extend_extend, hheader, hbody]
    rfl
  · have hvalid : validCode (committing g hc).status = false := by
      rw [hstatus, ← Bool.not_eq_true, ← finalStatus_isSome, hnone]
      simp
    have hpanics : (committing g hc).panics (.write (payloads hc)) = true := by
      simp [ResponseWriter.panics, ResponseWriter.refused, Call.sends, hvalid,
        ResponseWriter.written_eq_false.mpr hsent]
    obtain ⟨hsent', _, hbody'⟩ := ResponseWriter.call_panics hpanics
    obtain ⟨h, hresponse⟩ := ResponseWriter.calls_response_interim hsent' os
    exact ⟨h, by rw [hresponse, hbody', hbody]⟩

end Responses

/-- The status of a response whose headers are not open, or that has but the 200 to come. -/
def begunStatus (w : ResponseWriter) : Option Int :=
  match w.sent with
  | .final status _ => some status
  | .interim => some 200
  | .nothing => none

variable {status : Int}

theorem begun_status (hw : begunStatus w = some status) (cs : List Call) :
    (w.calls cs).response.map Response.status = some status := by
  unfold begunStatus at hw
  cases hsent : w.sent with
  | nothing => simp [hsent] at hw
  | interim =>
    obtain ⟨h, hresponse⟩ := ResponseWriter.calls_response_interim hsent cs
    simpa [hresponse, hsent] using hw
  | final status' h =>
    rw [ResponseWriter.calls_response_final hsent]
    simpa [hsent] using hw

theorem finalStatus_commit (hfinal : isFinal (finalCode cs) = true) :
    finalStatus (commitStatus status cs) = some (finalCode cs) := by
  rw [commitStatus, if_pos (pos_of_isFinal hfinal), finalStatus_of_isFinal hfinal]

theorem body_status (hg : g.sent = .nothing) :
    (((committing g cs).call (.write (payloads cs))).calls os).response.map Response.status =
      some (finalCode cs) ↔ isFinal (finalCode cs) = true := by
  obtain ⟨hsome, hnone⟩ := body_response hg cs os
  cases hcommit : finalStatus (commitStatus g.status cs) with
  | some status =>
    rw [hsome status hcommit, Option.map_some, Option.some.injEq]
    refine ⟨fun heq => heq ▸ isFinal_of_finalStatus hcommit, fun hfinal => ?_⟩
    rw [finalStatus_commit hfinal] at hcommit
    exact (Option.some.inj hcommit).symm
  | none =>
    obtain ⟨h, hresponse⟩ := hnone hcommit
    rw [hresponse, Option.map_some, Option.some.injEq]
    refine ⟨fun heq => heq ▸ rfl, fun hfinal => ?_⟩
    rw [finalStatus_commit hfinal] at hcommit
    cases hcommit

theorem settles_status (hw : w.sent = .nothing) (hos : Settles os) :
    (w.calls os).response.map Response.status = finalStatus ((codeAt os).getD w.status) := by
  rw [settles_response hw hos]
  cases finalStatus ((codeAt os).getD w.status) <;> rfl

/-- A response that had begun keeps its status. -/
theorem Inv.status_begun {p e : Bool} (hr : Inv g ms r)
    (hret : r.main = .returned p e) (hg : begunStatus g = some status) :
    r.tw.under.response.map Response.status = some status := by
  obtain ⟨_, hunder, _⟩ | ⟨_, _, heq⟩ := hr.returned hret
  · rw [hunder]
    exact begun_status (w := withHeader g (timeoutHeader g.header)) hg _
  · rw [heq, (settled_eq g p ms).1]
    cases p with
    | false =>
      rw [if_neg (by simp), ← ResponseWriter.calls_append]
      exact begun_status (w := withHeader g (finalHeader g.header (handlerCalls ms))) hg _
    | true =>
      rw [if_pos rfl]
      exact begun_status hg _

/-- The status that the outer layers read in the end is the one the client gets exactly if: the
response had begun before, with a 503 if the request expires and else with the handler's last
code; it had not, and the request expires; the handler has written bytes and its last code is
final; or it has not, or it panicked, and its last code is what the client gets of the code the
outer layers set, or else of that on the writer. -/
theorem status_iff {p e : Bool} (h : run Race.step (Race.start g) ms = some r)
    (hret : r.main = .returned p e) (hos : Settles (outerCalls ms)) :
    r.tw.under.response.map Response.status = some r.tw.status ↔
      (∃ status, begunStatus g = some status ∧
        (Expired ms ∧ status = 503 ∨ ¬ Expired ms ∧ status = finalCode (handlerCalls ms))) ∨
      (begunStatus g = none ∧
        (Expired ms ∨
        (p = false ∧ payloads (handlerCalls ms) ≠ [] ∧
          isFinal (finalCode (handlerCalls ms)) = true) ∨
        (p = false ∧ payloads (handlerCalls ms) = [] ∧
          finalStatus ((codeAt (outerCalls ms)).getD
            (commitStatus g.status (handlerCalls ms))) =
              some (finalCode (handlerCalls ms))) ∨
        (p = true ∧
          finalStatus ((codeAt (outerCalls ms)).getD g.status) =
            some (finalCode (handlerCalls ms))))) := by
  have hr := Inv.run h
  rw [← (Timing.run h).timedOut_iff hret]
  cases hbegun : begunStatus g with
  | some status =>
    rw [hr.status_begun hret hbegun]
    obtain ⟨hst, _, hcode⟩ | ⟨hst, _, heq⟩ := hr.returned hret
    · have hcode : r.tw.status = 503 := hcode
      simp [hst, hcode]
    · have hcode : r.tw.status = finalCode (handlerCalls ms) := by
        rw [heq]
        exact (settled_eq g p ms).2
      simp [hst, hcode]
  | none =>
    have hg : g.sent = .nothing := by
      unfold begunStatus at hbegun
      cases hsent : g.sent <;> simp_all
    obtain ⟨hst, hunder, hcode⟩ | ⟨hst, _, heq⟩ := hr.returned hret
    · have hcode : r.tw.status = 503 := hcode
      have hsettles : Settles timeoutCalls := fun _ => ⟨503, rfl, rfl⟩
      have hstatus : ((withHeader g (timeoutHeader g.header)).calls timeoutCalls).response.map
          Response.status = some 503 :=
        settles_status (w := withHeader g (timeoutHeader g.header)) hg hsettles
      simp [hst, hunder, hstatus, hcode]
    · obtain ⟨hunder, hcode⟩ := settled_eq g p ms
      rw [← heq] at hunder hcode
      have hcode : r.tw.status = finalCode (handlerCalls ms) := hcode
      rw [hunder, hcode]
      cases p with
      | true =>
        rw [if_pos rfl, settles_status hg hos]
        simp [hst]
      | false =>
        rw [if_neg (by simp), commit_calls]
        split
        · next hbody =>
            obtain ⟨hsent, hstatus, _⟩ := committing_eq hg (handlerCalls ms)
            rw [settles_status hsent hos, hstatus]
            simp [hst, hbody]
        · next hbody =>
            rw [body_status hg]
            simp [hst, hbody]

theorem status_iff_created :
    ∃ r, run Race.step (Race.start {})
        ([.call (.writeHeader 201), .call (.write (bytes "ok"))] ++ quietEpilogue false) =
          some r ∧
      r.tw.under.response.map Response.status = some r.tw.status := by
  have hrun : ∃ r, run Race.step (Race.start {})
      ([.call (.writeHeader 201), .call (.write (bytes "ok"))] ++ quietEpilogue false) =
        some r ∧ r.main = .returned false false := ⟨_, rfl, rfl⟩
  obtain ⟨r, hr, hret⟩ := hrun
  have hos : Settles (outerCalls ([.call (.writeHeader 201), .call (.write (bytes "ok"))] ++
    quietEpilogue false)) := settles_layers false [] []
  exact ⟨r, hr, (status_iff hr hret hos).mpr
    (.inr ⟨rfl, .inr (.inl ⟨rfl, by decide, by decide⟩)⟩)⟩

/-- A handler that records a "not found", and one that panics: the client gets 404 and 500, and
both are logged as 200. -/
theorem errors_logged_as_ok :
    (∃ r, run Race.step (Race.start {})
        (quietEpilogue false ++
          (errorLayer [.errorx ⟨.notFound, "order", "no such order", [], 0⟩]
            (bytes "not_found")).map .outer) = some r ∧
      r.tw.status = 200 ∧ r.tw.under.response.map Response.status = some 404) ∧
    ∃ r, run Race.step (Race.start {})
        (quietEpilogue true ++ (recoveryLayer true).map .outer) = some r ∧
      r.tw.status = 200 ∧ r.tw.under.response.map Response.status = some 500 :=
  ⟨⟨_, rfl, rfl, by decide⟩, ⟨_, rfl, rfl, by decide⟩⟩

end Microjet.Middleware
