import Microjet.Middleware.Gin

/-!
# What a list of calls makes gin send

The client gets the status and the headers at the first call that sends, `statusAt` and
`headerAt`, or at the end, and all that is written (`calls_response`). After a status that is
informational the final one is a 200, and the headers are still open.
-/

namespace Microjet.Gin

namespace Call

/-- The bytes a call writes. -/
def payload : Call → GoString
  | .write b => b
  | .writeString s => s
  | _ => []

/-- The headers after a call. -/
def onHeader (h : Header) : Call → Header
  | .header f => f h
  | _ => h

/-- The status after a call on a writer that has sent nothing. -/
def onStatus (status : Int) : Call → Int
  | .writeHeader code => if 0 < code then code else status
  | _ => status

end Call

/-- The status in force at the first call that sends. -/
def statusAt : Int → List Call → Int
  | status, [] => status
  | status, c :: cs => if c.sends then status else statusAt (c.onStatus status) cs

/-- The headers in force at the first call that sends. -/
def headerAt : Header → List Call → Header
  | h, [] => h
  | h, c :: cs => if c.sends then h else headerAt (c.onHeader h) cs

/-- The code a call sets, if it is one that gin takes. -/
def Call.code : Call → Option Int
  | .writeHeader code => if 0 < code then some code else none
  | _ => none

/-- The last code set before the first call that sends. -/
def codeAt : List Call → Option Int
  | [] => none
  | c :: cs => if c.sends then none else (codeAt cs).or c.code

/-- All that is written. -/
def payloads (cs : List Call) : GoString := cs.flatMap Call.payload

/-- The body after a write, under a status. -/
def extend (status : Int) (body b : GoString) : GoString :=
  if bodyAllowedForStatus status then body ++ b else body

theorem extend_extend (status : Int) (body b c : GoString) :
    extend status (extend status body b) c = extend status body (b ++ c) := by
  unfold extend
  split
  · exact List.append_assoc body b c
  · rfl

@[simp] theorem extend_nil (status : Int) (body : GoString) :
    extend status body [] = body := by
  unfold extend
  split
  · exact List.append_nil body
  · rfl

theorem statusAt_eq (status : Int) (cs : List Call) :
    statusAt status cs = (codeAt cs).getD status := by
  induction cs generalizing status with
  | nil => rfl
  | cons c cs ih =>
    have hcode : c.onStatus status = c.code.getD status := by
      cases c <;> simp [Call.onStatus, Call.code]
      split <;> rfl
    rw [statusAt, codeAt]
    split
    · rfl
    · rw [ih, hcode]
      cases codeAt cs <;> rfl

variable {code : Int}

theorem pos_of_isFinal (h : isFinal code = true) : 0 < code := by
  simp only [isFinal, validCode, Bool.and_eq_true, decide_eq_true_eq] at h
  omega

theorem finalStatus_of_isFinal (h : isFinal code = true) :
    finalStatus code = some code := by
  simp only [isFinal, Bool.and_eq_true, Bool.not_eq_true'] at h
  simp [finalStatus, h]

theorem finalStatus_of_not_isFinal (hvalid : validCode code = true)
    (h : isFinal code = false) : finalStatus code = some 200 := by
  simp only [isFinal, hvalid, Bool.true_and, Bool.not_eq_false'] at h
  simp [finalStatus, hvalid, h]

theorem finalStatus_isSome :
    (∃ status, finalStatus code = some status) ↔ validCode code = true := by
  unfold finalStatus
  split <;> simp_all

theorem isFinal_of_finalStatus {code status : Int} (h : finalStatus code = some status) :
    isFinal status = true := by
  unfold finalStatus at h
  split at h
  · cases h
    split
    · rfl
    · simp_all [isFinal]
  · cases h

namespace ResponseWriter

variable {w : ResponseWriter} {status : Int} {h : Header} {c : Call}

theorem calls_cons (c : Call) (cs : List Call) :
    w.calls (c :: cs) = (w.call c).calls cs := rfl

theorem calls_append (cs ds : List Call) : w.calls (cs ++ ds) = (w.calls cs).calls ds :=
  List.foldl_append

theorem call_written (c : Call) : (w.call c).written = (w.written || c.sends) := by
  cases hw : w.sent <;> cases c <;>
    simp [call, writeHeader, write, writeHeaderNow, flush, receive, refused, written, send,
      begin, admits, hw, Call.sends] <;>
    grind

variable {cs : List Call}

theorem returns_of_written (hw : w.written = true) : w.returns cs = true := by
  induction cs generalizing w with
  | nil => rfl
  | cons c cs ih =>
    have hcall : (w.call c).written = true := by rw [call_written, hw, Bool.true_or]
    simp [returns, panics, refused, hw, ih hcall]

theorem made_of_returns (hret : w.returns cs = true) : w.made cs = cs := by
  induction cs generalizing w with
  | nil => rfl
  | cons c cs ih =>
    simp only [returns, Bool.and_eq_true, Bool.not_eq_true'] at hret
    simp [made, hret.1, ih hret.2]

/-! ### One call -/

theorem written_eq_false : w.written = false ↔ w.sent = .nothing := by
  unfold written
  cases w.sent <;> simp

theorem call_final (hw : w.sent = .final status h) (c : Call) :
    (w.call c).sent = .final status h ∧
      (w.call c).body = extend status w.body c.payload := by
  cases c <;>
    simp [call, writeHeader, write, writeHeaderNow, flush, receive, refused, written, send,
      begin, admits, hw, Call.payload, extend] <;>
    split <;> simp

/-- Before a final status, a call that may write makes the response a 200; others leave it open. -/
theorem call_interim (hw : w.sent = .interim) (c : Call) :
    ((w.call c).sent = .final 200 w.header ∧ (w.call c).body = w.body ++ c.payload) ∨
    ((w.call c).sent = .interim ∧ (w.call c).body = w.body ∧ c.payload = []) := by
  cases c <;>
    simp [call, writeHeader, write, writeHeaderNow, flush, receive, refused, written, send,
      begin, admits, hw, Call.payload, bodyAllowedForStatus]

theorem call_quiet (hw : w.sent = .nothing) (hc : c.sends = false) :
    (w.call c).sent = .nothing ∧ (w.call c).status = c.onStatus w.status ∧
      (w.call c).header = c.onHeader w.header ∧ (w.call c).body = w.body ∧
      c.payload = [] := by
  cases c with
  | header f => exact ⟨hw, rfl, rfl, rfl, rfl⟩
  | writeHeader code =>
    have hwritten : (w.receive (.writeHeader code)).written = false :=
      written_eq_false.mpr hw
    simp only [call, writeHeader, hwritten, and_true, Call.onStatus]
    split
    · exact ⟨hw, rfl, rfl, rfl, rfl⟩
    · exact ⟨hw, rfl, rfl, rfl, rfl⟩
  | _ => simp [Call.sends] at hc

/-- A first call that sends fixes the response, unless it only passes on a status that is not
final. -/
theorem call_sends (hw : w.sent = .nothing) (hc : c.sends = true)
    (hfinal : isFinal w.status = true ∨ c ≠ .writeHeaderNow)
    (hstatus : finalStatus w.status = some status) :
    (w.call c).sent = .final status w.header ∧
      (w.call c).body = extend status w.body c.payload := by
  have hvalid := finalStatus_isSome.mp ⟨status, hstatus⟩
  cases hf : isFinal w.status with
  | true =>
    have heq : status = w.status := by
      rw [finalStatus_of_isFinal hf] at hstatus
      exact (Option.some.inj hstatus).symm
    subst heq
    cases c <;> simp [Call.sends] at hc <;>
      simp [call, write, writeHeaderNow, flush, receive, refused, written, send, begin,
        admits, hw, hvalid, hf, Call.payload, extend] <;>
      split <;> simp
  | false =>
    have heq : status = 200 := by
      rw [finalStatus_of_not_isFinal hvalid hf] at hstatus
      exact (Option.some.inj hstatus).symm
    subst heq
    cases c <;> simp [Call.sends, hf] at hc hfinal <;>
      simp [call, write, flush, receive, refused, written, send, begin, admits, hw, hvalid,
        hf, Call.payload, extend, bodyAllowedForStatus]

/-- A call that panics leaves a writer to which gin has passed a status on and which
has none. -/
theorem call_panics (hc : w.panics c = true) :
    (w.call c).sent = .interim ∧ (w.call c).header = w.header ∧
      (w.call c).body = w.body := by
  obtain ⟨hsends, hwritten, hvalid⟩ :
      c.sends = true ∧ w.written = false ∧ validCode w.status = false := by
    simpa [panics, refused] using hc
  have hw := written_eq_false.mp hwritten
  cases c <;> simp [Call.sends] at hsends <;>
    simp [call, write, writeHeaderNow, flush, receive, refused, written, send, isFinal, hw,
      hvalid]

/-! ### All of them -/

theorem calls_final (hw : w.sent = .final status h) (cs : List Call) :
    (w.calls cs).sent = .final status h ∧
      (w.calls cs).body = extend status w.body (payloads cs) := by
  induction cs generalizing w with
  | nil => exact ⟨hw, (extend_nil _ _).symm⟩
  | cons c cs ih =>
    obtain ⟨hsent, hbody⟩ := call_final hw c
    obtain ⟨hsent', hbody'⟩ := ih hsent
    refine ⟨hsent', ?_⟩
    rw [calls_cons, hbody', hbody, extend_extend]
    rfl

theorem calls_response_final (hw : w.sent = .final status h) (cs : List Call) :
    (w.calls cs).response = some ⟨status, h, extend status w.body (payloads cs)⟩ := by
  obtain ⟨hsent, hbody⟩ := calls_final hw cs
  simp [response, hsent, hbody]

theorem calls_response_interim (hw : w.sent = .interim) (cs : List Call) :
    ∃ h, (w.calls cs).response = some ⟨200, h, w.body ++ payloads cs⟩ := by
  induction cs generalizing w with
  | nil => exact ⟨w.header, by simp [calls, response, hw, payloads]⟩
  | cons c cs ih =>
    rw [calls_cons]
    obtain ⟨hsent, hbody⟩ | ⟨hsent, hbody, hpayload⟩ := call_interim hw c
    · refine ⟨w.header, ?_⟩
      rw [calls_response_final hsent, hbody]
      simp [extend, bodyAllowedForStatus, payloads]
    · obtain ⟨h, hresponse⟩ := ih hsent
      refine ⟨h, ?_⟩
      rw [hresponse, hbody]
      simp [payloads, hpayload]

theorem returns_of_valid (hw : w.sent = .nothing)
    (hvalid : validCode (statusAt w.status cs) = true) : w.returns cs = true := by
  induction cs generalizing w with
  | nil => rfl
  | cons c cs ih =>
    cases hc : c.sends with
    | true =>
      have hvalid : validCode w.status = true := by simpa [statusAt, hc] using hvalid
      have hwritten : (w.call c).written = true := by rw [call_written, hc, Bool.or_true]
      simp [returns, panics, refused, hvalid, returns_of_written hwritten]
    | false =>
      obtain ⟨hsent, hstatus, _⟩ := call_quiet hw hc
      have hrest : (w.call c).returns cs = true := by
        refine ih hsent ?_
        rw [hstatus]
        simpa [statusAt, hc] using hvalid
      simp [returns, panics, hc, hrest]

theorem valid_of_returns (hw : w.sent = .nothing) (hc : c.sends = true)
    (hret : w.returns (c :: cs) = true) : validCode w.status = true := by
  simp only [returns, panics, Bool.and_eq_true, Bool.not_eq_true'] at hret
  simpa [hc, refused, written_eq_false.mpr hw] using hret.1

theorem returns_of_cons (hret : w.returns (c :: cs) = true) : (w.call c).returns cs = true :=
  (Bool.and_eq_true_iff.mp hret).2

/-- Calls that send have fixed the response, if the status is final or none passes it on by
itself. -/
theorem calls_sends (hw : w.sent = .nothing) (hret : w.returns cs = true)
    (hany : cs.any Call.sends = true)
    (hfinal : isFinal (statusAt w.status cs) = true ∨ .writeHeaderNow ∉ cs) :
    ∃ status, finalStatus (statusAt w.status cs) = some status ∧
      (w.calls cs).sent = .final status (headerAt w.header cs) ∧
      (w.calls cs).body = extend status w.body (payloads cs) := by
  induction cs generalizing w with
  | nil => simp at hany
  | cons c cs ih =>
    rw [calls_cons]
    cases hc : c.sends with
    | true =>
      obtain ⟨status, hstatus⟩ := finalStatus_isSome.mpr (valid_of_returns hw hc hret)
      simp only [statusAt, headerAt, hc, if_true] at hfinal ⊢
      have hnow : isFinal w.status = true ∨ c ≠ .writeHeaderNow :=
        hfinal.imp_right fun hnot heq => hnot (heq ▸ .head _)
      obtain ⟨hsent, hbody⟩ := call_sends hw hc hnow hstatus
      obtain ⟨hsent', hbody'⟩ := calls_final hsent cs
      refine ⟨status, hstatus, hsent', ?_⟩
      rw [hbody', hbody, extend_extend]
      rfl
    | false =>
      obtain ⟨hsent, hstatus, hheader, hbody, hpayload⟩ := call_quiet hw hc
      simp only [statusAt, headerAt, hc, Bool.false_eq_true, if_false] at hfinal ⊢
      obtain ⟨status, hfs, hsent', hbody'⟩ := ih hsent (returns_of_cons hret)
        (by simpa [hc] using hany)
        (by
          rw [hstatus]
          exact hfinal.imp_right fun hnot hmem => hnot (.tail _ hmem))
      rw [hstatus] at hfs
      rw [hheader] at hsent'
      refine ⟨status, hfs, hsent', ?_⟩
      rw [hbody', hbody]
      simp [payloads, hpayload]

theorem calls_quiet (hw : w.sent = .nothing) (hany : cs.any Call.sends = false) :
    (w.calls cs).sent = .nothing ∧ (w.calls cs).status = statusAt w.status cs ∧
      (w.calls cs).header = headerAt w.header cs ∧ (w.calls cs).body = w.body ∧
      payloads cs = [] := by
  induction cs generalizing w with
  | nil => exact ⟨hw, rfl, rfl, rfl, rfl⟩
  | cons c cs ih =>
    simp only [List.any_cons, Bool.or_eq_false_iff] at hany
    obtain ⟨hsent, hstatus, hheader, hbody, hpayload⟩ := call_quiet hw hany.1
    obtain ⟨hsent', hstatus', hheader', hbody', hpayloads⟩ := ih hsent hany.2
    rw [hstatus] at hstatus'
    rw [hheader] at hheader'
    refine ⟨hsent', ?_, ?_, hbody'.trans hbody, ?_⟩
    · simpa [calls_cons, statusAt, hany.1] using hstatus'
    · simpa [calls_cons, headerAt, hany.1] using hheader'
    · simpa [payloads, hpayload] using hpayloads

end ResponseWriter

end Microjet.Gin
