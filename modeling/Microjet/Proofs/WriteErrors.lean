import Microjet.Dynamo.Errors

/-!
# What a failed write is reported as

The result of `mapWriteError` is an `*errorx.Error` around the error of the SDK. If there is
none in that, `errors.Is` decides by the one on the outside (`isConditionFailed_iff`).
-/

namespace Microjet.Dynamo.Errors

open Errorx

variable {α : Type} {err : Error α}

/-! ### What is in an error -/

/-- No `*errorx.Error` in it. -/
def NoErrorx (err : Error α) : Prop := ∀ e ∈ err.subtrees, e.own.fields = none

/-- A failed condition in it. -/
def HasConditionalCheck (err : Error α) : Prop :=
  ∃ e ∈ err.subtrees, ∃ text, e.own = .conditionalCheckFailed text

/-- The reasons of the first cancellation in it. -/
def firstCancellation (err : Error α) : Option (List CancellationReason) :=
  err.subtrees.findSome? fun e => e.own.reasons

theorem asConditionalCheckFailed_iff :
    asConditionalCheckFailed err = true ↔ HasConditionalCheck err := by
  refine Wrapped.Tree.any_eq_true.trans (exists_congr fun e => and_congr_right fun _ => ?_)
  cases e.own <;> simp [Node.isConditionalCheckFailed]

theorem asTransactionCanceled_map_snd :
    (asTransactionCanceled err).map Prod.snd = firstCancellation err := by
  rw [asTransactionCanceled, Wrapped.Tree.find_eq_findSome, List.map_findSome?,
    firstCancellation]
  congr 1
  funext e
  simp [Function.comp_def]

variable {reasons : List CancellationReason}

theorem asTransactionCanceled_mem {canceled : Error α}
    (h : asTransactionCanceled err = some (canceled, reasons)) : canceled ∈ err.subtrees := by
  rw [asTransactionCanceled, Wrapped.Tree.find_eq_findSome] at h
  obtain ⟨e, he, hsome⟩ := List.exists_of_findSome?_eq_some h
  obtain ⟨_, -, heq⟩ := Option.map_eq_some_iff.mp hsome
  cases heq
  exact he

theorem NoErrorx.of_mem {e : Error α} (h : NoErrorx err) (he : e ∈ err.subtrees) : NoErrorx e :=
  fun s hs => h s (Wrapped.Tree.subtrees_subset err he hs)

theorem NoErrorx.isError (h : NoErrorx err) (target : Fields (Param α)) :
    isError target err = false := by
  refine Bool.eq_false_iff.mpr fun htrue => ?_
  obtain ⟨e, he, hany⟩ := Wrapped.Tree.any_eq_true.mp htrue
  rw [h e he] at hany
  cases hany

theorem isError_withInner (h : NoErrorx err) (target e : Fields (Param α)) :
    isError target (withInner e err) = e.is target := by
  have hinner := h.isError target
  rw [isError] at hinner ⊢
  rw [withInner, Wrapped.Tree.any_node_singleton, hinner, Bool.or_false]
  rfl

theorem getErrorType_withInner (e : Fields (Param α)) (inner : Error α) :
    getErrorType (withInner e inner) = some e.type := by
  rw [getErrorType, Wrapped.Tree.find_eq_findSome]
  rfl

/-! ### The items that are named -/

/-- The line of an item. -/
def itemLine (r : CancellationReason) (i : Nat) : String :=
  "item " ++ toString i ++ ": " ++ r.code ++ (if r.message = "" then "" else ": " ++ r.message)

/-- The item has failed. -/
def Fails (r : CancellationReason) : Prop := r.code ≠ "" ∧ r.code ≠ "None"

instance (r : CancellationReason) : Decidable (Fails r) := inferInstanceAs (Decidable (_ ∧ _))

/-- The texts are those of the items that were not fine, each with its index and in their
order. -/
def Reported (reasons : List CancellationReason) (texts : List String) : Prop :=
  ∃ indices : List Nat, indices.Pairwise (· < ·) ∧
    (∀ i, i ∈ indices ↔ ∃ r, reasons[i]? = some r ∧ Fails r) ∧
    List.Forall₂ (fun i text => ∃ r, reasons[i]? = some r ∧ text = itemLine r i) indices texts

variable {r : CancellationReason}

theorem text_of_fails (h : Fails r) (i : Nat) :
    r.text i = some (itemLine r i) := by
  rw [CancellationReason.text, if_neg (not_or.mpr h), itemLine]
  by_cases hmessage : r.message = ""
  · simp [hmessage]
  · simp [hmessage, String.append_assoc]

theorem text_of_not_fails (h : ¬Fails r) (i : Nat) :
    r.text i = none := by
  rw [CancellationReason.text, if_pos]
  by_contra hcode
  exact h (not_or.mp hcode)

def itemTexts (items : List (CancellationReason × Nat)) : List String :=
  items.filterMap fun item => item.1.text item.2

variable {item : CancellationReason × Nat}

theorem itemTexts_cons_of_fails (h : Fails item.1) (items : List (CancellationReason × Nat)) :
    itemTexts (item :: items) = itemLine item.1 item.2 :: itemTexts items :=
  List.filterMap_cons_some (text_of_fails h item.2)

theorem itemTexts_cons_of_not_fails (h : ¬Fails item.1) (items : List (CancellationReason × Nat)) :
    itemTexts (item :: items) = itemTexts items :=
  List.filterMap_cons_none (text_of_not_fails h item.2)

theorem foldl_visit (items : List (CancellationReason × Nat)) (s : Seen) :
    items.foldl Seen.visit s =
      { reasons := s.reasons ++ itemTexts items
        conditionFailed := s.conditionFailed ||
          items.any fun item => item.1.code = conditionalCheckFailedCode } := by
  induction items generalizing s with
  | nil => simp [itemTexts]
  | cons item items ih =>
    rw [List.foldl_cons, ih, Seen.visit, List.any_cons]
    by_cases hfails : Fails item.1
    · rw [itemTexts_cons_of_fails hfails, text_of_fails hfails]
      simp [Bool.or_assoc]
    · -- a code that is skipped is not that of a failed condition
      have hcode : item.1.code ≠ conditionalCheckFailedCode := by
        intro hcode
        refine hfails ⟨?_, ?_⟩ <;> rw [hcode] <;> decide
      rw [itemTexts_cons_of_not_fails hfails, text_of_not_fails hfails]
      simp [hcode]

theorem reported_itemTexts (reasons : List CancellationReason) :
    Reported reasons (itemTexts reasons.zipIdx) := by
  refine ⟨(reasons.zipIdx.filter fun item => Fails item.1).map Prod.snd, ?_, fun i => ?_, ?_⟩
  · have hsorted : (reasons.zipIdx.map Prod.snd).Pairwise (· < ·) := by
      rw [List.zipIdx_map_snd]
      exact List.pairwise_lt_range'
    exact hsorted.sublist (List.filter_sublist.map Prod.snd)
  · simp only [List.mem_map, List.mem_filter, Prod.exists, exists_eq_right,
      List.mem_zipIdx_iff_getElem?, decide_eq_true_eq]
  · have hitems : ∀ item ∈ reasons.zipIdx, reasons[item.2]? = some item.1 :=
      fun item hitem => List.mem_zipIdx_iff_getElem?.mp hitem
    -- the induction is on items that know their index, of which `zipIdx` is one list
    generalize reasons.zipIdx = items at hitems
    induction items with
    | nil => exact .nil
    | cons item items ih =>
      obtain ⟨hitem, hrest⟩ := List.forall_mem_cons.mp hitems
      by_cases hfails : Fails item.1
      · rw [List.filter_cons_of_pos (by simpa using hfails), itemTexts_cons_of_fails hfails]
        exact .cons ⟨item.1, hitem, rfl⟩ (ih hrest)
      · rw [List.filter_cons_of_neg (by simpa using hfails),
          itemTexts_cons_of_not_fails hfails]
        exact ih hrest

def canceledFields (reasons : List CancellationReason) (texts : List String) :
    Fields (Param α) :=
  if reasons.any (·.code = conditionalCheckFailedCode) then
    withParam errConditionFailed "reasons" (.strings texts)
  else newError .internal "dynamo" "transaction cancelled" [("reasons", .strings texts)]

theorem mapCancellation_eq (canceled : Error α) (reasons : List CancellationReason) :
    mapCancellation canceled reasons =
      withInner (canceledFields reasons (itemTexts reasons.zipIdx)) canceled := by
  have hany : (reasons.zipIdx.any fun item => item.1.code = conditionalCheckFailedCode) =
      reasons.any (·.code = conditionalCheckFailedCode) := by
    conv_rhs => rw [← List.zipIdx_map_fst 0 reasons, List.any_map]
    rfl
  rw [mapCancellation, foldl_visit, canceledFields]
  simp only [hany, Bool.false_or, List.nil_append]
  split <;> rfl

theorem canceledFields_params (reasons : List CancellationReason) (texts : List String) :
    (canceledFields (α := α) reasons texts).params = [("reasons", .strings texts)] := by
  unfold canceledFields
  split <;> rfl

theorem canceledFields_is (reasons : List CancellationReason) (texts : List String) :
    (canceledFields (α := α) reasons texts).is errConditionFailed =
      reasons.any (·.code = conditionalCheckFailedCode) := by
  unfold canceledFields
  split
  · next h => rw [h]; rfl
  · next h => rw [Bool.eq_false_iff.mpr h]; rfl

theorem canceledFields_type (h : reasons.any (·.code = conditionalCheckFailedCode) = false)
    (texts : List String) :
    (canceledFields (α := α) reasons texts).type = ErrorType.internal.text := by
  rw [canceledFields, h]
  rfl

theorem mapWriteError_cases (err : Error α) :
    HasConditionalCheck err ∧ mapWriteError err = withInner errConditionFailed err ∨
      ¬HasConditionalCheck err ∧
        ((∃ canceled ∈ err.subtrees, ∃ reasons, firstCancellation err = some reasons ∧
          mapWriteError err =
            withInner (canceledFields reasons (itemTexts reasons.zipIdx)) canceled) ∨
        firstCancellation err = none ∧ mapWriteError err = withInner errInternal err) := by
  rw [← asConditionalCheckFailed_iff, mapWriteError]
  cases asConditionalCheckFailed err with
  | true => exact .inl ⟨rfl, rfl⟩
  | false =>
    refine .inr ⟨Bool.false_ne_true, ?_⟩
    rw [← asTransactionCanceled_map_snd]
    cases hcanceled : asTransactionCanceled err with
    | some found =>
      exact .inl ⟨found.1, asTransactionCanceled_mem hcanceled, found.2, rfl,
        mapCancellation_eq found.1 found.2⟩
    | none => exact .inr ⟨rfl, rfl⟩

/-- A failed check in the error, or else in a reason of the first cancellation. -/
def ConditionFailed (err : Error α) : Prop :=
  HasConditionalCheck err ∨ ¬HasConditionalCheck err ∧
    ∃ reasons, firstCancellation err = some reasons ∧
      ∃ r ∈ reasons, r.code = conditionalCheckFailedCode

theorem any_code_iff :
    reasons.any (·.code = conditionalCheckFailedCode) = true ↔
      ∃ r ∈ reasons, r.code = conditionalCheckFailedCode := by
  simp

theorem isConditionFailed_iff (h : NoErrorx err) :
    isError errConditionFailed (mapWriteError err) = true ↔ ConditionFailed err := by
  rcases mapWriteError_cases err with ⟨hcheck, heq⟩ |
    ⟨hcheck, ⟨canceled, hmem, reasons, hfirst, heq⟩ | ⟨hfirst, heq⟩⟩
  · rw [heq, isError_withInner h]
    exact iff_of_true rfl (.inl hcheck)
  · -- the cancellation that is reported is the first one
    rw [heq, isError_withInner (h.of_mem hmem), canceledFields_is, any_code_iff]
    refine ⟨fun hcode => .inr ⟨hcheck, reasons, hfirst, hcode⟩, ?_⟩
    rintro (habs | ⟨-, reasons', hfirst', hcode⟩)
    · exact absurd habs hcheck
    · rw [hfirst] at hfirst'
      cases hfirst'
      exact hcode
  · rw [heq, isError_withInner h]
    refine iff_of_false (by simp [Fields.is, errInternal, errConditionFailed, newError,
      ErrorType.text]) ?_
    rintro (habs | ⟨-, reasons', hfirst', -⟩)
    · exact hcheck habs
    · rw [hfirst] at hfirst'
      cases hfirst'

theorem getErrorType_of_not_conditionFailed (h : ¬ConditionFailed err) :
    getErrorType (mapWriteError err) = some ErrorType.internal.text := by
  rcases mapWriteError_cases err with ⟨hcheck, -⟩ |
    ⟨hcheck, ⟨canceled, -, reasons, hfirst, heq⟩ | ⟨-, heq⟩⟩
  · exact absurd (.inl hcheck) h
  · have hany : reasons.any (·.code = conditionalCheckFailedCode) = false :=
      Bool.eq_false_iff.mpr fun hany =>
        h (.inr ⟨hcheck, reasons, hfirst, any_code_iff.mp hany⟩)
    rw [heq, getErrorType_withInner, canceledFields_type hany]
  · rw [heq, getErrorType_withInner]
    rfl

/-- A failed write matches `ErrConditionFailed` exactly if there is a failed condition in the
error, and is internal otherwise. For a cancellation it names the items that were not fine. -/
theorem mapWriteError_classified (err : Error α) (h : NoErrorx err) :
    (isError errConditionFailed (mapWriteError err) = true ↔
        HasConditionalCheck err ∨ ¬HasConditionalCheck err ∧
          ∃ reasons, firstCancellation err = some reasons ∧
            ∃ r ∈ reasons, r.code = "ConditionalCheckFailed") ∧
      (isError errConditionFailed (mapWriteError err) = false →
        getErrorType (mapWriteError err) = some ErrorType.internal.text) ∧
      (¬HasConditionalCheck err → ∀ reasons, firstCancellation err = some reasons →
        ∃ e canceled texts, mapWriteError err = withInner e canceled ∧
          e.params = [("reasons", .strings texts)] ∧ Reported reasons texts) := by
  refine ⟨isConditionFailed_iff h, fun hfalse => ?_, fun hcheck reasons hreasons => ?_⟩
  · refine getErrorType_of_not_conditionFailed fun hfailed => ?_
    rw [(isConditionFailed_iff h).mpr hfailed] at hfalse
    cases hfalse
  · rcases mapWriteError_cases err with ⟨hcheck', -⟩ |
      ⟨-, ⟨canceled, -, reasons', hfirst, heq⟩ | ⟨hfirst, -⟩⟩
    · exact absurd hcheck' hcheck
    · rw [hreasons] at hfirst
      cases hfirst
      exact ⟨_, canceled, _, heq, canceledFields_params _ _, reported_itemTexts reasons⟩
    · rw [hreasons] at hfirst
      cases hfirst

def seatTaken : Error Unit :=
  .node (.other "operation error DynamoDB: TransactWriteItems")
    [.node (.other "https response error StatusCode: 400")
      [.node (.transactionCanceled "TransactionCanceledException"
        [⟨"None", ""⟩, ⟨"ConditionalCheckFailed", "the conditional request failed"⟩]) []]]

theorem seatTaken_classified :
    NoErrorx seatTaken ∧ isError errConditionFailed (mapWriteError seatTaken) = true := by
  have hno : NoErrorx seatTaken := by
    intro e he
    simp only [seatTaken, Wrapped.Tree.subtrees, Wrapped.Tree.subtreesList, List.append_nil,
      List.mem_cons, List.not_mem_nil, or_false] at he
    rcases he with rfl | rfl | rfl <;> rfl
  have hcheck : ¬HasConditionalCheck seatTaken := by
    rw [← asConditionalCheckFailed_iff]
    decide
  exact ⟨hno, (mapWriteError_classified seatTaken hno).1.mpr
    (.inr ⟨hcheck, _, rfl, _, List.mem_cons_of_mem _ List.mem_cons_self, rfl⟩)⟩

/-! ### Transactions -/

/-- The error is a failed condition exactly if the transaction was sent and what came back has
one. -/
theorem transactWrite_isConditionFailed_iff {ι : Type} {send : List ι → Option (Error α)}
    {items : List ι} (hsend : ∀ err, send items = some err → NoErrorx err) :
    (∃ err, transactWrite send items = some err ∧ isError errConditionFailed err = true) ↔
      0 < items.length ∧ items.length ≤ maxTransactItems ∧
        ∃ err, send items = some err ∧ ConditionFailed err := by
  unfold transactWrite
  split
  · next hzero => simp [hzero]
  split
  · next hmany =>
      constructor
      · rintro ⟨err, heq, hfailed⟩
        cases heq
        cases hfailed
      · rintro ⟨-, hle, -⟩
        omega
  · next hpos hle =>
      rw [and_iff_right (Nat.pos_of_ne_zero hpos), and_iff_right (Nat.not_lt.mp hle)]
      constructor
      · rintro ⟨err, heq, hfailed⟩
        obtain ⟨sent, hsent, rfl⟩ := Option.map_eq_some_iff.mp heq
        exact ⟨sent, hsent, (isConditionFailed_iff (hsend sent hsent)).mp hfailed⟩
      · rintro ⟨sent, hsent, hfailed⟩
        exact ⟨mapWriteError sent, by rw [hsent]; rfl,
          (isConditionFailed_iff (hsend sent hsent)).mpr hfailed⟩

theorem rejected_transaction_isConditionFailed :
    let rejected : Error Unit := .node (.conditionalCheckFailed "the request failed") []
    ∃ err, transactWrite (fun _ => some rejected) [()] = some err ∧
      isError errConditionFailed err = true := by
  intro rejected
  refine (transactWrite_isConditionFailed_iff fun err herr => ?_).mpr
    ⟨by decide, by decide, rejected, rfl, .inl ⟨rejected, List.mem_cons_self, _, rfl⟩⟩
  cases herr
  intro e he
  cases List.mem_singleton.mp he
  rfl

end Microjet.Dynamo.Errors
