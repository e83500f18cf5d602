import Microjet.Outbox.Db

/-!
# Reading a history

What is asked of a history, and what makes it a good one: `HistOk` says of each event what must
and must not have happened before it. `outbox_delivery`, `accepted_at_most_once` and
`failure_accounting` are read off it; every step keeps it (`Proofs/OutboxInv.lean`).
-/

namespace Microjet.Outbox

open Messaging

/-- The row was handed to the broker. -/
def Event.hands (id : Nat) : Event → Bool
  | .handed _ i _ _ => i == id
  | _ => false

/-- The broker accepted the row. -/
def Event.accepts (id : Nat) : Event → Bool
  | .handed _ i _ ok => i == id && ok
  | _ => false

/-- The row was marked published. -/
def Event.marks (id : Nat) : Event → Bool
  | .marked _ i => i == id
  | _ => false

/-- A failure of the row was recorded. -/
def Event.records (id : Nat) : Event → Bool
  | .recorded _ i _ _ => i == id
  | _ => false

/-- The row was given up. -/
def Event.quarantines (id : Nat) : Event → Bool
  | .recorded _ i _ q => i == id && q
  | _ => false

/-- A pass was rolled back. -/
def Event.aborts : Event → Bool
  | .aborted _ => true
  | _ => false

/-- A pass is over: it was rolled back or has returned. -/
def Event.ends : Event → Bool
  | .aborted _ => true
  | .returned _ _ => true
  | _ => false

/-- The row pass `p` marked in this event, if it did. -/
def markedBy (p : PassId) : Event → Option Nat
  | .marked q id => if q = p then some id else none
  | _ => none

/-- The rows that a pass has marked. -/
def markedIds (p : PassId) (hist : List Event) : List Nat :=
  hist.filterMap (markedBy p)

/-- No pass was rolled back. -/
def NoAborts (hist : List Event) : Prop := ∀ e ∈ hist, e.aborts = false

/-- The pass is not over. -/
def OpenPass (p : PassId) (hist : List Event) : Prop :=
  ∀ e ∈ hist, e.pass = p → e.ends = false

/-- What has to be true of the past when an event happens. -/
def EventOk (sys : System) (old : List Event) : Event → Prop
  | .handed _ id _ _ => old.any (Event.quarantines id) = false
  | .marked p id =>
    old.any (Event.accepts id) = true ∧ old.any (Event.marks id) = false ∧
      OpenPass p old
  | .recorded p id a q =>
    a = old.countP (Event.records id) + 1 ∧
      (q = true ↔ 0 < (sys.relay p.relay).maxAttempts ∧
        (sys.relay p.relay).maxAttempts ≤ a) ∧
      old.any (Event.quarantines id) = false
  | .aborted p => markedIds p old = []
  | .returned p n => n = (markedIds p old).length

/-- Every event was in order. -/
def HistOk (sys : System) : List Event → Prop
  | [] => True
  | e :: old => EventOk sys old e ∧ HistOk sys old

section Lemmas

variable {sys : System} {hist old new : List Event} {p : PassId} {id : Nat}

theorem NoAborts.of_append (h : NoAborts (new ++ old)) : NoAborts old :=
  fun e he => h e (List.mem_append_right _ he)

variable {e : Event}

theorem NoAborts.of_cons (h : NoAborts (e :: old)) : NoAborts old :=
  fun e' he' => h e' (List.mem_cons_of_mem _ he')

@[simp] theorem markedIds_append :
    markedIds p (new ++ old) = markedIds p new ++ markedIds p old := by
  rw [markedIds, List.filterMap_append]
  rfl

theorem markedIds_cons_of_none (h : markedBy p e = none) :
    markedIds p (e :: old) = markedIds p old := by
  rw [markedIds, List.filterMap_cons_none h]
  rfl

variable {q : PassId}

theorem markedIds_cons_marked :
    markedIds p (.marked q id :: old) =
      if q = p then id :: markedIds p old else markedIds p old := by
  by_cases hq : q = p
  · rw [if_pos hq, markedIds, List.filterMap_cons_some (b := id)]
    · rfl
    · exact if_pos hq
  · rw [if_neg hq, markedIds_cons_of_none]
    exact if_neg hq

theorem markedIds_append_of_ne (h : ∀ e ∈ new, e.pass ≠ p) :
    markedIds p (new ++ old) = markedIds p old := by
  have hnew : markedIds p new = [] := by
    refine List.filterMap_eq_nil_iff.mpr fun e he => ?_
    cases e with
    | marked q i => exact if_neg (h _ he)
    | handed | recorded | aborted | returned => rfl
  rw [markedIds_append, hnew, List.nil_append]

theorem markedIds_eq_nil (h : ∀ e ∈ hist, e.pass ≠ p) : markedIds p hist = [] := by
  have happ : markedIds p (hist ++ []) = markedIds p [] := markedIds_append_of_ne h
  rwa [List.append_nil] at happ

theorem HistOk.of_append (h : HistOk sys (new ++ old)) : HistOk sys old := by
  induction new with
  | nil => exact h
  | cons e new ih => exact ih h.2

theorem HistOk.event (h : HistOk sys (new ++ e :: old)) :
    EventOk sys old e := h.of_append.1

theorem HistOk.accepted (h : HistOk sys hist)
    (hm : hist.any (Event.marks id) = true) :
    hist.any (Event.accepts id) = true := by
  obtain ⟨e, he, hmark⟩ := List.any_eq_true.mp hm
  obtain ⟨new, old, rfl⟩ := List.append_of_mem he
  cases e with
  | marked q i =>
    obtain rfl : i = id := by simpa [Event.marks] using hmark
    rw [List.any_append, List.any_cons, h.event.1]
    simp
  | handed | recorded | aborted | returned => cases hmark

/-- A pass marks nothing after it has ended. -/
theorem HistOk.ended (h : HistOk sys hist) (he : e ∈ hist) (hends : e.ends = true) :
    ∃ old, EventOk sys old e ∧ markedIds e.pass hist = markedIds e.pass old := by
  induction hist with
  | nil => cases he
  | cons e' old ih =>
    rcases List.mem_cons.mp he with rfl | hold
    · refine ⟨old, h.1, markedIds_cons_of_none ?_⟩
      cases e with
      | aborted | returned => rfl
      | handed | marked | recorded => cases hends
    · obtain ⟨old', hok, hids⟩ := ih h.2 hold
      refine ⟨old', hok, hids ▸ ?_⟩
      cases e' with
      | marked q i =>
        have hq : q ≠ e.pass := fun hqp => by
          have := h.1.2.2 _ hold hqp.symm
          rw [hends] at this
          cases this
        rw [markedIds_cons_marked, if_neg hq]
      | handed | recorded | aborted | returned => exact markedIds_cons_of_none rfl

/-- The count a pass returned is the number of rows it marked, for good. -/
theorem HistOk.returned {n : Nat} (h : HistOk sys hist)
    (hr : Event.returned p n ∈ hist) : n = (markedIds p hist).length := by
  obtain ⟨old, hok, hids⟩ := h.ended hr rfl
  exact hok.trans (congrArg List.length hids.symm)

theorem HistOk.aborted (h : HistOk sys hist) (ha : Event.aborted p ∈ hist) :
    markedIds p hist = [] := by
  obtain ⟨old, hok, hids⟩ := h.ended ha rfl
  exact hids.trans hok

end Lemmas

end Microjet.Outbox
