import Microjet.Outbox.Db

/-!
# Passes without interference

One relay, a database that never fails, a broker that refuses exactly the rows it always
refuses: here a pass is a function of the state, `runPass`, and a run of the system of
`Outbox/Db.lean` (`AtRest.runPass`).
-/

namespace Microjet.Outbox

open Errorx Messaging Conc

/-- A codec for messages without headers, the only ones the sample runs send. -/
def sampleJSON : HeaderJSON where
  toJSON h := if h.isEmpty then .ok [123, 125] else .error (.other "unsupported")
  fromJSON b := if b = [123, 125] then .ok [] else .error (.other "unsupported")

/-- The broker's error. -/
def refused : Err := .other "nats: no response from stream"

/-- Answers without database errors and without cancellation. The broker refuses
the rows in `bad`. -/
def serve (bad : Nat → Bool) (clock : St → Time) (t : Tid) :
    (op : Op) → St → Ans op × St
  | .ctxErr, s => ((none : Option Err), s)
  | .now, s => (clock s, s)
  | .begin, s =>
    ((.ok () : Except Err Unit), { s with txs := Function.update s.txs t (some {}) })
  | .commit, s =>
    match s.txs t with
    | none => ((.error (.other "no transaction") : Except Err Unit), s.abortTx t)
    | some tx => ((.ok () : Except Err Unit), s.commitTx t tx)
  | .rollback, s => ((), s.abortTx t)
  | .find q, s =>
    let rows := q.eval (s.view t)
    ((.ok rows : Except Err (List Row)),
      if q.skipLocked then s.lock t (rows.map Row.id) else s)
  | .publish src msg, s =>
    let answer : Option Err := if bad src then some refused else none
    (answer, { s with
      hist := .handed (s.pass t) src msg answer.isNone :: s.hist })
  | .update v id, s =>
    ((.ok ((s.view t).filter (·.id == id)).length : Except Err Nat),
      match s.txs t with
      | none => s.write (s.pass t) (id, v)
      | some tx => { s with
          txs := Function.update s.txs t
            (some ⟨id :: tx.locks, tx.writes ++ [(id, v)]⟩) })
  | .delete cond, s =>
    ((.ok (s.rows.filter cond).length : Except Err Nat),
      { s with rows := s.rows.filter fun m => !cond m })

/-- A pass of `t` has begun. -/
def St.started (s : St) (t : Tid) : St :=
  { s with runs := Function.update s.runs t (s.runs t + 1) }

/-- One pass of relay `t`, from its start to its return. -/
def runPass (sys : System) (bad : Nat → Bool) (clock : St → Time) (t : Tid)
    (s : St) : St :=
  let res := (publishPending sys.json (sys.relay t)).runWith (serve bad clock t)
    (s.started t)
  { res.2 with hist := .returned (res.2.pass t) res.1.1 :: res.2.hist }

/-- Reached by the system, with every relay idle. -/
def AtRest (sys : System) (s : St) : Prop :=
  Reach (machine sys) initial ⟨s, fun _ => none⟩

/-- No other relay is in a transaction. -/
def St.Quiet (t : Tid) (s : St) : Prop := ∀ u, u ≠ t → s.txs u = none

section Lemmas

variable {bad : Nat → Bool} {clock : St → Time} {t : Tid} {s : St}

theorem St.Quiet.not_locked (h : s.Quiet t) (id : Nat) :
    ¬ s.LockedElsewhere t id := by
  rintro ⟨u, tx, hut, htx, -⟩
  rw [h u hut] at htx
  cases htx

@[simp] theorem write_txs (p : PassId) (s : St) (w : Nat × Values) :
    (s.write p w).txs = s.txs := by
  rw [St.write]
  split <;> rfl

theorem quiet_update (h : s.Quiet t) (x : Option Tx) {u : Tid} (hu : u ≠ t) :
    Function.update s.txs t x u = none := by
  rw [Function.update_of_ne hu]
  exact h u hu

section Run

variable {β : Type}

@[simp] theorem runWith_ctxErr (f : Option Err → Code β) :
    (ctxErr >>= f).runWith (serve bad clock t) s =
      (f none).runWith (serve bad clock t) s := rfl

@[simp] theorem runWith_clockNow (f : Time → Code β) :
    (clockNow >>= f).runWith (serve bad clock t) s =
      (f (clock s)).runWith (serve bad clock t) s := rfl

@[simp] theorem runWith_begin (f : Except Err Unit → Code β) :
    (begin >>= f).runWith (serve bad clock t) s =
      (f (.ok ())).runWith (serve bad clock t)
        { s with txs := Function.update s.txs t (some {}) } := rfl

@[simp] theorem runWith_commit {tx : Tx} (htx : s.txs t = some tx)
    (f : Except Err Unit → Code β) :
    (commit >>= f).runWith (serve bad clock t) s =
      (f (.ok ())).runWith (serve bad clock t) (s.commitTx t tx) := by
  have hserve : serve bad clock t .commit s =
      ((.ok () : Except Err Unit), s.commitTx t tx) := by
    simp only [serve, htx]
    rfl
  exact congrArg (fun x : Except Err Unit × St =>
    (f x.1).runWith (serve bad clock t) x.2) hserve

@[simp] theorem runWith_listAll (q : Query) (f : Except Err (List Row) → Code β) :
    (listAll q >>= f).runWith (serve bad clock t) s =
      (f (.ok (q.eval (s.view t)))).runWith (serve bad clock t)
        (if q.skipLocked then s.lock t ((q.eval (s.view t)).map Row.id) else s) := rfl

@[simp] theorem runWith_publish (id : Nat) (msg : Message) (f : Option Err → Code β) :
    (publish id msg >>= f).runWith (serve bad clock t) s =
      (f (if bad id then some refused else none)).runWith (serve bad clock t)
        { s with
          hist := .handed (s.pass t) id msg
            (if bad id then some refused else none : Option Err).isNone :: s.hist } := rfl

@[simp] theorem runWith_updateMap (v : Values) (id : Nat) (f : Except Err Nat → Code β) :
    (updateMap v id >>= f).runWith (serve bad clock t) s =
      (f (.ok ((s.view t).filter (·.id == id)).length)).runWith (serve bad clock t)
        (serve bad clock t (.update v id) s).2 := rfl

end Run

theorem serve_exec (op : Op) (s : St) (h : s.Quiet t) :
    exec t op s (serve bad clock t op s).1 (serve bad clock t op s).2 ∧
      (serve bad clock t op s).2.Quiet t := by
  cases op with
  | ctxErr | now => exact ⟨rfl, h⟩
  | begin => exact ⟨rfl, fun _ => quiet_update h _⟩
  | commit =>
    rw [serve]
    split
    · exact ⟨rfl, fun _ => quiet_update h _⟩
    · next tx htx => exact ⟨⟨tx, htx, rfl⟩, fun _ => quiet_update h _⟩
  | rollback => exact ⟨rfl, fun _ => quiet_update h _⟩
  | find q =>
    dsimp only [serve, exec]
    split
    · refine ⟨⟨[], fun id hid => absurd hid (h.not_locked id), ?_, rfl⟩, ?_⟩
      · rw [List.filter_eq_self.mpr]
        exact fun _ _ => decide_eq_true List.not_mem_nil
      · rw [St.lock]
        split
        · exact h
        · exact fun _ => quiet_update h _
    · exact ⟨⟨rfl, rfl⟩, h⟩
  | publish src msg => exact ⟨rfl, h⟩
  | update v id =>
    dsimp only [serve, exec]
    refine ⟨⟨h.not_locked id, rfl, ?_⟩, ?_⟩
    · cases s.txs t <;> rfl
    · split
      · exact fun u hu => by rw [write_txs]; exact h u hu
      · exact fun _ => quiet_update h _
  | delete cond => exact ⟨⟨fun m _ _ => h.not_locked m.id, rfl, rfl⟩, h⟩

variable {sys : System}

theorem AtRest.runPass (h : AtRest sys s) (hquiet : s.Quiet t)
    (ht : sys.locking = true ∨ t = leader) :
    AtRest sys (runPass sys bad clock t s) := by
  have hstart : start sys t (passJob sys.json (sys.relay t)) s (s.started t) :=
    ⟨rfl, .inl ⟨rfl, ht⟩⟩
  refine Reach.job (M := machine sys) (P := St.Quiet t) (fun op s hs => ?_) h rfl
    hstart hquiet (by rw [passJob, Prog.runWith_bind]; rfl)
  exact serve_exec op s hs

theorem AtRest.enqueue (h : AtRest sys s) (x id : Nat) {ctx : Ctx}
    {msg : Message} {row : Row} (henq : enqueue sys.json true ctx msg = .ok row)
    (hid : id ∉ s.ledger.map (·.row.id)) :
    AtRest sys { s with ledger := ⟨{ row with id }, x, .inFlight⟩ :: s.ledger } :=
  .step h (.env (.enqueue henq hid))

theorem AtRest.env {s' : St} (h : AtRest sys s) (hstep : Env sys.json s s') : AtRest sys s' :=
  .step h (.env hstep)

end Lemmas

end Microjet.Outbox
