import Microjet.Gormx.Transaction
import Mathlib.Data.List.Nodup

/-!
# Transactions compose

A write under an active transaction is pending with it; one under a transaction that is over is
committed if its operation returned nil and gone otherwise (`Inv`). Every construct of a program
keeps this (`eval_inv`), if the contexts lead where they should (`Leads`). `WithTx` makes the
key from the handle of the transaction: if only one of the pool and its transactions reports a
`*sql.DB`, that is another key (`silent_pool_escapes`).
-/

namespace Microjet.Gormx.Transaction

open Function (update update_self update_of_ne update_apply)

variable {kinds : Nat → PoolKind} {s : Store} {active : Nat → Option Nat} {d t : Nat}

/-- The key of a database. -/
def key (kinds : Nat → PoolKind) (d : Nat) : TxKey := txKeyFor kinds (gormOpen d)

theorem key_inj {e : Nat} (h : key kinds d = key kinds e) : d = e := by
  unfold key txKeyFor GormDB.sqlDB gormOpen at h
  cases hd : (kinds d).reports <;> cases he : (kinds e).reports <;> simp_all

/-- `WithTx` writes under the key the tables read exactly if the pool and its transactions agree
on reporting. -/
theorem txKeyFor_begin : txKeyFor kinds ((gormOpen d).begin t) = key kinds d ↔
    (kinds d).reports = (kinds d).txReports := by
  unfold key txKeyFor GormDB.sqlDB GormDB.begin gormOpen
  cases hd : (kinds d).reports <;> cases ht : (kinds d).txReports <;>
    simp [Pool.database, hd, ht]

/-- The context leads to the handles of its outermost transactions, and they are
active. -/
structure Leads (kinds : Nat → PoolKind) (active : Nat → Option Nat) (sc : Scope) : Prop where
  value : ∀ d, sc.ctx.value (key kinds d) = (sc.outer d).map (gormOpen d).begin
  active : ∀ d t, sc.outer d = some t → active t = some d

variable {sc : Scope}

theorem Leads.activate (h : Leads kinds active sc) (ht : active t = none) :
    Leads kinds (update active t (some d)) sc where
  value := h.value
  active e u hu := by
    have hactive := h.active e u hu
    have hne : u ≠ t := by
      intro heq
      rw [heq, ht] at hactive
      simp at hactive
    rw [update_of_ne hne]
    exact hactive

theorem Leads.enter (h : Leads kinds active sc) (ht : active t = none) (hnone : sc.outer d = none) :
    Leads kinds (update active t (some d))
      (sc.enter d t (sc.ctx.withValue (key kinds d) ((gormOpen d).begin t))) := by
  have houter : (sc.enter d t (sc.ctx.withValue (key kinds d) ((gormOpen d).begin t))).outer =
      update sc.outer d (some t) := by
    simp [Scope.enter, hnone]
  refine ⟨fun e => ?_, fun e u hu => ?_⟩
  · rw [houter]
    show List.lookup _ (_ :: sc.ctx) = _
    by_cases he : e = d
    · subst he
      rw [update_self]
      simp
    · have hkey : (key kinds e == key kinds d) = false := by
        simpa using fun heq => he (key_inj heq)
      rw [update_of_ne he, List.lookup_cons, hkey]
      exact h.value e
  · rw [houter] at hu
    by_cases he : e = d
    · subst he
      rw [update_self] at hu
      cases hu
      exact update_self ..
    · rw [update_of_ne he] at hu
      exact (h.activate ht).active e u hu

theorem Leads.join (h : Leads kinds active sc) (hsome : (sc.outer d).isSome) :
    Leads kinds active (sc.enter d t sc.ctx) := by
  have henter : sc.enter d t sc.ctx = sc := by
    simp [Scope.enter, hsome]
  rw [henter]
  exact h

/-! ### The invariant -/

/-- Where every write is. -/
structure Inv (active : Nat → Option Nat) (s : Store) : Prop where
  fresh : ∀ k, s.clock ≤ k → active k = none ∧ s.pending k = [] ∧ s.wrote k = none
  owner : ∀ w d t, s.wrote w = some (d, some t) → t < s.clock
  committed : ∀ w d, w ∈ s.committed d → ∃ owner, s.wrote w = some (d, owner)
  pending : ∀ w t, w ∈ s.pending t → ∃ d, active t = some d ∧ s.wrote w = some (d, some t)
  direct : ∀ w d, s.wrote w = some (d, none) → w ∈ s.committed d
  owned : ∀ w d t, s.wrote w = some (d, some t) →
    (active t = some d ∧ w ∈ s.pending t ∧ w ∉ s.committed d) ∨
    (active t = none ∧ ∃ ok, s.ended t = some ok ∧ (w ∈ s.committed d ↔ ok = true))
  nodupCommitted : ∀ d, (s.committed d).Nodup
  nodupPending : ∀ t, (s.pending t).Nodup

theorem inv_start : Inv (fun _ => none) {} where
  fresh _ _ := ⟨rfl, rfl, rfl⟩
  owner := by simp
  committed := by simp
  pending := by simp
  direct := by simp
  owned := by simp
  nodupCommitted _ := List.nodup_nil
  nodupPending _ := List.nodup_nil

theorem Inv.begin (h : Inv active s) (d : Nat) :
    Inv (update active s.clock (some d)) { s with clock := s.clock + 1 } := by
  obtain ⟨hnone, hpend, _⟩ := h.fresh s.clock (Nat.le_refl _)
  have hne : ∀ {u e : Nat}, active u = some e → u ≠ s.clock := by
    intro u e hu heq
    rw [heq, hnone] at hu
    simp at hu
  exact {
    fresh := by
      intro k hk
      have hk : s.clock + 1 ≤ k := hk
      rw [update_of_ne (by omega)]
      exact h.fresh k (by omega)
    owner := fun w e u hw => Nat.lt_succ_of_lt (h.owner w e u hw)
    committed := h.committed
    pending := by
      intro w u hw
      obtain ⟨e, hu, hwrote⟩ := h.pending w u hw
      exact ⟨e, by rw [update_of_ne (hne hu)]; exact hu, hwrote⟩
    direct := h.direct
    owned := by
      intro w e u hw
      have hlt := h.owner w e u hw
      rw [update_of_ne (by omega)]
      exact h.owned w e u hw
    nodupCommitted := h.nodupCommitted
    nodupPending := h.nodupPending }

theorem Inv.skip (h : Inv active s) : Inv active { s with clock := s.clock + 1 } where
  fresh k hk := h.fresh k (Nat.le_of_succ_le hk)
  owner w e u hw := Nat.lt_succ_of_lt (h.owner w e u hw)
  committed := h.committed
  pending := h.pending
  direct := h.direct
  owned := h.owned
  nodupCommitted := h.nodupCommitted
  nodupPending := h.nodupPending

/-- The handle of a database. -/
def handle (d : Nat) : Option Nat → GormDB
  | none => gormOpen d
  | some t => (gormOpen d).begin t

section Write

variable {owner : Option Nat} {w e u : Nat}

theorem write_clock : (s.write (handle d owner) d owner).clock = s.clock + 1 := by
  cases owner <;> rfl

theorem write_ended : (s.write (handle d owner) d owner).ended = s.ended := by
  cases owner <;> rfl

theorem write_wrote :
    (s.write (handle d owner) d owner).wrote w =
      if w = s.clock then some (d, owner) else s.wrote w := by
  cases owner <;> exact update_apply ..

theorem write_committed :
    (s.write (handle d owner) d owner).committed e =
      if owner = none ∧ e = d then s.committed e ++ [s.clock] else s.committed e := by
  cases owner with
  | none =>
    show update s.committed d _ e = _
    rw [update_apply]
    by_cases he : e = d <;> simp [he]
  | some t => rfl

theorem write_pending :
    (s.write (handle d owner) d owner).pending u =
      if owner = some u then s.pending u ++ [s.clock] else s.pending u := by
  cases owner with
  | none => rfl
  | some t =>
    show update s.pending t _ u = _
    rw [update_apply]
    by_cases hu : u = t <;> simp [hu, eq_comm]

theorem mem_write_committed :
    w ∈ (s.write (handle d owner) d owner).committed e ↔
      w ∈ s.committed e ∨ (w = s.clock ∧ owner = none ∧ e = d) := by
  rw [write_committed]
  split
  · next h => simp [h]
  · next h => simp [h]

theorem mem_write_pending :
    w ∈ (s.write (handle d owner) d owner).pending u ↔
      w ∈ s.pending u ∨ (w = s.clock ∧ owner = some u) := by
  rw [write_pending]
  split
  · next h => simp [h]
  · next h => simp [h]

theorem Inv.write (h : Inv active s) (howner : ∀ t, owner = some t → active t = some d) :
    Inv active (s.write (handle d owner) d owner) := by
  obtain ⟨_, _, hnew⟩ := h.fresh s.clock (Nat.le_refl _)
  -- the number of the write is nowhere yet
  have hcommitted : ∀ e, s.clock ∉ s.committed e := by
    intro e hmem
    obtain ⟨owner, how⟩ := h.committed s.clock e hmem
    rw [hnew] at how
    simp at how
  have hpending : ∀ u, s.clock ∉ s.pending u := by
    intro u hmem
    obtain ⟨e, _, how⟩ := h.pending s.clock u hmem
    rw [hnew] at how
    simp at how
  have hlt : ∀ t, active t ≠ none → t < s.clock := by
    intro t ht
    by_contra hle
    exact ht (h.fresh t (by omega)).1
  exact {
    fresh := by
      intro k hk
      rw [write_clock] at hk
      obtain ⟨hactive, hpend, hwrote⟩ := h.fresh k (by omega)
      refine ⟨hactive, ?_, ?_⟩
      · rw [write_pending, if_neg, hpend]
        intro hk'
        rw [howner k hk'] at hactive
        simp at hactive
      · rw [write_wrote, if_neg (by omega)]
        exact hwrote
    owner := by
      intro w e u hw
      rw [write_wrote] at hw
      rw [write_clock]
      split at hw
      · cases hw
        have := hlt u (by simp [howner u rfl])
        omega
      · exact Nat.lt_succ_of_lt (h.owner w e u hw)
    committed := by
      intro w e hw
      rw [write_wrote]
      obtain hw | ⟨rfl, _, rfl⟩ := mem_write_committed.mp hw
      · have hwc : w ≠ s.clock := fun heq => hcommitted e (heq ▸ hw)
        rw [if_neg hwc]
        exact h.committed w e hw
      · exact ⟨owner, if_pos rfl⟩
    pending := by
      intro w u hw
      rw [write_wrote]
      obtain hw | ⟨rfl, hu⟩ := mem_write_pending.mp hw
      · have hwc : w ≠ s.clock := fun heq => hpending u (heq ▸ hw)
        rw [if_neg hwc]
        exact h.pending w u hw
      · exact ⟨d, howner u hu, by rw [if_pos rfl, hu]⟩
    direct := by
      intro w e hw
      rw [write_wrote] at hw
      rw [mem_write_committed]
      split at hw
      · next hwc =>
          cases hw
          exact .inr ⟨hwc, rfl, rfl⟩
      · exact .inl (h.direct w e hw)
    owned := by
      intro w e u hw
      rw [write_wrote] at hw
      rw [mem_write_committed, mem_write_pending, write_ended]
      split at hw
      · next hwc =>
          cases hw
          exact .inl ⟨howner u rfl, .inr ⟨hwc, rfl⟩, by simp [hwc, hcommitted]⟩
      · next hwc =>
          simp only [hwc, false_and, or_false]
          exact h.owned w e u hw
    nodupCommitted := by
      intro e
      rw [write_committed]
      split
      · exact List.Nodup.append (h.nodupCommitted e) (List.nodup_singleton _)
          (by simpa using hcommitted e)
      · exact h.nodupCommitted e
    nodupPending := by
      intro u
      rw [write_pending]
      split
      · exact List.Nodup.append (h.nodupPending u) (List.nodup_singleton _)
          (by simpa using hpending u)
      · exact h.nodupPending u }

end Write

/-! ### The end of a transaction -/

/-- The end of a transaction. -/
def finish (s : Store) (d t : Nat) (o : Outcome) : Store :=
  if o = .nil then (s.endOp t o).commit d t else (s.endOp t o).rollback t

section Finish

variable {o : Outcome} {w e u : Nat}

theorem finish_clock : (finish s d t o).clock = s.clock := by
  unfold finish
  split <;> rfl

theorem finish_wrote : (finish s d t o).wrote = s.wrote := by
  unfold finish
  split <;> rfl

theorem finish_ended :
    (finish s d t o).ended = update s.ended t (some (decide (o = .nil))) := by
  unfold finish
  split <;> rfl

theorem finish_pending : (finish s d t o).pending = update s.pending t [] := by
  unfold finish
  split <;> rfl

theorem finish_committed :
    (finish s d t o).committed e =
      if o = .nil ∧ e = d then s.committed e ++ s.pending t else s.committed e := by
  unfold finish
  split
  · next ho =>
      show update s.committed d (s.committed d ++ s.pending t) e = _
      rw [update_apply]
      by_cases he : e = d <;> simp [ho, he]
  · next ho =>
      show s.committed e = _
      simp [ho]

theorem mem_finish_committed :
    w ∈ (finish s d t o).committed e ↔
      w ∈ s.committed e ∨ (o = .nil ∧ e = d ∧ w ∈ s.pending t) := by
  rw [finish_committed]
  split
  · next hoe => simp [hoe]
  · next hoe =>
      constructor
      · exact .inl
      · intro hw
        obtain hw | ⟨ho, he, _⟩ := hw
        · exact hw
        · exact absurd ⟨ho, he⟩ hoe

theorem Inv.uncommitted (h : Inv active s) (ht : active t = some d) (hw : w ∈ s.pending t) :
    s.wrote w = some (d, some t) ∧ w ∉ s.committed d := by
  obtain ⟨e, he, hwrote⟩ := h.pending w t hw
  rw [ht] at he
  cases he
  refine ⟨hwrote, ?_⟩
  obtain ⟨_, _, hnot⟩ | ⟨hnone, _⟩ := h.owned w d t hwrote
  · exact hnot
  · rw [ht] at hnone
    simp at hnone

theorem Inv.finish (h : Inv (update active t (some d)) s) (ht : active t = none) :
    Inv active (finish s d t o) := by
  have hpending : ∀ {w}, w ∈ s.pending t → s.wrote w = some (d, some t) ∧ w ∉ s.committed d :=
    h.uncommitted (update_self ..)
  exact {
    fresh := by
      intro k hk
      rw [finish_clock] at hk
      obtain ⟨hnone, hpend, hwrote⟩ := h.fresh k hk
      have hne : k ≠ t := by
        intro heq
        rw [heq, update_self] at hnone
        simp at hnone
      rw [update_of_ne hne] at hnone
      rw [finish_pending, update_of_ne hne, finish_wrote]
      exact ⟨hnone, hpend, hwrote⟩
    owner := by
      intro w e u hw
      rw [finish_wrote] at hw
      rw [finish_clock]
      exact h.owner w e u hw
    committed := by
      intro w e hw
      rw [finish_wrote]
      obtain hw | ⟨_, rfl, hpend⟩ := mem_finish_committed.mp hw
      · exact h.committed w e hw
      · exact ⟨some t, (hpending hpend).1⟩
    pending := by
      intro w u hw
      rw [finish_pending] at hw
      rw [finish_wrote]
      by_cases hu : u = t
      · rw [hu, update_self] at hw
        simp at hw
      · rw [update_of_ne hu] at hw
        obtain ⟨e, he, hwrote⟩ := h.pending w u hw
        rw [update_of_ne hu] at he
        exact ⟨e, he, hwrote⟩
    direct := by
      intro w e hw
      rw [finish_wrote] at hw
      exact mem_finish_committed.mpr (.inl (h.direct w e hw))
    owned := by
      intro w e u hw
      rw [finish_wrote] at hw
      rw [mem_finish_committed, finish_pending, finish_ended]
      by_cases hu : u = t
      · subst hu
        obtain ⟨he, hpend, hnot⟩ | ⟨hnone, _⟩ := h.owned w e u hw
        -- the ending transaction's own write is committed exactly when it ends in a commit
        · rw [update_self] at he
          cases he
          right
          rw [update_self]
          exact ⟨ht, _, rfl, by simp [hnot, hpend]⟩
        · rw [update_self] at hnone
          simp at hnone
      · have hnot : w ∉ s.pending t := by
          intro hpend
          rw [(hpending hpend).1] at hw
          cases hw
          exact hu rfl
        have howned := h.owned w e u hw
        rw [update_of_ne hu] at howned
        rw [update_of_ne hu, update_of_ne hu]
        simpa [hnot] using howned
    nodupCommitted := by
      intro e
      rw [finish_committed]
      split
      · next hoe =>
          refine List.Nodup.append (h.nodupCommitted e) (h.nodupPending t) ?_
          intro w hw hpend
          rw [hoe.2] at hw
          exact (hpending hpend).2 hw
      · exact h.nodupCommitted e
    nodupPending := by
      intro u
      rw [finish_pending]
      by_cases hu : u = t
      · rw [hu, update_self]
        exact List.nodup_nil
      · rw [update_of_ne hu]
        exact h.nodupPending u }

end Finish

/-- The contexts lead where they should; `has` says which have a transaction on which database. -/
structure EnvOk (kinds : Nat → PoolKind) (active : Nat → Option Nat) {n : Nat}
    (env : Fin n → Scope) (has : Fin n → Nat → Bool) : Prop where
  leads : ∀ c, Leads kinds active (env c)
  has : ∀ c d, has c d = ((env c).outer d).isSome

section Env

variable {n : Nat} {env : Fin n → Scope} {has : Fin n → Nat → Bool} {c : Fin n}

variable {sc : Scope}

theorem EnvOk.push {active' : Nat → Option Nat} (h : EnvOk kinds active env has)
    (hold : ∀ c, Leads kinds active' (env c)) (hnew : Leads kinds active' sc)
    (houter : ∀ e, (sc.outer e).isSome = update (has c) d true e) :
    EnvOk kinds active' (push sc env) (push (update (has c) d true) has) where
  leads := Fin.cases hnew hold
  has := by
    refine Fin.cases (fun e => (houter e).symm) fun c' e => ?_
    exact h.has c' e

theorem enter_isSome (h : EnvOk kinds active env has) (ctx : Context) (e : Nat) :
    (((env c).enter d t ctx).outer e).isSome = update (has c) d true e := by
  unfold Scope.enter
  rw [update_apply]
  by_cases he : e = d
  · subst he
    by_cases hsome : ((env c).outer e).isSome
    · simp [hsome]
    · simp [hsome]
  · by_cases hsome : ((env c).outer d).isSome
    · simp [hsome, he, h.has]
    · simp [hsome, he, h.has]

theorem tableDB_eq (h : Leads kinds active sc) (d : Nat) :
    (newTable kinds (gormOpen d)).db sc.ctx = handle d (sc.outer d) := by
  have hvalue : sc.ctx.value (newTable kinds (gormOpen d)).txKey =
      (sc.outer d).map (gormOpen d).begin := h.value d
  unfold Table.db
  rw [hvalue]
  cases sc.outer d <;> rfl

theorem transaction_inv (h : Inv active s) (hnone : sc.outer d = none)
    {begins : Bool} {body : Scope → Action} {ctx : GormDB → Context}
    (hbody : ∀ s', Inv (update active s.clock (some d)) s' →
      Inv (update active s.clock (some d))
        (body (sc.enter d s.clock (ctx ((gormOpen d).begin s.clock))) s').2) :
    Inv active (transaction (gormOpen d) begins
      (fun tx => operation sc d s.clock body (ctx tx)) s).2 := by
  cases begins with
  | false => exact h.skip
  | true =>
    simp only [transaction, operation, hnone, Option.isSome_none, if_true,
      Bool.false_eq_true, if_false]
    exact (hbody _ (h.begin d)).finish (h.fresh s.clock (Nat.le_refl _)).1

theorem resume_inv {next : Bool → Action} {r : Outcome × Store} (hr : Inv active r.2)
    (hnext : ∀ b s', Inv active s' → Inv active (next b s').2) :
    Inv active (resume next r).2 := by
  unfold resume
  split
  · exact hnext true _ hr
  · exact hnext false _ hr
  · exact hr

theorem eval_inv (op : Op n) (hout : op.Outermost has)
    (hjoin : op.JoinsOn fun d => (kinds d).reports = (kinds d).txReports)
    (henv : EnvOk kinds active env has)
    (h : Inv active s) : Inv active (eval kinds op env s).2 := by
  induction op generalizing active s with
  | ret err => exact h
  | panic => exact h
  | write d c ok next ih =>
    simp only [eval]
    split
    · rw [tableDB_eq (henv.leads c)]
      exact ih true (hout true) (hjoin true) henv
        (h.write fun t ht => (henv.leads c).active d t ht)
    · exact ih false (hout false) (hjoin false) henv h
  | runTx d c begins body next ihbody ihnext =>
    obtain ⟨houtb, houtn⟩ := hout
    obtain ⟨hjoinb, hjoinn⟩ := hjoin
    refine resume_inv ?_ fun b s' hs' => ihnext b (houtn b) (hjoinn b) henv hs'
    have hvalue : (env c).ctx.value (newBaseRepository kinds (gormOpen d)).txKey =
        ((env c).outer d).map (gormOpen d).begin := (henv.leads c).value d
    unfold BaseRepository.runTx
    rw [hvalue]
    cases houter : (env c).outer d with
    | some t =>
      have hsome : ((env c).outer d).isSome := by rw [houter]; rfl
      simp only [Option.map_some, operation, houter, Option.isSome_some, if_true]
      exact ihbody houtb hjoinb (henv.push (fun c' => henv.leads c')
        ((henv.leads c).join hsome) (enter_isSome henv _)) h
    | none =>
      have hfresh := (h.fresh s.clock (Nat.le_refl _)).1
      refine transaction_inv h houter fun s' hs' => ?_
      exact ihbody houtb hjoinb (henv.push (fun c' => (henv.leads c').activate hfresh)
        ((henv.leads c).enter hfresh houter) (enter_isSome henv _)) hs'
  | joinTx d c begins body next ihbody ihnext =>
    obtain ⟨hnot, houtb, houtn⟩ := hout
    obtain ⟨hkind, hjoinb, hjoinn⟩ := hjoin
    refine resume_inv ?_ fun b s' hs' => ihnext b (houtn b) (hjoinn b) henv hs'
    have houter : (env c).outer d = none := by
      rw [henv.has] at hnot
      simpa using hnot
    have hfresh := (h.fresh s.clock (Nat.le_refl _)).1
    refine transaction_inv h houter fun s' hs' => ?_
    rw [withTx, txKeyFor_begin.mpr hkind]
    exact ihbody houtb hjoinb (henv.push (fun c' => (henv.leads c').activate hfresh)
      ((henv.leads c).enter hfresh houter) (enter_isSome henv _)) hs'
  | recover body next ihbody ihnext =>
    exact ihnext _ (hout.2 _) (hjoin.2 _) henv (ihbody hout.1 hjoin.1 henv h)

end Env

theorem transaction_committed {e : Nat} (he : e ≠ d) (begins : Bool) (fc : GormDB → Action)
    (s : Store) :
    (transaction (gormOpen d) begins fc s).2.committed e =
      if begins then
        (fc ((gormOpen d).begin s.clock) { s with clock := s.clock + 1 }).2.committed e
      else s.committed e := by
  cases begins with
  | false => rfl
  | true =>
    simp only [transaction, if_true]
    split
    · exact update_of_ne he ..
    · rfl

/-- After any program a write under a transaction is committed exactly if the operation of the
outermost transaction on its database returned nil, a write under none is committed, a database
holds nothing but the writes made on it, each once, and the end of a transaction changes no
database but its own. -/
theorem transactions_compose {op : Op 1} {o : Outcome} (hout : op.Outermost fun _ _ => false)
    (hjoin : op.JoinsOn fun d => (kinds d).reports = (kinds d).txReports)
    (hrun : runProgram kinds op = (o, s)) :
    (∀ w d t, s.wrote w = some (d, some t) →
      ∃ ok, s.ended t = some ok ∧ (w ∈ s.committed d ↔ ok = true)) ∧
    (∀ w d, s.wrote w = some (d, none) → w ∈ s.committed d) ∧
    (∀ w d, w ∈ s.committed d → ∃ owner, s.wrote w = some (d, owner)) ∧
    (∀ d, (s.committed d).Nodup) ∧
    ∀ d e begins fc s₀, e ≠ d →
      (transaction (gormOpen d) begins fc s₀).2.committed e =
        if begins then
          (fc ((gormOpen d).begin s₀.clock) { s₀ with clock := s₀.clock + 1 }).2.committed e
        else s₀.committed e := by
  have henv : EnvOk kinds (fun _ => none) (fun _ : Fin 1 => ({} : Scope))
      (fun _ _ => false) := by
    refine ⟨fun c => ⟨fun d => rfl, fun d t ht => ?_⟩, fun c d => rfl⟩
    simp at ht
  have hinv : Inv (fun _ => none) s := by
    have h := eval_inv op hout hjoin henv inv_start
    have hs : (eval kinds op (fun _ => {}) {}).2 = s := congrArg Prod.snd hrun
    rwa [hs] at h
  refine ⟨fun w d t hw => ?_, hinv.direct, hinv.committed, hinv.nodupCommitted,
    fun d e begins fc s₀ he => transaction_committed he begins fc s₀⟩
  obtain ⟨hactive, _⟩ | ⟨_, hended⟩ := hinv.owned w d t hw
  · simp at hactive
  · exact hended

/-- A transaction on one database swallows the error of an inner one, commits a gorm transaction
on another, and fails. -/
def swallowed : Op 1 :=
  .runTx 0 0 true
    (.write 0 0 true fun _ =>
      .runTx 0 0 true (.write 0 0 true fun _ => .ret true) fun _ =>
        .joinTx 1 0 true (.write 1 0 true fun _ => .ret false) fun _ => .ret true)
    fun _ => .ret false

theorem transactions_compose_swallowed :
    ∃ o s, runProgram (fun _ => {}) swallowed = (o, s) ∧
      s.wrote 2 = some (0, some 0) ∧ 2 ∉ s.committed 0 ∧
      s.wrote 4 = some (1, some 3) ∧ 4 ∈ s.committed 1 := by
  have hrun : ∃ o s, runProgram (fun _ => {}) swallowed = (o, s) ∧
      s.wrote 2 = some (0, some 0) ∧ s.ended 0 = some false ∧
      s.wrote 4 = some (1, some 3) ∧ s.ended 3 = some true :=
    ⟨_, _, rfl, by decide, by decide, by decide, by decide⟩
  obtain ⟨o, s, hs, hinner, hfailed, hother, hok⟩ := hrun
  have hout : swallowed.Outermost fun _ _ => false := by
    simp [swallowed, Op.Outermost, push]
  have hjoin : swallowed.JoinsOn fun _ => ({} : PoolKind).reports = ({} : PoolKind).txReports := by
    simp [swallowed, Op.JoinsOn]
  obtain ⟨howned, _⟩ := transactions_compose hout hjoin hs
  refine ⟨o, s, hs, hinner, ?_, hother, ?_⟩
  · obtain ⟨ok, hended, hiff⟩ := howned 2 0 0 hinner
    rw [hfailed] at hended
    cases hended
    simpa using hiff
  · obtain ⟨ok, hended, hiff⟩ := howned 4 1 3 hother
    rw [hok] at hended
    cases hended
    simpa using hiff

/-- A gorm transaction on a pool that reports no `*sql.DB`, joined with `WithTx`, writes through
a table and fails. -/
def escaping : Op 1 :=
  .joinTx 0 0 true (.write 0 0 true fun _ => .ret true) fun _ => .ret false

/-- The transaction rolls back, and the write is committed. -/
theorem silent_pool_escapes :
    (escaping.Outermost fun _ _ => false) ∧
    ∃ o s, runProgram (fun _ => ⟨false, true⟩) escaping = (o, s) ∧
      s.wrote 1 = some (0, some 0) ∧ s.ended 0 = some false ∧ 1 ∈ s.committed 0 :=
  ⟨by simp [escaping, Op.Outermost], _, _, rfl, by decide, by decide, by decide⟩

end Microjet.Gormx.Transaction
