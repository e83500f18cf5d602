import Microjet.Host.Close
import Microjet.Host.Runtime
import Microjet.Lib.Run
import Microjet.Lib.Sorted

/-!
# The order of closing

`closeServices` takes the log of keys from the end and sorts it by insertion, which is stable
(`Sorted.pairwise_stable`). What a `Close` returns is joined to the errors before it and decides
nothing else. In `Runtime` it is a goroutine beside others; when they leave it alone it makes
the same calls (`closeServices_run`).
-/

namespace Microjet.Host

open Errorx

/-! ## Registrations -/

section Register

variable {K I : Type} [DecidableEq K]

theorem Container.register_snoc (regs : List (K × I)) (r : K × I) :
    Container.register (regs ++ [r]) = (Container.register regs).storeKey r.1 r.2 :=
  List.foldl_append

theorem Container.load_register (regs : List (K × I)) (k : K) :
    (Container.register regs).load k = regs.reverse.lookup k := by
  induction regs using List.reverseRecOn with
  | nil => rfl
  | append_singleton regs r ih =>
    rw [register_snoc, load_storeKey, List.reverse_append, List.reverse_singleton,
      List.singleton_append, List.lookup_cons]
    by_cases hk : k = r.1
    · rw [if_pos hk, beq_iff_eq.mpr hk]
    · rw [if_neg hk, beq_eq_false_iff_ne.mpr hk, ih]

theorem Container.keys_register (regs : List (K × I)) :
    (∀ k, k ∈ (Container.register regs).keys ↔ k ∈ regs.map Prod.fst) ∧
      (Container.register regs).keys.Pairwise fun a b =>
        (regs.map Prod.fst).idxOf a < (regs.map Prod.fst).idxOf b := by
  induction regs using List.reverseRecOn with
  | nil => exact ⟨fun k => Iff.rfl, .nil⟩
  | append_singleton regs r ih =>
    obtain ⟨hmem, hord⟩ := ih
    rw [register_snoc, List.map_append, List.map_singleton]
    -- the places of the old keys do not change
    have hold : ∀ k ∈ (Container.register regs).keys,
        (regs.map Prod.fst ++ [r.1]).idxOf k = (regs.map Prod.fst).idxOf k :=
      fun k hk => List.idxOf_append_of_mem ((hmem k).mp hk)
    have hord' : (Container.register regs).keys.Pairwise fun a b =>
        (regs.map Prod.fst ++ [r.1]).idxOf a < (regs.map Prod.fst ++ [r.1]).idxOf b := by
      refine hord.imp_of_mem fun ha hb h => ?_
      rw [hold _ ha, hold _ hb]
      exact h
    by_cases hr : r.1 ∈ (Container.register regs).keys
    · rw [keys_storeKey_of_mem hr]
      refine ⟨fun k => ?_, hord'⟩
      rw [hmem, List.mem_append, List.mem_singleton]
      refine ⟨.inl, fun h => h.elim id fun h => ?_⟩
      rw [h]
      exact (hmem r.1).mp hr
    · have hkeys : ((Container.register regs).storeKey r.1 r.2).keys =
          (Container.register regs).keys ++ [r.1] :=
        if_neg fun h => hr (((Container.register regs).mem_keys r.1).mpr h)
      rw [hkeys]
      constructor
      · intro k
        rw [List.mem_append, List.mem_append, hmem]
      · refine List.pairwise_append.mpr ⟨hord', List.pairwise_singleton _ _, fun a ha b hb => ?_⟩
        rw [List.mem_singleton.mp hb, hold a ha,
          List.idxOf_append_of_notMem fun h => hr ((hmem r.1).mpr h)]
        exact Nat.lt_add_right _ (List.idxOf_lt_length_of_mem ((hmem a).mp ha))

end Register

/-! ## The loop -/

section Loop

variable {K I α : Type} {svc : I → Service} {sprint : α → String}
  {outcome : Nat → Option (ErrorTree α)}

/-- The error is there, by itself or in another. -/
def Carries (errs : Option (ErrorTree α)) (e : ErrorTree α) : Prop :=
  ∃ t, errs = some t ∧ e.Within t

theorem collectErr_none (errs : Option (ErrorTree α)) : collectErr sprint errs none = errs := rfl

variable (sprint) in
theorem collectErr_some (errs : Option (ErrorTree α)) (err : ErrorTree α) :
    Carries (collectErr sprint errs (some err)) err ∧
      ∀ e, Carries errs e → Carries (collectErr sprint errs (some err)) e := by
  cases errs with
  | none =>
    refine ⟨⟨_, rfl, .among List.mem_cons_self .self⟩, ?_⟩
    rintro e ⟨t, ht, -⟩
    cases ht
  | some errs =>
    refine ⟨⟨_, rfl, .among (List.mem_cons_of_mem _ List.mem_cons_self) .self⟩, ?_⟩
    rintro e ⟨t, ht, he⟩
    cases ht
    exact ⟨_, rfl, .among List.mem_cons_self he⟩

theorem foldl_collectErr (outs : List (Option (ErrorTree α))) (errs : Option (ErrorTree α)) :
    (outs.foldl (collectErr sprint) errs = none ↔ errs = none ∧ ∀ o ∈ outs, o = none) ∧
      ∀ e, Carries errs e ∨ some e ∈ outs → Carries (outs.foldl (collectErr sprint) errs) e := by
  induction outs generalizing errs with
  | nil => simp
  | cons o outs ih =>
    obtain ⟨hnil, hall⟩ := ih (collectErr sprint errs o)
    rw [List.foldl_cons, List.forall_mem_cons]
    cases o with
    | none =>
      rw [collectErr_none] at hnil hall ⊢
      refine ⟨by rw [hnil]; simp, fun e he => hall e (he.imp_right fun hmem => ?_)⟩
      exact (List.mem_cons.mp hmem).resolve_left (Option.some_ne_none e)
    | some err =>
      obtain ⟨herr, hold⟩ := collectErr_some sprint errs err
      constructor
      · refine iff_of_false (fun h => ?_) fun h => Option.some_ne_none err h.2.1
        obtain ⟨t, ht, -⟩ := herr
        exact Option.some_ne_none t (ht.symm.trans (hnil.mp h).1)
      · rintro e (he | hmem)
        · exact hall e (.inl (hold e he))
        · rcases List.mem_cons.mp hmem with heq | hmem
          · rw [Option.some.inj heq]
            exact hall err (.inl herr)
          · exact hall e (.inr hmem)

variable (svc sprint outcome) in
theorem closeLoop_eq (n : Nat) (errs : Option (ErrorTree α)) (entries : List (K × I)) :
    closeLoop svc sprint outcome n errs entries =
      (((entries.filter fun e => (svc e.2).closer).zipIdx n).flatMap fun c =>
          [.called c.1.1 c.1.2, .returned (outcome c.2)],
        ((List.range' n (entries.filter fun e => (svc e.2).closer).length).map outcome).foldl
          (collectErr sprint) errs) := by
  induction entries generalizing n errs with
  | nil => rfl
  | cons e entries ih =>
    obtain ⟨k, i⟩ := e
    rw [closeLoop]
    cases hc : (svc i).closer with
    | true =>
      have hfilter : ((k, i) :: entries).filter (fun e => (svc e.2).closer) =
          (k, i) :: entries.filter fun e => (svc e.2).closer := List.filter_cons_of_pos hc
      rw [hfilter, if_pos rfl, ih]
      rfl
    | false =>
      have hfilter : ((k, i) :: entries).filter (fun e => (svc e.2).closer) =
          entries.filter fun e => (svc e.2).closer :=
        List.filter_cons_of_neg (by rw [hc]; exact Bool.false_ne_true)
      rw [hfilter, if_neg Bool.false_ne_true, ih]

end Loop

section Order

variable {K I α : Type} [DecidableEq K]

/-- `a` is closed before `b`: it has a smaller close order, or the same and was registered
later. -/
def ClosedBefore (svc : I → Service) (regs : List (K × I)) : K × I → K × I → Prop :=
  Sorted.Lex (fun e => (svc e.2).order) fun a b =>
    (regs.map Prod.fst).idxOf b.1 < (regs.map Prod.fst).idxOf a.1

omit [DecidableEq K] in
theorem mem_orderedRange (c : Container K I) (k : K) (i : I) :
    (k, i) ∈ c.orderedRange ↔ c.load k = some i := by
  rw [Container.orderedRange, List.mem_filterMap]
  constructor
  · rintro ⟨k', -, h⟩
    obtain ⟨i', hi', heq⟩ := Option.map_eq_some_iff.mp h
    cases heq
    exact hi'
  · intro h
    refine ⟨k, (c.mem_keys k).mpr (by rw [h]; rfl), ?_⟩
    rw [h]
    rfl

omit [DecidableEq K] in
theorem pairwise_orderedRange {c : Container K I} {P : K → K → Prop} (h : c.keys.Pairwise P) :
    c.orderedRange.Pairwise fun a b => P a.1 b.1 := by
  refine List.Pairwise.filterMap _ (fun a b hab x hx y hy => ?_) h
  obtain ⟨i, -, rfl⟩ := Option.map_eq_some_iff.mp hx
  obtain ⟨j, -, rfl⟩ := Option.map_eq_some_iff.mp hy
  exact hab

/-- `closeServices` closes what each key holds once, whatever is returned: by close order, and
the last registered first. It returns nil exactly if every `Close` has, and otherwise an error
that contains each of theirs. -/
theorem closeServices_order (svc : I → Service) (sprint : α → String)
    (outcome : Nat → Option (ErrorTree α)) (regs : List (K × I)) :
    ∃ calls : List (K × I),
      (closeServices svc sprint outcome (.register regs)).1 =
        calls.zipIdx.flatMap (fun c => [.called c.1.1 c.1.2, .returned (outcome c.2)]) ∧
      (calls.map Prod.fst).Nodup ∧
      (∀ k i, (k, i) ∈ calls ↔ regs.reverse.lookup k = some i ∧ (svc i).closer = true) ∧
      calls.Pairwise (ClosedBefore svc regs) ∧
      ((closeServices svc sprint outcome (.register regs)).2 = none ↔
        ∀ n < calls.length, outcome n = none) ∧
      ∀ n < calls.length, ∀ e, outcome n = some e →
        Carries (closeServices svc sprint outcome (.register regs)).2 e := by
  obtain ⟨-, hkeys⟩ := Container.keys_register regs
  have hperm : (closeSequence svc (Container.register regs).orderedRange).Perm
      (Container.register regs).orderedRange :=
    (List.perm_insertionSort _ _).trans (List.reverse_perm _)
  have heq := closeLoop_eq svc sprint outcome 0 none
    (closeSequence svc (Container.register regs).orderedRange)
  refine ⟨(closeSequence svc (Container.register regs).orderedRange).filter
    fun e => (svc e.2).closer, congrArg Prod.fst heq, ?_, fun k i => ?_, ?_, ?_, ?_⟩
  · have hnodup : ((Container.register regs).orderedRange.map Prod.fst).Nodup :=
      List.pairwise_map.mpr (pairwise_orderedRange (Container.register regs).nodup)
    exact ((hperm.map Prod.fst).nodup_iff.mpr hnodup).sublist (List.filter_sublist.map _)
  · rw [List.mem_filter, hperm.mem_iff, mem_orderedRange, Container.load_register]
  · refine List.Pairwise.filter _ (Sorted.pairwise_stable ?_)
    exact List.pairwise_reverse.mpr (pairwise_orderedRange hkeys)
  · rw [closeServices, heq, (foldl_collectErr _ _).1]
    simp
  · intro n hn e he
    rw [closeServices, heq]
    refine (foldl_collectErr _ _).2 e (.inr ?_)
    exact List.mem_map.mpr ⟨n, by simpa using hn, he⟩

end Order

/-! ## The goroutine -/

section Goroutine

open Trace

variable {K I H W α : Type} [DecidableEq K] [DecidableEq I] [DecidableEq W]
  {svc : I → Service} {sprint : α → String} {outcome : Nat → Option (ErrorTree α)}
  {toErr : ErrorTree α → Err}

/-- What the goroutine of `Close` has in the log after these acts. -/
def closeNotes (toErr : ErrorTree α → Err) : List (CloseAct K I α) → List (Note K I H W)
  | .called k i :: .returned err :: acts =>
    .called .close k i :: .returned .close k i (err.map toErr) :: closeNotes toErr acts
  | _ => []

/-- A step of the goroutine, or the return of the `Close` it is in. -/
def ofClose : Event K I H W → Prop
  | .go .close => True
  | .act .close (.ret _) => True
  | _ => False

/-- A run of the goroutine alone, to its end. -/
def Closes (svc : I → Service) (s : Runtime K I H W) (notes : List (Note K I H W)) : Prop :=
  ∃ es s', (∀ e ∈ es, ofClose e) ∧ run (Runtime.step svc) s es = some s' ∧
    s'.close = .finished ∧ s'.app = s.app ∧ s'.log = notes.reverse ++ s.log

theorem Closes.cons {s s' : Runtime K I H W} {notes : List (Note K I H W)} (e : Event K I H W)
    (before : List (Note K I H W)) (he : ofClose e) (hstep : s.step svc e = some s')
    (happ : s'.app = s.app) (hlog : s'.log = before.reverse ++ s.log)
    (h : Closes svc s' notes) : Closes svc s (before ++ notes) := by
  obtain ⟨es, s'', hes, hrun, hclose, happ', hlog'⟩ := h
  refine ⟨e :: es, s'', by simpa using ⟨he, hes⟩, run_cons.mpr ⟨s', hstep, hrun⟩, hclose,
    happ'.trans happ, ?_⟩
  rw [hlog', hlog, List.reverse_append, List.append_assoc]

theorem go_close {s : Runtime K I H W} (hs : s.stack .close = []) :
    s.step svc (.go .close) = s.stepClose svc := by
  simp [Runtime.step, Runtime.go, hs]

theorem closing_closes (entries : List (K × I)) (n : Nat) (errs : Option (ErrorTree α))
    {s : Runtime K I H W} (hs : s.stack .close = []) (hclose : s.close = .closing entries none) :
    Closes svc s (closeNotes toErr (closeLoop svc sprint outcome n errs entries).1) := by
  induction entries generalizing n errs s with
  | nil =>
    have hstep : s.step svc (.go .close) = some { s with close := .finished } := by
      rw [go_close hs, Runtime.stepClose, hclose]
    exact ⟨[.go .close], _, by simp [ofClose], run_cons.mpr ⟨_, hstep, rfl⟩, rfl, rfl, rfl⟩
  | cons e entries ih =>
    obtain ⟨k, i⟩ := e
    have hgo : s.step svc (.go .close) = s.stepClose svc := go_close hs
    simp only [Runtime.stepClose, hclose, Service.has] at hgo
    cases hcloser : (svc i).closer with
    | false =>
      simp only [hcloser, Bool.false_eq_true, if_false] at hgo
      simp only [closeLoop, hcloser, Bool.false_eq_true, if_false]
      exact Closes.cons (.go .close) [] trivial hgo rfl rfl (ih n errs hs rfl)
    | true =>
      simp only [hcloser, if_true] at hgo
      simp only [closeLoop, hcloser, if_true, closeNotes]
      -- the call, its return and the rest
      have hret : { s.note (.called .close k i) with
            close := .closing entries (some (k, i)) }.step svc
          (.act .close (.ret ((outcome n).map toErr))) =
        some { (s.note (.called .close k i)).note
          (.returned .close k i ((outcome n).map toErr)) with
            close := .closing entries none } := by
        simp [Runtime.step, Runtime.outside, Runtime.act, Runtime.ret, Runtime.resumeClose,
          Runtime.note, Closing.busy, hs]
      refine Closes.cons (.go .close) [.called .close k i] trivial hgo rfl rfl ?_
      exact Closes.cons (.act .close (.ret ((outcome n).map toErr)))
        [.returned .close k i ((outcome n).map toErr)] trivial hret rfl rfl
        (ih (n + 1) (collectErr sprint errs (outcome n)) hs rfl)

theorem collecting_closes {c : Container K I} (todo : List K) (entries : List (K × I))
    {s : Runtime K I H W} (hs : s.stack .close = []) (hc : s.app.container = c)
    (hclose : s.close = .collecting todo entries) :
    Closes svc s (closeNotes toErr (closeLoop svc sprint outcome 0 none (closeSequence svc
      (entries ++ todo.filterMap fun k => (c.load k).map (k, ·)))).1) := by
  induction todo generalizing entries s with
  | nil =>
    have hgo : s.step svc (.go .close) = s.stepClose svc := go_close hs
    simp only [Runtime.stepClose, hclose] at hgo
    rw [List.filterMap_nil, List.append_nil]
    exact Closes.cons (.go .close) [] trivial hgo rfl rfl (closing_closes _ 0 none hs rfl)
  | cons k todo ih =>
    have hgo : s.step svc (.go .close) = some { s with
        close := .collecting todo (entries ++ ((c.load k).map (k, ·)).toList) } := by
      rw [go_close hs, Runtime.stepClose, hclose]
      cases hk : c.load k <;> simp [hc, hk]
    have hentries : entries ++ (k :: todo).filterMap (fun k => (c.load k).map (k, ·)) =
        entries ++ ((c.load k).map (k, ·)).toList ++
          todo.filterMap fun k => (c.load k).map (k, ·) := by
      cases hk : c.load k <;> simp [hk]
    rw [hentries]
    exact Closes.cons (.go .close) [] trivial hgo rfl rfl (ih _ hs hc rfl)

/-- The goroutine of `Close`, alone, makes the calls of `closeServices` and finishes. -/
theorem closeServices_run {s : Runtime K I H W} (hs : s.stack .close = [])
    (hclose : s.close = .spawned) :
    Closes svc s (closeNotes toErr (closeServices svc sprint outcome s.app.container).1) := by
  have hgo : s.step svc (.go .close) = s.stepClose svc := go_close hs
  simp only [Runtime.stepClose, hclose] at hgo
  exact Closes.cons (.go .close) [] trivial hgo rfl rfl
    (collecting_closes s.app.container.keys [] hs rfl rfl)

end Goroutine

end Microjet.Host
