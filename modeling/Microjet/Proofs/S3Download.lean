import Microjet.Proofs.S3Files

/-!
# The files after a download

After the rename the goroutine returns without an error (`Succeeded`), so one that fails has not
changed a target. When all have returned, no temporary file is left.
-/

namespace Microjet.Aws

open Trace Errorx

def Event.request {π : Type} : Event π → Option Nat
  | .check i | .createTemp i _ | .getObject i _ | .copy i _ | .copied i _ | .close i _ |
    .rename i _ | .remove i => some i
  | .launch | .cancel _ | .wait => none

namespace Downloads

variable {π : Type} {s s' : Downloads π} {fs₀ : π → Option GoString}

/-- The goroutine is past the rename. -/
def Succeeded (s : Downloads π) (i : Nat) : Prop :=
  (∃ tmp, s.workers i = some (.removing tmp none)) ∨ s.workers i = some (.returned none)

variable {i : Nat}

theorem Succeeded.place {a : At π} (h : s.Succeeded i) (ha : s.workers i = some a) :
    (∃ tmp, a = .removing tmp none) ∨ a = .returned none := by
  rcases h with ⟨tmp, h⟩ | h
  · exact .inl ⟨tmp, Option.some.inj (ha.symm.trans h)⟩
  · exact .inr (Option.some.inj (ha.symm.trans h))

theorem Succeeded.other {i j : Nat} {b : At π} (h : s.Succeeded i) (hj : i ≠ j)
    (hworkers : s'.workers = Function.update s.workers j (some b)) : s'.Succeeded i := by
  rw [Succeeded, hworkers, Function.update_of_ne hj]
  exact h

theorem Succeeded.ne {i j : Nat} {a : At π} (h : s.Succeeded i) (ha : s.workers j = some a)
    (hremoving : ∀ tmp err, a ≠ .removing tmp err) (hreturned : ∀ err, a ≠ .returned err) :
    i ≠ j := by
  rintro rfl
  rcases h.place ha with ⟨tmp, rfl⟩ | rfl
  · exact hremoving tmp none rfl
  · exact hreturned none rfl

/-- What holds of every state of a call. -/
structure Invariant (fs₀ : π → Option GoString) (reqs : List (S3DownloadFileRequest π))
    (s : Downloads π) : Prop where
  sound : s.Sound fs₀
  started : s.Started
  reqs_eq : s.reqs = reqs

theorem invariant_s3DownloadFiles (client : Bool) (fs₀ : π → Option GoString)
    (reqs : List (S3DownloadFileRequest π)) (maxWorkers : Int) :
    (s3DownloadFiles client fs₀ reqs maxWorkers).Invariant fs₀ reqs where
  sound := ⟨nofun, nofun, nofun, nofun, nofun, nofun, fun _ _ => .inl rfl, fun _ _ _ => rfl⟩
  started := ⟨fun _ _ => rfl, nofun⟩
  reqs_eq := rfl

variable {reqs : List (S3DownloadFileRequest π)}

theorem Invariant.no_temporary_files (hs : s.Invariant fs₀ reqs) (hover : s.result ≠ none) :
    ∀ tmp ∈ s.names, s.fs tmp = none := by
  intro tmp hmem
  by_contra hne
  obtain ⟨i, hi⟩ := hs.sound.kept tmp hmem hne
  obtain ⟨a, ha, htmp⟩ := Option.bind_eq_some_iff.mp hi
  obtain ⟨err, rfl⟩ := hs.started.ended hover i a ha
  cases htmp

variable [DecidableEq π] {e : Event π}

theorem Succeeded.moves (h : s.Succeeded i) (hstarted : s.Started) (hmoves : Moves s e s') :
    s'.Succeeded i := by
  cases hmoves with
  | launch hresult =>
    refine h.other ?_ rfl
    rintro rfl
    have hnone := hstarted.unlaunched s.launched (Nat.le_refl _)
    rcases h with ⟨tmp, h⟩ | h <;> cases hnone.symm.trans h
  | cancel c => exact h
  | goes c f ha hgoes => exact h.other (h.ne ha hgoes.not_removing hgoes.not_returned) rfl
  | create ha htmp => exact h.other (h.ne ha nofun nofun) rfl
  | serve ha => exact h.other (h.ne ha nofun nofun) rfl
  | copy ha => exact h.other (h.ne ha nofun nofun) rfl
  | rename ha hreq => exact h.other (h.ne ha nofun nofun) rfl
  | @remove j tmp err c f ha =>
    by_cases hj : i = j
    · subst hj
      rcases h.place ha with ⟨_, heq⟩ | heq
      · cases heq
        exact .inr (Function.update_self ..)
      · cases heq
    · exact h.other hj rfl
  | wait hdone r => exact h

theorem Sound.targets_unchanged (hs : s.Sound fs₀) (hmoves : Moves s e s')
    {p : π} (hp : p ∈ s.targets) :
    s'.fs p = s.fs p ∨ ∃ i, e = .rename i none ∧ s'.Succeeded i := by
  have hne {i : Nat} {a : At π} {tmp : π} (ha : s.workers i = some a) (htmp : a.tmp = some tmp) :
      p ≠ tmp :=
    ne_of_mem_of_not_mem hp (hs.foreign tmp (hs.named i tmp ((tmpOf_eq ha).trans htmp)))
  cases hmoves with
  | launch hresult => exact .inl rfl
  | cancel c => exact .inl rfl
  | goes c f ha h => exact .inl rfl
  | create ha htmp =>
    exact .inl (Function.update_of_ne (ne_of_mem_of_not_mem hp (fresh_iff.mp htmp).2.2) ..)
  | serve ha => exact .inl rfl
  | copy ha => exact .inl (Function.update_of_ne (hne ha rfl) ..)
  | @rename i tmp req ha hreq => exact .inr ⟨i, rfl, .inl ⟨tmp, Function.update_self ..⟩⟩
  | remove c f ha => exact .inl (Function.update_of_ne (hne ha rfl) ..)
  | wait hdone r => exact .inl rfl

/-- Goroutine `i` does not fail. -/
def Spares (i : Nat) (s : Downloads π) (e : Event π) : Prop :=
  e.request = some i → ∀ s' ∈ s.step e, ∀ p ∈ s.targets, s'.fs p = s.fs p

theorem Invariant.step (hs : s.Invariant fs₀ reqs) (hstep : s.step e = some s') :
    s'.Invariant fs₀ reqs := by
  have hmoves := step_moves hstep
  refine ⟨hs.sound.moves hs.started hmoves, hs.started.moves hmoves, ?_⟩
  rw [← hs.reqs_eq]
  cases hmoves <;> rfl

theorem spares_of_failed {err : Err} {es : List (Event π)} (hs : s.Invariant fs₀ reqs)
    (hrun : run step s es = some s') (hfailed : s'.workers i = some (.returned (some err))) :
    Along step (Spares i) s es := by
  induction es generalizing s with
  | nil => trivial
  | cons e es ih =>
    obtain ⟨m, hm, hrest⟩ := run_cons.mp hrun
    refine ⟨fun hi m' hm' p hp => ?_, fun m' hm' => ?_⟩
    · obtain rfl : m = m' := Option.some.inj (hm.symm.trans hm')
      rcases hs.sound.targets_unchanged (step_moves hm) hp with h | ⟨j, rfl, hsucceeded⟩
      · exact h
      · -- it would have returned without an error
        cases hi
        have hend : s'.Succeeded i ∧ s'.Invariant fs₀ reqs :=
          run_inv (I := fun s => s.Succeeded i ∧ s.Invariant fs₀ reqs) (C := fun _ _ => True)
            (fun s e s' h _ hstep =>
              ⟨h.1.moves h.2.started (step_moves hstep), h.2.step hstep⟩)
            ⟨hsucceeded, hs.step hm⟩ (along_of_forall (fun _ _ => trivial) m es) hrest
        rcases hend.1.place hfailed with ⟨_, h⟩ | h <;> cases h
    · obtain rfl : m = m' := Option.some.inj (hm.symm.trans hm')
      exact ih (hs.step hm) hrest

/-- Each target has its previous content or the whole body of an object that was requested for
it; a request that fails has not changed a target; and when the call has returned there is no
temporary file left, and all that is no target is as it was. -/
theorem s3DownloadFiles_complete (client : Bool) (fs₀ : π → Option GoString)
    (reqs : List (S3DownloadFileRequest π)) (maxWorkers : Int) (es : List (Event π))
    (s : Downloads π) (hrun : run step (s3DownloadFiles client fs₀ reqs maxWorkers) es = some s) :
    Always step (fun m => ∀ req ∈ reqs, Replaced fs₀ m req.localFilePath)
        (s3DownloadFiles client fs₀ reqs maxWorkers) es ∧
      (∀ i err, s.workers i = some (.returned (some err)) →
        Along step (Spares i) (s3DownloadFiles client fs₀ reqs maxWorkers) es) ∧
      (s.result ≠ none → (∀ tmp ∈ s.names, s.fs tmp = none) ∧
        ∀ p, (∀ req ∈ reqs, req.localFilePath ≠ p) → s.fs p = fs₀ p) := by
  have hinit := invariant_s3DownloadFiles client fs₀ reqs maxWorkers
  have hend : s.Invariant fs₀ reqs :=
    run_inv (C := fun _ _ => True) (fun s e s' hs _ hstep => hs.step hstep) hinit
      (along_of_forall (fun _ _ => trivial) _ es) hrun
  refine ⟨?_, fun i err hfailed => spares_of_failed hinit hrun hfailed, fun hover => ?_⟩
  · refine always_of_inv (I := Invariant fs₀ reqs) (fun s e s' hs hstep => hs.step hstep)
      (fun m hm req hreq => ?_) hinit es
    refine hm.sound.replaced _ ?_
    rw [targets, hm.reqs_eq]
    exact List.mem_map.mpr ⟨req, hreq, rfl⟩
  · have hgone := hend.no_temporary_files hover
    refine ⟨hgone, fun p hp => ?_⟩
    by_cases hname : p ∈ s.names
    · rw [hgone p hname, hend.sound.unused p hname]
    · refine hend.sound.others p (fun hmem => ?_) hname
      rw [targets, hend.reqs_eq] at hmem
      obtain ⟨req, hreq, heq⟩ := List.mem_map.mp hmem
      exact hp req hreq heq

theorem one_of_two_downloads :
    let req : S3DownloadFileRequest Nat := ⟨bytes "bucket", bytes "key", 0⟩
    let fs₀ : Nat → Option GoString := fun p => if p = 0 then some (bytes "old") else none
    let reset : Err := .other "connection reset"
    let es : List (Event Nat) :=
      [.launch, .launch, .check 0, .check 1, .createTemp 0 (.ok 1), .createTemp 1 (.ok 2),
        .getObject 0 (.ok (bytes "new")), .getObject 1 (.ok (bytes "new")), .copy 0 1, .copy 1 2,
        .copied 1 (some reset), .remove 1, .copy 0 2, .copied 0 none, .close 0 none,
        .rename 0 none, .remove 0, .wait]
    ∃ s, run step (s3DownloadFiles true fs₀ [req, req] 2) es = some s ∧
      s.result = some (some (failed "failed to stream object to file" reset)) ∧
      s.fs 0 = some (bytes "new") ∧ (∀ tmp ∈ s.names, s.fs tmp = none) ∧
      Along step (Spares 1) (s3DownloadFiles true fs₀ [req, req] 2) es := by
  intro req fs₀ reset es
  have hrun : ∃ s, run step (s3DownloadFiles true fs₀ [req, req] 2) es = some s ∧
      s.result = some (some (failed "failed to stream object to file" reset)) ∧
      s.fs 0 = some (bytes "new") ∧
      s.workers 1 = some (.returned (some (failed "failed to stream object to file" reset))) :=
    ⟨_, rfl, rfl, rfl, rfl⟩
  obtain ⟨s, hrun, hresult, hfs, hfailed⟩ := hrun
  obtain ⟨-, hspares, hgone⟩ := s3DownloadFiles_complete true fs₀ [req, req] 2 es s hrun
  refine ⟨s, hrun, hresult, hfs, (hgone ?_).1, hspares 1 _ hfailed⟩
  rw [hresult]
  exact Option.some_ne_none _

end Downloads

end Microjet.Aws
