import Microjet.Grpcx.Health
import Microjet.Lib.Run

/-!
# The server does not become healthy again

What a health update publishes is decided by its second look at `notReady`, with the lock. Up to
the moment when `SetReady(false)` gives the lock back the argument is about the one who has it
(`Sound`), from there on about the flag: whoever is still to publish has seen it (`Down`).
-/

namespace Microjet.Grpcx

open Trace

/-- The goroutine has the lock. -/
def At.holds : At → Bool
  | .storing _ | .rechecking _ | .publishing _ _ | .leaving _ => true
  | _ => false

namespace Server

variable {s s' : Server} {e : HealthEvent} {g h : Nat} {a : At}

/-- The moves without the lock. -/
inductive Outside : Option At → Option At → Prop where
  | called (c : HealthCall) : Outside none (some (.called c))
  | left : Outside (some (.called .updateHealth)) none
  | loading : Outside (some (.called .updateHealth)) (some .loading)
  | seen : Outside (some .loading) (some (.found .notServing))
  | probing : Outside (some .loading) (some .probing)
  | probed (status : ServingStatus) : Outside (some .probing) (some (.found status))

/-- The moves that take it. -/
inductive Locks : At → At → Prop where
  | setReady (ready : Bool) : Locks (.called (.setReady ready)) (.storing ready)
  | updateHealth (status : ServingStatus) : Locks (.found status) (.rechecking status)

/-- The steps, as a relation. -/
inductive Moves (s : Server) : HealthEvent → Server → Prop where
  | outside {e : HealthEvent} (g : Nat) {next : Option At} (h : Outside (s.goroutines g) next) :
      Moves s e { s with goroutines := Function.update s.goroutines g next }
  | lock (g : Nat) {a b : At} (hfree : s.healthMu = none) (ha : s.goroutines g = some a)
      (h : Locks a b) : Moves s (.lock g) { s.goto g b with healthMu := some g }
  | on (g : Nat) (ha : s.goroutines g = some (.storing true)) :
      Moves s (.store g true) { s.goto g (.leaving (.setReady true)) with notReady := false }
  | off (g : Nat) {status : ServingStatus} (ha : s.goroutines g = some (.storing false))
      (hsrv : s.healthSrv = some status) :
      Moves s (.store g false)
        { s.goto g (.publishing (.setReady false) .notServing) with notReady := true }
  | offEarly (g : Nat) (ha : s.goroutines g = some (.storing false)) (hsrv : s.healthSrv = none) :
      Moves s (.store g false) { s.goto g (.leaving (.setReady false)) with notReady := true }
  | reload (g : Nat) {status : ServingStatus} (ha : s.goroutines g = some (.rechecking status)) :
      Moves s (.reload g)
        (s.goto g (.publishing .updateHealth (if s.notReady then .notServing else status)))
  | publish (g : Nat) {c : HealthCall} {status : ServingStatus}
      (ha : s.goroutines g = some (.publishing c status)) :
      Moves s (.publish g)
        { s.goto g (.leaving c) with healthSrv := s.healthSrv.map fun _ => status }
  | ret (g : Nat) {c : HealthCall} (ha : s.goroutines g = some (.leaving c)) :
      Moves s (.ret g c) { s.exit g with healthMu := none }

theorem step_moves (hstep : s.step e = some s') : Moves s e s' := by
  cases e with
  | call g c =>
    simp only [step] at hstep
    split at hstep
    · next ha =>
        cases hstep
        exact .outside g (ha ▸ .called c)
    · cases hstep
  | checkNil g =>
    simp only [step] at hstep
    split at hstep
    · next ha =>
        split at hstep
        · cases hstep
          exact .outside g (ha ▸ .left)
        · cases hstep
          exact .outside g (ha ▸ .loading)
    · cases hstep
  | load g =>
    simp only [step] at hstep
    split at hstep
    · next ha =>
        cases hstep
        split
        · exact .outside g (ha ▸ .seen)
        · exact .outside g (ha ▸ .probing)
    · cases hstep
  | probed g results =>
    simp only [step] at hstep
    split at hstep
    · next ha =>
        cases hstep
        exact .outside g (ha ▸ .probed _)
    · cases hstep
  | lock g =>
    simp only [step] at hstep
    split at hstep
    · cases hstep
    · next hmu =>
        have hfree : s.healthMu = none := Option.not_isSome_iff_eq_none.mp hmu
        split at hstep
        · next ready ha =>
            cases hstep
            exact .lock g hfree ha (.setReady ready)
        · next status ha =>
            cases hstep
            exact .lock g hfree ha (.updateHealth status)
        · cases hstep
  | store g ready =>
    simp only [step] at hstep
    split at hstep
    · next ha =>
        cases hstep
        cases ready with
        | true => exact .on g ha
        | false =>
          cases hsrv : s.healthSrv with
          | none => exact .offEarly g ha hsrv
          | some status => exact .off g ha hsrv
    · cases hstep
  | reload g =>
    simp only [step] at hstep
    split at hstep
    · next status ha =>
        cases hstep
        exact .reload g ha
    · cases hstep
  | publish g =>
    simp only [step] at hstep
    split at hstep
    · next c status ha =>
        cases hstep
        exact .publish g ha
    · cases hstep
  | ret g c =>
    simp only [step] at hstep
    split at hstep
    · next ha =>
        cases hstep
        exact .ret g ha
    · cases hstep

/-! ### Up to the return of `SetReady(false)` -/

/-- What a goroutine there knows. -/
structure Fits (s : Server) (g : Nat) (a : At) : Prop where
  holds : a.holds = true → s.healthMu = some g
  stored : ∀ status, a = .publishing (.setReady false) status →
    s.notReady = true ∧ status = .notServing
  published : a = .leaving (.setReady false) →
    s.notReady = true ∧ s.healthSrv = some .notServing

/-- All of them know it. -/
structure Sound (s : Server) : Prop where
  srv : s.healthSrv ≠ none
  fits : ∀ g a, s.goroutines g = some a → s.Fits g a

theorem fits_outside (ha : a.holds = false) : s.Fits g a where
  holds := fun hholds => absurd (ha.symm.trans hholds) Bool.false_ne_true
  stored := by
    rintro status rfl
    cases ha
  published := by
    rintro rfl
    cases ha

variable {next : Option At}

theorem Outside.holds {b : Option At} (h : Outside b next)
    (ha : next = some a) : a.holds = false := by
  cases h <;> cases ha <;> rfl

theorem Sound.unique {b : At} (hs : s.Sound) (ha : s.goroutines g = some a)
    (hb : s.goroutines h = some b) (hholds : a.holds = true) (hholds' : b.holds = true) : h = g :=
  Option.some.inj (((hs.fits h b hb).holds hholds').symm.trans ((hs.fits g a ha).holds hholds))

theorem Sound.inside (hs : s.Sound) (ha : s.goroutines g = some a) (hholds : a.holds = true)
    (hsrv : s'.healthSrv ≠ none) (hmoved : s'.goroutines = Function.update s.goroutines g next)
    (hnext : ∀ b, next = some b → s'.Fits g b) : s'.Sound := by
  refine ⟨hsrv, fun h b hb => ?_⟩
  rw [hmoved] at hb
  by_cases hg : h = g
  · subst hg
    rw [Function.update_self] at hb
    exact hnext b hb
  · rw [Function.update_of_ne hg] at hb
    refine fits_outside (Bool.eq_false_iff.mpr fun hholds' => ?_)
    exact hg (hs.unique ha hb hholds hholds')

theorem Sound.moves (hs : s.Sound) (hmoves : Moves s e s') : s'.Sound := by
  cases hmoves with
  | outside g hout =>
    refine ⟨hs.srv, fun h b hb => ?_⟩
    by_cases hg : h = g
    · subst hg
      have hb : Function.update s.goroutines h _ h = some b := hb
      rw [Function.update_self] at hb
      exact fits_outside (hout.holds hb)
    · have hfits := hs.fits h b ((Function.update_of_ne hg ..).symm.trans hb)
      exact ⟨hfits.holds, hfits.stored, hfits.published⟩
  | lock g hfree ha hlock =>
    refine ⟨hs.srv, fun h b hb => ?_⟩
    by_cases hg : h = g
    · subst hg
      cases (Function.update_self ..).symm.trans hb
      refine ⟨fun _ => rfl, ?_, ?_⟩
      · rintro status rfl
        cases hlock
      · rintro rfl
        cases hlock
    · have hfits := hs.fits h b ((Function.update_of_ne hg ..).symm.trans hb)
      -- nobody had the lock
      refine fits_outside (Bool.eq_false_iff.mpr fun hholds => ?_)
      cases hfree.symm.trans (hfits.holds hholds)
  | on g ha =>
    have hmu := (hs.fits g _ ha).holds rfl
    refine hs.inside ha rfl hs.srv rfl ?_
    rintro b ⟨⟩
    exact ⟨fun _ => hmu, nofun, nofun⟩
  | off g ha hsrv =>
    have hmu := (hs.fits g _ ha).holds rfl
    refine hs.inside ha rfl hs.srv rfl ?_
    rintro b ⟨⟩
    refine ⟨fun _ => hmu, ?_, nofun⟩
    rintro status ⟨⟩
    exact ⟨rfl, rfl⟩
  | offEarly g ha hsrv => exact absurd hsrv hs.srv
  | reload g ha =>
    have hmu := (hs.fits g _ ha).holds rfl
    refine hs.inside ha rfl hs.srv rfl ?_
    rintro b ⟨⟩
    exact ⟨fun _ => hmu, nofun, nofun⟩
  | publish g ha =>
    have hfits := hs.fits g _ ha
    obtain ⟨old, hold⟩ := Option.ne_none_iff_exists'.mp hs.srv
    refine hs.inside ha rfl ?_ rfl ?_
    · show s.healthSrv.map _ ≠ none
      rw [hold]
      exact nofun
    · rintro b ⟨⟩
      refine ⟨fun _ => hfits.holds rfl, nofun, ?_⟩
      rintro ⟨⟩
      obtain ⟨hflag, rfl⟩ := hfits.stored _ rfl
      refine ⟨hflag, ?_⟩
      show s.healthSrv.map _ = _
      rw [hold]
      rfl
  | ret g ha =>
    exact hs.inside ha rfl hs.srv rfl nofun

theorem sound_init (notReady : Bool) : (init { notReady }).Sound :=
  ⟨nofun, nofun⟩

/-! ### After it -/

/-- The flag is set, and nobody is about to publish anything else. -/
structure Down (s : Server) : Prop where
  flag : s.notReady = true
  status : s.healthSrv = some .notServing
  pending : ∀ g c status, s.goroutines g = some (.publishing c status) → status = .notServing

theorem Sound.down (hs : s.Sound) (hret : s.step (.ret g (.setReady false)) = some s') :
    s'.Down := by
  simp only [step] at hret
  split at hret
  · next ha =>
      cases hret
      obtain ⟨hflag, hstatus⟩ := (hs.fits g _ ha).published rfl
      refine ⟨hflag, hstatus, fun h c status hpub => ?_⟩
      by_cases hg : h = g
      · subst hg
        cases (Function.update_self ..).symm.trans hpub
      · have hold : s.goroutines h = some (.publishing c status) :=
          (Function.update_of_ne hg ..).symm.trans hpub
        exact absurd (hs.unique ha hold rfl rfl) hg
  · cases hret

theorem Down.moved (hs : s.Down) (hmoved : s'.goroutines = Function.update s.goroutines g next)
    (hflag : s'.notReady = true) (hstatus : s'.healthSrv = some .notServing)
    (hnext : ∀ c status, next = some (.publishing c status) → status = .notServing) : s'.Down := by
  refine ⟨hflag, hstatus, fun h c status hpub => ?_⟩
  rw [hmoved] at hpub
  by_cases hg : h = g
  · subst hg
    rw [Function.update_self] at hpub
    exact hnext c status hpub
  · rw [Function.update_of_ne hg] at hpub
    exact hs.pending h c status hpub

theorem Down.moves (hs : s.Down) (hmoves : Moves s e s') (he : ∀ h, e ≠ .store h true) :
    s'.Down := by
  cases hmoves with
  | outside g hout =>
    refine hs.moved rfl hs.flag hs.status ?_
    rintro c status rfl
    cases hout.holds rfl
  | lock g hfree ha hlock =>
    refine hs.moved rfl hs.flag hs.status ?_
    rintro c status ⟨⟩
    cases hlock
  | on g ha => exact absurd rfl (he g)
  | off g ha hsrv =>
    refine hs.moved rfl rfl hs.status ?_
    rintro c status ⟨⟩
    rfl
  | offEarly g ha hsrv => exact hs.moved rfl rfl hs.status nofun
  | reload g ha =>
    refine hs.moved rfl hs.flag hs.status ?_
    rintro c status ⟨⟩
    rw [if_pos hs.flag]
  | publish g ha =>
    refine hs.moved rfl hs.flag ?_ nofun
    show s.healthSrv.map _ = _
    rw [hs.status, hs.pending g _ _ ha]
    rfl
  | ret g ha => exact hs.moved rfl hs.flag hs.status nofun

/-- Once a `SetReady(false)` has returned, and as long as no `SetReady(true)` gets the lock,
the server serves `NOT_SERVING`. -/
theorem stays_notServing {notReady : Bool} {es fs : List HealthEvent} {g : Nat} {s : Server}
    (hrun : run step (init { notReady }) (es ++ .ret g (.setReady false) :: fs) = some s)
    (hlast : ∀ h, .store h true ∉ fs) : s.healthSrv = some .notServing := by
  obtain ⟨m, hes, hrest⟩ := run_append.mp hrun
  obtain ⟨m', hret, hfs⟩ := run_cons.mp hrest
  have hm : m.Sound :=
    run_inv (fun _ _ _ hs _ hstep => hs.moves (step_moves hstep)) (sound_init notReady)
      (along_of_forall (fun _ _ => trivial) _ es) hes
  have hfs' : ∀ e ∈ fs, ∀ h, e ≠ .store h true := by
    rintro e he h rfl
    exact hlast h he
  have hs : s.Down :=
    run_inv (fun _ _ _ hs he hstep => hs.moves (step_moves hstep) he) (hm.down hret)
      (along_of_mem hfs') hfs
  exact hs.status

theorem late_update_notServing :
    ∃ s, run step (init {})
        ([.call 0 .updateHealth, .checkNil 0, .load 0, .probed 0 [none], .call 1 (.setReady false),
          .lock 1, .store 1 false, .publish 1] ++ .ret 1 (.setReady false) ::
          [.lock 0, .reload 0, .publish 0, .ret 0 .updateHealth]) = some s ∧
      s.healthSrv = some .notServing := by
  obtain ⟨s, hs⟩ : ∃ s, run step (init {})
      ([.call 0 .updateHealth, .checkNil 0, .load 0, .probed 0 [none], .call 1 (.setReady false),
        .lock 1, .store 1 false, .publish 1] ++ .ret 1 (.setReady false) ::
        [.lock 0, .reload 0, .publish 0, .ret 0 .updateHealth]) = some s :=
    Option.isSome_iff_exists.mp (by decide)
  exact ⟨s, hs, stays_notServing hs (by simp)⟩

end Server

end Microjet.Grpcx
