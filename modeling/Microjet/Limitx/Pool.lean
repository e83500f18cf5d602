import Microjet.Limitx.Keyed
import Microjet.Lib.Run

/-!
# What the limiter is for

A pool has no slots, no reference counts and no map: a stay may hold its key while fewer than
`perKey` others do. No key is held more often (`run_bounded`), and a call whose `Acquire`
failed could as well not have been made (`run_without`).
-/

namespace Microjet.Limitx

open Registry Trace

/-- What a call at this place has put into its channel. -/
def Place.share : Place → Nat
  | .waiting => 0
  | .holding => 1
  | .giving => 0

theorem Place.share_eq (place : Place) :
    place.share = if place = .holding then 1 else 0 := by
  cases place <;> rfl

/-- A call between its arrival and its departure. -/
structure Stay (K : Type) where
  id : Nat
  key : K
  place : Place

/-- The stays. -/
structure Pool (K : Type) where
  stays : List (Stay K)
  released : List Nat

variable {K : Type} [DecidableEq K]

namespace Pool

/-- The stay, if it is there. -/
def at? (p : Pool K) (id : Nat) (place : Place) : Option (Stay K) :=
  (get Stay.id p.stays id).filter fun t => t.place = place

/-- How many hold a key. -/
def holding (p : Pool K) (key : K) : Nat :=
  p.stays.countP fun t => t.key = key ∧ t.place = .holding

/-- A stay goes on. -/
def move (p : Pool K) (id : Nat) (place : Place) : Pool K :=
  { p with stays := modify Stay.id p.stays id fun t => { t with place } }

/-- One step, with the events of the limiter. -/
def step (perKey : Int) (p : Pool K) : Event K → Option (Pool K)
  | .refuse _ _ => some p
  | .reserve id key =>
    if (get Stay.id p.stays id).isSome ∨ id ∈ p.released then none
    else some { p with stays := ⟨id, key, .waiting⟩ :: p.stays }
  | .take id =>
    (p.at? id .waiting).bind fun t =>
      if p.holding t.key < perKey then some (p.move id .holding) else none
  | .cancel id =>
    (p.at? id .waiting).map fun _ => { p with stays := remove Stay.id p.stays id }
  | .release id =>
    if id ∈ p.released then some p
    else (p.at? id .holding).map fun _ => p.move id .giving
  | .drop id =>
    (p.at? id .giving).map fun _ =>
      { stays := remove Stay.id p.stays id, released := id :: p.released }

variable {p p' : Pool K} {perKey : Int}

/-- No key is held more than `perKey` times. -/
structure Bounded (perKey : Int) (p : Pool K) : Prop where
  distinct : Distinct Stay.id p.stays
  bound : ∀ key, p.holding key ≤ perKey

variable {id : Nat}

theorem at?_spec {K : Type} {p : Pool K} {place : Place} {t : Stay K}
    (h : p.at? id place = some t) :
    get Stay.id p.stays id = some t ∧ t.place = place := by
  obtain ⟨hget, hplace⟩ := Option.filter_eq_some_iff.mp h
  exact ⟨hget, of_decide_eq_true hplace⟩

/-- The steps, as a relation. -/
inductive Moves (perKey : Int) (p : Pool K) : Event K → Pool K → Prop
  | refuse (id : Nat) (key : K) : Moves perKey p (.refuse id key) p
  | reserve (id : Nat) (key : K) (hid : get Stay.id p.stays id = none)
      (hreleased : id ∉ p.released) :
      Moves perKey p (.reserve id key) { p with stays := ⟨id, key, .waiting⟩ :: p.stays }
  | take (id : Nat) {t : Stay K} (hat : p.at? id .waiting = some t)
      (hlt : p.holding t.key < perKey) : Moves perKey p (.take id) (p.move id .holding)
  | cancel (id : Nat) {t : Stay K} (hat : p.at? id .waiting = some t) :
      Moves perKey p (.cancel id) { p with stays := remove Stay.id p.stays id }
  | again (id : Nat) (hreleased : id ∈ p.released) : Moves perKey p (.release id) p
  | release (id : Nat) {t : Stay K} (hreleased : id ∉ p.released)
      (hat : p.at? id .holding = some t) : Moves perKey p (.release id) (p.move id .giving)
  | drop (id : Nat) {t : Stay K} (hat : p.at? id .giving = some t) :
      Moves perKey p (.drop id) ⟨remove Stay.id p.stays id, id :: p.released⟩

variable {e : Event K}

theorem moves (h : p.step perKey e = some p') : p.Moves perKey e p' := by
  cases e with
  | refuse id key =>
    cases h
    exact .refuse id key
  | reserve id key =>
    obtain ⟨hfree, heq⟩ := Option.ite_none_left_eq_some.mp h
    obtain ⟨hid, hreleased⟩ := not_or.mp hfree
    cases heq
    exact .reserve id key (by simpa using hid) hreleased
  | take id =>
    obtain ⟨t, hat, hroom⟩ := Option.bind_eq_some_iff.mp h
    obtain ⟨hlt, heq⟩ := Option.ite_none_right_eq_some.mp hroom
    cases heq
    exact .take id hat hlt
  | cancel id =>
    obtain ⟨t, hat, rfl⟩ := Option.map_eq_some_iff.mp h
    exact .cancel id hat
  | release id =>
    simp only [step] at h
    split at h
    · next hreleased =>
        cases h
        exact .again id hreleased
    · next hreleased =>
        obtain ⟨t, hat, rfl⟩ := Option.map_eq_some_iff.mp h
        exact .release id hreleased hat
  | drop id =>
    obtain ⟨t, hat, rfl⟩ := Option.map_eq_some_iff.mp h
    exact .drop id hat

theorem Moves.step (h : p.Moves perKey e p') : p.step perKey e = some p' := by
  cases h with
  | refuse id key => rfl
  | reserve id key hid hreleased => simp [Pool.step, hid, hreleased]
  | take id hat hlt => simp [Pool.step, hat, hlt]
  | cancel id hat => simp [Pool.step, hat]
  | again id hreleased => exact if_pos hreleased
  | release id hreleased hat => simp [Pool.step, hreleased, hat]
  | drop id hat => simp [Pool.step, hat]

theorem holding_move (hd : Distinct Stay.id p.stays) {t : Stay K}
    (ht : get Stay.id p.stays id = some t) (place : Place) (key : K) :
    (p.move id place).holding key + (if t.key = key then t.place.share else 0) =
      p.holding key + if t.key = key then place.share else 0 := by
  have h := hd.countP_modify (f := fun t => { t with place })
    (p := fun t => t.key = key ∧ t.place = .holding) ht
  simp only [decide_eq_true_eq, ite_and, ← Place.share_eq] at h
  exact h

theorem holding_remove_le (p : Pool K) (id : Nat) (released : List Nat) (key : K) :
    (Pool.mk (remove Stay.id p.stays id) released).holding key ≤ p.holding key :=
  List.Sublist.countP_le List.filter_sublist

theorem Bounded.of_le (hp : p.Bounded perKey) (hd : Distinct Stay.id p'.stays)
    (hle : ∀ key, p'.holding key ≤ p.holding key) : p'.Bounded perKey where
  distinct := hd
  bound key := by
    have hkey := hp.bound key
    have hle := hle key
    omega

theorem Bounded.step (hp : p.Bounded perKey) (h : p.step perKey e = some p') :
    p'.Bounded perKey := by
  cases moves h with
  | refuse => exact hp
  | again => exact hp
  | reserve id key hid =>
    refine hp.of_le (hp.distinct.cons hid) fun k => ?_
    simp [holding]
  | take id hat hlt =>
    obtain ⟨ht, hplace⟩ := at?_spec hat
    refine ⟨hp.distinct.modify fun _ => rfl, fun k => ?_⟩
    have hmove := holding_move hp.distinct ht .holding k
    rw [hplace] at hmove
    simp only [Place.share, ite_self] at hmove
    have hk := hp.bound k
    split at hmove
    · next htk =>
        subst htk
        omega
    · omega
  | cancel id => exact hp.of_le hp.distinct.remove (p.holding_remove_le id p.released)
  | release id _ hat =>
    refine hp.of_le (hp.distinct.modify fun _ => rfl) fun k => ?_
    have hmove := holding_move hp.distinct (at?_spec hat).1 .giving k
    simp only [Place.share, ite_self] at hmove
    omega
  | drop id => exact hp.of_le hp.distinct.remove (p.holding_remove_le id (id :: p.released))

theorem run_bounded {es : List (Event K)} (hpos : 0 ≤ perKey)
    (h : run (Pool.step perKey) ⟨[], []⟩ es = some p) : p.Bounded perKey := by
  have hnil : Bounded perKey (⟨[], []⟩ : Pool K) := ⟨List.nodup_nil, fun _ => hpos⟩
  exact run_inv (fun _ _ _ hp _ hstep => hp.step hstep) hnil
    (along_of_forall (fun _ _ => trivial) _ _) h

/-! A call fails when its `Acquire` ends without having taken the slot. Until it
takes it, everything it does can be left out of the run. -/

/-- The call has taken its slot, or had it and gave it back. -/
def Taken (id : Nat) (p : Pool K) : Prop :=
  (∃ t, get Stay.id p.stays id = some t ∧ t.place ≠ .waiting) ∨ id ∈ p.released

/-- The pool without a stay. -/
def without (p : Pool K) (id : Nat) : Pool K :=
  { p with stays := remove Stay.id p.stays id }

variable {g : Nat}

theorem step_other (hne : e.id ≠ g) (h : p.step perKey e = some p') :
    get Stay.id p'.stays g = get Stay.id p.stays g ∧
      (g ∈ p'.released ↔ g ∈ p.released) := by
  cases moves h with
  | refuse => exact ⟨rfl, Iff.rfl⟩
  | again => exact ⟨rfl, Iff.rfl⟩
  | reserve => exact ⟨get_cons hne, Iff.rfl⟩
  | take => exact ⟨get_modify (fun _ => rfl) (Ne.symm hne), Iff.rfl⟩
  | release => exact ⟨get_modify (fun _ => rfl) (Ne.symm hne), Iff.rfl⟩
  | cancel => exact ⟨get_remove (Ne.symm hne), Iff.rfl⟩
  | drop =>
    refine ⟨get_remove (Ne.symm hne), ?_⟩
    rw [List.mem_cons]
    exact ⟨fun hmem => hmem.resolve_left (Ne.symm hne), .inr⟩

theorem taken_move {K : Type} {p : Pool K} {place place' : Place} {t : Stay K}
    (hat : p.at? id place' = some t) (hne : place ≠ .waiting) :
    Taken id (p.move id place) := by
  refine .inl ⟨{ t with place }, ?_, hne⟩
  have hget : get Stay.id (modify Stay.id p.stays id fun t => { t with place }) id =
      (get Stay.id p.stays id).map fun t => { t with place } :=
    get_modify_self fun _ => rfl
  rw [(at?_spec hat).1] at hget
  exact hget

theorem Taken.step (ht : Taken g p) (h : p.step perKey e = some p') : Taken g p' := by
  by_cases hid : e.id = g
  · subst hid
    cases moves h with
    | refuse => exact ht
    | again => exact ht
    | take id hat => exact taken_move hat (by simp)
    | release id _ hat => exact taken_move hat (by simp)
    | drop => exact .inr List.mem_cons_self
    | reserve id key hid hreleased =>
      -- the call is not there yet
      obtain ⟨t, hget, _⟩ | hmem := ht
      · rw [Event.id, hid] at hget
        simp at hget
      · exact absurd hmem hreleased
    | cancel id hat =>
      -- the call is still waiting
      obtain ⟨hget, hplace⟩ := at?_spec hat
      obtain ⟨u, hu, hne⟩ | hmem := ht
      · rw [Event.id, hget] at hu
        cases hu
        exact absurd hplace hne
      · exact .inr hmem
  · obtain ⟨hget, hreleased⟩ := step_other hid h
    rwa [Taken, hget, hreleased]

theorem holding_without (hd : Distinct Stay.id p.stays) (ht : ¬ Taken g p) (key : K) :
    (p.without g).holding key = p.holding key := by
  cases hget : get Stay.id p.stays g with
  | none =>
    rw [without, remove_of_get_none hget]
  | some t =>
    have hplace : t.place = .waiting := by
      by_contra hne
      exact ht (.inl ⟨t, hget, hne⟩)
    have h := hd.countP_remove (p := fun t => t.key = key ∧ t.place = .holding) hget
    simp only [decide_eq_true_eq, ite_and, ← Place.share_eq, hplace, Place.share,
      ite_self] at h
    exact h

theorem at?_without {K : Type} {p : Pool K} {g id : Nat} (hne : id ≠ g) (place : Place) :
    (p.without g).at? id place = p.at? id place := by
  rw [at?, at?, without, get_remove hne]

theorem move_without {K : Type} (p : Pool K) (g id : Nat) (place : Place) :
    (p.without g).move id place = (p.move id place).without g := by
  have h : remove Stay.id (modify Stay.id p.stays id fun t => { t with place }) g =
      modify Stay.id (remove Stay.id p.stays g) id fun t => { t with place } :=
    remove_modify fun _ => rfl
  exact congrArg (Pool.mk · p.released) h.symm

theorem step_without (hd : Distinct Stay.id p.stays) (ht : ¬ Taken g p) (hne : e.id ≠ g)
    (h : p.step perKey e = some p') :
    (p.without g).step perKey e = some (p'.without g) := by
  refine Moves.step ?_
  cases moves h with
  | refuse id key => exact .refuse id key
  | again id hreleased => exact .again id hreleased
  | reserve id key hid hreleased =>
    have hcomm : ({ p with stays := ⟨id, key, .waiting⟩ :: p.stays } : Pool K).without g =
        { p.without g with stays := ⟨id, key, .waiting⟩ :: (p.without g).stays } := by
      simp [without, remove, show id ≠ g from hne]
    rw [hcomm]
    exact .reserve id key ((get_remove hne).trans hid) hreleased
  | take id hat hlt =>
    rw [← move_without]
    exact .take id ((at?_without hne _).trans hat) (by rwa [holding_without hd ht])
  | cancel id hat =>
    have hcomm : ({ p with stays := remove Stay.id p.stays id } : Pool K).without g =
        { p.without g with stays := remove Stay.id (p.without g).stays id } :=
      congrArg (Pool.mk · p.released) remove_remove
    rw [hcomm]
    exact .cancel id ((at?_without hne _).trans hat)
  | release id hreleased hat =>
    rw [← move_without]
    exact .release id hreleased ((at?_without hne _).trans hat)
  | drop id hat =>
    have hcomm : (Pool.mk (remove Stay.id p.stays id) (id :: p.released)).without g =
        ⟨remove Stay.id (p.without g).stays id, id :: (p.without g).released⟩ :=
      congrArg (Pool.mk · (id :: p.released)) remove_remove
    rw [hcomm]
    exact .drop id ((at?_without hne _).trans hat)

theorem step_self (hid : e.id = g) (h : p.step perKey e = some p') (ht : ¬ Taken g p') :
    p'.without g = p.without g := by
  subst hid
  cases moves h with
  | refuse => rfl
  | again => rfl
  | reserve => simp [without, remove, Event.id]
  | cancel => exact congrArg (Pool.mk · p.released) remove_self
  | take id hat => exact absurd (taken_move hat (by simp)) ht
  | release id _ hat => exact absurd (taken_move hat (by simp)) ht
  | drop => exact absurd (.inr List.mem_cons_self) ht

/-- A call that has not taken its slot can be left out of the run. -/
theorem run_without {es : List (Event K)} (hpos : 0 ≤ perKey)
    (h : run (Pool.step perKey) ⟨[], []⟩ es = some p) (ht : ¬ Taken g p) :
    run (Pool.step perKey) ⟨[], []⟩ (es.filter fun e => e.id ≠ g) =
      some (p.without g) := by
  have hinv : p.Bounded perKey ∧ (¬ Taken g p →
      run (Pool.step perKey) ⟨[], []⟩ (es.filter fun e => e.id ≠ g) =
        some (p.without g)) := by
    refine run_hist (I := fun es p => Bounded perKey p ∧ (¬ Taken g p →
      run (Pool.step perKey) ⟨[], []⟩ (es.filter fun e => e.id ≠ g) =
        some (p.without g))) ?_ ?_ h
    · exact ⟨⟨List.nodup_nil, fun _ => hpos⟩, fun _ => rfl⟩
    · intro es p e p' hp hstep
      refine ⟨hp.1.step hstep, fun hnot => ?_⟩
      have hnot' : ¬ Taken g p := fun hp => hnot (hp.step hstep)
      have hrun := hp.2 hnot'
      rw [List.filter_append]
      by_cases hid : e.id = g
      · rw [List.filter_cons_of_neg (by simp [hid]), List.filter_nil, List.append_nil,
          step_self hid hstep hnot]
        exact hrun
      · rw [List.filter_cons_of_pos (by simp [hid]), List.filter_nil]
        exact run_snoc.mpr ⟨_, hrun, step_without hp.1.distinct hnot' hid hstep⟩
  exact hinv.2 ht

end Pool

end Microjet.Limitx
