import Mathlib.Data.List.Dedup
import Microjet.Dynamo.Update
import Microjet.Proofs.NewPanics

/-!
# Updates that fail and updates that are sent

Before it can fail, an update has set the `auto_update` fields and the derived fields before the
first that does not encode, in the caller's item. No field is in both lists (`Reflect.Kinds`).
-/

namespace Microjet.Dynamo

open Errorx

/-! ## Timestamps -/

section Stamps

variable {ν : Type} {refl : Reflect ν} {now : Int} {v v' : Nat → Handle ν} {h h' : Handle ν}

theorem setTime_eq_ok (hs : h.setTime refl now = .ok h') :
    h'.accessible = h.accessible ∧ ∃ d x, h.value = .other d x ∧
      (d.timestamp = true ∨ refl.holdsTimestamp d x = true ∨ d.acceptsTime = true) := by
  unfold Handle.setTime at hs
  split at hs
  · cases hs
  · obtain ⟨acc, value⟩ := h
    cases value with
    | string s => cases hs
    | uuid u => cases hs
    | other d x =>
      dsimp only at hs
      split at hs
      · next hts =>
          cases hs
          rw [Bool.or_eq_true] at hts
          exact ⟨rfl, d, x, rfl, hts.imp_right .inl⟩
      · split at hs
        · next htime =>
            cases hs
            exact ⟨rfl, d, x, rfl, .inr (.inr htime)⟩
        · cases hs

theorem setTime_noError : (h.setTime refl now).NoError := by
  unfold Handle.setTime
  split
  · trivial
  · split
    · trivial
    · trivial
    · split
      · trivial
      · split <;> trivial

/-- What a timestamp is set to. -/
def stampedValue (refl : Reflect ν) (now : Int) (fm : FieldMeta) (v : Nat → Handle ν) :
    Option (Handle ν) :=
  ((v fm.structIndex).setTime refl now).toOption

theorem stampField_update {fm : FieldMeta} (hacc : (v fm.structIndex).accessible = true) :
    stampField refl 0 true now v fm =
      if fm.autoUpdate then
        (v fm.structIndex).setTime refl now >>= fun h => .ok (Function.update v fm.structIndex h)
      else .ok v := by
  simp only [stampField, fieldOf, ne_eq, not_true_eq_false, if_false, Out.ok_bind, hacc,
    Bool.not_true, Bool.false_eq_true, Bool.and_false, Bool.false_and, Bool.false_or]
  cases fm.autoUpdate <;> rfl

variable {fms : List FieldMeta}

theorem applyTimestamps_eq_ok (hacc : ∀ fm ∈ fms, (v fm.structIndex).accessible = true) :
    applyTimestamps refl 0 true now fms v = .ok v' ↔
      Assign.run FieldMeta.structIndex (stampedValue refl now) (fms.filter (·.autoUpdate)) v =
        some v' := by
  induction fms generalizing v with
  | nil => simp [applyTimestamps, Assign.run]
  | cons fm fms ih =>
    have hrest : ∀ fm' ∈ fms, (v fm'.structIndex).accessible = true :=
      fun fm' hfm' => hacc fm' (List.mem_cons_of_mem fm hfm')
    rw [applyTimestamps, stampField_update (hacc fm List.mem_cons_self)]
    cases hauto : fm.autoUpdate with
    | false =>
      rw [List.filter_cons_of_neg (by simp [hauto])]
      exact ih hrest
    | true =>
      rw [List.filter_cons_of_pos hauto, Assign.run_cons, if_pos rfl, Out.bind_eq_ok]
      -- after a round the fields are as accessible as before
      have hacc' : ∀ h, (v fm.structIndex).setTime refl now = .ok h → ∀ fm' ∈ fms,
          (Function.update v fm.structIndex h fm'.structIndex).accessible = true := by
        intro h hh fm' hfm'
        by_cases hi : fm'.structIndex = fm.structIndex
        · rw [hi, Function.update_self, (setTime_eq_ok hh).1]
          exact hacc fm List.mem_cons_self
        · rw [Function.update_of_ne hi]
          exact hrest fm' hfm'
      constructor
      · rintro ⟨v₁, hv₁, h⟩
        obtain ⟨x, hx, heq⟩ := Out.bind_eq_ok.mp hv₁
        cases heq
        exact ⟨x, Out.toOption_eq_some.mpr hx, (ih (hacc' x hx)).mp h⟩
      · rintro ⟨x, hx, h⟩
        have hx := Out.toOption_eq_some.mp hx
        exact ⟨_, by rw [hx]; rfl, (ih (hacc' x hx)).mpr h⟩

theorem applyTimestamps_noError {pointers : Nat} {isUpdate : Bool} :
    (applyTimestamps refl pointers isUpdate now fms v).NoError := by
  induction fms generalizing v with
  | nil => trivial
  | cons fm fms ih =>
    refine Out.NoError.bind (Out.NoError.bind ?_ fun field => ?_) fun v₁ => ih
    · rw [fieldOf]
      split <;> trivial
    · split
      · trivial
      · split
        · exact setTime_noError.bind fun _ => trivial
        · trivial

theorem applyTimestamps_fields (hacc : ∀ fm ∈ fms, (v fm.structIndex).accessible = true)
    (hord : fms.Pairwise fun a b => a.structIndex < b.structIndex)
    (h : applyTimestamps refl 0 true now fms v = .ok v') :
    (∀ fm ∈ fms, fm.autoUpdate = true →
      (v fm.structIndex).setTime refl now = .ok (v' fm.structIndex)) ∧
      ∀ i, (∀ fm ∈ fms, fm.autoUpdate = true → fm.structIndex ≠ i) → v' i = v i := by
  rw [applyTimestamps_eq_ok hacc] at h
  have hnodup : ((fms.filter (·.autoUpdate)).map FieldMeta.structIndex).Nodup :=
    List.pairwise_map.mpr ((hord.filter _).imp Nat.ne_of_lt)
  constructor
  · intro fm hfm hauto
    obtain ⟨pre, post, heq⟩ := List.append_of_mem (List.mem_filter.mpr ⟨hfm, hauto⟩)
    rw [heq] at h hnodup
    obtain ⟨m, hm, hval, -⟩ := Assign.run_at h hnodup
    -- the rounds before this one are about other fields
    have hold : m fm.structIndex = v fm.structIndex := by
      refine Assign.run_frame hm fun hmem => ?_
      rw [List.map_append, List.nodup_append] at hnodup
      exact hnodup.2.2 _ hmem _ List.mem_cons_self rfl
    rw [stampedValue, hold] at hval
    exact Out.toOption_eq_some.mp hval
  · intro i hi
    refine Assign.run_frame h fun hmem => ?_
    obtain ⟨fm, hfm, rfl⟩ := List.mem_map.mp hmem
    obtain ⟨hfm, hauto⟩ := List.mem_filter.mp hfm
    exact hi fm hfm hauto rfl

theorem applyTimestamps_pointers {pointers : Nat} (hp : pointers ≠ 0) {isUpdate : Bool}
    (h : applyTimestamps refl pointers isUpdate now fms v = .ok v') :
    fms = [] := by
  cases fms with
  | nil => rfl
  | cons fm fms =>
    rw [applyTimestamps, stampField, fieldOf, if_pos hp] at h
    cases h

end Stamps

/-! ## Derived attributes, up to a failure -/

section Derived

variable {ν : Type} {refl : Reflect ν} {text : TextMethods ν} {v v' : Nat → Handle ν}

/-- The derived fields before the first failure hold what they are set to. -/
def Rederived (refl : Reflect ν) (text : TextMethods ν) (v : Nat → Handle ν) :
    List FieldMeta → Prop
  | [] => True
  | fm :: fms =>
    ∀ h, derivedValue refl text fm v = some h → h = v fm.structIndex ∧ Rederived refl text v fms

variable {fms : List FieldMeta}

theorem applyDerived_cons {fm : FieldMeta} (hacc : (v fm.structIndex).accessible = true) :
    (applyDerived refl text 0 (fm :: fms) v).1 =
      match derivedValue refl text fm v with
      | some h => (applyDerived refl text 0 fms (Function.update v fm.structIndex h)).1
      | none => v := by
  rw [applyDerived]
  cases hd : derivedValue refl text fm v with
  | some h => rw [(deriveField_eq_ok hacc).mpr ⟨h, hd, rfl⟩]
  | none =>
    cases hf : deriveField refl text 0 v fm with
    | ok v₁ =>
      obtain ⟨h, hh, -⟩ := (deriveField_eq_ok hacc).mp hf
      cases hd.symm.trans hh
    | error err => rfl
    | panic => rfl

theorem applyDerived_frame (hacc : ∀ fm ∈ fms, (v fm.structIndex).accessible = true) {i : Nat}
    (hi : i ∉ fms.map FieldMeta.structIndex) : (applyDerived refl text 0 fms v).1 i = v i := by
  induction fms generalizing v with
  | nil => rfl
  | cons fm fms ih =>
    rw [List.map_cons, List.mem_cons, not_or] at hi
    rw [applyDerived_cons (hacc fm List.mem_cons_self)]
    cases hd : derivedValue refl text fm v with
    | none => rfl
    | some h =>
      exact (ih (accessible_update hacc hd) hi.2).trans (Function.update_of_ne hi.1 _ _)

theorem applyDerived_eq_self (hacc : ∀ fm ∈ fms, (v fm.structIndex).accessible = true)
    (hd : (fms.map FieldMeta.structIndex).Nodup) :
    (applyDerived refl text 0 fms v).1 = v ↔ Rederived refl text v fms := by
  induction fms with
  | nil => exact iff_of_true rfl trivial
  | cons fm fms ih =>
    rw [List.map_cons, List.nodup_cons] at hd
    have hrest : ∀ fm' ∈ fms, (v fm'.structIndex).accessible = true :=
      fun fm' hfm' => hacc fm' (List.mem_cons_of_mem fm hfm')
    rw [applyDerived_cons (hacc fm List.mem_cons_self), Rederived]
    cases hval : derivedValue refl text fm v with
    | none => exact iff_of_true rfl nofun
    | some h =>
      show (applyDerived refl text 0 fms (Function.update v fm.structIndex h)).1 = v ↔ _
      by_cases hh : h = v fm.structIndex
      · subst hh
        rw [Function.update_eq_self, ih hrest hd.2]
        constructor
        · rintro hs _ ⟨⟩
          exact ⟨rfl, hs⟩
        · exact fun hs => (hs _ rfl).2
      · -- no later round touches this field
        refine iff_of_false (fun heq => hh ?_) fun hs => hh (hs h rfl).1
        have hkept : (applyDerived refl text 0 fms (Function.update v fm.structIndex h)).1
            fm.structIndex = Function.update v fm.structIndex h fm.structIndex :=
          applyDerived_frame (accessible_update hacc hval) hd.1
        rw [heq, Function.update_self] at hkept
        exact hkept.symm

end Derived

/-! ## What an update does to the item -/

/-- In Go no type of kind string takes a time. -/
def Reflect.Kinds {ν : Type} (refl : Reflect ν) (t : StructType) : Prop :=
  ∀ f ∈ t.fields, ∀ d, f.type = .other d → d.stringKind = true →
    d.timestamp = false ∧ d.acceptsTime = false ∧ ∀ x, refl.holdsTimestamp d x = false

/-- The timestamps hold `now`. -/
def Stamped {ν : Type} (refl : Reflect ν) (tags : StructMeta) (now : Int)
    (v : Nat → Handle ν) : Prop :=
  ∀ fm ∈ tags.autoFields, fm.autoUpdate = true →
    (v fm.structIndex).setTime refl now = .ok (v fm.structIndex)

section Prepared

variable {ν φ ε : Type} {refl : Reflect ν} {text : TextMethods ν} {sdk : WriteSdk ν φ ε}
  {pointers : Nat} {t : StructType} {tags : StructMeta} {now : Int}

theorem prepareWrite_item {isUpdate : Bool} {v : Nat → Handle ν}
    (h : (prepareWrite refl text pointers tags isUpdate now v).2 ≠ .panic) :
    ∃ v₁, applyTimestamps refl pointers isUpdate now tags.autoFields v = .ok v₁ ∧
      (prepareWrite refl text pointers tags isUpdate now v).1 =
        (applyDerived refl text pointers tags.derivedFields v₁).1 ∧
      (applyDerived refl text pointers tags.derivedFields v₁).2 ≠ .panic := by
  rw [prepareWrite] at h ⊢
  cases hs : applyTimestamps refl pointers isUpdate now tags.autoFields v with
  | error err => exact absurd hs (applyTimestamps_noError.ne_error err)
  | panic =>
    rw [hs] at h
    exact absurd rfl h
  | ok v₁ =>
    rw [hs] at h
    dsimp only at h
    refine ⟨v₁, rfl, ?_⟩
    dsimp only
    rcases hd : applyDerived refl text pointers tags.derivedFields v₁ with ⟨v₂, r⟩
    rw [hd] at h
    cases r with
    | ok => exact ⟨rfl, Out.Safe.ne_panic (Q := fun _ => True) trivial⟩
    | error => exact ⟨rfl, Out.Safe.ne_panic (Q := fun _ => True) trivial⟩
    | panic => exact absurd rfl h

theorem prepareWrite_key {isUpdate : Bool} {v v' : Nat → Handle ν} {key : GoString × GoString}
    (h : prepareWrite refl text pointers tags isUpdate now v = (v', .ok key)) :
    buildKey text tags v' = .ok key := by
  rw [prepareWrite] at h
  split at h
  · cases h
  · cases h
  · split at h
    · cases h
    · cases h
    · obtain ⟨rfl, hkey⟩ := Prod.mk.injEq _ _ _ _ ▸ h
      exact hkey

theorem Item.accessible_of_field (item : Item t ν) {i : Nat}
    (h : ∃ f, t.fields[i]? = some f ∧ f.exported = true) :
    (item.handles 0 i).accessible = true := by
  obtain ⟨f, hf, hexp⟩ := h
  show (true && t.exported i) = true
  rw [Bool.true_and, StructType.exported, hf]
  exact hexp

theorem not_derived_of_setTime (hkinds : refl.Kinds t) (item : Item t ν) {fm fm' : FieldMeta}
    {kf : KeyFormat} {h : Handle ν} (hderived : DerivedOk t fm' kf)
    (hset : (item.handles pointers fm.structIndex).setTime refl now = .ok h) :
    fm'.structIndex ≠ fm.structIndex := by
  intro heq
  obtain ⟨f, hf, -, hkind⟩ := hderived.field
  rw [heq] at hf
  obtain ⟨-, d, x, hvalue, htakes⟩ := setTime_eq_ok hset
  have htype : FieldType.other d = f.type := by
    rw [← item.typed _ f hf, show item.value fm.structIndex = .other d x from hvalue]
    rfl
  rw [← htype] at hkind
  obtain ⟨hts, htime, hholds⟩ := hkinds f (List.mem_of_getElem? hf) d htype.symm hkind
  rcases htakes with h | h | h
  · cases hts.symm.trans h
  · cases (hholds x).symm.trans h
  · cases htime.symm.trans h

/-- When an update has prepared the item, or failed to: `auto_update` fields hold the time, and
those neither that nor derived are as they were. -/
theorem prepareWrite_fields (hnew : newTable (.struct pointers t) = .ok tags)
    (hkinds : refl.Kinds t) (item : Item t ν)
    (h : (prepareWrite refl text pointers tags true now (item.handles pointers)).2 ≠ .panic) :
    (∀ fm ∈ tags.autoFields, fm.autoUpdate = true →
      (item.handles pointers fm.structIndex).setTime refl now =
        .ok ((prepareWrite refl text pointers tags true now (item.handles pointers)).1
          fm.structIndex)) ∧
    ((prepareWrite refl text pointers tags true now (item.handles pointers)).1 =
        item.handles pointers ↔
      Stamped refl tags now (item.handles pointers) ∧
        Rederived refl text (item.handles pointers) tags.derivedFields) := by
  obtain ⟨hderived, hord, hauto, hautoOrd⟩ := newTable_visited hnew
  obtain ⟨v₁, hv₁, hitem, hne⟩ := prepareWrite_item h
  rw [hitem]
  by_cases hp : pointers = 0
  · subst hp
    obtain ⟨hstamped, hothers⟩ := applyTimestamps_fields
      (fun fm hfm => item.accessible_of_field (hauto fm hfm).field) hautoOrd hv₁
    have hacc : ∀ fm ∈ tags.derivedFields, (v₁ fm.structIndex).accessible = true := by
      intro fm hfm
      obtain ⟨kf, hkf⟩ := hderived fm hfm
      rw [hothers]
      · obtain ⟨f, hf, hexp, -⟩ := hkf.field
        exact item.accessible_of_field ⟨f, hf, hexp⟩
      · intro fm' hfm' hup heq
        exact not_derived_of_setTime hkinds item hkf (hstamped fm' hfm' hup) heq.symm
    -- what has been stamped is not derived
    have hkept : ∀ fm ∈ tags.autoFields, fm.autoUpdate = true →
        (applyDerived refl text 0 tags.derivedFields v₁).1 fm.structIndex =
          v₁ fm.structIndex := by
      intro fm hfm hup
      refine applyDerived_frame hacc fun hmem => ?_
      obtain ⟨fm', hfm', heq⟩ := List.mem_map.mp hmem
      obtain ⟨kf, hkf⟩ := hderived fm' hfm'
      exact not_derived_of_setTime hkinds item hkf (hstamped fm hfm hup) heq
    refine ⟨fun fm hfm hup => by rw [hkept fm hfm hup]; exact hstamped fm hfm hup, ?_⟩
    have hsame : Stamped refl tags now (item.handles 0) → v₁ = item.handles 0 := by
      intro hall
      funext i
      by_cases hi : ∃ fm ∈ tags.autoFields, fm.autoUpdate = true ∧ fm.structIndex = i
      · obtain ⟨fm, hfm, hup, rfl⟩ := hi
        exact Out.ok.inj ((hstamped fm hfm hup).symm.trans (hall fm hfm hup))
      · exact hothers i fun fm hfm hup heq => hi ⟨fm, hfm, hup, heq⟩
    have hself : (applyDerived refl text 0 tags.derivedFields v₁).1 = v₁ ↔ _ :=
      applyDerived_eq_self hacc (List.pairwise_map.mpr (hord.imp Nat.ne_of_lt))
    constructor
    · intro heq
      have hall : Stamped refl tags now (item.handles 0) := by
        intro fm hfm hup
        have hset := hstamped fm hfm hup
        rw [← hkept fm hfm hup, heq] at hset
        exact hset
      rw [hsame hall] at hself heq
      exact ⟨hall, hself.mp heq⟩
    · rintro ⟨hall, hre⟩
      rw [hsame hall] at hself ⊢
      exact hself.mpr hre
  · -- there is nothing to set
    have hnone := applyTimestamps_pointers hp hv₁
    have hnone' := applyDerived_pointers hp hne
    have hstamped : Stamped refl tags now (item.handles pointers) := by
      intro fm hfm
      rw [hnone] at hfm
      cases hfm
    rw [hnone] at hv₁ ⊢
    rw [hnone']
    cases hv₁
    exact ⟨nofun, iff_of_true rfl ⟨hstamped, trivial⟩⟩

end Prepared

/-! ## Updates that fail -/

/-- The name of an `auto_update` field. -/
def AutoName (tags : StructMeta) (name : GoString) : Prop :=
  ∃ fm ∈ tags.autoFields, fm.autoUpdate = true ∧ fm.attrName ≠ [] ∧ fm.attrName = name

/-- A name is to be set and removed. -/
def Conflict {φ : Type} (tags : StructMeta) (spec : UpdateSpec φ) : Prop :=
  ∃ name ∈ spec.remove, name ∈ spec.set ∨ AutoName tags name

section Built

variable {ν φ ε : Type} {refl : Reflect ν} {text : TextMethods ν} {sdk : WriteSdk ν φ ε}
  {pointers : Nat} {t : StructType} {tags : StructMeta} {spec : UpdateSpec φ} {now : Int}

theorem mem_setNames {name : GoString} :
    name ∈ setNames tags spec ↔ name ∈ spec.set ∨ AutoName tags name := by
  rw [setNames, List.mem_insertionSort, List.mem_dedup, List.mem_append, List.mem_map]
  refine or_congr_right ⟨?_, ?_⟩
  · rintro ⟨fm, hfm, rfl⟩
    obtain ⟨hfm, hauto⟩ := List.mem_filter.mp hfm
    rw [Bool.and_eq_true, decide_eq_true_eq] at hauto
    exact ⟨fm, hfm, hauto.1, hauto.2, rfl⟩
  · rintro ⟨fm, hfm, hauto, hname, rfl⟩
    exact ⟨fm, List.mem_filter.mpr ⟨hfm, by simp [hauto, hname]⟩, rfl⟩

theorem mem_removeNames {name : GoString} : name ∈ removeNames spec ↔ name ∈ spec.remove := by
  rw [removeNames, List.mem_insertionSort, List.mem_dedup]

theorem find_eq_none_iff :
    spec.remove.find? (setNames tags spec).contains = none ↔ ¬ Conflict tags spec := by
  rw [List.find?_eq_none, Conflict]
  constructor
  · rintro h ⟨name, hmem, hset⟩
    exact h name hmem (List.contains_iff_mem.mpr (mem_setNames.mpr hset))
  · intro h name hmem hset
    exact h ⟨name, hmem, mem_setNames.mp (List.contains_iff_mem.mp hset)⟩

variable (refl text sdk pointers now) in
theorem buildUpdate_conflict (v : Nat → Handle ν) (h : Conflict tags spec) :
    (buildUpdate refl text sdk pointers tags spec now v).1 = v := by
  rw [buildUpdate]
  cases hfind : spec.remove.find? (setNames tags spec).contains with
  | none => exact absurd h (find_eq_none_iff.mp hfind)
  | some name => rfl

variable (refl text sdk pointers now) in
theorem buildUpdate_prepares (v : Nat → Handle ν) (h : ¬ Conflict tags spec) :
    (buildUpdate refl text sdk pointers tags spec now v).1 =
        (prepareWrite refl text pointers tags true now v).1 ∧
      ((buildUpdate refl text sdk pointers tags spec now v).2 ≠ .panic →
        (prepareWrite refl text pointers tags true now v).2 ≠ .panic) := by
  rw [buildUpdate, find_eq_none_iff.mpr h]
  refine ⟨rfl, fun hne hpanic => hne ?_⟩
  dsimp only
  rw [hpanic]
  rfl

/-- A failed update leaves the item as it was exactly if a name was both set and removed, or if
each field that had been set held that value already. -/
theorem buildUpdate_error_iff (hnew : newTable (.struct pointers t) = .ok tags)
    (hkinds : refl.Kinds t) (item : Item t ν) {v' : Nat → Handle ν} {err : Err}
    (h : buildUpdate refl text sdk pointers tags spec now (item.handles pointers) =
      (v', .error err)) :
    v' = item.handles pointers ↔
      Conflict tags spec ∨ Stamped refl tags now (item.handles pointers) ∧
        Rederived refl text (item.handles pointers) tags.derivedFields := by
  by_cases hconflict : Conflict tags spec
  · refine iff_of_true ?_ (.inl hconflict)
    have hsame := buildUpdate_conflict refl text sdk pointers now (item.handles pointers) hconflict
    rw [h] at hsame
    exact hsame
  · obtain ⟨hitem, hpanic⟩ :=
      buildUpdate_prepares refl text sdk pointers now (item.handles pointers) hconflict
    rw [h] at hitem hpanic
    have hne := hpanic (Out.Safe.ne_panic (Q := fun _ => True) trivial)
    rw [or_iff_right hconflict, show v' = _ from hitem]
    exact (prepareWrite_fields hnew hkinds item hne).2

/-! ## Updates that are sent -/

theorem lookup_sets (av : GoMap AttributeValue) (names : List GoString) (name : GoString) :
    (names.filterMap fun n => (av.get n).map (n, ·)).lookup name =
      if name ∈ names then av.get name else none := by
  induction names with
  | nil => rfl
  | cons n names ih =>
    by_cases hn : name = n
    · subst hn
      cases hget : av.get name with
      | none => simp [hget, ih]
      | some x => simp [hget]
    · have hne : (name == n) = false := beq_false_of_ne hn
      cases hget : av.get n with
      | none => simp [hget, ih, hn]
      | some x => simp [List.lookup_cons, hget, ih, hn, hne]

theorem buildUpdate_request {v v' : Nat → Handle ν} {req : UpdateRequest ε}
    (h : buildUpdate refl text sdk pointers tags spec now v = (v', .ok (some req))) :
    ¬ Conflict tags spec ∧ prepareWrite refl text pointers tags true now v = (v', .ok req.key) ∧
      ∃ av, sdk.marshalMap v' = .ok av ∧
        sdk.build ((setNames tags spec).filterMap fun name => (av.get name).map (name, ·))
          (removeNames spec) spec.condition = .ok req.expr := by
  rw [buildUpdate] at h
  cases hfind : spec.remove.find? (setNames tags spec).contains with
  | some name =>
    rw [hfind] at h
    cases h
  | none =>
    refine ⟨find_eq_none_iff.mp hfind, ?_⟩
    rw [hfind] at h
    dsimp only at h
    obtain ⟨hitem, hreq⟩ := Prod.mk.injEq _ _ _ _ ▸ h
    obtain ⟨key, hkey, hreq⟩ := Out.bind_eq_ok.mp hreq
    rw [hitem] at hreq
    cases hav : sdk.marshalMap v' with
    | error err =>
      rw [hav] at hreq
      cases hreq
    | ok av =>
      rw [hav] at hreq
      dsimp only at hreq
      split at hreq
      · cases hreq
      · split at hreq
        · cases hreq
        · next expr hexpr =>
            cases hreq
            exact ⟨Prod.ext hitem hkey, av, rfl, hexpr⟩

end Built

/-- What has become of the stored item and of the caller's, which marshals to `av`. -/
structure UpdateEffect {ν φ : Type} (refl : Reflect ν) (tags : StructMeta) (spec : UpdateSpec φ)
    (now : Int) (av : GoMap AttributeValue) (old new : Attributes) (v v' : Nat → Handle ν) :
    Prop where
  /-- A named attribute has the item's value; it is not touched if the item has none. -/
  written : ∀ name, name ∈ spec.set ∨ AutoName tags name → new name = (av.get name).or (old name)
  removed : ∀ name ∈ spec.remove, new name = none
  /-- The item itself has the new time. -/
  stamped : ∀ fm ∈ tags.autoFields, fm.autoUpdate = true →
    (v fm.structIndex).setTime refl now = .ok (v' fm.structIndex)
  others : ∀ name, name ∉ spec.set → ¬ AutoName tags name → name ∉ spec.remove →
    new name = old name

section Sent

variable {ν φ ε α : Type} {refl : Reflect ν} {text : TextMethods ν} {sdk : WriteSdk ν φ ε}
  {server : Server ε α} {pointers : Nat} {t : StructType} {tags : StructMeta}

variable (tags) in
theorem applyClauses_eq (spec : UpdateSpec φ) (av : GoMap AttributeValue) (old : Attributes)
    (name : GoString) :
    applyClauses ((setNames tags spec).filterMap fun name => (av.get name).map (name, ·))
        (removeNames spec) old name =
      if name ∈ spec.remove then none
      else if name ∈ setNames tags spec then (av.get name).or (old name) else old name := by
  rw [applyClauses, lookup_sets]
  by_cases hr : name ∈ spec.remove
  · rw [if_pos (List.contains_iff_mem.mpr (mem_removeNames.mpr hr)), if_pos hr]
  · rw [if_neg (fun hc => hr (mem_removeNames.mp (List.contains_iff_mem.mp hc))), if_neg hr]
    split <;> rfl

theorem updateWith_sent {tableName : GoString} {spec : UpdateSpec φ} {now : Int}
    {v : Nat → Handle ν} {store : Store} {r : Updated ν α}
    (hr : updateWith refl text sdk server pointers tags tableName spec now v store = r)
    (hsent : r.sent = true) (hok : r.result = .ok none) :
    ∃ req, buildUpdate refl text sdk pointers tags spec now v = (r.item, .ok (some req)) ∧
      server.updateItem ⟨tableName, req.key, req.expr⟩ store = (.ok (), r.store) := by
  rw [updateWith] at hr
  split at hr
  · subst hr
    cases hsent
  · subst hr
    cases hsent
  · subst hr
    cases hsent
  · next v' req hb =>
      split at hr
      · subst hr
        cases hok
      · next hu =>
          subst hr
          exact ⟨req, hb, hu⟩

/-- An update of plain names that is sent and returns nil has set each named attribute that the
item marshals, and each `auto_update` attribute with it, has removed what it was to remove, and
has left every other attribute. -/
theorem updateWith_effect (hnew : newTable (.struct pointers t) = .ok tags)
    (hkinds : refl.Kinds t) (happlies : sdk.Applies server) (item : Item t ν) (tableName : GoString)
    (spec : UpdateSpec φ) (hplain : ∀ name, name ∈ spec.set ∨ AutoName tags name ∨
      name ∈ spec.remove → PlainName name)
    (now : Int) (store : Store) {r : Updated ν α}
    (hr : updateWith refl text sdk server pointers tags tableName spec now
      (item.handles pointers) store = r)
    (hsent : r.sent = true) (hok : r.result = .ok none) :
    ∃ key av new, buildKey text tags r.item = .ok key ∧ sdk.marshalMap r.item = .ok av ∧
      r.store = Function.update store key (some new) ∧
      UpdateEffect refl tags spec now av ((store key).getD (keyAttributes key)) new
        (item.handles pointers) r.item := by
  obtain ⟨req, hb, hu⟩ := updateWith_sent hr hsent hok
  obtain ⟨hconflict, hprep, av, hav, hexpr⟩ := buildUpdate_request hb
  have hsets : ∀ p ∈ (setNames tags spec).filterMap fun name => (av.get name).map (name, ·),
      PlainName p.1 := by
    intro p hp
    obtain ⟨name, hname, hget⟩ := List.mem_filterMap.mp hp
    obtain ⟨val, -, rfl⟩ := Option.map_eq_some_iff.mp hget
    exact hplain name ((mem_setNames.mp hname).imp_right .inl)
  have hremoves : ∀ name ∈ removeNames spec, PlainName name := fun name hname =>
    hplain name (.inr (.inr (mem_removeNames.mp hname)))
  have hstore := happlies.applies _ _ _ _ _ _ _ _ hsets hremoves hexpr hu
  have hne : (prepareWrite refl text pointers tags true now (item.handles pointers)).2 ≠
      .panic := by
    rw [hprep]
    exact Out.Safe.ne_panic (Q := fun _ => True) trivial
  have hstamped := (prepareWrite_fields hnew hkinds item hne).1
  rw [hprep] at hstamped
  refine ⟨req.key, av, _, prepareWrite_key hprep, hav, hstore, ?_⟩
  have heq := applyClauses_eq tags spec av ((store req.key).getD (keyAttributes req.key))
  refine ⟨fun name hname => ?_, fun name hname => ?_, hstamped, fun name hset hauto hrem => ?_⟩
  · rw [heq, if_neg fun hrem => hconflict ⟨name, hrem, hname⟩, if_pos (mem_setNames.mpr hname)]
  · rw [heq, if_pos hname]
  · rw [heq, if_neg hrem, if_neg fun hmem => (mem_setNames.mp hmem).elim hset hauto]

end Sent

/-- A type with a derived field. -/
def mailType : StructType where
  name := bytes "Mail"
  fields :=
    [{ name := bytes "Owner", type := .string, dynamo := bytes "pk,prefix=O:",
       dynamodbav := bytes "-" },
      { name := bytes "ID", type := .string, dynamo := bytes "sk,prefix=M:",
        dynamodbav := bytes "-" },
      { name := bytes "Title", type := .string },
      { name := bytes "Unread", type := .string, dynamodbav := bytes "Unread,omitempty" },
      { name := bytes "UpdatedAt", type := .other timeType, dynamo := bytes "auto_update" }]

/-- What its tags say. -/
def mailTags : StructMeta where
  pkField := ⟨0, [], .pk, some ⟨[.literal (bytes "O:"), .field 0]⟩, false, false⟩
  skField := ⟨1, [], .sk, some ⟨[.literal (bytes "M:"), .field 1]⟩, false, false⟩
  autoFields := [⟨4, bytes "UpdatedAt", .none, none, false, true⟩]
  derivedFields := []

theorem newTable_mail : newTable (.struct 0 mailType) = .ok mailTags := by
  decide +kernel

/-- A mail. -/
def mail (unread : String) : Item mailType Int where
  value
    | 0 => .string (bytes "ann")
    | 1 => .string (bytes "1")
    | 2 => .string (bytes "Lunch")
    | 3 => .string (bytes unread)
    | _ => .other timeType 3
  typed := by
    rintro (_ | _ | _ | _ | _ | i) f h <;> cases h <;> rfl

/-- Other values are times. -/
def clockReflect : Reflect Int where
  isZero _ x := x = 0
  holdsTimestamp _ _ := false
  ofString _ _ := 0
  ofTime _ now := now
  ofTimestamp _ now := now

/-- They have no text. -/
def clockText : TextMethods Int where
  marshalText _ _ := .error (.other "no text")
  unmarshalText _ _ := .error (.other "no text")
  sprint _ _ := []

/-- A string as an attribute. -/
def stringAttribute (h : Handle Int) : GoString :=
  match h.value with
  | .string s => s
  | _ => []

/-- A time as an attribute. -/
def timeAttribute (h : Handle Int) : GoString :=
  match h.value with
  | .other _ x => List.replicate x.toNat 73
  | _ => []

/-- An SDK that takes its expressions as they are; a condition `false` does not build. -/
def mailSdk :
    WriteSdk Int Bool (List (GoString × AttributeValue) × List GoString) where
  marshalMap v :=
    let m := GoMap.empty.insert (bytes "Title") (.s (stringAttribute (v 2)))
    let m := if (stringAttribute (v 3)).isEmpty then m
      else m.insert (bytes "Unread") (.s (stringAttribute (v 3)))
    .ok (m.insert (bytes "UpdatedAt") (.s (timeAttribute (v 4))))
  build sets removes cond :=
    match cond with
    | some false => .error (.other "unset operand")
    | _ => .ok (sets, removes)

/-- A server that applies what it is sent. -/
def mailServer : Server (List (GoString × AttributeValue) × List GoString) Unit where
  updateItem inp store :=
    (.ok (), Function.update store inp.key (some (applyClauses inp.expr.1 inp.expr.2
      ((store inp.key).getD (keyAttributes inp.key)))))

theorem mailServer_applies : mailSdk.Applies mailServer := by
  refine ⟨fun sets removes cond expr tableName key store store' _ _ hbuild hserve => ?_⟩
  simp only [mailSdk] at hbuild
  split at hbuild
  · cases hbuild
  · cases hbuild
    cases hserve
    rfl

theorem mail_kinds : clockReflect.Kinds mailType := by
  have hall : ∀ f ∈ mailType.fields, f.type = .string ∨ f.type = .other timeType := by decide
  intro f hf d hd hkind
  rcases hall f hf with h | h
  · cases h.symm.trans hd
  · cases h.symm.trans hd
    cases hkind

theorem mail_unchanged :
    ∃ v' err, buildUpdate clockReflect clockText mailSdk 0 mailTags ⟨[], [], some false⟩ 3
        ((mail "1").handles 0) = (v', .error err) ∧ v' = (mail "1").handles 0 := by
  have hbuild : buildUpdate clockReflect clockText mailSdk 0 mailTags ⟨[], [], some false⟩ 3
      ((mail "1").handles 0) = (_, .error (errInternal.withInner (.other "unset operand"))) := rfl
  have hstamped : Stamped clockReflect mailTags 3 ((mail "1").handles 0) := by
    intro fm hfm _
    cases List.mem_singleton.mp hfm
    rfl
  exact ⟨_, _, hbuild, (buildUpdate_error_iff newTable_mail mail_kinds (mail "1") hbuild).mpr
    (.inr ⟨hstamped, trivial⟩)⟩

/-- A failed update has set a timestamp. -/
theorem mail_changed :
    ∃ v' err, buildUpdate clockReflect clockText mailSdk 0 mailTags ⟨[], [], some false⟩ 5
        ((mail "1").handles 0) = (v', .error err) ∧
      ((mail "1").handles 0 4).value = .other timeType 3 ∧ (v' 4).value = .other timeType 5 :=
  ⟨_, _, rfl, rfl, rfl⟩

/-- The mail it stores. -/
def mailStore : Store := fun key =>
  if key = (bytes "O:ann", bytes "M:1") then
    some fun name =>
      if name = bytes "Title" then some (.s (bytes "Dinner"))
      else if name = bytes "Unread" then some (.s (bytes "1"))
      else none
  else none

theorem mail_plain (name : GoString) (h : name ∈ [bytes "Title"] ∨ AutoName mailTags name ∨
    name ∈ [bytes "Unread"]) : PlainName name := by
  rcases h with h | ⟨fm, hfm, -, -, rfl⟩ | h
  · cases List.mem_singleton.mp h
    exact ⟨by decide, by decide⟩
  · cases List.mem_singleton.mp hfm
    exact ⟨by decide, by decide⟩
  · cases List.mem_singleton.mp h
    exact ⟨by decide, by decide⟩

theorem mail_updated :
    ∃ key av new,
      mailSdk.marshalMap (updateWith clockReflect clockText mailSdk mailServer 0 mailTags
        (bytes "mails") ⟨[bytes "Title"], [bytes "Unread"], none⟩ 5 ((mail "1").handles 0)
        mailStore).item = .ok av ∧
      (updateWith clockReflect clockText mailSdk mailServer 0 mailTags
        (bytes "mails") ⟨[bytes "Title"], [bytes "Unread"], none⟩ 5 ((mail "1").handles 0)
        mailStore).store = Function.update mailStore key (some new) ∧
      new (bytes "Title") = (av.get (bytes "Title")).or
        ((mailStore key).getD (keyAttributes key) (bytes "Title")) ∧
      new (bytes "Unread") = none := by
  obtain ⟨key, av, new, -, hav, hstore, heffect⟩ := updateWith_effect newTable_mail mail_kinds
    mailServer_applies (mail "1") (bytes "mails") ⟨[bytes "Title"], [bytes "Unread"], none⟩
    mail_plain 5 mailStore rfl rfl rfl
  exact ⟨key, av, new, hav, hstore, heffect.written _ (.inl List.mem_cons_self),
    heffect.removed _ List.mem_cons_self⟩

/-- The flag is cleared and named in the update, which succeeds, and stays set in the store. -/
theorem mail_stays_unread :
    ∃ r, updateWith clockReflect clockText mailSdk mailServer 0 mailTags (bytes "mails")
        ⟨[bytes "Unread"], [], none⟩ 5 ((mail "").handles 0) mailStore = r ∧
      r.sent = true ∧ r.result = .ok none ∧
      (∃ av, mailSdk.marshalMap r.item = .ok av ∧ av.get (bytes "Unread") = none) ∧
      ∃ new, r.store (bytes "O:ann", bytes "M:1") = some new ∧
        new (bytes "Unread") = some (.s (bytes "1")) :=
  ⟨_, rfl, rfl, rfl, ⟨_, rfl, rfl⟩, _, rfl, rfl⟩

end Microjet.Dynamo
