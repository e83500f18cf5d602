import Microjet.Proofs.DerivedStable

/-!
# What `New` lets through and a write or read panics on

A pattern may refer to an unexported field; an `auto_create` or `auto_update` field may be of a
type that takes no time; a key field may have text methods that panic; a pointer type is
accepted for the struct behind it. Nothing else is missing (`new_panics_iff`).
-/

namespace Microjet.Dynamo

open Errorx

/-! ## The condition -/

def FieldType.marshalPanics : FieldType → Bool
  | .string => false
  | .uuid => false
  | .other d => d.marshalPanics

def FieldType.unmarshalPanics : FieldType → Bool
  | .string => false
  | .uuid => false
  | .other d => d.unmarshalPanics

/-- A time can be put in a field of the type. -/
def FieldType.takesTime : FieldType → Bool
  | .string => false
  | .uuid => false
  | .other d => d.timestamp || d.acceptsTime

/-- Reflection can read the field and the field can write itself. -/
def readable (pointers : Nat) (t : StructType) (i : Nat) : Bool :=
  match t.fields[i]? with
  | none => false
  | some f => pointers == 0 && f.exported && !f.type.marshalPanics

/-- A time can be assigned to the field. -/
def stampable (pointers : Nat) (t : StructType) (i : Nat) : Bool :=
  match t.fields[i]? with
  | none => false
  | some f => pointers == 0 && f.type.takesTime

/-- The field can be set from a text. -/
def settable (t : StructType) (i : Nat) : Bool :=
  t.fields[i]?.all fun f => !f.type.unmarshalPanics

def StructType.isUuid (t : StructType) (i : Nat) : Bool :=
  t.fields[i]?.any fun f => f.type == .uuid

/-- The fields that `decode` gets to on some key: nothing behind a uuid that is given no text. -/
def reached (t : StructType) : Bool → List KeySegment → List Nat
  | _, [] => []
  | _, .literal _ :: segs => reached t false segs
  | behind, .field i :: segs =>
    i :: if behind && t.isUuid i then [] else reached t true segs

def FieldMeta.reached (fm : FieldMeta) (t : StructType) : List Nat :=
  match fm.format with
  | none => []
  | some kf => Dynamo.reached t false kf.segments

/-- The checks that `New` would have to make. -/
structure Checked (pointers : Nat) (t : StructType) (tags : StructMeta) : Prop where
  keys : ∀ i ∈ tags.pkField.refs ++ tags.skField.refs, readable pointers t i = true
  read : ∀ i ∈ tags.pkField.reached t ++ tags.skField.reached t, settable t i = true
  derived : ∀ fm ∈ tags.derivedFields, pointers = 0 ∧ ∀ i ∈ fm.refs, readable pointers t i = true
  auto : ∀ fm ∈ tags.autoFields, stampable pointers t fm.structIndex = true

/-- The text methods panic on types of which it is known only. -/
structure TextMethods.Returns {ν : Type} (text : TextMethods ν) : Prop where
  marshal : ∀ d x, text.marshalText d x = .panic → d.marshalPanics = true
  unmarshal : ∀ d s, text.unmarshalText d s = .panic → d.unmarshalPanics = true

/-- None of the steps of Put, Update and Get panics. -/
structure StepsReturn {ν φ ε : Type} (refl : Reflect ν) (text : TextMethods ν)
    (sdk : WriteSdk ν φ ε) (pointers : Nat) (tags : StructMeta) (v : Nat → Handle ν) : Prop where
  put : ∀ now, (marshalItem refl text sdk pointers tags now v).2 ≠ .panic
  update : ∀ spec now, (buildUpdate refl text sdk pointers tags spec now v).2 ≠ .panic
  key : buildKey text tags v ≠ .panic
  inject : ∀ pk sk, injectKeys text tags pk sk v ≠ .panic

/-! ## The condition is enough -/

/-- The item is of the type. -/
structure Shape {ν : Type} (pointers : Nat) (t : StructType) (v : Nat → Handle ν) : Prop where
  accessible : ∀ i, (v i).accessible = (pointers == 0 && t.exported i)
  typed : ∀ i f, t.fields[i]? = some f → (v i).value.type = f.type

section Steps

variable {ν : Type} {refl : Reflect ν} {text : TextMethods ν} {pointers : Nat} {t : StructType}
  {v : Nat → Handle ν}

variable (pointers) in
theorem Item.shape (item : Item t ν) : Shape pointers t (item.handles pointers) :=
  ⟨fun _ => rfl, item.typed⟩

variable {h : Handle ν} {i : Nat}

theorem Shape.update (hv : Shape pointers t v) (hacc : h.accessible = (v i).accessible)
    (htype : h.value.type = (v i).value.type) :
    Shape pointers t (Function.update v i h) := by
  constructor
  · intro j
    by_cases hj : j = i
    · rw [hj, Function.update_self, hacc]
      exact hv.accessible i
    · rw [Function.update_of_ne hj]
      exact hv.accessible j
  · intro j f hf
    by_cases hj : j = i
    · subst hj
      rw [Function.update_self, htype]
      exact hv.typed j f hf
    · rw [Function.update_of_ne hj]
      exact hv.typed j f hf

/-- `Interface` and `MarshalText` return. -/
def Handle.Readable (h : Handle ν) : Prop :=
  h.accessible = true ∧ h.value.type.marshalPanics = false

theorem readable_iff (hv : Shape pointers t v) {f : StructField} (hf : t.fields[i]? = some f) :
    readable pointers t i = true ↔ (v i).Readable := by
  rw [Handle.Readable, hv.accessible, hv.typed i f hf, readable, StructType.exported, hf]
  simp [and_assoc]

theorem readable_handle (hv : Shape pointers t v) (h : readable pointers t i = true) :
    (v i).Readable := by
  cases hf : t.fields[i]? with
  | none =>
    rw [readable, hf] at h
    cases h
  | some f => exact (readable_iff hv hf).mp h

theorem safe_fieldToString (hret : text.Returns) (hr : h.Readable) :
    (fieldToString text h).Safe fun _ => True := by
  obtain ⟨hacc, hpanics⟩ := hr
  rw [fieldToString, hacc]
  cases hvalue : h.value with
  | string s => trivial
  | uuid u => trivial
  | other d x =>
    rw [hvalue] at hpanics
    simp only [Bool.not_true, Bool.false_eq_true, if_false]
    split
    · unfold marshalText
      split
      · trivial
      · trivial
      · next hpanic =>
          have hd : d.marshalPanics = false := hpanics
          rw [hret.marshal d x hpanic] at hd
          cases hd
    · trivial

variable {segs : List KeySegment}

theorem safe_encodeSegments (hret : text.Returns)
    (h : ∀ i ∈ refs segs, (v i).Readable) : (encodeSegments text v segs).Safe fun _ => True := by
  induction segs with
  | nil => trivial
  | cons seg segs ih =>
    cases seg with
    | literal s => exact (ih h).bind fun _ _ => trivial
    | field i =>
      rw [refs_field] at h
      have hrest := ih fun j hj => h j (List.mem_cons_of_mem i hj)
      exact (safe_fieldToString hret (h i List.mem_cons_self)).bind fun _ _ =>
        hrest.bind fun _ _ => trivial

theorem safe_setFieldFromString (hret : text.Returns) (hacc : h.accessible = true)
    (hset : h.value.type.unmarshalPanics = false) (s : GoString) :
    (setFieldFromString text h s).Safe fun h' =>
      h'.accessible = h.accessible ∧ h'.value.type = h.value.type := by
  obtain ⟨acc, value⟩ := h
  cases hacc
  cases value with
  | uuid u =>
    simp only [setFieldFromString, Bool.not_true, Bool.false_eq_true, if_false]
    split
    · trivial
    · exact ⟨rfl, rfl⟩
  | string s' => exact ⟨rfl, rfl⟩
  | other d x =>
    simp only [setFieldFromString, Bool.not_true, Bool.false_eq_true, if_false]
    split
    · trivial
    · split
      · trivial
      · exact ⟨rfl, rfl⟩
      · next hpanic =>
          have hd : d.unmarshalPanics = false := hset
          rw [hret.unmarshal d s hpanic] at hd
          cases hd

/-- What is left of a key after a field was cut off in front of `segs`. -/
def CutOff (segs : List KeySegment) (remaining : GoString) : Prop :=
  nextLiteral segs <+: remaining ∧ (nextLiteral segs = [] → remaining = [])

/-- `decode` at a field: a text is cut off and the rest is read, unless the separator is
missing. -/
theorem decodeSegments_cut (text : TextMethods ν) (raw : GoString) (segs : List KeySegment)
    (remaining : GoString) (v : Nat → Handle ν) (i : Nat) :
    (∃ err, decodeSegments text raw (.field i :: segs) remaining v = .error err) ∨
      ∃ s rest, decodeSegments text raw (.field i :: segs) remaining v =
          (setFieldFromString text (v i) s >>= fun h' =>
            decodeSegments text raw segs rest (Function.update v i h')) ∧
        CutOff segs rest ∧ (CutOff segs remaining → s = []) := by
  rw [decodeSegments]
  by_cases hnext : nextLiteral segs = []
  · rw [if_neg (not_not_intro hnext)]
    exact .inr ⟨remaining, [], rfl, ⟨hnext ▸ List.nil_prefix, fun _ => rfl⟩,
      fun hbehind => hbehind.2 hnext⟩
  · rw [if_pos hnext]
    cases hidx : Search.indexOf (nextLiteral segs) remaining with
    | none => exact .inl ⟨_, rfl⟩
    | some idx =>
      obtain ⟨-, hpre, hfirst⟩ := Search.indexOf_eq_some_iff.mp hidx
      refine .inr ⟨_, _, rfl, ⟨hpre, fun hnil => absurd hnil hnext⟩, fun hbehind => ?_⟩
      have hzero : idx = 0 := by
        by_contra hne
        exact hfirst 0 (Nat.pos_of_ne_zero hne) hbehind.1
      rw [hzero, List.take_zero]

theorem isUuid_handle (hv : Shape pointers t v) (h : t.isUuid i = true) :
    (v i).value.type = .uuid := by
  cases hf : t.fields[i]? with
  | none =>
    rw [StructType.isUuid, hf] at h
    cases h
  | some f =>
    rw [StructType.isUuid, hf] at h
    rw [hv.typed i f hf]
    exact beq_iff_eq.mp h

theorem settable_handle (hv : Shape pointers t v) {f : StructField} (hf : t.fields[i]? = some f) :
    settable t i = true ↔ (v i).value.type.unmarshalPanics = false := by
  rw [hv.typed i f hf, settable, hf]
  simp

variable (text) in
/-- No uuid is read from the empty text. -/
theorem setFieldFromString_nil (htype : h.value.type = .uuid) (hacc : h.accessible = true) :
    ∃ err, setFieldFromString text h [] = .error err := by
  obtain ⟨acc, value⟩ := h
  cases hacc
  cases value with
  | string s => cases htype
  | uuid u => exact ⟨_, rfl⟩
  | other d x => cases htype

theorem safe_decodeSegments (hret : text.Returns) {raw : GoString}
    (behind : Bool) {remaining : GoString} (hv : Shape pointers t v)
    (hbehind : behind = true → CutOff segs remaining)
    (h : ∀ i ∈ refs segs, readable pointers t i = true)
    (hset : ∀ i ∈ reached t behind segs, settable t i = true) :
    (decodeSegments text raw segs remaining v).Safe (Shape pointers t) := by
  induction segs generalizing behind remaining v with
  | nil => exact hv
  | cons seg segs ih =>
    cases seg with
    | literal s =>
      rw [decodeSegments]
      split
      · exact ih false hv (by simp) h hset
      · trivial
    | field i =>
      rw [refs_field] at h
      rw [reached] at hset
      have hread := h i List.mem_cons_self
      have hacc := (readable_handle hv hread).1
      rcases decodeSegments_cut text raw segs remaining v i with
        ⟨err, herr⟩ | ⟨s, rest, heq, hrest, hnil⟩
      · rw [herr]
        trivial
      rw [heq]
      split at hset
      · next huuid =>
          rw [Bool.and_eq_true] at huuid
          rw [hnil (hbehind huuid.1)]
          obtain ⟨err, herr⟩ := setFieldFromString_nil text (isUuid_handle hv huuid.2) hacc
          rw [herr]
          trivial
      · cases hf : t.fields[i]? with
        | none =>
          rw [readable, hf] at hread
          cases hread
        | some f =>
          have hpanics := (settable_handle hv hf).mp (hset i List.mem_cons_self)
          refine (safe_setFieldFromString hret hacc hpanics s).bind fun h' hh' => ?_
          exact ih true (hv.update hh'.1 hh'.2) (fun _ => hrest)
            (fun j hj => h j (List.mem_cons_of_mem i hj))
            fun j hj => hset j (List.mem_cons_of_mem i hj)

variable {fm : FieldMeta} {kf : KeyFormat}

theorem safe_encode (hret : text.Returns) (hv : Shape pointers t v) (hkf : fm.format = some kf)
    (h : ∀ i ∈ fm.refs, readable pointers t i = true) : (fm.encode text v).Safe fun _ => True := by
  rw [FieldMeta.refs, hkf] at h
  rw [FieldMeta.encode, hkf]
  exact safe_encodeSegments hret fun i hi => readable_handle hv (h i hi)

theorem safe_stampField {isUpdate : Bool} {now : Int} (hfm : AutoOk t fm) (hv : Shape pointers t v)
    (h : stampable pointers t fm.structIndex = true) :
    (stampField refl pointers isUpdate now v fm).Safe (Shape pointers t) := by
  obtain ⟨f, hf, hexp⟩ := hfm.field
  rw [stampable, hf, Bool.and_eq_true, beq_iff_eq] at h
  obtain ⟨rfl, htime⟩ := h
  have hacc : (v fm.structIndex).accessible = true := by
    rw [hv.accessible, StructType.exported, hf]
    simp [hexp]
  have hset : ((v fm.structIndex).setTime refl now).Safe fun h' =>
      h'.accessible = (v fm.structIndex).accessible ∧
        h'.value.type = (v fm.structIndex).value.type := by
    rw [← hv.typed _ f hf] at htime
    rw [Handle.setTime, hacc]
    cases hvalue : (v fm.structIndex).value with
    | string s => rw [hvalue] at htime; cases htime
    | uuid u => rw [hvalue] at htime; cases htime
    | other d x =>
      rw [hvalue] at htime
      simp only [Bool.not_true, Bool.false_eq_true, if_false]
      split
      · exact ⟨rfl, rfl⟩
      · next hno =>
          rw [Bool.or_eq_true, not_or] at hno
          have hd : (d.timestamp || d.acceptsTime) = true := htime
          rw [Bool.or_eq_true] at hd
          rw [if_pos (hd.resolve_left hno.1)]
          exact ⟨rfl, rfl⟩
  simp only [stampField, fieldOf, ne_eq, not_true_eq_false, if_false, Out.ok_bind, hacc,
    Bool.not_true, Bool.false_eq_true]
  split
  · exact hset.bind fun h' hh' => hv.update hh'.1 hh'.2
  · exact hv

variable {fms : List FieldMeta}

variable (refl) in
theorem safe_applyTimestamps (isUpdate : Bool) (now : Int)
    (hok : ∀ fm ∈ fms, AutoOk t fm) (hv : Shape pointers t v)
    (h : ∀ fm ∈ fms, stampable pointers t fm.structIndex = true) :
    (applyTimestamps refl pointers isUpdate now fms v).Safe (Shape pointers t) := by
  induction fms generalizing v with
  | nil => exact hv
  | cons fm fms ih =>
    refine (safe_stampField (hok fm List.mem_cons_self) hv (h fm List.mem_cons_self)).bind ?_
    intro v' hv'
    exact ih (fun fm' hfm' => hok fm' (List.mem_cons_of_mem fm hfm')) hv'
      fun fm' hfm' => h fm' (List.mem_cons_of_mem fm hfm')

variable (refl) in
theorem setString_ok (hacc : h.accessible = true) (hkind : h.value.type.isStringKind = true)
    (s : GoString) :
    ∃ h', h.setString refl s = .ok h' := by
  rw [Handle.setString, hacc]
  cases hvalue : h.value with
  | string s' => exact ⟨_, rfl⟩
  | uuid u => rw [hvalue] at hkind; cases hkind
  | other d x =>
    rw [hvalue] at hkind
    have hd : d.stringKind = true := hkind
    simp [hd]

variable (refl text) in
theorem deriveField_eq (hfm : DerivedOk t fm kf) (hv : Shape 0 t v) :
    ∃ set : GoString → Nat → Handle ν, (∀ s, Shape 0 t (set s)) ∧
      deriveField refl text 0 v fm = (fm.encode text v >>= fun s => .ok (set s)) := by
  obtain ⟨f, hf, -, hkind⟩ := hfm.field
  rw [← hv.typed _ f hf] at hkind
  have hacc : (v fm.structIndex).accessible = true := by
    rw [hv.accessible, hfm.exported]
    rfl
  choose h' hh' using setString_ok refl hacc hkind
  refine ⟨fun s => Function.update v fm.structIndex (h' s), fun s => ?_, ?_⟩
  · obtain ⟨hacc', htype', -⟩ := setString_eq_ok (hh' s)
    exact hv.update hacc' htype'
  · simp only [deriveField, fieldOf, ne_eq, not_true_eq_false, if_false, Out.ok_bind, hacc,
      Bool.not_true, Bool.false_eq_true, hh']
    rfl

variable (refl) in
theorem safe_deriveField (hret : text.Returns) (hfm : DerivedOk t fm kf) (hv : Shape pointers t v)
    (h : pointers = 0 ∧ ∀ i ∈ fm.refs, readable pointers t i = true) :
    (deriveField refl text pointers v fm).Safe (Shape pointers t) := by
  obtain ⟨rfl, hrefs⟩ := h
  obtain ⟨set, hset, heq⟩ := deriveField_eq refl text hfm hv
  rw [heq]
  exact (safe_encode hret hv hfm.format hrefs).bind fun s _ => hset s

variable (refl) in
theorem safe_applyDerived (hret : text.Returns)
    (hok : ∀ fm ∈ fms, ∃ kf, DerivedOk t fm kf) (hv : Shape pointers t v)
    (h : ∀ fm ∈ fms, pointers = 0 ∧ ∀ i ∈ fm.refs, readable pointers t i = true) :
    Shape pointers t (applyDerived refl text pointers fms v).1 ∧
      (applyDerived refl text pointers fms v).2 ≠ .panic := by
  induction fms generalizing v with
  | nil => exact ⟨hv, Out.Safe.ne_panic (Q := fun _ => True) trivial⟩
  | cons fm fms ih =>
    obtain ⟨kf, hkf⟩ := hok fm List.mem_cons_self
    have hfm := safe_deriveField refl hret hkf hv (h fm List.mem_cons_self)
    rw [applyDerived]
    cases hd : deriveField refl text pointers v fm with
    | ok v' =>
      rw [hd] at hfm
      exact ih (fun fm' hfm' => hok fm' (List.mem_cons_of_mem fm hfm')) hfm
        fun fm' hfm' => h fm' (List.mem_cons_of_mem fm hfm')
    | error err => exact ⟨hv, Out.Safe.ne_panic (Q := fun _ => True) trivial⟩
    | panic =>
      rw [hd] at hfm
      exact hfm.elim

variable {tags : StructMeta}

/-- No step panics. -/
structure Fit (pointers : Nat) (t : StructType) (tags : StructMeta) : Prop
    extends Checked pointers t tags where
  pk : ∃ kf, tags.pkField.format = some kf
  sk : ∃ kf, tags.skField.format = some kf
  derivedOk : ∀ fm ∈ tags.derivedFields, ∃ kf, DerivedOk t fm kf
  autoOk : ∀ fm ∈ tags.autoFields, AutoOk t fm

theorem safe_buildKey (hret : text.Returns) (hfit : Fit pointers t tags)
    (hv : Shape pointers t v) : (buildKey text tags v).Safe fun _ => True := by
  obtain ⟨pk, hpk⟩ := hfit.pk
  obtain ⟨sk, hsk⟩ := hfit.sk
  have hpkSafe := safe_encode hret hv hpk fun i hi => hfit.keys i (List.mem_append_left _ hi)
  have hskSafe := safe_encode hret hv hsk fun i hi => hfit.keys i (List.mem_append_right _ hi)
  exact hpkSafe.mapError.bind fun _ _ => hskSafe.mapError.bind fun _ _ => trivial

theorem safe_injectKey (hret : text.Returns) (hkf : fm.format = some kf)
    (hv : Shape pointers t v) (h : ∀ i ∈ fm.refs, readable pointers t i = true)
    (hset : ∀ i ∈ fm.reached t, settable t i = true) (attr : Option (Except Err GoString)) :
    (injectKey text fm attr v).Safe (Shape pointers t) := by
  rw [FieldMeta.refs, hkf] at h
  rw [FieldMeta.reached, hkf] at hset
  rcases attr with _ | err | raw
  · exact hv
  · trivial
  · rw [injectKey, FieldMeta.decode, hkf]
    exact (safe_decodeSegments hret false hv (by simp) h hset).mapError

theorem safe_injectKeys (hret : text.Returns) (hfit : Fit pointers t tags) (hv : Shape pointers t v)
    (pk sk : Option (Except Err GoString)) :
    (injectKeys text tags pk sk v).Safe (Shape pointers t) := by
  obtain ⟨pkf, hpk⟩ := hfit.pk
  obtain ⟨skf, hsk⟩ := hfit.sk
  refine (safe_injectKey hret hpk hv (fun i hi => hfit.keys i (List.mem_append_left _ hi))
    (fun i hi => hfit.read i (List.mem_append_left _ hi)) pk).bind fun v' hv' => ?_
  exact safe_injectKey hret hsk hv' (fun i hi => hfit.keys i (List.mem_append_right _ hi))
    (fun i hi => hfit.read i (List.mem_append_right _ hi)) sk

variable (refl) in
theorem safe_prepareWrite (hret : text.Returns) (hfit : Fit pointers t tags)
    (hv : Shape pointers t v) (isUpdate : Bool) (now : Int) :
    (prepareWrite refl text pointers tags isUpdate now v).2.Safe fun _ => True := by
  have hstamp := safe_applyTimestamps refl isUpdate now hfit.autoOk hv hfit.auto
  rw [prepareWrite]
  cases hs : applyTimestamps refl pointers isUpdate now tags.autoFields v with
  | error err => trivial
  | panic => rw [hs] at hstamp; exact hstamp
  | ok v₁ =>
    rw [hs] at hstamp
    obtain ⟨hv₂, hderive⟩ := safe_applyDerived refl hret hfit.derivedOk hstamp
      hfit.derived
    dsimp only
    cases hd : applyDerived refl text pointers tags.derivedFields v₁ with
    | mk v₂ out =>
      rw [hd] at hv₂ hderive
      cases out with
      | error err => trivial
      | panic => exact hderive rfl
      | ok _ => exact safe_buildKey hret hfit hv₂

theorem stepsReturn_of_fit {φ ε : Type} (sdk : WriteSdk ν φ ε) (hret : text.Returns)
    (hfit : Fit pointers t tags) (hv : Shape pointers t v) :
    StepsReturn refl text sdk pointers tags v := by
  constructor
  case put =>
    intro now
    refine Out.Safe.ne_panic (Q := fun _ => True) ?_
    refine (safe_prepareWrite refl hret hfit hv false now).bind fun key _ => ?_
    split <;> trivial
  case update =>
    intro spec now
    refine Out.Safe.ne_panic (Q := fun _ => True) ?_
    rw [buildUpdate]
    split
    · trivial
    · refine (safe_prepareWrite refl hret hfit hv true now).bind fun key _ => ?_
      split
      · trivial
      · dsimp only
        split
        · trivial
        · split <;> trivial
  case key => exact (safe_buildKey hret hfit hv).ne_panic
  case inject => exact fun pk sk => (safe_injectKeys hret hfit hv pk sk).ne_panic

end Steps

/-! ## The condition is needed

The zero item, with text methods that panic wherever they can and never return an error, goes
through all the steps of a write; each step that is reached and does not panic shows that its
check holds. For the reading steps a key is made up that `decode` reads as far as it can. -/

section Needed

/-- Methods that panic wherever they may. -/
def strictText : TextMethods Unit where
  marshalText d _ := if d.marshalPanics then .panic else .ok []
  unmarshalText d _ := if d.unmarshalPanics then .panic else .ok ()
  sprint _ _ := []

def strictReflect : Reflect Unit where
  isZero _ _ := true
  holdsTimestamp _ _ := false
  ofString _ _ := ()
  ofTime _ _ := ()
  ofTimestamp _ _ := ()

def strictSdk : WriteSdk Unit Unit Unit where
  marshalMap _ := .ok ⟨[], List.nodup_nil⟩
  build _ _ _ := .ok ()

def zeroItem (t : StructType) : Item t Unit where
  value i :=
    match t.fields[i]? with
    | none => .string []
    | some f =>
      match f.type with
      | .string => .string []
      | .uuid => .uuid nilUUID
      | .other d => .other d ()
  typed := by
    intro i f hf
    rw [hf]
    dsimp only
    split
    · next htype => exact htype.symm
    · next htype => exact htype.symm
    · next htype => exact htype.symm

theorem strictText_returns : strictText.Returns := by
  constructor
  · intro d x h
    by_contra hno
    simp [strictText, hno] at h
  · intro d s h
    by_contra hno
    simp [strictText, hno] at h

variable {pointers : Nat} {t : StructType} {v : Nat → Handle Unit}

def Zeroed (v : Nat → Handle Unit) : Prop := ∀ i, (v i).value.isZero strictReflect = true

theorem zeroItem_zeroed : Zeroed ((zeroItem t).handles pointers) := by
  intro i
  show Value.isZero strictReflect ((zeroItem t).value i) = true
  unfold zeroItem
  dsimp only
  split
  · rfl
  · split <;> rfl

theorem strict_fieldToString {h : Handle Unit}
    (hsup : supportedDerivedSourceType h.value.type = true)
    (hne : fieldToString strictText h ≠ .panic) :
    h.Readable ∧ ∃ s, fieldToString strictText h = .ok s := by
  obtain ⟨acc, value⟩ := h
  cases acc with
  | false => exact absurd rfl hne
  | true =>
    cases value with
    | string s => exact ⟨⟨rfl, rfl⟩, s, rfl⟩
    | uuid u => exact ⟨⟨rfl, rfl⟩, _, rfl⟩
    | other d x =>
      have hd : d.marshals = true := hsup
      simp only [fieldToString, Bool.not_true, Bool.false_eq_true, if_false, hd, if_true,
        marshalText, strictText] at hne ⊢
      cases hp : d.marshalPanics with
      | true => simp [hp] at hne
      | false => exact ⟨⟨rfl, hp⟩, [], by simp⟩

theorem strict_encodeSegments (hv : Shape pointers t v) {segs : List KeySegment}
    (hsup : ∀ i ∈ refs segs, ∃ f, t.fields[i]? = some f ∧
      supportedDerivedSourceType f.type = true)
    (hne : encodeSegments strictText v segs ≠ .panic) :
    (∃ s, encodeSegments strictText v segs = .ok s) ∧
      ∀ i ∈ refs segs, readable pointers t i = true := by
  induction segs with
  | nil => exact ⟨⟨[], rfl⟩, nofun⟩
  | cons seg segs ih =>
    cases seg with
    | literal s =>
      rw [encodeSegments] at hne ⊢
      obtain ⟨⟨s', hs'⟩, hrest⟩ := ih hsup fun hpanic => hne (by rw [hpanic]; rfl)
      exact ⟨⟨s ++ s', by rw [hs']; rfl⟩, hrest⟩
    | field i =>
      rw [refs_field] at hsup ⊢
      rw [encodeSegments] at hne ⊢
      obtain ⟨f, hf, hfsup⟩ := hsup i List.mem_cons_self
      obtain ⟨hread, s, hs⟩ := strict_fieldToString (hv.typed i f hf ▸ hfsup)
        fun hpanic => hne (by rw [hpanic]; rfl)
      rw [hs, Out.ok_bind] at hne ⊢
      obtain ⟨⟨s', hs'⟩, hrest⟩ := ih (fun j hj => hsup j (List.mem_cons_of_mem i hj))
        fun hpanic => hne (by rw [hpanic]; rfl)
      refine ⟨⟨s ++ s', by rw [hs']; rfl⟩, fun j hj => ?_⟩
      rcases List.mem_cons.mp hj with rfl | hj
      · exact (readable_iff hv hf).mpr hread
      · exact hrest j hj

variable {fm : FieldMeta}

variable {kf : KeyFormat}

theorem strict_encode (hv : Shape pointers t v) (hkf : fm.format = some kf)
    (hsup : ∀ i ∈ kf.refs, ∃ f, t.fields[i]? = some f ∧ supportedDerivedSourceType f.type = true)
    (hne : fm.encode strictText v ≠ .panic) :
    (∃ s, fm.encode strictText v = .ok s) ∧ ∀ i ∈ fm.refs, readable pointers t i = true := by
  rw [FieldMeta.refs, hkf]
  rw [FieldMeta.encode, hkf] at hne ⊢
  exact strict_encodeSegments hv hsup hne

theorem strict_setTime (now : Int) {h : Handle Unit}
    (hne : h.setTime strictReflect now ≠ .panic) :
    h.value.type.takesTime = true ∧ ∃ h', h.setTime strictReflect now = .ok h' ∧
      h'.accessible = h.accessible ∧ h'.value.type = h.value.type ∧
      h'.value.isZero strictReflect = true := by
  obtain ⟨acc, value⟩ := h
  cases acc with
  | false => exact absurd rfl hne
  | true =>
    cases value with
    | string s => exact absurd rfl hne
    | uuid u => exact absurd rfl hne
    | other d x =>
      simp only [Handle.setTime, Bool.not_true, Bool.false_eq_true, if_false, strictReflect,
        Bool.or_false] at hne ⊢
      show (d.timestamp || d.acceptsTime) = true ∧ _
      cases ht : d.timestamp with
      | true => exact ⟨rfl, _, rfl, rfl, rfl, rfl⟩
      | false =>
        cases ha : d.acceptsTime with
        | true => exact ⟨rfl, _, rfl, rfl, rfl, rfl⟩
        | false => simp [ht, ha] at hne

theorem strict_stampField {now : Int} (hfm : AutoOk t fm) (hv : Shape pointers t v) (hz : Zeroed v)
    (hne : stampField strictReflect pointers false now v fm ≠ .panic) :
    stampable pointers t fm.structIndex = true ∧
      ∃ v', stampField strictReflect pointers false now v fm = .ok v' ∧ Shape pointers t v' ∧
        Zeroed v' := by
  obtain ⟨f, hf, hexp⟩ := hfm.field
  by_cases hp : pointers = 0
  · subst hp
    have hacc : (v fm.structIndex).accessible = true := by
      rw [hv.accessible, StructType.exported, hf]
      simp [hexp]
    -- a zero value of an `auto_create` or `auto_update` field is set
    have hset : stampField strictReflect 0 false now v fm =
        ((v fm.structIndex).setTime strictReflect now >>= fun h =>
          .ok (Function.update v fm.structIndex h)) := by
      have hauto : (fm.autoCreate || fm.autoUpdate) = true := hfm.auto
      simp only [stampField, fieldOf, ne_eq, not_true_eq_false, if_false, Out.ok_bind, hacc,
        Bool.not_true, Bool.false_eq_true, Bool.not_false, hz fm.structIndex, Bool.and_true, hauto,
        if_true]
      rfl
    rw [hset] at hne ⊢
    obtain ⟨htake, h', hh', hacc', htype', hzero⟩ := strict_setTime now
      (h := v fm.structIndex) fun hpanic => hne (by rw [hpanic]; rfl)
    refine ⟨?_, _, by rw [hh']; rfl, hv.update hacc' htype', fun j => ?_⟩
    · rw [hv.typed _ f hf] at htake
      rw [stampable, hf]
      simpa using htake
    · by_cases hj : j = fm.structIndex
      · rw [hj, Function.update_self]
        exact hzero
      · rw [Function.update_of_ne hj]
        exact hz j
  · exact absurd (by simp [stampField, fieldOf, hp]) hne

variable {fms : List FieldMeta}

theorem strict_applyTimestamps {now : Int} (hok : ∀ fm ∈ fms, AutoOk t fm)
    (hv : Shape pointers t v) (hz : Zeroed v)
    (hne : applyTimestamps strictReflect pointers false now fms v ≠ .panic) :
    (∀ fm ∈ fms, stampable pointers t fm.structIndex = true) ∧
      ∃ v', applyTimestamps strictReflect pointers false now fms v = .ok v' ∧
        Shape pointers t v' := by
  induction fms generalizing v with
  | nil => exact ⟨nofun, v, rfl, hv⟩
  | cons fm fms ih =>
    rw [applyTimestamps] at hne ⊢
    obtain ⟨hfm, v₁, hv₁, hshape, hzero⟩ := strict_stampField (hok fm List.mem_cons_self) hv hz
      fun hpanic => hne (by rw [hpanic]; rfl)
    rw [hv₁, Out.ok_bind] at hne ⊢
    obtain ⟨hrest, hv'⟩ := ih (fun fm' hfm' => hok fm' (List.mem_cons_of_mem fm hfm')) hshape
      hzero hne
    refine ⟨fun fm' hfm' => ?_, hv'⟩
    rcases List.mem_cons.mp hfm' with rfl | hfm'
    · exact hfm
    · exact hrest fm' hfm'

theorem strict_deriveField (hfm : DerivedOk t fm kf) (hv : Shape pointers t v)
    (hne : deriveField strictReflect strictText pointers v fm ≠ .panic) :
    (pointers = 0 ∧ ∀ i ∈ fm.refs, readable pointers t i = true) ∧
      ∃ v', deriveField strictReflect strictText pointers v fm = .ok v' ∧ Shape pointers t v' := by
  by_cases hp : pointers = 0
  · subst hp
    obtain ⟨set, hset, heq⟩ := deriveField_eq strictReflect strictText hfm hv
    rw [heq] at hne ⊢
    obtain ⟨⟨s, hs⟩, hrefs⟩ := strict_encode hv hfm.format (fun i hi => (hfm.sources i hi).2)
      fun hpanic => hne (by rw [hpanic]; rfl)
    exact ⟨⟨rfl, hrefs⟩, set s, by rw [hs]; rfl, hset s⟩
  · exact absurd (by simp [deriveField, fieldOf, hp]) hne

theorem strict_applyDerived (hok : ∀ fm ∈ fms, ∃ kf, DerivedOk t fm kf) (hv : Shape pointers t v)
    (hne : (applyDerived strictReflect strictText pointers fms v).2 ≠ .panic) :
    (∀ fm ∈ fms, pointers = 0 ∧ ∀ i ∈ fm.refs, readable pointers t i = true) ∧
      ∃ v', applyDerived strictReflect strictText pointers fms v = (v', .ok ()) ∧
        Shape pointers t v' := by
  induction fms generalizing v with
  | nil => exact ⟨nofun, v, rfl, hv⟩
  | cons fm fms ih =>
    obtain ⟨kf, hkf⟩ := hok fm List.mem_cons_self
    rw [applyDerived] at hne ⊢
    obtain ⟨hfm, v₁, hv₁, hshape⟩ := strict_deriveField hkf hv
      fun hpanic => hne (by rw [hpanic])
    rw [hv₁] at hne ⊢
    obtain ⟨hrest, hv'⟩ := ih (fun fm' hfm' => hok fm' (List.mem_cons_of_mem fm hfm')) hshape hne
    refine ⟨fun fm' hfm' => ?_, hv'⟩
    rcases List.mem_cons.mp hfm' with rfl | hfm'
    · exact hfm
    · exact hrest fm' hfm'

theorem strict_buildKey {tags : StructMeta} (hv : Shape pointers t v) {pk sk : KeyFormat}
    (hpk : tags.pkField.format = some pk) (hsk : tags.skField.format = some sk)
    (hpkOk : Accepted t pk) (hskOk : Accepted t sk) (hne : buildKey strictText tags v ≠ .panic) :
    ∀ i ∈ tags.pkField.refs ++ tags.skField.refs, readable pointers t i = true := by
  have hsup : ∀ {kf : KeyFormat}, Accepted t kf → ∀ i ∈ kf.refs, ∃ f, t.fields[i]? = some f ∧
      supportedDerivedSourceType f.type = true := by
    intro kf hkf i hi
    obtain ⟨f, hf, hkey⟩ := hkf.fields i hi
    refine ⟨f, hf, ?_⟩
    cases htype : f.type with
    | string => rfl
    | uuid => rfl
    | other d =>
      rw [htype] at hkey
      exact (Bool.and_eq_true _ _ ▸ hkey : d.marshals = true ∧ d.unmarshals = true).1
  rw [buildKey] at hne
  obtain ⟨⟨s, hs⟩, hpkRefs⟩ := strict_encode hv hpk (hsup hpkOk)
    fun hpanic => hne (by rw [hpanic]; rfl)
  obtain ⟨-, hskRefs⟩ := strict_encode hv hsk (hsup hskOk)
    fun hpanic => hne (by rw [hs, hpanic]; rfl)
  intro i hi
  rcases List.mem_append.mp hi with hi | hi
  · exact hpkRefs i hi
  · exact hskRefs i hi

/-- 32 digits that `sep` does not start with: a uuid that can stand in front of `sep`. -/
def digits (sep : GoString) : GoString :=
  List.replicate 32 (if sep.head? = some 48 then 49 else 48)

theorem parseUUID_digits (sep : GoString) : ∃ u, parseUUID (digits sep) = .ok u := by
  unfold digits
  split
  · exact ⟨_, rfl⟩
  · exact ⟨_, rfl⟩

theorem digits_clear {sep : GoString} (hsep : sep ≠ []) : Search.Clear (digits sep) sep := by
  intro j hj hpre
  obtain ⟨c, cs, rfl⟩ := List.exists_cons_of_ne_nil hsep
  obtain ⟨tail, htail⟩ := hpre
  have hhead : some c = (digits (c :: cs))[j]? := by
    rw [← List.getElem?_append_left hj, ← List.head?_drop, ← htail]
    rfl
  rw [digits, List.length_replicate] at hj
  rw [digits, List.getElem?_replicate, if_pos hj, Option.some.injEq, List.head?_cons] at hhead
  split at hhead
  · next h48 =>
      rw [Option.some.injEq, hhead] at h48
      cases h48
  · next h48 => exact h48 (congrArg some hhead)

/-- The text made up for a field: a uuid where one can stand, and nothing elsewhere. -/
def fieldText (t : StructType) (behind : Bool) (i : Nat) (sep : GoString) : GoString :=
  if !behind && t.isUuid i then digits sep else []

/-- A text the pattern reads to its end. -/
def fill (t : StructType) : Bool → List KeySegment → GoString
  | _, [] => []
  | _, .literal s :: segs => s ++ fill t false segs
  | behind, .field i :: segs => fieldText t behind i (nextLiteral segs) ++ fill t true segs

section Fill

variable {segs : List KeySegment}

theorem fill_behind (hlit : ∀ s, KeySegment.literal s ∈ segs → s ≠ []) :
    CutOff segs (fill t true segs) := by
  induction segs with
  | nil => exact ⟨List.nil_prefix, fun _ => rfl⟩
  | cons seg segs ih =>
    cases seg with
    | literal s =>
      exact ⟨List.prefix_append _ _, fun hnil => absurd hnil (hlit s List.mem_cons_self)⟩
    | field i => exact ih fun s hs => hlit s (List.mem_cons_of_mem _ hs)

theorem decodeSegments_fill (hlit : ∀ s, KeySegment.literal s ∈ segs → s ≠ []) (raw : GoString)
    (behind : Bool) (i : Nat) :
    decodeSegments strictText raw (.field i :: segs) (fill t behind (.field i :: segs)) v =
      (setFieldFromString strictText (v i) (fieldText t behind i (nextLiteral segs)) >>= fun h =>
        decodeSegments strictText raw segs (fill t true segs) (Function.update v i h)) := by
  obtain ⟨⟨rest, hrest⟩, hnil⟩ : CutOff segs (fill t true segs) := fill_behind hlit
  rw [decodeSegments, fill]
  by_cases hnext : nextLiteral segs = []
  · rw [if_neg (not_not_intro hnext), hnil hnext, List.append_nil]
  · have hclear : Search.Clear (fieldText t behind i (nextLiteral segs)) (nextLiteral segs) := by
      unfold fieldText
      split
      · exact digits_clear hnext
      · exact fun j hj => absurd hj (Nat.not_lt_zero j)
    rw [if_pos hnext, ← hrest, Search.indexOf_append.mpr hclear]
    simp only [List.take_left, List.drop_left]

theorem strict_setFieldFromString {h : Handle Unit} {s : GoString}
    (hsup : supportedKeyFieldType h.value.type = true)
    (hne : setFieldFromString strictText h s ≠ .panic) :
    h.value.type.unmarshalPanics = false ∧
      ((h.value.type = .uuid → ∃ u, parseUUID s = .ok u) →
        ∃ h', setFieldFromString strictText h s = .ok h' ∧ h'.accessible = h.accessible ∧
          h'.value.type = h.value.type) := by
  obtain ⟨acc, value⟩ := h
  cases acc with
  | false => exact absurd rfl hne
  | true =>
    cases value with
    | string old => exact ⟨rfl, fun _ => ⟨_, rfl, rfl, rfl⟩⟩
    | uuid old =>
      refine ⟨rfl, fun hparse => ?_⟩
      obtain ⟨u, hu⟩ := hparse rfl
      refine ⟨⟨true, .uuid u⟩, ?_, rfl, rfl⟩
      simp [setFieldFromString, hu]
    | other d x =>
      have hd : d.unmarshals = true :=
        (Bool.and_eq_true _ _ ▸ hsup : d.marshals = true ∧ d.unmarshals = true).2
      simp only [setFieldFromString, Bool.not_true, Bool.false_eq_true, if_false, hd,
        strictText] at hne ⊢
      cases hp : d.unmarshalPanics with
      | true => simp [hp] at hne
      | false => exact ⟨hp, fun _ => ⟨⟨true, .other d ()⟩, by simp, rfl, rfl⟩⟩

theorem strict_decodeSegments (raw : GoString) {behind : Bool} (hv : Shape pointers t v)
    (hlit : ∀ s, KeySegment.literal s ∈ segs → s ≠ [])
    (hsup : ∀ i ∈ refs segs, ∃ f, t.fields[i]? = some f ∧ supportedKeyFieldType f.type = true)
    (hne : decodeSegments strictText raw segs (fill t behind segs) v ≠ .panic) :
    ∀ i ∈ reached t behind segs, settable t i = true := by
  induction segs generalizing behind v with
  | nil => exact nofun
  | cons seg segs ih =>
    have hlit' : ∀ s, KeySegment.literal s ∈ segs → s ≠ [] :=
      fun s hs => hlit s (List.mem_cons_of_mem _ hs)
    cases seg with
    | literal s =>
      rw [fill, decodeSegments_literal] at hne
      exact ih hv hlit' hsup hne
    | field i =>
      rw [refs_field] at hsup
      rw [decodeSegments_fill hlit'] at hne
      obtain ⟨f, hf, hfsup⟩ := hsup i List.mem_cons_self
      obtain ⟨hpanics, hok⟩ := strict_setFieldFromString (hv.typed i f hf ▸ hfsup)
        fun hpanic => hne (by rw [hpanic]; rfl)
      have hi : settable t i = true := (settable_handle hv hf).mpr hpanics
      rw [reached]
      split
      · intro j hj
        rw [List.mem_singleton.mp hj]
        exact hi
      · next huuid =>
          obtain ⟨h', hh', hacc, htype⟩ := hok fun hu => by
            have ht : t.isUuid i = true := by
              rw [StructType.isUuid, hf]
              exact beq_iff_eq.mpr (hv.typed i f hf ▸ hu)
            rw [ht, Bool.and_true] at huuid
            rw [fieldText, ht, Bool.eq_false_iff.mpr huuid]
            exact parseUUID_digits _
          rw [hh', Out.ok_bind] at hne
          intro j hj
          rcases List.mem_cons.mp hj with rfl | hj
          · exact hi
          · exact ih (hv.update hacc htype) hlit'
              (fun k hk => hsup k (List.mem_cons_of_mem i hk)) hne j hj

end Fill

theorem strict_injectKey (hv : Shape pointers t v) (hkf : fm.format = some kf) (hok : Accepted t kf)
    (hne : ∀ raw, injectKey strictText fm (some (.ok raw)) v ≠ .panic) :
    ∀ i ∈ fm.reached t, settable t i = true := by
  rw [FieldMeta.reached, hkf]
  refine strict_decodeSegments (fill t false kf.segments) hv hok.literals hok.fields
    fun hpanic => hne (fill t false kf.segments) ?_
  rw [injectKey, FieldMeta.decode, hkf]
  dsimp only
  rw [KeyFormat.decode, hpanic]
  rfl

end Needed

/-- No step of Put, Update and Get panics on an item of an accepted type exactly if `New` would
have accepted it with the checks that are missing. -/
theorem new_panics_iff {pointers : Nat} {t : StructType} {tags : StructMeta}
    (hnew : newTable (.struct pointers t) = .ok tags) :
    (∀ (ν φ ε : Type) (refl : Reflect ν) (text : TextMethods ν) (sdk : WriteSdk ν φ ε),
        text.Returns → ∀ item : Item t ν,
          StepsReturn refl text sdk pointers tags (item.handles pointers)) ↔
      Checked pointers t tags := by
  obtain ⟨pk, sk, hpk, hsk, hpkOk, hskOk⟩ := newTable_ok hnew
  obtain ⟨hderived, -, hauto, -⟩ := newTable_visited hnew
  constructor
  · intro hsteps
    have hzero := hsteps Unit Unit Unit strictReflect strictText strictSdk strictText_returns
      (zeroItem t)
    have hshape := Item.shape pointers (zeroItem t)
    have hprepare : (prepareWrite strictReflect strictText pointers tags false 0
        ((zeroItem t).handles pointers)).2 ≠ .panic := by
      intro hpanic
      refine hzero.put 0 ?_
      rw [marshalItem]
      dsimp only
      rw [hpanic]
      rfl
    rw [prepareWrite] at hprepare
    obtain ⟨hstamps, v₁, hv₁, hshape₁⟩ := strict_applyTimestamps hauto hshape
      zeroItem_zeroed fun hpanic => hprepare (by rw [hpanic])
    rw [hv₁] at hprepare
    dsimp only at hprepare
    have hderive : (applyDerived strictReflect strictText pointers tags.derivedFields v₁).2 ≠
        .panic := by
      intro hpanic
      refine hprepare ?_
      generalize applyDerived strictReflect strictText pointers tags.derivedFields v₁ = r
        at hpanic ⊢
      obtain ⟨v, out⟩ := r
      cases hpanic
      rfl
    obtain ⟨hderives, v₂, hv₂, hshape₂⟩ := strict_applyDerived hderived hshape₁ hderive
    rw [hv₂] at hprepare
    have hpkRead := strict_injectKey hshape hpk hpkOk fun raw hpanic =>
      hzero.inject (some (.ok raw)) none (by rw [injectKeys, hpanic]; rfl)
    have hskRead := strict_injectKey hshape hsk hskOk fun raw hpanic =>
      hzero.inject none (some (.ok raw)) (by rw [injectKeys, injectKey, Out.ok_bind, hpanic])
    refine ⟨strict_buildKey hshape₂ hpk hsk hpkOk hskOk hprepare, fun i hi => ?_, hderives,
      hstamps⟩
    exact (List.mem_append.mp hi).elim (hpkRead i) (hskRead i)
  · intro hchecked ν φ ε refl text sdk hret item
    exact stepsReturn_of_fit sdk hret
      ⟨hchecked, ⟨pk, hpk⟩, ⟨sk, hsk⟩, hderived, hauto⟩ (item.shape pointers)

def timeType : TypeDesc where
  name := bytes "time.Time"
  stringKind := false
  marshals := true
  unmarshals := true
  acceptsTime := true

def userType (key : String) (updatedAt : FieldType) : StructType where
  name := bytes "User"
  fields :=
    [{ name := bytes "TenantID", type := .uuid, dynamo := bytes key, dynamodbav := bytes "-" },
      { name := bytes "ID", type := .uuid, dynamo := bytes "sk,prefix=U:",
        dynamodbav := bytes "-" },
      { name := bytes "shard", type := .string, exported := false },
      { name := bytes "CreatedAt", type := .other timeType, dynamo := bytes "auto_create" },
      { name := bytes "UpdatedAt", type := updatedAt, dynamo := bytes "auto_update" }]

theorem user_returns :
    ∃ tags, newTable (.struct 0 (userType "pk,prefix=T:" (.other timeType))) = .ok tags ∧
      tags.autoFields.length = 2 ∧
      StepsReturn strictReflect strictText strictSdk 0 tags
        ((zeroItem (userType "pk,prefix=T:" (.other timeType))).handles 0) := by
  refine ⟨_, rfl, rfl, ?_⟩
  exact (new_panics_iff rfl).mpr ⟨by decide, by decide, by decide, by decide⟩ Unit Unit Unit
    strictReflect strictText strictSdk strictText_returns (zeroItem _)

/-- A struct around a `*big.Int`. -/
def numType : TypeDesc where
  name := bytes "Num"
  stringKind := false
  marshals := true
  unmarshals := true
  unmarshalPanics := true

def ledgerType : StructType where
  name := bytes "Ledger"
  fields :=
    [{ name := bytes "No", type := .other numType, dynamo := bytes "pk,prefix=N:",
        dynamodbav := bytes "-" },
      { name := bytes "ID", type := .uuid, dynamo := bytes "sk,prefix=L:",
        dynamodbav := bytes "-" }]

/-- `New` accepts a key built from an unexported field, a string to be set to the time, and a
pointer type, and Put panics on each; and a key field whose `UnmarshalText` panics. -/
theorem user_panics :
    (∃ tags, newTable (.struct 0 (userType "pk,format=T:\x7bshard\x7d" (.other timeType))) =
        .ok tags ∧
      (marshalItem strictReflect strictText strictSdk 0 tags 0
        ((zeroItem (userType "pk,format=T:\x7bshard\x7d" (.other timeType))).handles 0)).2 =
        .panic) ∧
    (∃ tags, newTable (.struct 0 (userType "pk,prefix=T:" .string)) = .ok tags ∧
      (marshalItem strictReflect strictText strictSdk 0 tags 0
        ((zeroItem (userType "pk,prefix=T:" .string)).handles 0)).2 = .panic) ∧
    (∃ tags, newTable (.struct 1 (userType "pk,prefix=T:" (.other timeType))) = .ok tags ∧
      (marshalItem strictReflect strictText strictSdk 1 tags 0
        ((zeroItem (userType "pk,prefix=T:" (.other timeType))).handles 1)).2 = .panic) ∧
    ∃ tags, newTable (.struct 0 ledgerType) = .ok tags ∧
      injectKeys strictText tags (some (.ok (bytes "N:7"))) none
        ((zeroItem ledgerType).handles 0) = .panic :=
  ⟨⟨_, rfl, rfl⟩, ⟨_, rfl, rfl⟩, ⟨_, rfl, rfl⟩, ⟨_, rfl, rfl⟩⟩

end Microjet.Dynamo
