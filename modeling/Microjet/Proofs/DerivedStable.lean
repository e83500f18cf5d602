import Microjet.Lib.Word
import Microjet.Proofs.DerivedRun

/-!
# When derived attributes do not drift

A pattern sees the old value of a derived field that is declared after its own, so the next
write computes another value, unless the later field gets back the text it had: its pattern is a
single placeholder that leads back to it, over copies (`origin`). That there is no other case is
shown with one item for all, whose fields hold variables.
-/

namespace Microjet.Dynamo

open Errorx

/-! ## The condition -/

/-- The fields its pattern refers to. -/
def FieldMeta.refs (fm : FieldMeta) : List Nat :=
  match fm.format with
  | none => []
  | some kf => kf.refs

/-- Field `i` is a `string`. -/
def StructType.isString (t : StructType) (i : Nat) : Bool :=
  match t.fields[i]? with
  | none => false
  | some f => f.type = .string

/-- Whose old text a pattern copies, when it is a single placeholder between strings. -/
def copied (t : StructType) (fm : FieldMeta) (o : Nat → Option Nat) : Option Nat :=
  match fm.format with
  | some ⟨[.field a]⟩ => if t.isString a && t.isString fm.structIndex then o a else none
  | _ => none

/-- Whose old text each field has in the end, as far as it is a copy of one. -/
def origin (t : StructType) (fms : List FieldMeta) : Nat → Option Nat :=
  Assign.runs FieldMeta.structIndex (copied t) fms some

/-- A field that is read before it is computed gets back what it had. -/
def KeepsLater (t : StructType) (fms : List FieldMeta) : Prop :=
  ∀ fm ∈ fms, ∀ later ∈ fms, fm.structIndex < later.structIndex →
    later.structIndex ∈ fm.refs → origin t fms later.structIndex = some later.structIndex

/-- The derived fields cannot drift, or cannot even be computed. -/
def NoDrift (pointers : Nat) (t : StructType) (fms : List FieldMeta) : Prop :=
  pointers = 0 → (∀ fm ∈ fms, ∀ i ∈ fm.refs, t.exported i = true) → KeepsLater t fms

instance (t : StructType) (fms : List FieldMeta) : Decidable (KeepsLater t fms) :=
  inferInstanceAs (Decidable (∀ fm ∈ fms, ∀ later ∈ fms, _ → _ → _))

instance (pointers : Nat) (t : StructType) (fms : List FieldMeta) :
    Decidable (NoDrift pointers t fms) :=
  inferInstanceAs (Decidable (_ → _ → _))

/-- Computing the derived fields once more changes nothing, and each is its pattern. -/
def Stable {ν : Type} (refl : Reflect ν) (text : TextMethods ν) (pointers : Nat)
    (fms : List FieldMeta) (v : Nat → Handle ν) : Prop :=
  applyDerived refl text pointers fms v = (v, .ok ()) ∧
    ∀ fm ∈ fms, ∃ s, fm.encode text v = .ok s ∧
      (v fm.structIndex).setString refl s = .ok (v fm.structIndex)

section Facts

variable {t : StructType} {fm : FieldMeta} {kf : KeyFormat}

theorem DerivedOk.refs_eq (h : DerivedOk t fm kf) : fm.refs = kf.refs := by
  rw [FieldMeta.refs, h.format]

theorem DerivedOk.exported (h : DerivedOk t fm kf) : t.exported fm.structIndex = true := by
  obtain ⟨f, hf, hexp, -⟩ := h.field
  rw [StructType.exported, hf]
  exact hexp

theorem isString_type {ν : Type} {item : Item t ν} {i : Nat} (h : t.isString i = true) :
    (item.value i).type = .string := by
  unfold StructType.isString at h
  split at h
  · cases h
  · next f hf => rw [item.typed i f hf, of_decide_eq_true h]

end Facts

/-! ## The condition is enough -/

section Enough

variable {ν : Type} {refl : Reflect ν} {text : TextMethods ν} {t : StructType}
  {fms : List FieldMeta}

theorem fieldToString_string {h : Handle ν} {x s : GoString} (hx : h.value = .string x)
    (hs : fieldToString text h = .ok s) : s = x := by
  rw [fieldToString, hx] at hs
  split at hs
  · cases hs
  · cases hs
    rfl

/-- The field holds the text of `o`, or its own. -/
structure Kept (v : Nat → Handle ν) (i : Nat) (h : Handle ν) (o : Option Nat) : Prop where
  accessible : h.accessible = (v i).accessible
  type : h.value.type = (v i).value.type
  value : ∀ a, o = some a → h.value = (v a).value

theorem Kept.eq {v : Nat → Handle ν} {i : Nat} {h : Handle ν} (hk : Kept v i h (some i)) :
    h = v i := by
  obtain ⟨acc, value⟩ := h
  have hacc : acc = (v i).accessible := hk.accessible
  have hvalue : value = (v i).value := hk.value i rfl
  rw [hacc, hvalue]

variable {item : Item t ν}

theorem Kept.derivedValue {fm : FieldMeta} {m : Nat → Handle ν}
    {o : Nat → Option Nat} {x : Handle ν} (hm : ∀ i, Kept (item.handles 0) i (m i) (o i))
    (hx : Dynamo.derivedValue refl text fm m = some x) :
    Kept (item.handles 0) fm.structIndex x (copied t fm o) := by
  obtain ⟨s, hs, hset⟩ := derivedValue_eq_some.mp hx
  obtain ⟨hacc, htype, hstring⟩ := setString_eq_ok hset
  refine ⟨hacc.trans (hm _).accessible, htype.trans (hm _).type, fun a ha => ?_⟩
  unfold copied at ha
  split at ha
  · next b hformat =>
      split at ha
      · next hstr =>
          rw [Bool.and_eq_true] at hstr
          -- a single placeholder between strings: the text of `b` is copied
          rw [FieldMeta.encode, hformat] at hs
          obtain ⟨s₁, hs₁, hrest⟩ := Out.bind_eq_ok.mp hs
          cases hrest
          have htb : (m b).value.type = .string := (hm b).type.trans (isString_type hstr.1)
          have hti : (m fm.structIndex).value.type = .string :=
            (hm _).type.trans (isString_type hstr.2)
          cases hmb : (m b).value with
          | string y =>
            obtain rfl := fieldToString_string hmb hs₁
            rw [hstring hti, List.append_nil, ← hmb]
            exact (hm b).value a ha
          | uuid u =>
            rw [hmb] at htb
            cases htb
          | other d y =>
            rw [hmb] at htb
            cases htb
      · cases ha
  · cases ha

variable {v' : Nat → Handle ν}

theorem kept_run
    (h : Assign.run FieldMeta.structIndex (derivedValue refl text) fms (item.handles 0) = some v')
    (i : Nat) : Kept (item.handles 0) i (v' i) (origin t fms i) := by
  have hstart : ∀ i, Kept (item.handles 0) i (item.handles 0 i) (some i) := by
    intro i
    refine ⟨rfl, rfl, fun a ha => ?_⟩
    cases ha
    rfl
  obtain ⟨o, ho, hkept⟩ := Assign.run_sim (fun fm o => some (copied t fm o))
    (fun fm _ m o x hm hx => ⟨_, rfl, Kept.derivedValue hm hx⟩) hstart h
  rw [Assign.run_eq_runs] at ho
  cases ho
  exact hkept i

theorem stable_of_keepsLater (hok : ∀ fm ∈ fms, ∃ kf, DerivedOk t fm kf)
    (hord : fms.Pairwise fun a b => a.structIndex < b.structIndex) (hkeeps : KeepsLater t fms)
    (h : Assign.run FieldMeta.structIndex (derivedValue refl text) fms (item.handles 0) = some v') :
    ∀ fm ∈ fms, derivedValue refl text fm v' = some (v' fm.structIndex) := by
  intro fm hfm
  obtain ⟨kf, hkf⟩ := hok fm hfm
  have hd : (fms.map FieldMeta.structIndex).Nodup :=
    List.pairwise_map.mpr (hord.imp fun hlt => Nat.ne_of_lt hlt)
  obtain ⟨pre, post, hsplit⟩ := List.append_of_mem hfm
  have hrun := h
  rw [hsplit] at hrun hd
  obtain ⟨m, -, hev, hold, hnew⟩ := Assign.run_at hrun hd
  obtain ⟨s, hs, hset⟩ := derivedValue_eq_some.mp hev
  -- every field that the pattern refers to is what it was when the pattern was computed
  have hrefs : ∀ j ∈ kf.refs, v' j = m j := by
    intro j hj
    by_cases hpost : j ∈ post.map FieldMeta.structIndex
    · obtain ⟨later, hlater, rfl⟩ := List.mem_map.mp hpost
      have hlt : fm.structIndex < later.structIndex := by
        rw [hsplit, List.pairwise_append] at hord
        exact (List.pairwise_cons.mp hord.2.1).1 later hlater
      have horigin := hkeeps fm hfm later
        (by rw [hsplit]; exact List.mem_append_right _ (List.mem_cons_of_mem _ hlater)) hlt
        (by rw [hkf.refs_eq]; exact hj)
      have hkept := kept_run h later.structIndex
      rw [horigin] at hkept
      rw [hold _ hpost, hkept.eq]
    · refine hnew j fun hmem => ?_
      rcases List.mem_cons.mp hmem with rfl | hmem
      · exact (hkf.sources _ hj).1 rfl
      · exact hpost hmem
  refine derivedValue_eq_some.mpr ⟨s, ?_, ?_⟩
  · rw [← hs, FieldMeta.encode, FieldMeta.encode, hkf.format]
    exact encodeSegments_congr hrefs
  · obtain ⟨hacc, htype, -⟩ := setString_eq_ok hset
    rw [setString_congr hacc htype, hset]

end Enough

/-! ## The condition is needed

The free item has a variable in every field, and text methods that mark what they write. -/

section Needed

open Word (Sym subst)

/-- A word in the variables. -/
abbrev Text := List (Sym UInt8 Nat)

/-- The UUID of zeros. -/
def nilUUID : UUID := ⟨List.replicate 16 0, rfl⟩

/-- The word of a field. -/
def textWord (t : StructType) (w : Nat → Text) (i : Nat) : Text :=
  match t.fields[i]? with
  | none => []
  | some f =>
    match f.type with
    | .string => w i
    | .uuid => nilUUID.string.map .letter
    | .other _ => .letter 99 :: w i

/-- The word of a segment. -/
def segWord (t : StructType) (w : Nat → Text) : KeySegment → Text
  | .literal s => s.map .letter
  | .field i => textWord t w i

/-- The word a pattern computes. -/
def patWord (t : StructType) (fm : FieldMeta) (w : Nat → Text) : Text :=
  match fm.format with
  | none => []
  | some kf => kf.segments.flatMap (segWord t w)

/-- The words after a write. -/
def finalWord (t : StructType) (fms : List FieldMeta) : Nat → Text :=
  Assign.runs FieldMeta.structIndex (patWord t) fms fun i => [.var i]

variable {t : StructType} {fms : List FieldMeta} {fm : FieldMeta} {kf : KeyFormat}
  {w : Nat → Text}

theorem textWord_ne_nil (hw : ∀ i, w i ≠ []) {i : Nat} {f : StructField}
    (hf : t.fields[i]? = some f) : textWord t w i ≠ [] := by
  rw [textWord, hf]
  dsimp only
  split
  · exact hw i
  · decide
  · exact List.cons_ne_nil _ _

theorem DerivedOk.segWord_ne_nil (hkf : DerivedOk t fm kf) (hw : ∀ i, w i ≠ []) :
    ∀ seg ∈ kf.segments, segWord t w seg ≠ [] := by
  intro seg hseg
  cases seg with
  | literal s =>
    have hs := hkf.literals s hseg
    simpa [segWord] using hs
  | field i =>
    obtain ⟨-, f, hf, -⟩ := hkf.sources i (mem_refs hseg)
    exact textWord_ne_nil hw hf

theorem patWord_ne_nil (hkf : DerivedOk t fm kf) (hw : ∀ i, w i ≠ []) : patWord t fm w ≠ [] := by
  rw [patWord, hkf.format]
  obtain ⟨seg, rest, hsegs⟩ := List.exists_cons_of_ne_nil hkf.segments
  have hseg := hkf.segWord_ne_nil hw seg (by rw [hsegs]; exact List.mem_cons_self)
  dsimp only
  rw [hsegs, List.flatMap_cons]
  exact List.append_ne_nil_of_left_ne_nil hseg _

theorem nilUUID_ne_var (a : Nat) : nilUUID.string.map (Sym.letter (ι := Nat)) ≠ [.var a] := by
  have hlen : (nilUUID.string.map (Sym.letter (ι := Nat))).length ≠ 1 := by decide
  exact fun h => hlen (congrArg List.length h)

theorem patWord_eq_var (hkf : DerivedOk t fm kf) (hw : ∀ i, w i ≠ []) {a : Nat}
    (h : patWord t fm w = [.var a]) :
    ∃ b, kf.segments = [.field b] ∧ t.isString b = true ∧ w b = [.var a] := by
  rw [patWord, hkf.format] at h
  dsimp only at h
  have hne := hkf.segWord_ne_nil hw
  cases hsegs : kf.segments with
  | nil => exact absurd hsegs hkf.segments
  | cons seg rest =>
    rw [hsegs, List.flatMap_cons] at h
    rw [hsegs] at hne
    have hseg := hne seg List.mem_cons_self
    cases rest with
    | cons seg' rest =>
      have hseg' := hne seg' (List.mem_cons_of_mem _ List.mem_cons_self)
      rw [List.flatMap_cons] at h
      have hlen := congrArg List.length h
      have hpos := List.length_pos_of_ne_nil hseg
      have hpos' := List.length_pos_of_ne_nil hseg'
      simp only [List.length_append, List.length_singleton] at hlen
      omega
    | nil =>
      rw [List.flatMap_nil, List.append_nil] at h
      cases seg with
      | literal s =>
        cases s with
        | nil => cases h
        | cons c s => cases h
      | field b =>
        have hb : .field b ∈ kf.segments := by
          rw [hsegs]
          exact List.mem_cons_self
        obtain ⟨-, f, hf, -⟩ := hkf.sources b (mem_refs hb)
        have h : textWord t w b = [.var a] := h
        rw [textWord, hf] at h
        dsimp only at h
        split at h
        · next htype =>
            refine ⟨b, rfl, ?_, h⟩
            rw [StructType.isString, hf]
            exact decide_eq_true htype
        · exact absurd h (nilUUID_ne_var a)
        · cases h

/-- The word of a field is not empty, and one variable only in a field that is a copy. -/
structure Copy (t : StructType) (i : Nat) (x : Text) (o : Option Nat) : Prop where
  ne_nil : x ≠ []
  var : ∀ a, x = [.var a] → i = a ∧ o = some a ∨
    t.isString a = true ∧ (t.isString i = true → o = some a)

theorem Copy.patWord (hkf : DerivedOk t fm kf) {o : Nat → Option Nat}
    (h : ∀ i, Copy t i (w i) (o i)) :
    Copy t fm.structIndex (Dynamo.patWord t fm w) (copied t fm o) := by
  have hne : ∀ i, w i ≠ [] := fun i => (h i).ne_nil
  refine ⟨patWord_ne_nil hkf hne, fun a ha => .inr ?_⟩
  obtain ⟨b, hsegs, hb, hwb⟩ := patWord_eq_var hkf hne ha
  have hformat : fm.format = some ⟨[.field b]⟩ := by
    rw [hkf.format, ← hsegs]
  have hcopied : t.isString fm.structIndex = true → copied t fm o = o b := by
    intro hi
    rw [copied, hformat]
    simp [hb, hi]
  rcases (h b).var a hwb with ⟨rfl, hob⟩ | ⟨hstr, hob⟩
  · exact ⟨hb, fun hi => (hcopied hi).trans hob⟩
  · exact ⟨hstr, fun hi => (hcopied hi).trans (hob hb)⟩

theorem finalWord_copy (hok : ∀ fm ∈ fms, ∃ kf, DerivedOk t fm kf) (i : Nat) :
    Copy t i (finalWord t fms i) (origin t fms i) := by
  refine Assign.runs_sim (fun fm hfm w o h => ?_) (fun i => ?_) i
  · obtain ⟨kf, hkf⟩ := hok fm hfm
    exact Copy.patWord hkf h
  · refine ⟨List.cons_ne_nil _ _, fun a ha => .inl ?_⟩
    cases ha
    exact ⟨rfl, rfl⟩

/-! ### The free item -/

/-- A field that holds a text. -/
def freeValue (t : StructType) (i : Nat) (s : GoString) : Value GoString :=
  match t.fields[i]? with
  | none => .string s
  | some f =>
    match f.type with
    | .string => .string s
    | .uuid => .uuid nilUUID
    | .other d => .other d s

/-- An item of such fields. -/
def freeItem (t : StructType) (texts : Nat → GoString) : Item t GoString where
  value i := freeValue t i (texts i)
  typed := by
    intro i f hf
    rw [freeValue, hf]
    dsimp only
    split
    · next htype => exact htype.symm
    · next htype => exact htype.symm
    · next htype => exact htype.symm

/-- Text methods that tell texts apart. -/
def freeText : TextMethods GoString where
  marshalText _ x := .ok (99 :: x)
  unmarshalText _ s := .ok s
  sprint _ x := x

/-- Values of other types are texts. -/
def freeReflect : Reflect GoString where
  isZero _ x := x = []
  holdsTimestamp _ _ := false
  ofString _ s := s
  ofTime _ _ := []
  ofTimestamp _ _ := []

variable {σ : Nat → GoString} {v : Nat → Handle GoString}

/-- The field holds what the word comes to. -/
def Reads (t : StructType) (σ : Nat → GoString) (i : Nat) (x : Text) (h : Handle GoString) :
    Prop :=
  h = ⟨t.exported i, freeValue t i (subst σ x)⟩

theorem fieldToString_free {i : Nat} {f : StructField} (hf : t.fields[i]? = some f)
    (hsup : supportedDerivedSourceType f.type = true) (hexp : t.exported i = true)
    (h : Reads t σ i (w i) (v i)) :
    fieldToString freeText (v i) = .ok (subst σ (textWord t w i)) := by
  rw [h, fieldToString, hexp, freeValue, textWord, hf]
  dsimp only
  cases htype : f.type with
  | string => rfl
  | uuid => simp
  | other d =>
    rw [htype] at hsup
    have hd : d.marshals = true := hsup
    simp [hd, marshalText, freeText, subst, Sym.subst]

theorem encode_free (hkf : DerivedOk t fm kf) (hexp : ∀ i ∈ kf.refs, t.exported i = true)
    (h : ∀ i, Reads t σ i (w i) (v i)) :
    fm.encode freeText v = .ok (subst σ (patWord t fm w)) := by
  rw [FieldMeta.encode, hkf.format, patWord, hkf.format]
  show encodeSegments freeText v kf.segments = .ok (subst σ (kf.segments.flatMap (segWord t w)))
  have hall : ∀ segs : List KeySegment, (∀ i ∈ refs segs, i ∈ kf.refs) →
      encodeSegments freeText v segs = .ok (subst σ (segs.flatMap (segWord t w))) := by
    intro segs
    induction segs with
    | nil => exact fun _ => rfl
    | cons seg segs ih =>
      intro hrefs
      cases seg with
      | literal s =>
        rw [encodeSegments, ih hrefs, List.flatMap_cons, Word.subst_append, segWord,
          Word.subst_letters]
        rfl
      | field i =>
        rw [refs_field] at hrefs
        have hi := hrefs i List.mem_cons_self
        obtain ⟨-, f, hf, hsup⟩ := hkf.sources i hi
        rw [encodeSegments, fieldToString_free hf hsup (hexp i hi) (h i), Out.ok_bind,
          ih fun j hj => hrefs j (List.mem_cons_of_mem i hj), List.flatMap_cons,
          Word.subst_append]
        rfl
  exact hall kf.segments fun i hi => hi

theorem setString_free (hkf : DerivedOk t fm kf) (x y : Text) {h : Handle GoString}
    (hr : Reads t σ fm.structIndex x h) :
    h.setString freeReflect (subst σ y) =
      .ok ⟨t.exported fm.structIndex, freeValue t fm.structIndex (subst σ y)⟩ := by
  obtain ⟨f, hf, hexp, hkind⟩ := hkf.field
  rw [hr, Handle.setString, hkf.exported, freeValue, freeValue, hf]
  dsimp only
  cases htype : f.type with
  | string => rfl
  | uuid =>
    rw [htype] at hkind
    cases hkind
  | other d =>
    rw [htype] at hkind
    have hd : d.stringKind = true := hkind
    simp [hd, freeReflect]

theorem derivedValue_free (hkf : DerivedOk t fm kf) (hexp : ∀ i ∈ kf.refs, t.exported i = true)
    (h : ∀ i, Reads t σ i (w i) (v i)) :
    ∃ y, derivedValue freeReflect freeText fm v = some y ∧
      Reads t σ fm.structIndex (patWord t fm w) y :=
  ⟨_, derivedValue_eq_some.mpr ⟨_, encode_free hkf hexp h, setString_free hkf _ _ (h _)⟩, rfl⟩

theorem run_free (hok : ∀ fm ∈ fms, ∃ kf, DerivedOk t fm kf)
    (hexp : ∀ fm ∈ fms, ∀ i ∈ fm.refs, t.exported i = true) (σ : Nat → GoString) :
    ∃ v', Assign.run FieldMeta.structIndex (derivedValue freeReflect freeText) fms
        ((freeItem t σ).handles 0) = some v' ∧
      ∀ i, Reads t σ i (finalWord t fms i) (v' i) := by
  refine Assign.run_sim _ (fun fm hfm w v x h hx => ?_) (fun i => ?_)
    (Assign.run_eq_runs (patWord t) fms fun i => [.var i])
  · cases hx
    obtain ⟨kf, hkf⟩ := hok fm hfm
    exact derivedValue_free hkf (hkf.refs_eq ▸ hexp fm hfm) h
  · show Item.handles 0 (freeItem t σ) i = _
    rw [Word.subst_var]
    simp [Item.handles, freeItem]

theorem freeValue_inj (hkf : DerivedOk t fm kf) {s s' : GoString}
    (h : freeValue t fm.structIndex s = freeValue t fm.structIndex s') : s = s' := by
  obtain ⟨f, hf, -, hkind⟩ := hkf.field
  rw [freeValue, freeValue, hf] at h
  dsimp only at h
  cases htype : f.type with
  | string =>
    rw [htype] at h
    cases h
    rfl
  | uuid =>
    rw [htype] at hkind
    cases hkind
  | other d =>
    rw [htype] at h
    cases h
    rfl

/-! ### Back from the words -/

theorem textWord_length_le {w' : Nat → Text} {i : Nat} (h : (w i).length ≤ (w' i).length) :
    (textWord t w i).length ≤ (textWord t w' i).length := by
  unfold textWord
  split
  · exact Nat.le_refl _
  · split
    · exact h
    · exact Nat.le_refl _
    · exact Nat.succ_le_succ h

theorem textWord_inj (hkf : DerivedOk t fm kf) {w' : Nat → Text}
    (h : textWord t w fm.structIndex = textWord t w' fm.structIndex) :
    w fm.structIndex = w' fm.structIndex := by
  obtain ⟨f, hf, -, hkind⟩ := hkf.field
  rw [textWord, textWord, hf] at h
  dsimp only at h
  cases htype : f.type with
  | string =>
    rw [htype] at h
    exact h
  | uuid =>
    rw [htype] at hkind
    cases hkind
  | other d =>
    rw [htype] at h
    exact (List.cons.inj h).2

theorem patWord_final (hok : ∀ fm ∈ fms, ∃ kf, DerivedOk t fm kf)
    (hexp : ∀ fm ∈ fms, ∀ i ∈ fm.refs, t.exported i = true)
    (hstable : ∀ σ v', Assign.run FieldMeta.structIndex (derivedValue freeReflect freeText) fms
      ((freeItem t σ).handles 0) = some v' →
        ∀ fm ∈ fms, derivedValue freeReflect freeText fm v' = some (v' fm.structIndex))
    (hfm : fm ∈ fms) : patWord t fm (finalWord t fms) = finalWord t fms fm.structIndex := by
  obtain ⟨kf, hkf⟩ := hok fm hfm
  refine Word.eq_of_subst (a := 0) (b := 1) (by decide) fun σ => ?_
  obtain ⟨v', hrun, hreads⟩ := run_free hok hexp σ
  obtain ⟨y, hy, hyreads⟩ := derivedValue_free hkf (hkf.refs_eq ▸ hexp fm hfm) hreads
  cases hy.symm.trans (hstable σ v' hrun fm hfm)
  have hvalue := hyreads.symm.trans (hreads fm.structIndex)
  exact freeValue_inj hkf (Handle.mk.inj hvalue).2

theorem keepsLater_of_stable (hok : ∀ fm ∈ fms, ∃ kf, DerivedOk t fm kf)
    (hord : fms.Pairwise fun a b => a.structIndex < b.structIndex)
    (hexp : ∀ fm ∈ fms, ∀ i ∈ fm.refs, t.exported i = true)
    (hstable : ∀ σ v', Assign.run FieldMeta.structIndex (derivedValue freeReflect freeText) fms
      ((freeItem t σ).handles 0) = some v' →
        ∀ fm ∈ fms, derivedValue freeReflect freeText fm v' = some (v' fm.structIndex)) :
    KeepsLater t fms := by
  intro fm hfm later hlater hlt href
  obtain ⟨kf, hkf⟩ := hok fm hfm
  obtain ⟨kf', hkf'⟩ := hok later hlater
  have hfinal := patWord_final hok hexp hstable hfm
  have hd : (fms.map FieldMeta.structIndex).Nodup :=
    List.pairwise_map.mpr (hord.imp fun hlt => Nat.ne_of_lt hlt)
  obtain ⟨pre, post, hsplit⟩ := List.append_of_mem hfm
  have hrun : Assign.run FieldMeta.structIndex (fun fm w => some (patWord t fm w)) fms
      (fun i => [.var i]) = some _ := Assign.run_eq_runs (patWord t) fms _
  rw [hsplit] at hrun hd
  obtain ⟨m, -, hev, hold, hnew⟩ := Assign.run_at hrun hd
  rw [← hsplit] at hev hnew
  have hev : patWord t fm m = finalWord t fms fm.structIndex := Option.some.inj hev
  -- the word of a field that the pattern refers to has not become shorter since
  have hle : ∀ i ∈ kf.refs, (m i).length ≤ (finalWord t fms i).length := by
    intro i hi
    by_cases hpost : i ∈ post.map FieldMeta.structIndex
    · rw [hold i hpost]
      exact List.length_pos_of_ne_nil (finalWord_copy hok i).ne_nil
    · refine (congrArg List.length (hnew i fun hmem => ?_)).ge
      rcases List.mem_cons.mp hmem with rfl | hmem
      · exact (hkf.sources _ hi).1 rfl
      · exact hpost hmem
  have hsegs : ∀ seg ∈ kf.segments, segWord t m seg = segWord t (finalWord t fms) seg := by
    refine Word.flatMap_inj (fun seg hseg => ?_) ?_
    · cases seg with
      | literal s => exact Nat.le_refl _
      | field i => exact textWord_length_le (hle i (mem_refs hseg))
    · have hsame := hev.trans hfinal.symm
      rw [patWord, patWord, hkf.format] at hsame
      exact hsame
  have hpost : later.structIndex ∈ post.map FieldMeta.structIndex := by
    rw [hsplit, List.mem_append] at hlater
    refine List.mem_map_of_mem ?_
    rcases hlater with hpre | hrest
    · rw [hsplit, List.pairwise_append] at hord
      have hbefore := hord.2.2 later hpre fm List.mem_cons_self
      omega
    · rcases List.mem_cons.mp hrest with rfl | hrest
      · omega
      · exact hrest
  rw [hkf.refs_eq] at href
  obtain ⟨seg, hseg, hi⟩ := List.mem_filterMap.mp href
  cases seg with
  | literal s => cases hi
  | field i =>
    cases hi
    have hword := textWord_inj hkf' (hsegs _ hseg)
    rw [hold _ hpost] at hword
    rcases (finalWord_copy hok later.structIndex).var _ hword.symm with ⟨-, ho⟩ | ⟨hstr, ho⟩
    · exact ho
    · exact ho hstr

end Needed

section Result

variable {ν : Type} {refl : Reflect ν} {text : TextMethods ν} {t : StructType}
  {fms : List FieldMeta}

section

variable (hok : ∀ fm ∈ fms, ∃ kf, DerivedOk t fm kf)

include hok

theorem accessible_of_derived (item : Item t ν) :
    ∀ fm ∈ fms, (item.handles 0 fm.structIndex).accessible = true := by
  intro fm hfm
  obtain ⟨kf, hkf⟩ := hok fm hfm
  simp [Item.handles, hkf.exported]

theorem exported_of_run
    (hd : (fms.map FieldMeta.structIndex).Nodup) {item : Item t ν} {v' : Nat → Handle ν}
    (h : Assign.run FieldMeta.structIndex (derivedValue refl text) fms (item.handles 0) = some v') :
    ∀ fm ∈ fms, ∀ i ∈ fm.refs, t.exported i = true := by
  intro fm hfm i hi
  obtain ⟨kf, hkf⟩ := hok fm hfm
  obtain ⟨pre, post, rfl⟩ := List.append_of_mem hfm
  obtain ⟨m, hm, hev, -⟩ := Assign.run_at h hd
  obtain ⟨s, hs, -⟩ := derivedValue_eq_some.mp hev
  rw [FieldMeta.encode, hkf.format] at hs
  rw [hkf.refs_eq] at hi
  obtain ⟨si, hsi⟩ := fieldToString_of_encode hs i hi
  have hacc := accessible_of_fieldToString hsi
  rw [(kept_run hm i).accessible] at hacc
  simpa [Item.handles] using hacc

theorem stable_iff
    (hd : (fms.map FieldMeta.structIndex).Nodup) {item : Item t ν} {v' : Nat → Handle ν}
    (h : Assign.run FieldMeta.structIndex (derivedValue refl text) fms (item.handles 0) = some v') :
    Stable refl text 0 fms v' ↔
      ∀ fm ∈ fms, derivedValue refl text fm v' = some (v' fm.structIndex) := by
  have hacc : ∀ fm ∈ fms, (v' fm.structIndex).accessible = true := by
    intro fm hfm
    rw [(kept_run h fm.structIndex).accessible]
    exact accessible_of_derived hok item fm hfm
  rw [Stable, applyDerived_eq_ok hacc, Assign.run_fixed hd]
  simp only [derivedValue_eq_some, and_self]

end

/-- The derived attributes of an accepted type are stable for all items exactly if no pattern
refers to a derived field declared later that changes. -/
theorem derived_stable_iff {pointers : Nat} {tags : StructMeta}
    (hnew : newTable (.struct pointers t) = .ok tags) :
    (∀ (ν : Type) (refl : Reflect ν) (text : TextMethods ν) (item : Item t ν)
        (v' : Nat → Handle ν),
      applyDerived refl text pointers tags.derivedFields (item.handles pointers) = (v', .ok ()) →
        Stable refl text pointers tags.derivedFields v') ↔
      NoDrift pointers t tags.derivedFields := by
  obtain ⟨hok, hord, -⟩ := newTable_visited hnew
  have hd : (tags.derivedFields.map FieldMeta.structIndex).Nodup :=
    List.pairwise_map.mpr (hord.imp fun hlt => Nat.ne_of_lt hlt)
  constructor
  · rintro hstable rfl hexp
    refine keepsLater_of_stable hok hord hexp fun σ v' hrun => ?_
    have happly := (applyDerived_eq_ok (accessible_of_derived hok (freeItem t σ))).mpr hrun
    exact (stable_iff hok hd hrun).mp (hstable GoString freeReflect freeText _ v' happly)
  · intro hcond ν refl text item v' happly
    by_cases hp : pointers = 0
    · subst hp
      have hrun := (applyDerived_eq_ok (accessible_of_derived hok item)).mp happly
      have hkeeps := hcond rfl (exported_of_run hok hd hrun)
      exact (stable_iff hok hd hrun).mpr (stable_of_keepsLater hok hord hkeeps hrun)
    · have hnil := applyDerived_pointers hp (by rw [happly]; exact nofun)
      rw [hnil]
      exact ⟨rfl, nofun⟩

end Result

/-! ### Posts

The label of a post is built from its slug and declared before it. -/

/-- Two derived fields with these tags. -/
def postType (label slug : String) : StructType where
  name := bytes "Post"
  fields :=
    [{ name := bytes "ID", type := .string, dynamo := bytes "pk" },
      { name := bytes "Title", type := .string, dynamo := bytes "sk" },
      { name := bytes "Label", type := .string, dynamo := bytes label },
      { name := bytes "Slug", type := .string, dynamo := bytes slug }]

theorem post_stable :
    ∃ tags, newTable (.struct 0 (postType "format=L:\x7bID\x7d" "format=\x7bLabel\x7d-x")) =
        .ok tags ∧ tags.derivedFields.length = 2 ∧
      ∀ v', applyDerived freeReflect freeText 0 tags.derivedFields
          ((freeItem (postType "format=L:\x7bID\x7d" "format=\x7bLabel\x7d-x")
            fun _ => bytes "a").handles 0) = (v', .ok ()) →
        Stable freeReflect freeText 0 tags.derivedFields v' := by
  refine ⟨_, rfl, rfl, fun v' h => ?_⟩
  exact (derived_stable_iff rfl).mpr (by decide +kernel) GoString freeReflect freeText _ v' h

/-- A label built from the slug below it, which is built from the label: both grow. -/
theorem post_grows :
    ∃ tags v v', newTable (.struct 0 (postType "format=\x7bSlug\x7d!" "format=\x7bLabel\x7d")) =
        .ok tags ∧
      applyDerived freeReflect freeText 0 tags.derivedFields
        ((freeItem (postType "format=\x7bSlug\x7d!" "format=\x7bLabel\x7d")
          fun _ => bytes "a").handles 0) = (v, .ok ()) ∧
      applyDerived freeReflect freeText 0 tags.derivedFields v = (v', .ok ()) ∧
      (v 2).value = .string (bytes "a!") ∧ (v' 2).value = .string (bytes "a!!") := by
  refine ⟨_, _, _, rfl, rfl, rfl, rfl, rfl⟩

end Microjet.Dynamo
