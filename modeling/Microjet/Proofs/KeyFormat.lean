import Microjet.Dynamo.Table

/-!
# What an accepted key format looks like

No literal of a format is empty, so the empty string `nextLiteral` returns means that there is
none left; and a table has a format for both of its keys. What follows a placeholder is the end,
or the literal that `decode` will look for (`WellFormed.field`). `roundTrip_iff`,
`decode_written` and `render_inj` rest on this.
-/

namespace Microjet.Dynamo

open Errorx

/-- It is a placeholder. -/
def KeySegment.isField : KeySegment → Bool
  | .literal _ => false
  | .field _ => true

/-- There is a literal between any two consecutive placeholders. -/
def Separated (segs : List KeySegment) : Prop :=
  segs.IsChain fun a b => a.isField = false ∨ b.isField = false

instance (segs : List KeySegment) : Decidable (Separated segs) :=
  inferInstanceAs (Decidable (List.IsChain _ _))

/-- No literal is empty, and no two placeholders meet. -/
structure WellFormed (segs : List KeySegment) : Prop where
  literals : ∀ s, KeySegment.literal s ∈ segs → s ≠ []
  separated : Separated segs

/-- The fields of some segments. -/
def refs (segs : List KeySegment) : List Nat := KeyFormat.refs ⟨segs⟩

section Segments

variable {segs : List KeySegment} {s : GoString} {i : Nat}

@[simp] theorem refs_nil : refs [] = [] := rfl

@[simp] theorem refs_literal : refs (.literal s :: segs) = refs segs := rfl

@[simp] theorem refs_field : refs (.field i :: segs) = i :: refs segs := rfl

theorem mem_refs {kf : KeyFormat} (h : .field i ∈ kf.segments) : i ∈ kf.refs :=
  List.mem_filterMap.mpr ⟨_, h, rfl⟩

theorem WellFormed.tail {seg : KeySegment} (h : WellFormed (seg :: segs)) :
    WellFormed segs where
  literals := fun s hs => h.literals s (List.mem_cons_of_mem _ hs)
  separated := by
    cases segs with
    | nil => exact List.IsChain.nil
    | cons seg' rest => exact (List.isChain_cons_cons.mp h.separated).2

theorem WellFormed.field (h : WellFormed (.field i :: segs)) :
    segs = [] ∨ ∃ s rest, segs = .literal s :: rest ∧ s ≠ [] ∧ nextLiteral segs = s := by
  cases segs with
  | nil => exact .inl rfl
  | cons seg rest =>
    cases seg with
    | literal s =>
      exact .inr ⟨s, rest, rfl, h.literals s (by simp), rfl⟩
    | field j =>
      have hpair := (List.isChain_cons_cons.mp h.separated).1
      simp [KeySegment.isField] at hpair

end Segments

/-- What `parseKeyFormat` and the validation accept. -/
structure Accepted (t : StructType) (kf : KeyFormat) : Prop where
  literals : ∀ s, KeySegment.literal s ∈ kf.segments → s ≠ []
  fields : ∀ i ∈ kf.refs, ∃ f, t.fields[i]? = some f ∧
    supportedKeyFieldType f.type = true

variable {t : StructType}

theorem structFieldIndex_lt {name : GoString} {i : Nat}
    (h : structFieldIndex t name = .ok i) : i < t.fields.length := by
  unfold structFieldIndex at h
  split at h
  · next j hj =>
      cases h
      exact (List.findIdx?_eq_some_iff_getElem.mp hj).1
  · cases h

variable {pattern selfName : GoString}

theorem parseSegments_cons {fuel : Nat} {c : UInt8} {cs : GoString} {segs : List KeySegment}
    (h : parseSegments pattern selfName t (fuel + 1) (c :: cs) = .ok segs) :
    segs = [.literal (c :: cs)] ∨
      ∃ lits i rest segs', segs = lits ++ .field i :: segs' ∧ i < t.fields.length ∧
        (lits = [] ∨ ∃ s, lits = [.literal s] ∧ s ≠ []) ∧
        parseSegments pattern selfName t fuel rest = .ok segs' := by
  rw [parseSegments] at h
  dsimp only at h
  split at h
  · cases h
    exact .inl rfl
  · next openAt _ =>
      split at h
      · cases h
      · split at h
        · cases h
        · next i hi =>
            obtain ⟨segs', hrest, heq⟩ := except_bind_eq_ok.mp h
            cases heq
            refine .inr ⟨_, i, _, segs', rfl, structFieldIndex_lt hi, ?_, hrest⟩
            by_cases hpos : 0 < openAt
            · refine .inr ⟨_, if_pos hpos, fun hnil => ?_⟩
              rw [List.take_eq_nil_iff] at hnil
              rcases hnil with hzero | hnil
              · omega
              · cases hnil
            · exact .inl (if_neg hpos)

theorem parseSegments_ok :
    ∀ (fuel : Nat) (rest : GoString) (segs : List KeySegment),
      parseSegments pattern selfName t fuel rest = .ok segs →
      (∀ s, KeySegment.literal s ∈ segs → s ≠ []) ∧
        ∀ i ∈ refs segs, i < t.fields.length := by
  intro fuel
  induction fuel with
  | zero =>
    intro rest segs h
    cases rest with
    | nil => cases h; exact ⟨fun s hs => (nomatch hs), fun i hi => nomatch hi⟩
    | cons c cs => cases h; exact ⟨fun s hs => (nomatch hs), fun i hi => nomatch hi⟩
  | succ fuel ih =>
    intro rest segs h
    cases rest with
    | nil => cases h; exact ⟨fun s hs => (nomatch hs), fun i hi => nomatch hi⟩
    | cons c cs =>
      rcases parseSegments_cons h with rfl | ⟨lits, i, rest, segs', rfl, hi, hlits, hrest⟩
      · refine ⟨fun s hs => ?_, fun i hi => nomatch hi⟩
        rw [List.mem_singleton, KeySegment.literal.injEq] at hs
        rw [hs]
        exact List.cons_ne_nil c cs
      · obtain ⟨ihlit, ihref⟩ := ih rest segs' hrest
        rcases hlits with rfl | ⟨s, rfl, hs⟩
        · refine ⟨fun s' hs' => ihlit s' ?_, fun j hj => ?_⟩
          · simpa using hs'
          · rw [List.nil_append, refs_field, List.mem_cons] at hj
            rcases hj with rfl | hj
            · exact hi
            · exact ihref j hj
        · refine ⟨fun s' hs' => ?_, fun j hj => ?_⟩
          · simp only [List.singleton_append, List.mem_cons, KeySegment.literal.injEq,
              reduceCtorEq, false_or] at hs'
            rcases hs' with rfl | hs'
            · exact hs
            · exact ihlit s' hs'
          · rw [List.singleton_append, refs_literal, refs_field, List.mem_cons] at hj
            rcases hj with rfl | hj
            · exact hi
            · exact ihref j hj

variable {kf : KeyFormat}

theorem parseKeyFormat_ok (h : parseKeyFormat pattern selfName t = .ok kf) :
    (∀ s, KeySegment.literal s ∈ kf.segments → s ≠ []) ∧
      ∀ i ∈ kf.refs, i < t.fields.length := by
  obtain ⟨segs, hsegs, heq⟩ := except_bind_eq_ok.mp h
  cases heq
  exact parseSegments_ok _ _ _ hsegs

variable {f : StructField}

theorem validateKeyFields_ok (h : validateKeyFields kf t = .ok ()) {i : Nat}
    (hi : i ∈ kf.refs) (hf : t.fields[i]? = some f) :
    supportedKeyFieldType f.type = true := by
  have hone := forM_eq_ok h i hi
  rw [hf] at hone
  dsimp only at hone
  split at hone
  · next hok => exact hok
  · cases hone

theorem TagOptions.format_ok {i : Nat} {o : TagOptions} {format : Option KeyFormat}
    (h : o.format t f i = .ok format) (hrole : o.keyRole ≠ .none) :
    ∃ kf, format = some kf ∧ Accepted t kf := by
  have hpattern : o.pattern ≠ [] := by
    unfold TagOptions.pattern
    split
    · assumption
    · split
      · exact List.append_ne_nil_of_right_ne_nil _ (by decide)
      · split
        · assumption
        · decide
  rw [TagOptions.format, if_neg hpattern] at h
  obtain ⟨kf, hparse, h⟩ := except_bind_eq_ok.mp h
  rw [if_pos hrole] at h
  obtain ⟨_, hvalid, h⟩ := except_bind_eq_ok.mp h
  cases h
  obtain ⟨hlit, hrefs⟩ := parseKeyFormat_ok hparse
  refine ⟨kf, rfl, hlit, fun j hj => ?_⟩
  have hget := List.getElem?_eq_getElem (hrefs j hj)
  exact ⟨_, hget, validateKeyFields_ok hvalid hj hget⟩

theorem fieldMeta_ok {i : Nat} {fm : FieldMeta} (h : fieldMeta t f i = .ok fm)
    (hrole : fm.keyRole ≠ .none) :
    ∃ kf, fm.format = some kf ∧ Accepted t kf := by
  obtain ⟨o, -, h⟩ := except_bind_eq_ok.mp h
  obtain ⟨format, hformat, h⟩ := except_bind_eq_ok.mp h
  cases h
  exact TagOptions.format_ok hformat hrole

/-- The key fields so far have accepted formats. -/
def PartialMeta.Ok (t : StructType) (m : PartialMeta) : Prop :=
  ∀ fm, m.pkField = some fm ∨ m.skField = some fm →
    ∃ kf, fm.format = some kf ∧ Accepted t kf

theorem PartialMeta.visit_ok (m : PartialMeta)
    (fi : StructField × Nat) (m' : PartialMeta) (hm : m.Ok t)
    (h : m.visit t fi = .ok m') : m'.Ok t := by
  unfold PartialMeta.visit at h
  split at h
  · cases h; exact hm
  · split at h
    · cases h; exact hm
    · obtain ⟨fm, hfm, h⟩ := except_bind_eq_ok.mp h
      cases h
      intro fm' hfm'
      unfold PartialMeta.add at hfm'
      have hauto : ∀ (b : Bool) (m : PartialMeta) (l : List FieldMeta),
          (if b then { m with autoFields := l } else m).pkField = m.pkField ∧
            (if b then { m with autoFields := l } else m).skField = m.skField := by
        intro b m l
        cases b <;> exact ⟨rfl, rfl⟩
      dsimp only at hfm'
      rw [(hauto _ _ _).1, (hauto _ _ _).2] at hfm'
      cases hrole : fm.keyRole with
      | pk =>
        rw [hrole] at hfm'
        rcases hfm' with hpk | hsk
        · cases hpk
          exact fieldMeta_ok hfm (by rw [hrole]; decide)
        · exact hm fm' (.inr hsk)
      | sk =>
        rw [hrole] at hfm'
        rcases hfm' with hpk | hsk
        · exact hm fm' (.inl hpk)
        · cases hsk
          exact fieldMeta_ok hfm (by rw [hrole]; decide)
      | none =>
        rw [hrole] at hfm'
        dsimp only at hfm'
        split at hfm'
        · exact hm fm' hfm'
        · exact hm fm' hfm'

variable {tags : StructMeta} {pointers : Nat}

variable (h : newTable (.struct pointers t) = .ok tags)

include h

theorem buildStructMeta_of_newTable :
    buildStructMeta t = .ok tags := by
  rw [newTable, getStructMeta] at h
  cases hb : buildStructMeta t with
  | error err => rw [hb] at h; cases h
  | ok tags' => rw [hb] at h; cases h; rfl

theorem newTable_ok :
    ∃ pk sk, tags.pkField.format = some pk ∧ tags.skField.format = some sk ∧
      Accepted t pk ∧ Accepted t sk := by
  obtain ⟨m, hm, hbuild⟩ := except_bind_eq_ok.mp (buildStructMeta_of_newTable h)
  have hok : m.Ok t := by
    refine foldlM_keeps (P := PartialMeta.Ok t) PartialMeta.visit_ok ?_ hm
    rintro fm (hfm | hfm) <;> cases hfm
  cases hpk : m.pkField with
  | none => rw [hpk] at hbuild; cases hbuild
  | some pkField =>
    cases hsk : m.skField with
    | none => rw [hpk, hsk] at hbuild; cases hbuild
    | some skField =>
      rw [hpk, hsk] at hbuild
      cases hbuild
      obtain ⟨pk, hpkf, hpkok⟩ := hok pkField (.inl hpk)
      obtain ⟨sk, hskf, hskok⟩ := hok skField (.inr hsk)
      exact ⟨pk, sk, hpkf, hskf, hpkok, hskok⟩

theorem newTable_accepted
    {fm : FieldMeta} (hfm : fm = tags.pkField ∨ fm = tags.skField) (hkf : fm.format = some kf) :
    Accepted t kf := by
  obtain ⟨pk, sk, hpk, hsk, hpkok, hskok⟩ := newTable_ok h
  rcases hfm with rfl | rfl
  · rw [hpk] at hkf
    cases hkf
    exact hpkok
  · rw [hsk] at hkf
    cases hkf
    exact hskok

end Microjet.Dynamo
