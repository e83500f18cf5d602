import Microjet.Proofs.KeyFormat

/-!
# What `New` has checked about the other fields

Both lists are in the order of the declaration.
-/

namespace Microjet.Dynamo

open Errorx

/-- An exported string with a pattern that refers to fields with a text, but not to itself. -/
structure DerivedOk (t : StructType) (fm : FieldMeta) (kf : KeyFormat) : Prop where
  format : fm.format = some kf
  field : ∃ f, t.fields[fm.structIndex]? = some f ∧ f.exported = true ∧
    f.type.isStringKind = true
  segments : kf.segments ≠ []
  literals : ∀ s, KeySegment.literal s ∈ kf.segments → s ≠ []
  sources : ∀ i ∈ kf.refs, i ≠ fm.structIndex ∧ ∃ f, t.fields[i]? = some f ∧
    supportedDerivedSourceType f.type = true

/-- An exported field; nothing else is known. -/
structure AutoOk (t : StructType) (fm : FieldMeta) : Prop where
  field : ∃ f, t.fields[fm.structIndex]? = some f ∧ f.exported = true
  auto : (fm.autoCreate || fm.autoUpdate) = true

variable {pattern selfName : GoString} {t : StructType}

theorem parseSegments_ne_nil {fuel : Nat} {c : UInt8} {cs : GoString} {segs : List KeySegment}
    (h : parseSegments pattern selfName t (fuel + 1) (c :: cs) = .ok segs) : segs ≠ [] := by
  rcases parseSegments_cons h with rfl | ⟨lits, i, rest, segs', rfl, -⟩
  · exact List.cons_ne_nil _ _
  · simp

theorem parseKeyFormat_ne_nil {kf : KeyFormat}
    (hne : pattern ≠ []) (h : parseKeyFormat pattern selfName t = .ok kf) : kf.segments ≠ [] := by
  obtain ⟨segs, hsegs, heq⟩ := except_bind_eq_ok.mp h
  cases heq
  cases pattern with
  | nil => exact absurd rfl hne
  | cons c cs => exact parseSegments_ne_nil hsegs

variable {f : StructField}

theorem validateDerivedField_ok {kf : KeyFormat} {i : Nat}
    (h : validateDerivedField kf t f i = .ok ()) :
    f.type.isStringKind = true ∧ ∀ j ∈ kf.refs, j ≠ i ∧ ∀ src, t.fields[j]? = some src →
      supportedDerivedSourceType src.type = true := by
  unfold validateDerivedField at h
  split at h
  · cases h
  · next hkind =>
      split at h
      · cases h
      · refine ⟨by simpa using hkind, fun j hj => ?_⟩
        have hone := forM_eq_ok h j hj
        split at hone
        · cases hone
        · next hji =>
            refine ⟨hji, fun src hsrc => ?_⟩
            rw [hsrc] at hone
            dsimp only at hone
            split at hone
            · next hok => exact hok
            · cases hone

variable {fm : FieldMeta}

theorem fieldMeta_derived {i : Nat} (h : fieldMeta t f i = .ok fm) :
    fm.structIndex = i ∧
      (t.fields[i]? = some f → f.exported = true → fm.keyRole = .none → fm.format.isSome = true →
        ∃ kf, DerivedOk t fm kf) := by
  obtain ⟨o, -, h⟩ := except_bind_eq_ok.mp h
  obtain ⟨format, hformat, h⟩ := except_bind_eq_ok.mp h
  cases h
  refine ⟨rfl, fun hf hexp hrole hsome => ?_⟩
  have hrole : o.keyRole = .none := hrole
  unfold TagOptions.format at hformat
  split at hformat
  · cases hformat
    cases hsome
  · next hpattern =>
      obtain ⟨kf, hparse, hformat⟩ := except_bind_eq_ok.mp hformat
      rw [if_neg (by simp [hrole])] at hformat
      obtain ⟨_, hvalid, hformat⟩ := except_bind_eq_ok.mp hformat
      cases hformat
      obtain ⟨hkind, hsources⟩ := validateDerivedField_ok hvalid
      obtain ⟨hlit, hrefs⟩ := parseKeyFormat_ok hparse
      refine ⟨kf, rfl, ⟨f, hf, hexp, hkind⟩, parseKeyFormat_ne_nil hpattern hparse, hlit,
        fun j hj => ?_⟩
      have hget := List.getElem?_eq_getElem (hrefs j hj)
      exact ⟨(hsources j hj).1, _, hget, (hsources j hj).2 _ hget⟩

section Add

variable (m : PartialMeta) (fm : FieldMeta)

theorem PartialMeta.add_derivedFields :
    (m.add fm).derivedFields = m.derivedFields ∨
      fm.keyRole = .none ∧ fm.format.isSome = true ∧
        (m.add fm).derivedFields = m.derivedFields ++ [fm] := by
  have hauto : ∀ (b : Bool) (m : PartialMeta) (l : List FieldMeta),
      (if b then { m with autoFields := l } else m).derivedFields = m.derivedFields := by
    intro b m l
    cases b <;> rfl
  unfold PartialMeta.add
  dsimp only
  rw [hauto]
  cases hrole : fm.keyRole with
  | pk => exact .inl rfl
  | sk => exact .inl rfl
  | none =>
    dsimp only
    split
    · next hsome => exact .inr ⟨rfl, hsome, rfl⟩
    · exact .inl rfl

theorem PartialMeta.add_autoFields :
    (m.add fm).autoFields = m.autoFields ∨
      (fm.autoCreate || fm.autoUpdate) = true ∧
        (m.add fm).autoFields = m.autoFields ++ [fm] := by
  have hauto : ∀ (b : Bool) (m' : PartialMeta), m'.autoFields = m.autoFields →
      (if b then { m' with autoFields := m'.autoFields ++ [fm] } else m').autoFields =
          m.autoFields ∨
        b = true ∧ (if b then { m' with autoFields := m'.autoFields ++ [fm] } else m').autoFields =
          m.autoFields ++ [fm] := by
    intro b m' hm'
    cases b with
    | false => exact .inl hm'
    | true => exact .inr ⟨rfl, congrArg (· ++ [fm]) hm'⟩
  unfold PartialMeta.add
  refine hauto _ _ ?_
  cases fm.keyRole with
  | pk => rfl
  | sk => rfl
  | none =>
    dsimp only
    split <;> rfl

end Add

/-- What holds of the first `n` fields. -/
structure PartialMeta.Visited (t : StructType) (n : Nat) (m : PartialMeta) : Prop where
  derived : ∀ fm ∈ m.derivedFields, fm.structIndex < n ∧ ∃ kf, DerivedOk t fm kf
  ordered : m.derivedFields.Pairwise fun a b => a.structIndex < b.structIndex
  auto : ∀ fm ∈ m.autoFields, fm.structIndex < n ∧ AutoOk t fm
  autoOrdered : m.autoFields.Pairwise fun a b => a.structIndex < b.structIndex

variable {n : Nat}

theorem forall_lt_and_pairwise_add {P : FieldMeta → Prop} {l l' : List FieldMeta}
    (hindex : fm.structIndex = n) (hl : ∀ fm ∈ l, fm.structIndex < n ∧ P fm)
    (hord : l.Pairwise fun a b => a.structIndex < b.structIndex)
    (h : l' = l ∨ P fm ∧ l' = l ++ [fm]) :
    (∀ fm ∈ l', fm.structIndex < n + 1 ∧ P fm) ∧
      l'.Pairwise fun a b => a.structIndex < b.structIndex := by
  have hl' : ∀ fm ∈ l, fm.structIndex < n + 1 ∧ P fm := fun fm' hfm' =>
    ⟨Nat.lt_succ_of_lt (hl fm' hfm').1, (hl fm' hfm').2⟩
  rcases h with rfl | ⟨hP, rfl⟩
  · exact ⟨hl', hord⟩
  · refine ⟨List.forall_mem_append.mpr ⟨hl', ?_⟩, List.pairwise_append.mpr
      ⟨hord, List.pairwise_singleton _ _, fun a ha b hb => ?_⟩⟩
    · exact List.forall_mem_singleton.mpr ⟨hindex.le.trans_lt (Nat.lt_succ_self n), hP⟩
    · rw [List.mem_singleton.mp hb, hindex]
      exact (hl a ha).1

theorem PartialMeta.Visited.add {m : PartialMeta} (hm : m.Visited t n)
    (hf : t.fields[n]? = some f) (hexp : f.exported = true) (hfm : fieldMeta t f n = .ok fm) :
    (m.add fm).Visited t (n + 1) := by
  obtain ⟨hindex, hderived⟩ := fieldMeta_derived hfm
  obtain ⟨hd, hdord⟩ := forall_lt_and_pairwise_add hindex hm.derived hm.ordered
    ((m.add_derivedFields fm).imp_right fun ⟨hrole, hsome, hadd⟩ =>
      ⟨hderived hf hexp hrole hsome, hadd⟩)
  obtain ⟨ha, haord⟩ := forall_lt_and_pairwise_add hindex hm.auto hm.autoOrdered
    ((m.add_autoFields fm).imp_right fun ⟨hauto, hadd⟩ => ⟨⟨⟨f, hindex ▸ hf, hexp⟩, hauto⟩, hadd⟩)
  exact ⟨hd, hdord, ha, haord⟩

theorem PartialMeta.Visited.mono {m : PartialMeta} (hm : m.Visited t n) :
    m.Visited t (n + 1) :=
  ⟨fun fm hfm => ⟨Nat.lt_succ_of_lt (hm.derived fm hfm).1, (hm.derived fm hfm).2⟩, hm.ordered,
    fun fm hfm => ⟨Nat.lt_succ_of_lt (hm.auto fm hfm).1, (hm.auto fm hfm).2⟩, hm.autoOrdered⟩

theorem PartialMeta.Visited.visit {m m' : PartialMeta} (hm : m.Visited t n)
    (hf : t.fields[n]? = some f) (h : m.visit t (f, n) = .ok m') : m'.Visited t (n + 1) := by
  unfold PartialMeta.visit at h
  split at h
  · cases h
    exact hm.mono
  · next hexp =>
      split at h
      · cases h
        exact hm.mono
      · obtain ⟨fm, hfm, h⟩ := except_bind_eq_ok.mp h
        cases h
        exact hm.add hf (by simpa using hexp) hfm

theorem PartialMeta.Visited.loop {suf : List StructField} :
    ∀ (pre : List StructField) {m m' : PartialMeta}, t.fields = pre ++ suf →
      m.Visited t pre.length →
      (suf.zipIdx pre.length).foldlM (PartialMeta.visit t) m = .ok m' →
      m'.Visited t t.fields.length := by
  induction suf with
  | nil =>
    intro pre m m' hfields hm h
    cases h
    rw [hfields, List.append_nil]
    exact hm
  | cons f suf ih =>
    intro pre m m' hfields hm h
    rw [List.zipIdx_cons, List.foldlM_cons, except_bind_eq_ok] at h
    obtain ⟨m₁, hm₁, hrest⟩ := h
    have hf : t.fields[pre.length]? = some f := by
      rw [hfields, List.getElem?_append_right (Nat.le_refl _), Nat.sub_self]
      rfl
    have hlen : pre.length + 1 = (pre ++ [f]).length := by simp
    have hvisit := hm.visit hf hm₁
    rw [hlen] at hvisit hrest
    exact ih _ (by rw [hfields, List.append_assoc]; rfl) hvisit hrest

theorem newTable_visited {pointers : Nat} {tags : StructMeta}
    (h : newTable (.struct pointers t) = .ok tags) :
    (∀ fm ∈ tags.derivedFields, ∃ kf, DerivedOk t fm kf) ∧
      tags.derivedFields.Pairwise (fun a b => a.structIndex < b.structIndex) ∧
      (∀ fm ∈ tags.autoFields, AutoOk t fm) ∧
      tags.autoFields.Pairwise fun a b => a.structIndex < b.structIndex := by
  obtain ⟨m, hm, hrest⟩ := except_bind_eq_ok.mp (buildStructMeta_of_newTable h)
  have hinit : PartialMeta.Visited t 0 {} := ⟨nofun, .nil, nofun, .nil⟩
  have hvisited := PartialMeta.Visited.loop [] rfl hinit hm
  split at hrest
  · cases hrest
  · split at hrest
    · cases hrest
    · cases hrest
      exact ⟨fun fm hfm => (hvisited.derived fm hfm).2, hvisited.ordered,
        fun fm hfm => (hvisited.auto fm hfm).2, hvisited.autoOrdered⟩

end Microjet.Dynamo
