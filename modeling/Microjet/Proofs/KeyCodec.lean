import Microjet.Proofs.KeyFormat

/-!
# The key codec

`decode` cuts at the first occurrence of the next literal, so a value is read back if that
literal does not already occur in it, or across its end (`Search.Clear`).
-/

namespace Microjet.Dynamo

open Errorx Search

/-- A pattern with a text for every placeholder. -/
def render (texts : Nat → GoString) : List KeySegment → GoString
  | [] => []
  | .literal s :: segs => s ++ render texts segs
  | .field i :: segs => texts i ++ render texts segs

section Encode

variable {ν : Type} {text : TextMethods ν} {v : Nat → Handle ν}

theorem encodeSegments_eq_render {texts : Nat → GoString} :
    ∀ {segs : List KeySegment},
      (∀ i ∈ refs segs, fieldToString text (v i) = .ok (texts i)) →
      encodeSegments text v segs = .ok (render texts segs) := by
  intro segs
  induction segs with
  | nil =>
    intro _
    rfl
  | cons seg segs ih =>
    intro h
    cases seg with
    | literal s => rw [encodeSegments, ih h]; rfl
    | field i =>
      rw [encodeSegments, h i (by simp), ih fun j hj => h j (by simp [hj])]
      rfl

theorem fieldToString_of_encode : ∀ {segs : List KeySegment} {s : GoString},
    encodeSegments text v segs = .ok s →
    ∀ i ∈ refs segs, ∃ ti, fieldToString text (v i) = .ok ti := by
  intro segs
  induction segs with
  | nil =>
    intro s _ i hi
    cases hi
  | cons seg segs ih =>
    intro s h i hi
    cases seg with
    | literal l =>
      obtain ⟨rest, hrest, -⟩ := Out.bind_eq_ok.mp h
      exact ih hrest i hi
    | field j =>
      obtain ⟨tj, htj, h⟩ := Out.bind_eq_ok.mp h
      obtain ⟨rest, hrest, -⟩ := Out.bind_eq_ok.mp h
      rw [refs_field, List.mem_cons] at hi
      rcases hi with rfl | hi
      · exact ⟨tj, htj⟩
      · exact ih hrest i hi

end Encode

/-! ## A type of notes

The concrete inputs below are notes: a tenant's UUID is the partition key, kind
and name are the sort key. -/

/-- No type has text methods. -/
def noText : TextMethods Empty where
  marshalText := fun _ x => nomatch x
  unmarshalText := fun _ _ => .error (.other "no such type")
  sprint := fun _ x => nomatch x

/-- A type of notes. -/
def noteType : StructType where
  name := bytes "Note"
  fields :=
    [{ name := bytes "TenantID", type := .uuid, dynamo := bytes "pk,prefix=T#" },
      { name := bytes "Kind", type := .string },
      { name := bytes "Name", type := .string,
        dynamo := bytes "sk,format=\x7bKind\x7d#\x7bName\x7d" }]

/-- Its sort key. -/
def noteSK : KeyFormat := ⟨[.field 1, .literal (bytes "#"), .field 2]⟩

/-- What its tags say. -/
def noteTags : StructMeta where
  pkField :=
    ⟨0, bytes "TenantID", .pk, some ⟨[.literal (bytes "T#"), .field 0]⟩, false, false⟩
  skField := ⟨2, bytes "Name", .sk, some noteSK, false, false⟩
  autoFields := []
  derivedFields := []

theorem newTable_note : newTable (.struct 0 noteType) = .ok noteTags := by
  decide +kernel

/-- A note. -/
def note (tenant : UUID) (kind name : GoString) : Item noteType Empty where
  value
    | 0 => .uuid tenant
    | 1 => .string kind
    | _ => .string name
  typed := by
    rintro (_ | _ | _ | i) f h <;> cases h <;> rfl

def tenant : UUID := ⟨[0, 0, 0, 10, 0, 0, 0, 0, 0, 0, 0, 0, 0, 0, 0, 0], rfl⟩

/-! ## Reading back what was written -/

/-- Fields that are strings. -/
def strings {ν : Type} (vals : Nat → GoString) : Nat → Handle ν := fun i =>
  ⟨true, .string (vals i)⟩

/-- Every value with a literal behind it is clear of that literal. -/
def AllClear (vals : Nat → GoString) (segs : List KeySegment) : Prop :=
  ∀ pre i post, segs = pre ++ .field i :: post → nextLiteral post ≠ [] →
    Clear (vals i) (nextLiteral post)

section RoundTrip

variable {ν : Type} {text : TextMethods ν} {raw : GoString} {vals : Nat → GoString}

theorem allClear_nil : AllClear vals [] := by
  intro pre i post h
  cases pre <;> cases h

variable {segs : List KeySegment}

theorem allClear_literal {s : GoString} :
    AllClear vals (.literal s :: segs) ↔ AllClear vals segs := by
  constructor
  · intro h pre i post hsegs
    exact h (.literal s :: pre) i post (by rw [hsegs]; rfl)
  · intro h pre i post hsegs
    cases pre with
    | nil => cases hsegs
    | cons seg pre =>
      cases hsegs
      exact h pre i post rfl

theorem allClear_field {i : Nat} :
    AllClear vals (.field i :: segs) ↔
      (nextLiteral segs ≠ [] → Clear (vals i) (nextLiteral segs)) ∧ AllClear vals segs := by
  constructor
  · intro h
    refine ⟨h [] i segs rfl, fun pre j post hsegs => ?_⟩
    exact h (.field i :: pre) j post (by rw [hsegs]; rfl)
  · rintro ⟨hhead, htail⟩ pre j post hsegs
    cases pre with
    | nil =>
      cases hsegs
      exact hhead
    | cons seg pre =>
      cases hsegs
      exact htail pre j post rfl

theorem update_strings (vals : Nat → GoString) (i : Nat) (s : GoString) :
    Function.update (strings vals : Nat → Handle ν) i ⟨true, .string s⟩ =
      strings (Function.update vals i s) := by
  funext j
  by_cases hj : j = i
  · subst hj
    simp [strings]
  · simp [strings, hj]

theorem set_strings (vals : Nat → GoString) (i : Nat) (s : GoString) :
    setFieldFromString text (strings vals i) s = .ok ⟨true, .string s⟩ := rfl

theorem decodeSegments_frame {j : Nat} : ∀ {segs : List KeySegment}
    {remaining : GoString} {v v' : Nat → Handle ν},
    decodeSegments text raw segs remaining v = .ok v' → j ∉ refs segs → v' j = v j := by
  intro segs
  induction segs with
  | nil =>
    intro remaining v v' h _
    cases h
    rfl
  | cons seg segs ih =>
    intro remaining v v' h hj
    cases seg with
    | literal s =>
      rw [decodeSegments] at h
      split at h
      · exact ih h hj
      · cases h
    | field i =>
      rw [refs_field, List.mem_cons, not_or] at hj
      rw [decodeSegments] at h
      split at h
      · split at h
        · cases h
        · obtain ⟨hd, -, h⟩ := Out.bind_eq_ok.mp h
          rw [ih h hj.2, Function.update_of_ne hj.1]
      · obtain ⟨hd, -, h⟩ := Out.bind_eq_ok.mp h
        rw [ih h hj.2, Function.update_of_ne hj.1]

theorem decodeSegments_literal {s rest : GoString} (v : Nat → Handle ν) :
    decodeSegments text raw (.literal s :: segs) (s ++ rest) v =
      decodeSegments text raw segs rest v := by
  rw [decodeSegments, if_pos (List.isPrefixOf_iff_prefix.mpr (List.prefix_append s rest)),
    List.drop_left]

/-- What was written is read back exactly if every value is clear. -/
theorem decodeSegments_render_iff : ∀ {segs : List KeySegment}, WellFormed segs →
    (refs segs).Nodup → ∀ old : Nat → GoString,
    (∃ v, decodeSegments text raw segs (render vals segs) (strings old) = .ok v ∧
      ∀ i ∈ refs segs, v i = strings vals i) ↔ AllClear vals segs := by
  intro segs
  induction segs with
  | nil =>
    intro _ _ old
    exact iff_of_true ⟨_, rfl, fun i hi => nomatch hi⟩ allClear_nil
  | cons seg segs ih =>
    intro hwf hnodup old
    cases seg with
    | literal s =>
      rw [render, decodeSegments_literal, allClear_literal]
      exact ih hwf.tail hnodup old
    | field i =>
      rw [refs_field, List.nodup_cons] at hnodup
      rw [allClear_field]
      rcases hwf.field with rfl | ⟨s, rest, rfl, hs, hnext⟩
      · refine iff_of_true ⟨_, rfl, fun j hj => ?_⟩
          ⟨fun h => absurd rfl h, allClear_nil⟩
        rw [refs_field, refs_nil, List.mem_singleton] at hj
        subst hj
        show Function.update _ _ _ _ = _
        rw [Function.update_self, render, render, List.append_nil]
        rfl
      · rw [hnext]
        rw [render, render, decodeSegments]
        simp only [hnext, ne_eq, hs, not_false_eq_true, if_true, forall_const]
        obtain ⟨idx, hidx, hle⟩ := exists_indexOf_append (vals i) s (render vals rest)
        rw [hidx]
        simp only [set_strings, Out.ok_bind, update_strings]
        by_cases hlen : idx = (vals i).length
        · subst hlen
          rw [List.drop_left]
          have hclear : Clear (vals i) s := indexOf_append.mp hidx
          have hrest := ih hwf.tail hnodup.2
            (Function.update old i ((vals i ++ (s ++ render vals rest)).take
              (vals i).length))
          rw [render] at hrest
          rw [← hrest]
          constructor
          · rintro ⟨v, hv, hall⟩
            exact ⟨hclear, v, hv, fun j hj => hall j (List.mem_cons_of_mem i hj)⟩
          · rintro ⟨-, v, hv, hall⟩
            refine ⟨v, hv, fun j hj => ?_⟩
            rw [refs_field, List.mem_cons] at hj
            rcases hj with rfl | hj
            · rw [decodeSegments_frame hv hnodup.1]
              simp [strings]
            · exact hall j hj
        · have hlt : idx < (vals i).length := by omega
          constructor
          · rintro ⟨v, hv, hall⟩
            have hread := hall i (by simp)
            rw [decodeSegments_frame hv hnodup.1] at hread
            simp only [strings, Function.update_self, Handle.mk.injEq,
              Value.string.injEq, true_and] at hread
            have hshort := congrArg List.length hread
            rw [List.length_take, List.length_append] at hshort
            omega
          · rintro ⟨hclear, -⟩
            have hfirst : indexOf s (vals i ++ (s ++ render vals rest)) =
                some (vals i).length := indexOf_append.mpr hclear
            rw [hidx] at hfirst
            exact absurd (Option.some.inj hfirst) hlen

/-- A pattern over string fields, each named once, reads back the values it wrote exactly if no
value hides the literal behind it. -/
theorem roundTrip_iff {pattern selfName : GoString} {t : StructType} {kf : KeyFormat}
    (hparse : parseKeyFormat pattern selfName t = .ok kf)
    (hsep : Separated kf.segments) (hnodup : kf.refs.Nodup)
    (vals old : Nat → GoString) :
    (∃ key v, kf.encode text (strings vals) = .ok key ∧
      kf.decode text key (strings old) = .ok v ∧
      ∀ i ∈ kf.refs, v i = strings vals i) ↔
    ∀ pre i post, kf.segments = pre ++ .field i :: post → nextLiteral post ≠ [] →
      Clear (vals i) (nextLiteral post) := by
  have hwf : WellFormed kf.segments := ⟨(parseKeyFormat_ok hparse).1, hsep⟩
  have henc : kf.encode text (strings vals) = .ok (render vals kf.segments) :=
    encodeSegments_eq_render fun i _ => rfl
  have hmain : (∃ v, kf.decode text (render vals kf.segments) (strings old) = .ok v ∧
      ∀ i ∈ kf.refs, v i = strings vals i) ↔ AllClear vals kf.segments :=
    decodeSegments_render_iff hwf hnodup old
  constructor
  · rintro ⟨key, v, hkey, hdec, hall⟩
    rw [henc] at hkey
    cases hkey
    exact hmain.mp ⟨v, hdec, hall⟩
  · intro hclear
    obtain ⟨v, hdec, hall⟩ := hmain.mpr hclear
    exact ⟨_, v, henc, hdec, hall⟩

theorem roundTrip_note :
    ∃ key v, noteSK.encode noText (strings fun _ => bytes "memo") = .ok key ∧
      noteSK.decode noText key (strings fun _ => []) = .ok v ∧
      ∀ i ∈ noteSK.refs, v i = strings (fun _ => bytes "memo") i := by
  have hparse : parseKeyFormat (bytes "\x7bKind\x7d#\x7bName\x7d") (bytes "Name")
      noteType = .ok noteSK := by decide +kernel
  refine (roundTrip_iff hparse (by decide) (by decide) _ _).mpr ?_
  refine allClear_field.mpr ⟨fun _ => by decide, ?_⟩
  refine allClear_literal.mpr (allClear_field.mpr ⟨fun h => absurd rfl h, allClear_nil⟩)

end RoundTrip

/-! ## Writing back what was read

`decode` assigns as it goes. `scan` is the same walk without the assignments: it
returns the text cut out for every placeholder and what is left of the key after
the last segment. -/

/-- The texts `decode` cuts out. -/
def scan : List KeySegment → GoString → Option (List (Nat × GoString) × GoString)
  | [], remaining => some ([], remaining)
  | .literal s :: segs, remaining =>
    if s.isPrefixOf remaining then scan segs (remaining.drop s.length) else none
  | .field i :: segs, remaining =>
    if nextLiteral segs ≠ [] then
      match indexOf (nextLiteral segs) remaining with
      | none => none
      | some idx =>
        (scan segs (remaining.drop idx)).map fun r =>
          ((i, remaining.take idx) :: r.1, r.2)
    else (scan segs []).map fun r => ((i, remaining) :: r.1, r.2)

section WriteBack

variable {ν : Type} {text : TextMethods ν}

variable {texts : Nat → GoString}

theorem scan_eq_render {left : GoString} :
    ∀ {segs : List KeySegment}, WellFormed segs →
    ∀ {remaining : GoString} {cuts : List (Nat × GoString)},
      scan segs remaining = some (cuts, left) → (∀ c ∈ cuts, texts c.1 = c.2) →
      remaining = render texts segs ++ left := by
  intro segs
  induction segs with
  | nil =>
    intro _ remaining cuts h _
    cases h
    rfl
  | cons seg segs ih =>
    intro hwf remaining cuts h htexts
    cases seg with
    | literal s =>
      rw [scan] at h
      split at h
      · next hpre =>
          obtain ⟨rest, rfl⟩ := List.isPrefixOf_iff_prefix.mp hpre
          rw [List.drop_left] at h
          rw [render, List.append_assoc, ← ih hwf.tail h htexts]
      · cases h
    | field i =>
      rw [scan] at h
      split at h
      · split at h
        · cases h
        · next idx _ =>
            obtain ⟨⟨cuts', left'⟩, hrest, heq⟩ := Option.map_eq_some_iff.mp h
            cases heq
            have hrest := ih hwf.tail hrest fun c hc => htexts c (by simp [hc])
            rw [render, htexts (i, remaining.take idx) (by simp),
              List.append_assoc, ← hrest, List.take_append_drop]
      · next hnext =>
          rcases hwf.field with rfl | ⟨s, rest, rfl, hs, hlit⟩
          · cases h
            rw [render, render, htexts (i, remaining) (by simp), List.append_nil,
              List.append_nil]
          · rw [hlit] at hnext
            exact absurd hs hnext

theorem setFieldFromString_shape {h h' : Handle ν} {s : GoString}
    (hset : setFieldFromString text h s = .ok h') (s' : GoString) :
    setFieldFromString text h' s' = setFieldFromString text h s' := by
  obtain ⟨acc, value⟩ := h
  cases acc with
  | false => cases hset
  | true =>
    cases value with
    | string old => cases hset; rfl
    | uuid old =>
      simp only [setFieldFromString] at hset
      cases hu : parseUUID s with
      | error err => simp [hu] at hset
      | ok u =>
        simp only [hu, Bool.not_true, Bool.false_eq_true, if_false, Out.ok.injEq] at hset
        subst hset
        rfl
    | other d old =>
      simp only [setFieldFromString, Bool.not_true, Bool.false_eq_true, if_false] at hset
      split at hset
      · cases hset
      · split at hset
        · cases hset
        · cases hset
          rfl
        · cases hset

theorem scan_of_decode {raw : GoString} : ∀ {segs : List KeySegment}
    {remaining : GoString} {v v' : Nat → Handle ν},
    decodeSegments text raw segs remaining v = .ok v' →
    ∃ cuts left, scan segs remaining = some (cuts, left) := by
  intro segs
  induction segs with
  | nil =>
    intro remaining v v' _
    exact ⟨[], remaining, rfl⟩
  | cons seg segs ih =>
    intro remaining v v' h
    cases seg with
    | literal s =>
      rw [decodeSegments] at h
      rw [scan]
      split at h
      · next hpre =>
          rw [if_pos hpre]
          exact ih h
      · cases h
    | field i =>
      rw [decodeSegments] at h
      rw [scan]
      split at h
      · next hnext =>
          rw [if_pos hnext]
          cases hidx : indexOf (nextLiteral segs) remaining with
          | none =>
            rw [hidx] at h
            cases h
          | some idx =>
            rw [hidx] at h
            obtain ⟨hd, -, hrest⟩ := Out.bind_eq_ok.mp h
            obtain ⟨cuts, left, hscan⟩ := ih hrest
            exact ⟨_, _, Option.map_eq_some_iff.mpr ⟨_, hscan, rfl⟩⟩
      · next hnext =>
          rw [if_neg hnext]
          obtain ⟨hd, -, hrest⟩ := Out.bind_eq_ok.mp h
          obtain ⟨cuts, left, hscan⟩ := ih hrest
          exact ⟨_, _, Option.map_eq_some_iff.mpr ⟨_, hscan, rfl⟩⟩

variable {cuts : List (Nat × GoString)}

theorem decodeSegments_field {raw remaining : GoString} {j : Nat}
    {segs : List KeySegment} {v v' : Nat → Handle ν} {left : GoString}
    (hdec : decodeSegments text raw (.field j :: segs) remaining v = .ok v')
    (hscan : scan (.field j :: segs) remaining = some (cuts, left)) :
    ∃ s rest h cuts', cuts = (j, s) :: cuts' ∧
      setFieldFromString text (v j) s = .ok h ∧
      decodeSegments text raw segs rest (Function.update v j h) = .ok v' ∧
      scan segs rest = some (cuts', left) := by
  rw [decodeSegments] at hdec
  rw [scan] at hscan
  split at hscan
  · next hnext =>
      rw [if_pos hnext] at hdec
      split at hscan
      · cases hscan
      · next idx hidx =>
          rw [hidx] at hdec
          obtain ⟨h, hset, hrest⟩ := Out.bind_eq_ok.mp hdec
          obtain ⟨⟨cuts', left'⟩, hcuts, heq⟩ := Option.map_eq_some_iff.mp hscan
          cases heq
          exact ⟨_, _, h, cuts', rfl, hset, hrest, hcuts⟩
  · next hnext =>
      rw [if_neg hnext] at hdec
      obtain ⟨h, hset, hrest⟩ := Out.bind_eq_ok.mp hdec
      obtain ⟨⟨cuts', left'⟩, hcuts, heq⟩ := Option.map_eq_some_iff.mp hscan
      cases heq
      exact ⟨_, _, h, cuts', rfl, hset, hrest, hcuts⟩

/-- In a successful `decode` every field was set from the text cut out for it. -/
theorem decodeSegments_scan {raw left : GoString} :
    ∀ {segs : List KeySegment} {remaining : GoString} {v v' : Nat → Handle ν}
      {cuts : List (Nat × GoString)},
      decodeSegments text raw segs remaining v = .ok v' →
      scan segs remaining = some (cuts, left) → (∀ c ∈ cuts, texts c.1 = c.2) →
      ∀ i ∈ refs segs, setFieldFromString text (v i) (texts i) = .ok (v' i) := by
  intro segs
  induction segs with
  | nil =>
    intro remaining v v' cuts _ _ _ i hi
    cases hi
  | cons seg segs ih =>
    intro remaining v v' cuts hdec hscan htexts i hi
    cases seg with
    | literal s =>
      rw [decodeSegments] at hdec
      rw [scan] at hscan
      split at hscan
      · next hpre =>
          rw [if_pos hpre] at hdec
          exact ih hdec hscan htexts i hi
      · cases hscan
    | field j =>
      obtain ⟨s, rest, h, cuts', rfl, hset, hrest, hcuts⟩ :=
        decodeSegments_field hdec hscan
      have hlater := ih hrest hcuts fun c hc => htexts c (List.mem_cons_of_mem _ hc)
      by_cases hmem : i ∈ refs segs
      · have hread := hlater i hmem
        by_cases hij : i = j
        · subst hij
          rw [Function.update_self, setFieldFromString_shape hset] at hread
          exact hread
        · rwa [Function.update_of_ne hij] at hread
      · rw [refs_field, List.mem_cons] at hi
        have hij : i = j := hi.resolve_right hmem
        subst hij
        rw [decodeSegments_frame hrest hmem, Function.update_self,
          htexts (i, s) (by simp)]
        exact hset

theorem fieldToString_of_set {h h' : Handle ν} {s : GoString}
    (hset : setFieldFromString text h s = .ok h') (htype : h.value.type = .string) :
    fieldToString text h' = .ok s := by
  obtain ⟨acc, value⟩ := h
  cases acc with
  | false => cases hset
  | true =>
    cases value with
    | string old => cases hset; rfl
    | uuid old => cases htype
    | other d old => cases htype

theorem exists_texts (h : ∀ i s s', (i, s) ∈ cuts → (i, s') ∈ cuts → s = s') :
    ∃ texts : Nat → GoString, ∀ c ∈ cuts, texts c.1 = c.2 := by
  refine ⟨fun i => (cuts.lookup i).getD [], ?_⟩
  rintro ⟨i, s⟩ hc
  show (cuts.lookup i).getD [] = s
  cases hl : cuts.lookup i with
  | none =>
    have hne := List.lookup_eq_none_iff.mp hl (i, s) hc
    simp at hne
  | some s' =>
    obtain ⟨pre, post, rfl, -⟩ := List.lookup_eq_some_iff.mp hl
    exact h i s' s (by simp) hc

/-- A key that decodes without a rest, with one text for every field, is the pattern filled with
texts its fields accept. Encoding writes the same key with every text in the spelling its field
writes, and a string has only one. -/
theorem decode_written {pointers : Nat} {t : StructType} {tags : StructMeta}
    (hnew : newTable (.struct pointers t) = .ok tags) {fm : FieldMeta}
    (hfm : fm = tags.pkField ∨ fm = tags.skField) {kf : KeyFormat}
    (hkf : fm.format = some kf) (hsep : Separated kf.segments) (item : Item t ν)
    {raw : GoString} {v : Nat → Handle ν}
    (hdec : fm.decode text raw (item.handles pointers) = .ok v) :
    ∃ cuts left, scan kf.segments raw = some (cuts, left) ∧
      (left = [] → (∀ i s s', (i, s) ∈ cuts → (i, s') ∈ cuts → s = s') →
        ∃ texts : Nat → GoString, raw = render texts kf.segments ∧
          (∀ i ∈ kf.refs, setFieldFromString text (item.handles pointers i) (texts i) =
            .ok (v i)) ∧
          (∀ written : Nat → GoString,
            (∀ i ∈ kf.refs, fieldToString text (v i) = .ok (written i)) →
            fm.encode text v = .ok (render written kf.segments)) ∧
          (∀ i ∈ kf.refs, (item.value i).type = .string →
            fieldToString text (v i) = .ok (texts i))) := by
  have hacc := newTable_accepted hnew hfm hkf
  have hdec : kf.decode text raw (item.handles pointers) = .ok v := by
    rw [FieldMeta.decode, hkf] at hdec
    exact hdec
  obtain ⟨cuts, left, hscan⟩ := scan_of_decode hdec
  refine ⟨cuts, left, hscan, ?_⟩
  rintro rfl hcuts
  obtain ⟨texts, htexts⟩ := exists_texts hcuts
  have hset := decodeSegments_scan hdec hscan htexts
  refine ⟨texts, ?_, hset, ?_, ?_⟩
  · have hrender := scan_eq_render ⟨hacc.literals, hsep⟩ hscan htexts
    rwa [List.append_nil] at hrender
  · intro written hwritten
    rw [FieldMeta.encode, hkf]
    exact encodeSegments_eq_render hwritten
  · intro i hi htype
    exact fieldToString_of_set (hset i hi) htype

theorem decode_written_note :
    ∃ v, noteTags.skField.decode noText (bytes "memo#first")
        ((note tenant [] []).handles 0) = .ok v ∧
      noteTags.skField.encode noText v = .ok (bytes "memo#first") := by
  obtain ⟨v, hdec⟩ : ∃ v, noteTags.skField.decode noText (bytes "memo#first")
      ((note tenant [] []).handles 0) = .ok v := ⟨_, rfl⟩
  refine ⟨v, hdec, ?_⟩
  obtain ⟨cuts, left, hscan, hrest⟩ := decode_written newTable_note (.inr rfl) rfl
    (by decide) (note tenant [] []) hdec
  have hcuts : scan noteSK.segments (bytes "memo#first") =
      some ([(1, bytes "memo"), (2, bytes "first")], []) := by decide
  rw [hcuts] at hscan
  cases hscan
  obtain ⟨texts, hraw, -, hwrite, hstring⟩ := hrest rfl (by
    simp only [List.mem_cons, List.not_mem_nil, or_false, Prod.mk.injEq]
    rintro i s s' (⟨rfl, rfl⟩ | ⟨rfl, rfl⟩) (⟨h, rfl⟩ | ⟨h, rfl⟩) <;>
      first | rfl | cases h)
  rw [hraw]
  refine hwrite texts fun i hi => hstring i hi ?_
  have hi : i ∈ [1, 2] := hi
  rw [List.mem_cons, List.mem_singleton] at hi
  rcases hi with rfl | rfl <;> rfl

/-- A UUID in capitals is written in lower case. -/
theorem tenant_capitals :
    newTable (.struct 0 noteType) = .ok noteTags ∧
    (∃ kf, noteTags.pkField.format = some kf ∧ Separated kf.segments) ∧
    (∃ v, noteTags.pkField.decode noText (bytes "T#0000000A-0000-0000-0000-000000000000")
        ((note tenant [] []).handles 0) = .ok v ∧
      noteTags.pkField.encode noText v =
        .ok (bytes "T#0000000a-0000-0000-0000-000000000000")) ∧
    bytes "T#0000000a-0000-0000-0000-000000000000" ≠
      bytes "T#0000000A-0000-0000-0000-000000000000" := by
  refine ⟨newTable_note, ⟨_, rfl, by decide⟩, ?_, by decide +kernel⟩
  refine Out.bind_eq_ok.mp ?_
  decide +kernel

end WriteBack

end Microjet.Dynamo
