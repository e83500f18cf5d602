import Microjet.Proofs.KeyCodec

/-!
# When two items have different keys

The encoder escapes nothing, so two items can share a key (`notes_collide`). A UUID ends after
36 bytes, and the last string of a pattern a fixed number of bytes before the end. Only a string
with another string behind it can be cut in two ways, and then only if the literal behind it
occurs in it or across its end, which `Unambiguous` rules out.
-/

namespace Microjet.Dynamo

open Errorx Search

section Distinct

variable {ν : Type}

/-- What the encoder writes. -/
def Value.keyText : Value ν → GoString
  | .string s => s
  | .uuid u => u.string
  | .other _ _ => []

/-- A string or a UUID. -/
def Value.Plain (v : Value ν) : Prop := v.type = .string ∨ v.type = .uuid

/-- A string follows. -/
def LaterString (v : Nat → Value ν) (segs : List KeySegment) : Prop :=
  ∃ j ∈ refs segs, (v j).type = .string

/-- Every string with another string behind it is clear of the literal between
them. -/
def Unambiguous (v : Nat → Value ν) : List KeySegment → Prop
  | [] => True
  | .literal _ :: segs => Unambiguous v segs
  | .field i :: segs =>
    ((v i).type = .string → LaterString v segs →
      Clear (v i).keyText (nextLiteral segs)) ∧ Unambiguous v segs

variable {a b : Nat → Value ν}

theorem length_keyText {x : Value ν} (h : x.type = .uuid) : x.keyText.length = 36 := by
  cases x with
  | string s => cases h
  | uuid u => exact u.length_string
  | other d y => cases h

theorem keyText_inj {x y : Value ν} (hx : x.Plain) (htype : x.type = y.type)
    (h : x.keyText = y.keyText) : x = y := by
  cases x with
  | string s =>
    cases y with
    | string s' => exact congrArg Value.string h
    | uuid u => cases htype
    | other d z => cases htype
  | uuid u =>
    cases y with
    | string s => cases htype
    | uuid u' => exact congrArg Value.uuid (UUID.string_inj h)
    | other d z => cases htype
  | other d z => rcases hx with hx | hx <;> cases hx

theorem length_render_eq : ∀ {segs : List KeySegment},
    (∀ i ∈ refs segs, (a i).type = (b i).type) → (∀ i ∈ refs segs, (a i).Plain) →
    ¬ LaterString a segs →
    (render (fun i => (a i).keyText) segs).length =
      (render (fun i => (b i).keyText) segs).length := by
  intro segs
  induction segs with
  | nil =>
    intro _ _ _
    rfl
  | cons seg segs ih =>
    intro hsame hplain hno
    cases seg with
    | literal s =>
      rw [render, render, List.length_append, List.length_append,
        ih hsame hplain hno]
    | field i =>
      have huuid : (a i).type = .uuid :=
        (hplain i (by simp)).resolve_left fun hs => hno ⟨i, by simp, hs⟩
      have hno' : ¬ LaterString a segs := by
        intro hlater
        obtain ⟨j, hj, hs⟩ := hlater
        exact hno ⟨j, by simp [hj], hs⟩
      have hrest := ih (fun j hj => hsame j (by simp [hj]))
        (fun j hj => hplain j (by simp [hj])) hno'
      rw [render, render, List.length_append, List.length_append, hrest,
        length_keyText huuid, length_keyText ((hsame i (by simp)).symm.trans huuid)]

/-- A filled pattern determines the values, if they are unambiguous. -/
theorem render_inj : ∀ {segs : List KeySegment}, WellFormed segs →
    (∀ i ∈ refs segs, (a i).type = (b i).type) → (∀ i ∈ refs segs, (a i).Plain) →
    Unambiguous a segs → Unambiguous b segs →
    render (fun i => (a i).keyText) segs = render (fun i => (b i).keyText) segs →
    ∀ i ∈ refs segs, a i = b i := by
  intro segs
  induction segs with
  | nil =>
    intro _ _ _ _ _ _ i hi
    cases hi
  | cons seg segs ih =>
    intro hwf hsame hplain ha hb h i hi
    cases seg with
    | literal s =>
      rw [render, render] at h
      exact ih hwf.tail hsame hplain ha hb (List.append_cancel_left h) i hi
    | field j =>
      have hj : j ∈ refs (.field j :: segs) := by simp
      have hsame' : ∀ i ∈ refs segs, (a i).type = (b i).type :=
        fun i hi => hsame i (by simp [hi])
      have hplain' : ∀ i ∈ refs segs, (a i).Plain :=
        fun i hi => hplain i (by simp [hi])
      rw [render, render] at h
      -- both the text and the rest agree, for one of three reasons
      have hsplit : (a j).keyText = (b j).keyText ∧
          render (fun i => (a i).keyText) segs =
            render (fun i => (b i).keyText) segs := by
        rcases hplain j hj with hstr | huuid
        · by_cases hlater : LaterString a segs
          · have hstr' : (b j).type = .string := (hsame j hj).symm.trans hstr
            have hlater' : LaterString b segs := by
              obtain ⟨k, hk, hks⟩ := hlater
              exact ⟨k, hk, (hsame' k hk).symm.trans hks⟩
            have hca := ha.1 hstr hlater
            have hcb := hb.1 hstr' hlater'
            rcases hwf.field with rfl | ⟨s, rest, rfl, hs, hnext⟩
            · obtain ⟨k, hk, -⟩ := hlater
              cases hk
            · rw [hnext] at hca hcb
              rw [render, render] at h ⊢
              obtain ⟨htext, hrest⟩ := hca.split hcb h
              exact ⟨htext, by rw [hrest]⟩
          · exact List.append_inj' h (length_render_eq hsame' hplain' hlater)
        · refine List.append_inj h ?_
          rw [length_keyText huuid, length_keyText ((hsame j hj).symm.trans huuid)]
      have hrest := ih hwf.tail hsame' hplain' ha.2 hb.2 hsplit.2
      rw [refs_field, List.mem_cons] at hi
      rcases hi with rfl | hi
      · exact keyText_inj (hplain i hj) (hsame i hj) hsplit.1
      · exact hrest i hi

/-! ## Items of a table -/

variable {text : TextMethods ν} {pointers : Nat} {t : StructType}

theorem fieldToString_plain {h : Handle ν} (hacc : h.accessible = true)
    (hplain : h.value.Plain) : fieldToString text h = .ok h.value.keyText := by
  obtain ⟨acc, value⟩ := h
  cases hacc
  cases value with
  | string s => rfl
  | uuid u => rfl
  | other d x => rcases hplain with hp | hp <;> cases hp

variable {s : GoString}

theorem accessible_of_fieldToString {h : Handle ν} (hs : fieldToString text h = .ok s) :
    h.accessible = true := by
  obtain ⟨acc, value⟩ := h
  cases acc with
  | false => cases hs
  | true => rfl

/-- The fields of the pattern are plain. -/
def PlainFields (t : StructType) (kf : KeyFormat) : Prop :=
  ∀ i ∈ kf.refs, ∀ f, t.fields[i]? = some f → f.type = .string ∨ f.type = .uuid

variable {kf : KeyFormat}

section

variable (hacc : Accepted t kf) (hplain : PlainFields t kf)

include hacc hplain

theorem Item.plain (item : Item t ν) :
    ∀ i ∈ kf.refs, (item.value i).Plain := by
  intro i hi
  obtain ⟨f, hf, -⟩ := hacc.fields i hi
  rw [Value.Plain, item.typed i f hf]
  exact hplain i hi f hf

theorem encode_plain (item : Item t ν) (h : kf.encode text (item.handles pointers) = .ok s) :
    s = render (fun i => (item.value i).keyText) kf.segments := by
  have hrender : kf.encode text (item.handles pointers) =
      .ok (render (fun i => (item.value i).keyText) kf.segments) := by
    refine encodeSegments_eq_render fun i hi => ?_
    obtain ⟨ti, hti⟩ := fieldToString_of_encode h i hi
    exact fieldToString_plain (accessible_of_fieldToString hti)
      (item.plain hacc hplain i hi)
  rw [hrender] at h
  cases h
  rfl

theorem exists_encode (hexp : ∀ i ∈ kf.refs, t.exported i = true) (item : Item t ν) :
    ∃ s, kf.encode text (item.handles 0) = .ok s := by
  refine ⟨_, encodeSegments_eq_render fun i hi => fieldToString_plain ?_
    (item.plain hacc hplain i hi)⟩
  show (0 == 0 && t.exported i) = true
  rw [hexp i hi]
  rfl

theorem encode_inj (hsep : Separated kf.segments)
    {a b : Item t ν} (ha : Unambiguous a.value kf.segments) (hb : Unambiguous b.value kf.segments)
    (hsa : kf.encode text (a.handles pointers) = .ok s)
    (hsb : kf.encode text (b.handles pointers) = .ok s) :
    ∀ i ∈ kf.refs, a.value i = b.value i := by
  refine render_inj ⟨hacc.literals, hsep⟩ (fun i hi => ?_) (a.plain hacc hplain) ha hb ?_
  · obtain ⟨f, hf, -⟩ := hacc.fields i hi
    rw [a.typed i f hf, b.typed i f hf]
  · rw [← encode_plain hacc hplain a hsa, ← encode_plain hacc hplain b hsb]

end

theorem buildKey_eq_ok {tags : StructMeta} {pk sk : KeyFormat}
    (hpk : tags.pkField.format = some pk) (hsk : tags.skField.format = some sk)
    {v : Nat → Handle ν} {p s : GoString} :
    buildKey text tags v = .ok (p, s) ↔
      pk.encode text v = .ok p ∧ sk.encode text v = .ok s := by
  have hpkEnc : tags.pkField.encode text v = pk.encode text v := by
    rw [FieldMeta.encode, hpk]
  have hskEnc : tags.skField.encode text v = sk.encode text v := by
    rw [FieldMeta.encode, hsk]
  simp [buildKey, hpkEnc, hskEnc, Out.bind_eq_ok, Out.mapError_eq_ok]

variable (text) in
/-- Items with unambiguous values that differ in a field of their keys differ in their keys,
which are built if the type argument is the struct itself and the fields are exported. -/
theorem buildKey_distinct {tags : StructMeta}
    (hnew : newTable (.struct pointers t) = .ok tags) {pk sk : KeyFormat}
    (hpk : tags.pkField.format = some pk) (hsk : tags.skField.format = some sk)
    (hpkSep : Separated pk.segments) (hskSep : Separated sk.segments)
    (hpkPlain : PlainFields t pk) (hskPlain : PlainFields t sk) (a b : Item t ν)
    (hdiff : ∃ i ∈ pk.refs ++ sk.refs, a.value i ≠ b.value i)
    (ha : Unambiguous a.value pk.segments ∧ Unambiguous a.value sk.segments)
    (hb : Unambiguous b.value pk.segments ∧ Unambiguous b.value sk.segments) :
    (∀ ka kb, buildKey text tags (a.handles pointers) = .ok ka →
      buildKey text tags (b.handles pointers) = .ok kb → ka ≠ kb) ∧
    (pointers = 0 → (∀ i ∈ pk.refs ++ sk.refs, t.exported i = true) →
      ∃ ka kb, buildKey text tags (a.handles pointers) = .ok ka ∧
        buildKey text tags (b.handles pointers) = .ok kb) := by
  have hpkAcc := newTable_accepted hnew (.inl rfl) hpk
  have hskAcc := newTable_accepted hnew (.inr rfl) hsk
  constructor
  · rintro ⟨pka, ska⟩ ⟨pkb, skb⟩ hka hkb heq
    cases heq
    obtain ⟨hapk, hask⟩ := (buildKey_eq_ok hpk hsk).mp hka
    obtain ⟨hbpk, hbsk⟩ := (buildKey_eq_ok hpk hsk).mp hkb
    have hpkSame := encode_inj hpkAcc hpkPlain hpkSep ha.1 hb.1 hapk hbpk
    have hskSame := encode_inj hskAcc hskPlain hskSep ha.2 hb.2 hask hbsk
    obtain ⟨i, hi, hne⟩ := hdiff
    rcases List.mem_append.mp hi with hi | hi
    · exact hne (hpkSame i hi)
    · exact hne (hskSame i hi)
  · rintro rfl hexp
    have hbuild : ∀ item : Item t ν, ∃ k, buildKey text tags (item.handles 0) = .ok k := by
      intro item
      obtain ⟨p, hp⟩ := exists_encode hpkAcc hpkPlain
        (fun i hi => hexp i (List.mem_append_left _ hi)) item
      obtain ⟨s, hs⟩ := exists_encode hskAcc hskPlain
        (fun i hi => hexp i (List.mem_append_right _ hi)) item
      exact ⟨(p, s), (buildKey_eq_ok hpk hsk).mpr ⟨hp, hs⟩⟩
    obtain ⟨ka, hka⟩ := hbuild a
    obtain ⟨kb, hkb⟩ := hbuild b
    exact ⟨ka, kb, hka, hkb⟩

theorem noteType_plain {segs : List KeySegment} : PlainFields noteType ⟨segs⟩ := by
  intro i _ f hf
  have hmem : f ∈ noteType.fields := List.mem_of_getElem? hf
  simp only [noteType, List.mem_cons, List.not_mem_nil, or_false] at hmem
  rcases hmem with rfl | rfl | rfl
  · exact .inr rfl
  · exact .inl rfl
  · exact .inl rfl

theorem notes_distinct : ∃ ka kb,
    buildKey noText noteTags ((note tenant (bytes "memo") (bytes "first")).handles 0) =
      .ok ka ∧
    buildKey noText noteTags ((note tenant (bytes "memo") (bytes "second")).handles 0) =
      .ok kb ∧ ka ≠ kb := by
  have hclear : ∀ name, Unambiguous (note tenant (bytes "memo") name).value
        [.literal (bytes "T#"), .field 0] ∧
      Unambiguous (note tenant (bytes "memo") name).value noteSK.segments := by
    intro name
    refine ⟨⟨fun h => (nomatch h), trivial⟩, fun _ _ => ?_, fun _ h => ?_, trivial⟩
    · show Clear (bytes "memo") (bytes "#")
      decide
    · obtain ⟨j, hj, -⟩ := h
      cases hj
  obtain ⟨hne, hbuilt⟩ := buildKey_distinct noText newTable_note rfl rfl
    (by decide) (by decide) noteType_plain noteType_plain
    (note tenant (bytes "memo") (bytes "first"))
    (note tenant (bytes "memo") (bytes "second")) ⟨2, by decide, by decide⟩
    (hclear _) (hclear _)
  obtain ⟨ka, kb, hka, hkb⟩ := hbuilt rfl (by decide)
  exact ⟨ka, kb, hka, hkb, hne ka kb hka hkb⟩

/-- Two notes with one key. -/
theorem notes_collide :
    newTable (.struct 0 noteType) = .ok noteTags ∧
    (∃ pk sk, noteTags.pkField.format = some pk ∧ noteTags.skField.format = some sk ∧
      Separated pk.segments ∧ Separated sk.segments ∧ PlainFields noteType pk ∧
      PlainFields noteType sk ∧
      ∃ i ∈ pk.refs ++ sk.refs, (note tenant (bytes "x#y") (bytes "z")).value i ≠
        (note tenant (bytes "x") (bytes "y#z")).value i) ∧
    ∃ k, buildKey noText noteTags ((note tenant (bytes "x#y") (bytes "z")).handles 0) =
        .ok k ∧
      buildKey noText noteTags ((note tenant (bytes "x") (bytes "y#z")).handles 0) =
        .ok k := by
  refine ⟨newTable_note, ⟨_, _, rfl, rfl, by decide, by decide, noteType_plain,
    noteType_plain, 2, by decide, by decide⟩, ?_⟩
  refine ⟨(bytes "T#0000000a-0000-0000-0000-000000000000", bytes "x#y#z"), ?_, ?_⟩
  · decide +kernel
  · decide +kernel

end Distinct

end Microjet.Dynamo
