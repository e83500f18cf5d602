import Microjet.Proofs.JsonNumbers

/-!
# Texts that pass through an untyped value

`passes` says by induction over the text when the second reading gives what the type reads from
the first text: every integer is what its nearest double is printed as, and every method
`UnmarshalJSON` reads the same from the text it gets (`Keeps`).
-/

namespace Microjet.Jsonx

open Assoc Binary

theorem Json.inductionOn {P : Json → Prop} (null : P .null) (bool : ∀ b, P (.bool b))
    (num : ∀ l, P (.num l)) (str : ∀ s, P (.str s))
    (arr : ∀ es, (∀ e ∈ es, P e) → P (.arr es))
    (obj : ∀ ms, (∀ m ∈ ms, P m.2) → P (.obj ms)) (j : Json) : P j :=
  @Json.rec P (fun es => ∀ e ∈ es, P e) (fun ms => ∀ m ∈ ms, P m.2) (fun m => P m.2)
    null bool num str arr obj (by simp) (by simp +contextual) (by simp) (by simp +contextual)
    (fun _ _ h => h) j

/-! ## The text that is written -/

theorem unmarshalNamed_eq_some {ms : List (String × Json)} {bs : List (String × Untyped)} :
    unmarshalNamed ms = some bs ↔ Renders (fun _ => unmarshalAny) ms bs := by
  induction ms generalizing bs with
  | nil => rw [unmarshalNamed, renders_nil]
  | cons m ms ih =>
    rw [unmarshalNamed, renders_cons]
    simp only [Option.bind_eq_some_iff, Option.map_eq_some_iff, ih]

theorem marshalNamed_eq (order : MapOrder) (bs : List (String × Untyped)) :
    marshalNamed order bs = bs.map fun b => (b.1, marshalAny order b.2) := by
  induction bs with
  | nil => rfl
  | cons b bs ih =>
    obtain ⟨k, v⟩ := b
    rw [marshalNamed, ih, List.map_cons]

/-- The members that are written. -/
def written (order : MapOrder) (bs : List (String × Untyped)) : List (String × Json) :=
  order.visit (marshalNamed order (keepLast bs))

theorem mem_written {order : MapOrder} {bs : List (String × Untyped)} {k : String} {j : Json} :
    (k, j) ∈ written order bs ↔ ∃ b, lookupLast k bs = some b ∧ j = marshalAny order b := by
  rw [written, (order.perm _).mem_iff, marshalNamed_eq, List.mem_map]
  constructor
  · rintro ⟨⟨k', b⟩, hmem, heq⟩
    obtain ⟨rfl, rfl⟩ := Prod.mk.inj heq
    rw [← lookupLast_keepLast]
    exact ⟨b, (lookupLast_eq_some (nodup_keepLast bs)).mpr hmem, rfl⟩
  · rintro ⟨b, hb, rfl⟩
    rw [← lookupLast_keepLast] at hb
    exact ⟨(k, b), mem_of_lookupLast hb, rfl⟩

theorem lookupLast_written (order : MapOrder) (bs : List (String × Untyped)) (k : String) :
    lookupLast k (written order bs) = (lookupLast k bs).map (marshalAny order) := by
  have hnodup : ((written order bs).map Prod.fst).Nodup := by
    rw [written, ((order.perm _).map Prod.fst).nodup_iff, marshalNamed_eq, List.map_map]
    exact nodup_keepLast bs
  ext j
  rw [lookupLast_eq_some hnodup, mem_written, Option.map_eq_some_iff]
  simp only [eq_comm]

theorem isNull_marshalAny {order : MapOrder} {j : Json} {b : Untyped}
    (h : unmarshalAny j = some b) : (marshalAny order b).isNull = j.isNull := by
  cases j with
  | null => obtain rfl := Option.some.inj h; rfl
  | bool _ => obtain rfl := Option.some.inj h; rfl
  | str _ => obtain rfl := Option.some.inj h; rfl
  | num l => obtain ⟨y, -, rfl⟩ := Option.map_eq_some_iff.mp h; rfl
  | arr es => obtain ⟨bs, -, rfl⟩ := Option.map_eq_some_iff.mp h; rfl
  | obj ms => obtain ⟨bs, -, rfl⟩ := Option.map_eq_some_iff.mp h; rfl

/-! ## Texts of a type -/

section Typed

variable {τ ω : Type} (G : Types τ ω) (lower : String → String)

mutual

/-- What the encoding of a value has besides: a `float32` is printed as such, an array has its
length, and the members of a struct are under the names of its fields, each at most once. -/
def EncodedAs (t : τ) : Json → Prop
  | .num l =>
    match G.shape t with
    | .float32 => Prints32 l
    | _ => True
  | .arr es =>
    match G.shape t with
    | .slice elem => EncodedElems elem es
    | .array len elem => es.length = len ∧ EncodedElems elem es
    | .any => EncodedElems { type := G.any } es
    | _ => True
  | .obj ms =>
    match G.shape t with
    | .map elem => EncodedMembers (fun k => some (k, elem)) ms
    | .struct fs => (ms.map Prod.fst).Nodup ∧ EncodedMembers (fieldOf lower fs) ms
    | .any => EncodedMembers (fun k => some (k, { type := G.any })) ms
    | _ => True
  | _ => True

/-- So are the elements. -/
def EncodedElems (elem : Ref τ) : List Json → Prop
  | [] => True
  | e :: es => EncodedAs elem.type e ∧ EncodedElems elem es

/-- So are the members. -/
def EncodedMembers (field : String → Option (String × Ref τ)) : List (String × Json) → Prop
  | [] => True
  | (k, j) :: ms =>
    (∃ r, field k = some (k, r) ∧ EncodedAs r.type j) ∧ EncodedMembers field ms

end

/-- A method `UnmarshalJSON` reads the same from the text that is written for `j`. -/
def OwnKeeps (read : Json → Option ω) (j : Json) : Prop :=
  ∀ order b, unmarshalAny j = some b → read (marshalAny order b) = read j

mutual

/-- The parts of a text that an untyped value does not keep are the same for the type. -/
def Keeps (t : τ) : Json → Prop
  | .num l =>
    match G.shape t with
    | .int _ _ => ReadsBack l.digits
    | .custom read => OwnKeeps read (.num l)
    | _ => True
  | .arr es =>
    match G.shape t with
    | .slice elem => KeepsElems elem es
    | .array _ elem => KeepsElems elem es
    | .any => KeepsElems { type := G.any } es
    | .custom read => OwnKeeps read (.arr es)
    | _ => True
  | .obj ms =>
    match G.shape t with
    | .map elem => KeepsMembers (fun k => some (k, elem)) ms
    | .struct fs => KeepsMembers (fieldOf lower fs) ms
    | .any => KeepsMembers (fun k => some (k, { type := G.any })) ms
    | .custom read => OwnKeeps read (.obj ms)
    | _ => True
  | _ => True

/-- So do the elements. -/
def KeepsElems (elem : Ref τ) : List Json → Prop
  | [] => True
  | e :: es => Keeps elem.type e ∧ KeepsElems elem es

/-- So do the members. -/
def KeepsMembers (field : String → Option (String × Ref τ)) : List (String × Json) → Prop
  | [] => True
  | (k, j) :: ms =>
    ((lookupLast k ms).isSome ∨ ∀ name r, field k = some (name, r) → Keeps r.type j) ∧
      KeepsMembers field ms

end

variable {G lower}

/-- The type gets `v` from the text written for `j` exactly if it keeps the text. -/
def Passes (G : Types τ ω) (lower : String → String) (j : Json) : Prop :=
  ∀ t v b, unmarshal G lower t j = some v → EncodedAs G lower t j → unmarshalAny j = some b →
    ((∀ order, unmarshal G lower t (marshalAny order b) = some v) ↔ Keeps G lower t j)

theorem pointers_injective (n : ℕ) : Function.Injective (pointers (ω := ω) n) := by
  induction n with
  | zero => exact fun _ _ h => h
  | succ n ih => exact fun _ _ h => ih (Value.pointer.inj h)

theorem map_eq_some_map {α β : Type} {F : α → β} (hF : Function.Injective F) {o : Option α}
    {a : α} : o.map F = some (F a) ↔ o = some a :=
  (Option.map_injective hF).eq_iff (b := some a)

variable {v : Value ω}

theorem Passes.through {j : Json} (hj : Passes G lower j) {r : Ref τ} {b : Untyped}
    (hv : through r.stars j (unmarshal G lower r.type j) = some v)
    (henc : EncodedAs G lower r.type j) (hb : unmarshalAny j = some b) :
    (∀ order, Jsonx.through r.stars (marshalAny order b)
      (unmarshal G lower r.type (marshalAny order b)) = some v) ↔ Keeps G lower r.type j := by
  unfold Jsonx.through at hv ⊢
  simp only [isNull_marshalAny hb]
  split at hv
  · next hnull =>
    -- `null` is written as `null`, and the type is not asked
    have hj' : j = .null := by
      cases j <;> simp_all [Json.isNull]
    simp only [if_pos hnull]
    simp [hv, hj', Keeps]
  · next hnull =>
    simp only [if_neg hnull]
    obtain ⟨v', hv', rfl⟩ := Option.map_eq_some_iff.mp hv
    rw [← hj r.type v' b hv' henc hb]
    exact forall_congr' fun order => map_eq_some_map (pointers_injective _)

variable {es : List Json}

theorem length_marshalAnys {order : MapOrder} {bs : List Untyped} (h : unmarshalAnys es = some bs) :
    (marshalAnys order bs).length = es.length := by
  induction es generalizing bs with
  | nil => obtain rfl := Option.some.inj h; rfl
  | cons e es ih =>
    obtain ⟨b, -, h⟩ := Option.bind_eq_some_iff.mp h
    obtain ⟨bs', hbs', rfl⟩ := Option.map_eq_some_iff.mp h
    simp [marshalAnys, ih hbs']

variable {elem : Ref τ}

theorem unmarshalElems_iff (hes : ∀ e ∈ es, Passes G lower e) {n : ℕ} (hn : es.length ≤ n)
    {vs : List (Value ω)} {bs : List Untyped} (hvs : unmarshalElems G lower elem n es = some vs)
    (henc : EncodedElems G lower elem es) (hbs : unmarshalAnys es = some bs) :
    (∀ order, unmarshalElems G lower elem n (marshalAnys order bs) = some vs) ↔
      KeepsElems G lower elem es := by
  induction es generalizing n vs bs with
  | nil =>
    obtain rfl := Option.some.inj hbs
    have hnil : unmarshalElems G lower elem n [] = some [] := by
      cases n <;> rfl
    rw [hnil] at hvs
    simp [marshalAnys, hnil, hvs, KeepsElems]
  | cons e es ih =>
    obtain ⟨n, rfl⟩ : ∃ m, n = m + 1 := ⟨n - 1, by simp at hn; omega⟩
    obtain ⟨b, hb, hrest⟩ := Option.bind_eq_some_iff.mp hbs
    obtain ⟨bs, hbs', rfl⟩ := Option.map_eq_some_iff.mp hrest
    rw [unmarshalElems] at hvs
    obtain ⟨v, hv, hread⟩ := Option.bind_eq_some_iff.mp hvs
    obtain ⟨vs, hvs', rfl⟩ := Option.map_eq_some_iff.mp hread
    rw [EncodedElems] at henc
    have hhead := (hes e List.mem_cons_self).through hv henc.1 hb
    have htail := ih (fun e' he' => hes e' (List.mem_cons_of_mem _ he'))
      (by simpa using hn) hvs' henc.2 hbs'
    rw [KeepsElems, ← hhead, ← htail, ← forall_and]
    refine forall_congr' fun order => ?_
    rw [marshalAnys, unmarshalElems, Option.bind_eq_some_iff]
    constructor
    · rintro ⟨w, hw, hrest⟩
      obtain ⟨ws, hws, heq⟩ := Option.map_eq_some_iff.mp hrest
      obtain ⟨rfl, rfl⟩ := List.cons.inj heq
      exact ⟨hw, hws⟩
    · rintro ⟨hw, hws⟩
      exact ⟨v, hw, Option.map_eq_some_iff.mpr ⟨vs, hws, rfl⟩⟩

/-- A member is read. -/
def readMember (G : Types τ ω) (lower : String → String) (field : String → Option (String × Ref τ))
    (k : String) (j : Json) : Option (Value ω) :=
  (field k).bind fun p => Jsonx.through p.2.stars j (unmarshal G lower p.2.type j)

/-- Every key is spelled as its field. -/
def Exact (field : String → Option (String × Ref τ)) (ms : List (String × Json)) : Prop :=
  ∀ m ∈ ms, ∃ r, field m.1 = some (m.1, r)

variable {field : String → Option (String × Ref τ)} {ms : List (String × Json)}

theorem EncodedMembers.of_mem (h : EncodedMembers G lower field ms) {m : String × Json}
    (hm : m ∈ ms) : ∃ r, field m.1 = some (m.1, r) ∧ EncodedAs G lower r.type m.2 := by
  induction ms with
  | nil => cases hm
  | cons m' ms ih =>
    obtain ⟨k, j⟩ := m'
    rw [EncodedMembers] at h
    rcases List.mem_cons.mp hm with rfl | hm
    · exact h.1
    · exact ih h.2 hm

theorem unmarshalMembers_eq_some (hexact : Exact field ms) {vs : List (String × Value ω)} :
    unmarshalMembers G lower field ms = some vs ↔ Renders (readMember G lower field) ms vs := by
  induction ms generalizing vs with
  | nil => rw [unmarshalMembers, renders_nil]
  | cons m ms ih =>
    obtain ⟨k, j⟩ := m
    obtain ⟨r, hr⟩ := hexact _ List.mem_cons_self
    have hhead : readMember G lower field k j =
        Jsonx.through r.stars j (unmarshal G lower r.type j) := by
      simp [readMember, hr]
    have htail {vs : List (String × Value ω)} := @ih
      (fun m' hm' => hexact m' (List.mem_cons_of_mem _ hm')) vs
    rw [unmarshalMembers, hr, renders_cons]
    simp only [Option.bind_eq_some_iff, Option.map_eq_some_iff, htail, ← hhead]

theorem keepsMembers_iff : KeepsMembers G lower field ms ↔
    ∀ k j, lookupLast k ms = some j → ∀ name r, field k = some (name, r) →
      Keeps G lower r.type j := by
  induction ms with
  | nil => simp [KeepsMembers, lookupLast]
  | cons m ms ih =>
    obtain ⟨k, j⟩ := m
    rw [KeepsMembers, ih]
    constructor
    · rintro ⟨hhead, htail⟩ key j' hj'
      rw [lookupLast, Option.or_eq_some_iff] at hj'
      rcases hj' with hlater | ⟨hnone, hj'⟩
      · exact htail key j' hlater
      · split at hj'
        · next hk =>
          obtain rfl := Option.some.inj hj'
          subst hk
          rw [hnone] at hhead
          simpa using hhead
        · cases hj'
    · intro h
      constructor
      · cases hlater : lookupLast k ms with
        | some w => exact Or.inl rfl
        | none => exact Or.inr (h k j (by simp [lookupLast, hlater]))
      · intro key j' hj'
        exact h key j' (by simp [lookupLast, hj'])

theorem EncodedMembers.exact (h : EncodedMembers G lower field ms) : Exact field ms := by
  intro m hm
  obtain ⟨r, hr, -⟩ := h.of_mem hm
  exact ⟨r, hr⟩

section Written

variable {vs : List (String × Value ω)} {bs : List (String × Untyped)}
  (henc : EncodedMembers G lower field ms) (hread : Renders (readMember G lower field) ms vs)
  (hany : Renders (fun _ => unmarshalAny) ms bs)

include hany in
theorem exists_lookupLast {k : String} {b : Untyped} (hb : lookupLast k bs = some b) :
    ∃ j, lookupLast k ms = some j ∧ unmarshalAny j = some b := by
  rw [hany.lookupLast] at hb
  exact Option.bind_eq_some_iff.mp hb

include henc hread hany in
theorem exists_values {k : String} {j : Json} (hj : lookupLast k ms = some j) :
    ∃ r v b, field k = some (k, r) ∧ EncodedAs G lower r.type j ∧ lookupLast k bs = some b ∧
      unmarshalAny j = some b ∧ lookupLast k vs = some v ∧
      Jsonx.through r.stars j (unmarshal G lower r.type j) = some v := by
  have hmem := mem_of_lookupLast hj
  obtain ⟨r, hr, hjenc⟩ := henc.of_mem hmem
  obtain ⟨b, hb⟩ := hany.of_mem hmem
  obtain ⟨v, hv⟩ := hread.of_mem hmem
  refine ⟨r, v, b, hr, hjenc, ?_, hb, ?_, ?_⟩
  · rw [hany.lookupLast, hj]
    exact hb
  · rw [hread.lookupLast, hj]
    exact hv
  · simpa [readMember, hr] using hv

include henc hany in
theorem exact_written (order : MapOrder) : Exact field (written order bs) := by
  rintro ⟨k, j'⟩ hmem
  obtain ⟨b, hb, -⟩ := mem_written.mp hmem
  obtain ⟨j, hj, -⟩ := exists_lookupLast hany hb
  obtain ⟨r, hr⟩ := henc.exact _ (mem_of_lookupLast hj)
  exact ⟨r, hr⟩

include henc hread hany in
theorem written_iff (order : MapOrder) :
    (unmarshalMembers G lower field (written order bs)).map
        (fun ws => Value.fields fun k => lookupLast k ws) =
      some (.fields fun k => lookupLast k vs) ↔
    ∀ k b, lookupLast k bs = some b →
      readMember G lower field k (marshalAny order b) = lookupLast k vs := by
  have hexact := exact_written henc hany order
  rw [Option.map_eq_some_iff]
  constructor
  · rintro ⟨ws, hws, heq⟩ k b hb
    have hws' := ((unmarshalMembers_eq_some hexact).mp hws).lookupLast k
    rw [lookupLast_written, hb] at hws'
    exact hws'.symm.trans (congrFun (Value.fields.inj heq) k)
  · intro h
    have hsome : ∀ m ∈ written order bs, ∃ v, readMember G lower field m.1 m.2 = some v := by
      rintro ⟨k, j'⟩ hmem
      obtain ⟨b, hb, rfl⟩ := mem_written.mp hmem
      obtain ⟨j, hj, -⟩ := exists_lookupLast hany hb
      obtain ⟨-, v, -, -, -, -, -, hv, -⟩ := exists_values henc hread hany hj
      exact ⟨v, (h k b hb).trans hv⟩
    obtain ⟨ws, hws⟩ := exists_renders hsome
    refine ⟨ws, (unmarshalMembers_eq_some hexact).mpr hws, ?_⟩
    congr 1
    funext k
    rw [hws.lookupLast, lookupLast_written]
    cases hb : lookupLast k bs with
    | some b => exact h k b hb
    | none =>
      -- no member has the name, so no value has it either
      cases hj : lookupLast k ms with
      | none => simp [hread.lookupLast, hj]
      | some j =>
        obtain ⟨-, -, b, -, -, hb', -⟩ := exists_values henc hread hany hj
        rw [hb] at hb'
        cases hb'

end Written

theorem unmarshalMembers_iff (hms : ∀ m ∈ ms, Passes G lower m.2)
    (henc : EncodedMembers G lower field ms) {vs : List (String × Value ω)}
    {bs : List (String × Untyped)} (hvs : unmarshalMembers G lower field ms = some vs)
    (hbs : unmarshalNamed ms = some bs) :
    (∀ order, (unmarshalMembers G lower field (written order bs)).map
        (fun ws => Value.fields fun k => lookupLast k ws) =
      some (.fields fun k => lookupLast k vs)) ↔ KeepsMembers G lower field ms := by
  have hread := (unmarshalMembers_eq_some henc.exact).mp hvs
  have hany := unmarshalNamed_eq_some.mp hbs
  simp only [written_iff henc hread hany, keepsMembers_iff]
  constructor
  · intro h k j hj name r hr
    obtain ⟨r', v, b, hr', hjenc, hb, hjb, hv, hjv⟩ := exists_values henc hread hany hj
    obtain ⟨rfl, rfl⟩ := Prod.mk.inj (Option.some.inj (hr.symm.trans hr'))
    refine ((hms _ (mem_of_lookupLast hj)).through hjv hjenc hjb).mp fun order => ?_
    simpa [readMember, hr, hv] using h order _ b hb
  · intro h order k b hb
    obtain ⟨j, hj, hjb⟩ := exists_lookupLast hany hb
    obtain ⟨r, v, b', hr, hjenc, hb', -, hv, hjv⟩ := exists_values henc hread hany hj
    have hkeeps := ((hms _ (mem_of_lookupLast hj)).through hjv hjenc hjb).mpr (h k j hj k r hr)
    simpa [readMember, hr, hv] using hkeeps order

/-! ## Whole texts -/

instance : Nonempty MapOrder := ⟨id, fun _ => .refl _⟩

theorem own_iff {read : Json → Option ω} {j : Json} {b : Untyped}
    (hv : (read j).map Value.own = some v) (hb : unmarshalAny j = some b) :
    (∀ order, (read (marshalAny order b)).map Value.own = some v) ↔ OwnKeeps read j := by
  obtain ⟨w, hw, rfl⟩ := Option.map_eq_some_iff.mp hv
  simp only [map_eq_some_map fun _ _ => Value.own.inj]
  constructor
  · intro h order b' hb'
    obtain rfl := Option.some.inj (hb.symm.trans hb')
    rw [h order, hw]
  · intro h order
    rw [h order b hb, hw]

theorem passes_num (l : Literal) : Passes G lower (.num l) := by
  intro t v b hv henc hb
  obtain ⟨y, hy, rfl⟩ := Option.map_eq_some_iff.mp hb
  rw [unmarshal] at hv
  rw [EncodedAs] at henc
  simp only [marshalAny, unmarshal, Keeps]
  cases hshape : G.shape t with
  | int signed w =>
    simp only [hshape] at hv ⊢
    obtain ⟨n, hn, rfl⟩ := Option.map_eq_some_iff.mp hv
    rw [forall_const, ← readInt_appendFloat hn hy]
    exact map_eq_some_map fun _ _ => Value.int.inj
  | float32 =>
    simp only [hshape] at hv henc ⊢
    rw [parseFloat32_appendFloat henc hy]
    simpa [appendFloat_neg] using hv
  | float64 | any =>
    -- the double is the value, and its text is read as the same double
    simp only [hshape] at hv ⊢
    rw [parseFloat_appendFloat hy]
    rw [hy] at hv
    simpa [appendFloat_neg] using hv
  | custom read =>
    simp only [hshape] at hv ⊢
    exact own_iff (b := .float64 l.neg y) hv hb
  | _ => simp [hshape] at hv

theorem length_unmarshalElems {n : ℕ} {js : List Json} (hn : js.length ≤ n) {vs : List (Value ω)}
    (h : unmarshalElems G lower elem n js = some vs) :
    vs.length = js.length := by
  induction js generalizing n vs with
  | nil =>
    have hnil : unmarshalElems G lower elem n [] = some [] := by
      cases n <;> rfl
    rw [hnil] at h
    rw [← Option.some.inj h]
    rfl
  | cons e js ih =>
    obtain ⟨n, rfl⟩ : ∃ m, n = m + 1 := ⟨n - 1, by simp at hn; omega⟩
    rw [unmarshalElems] at h
    obtain ⟨v, -, h⟩ := Option.bind_eq_some_iff.mp h
    obtain ⟨vs', hvs', rfl⟩ := Option.map_eq_some_iff.mp h
    simpa using ih (by simpa using hn) hvs'

theorem list_iff (hes : ∀ e ∈ es, Passes G lower e) {bs : List Untyped}
    (hv : (unmarshalElems G lower elem es.length es).map .list = some v)
    (henc : EncodedElems G lower elem es) (hbs : unmarshalAnys es = some bs) :
    (∀ order, (unmarshalElems G lower elem es.length (marshalAnys order bs)).map .list = some v) ↔
      KeepsElems G lower elem es := by
  obtain ⟨vs, hvs, rfl⟩ := Option.map_eq_some_iff.mp hv
  rw [← unmarshalElems_iff hes le_rfl hvs henc hbs]
  exact forall_congr' fun order => map_eq_some_map fun _ _ => Value.list.inj

theorem passes_arr (hes : ∀ e ∈ es, Passes G lower e) :
    Passes G lower (.arr es) := by
  intro t v b hv henc hb
  obtain ⟨bs, hbs, rfl⟩ := Option.map_eq_some_iff.mp hb
  have hlength (order : MapOrder) : (marshalAnys order bs).length = es.length :=
    length_marshalAnys hbs
  rw [unmarshal] at hv
  rw [EncodedAs] at henc
  simp only [marshalAny, unmarshal, Keeps, hlength]
  cases hshape : G.shape t with
  | slice elem =>
    simp only [hshape] at hv henc ⊢
    exact list_iff hes hv henc hbs
  | any =>
    simp only [hshape] at hv henc ⊢
    exact list_iff hes hv henc hbs
  | array len elem =>
    simp only [hshape] at hv henc ⊢
    obtain ⟨rfl, henc⟩ := henc
    -- no place is left for zeros
    have hpad {js : List Json} (hjs : js.length = es.length) :
        (unmarshalElems G lower elem es.length js).map (fun vs =>
          Value.list (vs ++ List.replicate (es.length - vs.length) .zero)) =
        (unmarshalElems G lower elem es.length js).map .list := by
      refine Option.map_congr fun vs hvs => ?_
      rw [length_unmarshalElems hjs.le hvs, hjs, Nat.sub_self, List.replicate_zero,
        List.append_nil]
    simp only [hpad (hlength _)]
    exact list_iff hes ((hpad rfl).symm.trans hv) henc hbs
  | custom read =>
    simp only [hshape] at hv ⊢
    exact own_iff hv hb
  | _ => simp [hshape] at hv

theorem passes_obj {ms : List (String × Json)} (hms : ∀ m ∈ ms, Passes G lower m.2) :
    Passes G lower (.obj ms) := by
  intro t v b hv henc hb
  obtain ⟨bs, hbs, rfl⟩ := Option.map_eq_some_iff.mp hb
  rw [unmarshal] at hv
  rw [EncodedAs] at henc
  simp only [marshalAny, unmarshal, Keeps]
  cases hshape : G.shape t with
  | map elem =>
    simp only [hshape] at hv henc ⊢
    obtain ⟨vs, hvs, rfl⟩ := Option.map_eq_some_iff.mp hv
    exact unmarshalMembers_iff hms henc hvs hbs
  | struct fs =>
    simp only [hshape] at hv henc ⊢
    obtain ⟨vs, hvs, rfl⟩ := Option.map_eq_some_iff.mp hv
    exact unmarshalMembers_iff hms henc.2 hvs hbs
  | any =>
    simp only [hshape] at hv henc ⊢
    obtain ⟨vs, hvs, rfl⟩ := Option.map_eq_some_iff.mp hv
    exact unmarshalMembers_iff hms henc hvs hbs
  | custom read =>
    simp only [hshape] at hv ⊢
    exact own_iff hv hb
  | _ => simp [hshape] at hv

theorem passes (j : Json) : Passes G lower j := by
  induction j using Json.inductionOn with
  | null =>
    intro t v b hv _ hb
    obtain rfl := Option.some.inj hb
    simp [marshalAny, hv, Keeps]
  | bool x =>
    intro t v b hv _ hb
    obtain rfl := Option.some.inj hb
    simp [marshalAny, hv, Keeps]
  | str s =>
    intro t v b hv _ hb
    obtain rfl := Option.some.inj hb
    simp [marshalAny, hv, Keeps]
  | num l => exact passes_num l
  | arr es hes => exact passes_arr hes
  | obj ms hms => exact passes_obj hms

end Typed

/-! ## Numbers that a double can hold -/

mutual

/-- The numbers in it. -/
def Json.literals : Json → List Literal
  | .num l => [l]
  | .arr es => literalsOf es
  | .obj ms => literalsUnder ms
  | _ => []

def literalsOf : List Json → List Literal
  | [] => []
  | e :: es => e.literals ++ literalsOf es

def literalsUnder : List (String × Json) → List Literal
  | [] => []
  | (_, j) :: ms => j.literals ++ literalsUnder ms

end

end Microjet.Jsonx
