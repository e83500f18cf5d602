import Mathlib.Data.List.Basic
import Mathlib.Data.List.Infix
import Mathlib.Data.List.Pairwise

/-!
# Trees of tables, as the list of their leaves

A leaf has for its key the names on the way to it, with a separator between them. A key cannot
at once be a leaf and a table, so the keys of a tree are `Apart`. A leaf that was set to no
value (`none`) is there; a table without leaves is not.
-/

namespace LeafTree

variable {A V : Type} {d : A}

/-- The key `k` is in the table `s`. -/
def Below (d : A) (s k : List A) : Prop := s ++ [d] <+: k

instance [DecidableEq A] (s k : List A) : Decidable (Below d s k) :=
  inferInstanceAs (Decidable (s ++ [d] <+: k))

/-- The key is the one asked for, or in the table asked for. -/
def Under (d : A) (s k : List A) : Prop := k = s ∨ Below d s k

instance [DecidableEq A] (s k : List A) : Decidable (Under d s k) :=
  inferInstanceAs (Decidable (_ ∨ _))

/-- Neither key is the other one, or the table the other one is in. -/
def Apart (d : A) (k k' : List A) : Prop := ¬Under d k k' ∧ ¬Under d k' k

instance [DecidableEq A] (k k' : List A) : Decidable (Apart d k k') :=
  inferInstanceAs (Decidable (_ ∧ _))

theorem Below.exists {s k : List A} (h : Below d s k) : ∃ rest, k = s ++ d :: rest := by
  obtain ⟨rest, rfl⟩ := h
  exact ⟨rest, by simp⟩

theorem below_append (s rest : List A) : Below d s (s ++ d :: rest) :=
  ⟨rest, by simp⟩

theorem not_below_self (s : List A) : ¬Below d s s := by
  intro h
  have hlen := h.length_le
  rw [List.length_append, List.length_singleton] at hlen
  omega

variable {k k' : List A}

theorem Apart.symm (h : Apart d k k') : Apart d k' k := ⟨h.2, h.1⟩

theorem Apart.ne (h : Apart d k k') : k ≠ k' := fun he => h.1 (.inl he.symm)

theorem apart_append {s k k' : List A} :
    Apart d (s ++ d :: k) (s ++ d :: k') ↔ Apart d k k' := by
  have hunder (k k' : List A) : Under d (s ++ d :: k) (s ++ d :: k') ↔ Under d k k' := by
    unfold Under Below
    simp only [List.append_assoc, List.cons_append, List.append_cancel_left_eq,
      List.cons.injEq, true_and, List.prefix_append_right_inj, List.prefix_cons_inj]
  unfold Apart
  rw [hunder, hunder]

theorem under_of_cons_append (k : List A) {a rest more : List A}
    (h : d :: rest = a ++ d :: more) : Under d k (k ++ a) := by
  cases a with
  | nil => exact .inl (List.append_nil k)
  | cons c a =>
    obtain ⟨rfl, -⟩ := List.cons.inj h
    exact .inr (below_append k a)

theorem Apart.append (h : Apart d k k') (rest : List A) :
    Apart d (k ++ d :: rest) k' := by
  constructor
  · rintro (rfl | hb)
    · exact h.1 (.inr (below_append k rest))
    · obtain ⟨more, rfl⟩ := hb.exists
      exact h.1 (.inr ⟨rest ++ d :: more, by simp⟩)
  · rintro (he | hb)
    · exact h.1 (he ▸ .inr (below_append k rest))
    · obtain ⟨more, he⟩ := hb.exists
      -- Both keys are on the way to one key: the shorter one is on the way to the other.
      rcases List.append_eq_append_iff.mp he with ⟨a, rfl, ha⟩ | ⟨a, rfl, ha⟩
      · exact h.1 (under_of_cons_append k ha)
      · exact h.2 (under_of_cons_append k' ha)

theorem apart_of_length_lt {s n k : List A} (hn : d ∉ n) (hlen : k.length < n.length)
    (hs : ¬Under d k s) : Apart d (s ++ d :: n) k := by
  have hlong : k.length < (s ++ d :: n).length := by
    rw [List.length_append, List.length_cons]
    omega
  constructor
  · rintro (rfl | hb)
    · omega
    · have hle := hb.length_le
      rw [List.length_append] at hle
      omega
  · rintro (rfl | hb)
    · omega
    · obtain ⟨more, he⟩ := hb.exists
      rcases List.append_eq_append_iff.mp he with ⟨a, rfl, ha⟩ | ⟨a, rfl, ha⟩
      · cases a with
        | nil => exact hs (.inl (List.append_nil s).symm)
        | cons c a =>
          obtain ⟨-, rfl⟩ := List.cons.inj ha
          exact hn (List.mem_append_right a List.mem_cons_self)
      · exact hs (under_of_cons_append k ha)

theorem Under.below {k s k' : List A} (h : Under d k s) (hb : Below d s k') : Below d k k' := by
  obtain ⟨rest, rfl⟩ := hb.exists
  rcases h with rfl | h
  · exact hb
  · obtain ⟨more, rfl⟩ := h.exists
    exact ⟨more ++ d :: rest, by simp⟩

/-- The leaves of a tree. -/
@[ext]
structure Tree (d : A) (V : Type) where
  entries : List (List A × Option V)
  apart : entries.Pairwise fun e e' => Apart d e.1 e'.1

/-- What is under a key. -/
inductive Node (d : A) (V : Type) where
  | nil
  | leaf (x : V)
  | table (t : Tree d V)

namespace Node

/-- A leaf or nothing. -/
def ofOption : Option V → Node d V
  | none => .nil
  | some x => .leaf x

/-- There is nothing. -/
def isNil : Node d V → Bool
  | .nil => true
  | .leaf _ | .table _ => false

/-- The first that is something. -/
def or (x y : Node d V) : Node d V := if x.isNil then y else x

theorem or_ofOption (o o' : Option V) :
    (ofOption o : Node d V).or (ofOption o') = ofOption (o.or o') := by
  cases o <;> rfl

theorem isNil_ofOption (o : Option V) : (ofOption o : Node d V).isNil = o.isNone := by
  cases o <;> rfl

end Node

namespace Tree

variable [DecidableEq A]

/-- No leaves. -/
def empty : Tree d V := ⟨[], .nil⟩

/-- The keys of the leaves. -/
def keys (t : Tree d V) : List (List A) := t.entries.map (·.1)

/-- The value of the leaf `k`, if there is such a leaf and it holds one. -/
def leaf (t : Tree d V) (k : List A) : Option V :=
  (t.entries.find? (·.1 = k)).bind (·.2)

/-- The table under a key. -/
def below (t : Tree d V) (s : List A) : Tree d V where
  entries := t.entries.filterMap fun e =>
    if Below d s e.1 then some (e.1.drop (s.length + 1), e.2) else none
  apart := by
    refine t.apart.filterMap _ ?_
    intro e e' hap b hb b' hb'
    simp only [Option.ite_none_right_eq_some, Option.some.injEq] at hb hb'
    obtain ⟨hbelow, rfl⟩ := hb
    obtain ⟨hbelow', rfl⟩ := hb'
    obtain ⟨rest, hk⟩ := hbelow.exists
    obtain ⟨rest', hk'⟩ := hbelow'.exists
    rw [hk, hk', apart_append] at hap
    simpa [hk, hk'] using hap

/-- What is under a key. -/
def search (t : Tree d V) (k : List A) : Node d V :=
  match t.entries.find? (·.1 = k) with
  | some (_, some x) => .leaf x
  | some (_, none) => .nil
  | none => if (t.below k).entries = [] then .nil else .table (t.below k)

/-- The leaf `k` gets the value in its place; a new leaf replaces a table of its name, or a leaf
above. -/
def put (t : Tree d V) (k : List A) (o : Option V) : Tree d V where
  entries :=
    if k ∈ t.keys then t.entries.map fun e => if e.1 = k then (k, o) else e
    else t.entries.filter (fun e => Apart d e.1 k) ++ [(k, o)]
  apart := by
    have hkey (e : List A × Option V) : (if e.1 = k then (k, o) else e).1 = e.1 := by
      split
      · rename_i he
        exact he.symm
      · rfl
    split
    · rw [List.pairwise_map]
      refine t.apart.imp fun {e e'} h => ?_
      rwa [hkey e, hkey e']
    · rw [List.pairwise_append]
      refine ⟨t.apart.filter _, List.pairwise_singleton _ _, ?_⟩
      intro e he e' he'
      rw [List.mem_singleton] at he'
      subst he'
      simpa using (List.mem_filter.mp he).2

/-- The table `s` is put at the key `k`. -/
def graft (t : Tree d V) (k : List A) (s : Tree d V) : Tree d V where
  entries := t.entries.filter (fun e => Apart d e.1 k) ++
    s.entries.map fun e => (k ++ d :: e.1, e.2)
  apart := by
    rw [List.pairwise_append, List.pairwise_map]
    refine ⟨t.apart.filter _, s.apart.imp fun {e e'} h => apart_append.mpr h, ?_⟩
    intro e he e' he'
    obtain ⟨b, -, rfl⟩ := List.mem_map.mp he'
    have hap : Apart d e.1 k := by simpa using (List.mem_filter.mp he).2
    exact (hap.symm.append b.1).symm

/-- Something is put under a key. -/
def set (t : Tree d V) (k : List A) : Node d V → Tree d V
  | .nil => t.put k none
  | .leaf x => t.put k (some x)
  | .table s => t.graft k s

variable {t : Tree d V} {k k' s : List A} {o : Option V} {x : V}

omit [DecidableEq A] in
theorem apart_of_ne {e e' : List A × Option V} (he : e ∈ t.entries) (he' : e' ∈ t.entries)
    (hne : e ≠ e') : Apart d e.1 e'.1 :=
  have : Std.Symm fun e e' : List A × Option V => Apart d e.1 e'.1 := ⟨fun _ _ h => h.symm⟩
  t.apart.forall he he' hne

omit [DecidableEq A] in
theorem eq_of_mem {e e' : List A × Option V} (he : e ∈ t.entries) (he' : e' ∈ t.entries)
    (hu : Under d e.1 e'.1) : e = e' := by
  by_contra hne
  exact (apart_of_ne he he' hne).1 hu

variable {e : List A × Option V}

theorem find_eq_some :
    t.entries.find? (·.1 = k) = some e ↔ e ∈ t.entries ∧ e.1 = k := by
  constructor
  · intro h
    exact ⟨List.mem_of_find?_eq_some h, by simpa using List.find?_some h⟩
  · rintro ⟨he, rfl⟩
    cases hf : t.entries.find? (·.1 = e.1) with
    | none =>
      have := List.find?_eq_none.mp hf e he
      simp at this
    | some e' =>
      have hk : e'.1 = e.1 := by simpa using List.find?_some hf
      rw [eq_of_mem (List.mem_of_find?_eq_some hf) he (.inl hk.symm)]

theorem leaf_eq_some : t.leaf k = some x ↔ (k, some x) ∈ t.entries := by
  unfold leaf
  rw [Option.bind_eq_some_iff]
  constructor
  · rintro ⟨⟨k', o⟩, he, rfl⟩
    obtain ⟨hmem, rfl⟩ := find_eq_some.mp he
    exact hmem
  · intro h
    exact ⟨_, find_eq_some.mpr ⟨h, rfl⟩, rfl⟩

theorem mem_keys_of_leaf (h : t.leaf k = some x) : k ∈ t.keys :=
  List.mem_map.mpr ⟨_, leaf_eq_some.mp h, rfl⟩

theorem leaf_eq_none_of_below (he : e ∈ t.entries) (hb : Below d e.1 k) : t.leaf k = none := by
  rw [Option.eq_none_iff_forall_not_mem]
  intro x hx
  have := eq_of_mem he (leaf_eq_some.mp hx) (.inr hb)
  subst this
  exact not_below_self _ hb

theorem leaf_below (rest : List A) : (t.below s).leaf rest = t.leaf (s ++ d :: rest) := by
  ext x
  rw [leaf_eq_some, leaf_eq_some, below, List.mem_filterMap]
  simp only [Option.ite_none_right_eq_some, Option.some.injEq, Prod.mk.injEq]
  constructor
  · rintro ⟨⟨k', o⟩, hmem, hb, hrest, ho⟩
    obtain ⟨rest', rfl⟩ := Below.exists hb
    have : rest' = rest := by simpa using hrest
    subst this
    dsimp only at ho
    rwa [← ho]
  · intro hmem
    exact ⟨_, hmem, below_append s rest, by simp, rfl⟩

/-- Setting a leaf changes that leaf, and of the others those that are not apart from it. -/
theorem mem_put :
    e ∈ (t.put k o).entries ↔ e = (k, o) ∨ (Apart d e.1 k ∧ e ∈ t.entries) := by
  unfold put
  dsimp only
  split
  · rename_i hk
    obtain ⟨b, hb, rfl⟩ := List.mem_map.mp hk
    rw [List.mem_map]
    constructor
    · rintro ⟨e', he', rfl⟩
      by_cases hkey : e'.1 = b.1
      · simp [hkey]
      · rw [if_neg hkey]
        have hne : e' ≠ b := fun h => hkey (congrArg _ h)
        exact .inr ⟨apart_of_ne he' hb hne, he'⟩
    · rintro (rfl | ⟨hap, he⟩)
      · exact ⟨b, hb, if_pos rfl⟩
      · exact ⟨e, he, if_neg hap.ne⟩
  · simp only [List.mem_append, List.mem_filter, decide_eq_true_eq, List.mem_singleton]
    constructor
    · rintro (⟨he, hap⟩ | he)
      · exact .inr ⟨hap, he⟩
      · exact .inl he
    · rintro (he | ⟨hap, he⟩)
      · exact .inr he
      · exact .inl ⟨he, hap⟩

theorem leaf_put_self : (t.put k o).leaf k = o := by
  ext x
  rw [leaf_eq_some, mem_put]
  constructor
  · rintro (h | ⟨hap, -⟩)
    · exact (Prod.mk.inj h).2.symm
    · exact absurd rfl hap.ne
  · intro h
    exact .inl (by rw [h])

theorem leaf_put_of_apart (h : Apart d k' k) : (t.put k o).leaf k' = t.leaf k' := by
  ext x
  rw [leaf_eq_some, leaf_eq_some, mem_put]
  constructor
  · rintro (he | ⟨-, he⟩)
    · exact absurd (Prod.mk.inj he).1 h.ne
    · exact he
  · intro he
    exact .inr ⟨h, he⟩

theorem put_of_leaf (h : t.leaf k = some x) : t.put k (some x) = t := by
  ext1
  unfold put
  dsimp only
  rw [if_pos (mem_keys_of_leaf h)]
  refine (List.map_congr_left fun e he => ?_).trans (List.map_id _)
  split
  · rename_i hk
    exact eq_of_mem (leaf_eq_some.mp h) he (.inl hk)
  · rfl

theorem set_ofOption : t.set k (.ofOption o) = t.put k o := by
  cases o <;> rfl

theorem mem_keys_put_self : k ∈ (t.put k o).keys :=
  List.mem_map.mpr ⟨(k, o), mem_put.mpr (.inl rfl), rfl⟩

theorem mem_keys_put_of_apart (hap : Apart d k' k) (h : k' ∈ t.keys) : k' ∈ (t.put k o).keys := by
  obtain ⟨e, he, rfl⟩ := List.mem_map.mp h
  exact List.mem_map_of_mem (mem_put.mpr (.inr ⟨hap, he⟩))

theorem mem_keys_put (h : k' ∈ (t.put k o).keys) : k' = k ∨ k' ∈ t.keys := by
  obtain ⟨e, he, rfl⟩ := List.mem_map.mp h
  rcases mem_put.mp he with rfl | ⟨-, he⟩
  · exact .inl rfl
  · exact .inr (List.mem_map_of_mem he)

end Tree

variable [DecidableEq A]

namespace Node

/-- The value that what is at `s` has for the leaf `k`. -/
def leafAt (s : List A) (k : List A) : Node d V → Option V
  | .nil => none
  | .leaf x => if k = s then some x else none
  | .table t => if Below d s k then t.leaf (k.drop (s.length + 1)) else none

variable {s k : List A}

theorem leafAt_or_of_isNil_eq_false {x y : Node d V} (h : x.isNil = false) :
    (x.or y).leafAt s k = x.leafAt s k := by
  rw [Node.or, h]
  rfl

theorem leafAt_or_eq_none {x y : Node d V} (hx : x.leafAt s k = none)
    (hy : y.leafAt s k = none) : (x.or y).leafAt s k = none := by
  unfold Node.or
  split
  · exact hy
  · exact hx

theorem leafAt_of_isNil {x : Node d V} (h : x.isNil = true) :
    x.leafAt s k = none := by
  cases x with
  | nil => rfl
  | leaf x => cases h
  | table t => cases h

end Node

theorem Tree.leafAt_search {t : Tree d V} {s k : List A} (hu : Under d s k) :
    (t.search s).leafAt s k = t.leaf k := by
  unfold Tree.search
  cases hf : t.entries.find? (·.1 = s) with
  | some e =>
    obtain ⟨he, rfl⟩ := Tree.find_eq_some.mp hf
    rcases hu with rfl | hb
    · have hleaf : t.leaf e.1 = e.2 := by rw [Tree.leaf, hf]; rfl
      obtain ⟨k, _ | x⟩ := e
      · exact hleaf.symm
      · exact (if_pos rfl).trans hleaf.symm
    · rw [Tree.leaf_eq_none_of_below he hb]
      have hne : k ≠ e.1 := fun h => not_below_self (d := d) _ (h ▸ hb)
      obtain ⟨k', _ | x⟩ := e
      · rfl
      · exact if_neg hne
  | none =>
    rcases hu with rfl | hb
    · have hleaf : t.leaf k = none := by rw [Tree.leaf, hf]; rfl
      rw [hleaf]
      dsimp only
      split
      · rfl
      · exact if_neg (not_below_self k)
    · obtain ⟨rest, rfl⟩ := hb.exists
      rw [← Tree.leaf_below]
      dsimp only
      split
      · rename_i hempty
        rw [Tree.leaf, hempty]
        rfl
      · rw [Node.leafAt, if_pos hb]
        simp

theorem Tree.search_of_forall_not_below {t : Tree d V} {k : List A}
    (h : ∀ k' ∈ t.keys, ¬Below d k k') :
    t.search k = .ofOption (t.leaf k) := by
  have hempty : (t.below k).entries = [] := by
    rw [Tree.below, List.filterMap_eq_nil_iff]
    intro e he
    exact if_neg (h _ (List.mem_map_of_mem he))
  unfold Tree.search Tree.leaf
  cases t.entries.find? (·.1 = k) with
  | none => exact if_pos hempty
  | some e => obtain ⟨k', _ | x⟩ := e <;> rfl

end LeafTree
