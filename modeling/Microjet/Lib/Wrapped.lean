import Mathlib.Data.List.Basic

/-!
# Values that wrap values

`find` walks the tree, a value before what it wraps: the answer is the first in the list of all
of them in this order (`find_eq_findSome`).
-/

namespace Wrapped

/-- A value with those it wraps. -/
inductive Tree (ν : Type) where
  | node (own : ν) (wrapped : List (Tree ν))

namespace Tree

variable {ν β : Type}

/-- The value itself. -/
def own : Tree ν → ν
  | .node own _ => own

mutual

/-- The first for which there is an answer. -/
def find (f : Tree ν → Option β) : Tree ν → Option β
  | .node own wrapped => (f (.node own wrapped)).or (findList f wrapped)

/-- The same for several. -/
def findList (f : Tree ν → Option β) : List (Tree ν) → Option β
  | [] => none
  | t :: ts => (find f t).or (findList f ts)

end

mutual

/-- All that a walk comes to, in its order. -/
def subtrees : Tree ν → List (Tree ν)
  | .node own wrapped => .node own wrapped :: subtreesList wrapped

/-- The same for several. -/
def subtreesList : List (Tree ν) → List (Tree ν)
  | [] => []
  | t :: ts => subtrees t ++ subtreesList ts

end

mutual

theorem find_eq_findSome (f : Tree ν → Option β) : ∀ t : Tree ν,
    t.find f = t.subtrees.findSome? f
  | .node own wrapped => by
      rw [find, subtrees, List.findSome?_cons, findList_eq_findSome f wrapped]
      cases f (.node own wrapped) <;> rfl

theorem findList_eq_findSome (f : Tree ν → Option β) : ∀ ts : List (Tree ν),
    findList f ts = (subtreesList ts).findSome? f
  | [] => rfl
  | t :: ts => by
      rw [findList, subtreesList, List.findSome?_append, find_eq_findSome f t,
        findList_eq_findSome f ts]

end

mutual

theorem subtrees_subset {s : Tree ν} : ∀ t : Tree ν, s ∈ t.subtrees →
    s.subtrees ⊆ t.subtrees
  | .node own wrapped, h => by
      rw [subtrees, List.mem_cons] at h
      rcases h with rfl | h
      · exact fun _ hr => hr
      · intro r hr
        rw [subtrees]
        exact List.mem_cons_of_mem _ (subtreesList_subset wrapped h hr)

theorem subtreesList_subset {s : Tree ν} : ∀ ts : List (Tree ν), s ∈ subtreesList ts →
    s.subtrees ⊆ subtreesList ts
  | [], h => nomatch h
  | t :: ts, h => by
      rw [subtreesList, List.mem_append] at h
      intro r hr
      rw [subtreesList, List.mem_append]
      rcases h with h | h
      · exact .inl (subtrees_subset t h hr)
      · exact .inr (subtreesList_subset ts h hr)

end

/-- One of them has the property. -/
def any (p : ν → Bool) (t : Tree ν) : Bool :=
  (t.find fun s => if p s.own then some () else none).isSome

theorem any_eq_true {p : ν → Bool} {t : Tree ν} :
    t.any p = true ↔ ∃ s ∈ t.subtrees, p s.own = true := by
  rw [any, find_eq_findSome, List.findSome?_isSome_iff]
  simp

theorem any_node_singleton (p : ν → Bool) (own : ν) (inner : Tree ν) :
    (node own [inner]).any p = (p own || inner.any p) := by
  rw [Bool.eq_iff_iff, Bool.or_eq_true, any_eq_true, any_eq_true]
  simp [subtrees, subtreesList, Tree.own]

end Tree

end Wrapped
