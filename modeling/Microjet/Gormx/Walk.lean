import Mathlib.Order.Defs.LinearOrder
import Microjet.Gormx.Pagination
import Microjet.Lib.Keyset

/-!
# Walking through pages

What the database makes of a query, and what a client does with the pages. `Sql` gives a
meaning to the texts the package writes, and `Sql.Reads` says what those about one column
mean; `NULL` sorts below every value or above. Rows that no order term tells apart may come in
another order at the next query.

A client asks for a page, passes on the token, and stops when there is none. Request `n` goes
to database `n`, so the table may change between requests.
-/

namespace Microjet.Gormx

open Errorx Microjet.Types

variable {ρ V : Type}

/-- The meaning of a comparison with one argument, and of an order term. -/
structure Sql (ρ V : Type) where
  holds : String → Option V → ρ → Bool
  le : String → ρ → ρ → Prop

section Meaning

variable (sql : Sql ρ V)

/-- The row meets the condition. -/
def Cond.holds (r : ρ) : Cond ρ V → Bool
  | .filter keep => keep r
  | .compare text arg => sql.holds text arg r

/-- All conditions hold of the row. -/
def Query.matches (q : Query ρ V) (r : ρ) : Bool := q.wheres.all (·.holds sql r)

/-- `ORDER BY` with several terms: each decides where those before it do not. -/
def lexLe : List String → ρ → ρ → Prop
  | [], _, _ => True
  | term :: terms, r, s => sql.le term r s ∧ (sql.le term s r → lexLe terms r s)

/-- `FROM`, `JOIN` and `WHERE`. -/
def Query.matching (q : Query ρ V) (rows : List ρ) : List ρ :=
  (rows.flatMap fun r => List.replicate (q.joins r) r).filter (q.matches sql)

/-- The rows without those that are the same as an earlier one. -/
def firstOf (same : ρ → ρ → Bool) : List ρ → List ρ
  | [] => []
  | r :: rows => r :: (firstOf same rows).filter fun s => !same r s

/-- `GROUP BY` and `HAVING`: one row of each group. -/
def Query.grouped (q : Query ρ V) (rows : List ρ) : List ρ :=
  match q.grouping with
  | none => rows
  | some g => (firstOf g.same rows).filter fun r => g.having (rows.filter (g.same r))

/-- `SELECT` and `DISTINCT`. -/
def Query.shown (q : Query ρ V) (rows : List ρ) : List ρ :=
  match q.distinct with
  | none => rows.map q.columns
  | some same => firstOf same (rows.map q.columns)

/-- `OFFSET` and `LIMIT`. -/
def Query.cut (q : Query ρ V) (rows : List ρ) : List ρ :=
  match q.limit with
  | none => rows.drop q.offset
  | some n => (rows.drop q.offset).take n

/-- A right answer of a database that holds `rows`. -/
def Query.Answers (q : Query ρ V) (rows items : List ρ) : Prop :=
  ∃ seen sorted : List ρ, (if q.skipLocked then seen.Subperm (q.matching sql rows)
      else seen.Perm (q.matching sql rows)) ∧
    sorted.Perm (q.grouped seen) ∧ sorted.Pairwise (lexLe sql q.orders) ∧
    items = q.cut (q.shown sorted)

instance decidableLexLe [∀ term, DecidableRel (sql.le term)] :
    ∀ terms : List String, DecidableRel (lexLe sql terms)
  | [] => fun _ _ => .isTrue trivial
  | term :: terms => fun r s =>
    have := decidableLexLe terms r s
    inferInstanceAs (Decidable (sql.le term r s ∧ (sql.le term s r → lexLe sql terms r s)))

/-- The answer of a database that keeps the order of rows it cannot tell apart. -/
def Query.eval [∀ term, DecidableRel (sql.le term)] (q : Query ρ V) (rows : List ρ) :
    List ρ :=
  q.cut (q.shown ((q.grouped (q.matching sql rows)).insertionSort (lexLe sql q.orders)))

variable {sql}

theorem lexLe_total (htotal : ∀ term r s, sql.le term r s ∨ sql.le term s r) :
    ∀ (terms : List String) (r s : ρ), lexLe sql terms r s ∨ lexLe sql terms s r := by
  intro terms
  induction terms with
  | nil =>
    intro r s
    exact .inl trivial
  | cons term terms ih =>
    intro r s
    by_cases hrs : sql.le term r s
    · by_cases hsr : sql.le term s r
      · rcases ih r s with h | h
        · exact .inl ⟨hrs, fun _ => h⟩
        · exact .inr ⟨hsr, fun _ => h⟩
      · exact .inl ⟨hrs, fun h => absurd h hsr⟩
    · exact .inr ⟨(htotal term r s).resolve_left hrs, fun h => absurd h hrs⟩

theorem lexLe_trans
    (htrans : ∀ term r s u, sql.le term r s → sql.le term s u → sql.le term r u) :
    ∀ (terms : List String) (r s u : ρ), lexLe sql terms r s → lexLe sql terms s u →
      lexLe sql terms r u := by
  intro terms
  induction terms with
  | nil =>
    intro r s u _ _
    trivial
  | cons term terms ih =>
    intro r s u hrs hsu
    refine ⟨htrans term r s u hrs.1 hsu.1, fun hur => ih r s u ?_ ?_⟩
    · exact hrs.2 (htrans term s u r hsu.1 hur)
    · exact hsu.2 (htrans term u r s hur hrs.1)

theorem eval_answers [∀ term, DecidableRel (sql.le term)]
    (htotal : ∀ term r s, sql.le term r s ∨ sql.le term s r)
    (htrans : ∀ term r s u, sql.le term r s → sql.le term s u → sql.le term r u)
    (q : Query ρ V) (rows : List ρ) : q.Answers sql rows (q.eval sql rows) := by
  have : Std.Total (lexLe sql q.orders) := ⟨lexLe_total htotal q.orders⟩
  have : IsTrans ρ (lexLe sql q.orders) := ⟨lexLe_trans htrans q.orders⟩
  refine ⟨_, _, ?_, List.perm_insertionSort _ _, List.pairwise_insertionSort _ _, rfl⟩
  split
  · exact List.Subperm.refl _
  · exact List.Perm.refl _

end Meaning

/-! ## A column -/

section Column

variable [LinearOrder V]

/-- Strictly beyond, which `NULL` never is. -/
def beyond (desc : Bool) : Option V → Option V → Bool
  | some a, some b => if desc then decide (b < a) else decide (a < b)
  | _, _ => false

/-- The order of values, with `NULL` at one end. -/
def leNull (nullsLow : Bool) : Option V → Option V → Prop
  | none, none => True
  | none, some _ => nullsLow = true
  | some _, none => nullsLow = false
  | some a, some b => a ≤ b

instance (nullsLow : Bool) : DecidableRel (leNull (V := V) nullsLow) := fun a b =>
  match a, b with
  | none, none => inferInstanceAs (Decidable True)
  | none, some _ => inferInstanceAs (Decidable (nullsLow = true))
  | some _, none => inferInstanceAs (Decidable (nullsLow = false))
  | some a, some b => inferInstanceAs (Decidable (a ≤ b))

/-- `leNull` in the direction of the request. -/
def leDir (nullsLow desc : Bool) (a b : Option V) : Prop :=
  if desc then leNull nullsLow b a else leNull nullsLow a b

instance (nullsLow desc : Bool) : DecidableRel (leDir (V := V) nullsLow desc) :=
  fun _ _ => inferInstanceAs (Decidable (if desc then _ else _))

/-- The database compares and sorts by the column as SQL says. -/
structure Sql.Reads (sql : Sql ρ V) (nullsLow : Bool) (col : String)
    (value : ρ → Option V) : Prop where
  gt : ∀ v r, sql.holds (col ++ " > ?") v r = beyond false v (value r)
  lt : ∀ v r, sql.holds (col ++ " < ?") v r = beyond true v (value r)
  asc : ∀ r s, sql.le (col ++ " ASC") r s ↔ leDir nullsLow false (value r) (value s)
  desc : ∀ r s, sql.le (col ++ " DESC") r s ↔ leDir nullsLow true (value r) (value s)

theorem leNull_total (nullsLow : Bool) (a b : Option V) :
    leNull nullsLow a b ∨ leNull nullsLow b a := by
  cases a with
  | none =>
    cases b with
    | none => exact .inl trivial
    | some b => cases nullsLow <;> simp [leNull]
  | some a =>
    cases b with
    | none => cases nullsLow <;> simp [leNull]
    | some b => exact le_total a b

theorem leNull_antisymm (nullsLow : Bool) (a b : Option V) (h : leNull nullsLow a b)
    (h' : leNull nullsLow b a) : a = b := by
  cases a with
  | none =>
    cases b with
    | none => rfl
    | some b =>
      simp only [leNull] at h h'
      rw [h] at h'
      cases h'
  | some a =>
    cases b with
    | none =>
      simp only [leNull] at h h'
      rw [h] at h'
      cases h'
    | some b => exact congrArg some (le_antisymm h h')

theorem leNull_trans (nullsLow : Bool) (a b c : Option V) (h : leNull nullsLow a b)
    (h' : leNull nullsLow b c) : leNull nullsLow a c := by
  cases a <;> cases b <;> cases c <;> simp only [leNull] at h h' ⊢ <;>
    first | assumption | exact le_trans h h' | (rw [h] at h'; cases h')

/-- The order that the walk is a keyset walk of. -/
def cursorOrder (V : Type) [LinearOrder V] (nullsLow desc : Bool) :
    Keyset.Order (Option V) where
  le := leDir nullsLow desc
  beyond := beyond desc
  le_total := by
    intro a b
    cases desc
    · exact leNull_total nullsLow a b
    · exact leNull_total nullsLow b a
  le_antisymm := by
    intro a b h h'
    cases desc
    · exact leNull_antisymm nullsLow a b h h'
    · exact leNull_antisymm nullsLow a b h' h
  not_le_of_beyond := by
    intro a b h
    cases a with
    | none => cases h
    | some a =>
      cases b with
      | none => cases h
      | some b =>
        cases desc
        · exact not_le.mpr (of_decide_eq_true h)
        · exact not_le.mpr (of_decide_eq_true h)
  beyond_trans := by
    intro a b c hab hbc
    cases a with
    | none => cases hab
    | some a =>
      cases b with
      | none => cases hab
      | some b =>
        cases c with
        | none => cases hbc
        | some c =>
          cases desc
          · exact decide_eq_true (lt_trans (of_decide_eq_true hab) (of_decide_eq_true hbc))
          · exact decide_eq_true (lt_trans (of_decide_eq_true hbc) (of_decide_eq_true hab))

end Column

/-! ## The client -/

/-- What a walk keeps: codec, column, direction, machine, and a page size that `List` accepts. -/
structure Client (ρ V : Type) where
  json : JSON (PageData V)
  cursorCol : String
  cursorFn : ρ → Option V
  desc : Bool
  intSize : IntSize
  pageSize : Nat
  pageSize_pos : 1 ≤ pageSize
  pageSize_le : pageSize ≤ maxPageSize

/-- What the client asks for. -/
def Client.request (c : Client ρ V) (token : Option GoString) : ListRequest ρ V :=
  let r := PageRequest.newPageRequest ⟨c.pageSize, token, none⟩ c.cursorCol c.cursorFn
  (if c.desc then r.orderDesc else r).listRequest c.json c.intSize

/-- A walk from request `n` on: the pages, and whether it went on until there was no token. -/
inductive Walk (c : Client ρ V) (t : Table ρ V) (db : Nat → DB ρ V) :
    Nat → Option GoString → List (List ρ) → Bool → Prop where
  | pause {n : Nat} {token : Option GoString} : Walk c t db n token [] false
  | last {n : Nat} {token : Option GoString} {items : List ρ} {size total : Int}
      (hlist : t.list (db n) (c.request token) = .ok ⟨items, size, total, none⟩) :
      Walk c t db n token [items] true
  | more {n : Nat} {token : Option GoString} {items : List ρ} {size total : Int}
      {next : GoString} {pages : List (List ρ)} {done : Bool}
      (hlist : t.list (db n) (c.request token) = .ok ⟨items, size, total, some next⟩)
      (hrest : Walk c t db (n + 1) (some next) pages done) :
      Walk c t db n token (items :: pages) done

end Microjet.Gormx
