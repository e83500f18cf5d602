import Microjet.Core.Errorx
import Microjet.Lib.Search

/-!
# Go strings and outcomes

A Go string is a sequence of bytes that need not be valid UTF-8, and `strings`
searches and cuts it by bytes. A call ends in a value, in an error or in a panic.
-/

namespace Microjet

open Errorx

/-- A Go string: bytes, valid UTF-8 or not. -/
abbrev GoString := List UInt8

/-- The bytes of an ASCII literal. -/
def bytes (s : String) : GoString := s.toList.map fun c => c.toNat.toUInt8

/-- A byte string as an error parameter: each byte is the character of its
number. -/
def GoString.text (s : GoString) : String :=
  String.ofList (s.map fun b => Char.ofNat b.toNat)

/-- How a call ends. -/
inductive Out (α : Type) where
  | ok (a : α)
  | error (err : Err)
  | panic
  deriving DecidableEq

namespace Out

variable {α β : Type}

/-- The next call, after a value. -/
def bind : Out α → (α → Out β) → Out β
  | .ok a, f => f a
  | .error err, _ => .error err
  | .panic, _ => .panic

instance : Monad Out where
  pure := .ok
  bind := bind

/-- Wrap the error, if there is one. -/
def mapError (f : Err → Err) : Out α → Out α
  | .ok a => .ok a
  | .error err => .error (f err)
  | .panic => .panic

def ofExcept : Except Err α → Out α
  | .ok a => .ok a
  | .error err => .error err

def toOption : Out α → Option α
  | .ok a => some a
  | .error _ => none
  | .panic => none

variable {x : Out α}

theorem toOption_eq_some {a : α} : x.toOption = some a ↔ x = .ok a := by
  cases x <;> simp [toOption]

@[simp] theorem pure_eq (a : α) : (pure a : Out α) = .ok a := rfl

@[simp] theorem ok_bind (a : α) (f : α → Out β) : (Out.ok a >>= f) = f a := rfl

@[simp] theorem error_bind (err : Err) (f : α → Out β) :
    ((Out.error err : Out α) >>= f) = .error err := rfl

@[simp] theorem panic_bind (f : α → Out β) : ((Out.panic : Out α) >>= f) = .panic := rfl

variable {f : α → Out β}

theorem bind_eq_ok {b : β} :
    (x >>= f) = .ok b ↔ ∃ a, x = .ok a ∧ f a = .ok b := by
  cases x with
  | ok a => simp
  | error err => simp
  | panic => simp

theorem bind₂_eq_ok {γ : Type} {y : Out β} {g : α → β → γ} {c : γ} :
    (x >>= fun a => y >>= fun b => pure (g a b)) = .ok c ↔
      ∃ a b, x = .ok a ∧ y = .ok b ∧ c = g a b := by
  cases x <;> cases y <;> simp [eq_comm]

/-- The call does not panic, and what it returns without an error meets `Q`. -/
def Safe (Q : α → Prop) : Out α → Prop
  | .ok a => Q a
  | .error _ => True
  | .panic => False

theorem Safe.bind {P : α → Prop} {Q : β → Prop} (hx : x.Safe P)
    (hf : ∀ a, P a → (f a).Safe Q) : (x >>= f).Safe Q := by
  cases x with
  | ok a => exact hf a hx
  | error err => trivial
  | panic => exact hx

theorem Safe.mapError {Q : α → Prop} {f : Err → Err} (hx : x.Safe Q) :
    (x.mapError f).Safe Q := by
  cases x <;> exact hx

theorem Safe.ne_panic {Q : α → Prop} (hx : x.Safe Q) : x ≠ .panic := by
  rintro rfl
  exact hx

/-- The call returns no error. -/
def NoError : Out α → Prop
  | .ok _ => True
  | .error _ => False
  | .panic => True

theorem NoError.bind (hx : x.NoError) (hf : ∀ a, (f a).NoError) :
    (x >>= f).NoError := by
  cases x with
  | ok a => exact hf a
  | error err => exact hx
  | panic => trivial

theorem NoError.ne_error (hx : x.NoError) (err : Err) : x ≠ .error err := by
  rintro rfl
  exact hx

theorem mapError_eq_ok {f : Err → Err} {a : α} :
    x.mapError f = .ok a ↔ x = .ok a := by
  cases x <;> simp [mapError]

end Out

/-! `Except` is what a function returns that cannot panic. -/

section Returned

variable {α β : Type}

theorem except_bind_eq_ok {x : Except Err α} {f : α → Except Err β} {b : β} :
    (x >>= f) = .ok b ↔ ∃ a, x = .ok a ∧ f a = .ok b := by
  cases x with
  | ok a =>
    show f a = .ok b ↔ _
    simp
  | error err =>
    show (Except.error err : Except Err β) = .ok b ↔ _
    simp

theorem forM_eq_ok {f : α → Except Err Unit} : ∀ {l : List α},
    l.forM f = .ok () → ∀ a ∈ l, f a = .ok () := by
  intro l
  induction l with
  | nil =>
    intro _ a ha
    cases ha
  | cons b l ih =>
    intro h a ha
    have hseq : (f b >>= fun _ => l.forM f) = .ok () := h
    obtain ⟨_, hb, hl⟩ := except_bind_eq_ok.mp hseq
    rcases List.mem_cons.mp ha with rfl | ha
    · exact hb
    · exact ih hl a ha

theorem foldlM_keeps {P : β → Prop} {f : β → α → Except Err β}
    (hf : ∀ b a b', P b → f b a = .ok b' → P b') :
    ∀ {l : List α} {b b' : β}, P b → l.foldlM f b = .ok b' → P b' := by
  intro l
  induction l with
  | nil =>
    intro b b' hb h
    cases h
    exact hb
  | cons a l ih =>
    intro b b' hb h
    rw [List.foldlM_cons, except_bind_eq_ok] at h
    obtain ⟨b₁, hb₁, hrest⟩ := h
    exact ih (hf b a b₁ hb hb₁) hrest

end Returned

/-! ## Maps

A map is the list of its entries, in the order in which a `range` over it happens to visit
them. Nothing may depend on that order, and maps with the same entries are the `Same`. -/

/-- A Go map with string keys, in one of the orders it may be iterated in. -/
structure GoMap (α : Type) where
  entries : List (GoString × α)
  distinct : (entries.map Prod.fst).Nodup

section Loop

variable {α β : Type} {f : GoString → α → Out β}

/-- A loop over the entries that puts something under each key into a new map. -/
def traverseEntries (f : GoString → α → Out β) :
    List (GoString × α) → Out (List (GoString × β))
  | [] => .ok []
  | (k, a) :: es => do
      let b ← f k a
      let bs ← traverseEntries f es
      return (k, b) :: bs

variable {es : List (GoString × α)} {bs : List (GoString × β)}

theorem traverseEntries_cons {k : GoString} {a : α} :
    traverseEntries f ((k, a) :: es) = .ok bs ↔
      ∃ b rest, f k a = .ok b ∧ traverseEntries f es = .ok rest ∧ bs = (k, b) :: rest := by
  rw [traverseEntries]
  exact Out.bind₂_eq_ok

theorem traverseEntries_keys (h : traverseEntries f es = .ok bs) :
    bs.map Prod.fst = es.map Prod.fst := by
  induction es generalizing bs with
  | nil =>
    cases h
    rfl
  | cons e es ih =>
    obtain ⟨b, rest, -, hrest, rfl⟩ := traverseEntries_cons.mp h
    rw [List.map_cons, List.map_cons, ih hrest]

theorem traverseEntries_mem (h : traverseEntries f es = .ok bs) {k : GoString} {b : β}
    (hb : (k, b) ∈ bs) :
    ∃ a, (k, a) ∈ es ∧ f k a = .ok b := by
  induction es generalizing bs with
  | nil =>
    cases h
    cases hb
  | cons e es ih =>
    obtain ⟨b', rest, hb', hrest, rfl⟩ := traverseEntries_cons.mp h
    rcases List.mem_cons.mp hb with heq | hb
    · cases heq
      exact ⟨e.2, List.mem_cons_self, hb'⟩
    · obtain ⟨a, ha, hf⟩ := ih hrest hb
      exact ⟨a, List.mem_cons_of_mem e ha, hf⟩

theorem traverseEntries_ok (h : ∀ e ∈ es, ∃ b, f e.1 e.2 = .ok b) :
    ∃ bs, traverseEntries f es = .ok bs := by
  induction es with
  | nil => exact ⟨[], rfl⟩
  | cons e es ih =>
    obtain ⟨b, hb⟩ := h e List.mem_cons_self
    obtain ⟨bs, hbs⟩ := ih fun e' he' => h e' (List.mem_cons_of_mem e he')
    exact ⟨_, traverseEntries_cons.mpr ⟨b, bs, hb, hbs, rfl⟩⟩

/-- A loop that does not fail fails in no order. -/
theorem traverseEntries_perm {es es' : List (GoString × α)} (hp : es.Perm es')
    (h : traverseEntries f es = .ok bs) :
    ∃ bs', traverseEntries f es' = .ok bs' ∧ bs.Perm bs' := by
  induction hp generalizing bs with
  | nil => exact ⟨bs, h, .refl bs⟩
  | cons e hp ih =>
    obtain ⟨b, rest, hb, hrest, rfl⟩ := traverseEntries_cons.mp h
    obtain ⟨rest', hrest', hperm⟩ := ih hrest
    exact ⟨_, traverseEntries_cons.mpr ⟨b, rest', hb, hrest', rfl⟩, hperm.cons _⟩
  | swap e e' es =>
    obtain ⟨b', rest, hb', hrest, rfl⟩ := traverseEntries_cons.mp h
    obtain ⟨b, rest', hb, hrest', rfl⟩ := traverseEntries_cons.mp hrest
    refine ⟨_, traverseEntries_cons.mpr ⟨b, _, hb,
      traverseEntries_cons.mpr ⟨b', rest', hb', hrest', rfl⟩, rfl⟩, ?_⟩
    exact .swap _ _ _
  | trans _ _ ih ih' =>
    obtain ⟨bs₁, h₁, hp₁⟩ := ih h
    obtain ⟨bs₂, h₂, hp₂⟩ := ih' h₁
    exact ⟨bs₂, h₂, hp₁.trans hp₂⟩

theorem traverseEntries_inverse {g : GoString → β → Out α} (h : traverseEntries f es = .ok bs)
    (hg : ∀ e ∈ es, ∀ b, f e.1 e.2 = .ok b → g e.1 b = .ok e.2) :
    traverseEntries g bs = .ok es := by
  induction es generalizing bs with
  | nil =>
    cases h
    rfl
  | cons e es ih =>
    obtain ⟨b, rest, hb, hrest, rfl⟩ := traverseEntries_cons.mp h
    have hes := ih hrest fun e' he' => hg e' (List.mem_cons_of_mem e he')
    exact traverseEntries_cons.mpr ⟨e.2, es, hg e List.mem_cons_self b hb, hes, rfl⟩

theorem traverseEntries_cases (P : Err → Prop)
    (hf : ∀ k a, (∃ b, f k a = .ok b) ∨ ∃ err, f k a = .error err ∧ P err)
    (es : List (GoString × α)) :
    (∃ bs, traverseEntries f es = .ok bs) ∨
      ∃ err, traverseEntries f es = .error err ∧ P err := by
  induction es with
  | nil => exact .inl ⟨[], rfl⟩
  | cons e es ih =>
    rcases hf e.1 e.2 with ⟨b, hb⟩ | ⟨err, herr, hP⟩
    · rcases ih with ⟨bs, hbs⟩ | ⟨err, herr, hP⟩
      · exact .inl ⟨_, traverseEntries_cons.mpr ⟨b, bs, hb, hbs, rfl⟩⟩
      · refine .inr ⟨err, ?_, hP⟩
        rw [traverseEntries, hb, Out.ok_bind, herr]
        rfl
    · refine .inr ⟨err, ?_, hP⟩
      rw [traverseEntries, herr]
      rfl

end Loop

namespace GoMap

variable {α β : Type} {f : GoString → α → Out β}

/-- `m[k]` -/
def get (m : GoMap α) (k : GoString) : Option α := m.entries.lookup k

def empty : GoMap α := ⟨[], List.nodup_nil⟩

def single (k : GoString) (a : α) : GoMap α := ⟨[(k, a)], List.nodup_singleton k⟩

/-- `m[k] = a` -/
def insert (m : GoMap α) (k : GoString) (a : α) : GoMap α where
  entries := (k, a) :: m.entries.filter (·.1 ≠ k)
  distinct := by
    rw [List.map_cons, List.nodup_cons]
    refine ⟨fun hmem => ?_, m.distinct.sublist (List.filter_sublist.map _)⟩
    obtain ⟨e, he, rfl⟩ := List.mem_map.mp hmem
    simp at he

variable {m : GoMap α}

theorem mem_entries {k : GoString} {a : α} :
    (k, a) ∈ m.entries ↔ m.get k = some a := by
  obtain ⟨es, hes⟩ := m
  show (k, a) ∈ es ↔ es.lookup k = some a
  induction es with
  | nil => simp
  | cons e es ih =>
    obtain ⟨k', a'⟩ := e
    rw [List.map_cons, List.nodup_cons] at hes
    rw [List.lookup_cons, List.mem_cons, Prod.mk.injEq]
    by_cases hk : k = k'
    · subst hk
      have hnot : (k, a) ∉ es := fun hmem => hes.1 (List.mem_map.mpr ⟨_, hmem, rfl⟩)
      rw [beq_self_eq_true, Option.some.injEq]
      exact ⟨fun h => (h.resolve_right hnot).2.symm, fun h => .inl ⟨rfl, h.symm⟩⟩
    · rw [beq_false_of_ne hk, ← ih hes.2]
      exact ⟨fun h => h.resolve_left fun h => hk h.1, .inr⟩

theorem lookup_filter_ne {es : List (GoString × α)} {k k' : GoString} (h : k' ≠ k) :
    (es.filter (·.1 ≠ k)).lookup k' = es.lookup k' := by
  induction es with
  | nil => rfl
  | cons e es ih =>
    rw [List.filter_cons]
    split
    · rw [List.lookup_cons, List.lookup_cons, ih]
    · next he =>
        have hk : e.1 = k := by simpa using he
        rw [List.lookup_cons, ih, hk, beq_false_of_ne h]

theorem get_insert (m : GoMap α) (k : GoString) (a : α) (k' : GoString) :
    (m.insert k a).get k' = if k' = k then some a else m.get k' := by
  rw [get, insert, List.lookup_cons]
  split
  · next h => rw [if_pos (eq_of_beq h)]
  · next h =>
      have hne : k' ≠ k := ne_of_beq_false h
      rw [if_neg hne, lookup_filter_ne hne, get]

/-- The same map, iterated in another order. -/
def Same (m m' : GoMap α) : Prop := m.entries.Perm m'.entries

theorem Same.symm {m m' : GoMap α} (h : m.Same m') : m'.Same m := List.Perm.symm h

theorem Same.trans {m m' m'' : GoMap α} (h : m.Same m') (h' : m'.Same m'') : m.Same m'' :=
  List.Perm.trans h h'

/-- A loop over the map that stops at the first failure. -/
def traverse (f : GoString → α → Out β) (m : GoMap α) : Out (GoMap β) :=
  match h : traverseEntries f m.entries with
  | .ok bs => .ok ⟨bs, traverseEntries_keys h ▸ m.distinct⟩
  | .error err => .error err
  | .panic => .panic

theorem traverse_eq_ok {r : GoMap β} :
    m.traverse f = .ok r ↔ traverseEntries f m.entries = .ok r.entries := by
  unfold traverse
  split
  · next bs h =>
      constructor
      · intro hr
        cases hr
        exact h
      · intro hr
        cases h.symm.trans hr
        rfl
  · next err h => simp [h]
  · next h => simp [h]

theorem traverse_eq_error {err : Err} :
    m.traverse f = .error err ↔ traverseEntries f m.entries = .error err := by
  unfold traverse
  split
  · next bs h => simp [h]
  · next err' h => simp [h]
  · next h => simp [h]

end GoMap

/-! ## Package `strings` -/

/-- `strings.Split` and `strings.SplitSeq` at a one-byte separator. -/
def split (sep : UInt8) : GoString → List GoString
  | [] => [[]]
  | c :: s =>
    if c = sep then [] :: split sep s
    else
      match split sep s with
      | [] => [[c]]
      | part :: parts => (c :: part) :: parts

/-- What stands before the first `sep`. -/
def cutBefore (sep : UInt8) (s : GoString) : GoString := s.takeWhile (· != sep)

/-- The code points with the property White_Space, in UTF-8. -/
def spaces : List GoString :=
  [[0x20], [0x09], [0x0a], [0x0b], [0x0c], [0x0d], [0xc2, 0x85], [0xc2, 0xa0],
    [0xe1, 0x9a, 0x80], [0xe2, 0x80, 0x80], [0xe2, 0x80, 0x81], [0xe2, 0x80, 0x82],
    [0xe2, 0x80, 0x83], [0xe2, 0x80, 0x84], [0xe2, 0x80, 0x85], [0xe2, 0x80, 0x86],
    [0xe2, 0x80, 0x87], [0xe2, 0x80, 0x88], [0xe2, 0x80, 0x89], [0xe2, 0x80, 0x8a],
    [0xe2, 0x80, 0xa8], [0xe2, 0x80, 0xa9], [0xe2, 0x80, 0xaf], [0xe2, 0x81, 0x9f],
    [0xe3, 0x80, 0x80]]

/-- Drop leading elements of `cut`, at most `n` of them. -/
def trimLeading (cut : List GoString) : Nat → GoString → GoString
  | 0, s => s
  | n + 1, s =>
    match cut.find? (·.isPrefixOf s) with
    | some c => trimLeading cut n (s.drop c.length)
    | none => s

/-- `strings.TrimSpace`. A string has at most as many spaces as bytes. -/
def trimSpace (s : GoString) : GoString :=
  let front := trimLeading spaces s.length s
  (trimLeading (spaces.map List.reverse) front.length front.reverse).reverse

end Microjet
