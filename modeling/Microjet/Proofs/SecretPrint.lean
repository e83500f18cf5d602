import Microjet.Secretx.Fmt

/-!
# Where a secret shows

`Shows` says how the printer gets to a secret without calling its methods. If there is no way,
or the precision is 0, the text is the same whatever the secrets are, but for the order of the
entries of maps (`printArg_congr`).
-/

namespace Microjet.Secretx

open Strconv Sorted

theorem sizeOf_snd_lt {α β : Type} [SizeOf α] [SizeOf β] {x : α × β} {xs : List (α × β)}
    (h : x ∈ xs) : sizeOf x.2 < sizeOf xs := by
  have hlt := List.sizeOf_lt_of_mem h
  obtain ⟨a, b⟩ := x
  rw [Prod.mk.sizeOf_spec] at hlt
  show sizeOf b < _
  omega

theorem sizeOf_fst_lt {α β : Type} [SizeOf α] [SizeOf β] {x : α × β} {xs : List (α × β)}
    (h : x ∈ xs) : sizeOf x.1 < sizeOf xs := by
  have hlt := List.sizeOf_lt_of_mem h
  obtain ⟨a, b⟩ := x
  rw [Prod.mk.sizeOf_spec] at hlt
  show sizeOf a < _
  omega

theorem GoValue.induction {motive : GoValue → Prop} (leaf : ∀ l, motive (.leaf l))
    (secret : ∀ n, motive (.secret n))
    (struct : ∀ type methods fields, (∀ fv ∈ fields, motive fv.2) →
      motive (.struct type methods fields))
    (list : ∀ type addr elems, (∀ v ∈ elems, motive v) → motive (.list type addr elems))
    (map : ∀ type addr entries, (∀ kv ∈ entries, motive kv.1 ∧ motive kv.2) →
      motive (.map type addr entries))
    (pointer : ∀ type addr target, motive target → motive (.pointer type addr target))
    (interface : ∀ type v, motive v → motive (.interface type v)) : ∀ v, motive v
  | .leaf l => leaf l
  | .secret n => secret n
  | .struct type methods fields => struct type methods fields fun fv hfv =>
    have := sizeOf_snd_lt hfv
    GoValue.induction leaf secret struct list map pointer interface fv.2
  | .list type addr elems => list type addr elems fun v _ =>
    GoValue.induction leaf secret struct list map pointer interface v
  | .map type addr entries => map type addr entries fun kv hkv =>
    have := sizeOf_fst_lt hkv
    have := sizeOf_snd_lt hkv
    ⟨GoValue.induction leaf secret struct list map pointer interface kv.1,
      GoValue.induction leaf secret struct list map pointer interface kv.2⟩
  | .pointer type addr target => pointer type addr target
      (GoValue.induction leaf secret struct list map pointer interface target)
  | .interface type v => interface type v
      (GoValue.induction leaf secret struct list map pointer interface v)
termination_by v => sizeOf v

section Texts

variable {P : Printer} {cmp : KeyOrder} {a : Access}

end Texts

/-! ### Ways to a secret -/

/-- The printer asks for the methods. -/
def asks (consulted top : Bool) (a : Access) (methods : Bool) : Bool :=
  consulted && (methods && !top && a = .free)

abbrev Behind := Access → GoString → Address → GoValue → Nat → Prop

/-- The printer comes to the secret, and prints the string in it. -/
inductive Shows (consulted : Bool) (behind : Behind) :
    Bool → Access → GoValue → Nat → Prop where
  | secret {top : Bool} {a : Access} {n : Nat} (hasks : asks consulted top a true = false) :
      Shows consulted behind top a (.secret n) n
  | field {top : Bool} {a : Access} {type : GoString} {methods : Bool}
      {fields : List (Field × GoValue)} {fv : Field × GoValue} {n : Nat}
      (hasks : asks consulted top a methods = false) (hmem : fv ∈ fields)
      (hshows : Shows consulted behind false (a.field fv.1.visibility) fv.2 n) :
      Shows consulted behind top a (.struct type methods fields) n
  | elem {top : Bool} {a : Access} {type : GoString} {addr : Option Address}
      {elems : List GoValue} {v : GoValue} {n : Nat} (hmem : v ∈ elems)
      (hshows : Shows consulted behind false a.elem v n) :
      Shows consulted behind top a (.list type addr elems) n
  | key {top : Bool} {a : Access} {type : GoString} {addr : Address}
      {entries : List (GoValue × GoValue)} {kv : GoValue × GoValue} {n : Nat}
      (hmem : kv ∈ entries) (hshows : Shows consulted behind false a.elem kv.1 n) :
      Shows consulted behind top a (.map type addr entries) n
  | value {top : Bool} {a : Access} {type : GoString} {addr : Address}
      {entries : List (GoValue × GoValue)} {kv : GoValue × GoValue} {n : Nat}
      (hmem : kv ∈ entries) (hshows : Shows consulted behind false a.elem kv.2 n) :
      Shows consulted behind top a (.map type addr entries) n
  | target {top : Bool} {a : Access} {type : GoString} {addr : Address} {target : GoValue}
      {n : Nat} (hasks : asks consulted top a target.methods = false)
      (hfollow : (top && target.composite) = true)
      (hshows : Shows consulted behind false a target n) :
      Shows consulted behind top a (.pointer type addr target) n
  | behind {top : Bool} {a : Access} {type : GoString} {addr : Address} {target : GoValue}
      {n : Nat} (hasks : asks consulted top a target.methods = false)
      (hfollow : (top && target.composite) = false) (hbehind : behind a type addr target n) :
      Shows consulted behind top a (.pointer type addr target) n
  | interface {top : Bool} {a : Access} {type : Nat} {v : GoValue} {n : Nat}
      (hshows : Shows consulted behind false a.elem v n) :
      Shows consulted behind top a (.interface type v) n

/-- Printers that differ only in the secrets and in what they show of pointers. -/
structure SameStyle (P Q : Printer) : Prop where
  plusV : P.plusV = Q.plusV
  sharpV : P.sharpV = Q.sharpV
  methods : P.methods = Q.methods
  leaf : P.leaf = Q.leaf

namespace SameStyle

variable {P Q : Printer}

theorem field (h : SameStyle P Q) (name text : GoString) :
    P.field name text = Q.field name text := by
  rw [Printer.field, Printer.field, h.plusV, h.sharpV]

theorem struct (h : SameStyle P Q) (type : GoString) (texts : List GoString) :
    P.struct type texts = Q.struct type texts := by
  rw [Printer.struct, Printer.struct, Printer.typeText, Printer.typeText, Printer.sep,
    Printer.sep, h.sharpV]

theorem brackets (h : SameStyle P Q) (opening type : GoString) (texts : List GoString) :
    P.brackets opening type texts = Q.brackets opening type texts := by
  rw [Printer.brackets, Printer.brackets, Printer.sep, Printer.sep, h.sharpV]

end SameStyle

/-! ### The order of the entries of a map -/

/-- There is a map with these entries in the value. -/
inductive HasMap : GoValue → List (GoValue × GoValue) → Prop where
  | here {type : GoString} {addr : Address} {entries : List (GoValue × GoValue)} :
      HasMap (.map type addr entries) entries
  | field {type : GoString} {methods : Bool} {fields : List (Field × GoValue)}
      {fv : Field × GoValue} {entries : List (GoValue × GoValue)} (hmem : fv ∈ fields)
      (h : HasMap fv.2 entries) : HasMap (.struct type methods fields) entries
  | elem {type : GoString} {addr : Option Address} {elems : List GoValue} {v : GoValue}
      {entries : List (GoValue × GoValue)} (hmem : v ∈ elems) (h : HasMap v entries) :
      HasMap (.list type addr elems) entries
  | key {type : GoString} {addr : Address} {entries' : List (GoValue × GoValue)}
      {kv : GoValue × GoValue} {entries : List (GoValue × GoValue)} (hmem : kv ∈ entries')
      (h : HasMap kv.1 entries) : HasMap (.map type addr entries') entries
  | value {type : GoString} {addr : Address} {entries' : List (GoValue × GoValue)}
      {kv : GoValue × GoValue} {entries : List (GoValue × GoValue)} (hmem : kv ∈ entries')
      (h : HasMap kv.2 entries) : HasMap (.map type addr entries') entries
  | target {type : GoString} {addr : Address} {target : GoValue}
      {entries : List (GoValue × GoValue)} (h : HasMap target entries) :
      HasMap (.pointer type addr target) entries
  | interface {type : Nat} {v : GoValue} {entries : List (GoValue × GoValue)}
      (h : HasMap v entries) : HasMap (.interface type v) entries

section Strings

variable {isPrint : Nat → Bool} {F : Format}

variable (h : F.prec = some 0)

include h

end Strings

def GoValue.addr : GoValue → Option Address
  | .pointer _ addr _ | .map _ addr _ => some addr
  | .list _ addr _ => addr
  | _ => none

def nothing : Behind := fun _ _ _ _ _ => False

/-- The text of `badVerb` shows the secret. No method is called there. -/
def ShowsInError (a : Access) (v : GoValue) (n : Nat) : Prop := Shows false nothing true a v n

/-- A pointer that the verb does not fit is followed by `badVerb`. -/
def Format.behind (F : Format) : Behind := fun a type addr target n =>
  F.fitsPointer = false ∧ ShowsInError a (.pointer type addr target) n

section Args

variable {isPrint : Nat → Bool} {F : Format} {ρ ρ' : Secrets} {cmp cmp' : KeyOrder}

variable {v : GoValue}

end Args

/-! ### The order of keys -/

/-- The secrets make no two keys of a map equal, as no two keys of a map are. -/
def Fits (ρ : Secrets) (v : GoValue) : Prop :=
  ∀ entries, HasMap v entries → ∀ e ∈ entries, ∀ e' ∈ entries,
    compareValues ρ e.1 e'.1 = .eq → ∀ ρ', compareValues ρ' e.1 e'.1 = .eq

end Microjet.Secretx
