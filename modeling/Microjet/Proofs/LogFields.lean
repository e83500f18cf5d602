import Microjet.Logx.Chain

/-!
# The fields of a log line

A field is a qualified name with a value; `writeAttr` writes the fields one after the other.
-/

namespace Microjet.Logx

open Secretx Strconv

mutual

/-- What an attribute prints: names and values. -/
def attrFields (grp key : GoString) : LogValue → List (GoString × LogValue)
  | .group attrs => attrsFields (if key = [] then grp else qualify grp key) attrs
  | .nil => if key = [] then [] else [(qualify grp key, .nil)]
  | v => [(qualify grp key, v.resolve)]

def attrsFields (grp : GoString) : List Attr → List (GoString × LogValue)
  | [] => []
  | (key, v) :: attrs => attrFields grp key v ++ attrsFields grp attrs

end

mutual

/-- It prints something. -/
def attrPrints (key : GoString) : LogValue → Bool
  | .group attrs => attrsPrint attrs
  | .nil => !key.isEmpty
  | _ => true

def attrsPrint : List Attr → Bool
  | [] => false
  | (key, v) :: attrs => attrPrints key v || attrsPrint attrs

end

theorem attrsFields_append (grp : GoString) (attrs attrs' : List Attr) :
    attrsFields grp (attrs ++ attrs') = attrsFields grp attrs ++ attrsFields grp attrs' := by
  induction attrs with
  | nil => rfl
  | cons attr attrs ih =>
    rw [List.cons_append, attrsFields, attrsFields, ih, List.append_assoc]

theorem attrsPrint_append (attrs attrs' : List Attr) :
    attrsPrint (attrs ++ attrs') = (attrsPrint attrs || attrsPrint attrs') := by
  induction attrs with
  | nil => rfl
  | cons attr attrs ih => rw [List.cons_append, attrsPrint, attrsPrint, ih, Bool.or_assoc]

def PlainTextHandler.fields (h : PlainTextHandler) (attrs : List Attr) :
    List (GoString × LogValue) :=
  attrsFields h.grp h.pre ++ attrsFields h.grp attrs

section

variable (isPrint : Nat → Bool) (ρ : Secrets) (cmp : KeyOrder)

def fieldText (field : GoString × LogValue) : GoString :=
  writeValue isPrint [] field.1 (fmtValue isPrint ρ cmp field.2)

mutual

theorem writeAttr_eq_fields (grp key : GoString) : ∀ v : LogValue,
    writeAttr isPrint ρ cmp grp key v =
      (attrFields grp key v).flatMap (fieldText isPrint ρ cmp)
  | .group attrs => writeAttrs_eq_fields _ attrs
  | .nil => by
      rw [writeAttr, attrFields]
      split
      · rfl
      · exact (List.append_nil _).symm
  | .string s => (List.append_nil _).symm
  | .time text => (List.append_nil _).symm
  | .duration text => (List.append_nil _).symm
  | .any v => (List.append_nil _).symm

theorem writeAttrs_eq_fields (grp : GoString) : ∀ attrs : List Attr,
    writeAttrs isPrint ρ cmp grp attrs =
      (attrsFields grp attrs).flatMap (fieldText isPrint ρ cmp)
  | [] => rfl
  | (key, v) :: attrs => by
      rw [writeAttrs, attrsFields, List.flatMap_append, writeAttr_eq_fields, writeAttrs_eq_fields]

end

theorem line_eq_fields (h : PlainTextHandler) (head : GoString) (attrs : List Attr) :
    h.line isPrint ρ cmp head attrs =
      head ++ (h.fields attrs).flatMap (fieldText isPrint ρ cmp) ++ bytes "\n" := by
  rw [PlainTextHandler.line, PlainTextHandler.fields, writeAttrs_eq_fields, writeAttrs_eq_fields,
    List.flatMap_append, List.append_assoc head]

end

/-! ### Derived handlers -/

/-- All attributes added on the way. -/
def added : List Derivation → List Attr
  | [] => []
  | .withAttrs attrs :: chain => attrs ++ added chain
  | .withGroup _ :: chain => added chain

/-- The prefix at the end of the chain. -/
def lastGroup (grp : GoString) : List Derivation → GoString
  | [] => grp
  | .withAttrs _ :: chain => lastGroup grp chain
  | .withGroup name :: chain => lastGroup (qualify grp name) chain

theorem deriveAll_eq (chain : List Derivation) (h : PlainTextHandler) :
    h.deriveAll chain = ⟨h.pre ++ added chain, lastGroup h.grp chain⟩ := by
  induction chain generalizing h with
  | nil =>
    rw [added, List.append_nil]
    rfl
  | cons d chain ih =>
    cases d with
    | withAttrs attrs =>
      refine (ih (h.withAttrs attrs)).trans ?_
      rw [PlainTextHandler.withAttrs, added, List.append_assoc]
      rfl
    | withGroup name => exact ih (h.withGroup name)

theorem fields_deriveAll (chain : List Derivation) (attrs : List Attr) :
    (PlainTextHandler.deriveAll {} chain).fields attrs =
      attrsFields (lastGroup [] chain) (added chain ++ attrs) := by
  rw [deriveAll_eq, PlainTextHandler.fields, ← attrsFields_append]
  rfl

end Microjet.Logx
