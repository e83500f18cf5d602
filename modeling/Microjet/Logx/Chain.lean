import Microjet.Logx.Text

/-!
# Derived handlers and the rules of `log/slog`

A handler is derived from the first one by a chain of `WithAttrs` and `WithGroup`. What the
rules of `slog` make of a chain is the object that `slog.JSONHandler` writes, without time,
level and message. Its contract says that a `WithGroup` without a name changes nothing;
`dropEmpty` is the chain without them.
-/

namespace Microjet.Logx

open Secretx

/-- A call that derives a handler from another one. -/
inductive Derivation where
  | withAttrs (attrs : List Attr)
  | withGroup (name : GoString)

/-- One step of a chain. -/
def PlainTextHandler.derive (h : PlainTextHandler) : Derivation → PlainTextHandler
  | .withAttrs attrs => h.withAttrs attrs
  | .withGroup name => h.withGroup name

/-- A whole chain. -/
def PlainTextHandler.deriveAll (h : PlainTextHandler) (chain : List Derivation) :
    PlainTextHandler :=
  chain.foldl derive h

/-! ### `slog.JSONHandler` -/

/-- A member of a JSON object: a key with a value, or with an object. -/
inductive Member where
  | value (key : GoString) (v : LogValue)
  | object (key : GoString) (members : List Member)

/-- An object, unless it has no members. -/
def objectOf (key : GoString) (members : List Member) : List Member :=
  if members.isEmpty then [] else [.object key members]

mutual

/-- The members of an attribute. -/
def attrMembers (key : GoString) : LogValue → List Member
  | .group attrs => if key = [] then attrsMembers attrs else objectOf key (attrsMembers attrs)
  | .nil => if key = [] then [] else [.value key .nil]
  | v => [.value key v.resolve]

/-- The members of several. -/
def attrsMembers : List Attr → List Member
  | [] => []
  | (key, v) :: attrs => attrMembers key v ++ attrsMembers attrs

end

/-- What `slog.JSONHandler` writes of the attributes of the chain and of a record. -/
def slogMembers (attrs : List Attr) : List Derivation → List Member
  | [] => attrsMembers attrs
  | .withAttrs as :: chain => attrsMembers as ++ slogMembers attrs chain
  | .withGroup name :: chain => objectOf name (slogMembers attrs chain)

/-- The chain without the groups that have no name. -/
def dropEmpty : List Derivation → List Derivation
  | [] => []
  | .withAttrs attrs :: chain => .withAttrs attrs :: dropEmpty chain
  | .withGroup name :: chain =>
    if name = [] then dropEmpty chain else .withGroup name :: dropEmpty chain

mutual

/-- The values of a member, each with its name: the keys on the way to it, with dots. -/
def Member.named (path : List GoString) : Member → List (GoString × LogValue)
  | .value key v => [(join (bytes ".") (path ++ [key]), v)]
  | .object key members => membersNamed (path ++ [key]) members

/-- The leaves below a path. -/
def membersNamed (path : List GoString) : List Member → List (GoString × LogValue)
  | [] => []
  | m :: members => m.named path ++ membersNamed path members

end

end Microjet.Logx
