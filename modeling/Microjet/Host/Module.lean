import Microjet.Core.Go

/-!
# Modules (`host/module.go`)

`WithModule` runs the `Register` of a module, which may call `WithModule` in turn; what it
reads and writes of the app is `Build`. Nothing bounds the recursion in the source:
`withModule` has fuel, and gives nothing when it runs out.
-/

namespace Microjet.Host

open Errorx

/-- A type, as `reflect` names it. -/
structure GoType where
  pkgPath : GoString
  name : GoString
  deriving DecidableEq, Repr

/-- `reflect.Type.String`: the last element of the package path, and the name. -/
def GoType.string (t : GoType) : GoString :=
  (t.pkgPath.reverse.takeWhile (· ≠ 47)).reverse ++ bytes "." ++ t.name

/-- What `moduleKey` and `moduleName` see of a module. -/
structure Module where
  key : Option GoString := none
  name : Option GoString := none
  func : Bool := false
  type : GoType
  deriving DecidableEq, Repr

/-- `KeyedModuleFunc` -/
def keyedModuleFunc (key : GoString) : Module where
  key := some key
  name := some key
  type := ⟨bytes "github.com/hatami57/microjet/host", bytes "keyedFunc"⟩

/-- `moduleKey` -/
def moduleKey (m : Module) : GoString :=
  match m.key with
  | some key => key
  | none => if m.func then [] else m.type.string

/-- `moduleName` -/
def moduleName (m : Module) : GoString :=
  match m.name with
  | some name => name
  | none => if m.func then bytes "func" else m.type.string

/-- What has happened to a module. -/
inductive ModuleNote (M : Type) where
  | asked (m : M)
  | started (m : M)
  | returned (m : M) (err : Option Err)
  | failed (err : Err)
  deriving DecidableEq, Repr

/-- The app while it is being built; the log is newest first. -/
structure Build (M : Type) where
  err : Option Err := none
  modules : List GoString := []
  log : List (ModuleNote M) := []

namespace Build

variable {M : Type}

/-- An entry of the log. -/
def note (b : Build M) (n : ModuleNote M) : Build M := { b with log := n :: b.log }

/-- `fail` keeps the first error. -/
def fail (b : Build M) (err : Err) : Build M := { b with err := b.err.or (some err) }

end Build

/-- A `Register`: calls of the fluent chain, each depending on all before. -/
inductive Register (M : Type) where
  | ret (err : Option Err)
  | withModule (m : Option M) (next : Build M → Register M)
  | fail (err : Err) (next : Build M → Register M)

/-- The modules there are. -/
structure Modules (M : Type) where
  info : M → Module
  register : M → Build M → Register M

namespace Modules

variable {M : Type}

/-- The key of a module. -/
abbrev key (sys : Modules M) (m : M) : GoString := moduleKey (sys.info m)

/-- The error for a `Register` that failed. -/
def failure (sys : Modules M) (m : M) (err : Err) : Err :=
  (newInternalError "host" "registering module failed"
    [("module", (moduleName (sys.info m)).text)]).withInner err

/-- `LoadOrStore` of the key, when it is not there; the empty key is not stored. -/
def store (sys : Modules M) (b : Build M) (m : M) : Build M :=
  { b with modules := if sys.key m = [] then b.modules else sys.key m :: b.modules }

/-- After `Register`. -/
def finish (sys : Modules M) (m : M) (b : Build M) : Option Err → Build M
  | none => b.note (.returned m none)
  | some err => (b.note (.returned m (some err))).fail (sys.failure m err)

/-- `Register` runs. -/
def exec (withModule : Build M → Option M → Option (Build M)) :
    Register M → Build M → Option (Build M × Option Err)
  | .ret err, b => some (b, err)
  | .withModule m next, b => (withModule b m).bind fun b => exec withModule (next b) b
  | .fail err next, b =>
    let b := (b.note (.failed err)).fail err
    exec withModule (next b) b

/-- `WithModule` -/
def withModule (sys : Modules M) : Nat → Build M → Option M → Option (Build M)
  | 0, _, _ => none
  | _ + 1, b, none => some b
  | fuel + 1, b, some m =>
    let b := b.note (.asked m)
    if b.err.isSome || sys.key m ∈ b.modules then some b
    else
      let b := (sys.store b m).note (.started m)
      (exec (sys.withModule fuel) (sys.register m b) b).map fun r => sys.finish m r.1 r.2

/-- `WithModules` -/
def withModules (sys : Modules M) (fuel : Nat) (b : Build M) : List (Option M) → Option (Build M)
  | [] => some b
  | m :: ms => (sys.withModule fuel b m).bind fun b => sys.withModules fuel b ms

end Modules

end Microjet.Host
