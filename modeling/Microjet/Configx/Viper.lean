import Mathlib.Data.List.Dedup
import Microjet.Core.Go
import Microjet.Lib.LeafTree

/-!
# What the configuration readers use of viper

The methods that `configx` calls are a parameter (`Viper`): `σ` is the state and `α` Go's
`any`. What is assumed of them is `CaseInsensitive`, or that the viper is `layered`; this one
is meant for keys of which none is a table another one is in.
-/

namespace Microjet.Configx

open LeafTree

def dot : UInt8 := 46

/-- `strings.ToLower`: each name of a key becomes lower case by itself, and a zero is no letter. -/
structure ToLower where
  lower : GoString → GoString
  lower_dot : ∀ a b, lower (a ++ dot :: b) = lower a ++ dot :: lower b
  lower_eq_nil : ∀ a, lower a = [] ↔ a = []
  lower_table : ∀ a b, lower (a ++ dot :: b) = a ++ dot :: b → lower a = a
  lower_zeros : ∀ n, lower (List.replicate n 48) = List.replicate n 48

/-- `strings.ToLower` on ASCII. -/
def asciiLower : ToLower where
  lower := List.map fun b => if 65 ≤ b ∧ b ≤ 90 then b + 32 else b
  lower_dot a b := by rw [List.map_append, List.map_cons]; rfl
  lower_eq_nil _ := List.map_eq_nil_iff
  lower_table a b h := by
    rw [List.map_append] at h
    exact (List.append_inj h (List.length_map _)).1
  lower_zeros n := List.map_replicate

/-- What the readers call; `Unmarshal` and `UnmarshalKey` decode what `AllSettings` and `Get`
return. -/
structure Viper (σ α : Type) where
  setDefault : σ → GoString → α → σ
  set : σ → GoString → α → σ
  bindEnv : σ → GoString → σ
  isSet : σ → GoString → Bool
  get : σ → GoString → α
  allKeys : σ → List GoString
  allSettings : σ → α

/-- The keys that the readers spell as their callers do are lower-cased in every access. -/
structure Viper.CaseInsensitive {σ α : Type} (vp : Viper σ α) (lw : ToLower) : Prop where
  bindEnv : ∀ v k k', lw.lower k = lw.lower k' → vp.bindEnv v k = vp.bindEnv v k'
  get : ∀ v k k', lw.lower k = lw.lower k' → vp.get v k = vp.get v k'

/-- A value of the configuration, as far as viper looks into it: nil, a map or another one. -/
abbrev Value (V : Type) := Node dot V

/-- A layer of values, as a tree of tables. -/
abbrev Layer (V : Type) := Tree dot V

variable {V : Type}

/-- The layers but for the environment, which nothing here changes. -/
structure Layers (V : Type) where
  override : Layer V := .empty
  bound : List GoString := []
  config : Layer V := .empty
  defaults : Layer V := .empty

/-- `env` is the variable that `AutomaticEnv` finds for a key; without it there is none. -/
def Layers.find (env : GoString → Option V) (v : Layers V) (k : GoString) : Value V :=
  (v.override.search k).or <| (Node.ofOption (env k)).or <|
    (v.config.search k).or (v.defaults.search k)

/-- Binding a variable does not change what `Get` returns, but makes its key known. -/
def Layers.allKeys (v : Layers V) : List GoString :=
  (v.override.keys ++ v.bound ++ v.config.keys ++ v.defaults.keys).dedup

/-- `AllSettings` -/
def Layers.allSettings (env : GoString → Option V) (v : Layers V) : Layer V :=
  v.allKeys.foldl (fun t k => if (v.find env k).isNil then t else t.set k (v.find env k)) .empty

/-- A viper that answers from the first layer that holds the key. -/
def layered (lw : ToLower) (env : GoString → Option V) : Viper (Layers V) (Value V) where
  setDefault v k x := { v with defaults := v.defaults.set (lw.lower k) x }
  set v k x := { v with override := v.override.set (lw.lower k) x }
  bindEnv v k := { v with bound := v.bound ++ [lw.lower k] }
  isSet v k := !(v.find env (lw.lower k)).isNil
  get v k := v.find env (lw.lower k)
  allKeys v := v.allKeys
  allSettings v := .table (v.allSettings env)

theorem layered_caseInsensitive (lw : ToLower) (env : GoString → Option V) :
    (layered lw env).CaseInsensitive lw where
  bindEnv v k k' h := by
    simp only [layered, h]
  get v k k' h := by
    simp only [layered, h]

end Microjet.Configx
