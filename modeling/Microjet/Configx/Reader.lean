import Microjet.Configx.Viper

/-!
# The configuration readers

`viperConfigReader` reads files and the environment, `mapReader` the values it was given. Both
keep their state in a viper and resolve the keys of a section before they read it. Go ranges
over a map in any order, so every call that promotes comes with the `Order` of its keys.
-/

namespace Microjet.Configx

open LeafTree
open Errorx

/-- The part of a struct field that `bindEnvLeaves` looks at. -/
structure StructField where
  name : GoString
  exported : Bool := true
  tag : GoString := []

mutual

/-- What the walk over a destination tells apart. -/
inductive GoType where
  | pointer (elem : GoType)
  | struct (fields : Fields)
  | time
  | other

/-- The fields of a struct, with their types. -/
inductive Fields where
  | nil
  | cons (f : StructField) (t : GoType) (rest : Fields)

end

/-- The order in which Go ranges over the known keys. -/
structure Order where
  arrange : List GoString → List GoString
  perm : ∀ l, (arrange l).Perm l

def Order.same : Order := ⟨id, fun _ => .refl _⟩

variable {σ α : Type} (vp : Viper σ α) (lw : ToLower)

/-- The name of a field in its struct, or none if the field is skipped. -/
def fieldTag (f : StructField) : Option GoString :=
  let tag := cutBefore 44 f.tag
  if !f.exported then none
  else if tag = bytes "-" then none
  else if tag = [] then some (lw.lower f.name)
  else some tag

/-- A tag below a key. -/
def joinKey (pre tag : GoString) : GoString := if pre = [] then tag else pre ++ dot :: tag

mutual

/-- `bindEnvLeaves` -/
def bindEnvLeaves (v : σ) (pre : GoString) : GoType → σ
  | .pointer elem => bindEnvLeaves v pre elem
  | .struct fields => bindEnvFields v pre fields
  | .time | .other => if pre = [] then v else vp.bindEnv v pre

/-- Its loop over the fields. -/
def bindEnvFields (v : σ) (pre : GoString) : Fields → σ
  | .nil => v
  | .cons f t rest =>
    match fieldTag lw f with
    | none => bindEnvFields v pre rest
    | some tag => bindEnvFields (bindEnvLeaves v (joinKey pre tag) t) pre rest

end

mutual

/-- The keys that `bindEnvLeaves` binds. -/
def envLeaves (pre : GoString) : GoType → List GoString
  | .pointer elem => envLeaves pre elem
  | .struct fields => envFieldLeaves pre fields
  | .time | .other => if pre = [] then [] else [pre]

def envFieldLeaves (pre : GoString) : Fields → List GoString
  | .nil => []
  | .cons f t rest =>
    match fieldTag lw f with
    | none => envFieldLeaves pre rest
    | some tag => envLeaves (joinKey pre tag) t ++ envFieldLeaves pre rest

end

mutual

/-- The walk binds the keys of the leaf fields, one after the other. -/
theorem bindEnvLeaves_eq (v : σ) (pre : GoString) :
    ∀ t, bindEnvLeaves vp lw v pre t = (envLeaves lw pre t).foldl vp.bindEnv v
  | .pointer elem => by
      rw [bindEnvLeaves, envLeaves]
      exact bindEnvLeaves_eq v pre elem
  | .struct fields => by
      rw [bindEnvLeaves, envLeaves]
      exact bindEnvFields_eq v pre fields
  | .time | .other => by
      rw [bindEnvLeaves, envLeaves]
      split <;> rfl

theorem bindEnvFields_eq (v : σ) (pre : GoString) :
    ∀ fields, bindEnvFields vp lw v pre fields = (envFieldLeaves lw pre fields).foldl vp.bindEnv v
  | .nil => rfl
  | .cons f t rest => by
      rw [bindEnvFields, envFieldLeaves]
      cases fieldTag lw f with
      | none => exact bindEnvFields_eq v pre rest
      | some tag =>
        dsimp only
        rw [List.foldl_append, ← bindEnvLeaves_eq v (joinKey pre tag) t]
        exact bindEnvFields_eq _ pre rest

end

/-- The keys that the section covers; the empty name stands for all of them. -/
def Covers (sect k : GoString) : Prop := sect = [] ∨ Under dot sect k

instance (sect k : GoString) : Decidable (Covers sect k) :=
  inferInstanceAs (Decidable (_ ∨ _))

/-- One turn of the loop of `promoteResolved`. -/
def promoteKey (sect : GoString) (v : σ) (k : GoString) : σ :=
  if ¬Covers sect k then v
  else if vp.isSet v k then vp.set v k (vp.get v k)
  else v

/-- `promoteResolved`: each known key of the section is set to its value. -/
def promoteResolved (order : Order) (v : σ) (sect : GoString) : σ :=
  (order.arrange (vp.allKeys v)).foldl (promoteKey vp sect) v

/-- `dest` is the type of the destination, none for a nil. -/
def applyEnvOverrides (order : Order) (v : σ) (sect : GoString) (dest : Option GoType) : σ :=
  let v := match dest with
    | none => v
    | some t => bindEnvLeaves vp lw v sect t
  promoteResolved vp order v sect

/-- `topSection` -/
def topSection (key : GoString) : GoString := cutBefore dot key

/-- `viperConfigReader` -/
structure ViperConfigReader (σ : Type) where
  v : σ
  fileSections : List GoString
  claimed : List GoString := []
  claimedAll : Bool := false

/-- What reading a file ends in. -/
inductive Load (σ : Type) where
  | found (v : σ)
  | notFound
  | failed (err : Err)

/-- What `newViper` finds; `fresh` is a viper with the paths and the environment set up. -/
structure Disk (σ : Type) where
  getwd : Except Err Unit := .ok ()
  executable : Except Err Unit := .ok ()
  fresh : σ
  readInConfig : σ → Load σ
  mergeInConfig : σ → Load σ

/-- A missing file is no error. -/
def Load.orKeep (v : σ) (text : String) : Load σ → Except Err σ
  | .found v' => .ok v'
  | .notFound => .ok v
  | .failed err => .error ((newInternalError "config" text []).withInner err)

/-- `newViper` -/
def newViper (disk : Disk σ) : Except Err σ := do
  disk.getwd
  disk.executable
  let v ← (disk.readInConfig disk.fresh).orKeep disk.fresh "reading config file"
  (disk.mergeInConfig v).orKeep v "reading local config file"

/-- `NewViperConfigReader` -/
def newViperConfigReader (disk : Disk σ) : Except Err (ViperConfigReader σ) := do
  let v ← newViper disk
  return { v, fileSections := ((vp.allKeys v).map topSection).dedup }

namespace ViperConfigReader

/-- `SetDefault` -/
def setDefault (r : ViperConfigReader σ) (key : GoString) (value : α) : ViperConfigReader σ :=
  { r with v := vp.setDefault r.v key value }

/-- `Set` -/
def set (r : ViperConfigReader σ) (key : GoString) (value : α) : ViperConfigReader σ :=
  { r with v := vp.set r.v key value }

/-- `Read` -/
def read (r : ViperConfigReader σ) (key : GoString) (dest : Option GoType) (order : Order) :
    α × ViperConfigReader σ :=
  let v := applyEnvOverrides vp lw order r.v key dest
  (vp.get v key, { r with v, claimed := topSection key :: r.claimed })

/-- `ReadMap` -/
def readMap (r : ViperConfigReader σ) (key : GoString) (order : Order) :
    α × ViperConfigReader σ :=
  let v := promoteResolved vp order r.v key
  (vp.get v key, { r with v, claimed := topSection key :: r.claimed })

/-- `ReadAll` -/
def readAll (r : ViperConfigReader σ) (dest : Option GoType) (order : Order) :
    α × ViperConfigReader σ :=
  let v := applyEnvOverrides vp lw order r.v [] dest
  (vp.allSettings v, { r with v, claimedAll := true })

/-- `UnusedSections`: those of the files that nobody has read. -/
def unusedSections (r : ViperConfigReader σ) : List GoString :=
  if r.claimedAll then []
  else (r.fileSections.filter fun s => !r.claimed.contains s).insertionSort (· ≤ ·)

end ViperConfigReader

/-- `mapReader`, with the same methods. -/
structure MapReader (σ : Type) where
  v : σ

/-- `merged` is a new viper into which `MergeConfigMap` has merged the values. -/
def newMapReader (merged : σ) : MapReader σ := ⟨merged⟩

namespace MapReader

def setDefault (r : MapReader σ) (key : GoString) (value : α) : MapReader σ :=
  ⟨vp.setDefault r.v key value⟩

def set (r : MapReader σ) (key : GoString) (value : α) : MapReader σ :=
  ⟨vp.set r.v key value⟩

def read (r : MapReader σ) (key : GoString) (order : Order) : α × MapReader σ :=
  let v := promoteResolved vp order r.v key
  (vp.get v key, ⟨v⟩)

def readMap (r : MapReader σ) (key : GoString) (order : Order) : α × MapReader σ :=
  let v := promoteResolved vp order r.v key
  (vp.get v key, ⟨v⟩)

def readAll (r : MapReader σ) : α × MapReader σ := (vp.allSettings r.v, r)

end MapReader

/-- Either reader. -/
inductive Reader (σ : Type) where
  | file (r : ViperConfigReader σ)
  | map (r : MapReader σ)

/-- The viper in it. -/
def Reader.viper : Reader σ → σ
  | .file r => r.v
  | .map r => r.v

/-- A call to a reader, with `Setter`'s and `UnusedSections`, which only the file reader has. -/
inductive Call (α : Type) where
  | setDefault (key : GoString) (value : α)
  | set (key : GoString) (value : α)
  | read (key : GoString) (dest : Option GoType) (order : Order)
  | readMap (key : GoString) (order : Order)
  | readAll (dest : Option GoType) (order : Order)
  | unusedSections

/-- What a call returns: a read delivers the value that is decoded into the destination. -/
inductive Answer (α : Type) where
  | done
  | value (x : α)
  | sections (names : List GoString)

/-- A call on either. -/
def Reader.call : Reader σ → Call α → Answer α × Reader σ
  | .file r, .setDefault key x => (.done, .file (r.setDefault vp key x))
  | .file r, .set key x => (.done, .file (r.set vp key x))
  | .file r, .read key dest order =>
    (.value (r.read vp lw key dest order).1, .file (r.read vp lw key dest order).2)
  | .file r, .readMap key order =>
    (.value (r.readMap vp key order).1, .file (r.readMap vp key order).2)
  | .file r, .readAll dest order =>
    (.value (r.readAll vp lw dest order).1, .file (r.readAll vp lw dest order).2)
  | .file r, .unusedSections => (.sections r.unusedSections, .file r)
  | .map r, .setDefault key x => (.done, .map (r.setDefault vp key x))
  | .map r, .set key x => (.done, .map (r.set vp key x))
  | .map r, .read key _ order => (.value (r.read vp key order).1, .map (r.read vp key order).2)
  | .map r, .readMap key order =>
    (.value (r.readMap vp key order).1, .map (r.readMap vp key order).2)
  | .map r, .readAll _ _ => (.value (r.readAll vp).1, .map (r.readAll vp).2)
  | .map r, .unusedSections => (.done, .map r)

theorem Reader.call_readMap (r : Reader σ) (key : GoString) (order : Order) :
    r.call vp lw (.readMap key order) = r.call vp lw (.read key none order) := by
  cases r <;> rfl

/-- The viper in which a read promotes: the file reader binds the variables of the destination
first. -/
def Reader.bound : Reader σ → GoString → Option GoType → σ
  | .file r, key, some t => bindEnvLeaves vp lw r.v key t
  | .file r, _, none => r.v
  | .map r, _, _ => r.v

theorem Reader.bound_none (r : Reader σ) (key : GoString) :
    r.bound vp lw key none = r.viper := by
  cases r <;> rfl

theorem Reader.viper_read (r : Reader σ) (key : GoString) (dest : Option GoType) (order : Order) :
    (r.call vp lw (.read key dest order)).2.viper =
      promoteResolved vp order (r.bound vp lw key dest) key := by
  cases r <;> cases dest <;> rfl

theorem Reader.answer_read (r : Reader σ) (key : GoString) (dest : Option GoType)
    (order : Order) :
    (r.call vp lw (.read key dest order)).1 =
      .value (vp.get (r.call vp lw (.read key dest order)).2.viper key) := by
  cases r <;> rfl

end Microjet.Configx
