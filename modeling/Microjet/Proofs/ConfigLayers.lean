import Microjet.Configx.Reader
import Microjet.Lib.Machine

/-!
# The layers of the configuration

A read copies the value of every known key under its section into the override layer: the first
read that finds a default keeps it, and one registered afterwards is not looked at. No key is a
table another one is in (`LeafKeys`), so promoting one leaves the value of every key as it was
(`Promotes.resolve_eq`), in any order.
-/

namespace Microjet.Configx

open LeafTree Machine

variable {V : Type} {lw : ToLower} {env : GoString → Option V} {U : List GoString}
  {config : Layer V} {v v' : Layers V} {k sect : GoString}

/-- The keys of leaves: lower case, and none a table another one is in. -/
structure LeafKeys (lw : ToLower) (U : List GoString) : Prop where
  lower : ∀ k ∈ U, lw.lower k = k
  apart : ∀ k ∈ U, ∀ k' ∈ U, ¬Below dot k k'

theorem LeafKeys.apart_of_ne (hU : LeafKeys lw U) {k k' : GoString} (hk : k ∈ U) (hk' : k' ∈ U)
    (hne : k ≠ k') : Apart dot k k' := by
  constructor
  · rintro (he | hb)
    · exact hne he.symm
    · exact hU.apart k hk k' hk' hb
  · rintro (he | hb)
    · exact hne he
    · exact hU.apart k' hk' k hk hb

/-- All keys of the layers are in `U`. -/
structure Layers.Named (U : List GoString) (v : Layers V) : Prop where
  override : ∀ k ∈ v.override.keys, k ∈ U
  bound : ∀ k ∈ v.bound, k ∈ U
  config : ∀ k ∈ v.config.keys, k ∈ U
  defaults : ∀ k ∈ v.defaults.keys, k ∈ U

theorem Layers.mem_allKeys :
    k ∈ v.allKeys ↔
      k ∈ v.override.keys ∨ k ∈ v.bound ∨ k ∈ v.config.keys ∨ k ∈ v.defaults.keys := by
  simp only [Layers.allKeys, List.mem_dedup, List.mem_append, or_assoc]

theorem Layers.Named.allKeys (hv : v.Named U) (hk : k ∈ v.allKeys) : k ∈ U := by
  rcases mem_allKeys.mp hk with h | h | h | h
  · exact hv.override k h
  · exact hv.bound k h
  · exact hv.config k h
  · exact hv.defaults k h

/-- The value of a key. -/
def Layers.resolve (env : GoString → Option V) (v : Layers V) (k : GoString) : Option V :=
  (v.override.leaf k).or ((env k).or ((v.config.leaf k).or (v.defaults.leaf k)))

theorem Layers.find_of_mem (hU : LeafKeys lw U) (hv : v.Named U) (hk : k ∈ U) :
    v.find env k = .ofOption (v.resolve env k) := by
  have hnot {t : Layer V} (ht : ∀ k' ∈ t.keys, k' ∈ U) : ∀ k' ∈ t.keys, ¬Below dot k k' :=
    fun k' hk' => hU.apart k hk k' (ht k' hk')
  unfold Layers.find Layers.resolve
  rw [Tree.search_of_forall_not_below (hnot hv.override),
    Tree.search_of_forall_not_below (hnot hv.config),
    Tree.search_of_forall_not_below (hnot hv.defaults), Node.or_ofOption, Node.or_ofOption,
    Node.or_ofOption]

theorem layered_get (env : GoString → Option V) (hU : LeafKeys lw U) (hv : v.Named U) (hk : k ∈ U) :
    (layered lw env).get v k = .ofOption (v.resolve env k) := by
  simp only [layered, hU.lower k hk]
  exact v.find_of_mem hU hv hk

theorem layered_isSet (hU : LeafKeys lw U) (hv : v.Named U) (hk : k ∈ U) :
    (layered lw env).isSet v k = (v.resolve env k).isSome := by
  have h := congrArg (fun x => !Node.isNil x) (layered_get env hU hv hk)
  rw [Node.isNil_ofOption, Option.not_isNone] at h
  exact h

/-! ## What a read promotes -/

/-- The override layer has got the values of the leaves in `S`, and nothing else has changed. -/
structure Promotes (env : GoString → Option V) (U : List GoString) (S : GoString → Prop)
    (v v' : Layers V) : Prop where
  bound : v'.bound = v.bound
  config : v'.config = v.config
  defaults : v'.defaults = v.defaults
  named : v.Named U → v'.Named U
  known : ∀ k ∈ U, k ∈ v.allKeys → k ∈ v'.allKeys
  on : ∀ k ∈ U, S k → v'.override.leaf k = v.resolve env k
  off : ∀ k ∈ U, ¬S k → v'.override.leaf k = v.override.leaf k

namespace Promotes

variable {S T : GoString → Prop}

theorem refl (env : GoString → Option V) (U : List GoString) (v : Layers V) :
    Promotes env U (fun _ => False) v v where
  bound := rfl
  config := rfl
  defaults := rfl
  named h := h
  known _ _ h := h
  on _ _ h := h.elim
  off _ _ _ := rfl

theorem resolve_eq (h : Promotes env U S v v') (hk : k ∈ U) :
    v'.resolve env k = v.resolve env k := by
  unfold Layers.resolve
  rw [h.config, h.defaults]
  by_cases hS : S k
  · rw [h.on k hk hS, Layers.resolve]
    cases v.override.leaf k <;> cases env k <;> cases v.config.leaf k <;>
      cases v.defaults.leaf k <;> rfl
  · rw [h.off k hk hS]

theorem trans {v'' : Layers V} (h : Promotes env U S v v') (h' : Promotes env U T v' v'') :
    Promotes env U (fun k => S k ∨ T k) v v'' where
  bound := h'.bound.trans h.bound
  config := h'.config.trans h.config
  defaults := h'.defaults.trans h.defaults
  named hv := h'.named (h.named hv)
  known k hk hv := h'.known k hk (h.known k hk hv)
  on k hk hST := by
    by_cases hT : T k
    · rw [h'.on k hk hT, h.resolve_eq hk]
    · rw [h'.off k hk hT, h.on k hk (hST.resolve_right hT)]
  off k hk hST := by
    rw [not_or] at hST
    rw [h'.off k hk hST.2, h.off k hk hST.1]

theorem congr (h : Promotes env U S v v') (hST : ∀ k, S k ↔ T k) : Promotes env U T v v' := by
  have : S = T := funext fun k => propext (hST k)
  rwa [← this]

end Promotes

theorem Layers.known_put_override (hU : LeafKeys lw U) {k' : GoString} (hk : k ∈ U)
    (hk' : k' ∈ U) (o : Option V) (h : k' ∈ v.allKeys) :
    k' ∈ ({ v with override := v.override.put k o } : Layers V).allKeys := by
  rw [mem_allKeys] at h ⊢
  refine h.imp_left fun hmem => ?_
  by_cases he : k' = k
  · rw [he]
    exact Tree.mem_keys_put_self
  · exact Tree.mem_keys_put_of_apart (hU.apart_of_ne hk' hk he) hmem

theorem Layers.Named.put_override (hv : v.Named U) (hk : k ∈ U) (o : Option V) :
    ({ v with override := v.override.put k o } : Layers V).Named U where
  override k' hk' := by
    rcases Tree.mem_keys_put hk' with rfl | hmem
    · exact hk
    · exact hv.override k' hmem
  bound := hv.bound
  config := hv.config
  defaults := hv.defaults

theorem Layers.Named.put_defaults (hv : v.Named U) (hk : k ∈ U) (o : Option V) :
    ({ v with defaults := v.defaults.put k o } : Layers V).Named U where
  override := hv.override
  bound := hv.bound
  config := hv.config
  defaults k' hk' := by
    rcases Tree.mem_keys_put hk' with rfl | hmem
    · exact hk
    · exact hv.defaults k' hmem

theorem Layers.Named.bind (hv : v.Named U) {ks : List GoString} (hks : ∀ k ∈ ks, k ∈ U) :
    ({ v with bound := v.bound ++ ks } : Layers V).Named U where
  override := hv.override
  bound k' hk' := by
    rcases List.mem_append.mp hk' with hk' | hk'
    · exact hv.bound k' hk'
    · exact hks k' hk'
  config := hv.config
  defaults := hv.defaults

theorem promoteKey_promotes (env : GoString → Option V) (sect : GoString)
    (hU : LeafKeys lw U) (hv : v.Named U) (hk : k ∈ U) :
    Promotes env U (fun k' => k' = k ∧ Covers sect k') v
      (promoteKey (layered lw env) sect v k) := by
  unfold promoteKey
  by_cases hc : Covers sect k
  · rw [if_neg (not_not.mpr hc)]
    have hoff {k' : GoString} (h : ¬(k' = k ∧ Covers sect k')) : k' ≠ k :=
      fun he => h ⟨he, he ▸ hc⟩
    rw [layered_isSet hU hv hk, layered_get env hU hv hk]
    split
    · simp only [layered, hU.lower k hk, Tree.set_ofOption]
      exact {
        bound := rfl
        config := rfl
        defaults := rfl
        named := fun hv => hv.put_override hk _
        known := fun k' hk' h => v.known_put_override hU hk hk' _ h
        on := by
          rintro k' - ⟨rfl, -⟩
          exact Tree.leaf_put_self
        off := fun k' hk' h => Tree.leaf_put_of_apart (hU.apart_of_ne hk' hk (hoff h)) }
    · -- A known key without a value is left alone, and has no value in the override layer.
      rename_i hnone
      rw [Option.not_isSome_iff_eq_none] at hnone
      refine { Promotes.refl env U v with on := ?_, off := fun k' _ _ => rfl }
      rintro k' - ⟨rfl, -⟩
      rw [hnone]
      exact (Option.or_eq_none_iff.mp hnone).1
  · rw [if_pos hc]
    refine { Promotes.refl env U v with on := ?_, off := fun k' _ _ => rfl }
    rintro k' - ⟨rfl, h⟩
    exact absurd h hc

theorem foldl_promoteKey_promotes (hU : LeafKeys lw U) (ks : List GoString)
    (hks : ∀ k ∈ ks, k ∈ U) (hv : v.Named U) :
    Promotes env U (fun k => k ∈ ks ∧ Covers sect k) v
      (ks.foldl (promoteKey (layered lw env) sect) v) := by
  induction ks generalizing v with
  | nil => exact (Promotes.refl env U v).congr fun k => by simp
  | cons k ks ih =>
    rw [List.forall_mem_cons] at hks
    have hone := promoteKey_promotes env sect hU hv hks.1
    refine (hone.trans (ih hks.2 (hone.named hv))).congr fun k' => ?_
    rw [List.mem_cons, or_and_right]

theorem promoteResolved_promotes (env : GoString → Option V) (sect : GoString)
    (hU : LeafKeys lw U) (hv : v.Named U) (order : Order) :
    Promotes env U (fun k => k ∈ v.allKeys ∧ Covers sect k) v
      (promoteResolved (layered lw env) order v sect) := by
  have hmem (k : GoString) : k ∈ order.arrange v.allKeys ↔ k ∈ v.allKeys :=
    (order.perm _).mem_iff
  refine (foldl_promoteKey_promotes hU _ (fun k hk => hv.allKeys ((hmem k).mp hk)) hv).congr
    fun k => ?_
  rw [hmem]

theorem Layers.leafAt_find (hu : Under dot sect k)
    (hk : v.override.leaf k = v.resolve env k) :
    (v.find env sect).leafAt sect k = v.resolve env k := by
  unfold Layers.find
  cases hnil : (v.override.search sect).isNil with
  | false => rw [Node.leafAt_or_of_isNil_eq_false hnil, Tree.leafAt_search hu, hk]
  | true =>
    have hnone : v.resolve env k = none := by
      rw [← hk, ← Tree.leafAt_search hu, Node.leafAt_of_isNil hnil]
    obtain ⟨-, hrest⟩ := Option.or_eq_none_iff.mp hnone
    obtain ⟨henv, hrest⟩ := Option.or_eq_none_iff.mp hrest
    obtain ⟨hconfig, hdefaults⟩ := Option.or_eq_none_iff.mp hrest
    rw [hnone]
    refine Node.leafAt_or_eq_none (Node.leafAt_of_isNil hnil) ?_
    refine Node.leafAt_or_eq_none ?_ (Node.leafAt_or_eq_none ?_ ?_)
    · -- A variable for the section itself is not a leaf in it.
      by_cases he : k = sect
      · rw [← he, henv]
        rfl
      · cases env sect with
        | none => rfl
        | some x => exact if_neg he
    · rw [Tree.leafAt_search hu, hconfig]
    · rw [Tree.leafAt_search hu, hdefaults]

/-! ## The history of one key -/

/-- The value of a leaf. -/
def leafValue : Value V → Option V
  | .leaf x => some x
  | .nil | .table _ => none

theorem leafValue_ofOption (o : Option V) : leafValue (.ofOption o) = o := by
  cases o <;> rfl

/-- The history of one key. -/
structure Registered (V : Type) where
  value : Option V := none
  fallback : Option V := none
  /-- The default that the first read of the key has found, since the key was last set. -/
  found : Option V := none

/-- One more call. -/
def Registered.after (lw : ToLower) (k : GoString) (reg : Registered V) :
    Call (Value V) → Registered V
  | .setDefault key x => if lw.lower key = k then { reg with fallback := leafValue x } else reg
  | .set key x =>
    if lw.lower key = k then { reg with value := leafValue x, found := none } else reg
  | .read key _ _ | .readMap key _ =>
    if Covers key k then { reg with found := reg.found.or reg.fallback } else reg
  | .readAll _ _ | .unusedSections => reg

/-- The history after some calls. -/
def registered (lw : ToLower) (k : GoString) (calls : List (Call (Value V))) : Registered V :=
  calls.foldl (Registered.after lw k) {}

theorem registered_concat (lw : ToLower) (k : GoString) (calls : List (Call (Value V)))
    (c : Call (Value V)) :
    registered lw k (calls ++ [c]) = (registered lw k calls).after lw k c := by
  rw [registered, List.foldl_append]
  rfl

namespace Call

/-- The calls of a history of leaves: no whole table is set, and none but a section is read. -/
def Leaf : Call (Value V) → Prop
  | .setDefault _ x | .set _ x => x = .ofOption (leafValue x)
  | .read _ _ _ | .readMap _ _ | .unusedSections => True
  | .readAll _ _ => False

/-- The section a call reads. -/
def sect? : Call (Value V) → Option GoString
  | .read key _ _ | .readMap key _ => some key
  | .setDefault _ _ | .set _ _ | .readAll _ _ | .unusedSections => none

/-- The leaves a call names: those of the destination only with a reader that binds them. -/
def keys (lw : ToLower) (binds : Bool) : Call (Value V) → List GoString
  | .setDefault key _ | .set key _ => [lw.lower key]
  | .read key (some t) _ => if binds then (envLeaves lw key t).map lw.lower else []
  | .read _ none _ | .readMap _ _ | .readAll _ _ | .unusedSections => []

end Call

namespace Reader

/-- The reader binds the environment. -/
def binds : Reader (Layers V) → Bool
  | .file _ => true
  | .map _ => false

/-- The keys there are. -/
def leaves (lw : ToLower) (r : Reader (Layers V)) (config : Layer V)
    (calls : List (Call (Value V))) : List GoString :=
  config.keys ++ calls.flatMap (Call.keys lw r.binds)

variable (lw env) in
/-- The reader as it is constructed; the map reader looks at no environment. -/
inductive Fresh (config : Layer V) : Reader (Layers V) → Prop where
  | file {disk : Disk (Layers V)} {r : ViperConfigReader (Layers V)}
      (hload : newViper disk = .ok { config })
      (h : newViperConfigReader (layered lw env) disk = .ok r) : Fresh config (.file r)
  | map (h : ∀ k, env k = none) : Fresh config (.map (newMapReader { config }))

theorem Fresh.viper_eq {r : Reader (Layers V)} (h : r.Fresh lw env config) :
    r.viper = { config } := by
  cases h with
  | file hload h =>
    rw [newViperConfigReader, hload] at h
    cases h
    rfl
  | map h => rfl

theorem binds_call (lw : ToLower) (env : GoString → Option V) (r : Reader (Layers V))
    (c : Call (Value V)) :
    (r.call (layered lw env) lw c).2.binds = r.binds := by
  cases r <;> cases c <;> rfl

theorem foldl_bindEnv (env : GoString → Option V) (ks : List GoString) (v : Layers V) :
    ks.foldl (layered lw env).bindEnv v = { v with bound := v.bound ++ ks.map lw.lower } := by
  induction ks generalizing v with
  | nil => simp
  | cons k ks ih =>
    rw [List.foldl_cons, ih]
    simp [layered]

section

variable (lw : ToLower) (env : GoString → Option V) (r : Reader (Layers V))

theorem call_setDefault (key : GoString) (o : Option V) :
    (r.call (layered lw env) lw (.setDefault key (.ofOption o))).2.viper =
      { r.viper with defaults := r.viper.defaults.put (lw.lower key) o } := by
  rw [← Tree.set_ofOption]
  cases r <;> rfl

theorem call_set (key : GoString) (o : Option V) :
    (r.call (layered lw env) lw (.set key (.ofOption o))).2.viper =
      { r.viper with override := r.viper.override.put (lw.lower key) o } := by
  rw [← Tree.set_ofOption]
  cases r <;> rfl

theorem bound_layered (key : GoString) (dest : Option GoType) (order : Order) :
    r.bound (layered lw env) lw key dest = { r.viper with
      bound := r.viper.bound ++ (.read key dest order : Call (Value V)).keys lw r.binds } := by
  cases r with
  | map r => cases dest <;> exact congrArg (Layers.mk _ · _ _) (List.append_nil _).symm
  | file r =>
    cases dest with
    | none => exact congrArg (Layers.mk _ · _ _) (List.append_nil _).symm
    | some t => exact (bindEnvLeaves_eq _ lw r.v key t).trans (foldl_bindEnv env _ r.v)

theorem call_of_sect {c : Call (Value V)} (hs : c.sect? = some sect) :
    ∃ order,
      (r.call (layered lw env) lw c).2.viper = promoteResolved (layered lw env) order
        { r.viper with bound := r.viper.bound ++ c.keys lw r.binds } sect ∧
      (r.call (layered lw env) lw c).1 =
        .value ((layered lw env).get (r.call (layered lw env) lw c).2.viper sect) := by
  cases c with
  | setDefault key x | set key x | readAll dest order | unusedSections => cases hs
  | read key dest order =>
    cases hs
    refine ⟨order, ?_, r.answer_read _ lw sect dest order⟩
    rw [viper_read, bound_layered lw env r sect dest order]
  | readMap key order =>
    cases hs
    rw [call_readMap]
    refine ⟨order, ?_, r.answer_read _ lw sect none order⟩
    rw [viper_read, bound_layered lw env r sect none order]
    rfl

end

/-- What a call can do to the layers. -/
inductive Moves (lw : ToLower) (env : GoString → Option V) (binds : Bool) (v : Layers V) :
    Call (Value V) → Layers V → Prop where
  | setDefault (key : GoString) (o : Option V) :
      Moves lw env binds v (.setDefault key (.ofOption o))
        { v with defaults := v.defaults.put (lw.lower key) o }
  | set (key : GoString) (o : Option V) :
      Moves lw env binds v (.set key (.ofOption o))
        { v with override := v.override.put (lw.lower key) o }
  | read {c : Call (Value V)} {sect : GoString} (hs : c.sect? = some sect) (order : Order) :
      Moves lw env binds v c (promoteResolved (layered lw env) order
        { v with bound := v.bound ++ c.keys lw binds } sect)
  | unusedSections : Moves lw env binds v .unusedSections v

theorem moves_call (lw : ToLower) (env : GoString → Option V) (r : Reader (Layers V))
    {c : Call (Value V)} (hleaf : c.Leaf) :
    Moves lw env r.binds r.viper c (r.call (layered lw env) lw c).2.viper := by
  cases c with
  | setDefault key x =>
    obtain ⟨o, rfl⟩ : ∃ o, x = .ofOption o := ⟨_, hleaf⟩
    rw [r.call_setDefault lw env key]
    exact .setDefault key o
  | set key x =>
    obtain ⟨o, rfl⟩ : ∃ o, x = .ofOption o := ⟨_, hleaf⟩
    rw [r.call_set lw env key]
    exact .set key o
  | read key dest order =>
    have hs : (Call.read key dest order : Call (Value V)).sect? = some key := rfl
    obtain ⟨order', hstate, -⟩ := r.call_of_sect lw env hs
    rw [hstate]
    exact .read hs order'
  | readMap key order =>
    have hs : (Call.readMap key order : Call (Value V)).sect? = some key := rfl
    obtain ⟨order', hstate, -⟩ := r.call_of_sect lw env hs
    rw [hstate]
    exact .read hs order'
  | readAll dest order => exact hleaf.elim
  | unusedSections =>
    have hstate : (r.call (layered lw env) lw .unusedSections).2.viper = r.viper := by
      cases r <;> rfl
    rw [hstate]
    exact .unusedSections

theorem Moves.named {binds : Bool} {c : Call (Value V)} (h : Moves lw env binds v c v')
    (hU : LeafKeys lw U) (hv : v.Named U) (hkeys : ∀ k ∈ c.keys lw binds, k ∈ U) :
    v'.Named U := by
  cases h with
  | setDefault key o => exact hv.put_defaults (hkeys _ (List.mem_singleton_self _)) o
  | set key o => exact hv.put_override (hkeys _ (List.mem_singleton_self _)) o
  | read hs order =>
    have hbind := hv.bind hkeys
    exact (promoteResolved_promotes env _ hU hbind order).named hbind
  | unusedSections => exact hv

end Reader

/-- The layers agree with the history of `k`. -/
structure Tracks (lw : ToLower) (env : GoString → Option V) (config : Layer V) (k : GoString)
    (binds : Bool) (past : List (Call (Value V))) (v : Layers V) : Prop where
  config_eq : v.config = config
  known : (k ∈ config.keys ∨ ∃ c ∈ past, k ∈ c.keys lw binds) → k ∈ v.allKeys
  fallback : v.defaults.leaf k = (registered lw k past).fallback
  upper : (v.override.leaf k).or ((env k).or (config.leaf k)) =
    (registered lw k past).value.or (((env k).or (config.leaf k)).or (registered lw k past).found)

namespace Tracks

variable {binds : Bool} {past : List (Call (Value V))} {c : Call (Value V)}

theorem resolve_eq (h : Tracks lw env config k binds past v) :
    v.resolve env k = (registered lw k past).value.or ((env k).or ((config.leaf k).or
      ((registered lw k past).found.or (registered lw k past).fallback))) := by
  calc v.resolve env k
      = ((v.override.leaf k).or ((env k).or (config.leaf k))).or (v.defaults.leaf k) := by
        rw [Layers.resolve, h.config_eq, Option.or_assoc, Option.or_assoc]
    _ = _ := by
        rw [h.upper, h.fallback]
        simp only [Option.or_assoc]

theorem init : Tracks lw env config k binds [] { config } where
  config_eq := rfl
  known h := by
    rcases h with h | ⟨c, hc, -⟩
    · exact Layers.mem_allKeys.mpr (.inr (.inr (.inl h)))
    · cases hc
  fallback := rfl
  upper := Option.or_none.symm

variable (h : Tracks lw env config k binds past v)

include h

theorem known_concat
    (hkeep : k ∈ v.allKeys → k ∈ v'.allKeys) (hnew : k ∈ c.keys lw binds → k ∈ v'.allKeys)
    (hk : k ∈ config.keys ∨ ∃ c' ∈ past ++ [c], k ∈ c'.keys lw binds) : k ∈ v'.allKeys := by
  rcases hk with hk | ⟨c', hc', hk⟩
  · exact hkeep (h.known (.inl hk))
  · rcases List.mem_append.mp hc' with hc' | hc'
    · exact hkeep (h.known (.inr ⟨c', hc', hk⟩))
    · rw [List.mem_singleton] at hc'
      subst hc'
      exact hnew hk

theorem setDefault (hU : LeafKeys lw U) (hk : k ∈ U)
    {key : GoString} (hkey : lw.lower key ∈ U) (o : Option V) :
    Tracks lw env config k binds (past ++ [.setDefault key (.ofOption o)])
      { v with defaults := v.defaults.put (lw.lower key) o } where
  config_eq := h.config_eq
  known := by
    refine h.known_concat (fun hmem => ?_) (fun hmem => ?_)
    · rw [Layers.mem_allKeys] at hmem ⊢
      refine hmem.imp_right (Or.imp_right (Or.imp_right fun hmem => ?_))
      by_cases he : k = lw.lower key
      · rw [he]
        exact Tree.mem_keys_put_self
      · exact Tree.mem_keys_put_of_apart (hU.apart_of_ne hk hkey he) hmem
    · rw [Call.keys, List.mem_singleton] at hmem
      rw [hmem]
      exact Layers.mem_allKeys.mpr (.inr (.inr (.inr Tree.mem_keys_put_self)))
  fallback := by
    rw [registered_concat, Registered.after]
    by_cases he : lw.lower key = k
    · rw [if_pos he, he]
      dsimp only
      rw [Tree.leaf_put_self, leafValue_ofOption]
    · rw [if_neg he, ← h.fallback]
      exact Tree.leaf_put_of_apart (hU.apart_of_ne hk hkey (Ne.symm he))
  upper := by
    rw [registered_concat, Registered.after]
    split <;> exact h.upper

theorem set (hU : LeafKeys lw U) (hk : k ∈ U)
    {key : GoString} (hkey : lw.lower key ∈ U) (o : Option V) :
    Tracks lw env config k binds (past ++ [.set key (.ofOption o)])
      { v with override := v.override.put (lw.lower key) o } where
  config_eq := h.config_eq
  known := by
    refine h.known_concat (v.known_put_override hU hkey hk o) (fun hmem => ?_)
    rw [Call.keys, List.mem_singleton] at hmem
    rw [hmem]
    exact Layers.mem_allKeys.mpr (.inl Tree.mem_keys_put_self)
  fallback := by
    rw [registered_concat, Registered.after]
    split <;> exact h.fallback
  upper := by
    rw [registered_concat, Registered.after]
    by_cases he : lw.lower key = k
    · rw [if_pos he, he]
      dsimp only
      rw [Tree.leaf_put_self, leafValue_ofOption, Option.or_none]
    · rw [if_neg he, ← h.upper]
      dsimp only
      rw [Tree.leaf_put_of_apart (hU.apart_of_ne hk hkey (Ne.symm he))]

theorem known_bind (hk : k ∈ config.keys ∨ ∃ c' ∈ past ++ [c], k ∈ c'.keys lw binds) :
    k ∈ ({ v with bound := v.bound ++ c.keys lw binds } : Layers V).allKeys := by
  refine h.known_concat (fun hmem => ?_) (fun hmem => ?_) hk
  · rw [Layers.mem_allKeys] at hmem ⊢
    exact hmem.imp_right (Or.imp_left (List.mem_append_left _))
  · exact Layers.mem_allKeys.mpr (.inr (.inl (List.mem_append_right _ hmem)))

/-- A leaf that a read covers has from then on the value that the read has found. -/
theorem read (hU : LeafKeys lw U) (hk : k ∈ U)
    (hv : v.Named U) (hs : c.sect? = some sect) (hkeys : ∀ k ∈ c.keys lw binds, k ∈ U)
    (order : Order) :
    Tracks lw env config k binds (past ++ [c]) (promoteResolved (layered lw env) order
      { v with bound := v.bound ++ c.keys lw binds } sect) := by
  have hp := promoteResolved_promotes env sect hU (hv.bind hkeys) order
  have hafter : (registered lw k past).after lw k c = if Covers sect k then
      { registered lw k past with
        found := (registered lw k past).found.or (registered lw k past).fallback }
      else registered lw k past := by
    cases c with
    | setDefault key x | set key x | readAll dest order | unusedSections => cases hs
    | read key dest order => cases hs; rfl
    | readMap key order => cases hs; rfl
  refine {
    config_eq := hp.config.trans h.config_eq
    known := fun hnamed => hp.known k hk (h.known_bind hnamed)
    fallback := ?_
    upper := ?_ }
  · rw [hp.defaults, registered_concat, hafter]
    split <;> exact h.fallback
  · rw [registered_concat, hafter]
    by_cases hc : Covers sect k
    · rw [if_pos hc]
      by_cases hmem : k ∈
          ({ v with bound := v.bound ++ c.keys lw binds } : Layers V).allKeys
      · have hresolve := h.resolve_eq
        rw [hp.on k hk ⟨hmem, hc⟩]
        unfold Layers.resolve at hresolve ⊢
        rw [hresolve]
        cases (registered lw k past).value <;> cases env k <;> cases config.leaf k <;>
          cases (registered lw k past).found <;> cases (registered lw k past).fallback <;> rfl
      · -- A key that is not known has no default, so the read finds none.
        have hnone : (registered lw k past).fallback = none := by
          rw [← h.fallback, Option.eq_none_iff_forall_not_mem]
          intro x hx
          exact hmem (Layers.mem_allKeys.mpr (.inr (.inr (.inr (Tree.mem_keys_of_leaf hx)))))
        dsimp only
        rw [hp.off k hk fun hS => hmem hS.1, hnone, Option.or_none]
        exact h.upper
    · rw [if_neg hc, hp.off k hk fun hS => hc hS.2]
      exact h.upper

theorem unusedSections :
    Tracks lw env config k binds (past ++ [.unusedSections]) v := by
  have hreg : registered lw k (past ++ [.unusedSections]) = registered lw k past :=
    registered_concat lw k past _
  exact {
    config_eq := h.config_eq
    known := h.known_concat id fun hmem => nomatch hmem
    fallback := hreg ▸ h.fallback
    upper := hreg ▸ h.upper }

theorem moves (hm : Reader.Moves lw env binds v c v')
    (hU : LeafKeys lw U) (hk : k ∈ U) (hv : v.Named U) (hkeys : ∀ k ∈ c.keys lw binds, k ∈ U) :
    Tracks lw env config k binds (past ++ [c]) v' := by
  cases hm with
  | setDefault key o => exact h.setDefault hU hk (hkeys _ (List.mem_singleton_self _)) o
  | set key o => exact h.set hU hk (hkeys _ (List.mem_singleton_self _)) o
  | read hs order => exact h.read hU hk hv hs hkeys order
  | unusedSections => exact h.unusedSections

theorem delivers (hU : LeafKeys lw U) (hk : k ∈ U)
    (hv : v.Named U) (hu : Under dot sect k) (hkeys : ∀ k ∈ c.keys lw binds, k ∈ U)
    (hnamed : k ∈ config.keys ∨ ∃ c' ∈ past ++ [c], k ∈ c'.keys lw binds) (order : Order) :
    ((promoteResolved (layered lw env) order
      { v with bound := v.bound ++ c.keys lw binds } sect).find env sect).leafAt
        sect k = v.resolve env k := by
  have hp := promoteResolved_promotes env sect hU (hv.bind hkeys) order
  have hon := hp.on k hk ⟨h.known_bind hnamed, .inr hu⟩
  exact (Layers.leafAt_find hu (hon.trans (hp.resolve_eq hk).symm)).trans (hp.resolve_eq hk)

end Tracks

namespace Reader

theorem final_tracks (env : GoString → Option V) (config : Layer V) (hU : LeafKeys lw U)
    (past : List (Call (Value V))) {calls : List (Call (Value V))} {r : Reader (Layers V)}
    (hv : r.viper.Named U) (hleaf : ∀ c ∈ calls, c.Leaf)
    (hkeys : ∀ c ∈ calls, ∀ k ∈ c.keys lw r.binds, k ∈ U) :
    (final (Reader.call (layered lw env) lw) r calls).binds = r.binds ∧
      (final (Reader.call (layered lw env) lw) r calls).viper.Named U ∧
      ∀ k ∈ U, Tracks lw env config k r.binds past r.viper →
        Tracks lw env config k r.binds (past ++ calls)
          (final (Reader.call (layered lw env) lw) r calls).viper := by
  induction calls generalizing r past with
  | nil =>
    refine ⟨rfl, hv, fun k hk h => ?_⟩
    rwa [List.append_nil]
  | cons c calls ih =>
    rw [List.forall_mem_cons] at hleaf hkeys
    have hm := r.moves_call lw env hleaf.1
    have hbinds := r.binds_call lw env c
    obtain ⟨hbinds', hnamed, htracks⟩ := ih (past ++ [c]) (hm.named hU hv hkeys.1)
      hleaf.2 (hbinds ▸ hkeys.2)
    refine ⟨hbinds'.trans hbinds, hnamed, fun k hk h => ?_⟩
    have := htracks k hk (hbinds ▸ h.moves hm hU hk hv hkeys.1)
    rwa [hbinds, List.append_assoc] at this

end Reader

/-- The value the key should have. -/
def specified (lw : ToLower) (env : GoString → Option V) (config : Layer V) (k : GoString)
    (calls : List (Call (Value V))) : Option V :=
  let reg := registered lw k calls
  reg.value.or ((env k).or ((config.leaf k).or reg.fallback))

/-- No read has found another default than the one registered last, or none is needed. -/
def DefaultCurrent (lw : ToLower) (env : GoString → Option V) (config : Layer V) (k : GoString)
    (calls : List (Call (Value V))) : Prop :=
  let reg := registered lw k calls
  reg.value.isSome ∨ (env k).isSome ∨ (config.leaf k).isSome ∨
    reg.found = none ∨ reg.found = reg.fallback

theorem found_or_eq_iff (calls : List (Call (Value V))) :
    (registered lw k calls).value.or ((env k).or ((config.leaf k).or
        ((registered lw k calls).found.or (registered lw k calls).fallback))) =
      specified lw env config k calls ↔ DefaultCurrent lw env config k calls := by
  unfold specified DefaultCurrent
  obtain ⟨value, fallback, found⟩ := registered lw k calls
  cases value <;> cases env k <;> cases config.leaf k <;> cases found <;> simp

theorem Layers.leafAt_find_of_not_mem (hv : v.Named U) (hk : k ∉ U) (hu : Under dot sect k)
    {y : V} (h : (v.find env sect).leafAt sect k = some y) : env k = some y := by
  have hnone {t : Layer V} (ht : ∀ k ∈ t.keys, k ∈ U) : (t.search sect).leafAt sect k = none := by
    rw [Tree.leafAt_search hu, Option.eq_none_iff_forall_not_mem]
    intro x hx
    exact hk (ht k (Tree.mem_keys_of_leaf hx))
  by_contra henv
  have hvar : (Node.ofOption (env sect) : Value V).leafAt sect k ≠ some y := by
    cases hs : env sect with
    | none => exact (Option.some_ne_none y).symm
    | some x =>
      intro hx
      rw [Node.ofOption, Node.leafAt] at hx
      split at hx
      · rename_i he
        exact henv (by rw [he, hs, hx])
      · cases hx
  have hor {x x' : Value V} (hx : x.leafAt sect k ≠ some y) (hx' : x'.leafAt sect k ≠ some y) :
      (x.or x').leafAt sect k ≠ some y := by
    unfold Node.or
    split
    · exact hx'
    · exact hx
  have hlayer {t : Layer V} (ht : ∀ k ∈ t.keys, k ∈ U) :
      (t.search sect).leafAt sect k ≠ some y := by
    rw [hnone ht]
    exact (Option.some_ne_none y).symm
  exact hor (hlayer hv.override) (hor hvar (hor (hlayer hv.config) (hlayer hv.defaults))) h

theorem registered_of_not_named {binds : Bool} {calls : List (Call (Value V))}
    (h : ∀ c ∈ calls, k ∉ c.keys lw binds) : (registered lw k calls).value = none := by
  unfold registered
  have hgen (reg : Registered V) (hreg : reg.value = none) :
      (calls.foldl (Registered.after lw k) reg).value = none := by
    induction calls generalizing reg with
    | nil => exact hreg
    | cons c calls ih =>
      rw [List.forall_mem_cons] at h
      refine ih h.2 _ ?_
      cases c with
      | set key x =>
        have hne : ¬lw.lower key = k := fun he => h.1 (he ▸ List.mem_singleton_self _)
        rw [Registered.after, if_neg hne]
        exact hreg
      | setDefault key x | read key dest order | readMap key order =>
        rw [Registered.after]
        split <;> exact hreg
      | readAll dest order | unusedSections => exact hreg
  exact hgen {} rfl

/-- A read delivers for each leaf the value set last, or else that of the variable, the file, or
the default registered last, exactly if no earlier read had found another default. Of a key that
nothing has named, it can only deliver the variable. -/
theorem read_layered_iff (lw : ToLower) (env : GoString → Option V) (config : Layer V)
    {r : Reader (Layers V)} (hr : r.Fresh lw env config) {calls : List (Call (Value V))}
    {c : Call (Value V)} {sect : GoString} (hs : c.sect? = some sect)
    (hsect : lw.lower sect = sect) (hleaf : ∀ c ∈ calls, c.Leaf)
    (hkeys : LeafKeys lw (r.leaves lw config (calls ++ [c]))) :
    ∃ x, ((final (Reader.call (layered lw env) lw) r calls).call (layered lw env) lw c).1 =
        .value x ∧
      ∀ k, Under dot sect k →
        (k ∈ r.leaves lw config (calls ++ [c]) →
          (x.leafAt sect k = specified lw env config k calls ↔
            DefaultCurrent lw env config k calls)) ∧
        (k ∉ r.leaves lw config (calls ++ [c]) →
          ∀ y, x.leafAt sect k = some y → specified lw env config k calls = some y) := by
  generalize hU : r.leaves lw config (calls ++ [c]) = U at hkeys ⊢
  have hnamed (k : GoString) : k ∈ U ↔
      k ∈ config.keys ∨ ∃ c' ∈ calls ++ [c], k ∈ c'.keys lw r.binds := by
    rw [← hU, Reader.leaves, List.mem_append, List.mem_flatMap]
  have hmem : ∀ c' ∈ calls ++ [c], ∀ k ∈ c'.keys lw r.binds, k ∈ U :=
    fun c' hc k hk => (hnamed k).mpr (.inr ⟨c', hc, hk⟩)
  have hinit : r.viper.Named U := by
    rw [hr.viper_eq]
    exact {
      override := fun k hk => nomatch hk
      bound := fun k hk => nomatch hk
      config := fun k hk => (hnamed k).mpr (.inl hk)
      defaults := fun k hk => nomatch hk }
  obtain ⟨hbinds, hv, htracks⟩ := Reader.final_tracks env config hkeys [] hinit hleaf
    fun c' hc => hmem c' (List.mem_append_left _ hc)
  generalize final (Reader.call (layered lw env) lw) r calls = r' at hbinds hv htracks
  obtain ⟨order, hstate, hanswer⟩ := r'.call_of_sect lw env hs
  have hc : ∀ k ∈ c.keys lw r.binds, k ∈ U := hmem c (by simp)
  have hget (v : Layers V) : (layered lw env).get v sect = v.find env sect := by
    simp only [layered, hsect]
  refine ⟨_, hanswer, fun k hu => ⟨fun hk => ?_, fun hk y hy => ?_⟩⟩
  · have htrack := htracks k hk (by rw [hr.viper_eq]; exact .init)
    rw [List.nil_append] at htrack
    rw [hget, hstate, hbinds, htrack.delivers hkeys hk hv hu hc ((hnamed k).mp hk) order,
      htrack.resolve_eq]
    exact found_or_eq_iff calls
  · have hv' : (r'.call (layered lw env) lw c).2.viper.Named U := by
      have hbind := hv.bind hc
      rw [hstate, hbinds]
      exact (promoteResolved_promotes env sect hkeys hbind order).named hbind
    have henv := Layers.leafAt_find_of_not_mem hv' hk hu (hget _ ▸ hy)
    have hvalue : (registered lw k calls).value = none := registered_of_not_named
      fun c' hc' hk' => hk (hmem c' (List.mem_append_left _ hc') k hk')
    rw [specified, hvalue, henv]
    rfl

/-! A reader without files or environment, and two registrations of one default. If the section
has been read in between, then the second one is not looked at. -/

/-- No files. -/
def noFiles : Disk (Layers Nat) where
  fresh := {}
  readInConfig _ := .notFound
  mergeInConfig _ := .notFound

/-- No environment. -/
def noEnv : GoString → Option Nat := fun _ => none

/-- A reader of neither. -/
def bareReader : Reader (Layers Nat) := .file { v := {}, fileSections := [] }

/-- A field. -/
def appName : StructField := { name := bytes "Name", tag := bytes "name" }

/-- The section is read into it. -/
def readApp : Call (Value Nat) :=
  .read (bytes "app") (some (.pointer (.struct (.cons appName .other .nil)))) .same

/-- Its default. -/
def registerName (x : Nat) : Call (Value Nat) := .setDefault (bytes "app.name") (.leaf x)

theorem bareReader_fresh : bareReader.Fresh asciiLower noEnv .empty :=
  .file (show newViper noFiles = .ok {} from rfl) rfl

theorem read_layered_twice :
    ∃ x, ((final (Reader.call (layered asciiLower noEnv) asciiLower) bareReader
        [registerName 1, registerName 2]).call (layered asciiLower noEnv) asciiLower readApp).1 =
          .value x ∧
      x.leafAt (bytes "app") (bytes "app.name") = some 2 := by
  have hleaf : ∀ c ∈ [registerName 1, registerName 2], c.Leaf :=
    List.forall_mem_cons.mpr ⟨rfl, List.forall_mem_singleton.mpr rfl⟩
  have hs : readApp.sect? = some (bytes "app") := rfl
  obtain ⟨x, hx, hall⟩ := read_layered_iff asciiLower noEnv .empty bareReader_fresh hs
    (by decide) hleaf ⟨by decide, by decide⟩
  exact ⟨x, hx, ((hall (bytes "app.name") (by decide)).1 (by decide)).mpr
    (.inr (.inr (.inr (.inl rfl))))⟩

/-- A default registered after a read is not looked at. -/
theorem default_ignored :
    ∃ x, ((final (Reader.call (layered asciiLower noEnv) asciiLower) bareReader
        [registerName 1, readApp, registerName 2]).call (layered asciiLower noEnv) asciiLower
          readApp).1 = .value x ∧
      x.leafAt (bytes "app") (bytes "app.name") = some 1 ∧
      specified asciiLower noEnv .empty (bytes "app.name")
        [registerName 1, readApp, registerName 2] = some 2 :=
  ⟨_, rfl, by decide, by decide⟩

end Microjet.Configx
