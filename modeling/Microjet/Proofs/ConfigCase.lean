import Microjet.Proofs.ConfigLayers

/-!
# The spelling of a section

Viper lower-cases the keys it is given, but `promoteResolved` and `claimed` compare the name as
it was given: with a capital letter it covers no key and claims no table of the file. After a
respelled call that is not `Harmless` a leaf is set in the section, which is then read under the
spelling that promotes nothing, and the leaf that was not promoted is gone.
-/

namespace Microjet.Configx

open LeafTree Machine

variable {σ α : Type} {vp : Viper σ α} {lw : ToLower}

/-! ## The environment is bound under every spelling -/

theorem eq_nil_of_respelled {pre pre' : GoString} (h : lw.lower pre = lw.lower pre') :
    pre = [] ↔ pre' = [] := by
  rw [← lw.lower_eq_nil pre, h, lw.lower_eq_nil]

theorem joinKey_respelled {pre pre' : GoString} (h : lw.lower pre = lw.lower pre')
    (tag : GoString) : lw.lower (joinKey pre tag) = lw.lower (joinKey pre' tag) := by
  unfold joinKey
  by_cases hpre : pre = []
  · rw [if_pos hpre, if_pos ((eq_nil_of_respelled h).mp hpre)]
  · rw [if_neg hpre, if_neg (mt (eq_nil_of_respelled h).mpr hpre), lw.lower_dot, lw.lower_dot, h]

mutual

theorem bindEnvLeaves_respelled (hvp : vp.CaseInsensitive lw) (v : σ) {pre pre' : GoString}
    (h : lw.lower pre = lw.lower pre') :
    ∀ t, bindEnvLeaves vp lw v pre t = bindEnvLeaves vp lw v pre' t
  | .pointer elem => by
      rw [bindEnvLeaves, bindEnvLeaves]
      exact bindEnvLeaves_respelled hvp v h elem
  | .struct fields => by
      rw [bindEnvLeaves, bindEnvLeaves]
      exact bindEnvFields_respelled hvp v h fields
  | .time | .other => by
      rw [bindEnvLeaves, bindEnvLeaves]
      by_cases hpre : pre = []
      · rw [if_pos hpre, if_pos ((eq_nil_of_respelled h).mp hpre)]
      · rw [if_neg hpre, if_neg (mt (eq_nil_of_respelled h).mpr hpre)]
        exact hvp.bindEnv v pre pre' h

theorem bindEnvFields_respelled (hvp : vp.CaseInsensitive lw) (v : σ) {pre pre' : GoString}
    (h : lw.lower pre = lw.lower pre') :
    ∀ fields, bindEnvFields vp lw v pre fields = bindEnvFields vp lw v pre' fields
  | .nil => rfl
  | .cons f t rest => by
      rw [bindEnvFields, bindEnvFields]
      cases fieldTag lw f with
      | none => exact bindEnvFields_respelled hvp v h rest
      | some tag =>
        dsimp only
        rw [bindEnvLeaves_respelled hvp v (joinKey_respelled h tag) t]
        exact bindEnvFields_respelled hvp _ h rest

end

/-! ## What a spelling changes -/

/-- The same call, up to the spelling of its section. -/
inductive Respelled (lw : ToLower) : Call α → Call α → Prop where
  | same (c : Call α) : Respelled lw c c
  | read {key key' : GoString} (h : lw.lower key = lw.lower key') (dest : Option GoType)
      (order : Order) : Respelled lw (.read key dest order) (.read key' dest order)
  | readMap {key key' : GoString} (h : lw.lower key = lw.lower key') (order : Order) :
      Respelled lw (.readMap key order) (.readMap key' order)

variable (vp) in
/-- Setting a key that the name covers, as it is spelled, to its value changes nothing. -/
def Settled (v : σ) (key : GoString) : Prop :=
  ∀ k ∈ vp.allKeys v, Covers key k → vp.isSet v k = true → vp.set v k (vp.get v k) = v

/-- No table of the file that is still unclaimed is claimed by one spelling alone. -/
def Reader.SameClaim : Reader σ → GoString → GoString → Prop
  | .file r, key, key' => r.claimedAll = true ∨
      ∀ s ∈ r.fileSections, s ∉ r.claimed → (topSection key = s ↔ topSection key' = s)
  | .map _, _, _ => True

variable (vp lw) in
/-- The spelling of the section makes no difference to the reader. -/
def Harmless (r : Reader σ) : Call α → Call α → Prop
  | .read key dest _, .read key' _ _ => r.SameClaim key key' ∧
      (key = key' ∨ Settled vp (r.bound vp lw key dest) key ∧
        Settled vp (r.bound vp lw key dest) key')
  | .readMap key _, .readMap key' _ => r.SameClaim key key' ∧
      (key = key' ∨ Settled vp r.viper key ∧ Settled vp r.viper key')
  | _, _ => True

/-! ## Two runs -/

theorem promoteResolved_of_settled {v : σ} {key : GoString} (h : Settled vp v key)
    (order : Order) : promoteResolved vp order v key = v := by
  have hgen (ks : List GoString) (hks : ∀ k ∈ ks, k ∈ vp.allKeys v) :
      ks.foldl (promoteKey vp key) v = v := by
    induction ks with
    | nil => rfl
    | cons k ks ih =>
      rw [List.forall_mem_cons] at hks
      have hone : promoteKey vp key v k = v := by
        unfold promoteKey
        split
        · rfl
        · rename_i hc
          split
          · rename_i hset
            exact h k hks.1 (not_not.mp hc) hset
          · rfl
      rw [List.foldl_cons, hone]
      exact ih hks.2
  exact hgen _ fun k hk => (order.perm _).mem_iff.mp hk

variable {key key' : GoString}

theorem promoteResolved_respelled {v : σ}
    (h : key = key' ∨ Settled vp v key ∧ Settled vp v key') (order : Order) :
    promoteResolved vp order v key = promoteResolved vp order v key' := by
  rcases h with rfl | ⟨hs, hs'⟩
  · rfl
  · rw [promoteResolved_of_settled hs, promoteResolved_of_settled hs']

/-- Readers that nothing tells apart. -/
inductive Reader.Alike : Reader σ → Reader σ → Prop where
  | file {r r' : ViperConfigReader σ} (hv : r.v = r'.v) (hfile : r.fileSections = r'.fileSections)
      (hall : r.claimedAll = r'.claimedAll)
      (hclaimed : r.claimedAll = true ∨ ∀ s ∈ r.fileSections, s ∈ r.claimed ↔ s ∈ r'.claimed) :
      Alike (.file r) (.file r')
  | map {r r' : MapReader σ} (hv : r.v = r'.v) : Alike (.map r) (.map r')

theorem Reader.Alike.refl (r : Reader σ) : r.Alike r := by
  cases r with
  | file r => exact .file rfl rfl rfl (.inr fun _ _ => Iff.rfl)
  | map r => exact .map rfl

theorem unusedSections_alike {r r' : ViperConfigReader σ}
    (h : (Reader.file r).Alike (.file r')) : r.unusedSections = r'.unusedSections := by
  cases h with
  | file hv hfile hall hclaimed =>
    unfold ViperConfigReader.unusedSections
    rw [← hall, ← hfile]
    split
    · rfl
    · rename_i hnot
      have hsame := hclaimed.resolve_left hnot
      congr 1
      refine List.filter_congr fun s hs => ?_
      rw [List.contains_eq_mem, List.contains_eq_mem, decide_eq_decide.mpr (hsame s hs)]

theorem claimed_alike {r r' : ViperConfigReader σ}
    (hclaimed : r.claimedAll = true ∨ ∀ s ∈ r.fileSections, s ∈ r.claimed ↔ s ∈ r'.claimed)
    (hc : (Reader.file r).SameClaim key key') :
    r.claimedAll = true ∨ ∀ s ∈ r.fileSections,
      s ∈ topSection key :: r.claimed ↔ s ∈ topSection key' :: r'.claimed := by
  rcases hc with hall | hc
  · exact .inl hall
  · refine hclaimed.imp_right fun hsame s hs => ?_
    rw [List.mem_cons, List.mem_cons, ← hsame s hs]
    by_cases hmem : s ∈ r.claimed
    · simp [hmem]
    · rw [eq_comm, hc s hs hmem, eq_comm]

variable {r r' : Reader σ}

theorem bound_alike (hvp : vp.CaseInsensitive lw) (h : r.Alike r')
    (hkey : lw.lower key = lw.lower key') (dest : Option GoType) :
    r.bound vp lw key dest = r'.bound vp lw key' dest := by
  cases h with
  | map hv => cases dest <;> exact hv
  | file hv hfile hall hclaimed =>
    cases dest with
    | none => exact hv
    | some t =>
      rw [Reader.bound, Reader.bound, ← hv]
      exact bindEnvLeaves_respelled hvp _ hkey t

theorem read_alike (hvp : vp.CaseInsensitive lw) (h : r.Alike r')
    (hkey : lw.lower key = lw.lower key') (dest : Option GoType)
    (order : Order) (hh : Harmless vp lw r (.read key dest order) (.read key' dest order)) :
    (r.call vp lw (.read key dest order)).1 = (r'.call vp lw (.read key' dest order)).1 ∧
      (r.call vp lw (.read key dest order)).2.Alike
        (r'.call vp lw (.read key' dest order)).2 := by
  have hpromote := promoteResolved_respelled hh.2 order
  have hstate : (r.call vp lw (.read key dest order)).2.viper =
      (r'.call vp lw (.read key' dest order)).2.viper := by
    rw [Reader.viper_read, Reader.viper_read, ← bound_alike hvp h hkey, hpromote]
  constructor
  · rw [Reader.answer_read, Reader.answer_read, hstate, hvp.get _ key key' hkey]
  · cases h with
    | map hv => exact .map hstate
    | file hv hfile hall hclaimed =>
      exact .file hstate hfile hall (claimed_alike hclaimed hh.1)

theorem harmless_readMap {r : Reader σ} {order : Order} :
    Harmless vp lw r (.readMap key order) (.readMap key' order) ↔
      Harmless vp lw r (.read key none order) (.read key' none order) := by
  have hbound : r.bound vp lw key none = r.viper := by cases r <;> rfl
  rw [Harmless, Harmless, hbound]

theorem call_alike (hvp : vp.CaseInsensitive lw) {c c' : Call α}
    (h : r.Alike r') (hc : Respelled lw c c') (hh : Harmless vp lw r c c') :
    (r.call vp lw c).1 = (r'.call vp lw c').1 ∧
      (r.call vp lw c).2.Alike (r'.call vp lw c').2 := by
  cases hc with
  | read hkey dest order => exact read_alike hvp h hkey dest order hh
  | readMap hkey order =>
    rw [Reader.call_readMap, Reader.call_readMap]
    exact read_alike hvp h hkey none order (harmless_readMap.mp hh)
  | same c =>
    cases c with
    | read key dest order => exact read_alike hvp h rfl dest order hh
    | readMap key order =>
      rw [Reader.call_readMap, Reader.call_readMap]
      exact read_alike hvp h rfl none order (harmless_readMap.mp hh)
    | setDefault key x =>
      cases h with
      | map hv => exact ⟨rfl, .map (congrArg (vp.setDefault · key x) hv)⟩
      | file hv hfile hall hclaimed =>
        exact ⟨rfl, .file (congrArg (vp.setDefault · key x) hv) hfile hall hclaimed⟩
    | set key x =>
      cases h with
      | map hv => exact ⟨rfl, .map (congrArg (vp.set · key x) hv)⟩
      | file hv hfile hall hclaimed =>
        exact ⟨rfl, .file (congrArg (vp.set · key x) hv) hfile hall hclaimed⟩
    | readAll dest order =>
      cases h with
      | map hv => exact ⟨congrArg (Answer.value ∘ vp.allSettings) hv, .map hv⟩
      | file hv hfile hall hclaimed =>
        have hstate := congrArg (applyEnvOverrides vp lw order · [] dest) hv
        exact ⟨congrArg (Answer.value ∘ vp.allSettings) hstate,
          .file hstate hfile rfl (.inl rfl)⟩
    | unusedSections =>
      cases h with
      | map hv => exact ⟨rfl, .map hv⟩
      | file hv hfile hall hclaimed =>
        exact ⟨congrArg Answer.sections
          (unusedSections_alike (.file hv hfile hall hclaimed)),
          .file hv hfile hall hclaimed⟩

theorem harmless_self (r : Reader σ) (c : Call α) : Harmless vp lw r c c := by
  have hclaim (key : GoString) : r.SameClaim key key := by
    cases r with
    | file r => exact .inr fun _ _ _ => Iff.rfl
    | map r => trivial
  cases c with
  | read key dest order => exact ⟨hclaim key, .inl rfl⟩
  | readMap key order => exact ⟨hclaim key, .inl rfl⟩
  | setDefault key x | set key x | readAll dest order | unusedSections => trivial

/-! ## Calls that tell the spellings apart -/

section Told

variable {V : Type} {env : GoString → Option V} {U : List GoString} {r : Reader (Layers V)}
  {key key' k : GoString}

theorem lower_of_covers (hk : lw.lower k = k) (hc : Covers key k) : lw.lower key = key := by
  rcases hc with rfl | rfl | hb
  · exact (lw.lower_eq_nil []).mpr rfl
  · exact hk
  · obtain ⟨rest, rfl⟩ := hb.exists
    exact lw.lower_table key rest hk

theorem not_covers_respelled (hkey : lw.lower key' = key) (hne : key ≠ key')
    (hk : lw.lower k = k) : ¬Covers key' k := fun hc =>
  hne (hkey.symm.trans (lower_of_covers hk hc))

theorem settled_respelled {v : Layers V} (hkey : lw.lower key' = key) (hne : key ≠ key')
    (hlow : ∀ k ∈ v.allKeys, lw.lower k = k) : Settled (layered lw env) v key' :=
  fun k hk hc => absurd hc (not_covers_respelled hkey hne (hlow k hk))

theorem exists_unset (hU : LeafKeys lw U) {v : Layers V} (hv : v.Named U)
    (h : ¬Settled (layered lw env) v key) :
    ∃ k ∈ U, k ∈ v.allKeys ∧ Covers key k ∧ v.override.leaf k = none ∧
      ∃ x, v.resolve env k = some x := by
  unfold Settled at h
  push Not at h
  obtain ⟨k, hmem, hc, hset, hne⟩ := h
  have hk := hv.allKeys hmem
  have hget : (layered lw env).get v k = .ofOption (v.resolve env k) :=
    layered_get env hU hv hk
  have hsome : (v.resolve env k).isSome = true := (layered_isSet hU hv hk).symm.trans hset
  obtain ⟨x, hx⟩ := Option.isSome_iff_exists.mp hsome
  refine ⟨k, hk, hmem, hc, ?_, x, hx⟩
  cases hover : v.override.leaf k with
  | none => rfl
  | some y =>
    -- A leaf that is set has the value it is set to, and is not set anew.
    have hxy : y = x := by
      rw [Layers.resolve, hover] at hx
      exact Option.some.inj hx
    refine absurd ?_ hne
    rw [hget, hx]
    simp only [layered, hU.lower k hk]
    rw [Tree.set_ofOption, Tree.put_of_leaf (hxy ▸ hover)]

/-- A leaf of the section that is not in `U`. -/
def freshLeaf (key : GoString) (U : List GoString) : GoString :=
  key ++ dot :: List.replicate (U.flatten.length + 1) 48

theorem apart_freshLeaf (hU : LeafKeys lw U) (hk : k ∈ U) (hb : Below dot key k) {k' : GoString}
    (hk' : k' ∈ U) : Apart dot (freshLeaf key U) k' := by
  refine apart_of_length_lt (by simp [dot]) ?_ fun hu => hU.apart k' hk' k hk (hu.below hb)
  rw [List.length_replicate]
  exact Nat.lt_succ_of_le (List.sublist_flatten_of_mem hk').length_le

theorem answer_probe (env : GoString → Option V) (hU : LeafKeys lw U) (hv : r.viper.Named U)
    (hlow : lw.lower key = key) (hkey : lw.lower key' = key) (hne : key ≠ key') (hk : k ∈ U)
    (hb : Below dot key k) (x : V) :
    ∃ y, ((r.call (layered lw env) lw (.set (freshLeaf key U) (.leaf x))).2.call (layered lw env)
        lw (.readMap key' .same)).1 = .value y ∧ y.leafAt key k = r.viper.override.leaf k := by
  have hfresh : lw.lower (freshLeaf key U) = freshLeaf key U := by
    rw [freshLeaf, lw.lower_dot, hlow, lw.lower_zeros]
  have hset : (r.call (layered lw env) lw (.set (freshLeaf key U) (.leaf x))).2.viper =
      { r.viper with override := r.viper.override.put (freshLeaf key U) (some x) } := by
    have := r.call_set lw env (freshLeaf key U) (some x)
    rwa [hfresh] at this
  generalize (r.call (layered lw env) lw (.set (freshLeaf key U) (.leaf x))).2 = r' at hset
  have hsettled : Settled (layered lw env) r'.viper key' := by
    refine settled_respelled hkey hne fun k' hk' => ?_
    rw [hset, Layers.mem_allKeys] at hk'
    rcases hk' with hk' | hk'
    · rcases Tree.mem_keys_put hk' with rfl | hk'
      · exact hfresh
      · exact hU.lower k' (hv.override k' hk')
    · exact hU.lower k' (hv.allKeys (Layers.mem_allKeys.mpr (.inr hk')))
  have hstate : (r'.call (layered lw env) lw (.readMap key' .same)).2.viper = r'.viper := by
    rw [Reader.call_readMap, Reader.viper_read, Reader.bound_none]
    exact promoteResolved_of_settled hsettled .same
  refine ⟨r'.viper.find env key, ?_, ?_⟩
  · rw [Reader.call_readMap, Reader.answer_read, ← Reader.call_readMap, hstate]
    simp only [layered, hkey]
  · have hleaf (k' : GoString) (hb' : Below dot key k') :
        (r'.viper.override.search key).leafAt key k' = r'.viper.override.leaf k' :=
      Tree.leafAt_search (.inr hb')
    have hnil : (r'.viper.override.search key).isNil = false := by
      by_contra hnil
      have hz := hleaf (freshLeaf key U) (below_append key _)
      rw [Node.leafAt_of_isNil (by simpa using hnil), hset, Tree.leaf_put_self] at hz
      cases hz
    rw [Layers.find, Node.leafAt_or_of_isNil_eq_false hnil, hleaf k hb, hset]
    exact Tree.leaf_put_of_apart (apart_freshLeaf hU hk hb hk).symm

theorem told_by_leaf (hU : LeafKeys lw U) (dest : Option GoType) (order : Order)
    (hv : (r.bound (layered lw env) lw key dest).Named U) (hkey : lw.lower key = lw.lower key')
    (hne : key ≠ key') (htable : lw.lower key ∉ U)
    (h : ¬Settled (layered lw env) (r.bound (layered lw env) lw key dest) key) :
    ∃ cs, outputs (Reader.call (layered lw env) lw) r (.read key dest order :: cs) ≠
      outputs (Reader.call (layered lw env) lw) r (.read key' dest order :: cs) := by
  obtain ⟨k, hk, hmem, hc, hunset, x, hx⟩ := exists_unset hU hv h
  have hlow : lw.lower key = key := lower_of_covers (hU.lower k hk) hc
  have hkey' : lw.lower key' = key := hkey.symm.trans hlow
  have hb : Below dot key k := by
    rcases hc with rfl | rfl | hb
    · exact absurd ((eq_nil_of_respelled hkey).mp rfl).symm hne
    · exact absurd hk (hlow ▸ htable)
    · exact hb
  -- The one spelling has promoted the leaf.
  have hpromotes := promoteResolved_promotes env key hU hv order
  have hv₁ := hpromotes.named hv
  have hleaf := hpromotes.on k hk ⟨hmem, hc⟩
  rw [← Reader.viper_read] at hv₁ hleaf
  -- The other one has left everything as it was.
  have hstate : (r.call (layered lw env) lw (.read key' dest order)).2.viper =
      r.bound (layered lw env) lw key dest := by
    rw [Reader.viper_read, ← bound_alike (layered_caseInsensitive lw env) (.refl r) hkey dest]
    exact promoteResolved_of_settled
      (settled_respelled hkey' hne fun k' hk' => hU.lower k' (hv.allKeys hk')) order
  obtain ⟨y₁, hy₁, hleaf₁⟩ := answer_probe env hU hv₁ hlow hkey' hne hk hb x
  obtain ⟨y₂, hy₂, hleaf₂⟩ := answer_probe env hU (hstate ▸ hv) hlow hkey' hne hk hb x
  refine ⟨[.set (freshLeaf key U) (.leaf x), .readMap key' .same], fun heq => ?_⟩
  have hthird := (List.cons.inj (List.cons.inj (List.cons.inj heq).2).2).1
  rw [hy₁, hy₂] at hthird
  cases hthird
  rw [hleaf₁, hstate, hunset, hleaf, hx] at hleaf₂
  cases hleaf₂

end Told

theorem mem_unusedSections {r : ViperConfigReader σ} (hall : r.claimedAll = false)
    {s : GoString} : s ∈ r.unusedSections ↔ s ∈ r.fileSections ∧ s ∉ r.claimed := by
  rw [ViperConfigReader.unusedSections, hall]
  simp

theorem told_by_claim {r : Reader σ} (dest : Option GoType) (order : Order)
    (h : ¬r.SameClaim key key') :
    outputs (Reader.call vp lw) r [.read key dest order, .unusedSections] ≠
      outputs (Reader.call vp lw) r [.read key' dest order, .unusedSections] := by
  cases r with
  | map r => exact absurd trivial h
  | file r =>
    simp only [Reader.SameClaim, not_or, not_forall, Bool.not_eq_true] at h
    obtain ⟨hall, s, hs, hunclaimed, hdiff⟩ := h
    have hread (key : GoString) :
        s ∈ (r.read vp lw key dest order).2.unusedSections ↔ ¬topSection key = s := by
      have hall' : (r.read vp lw key dest order).2.claimedAll = false := hall
      rw [mem_unusedSections hall']
      show s ∈ r.fileSections ∧ s ∉ topSection key :: r.claimed ↔ _
      simp [hs, hunclaimed, eq_comm]
    intro heq
    have hsections : (r.read vp lw key dest order).2.unusedSections =
        (r.read vp lw key' dest order).2.unusedSections :=
      Answer.sections.inj (List.cons.inj (List.cons.inj heq).2).1
    refine hdiff (not_iff_not.mp ?_)
    rw [← hread key, ← hread key', hsections]

/-- The calls of a reader that keep to leaves: a section that is read is not a leaf itself. -/
structure Call.Within {V : Type} (lw : ToLower) (binds : Bool) (U : List GoString)
    (c : Call (Value V)) : Prop where
  keys : ∀ k ∈ c.keys lw binds, k ∈ U
  table : ∀ sect, c.sect? = some sect → lw.lower sect ∉ U

theorem harmless_of_outputs {V : Type} {env : GoString → Option V} {U : List GoString}
    {r : Reader (Layers V)} (hU : LeafKeys lw U) (hv : r.viper.Named U) {c c' : Call (Value V)}
    (hc : Respelled lw c c') (hw : c.Within lw r.binds U)
    (h : ∀ cs, outputs (Reader.call (layered lw env) lw) r (c :: cs) =
      outputs (Reader.call (layered lw env) lw) r (c' :: cs)) :
    Harmless (layered lw env) lw r c c' := by
  -- A `ReadMap` is a `Read` that binds nothing.
  have hread {key key' : GoString} (hkey : lw.lower key = lw.lower key') (dest : Option GoType)
      (order : Order) (hbound : (r.bound (layered lw env) lw key dest).Named U)
      (htable : lw.lower key ∉ U)
      (h : ∀ cs, outputs (Reader.call (layered lw env) lw) r (.read key dest order :: cs) =
        outputs (Reader.call (layered lw env) lw) r (.read key' dest order :: cs)) :
      Harmless (layered lw env) lw r (.read key dest order) (.read key' dest order) := by
    constructor
    · by_contra hclaim
      exact told_by_claim dest order hclaim (h _)
    · by_contra hnot
      rw [not_or, not_and_or] at hnot
      obtain ⟨hne, hs | hs⟩ := hnot
      · obtain ⟨cs, hcs⟩ := told_by_leaf hU dest order hbound hkey hne htable hs
        exact hcs (h cs)
      · have heq := bound_alike (layered_caseInsensitive lw env) (.refl r) hkey dest
        rw [heq] at hbound hs
        obtain ⟨cs, hcs⟩ := told_by_leaf hU dest order hbound hkey.symm (Ne.symm hne)
          (hkey ▸ htable) hs
        exact hcs (h cs).symm
  cases hc with
  | same c => exact harmless_self r c
  | read hkey dest order =>
    refine hread hkey dest order ?_ (hw.table _ rfl) h
    rw [r.bound_layered lw env _ dest order]
    exact hv.bind hw.keys
  | readMap hkey order =>
    refine harmless_readMap.mpr (hread hkey none order ?_ (hw.table _ rfl) fun cs => ?_)
    · rwa [Reader.bound_none]
    · have hcs := h cs
      rwa [outputs, outputs, Reader.call_readMap, Reader.call_readMap] at hcs

/-- Runs that differ in the letter case of sections give the same answers if every respelled call
is harmless; one that is not is told apart by calls after it. -/
theorem respelled_outputs (lw : ToLower) :
    (∀ (σ α : Type) (vp : Viper σ α), vp.CaseInsensitive lw → ∀ (r : Reader σ)
      (cs cs' : List (Call α)),
      Paired (Reader.call vp lw) (fun r c c' => Respelled lw c c' ∧ Harmless vp lw r c c')
        r cs cs' →
      outputs (Reader.call vp lw) r cs = outputs (Reader.call vp lw) r cs') ∧
    ∀ (V : Type) (env : GoString → Option V) (r : Reader (Layers V)) (U : List GoString),
      LeafKeys lw U → r.viper.Named U → ∀ c c' : Call (Value V), Respelled lw c c' →
      c.Within lw r.binds U →
      ((∀ cs, outputs (Reader.call (layered lw env) lw) r (c :: cs) =
          outputs (Reader.call (layered lw env) lw) r (c' :: cs)) ↔
        Harmless (layered lw env) lw r c c') := by
  have hruns (σ α : Type) (vp : Viper σ α) (hvp : vp.CaseInsensitive lw) (r : Reader σ)
      (cs cs' : List (Call α)) (h : Paired (Reader.call vp lw)
        (fun r c c' => Respelled lw c c' ∧ Harmless vp lw r c c') r cs cs') :
      outputs (Reader.call vp lw) r cs = outputs (Reader.call vp lw) r cs' :=
    (outputs_sim (fun _ _ _ _ hr hc => call_alike hvp hr hc.1 hc.2) (.refl r) h).1
  refine ⟨hruns, fun V env r U hU hv c c' hc hw => ⟨harmless_of_outputs hU hv hc hw, ?_⟩⟩
  intro hh cs
  refine hruns _ _ _ (layered_caseInsensitive lw env) r _ _ (.cons ⟨hc, hh⟩ ?_)
  exact paired_self (fun r c => ⟨.same c, harmless_self r c⟩) _ cs

/-! A file with the URL of the database `analytics`, and a variable that overrides it. -/

/-- A key of a section of the file. -/
def urlKey : GoString := bytes "database.analytics.url"

/-- The file. -/
def urlConfig : Layer Nat := ⟨[(urlKey, some 1)], List.pairwise_singleton _ _⟩

/-- The environment. -/
def urlEnv (k : GoString) : Option Nat := if k = urlKey then some 2 else none

/-- The reader of both. -/
def urlReader : Reader (Layers Nat) :=
  .file { v := { config := urlConfig }, fileSections := [bytes "database"] }

/-- The field the key is read into. -/
def urlField : StructField := { name := bytes "URL", tag := bytes "url" }

/-- `Read` of the section. -/
def readUrl (key : String) : Call (Value Nat) :=
  .read (bytes key) (some (.pointer (.struct (.cons urlField .other .nil)))) .same

/-- `ReadMap` of the section. -/
def readUrlMap (key : String) : Call (Value Nat) := .readMap (bytes key) .same

/-- The reader after a read. -/
def urlRead : Reader (Layers Nat) :=
  .file {
    v := {
      override := ⟨[(urlKey, some 2)], List.pairwise_singleton _ _⟩
      bound := [urlKey]
      config := urlConfig }
    fileSections := [bytes "database"]
    claimed := [bytes "database"] }

theorem urlReader_call :
    (urlReader.call (layered asciiLower urlEnv) asciiLower (readUrl "database.analytics")).2 =
      urlRead := rfl

theorem urlRead_harmless :
    Harmless (layered asciiLower urlEnv) asciiLower urlRead (readUrlMap "database.analytics")
      (readUrlMap "database.Analytics") := by
  have htop :
      topSection (bytes "database.analytics") = topSection (bytes "database.Analytics") := by
    decide
  have hkeys : ∀ k ∈ (layered asciiLower urlEnv).allKeys urlRead.viper, k = urlKey := by decide
  refine ⟨.inr fun s _ _ => by rw [htop], .inr ⟨fun k hk _ _ => ?_, fun k hk hc => ?_⟩⟩
  · rw [hkeys k hk]
    rfl
  · rw [hkeys k hk] at hc
    exact absurd hc (by decide)

theorem urlReader_not_harmless :
    ¬Harmless (layered asciiLower urlEnv) asciiLower urlReader (readUrlMap "database.analytics")
      (readUrlMap "database.Analytics") := by
  rintro ⟨-, heq | ⟨hset, -⟩⟩
  · exact absurd heq (by decide)
  · have hsame := hset urlKey (by decide) (by decide) (by decide)
    have hlen := congrArg (fun v => v.override.entries.length) hsame
    exact absurd hlen (by decide)

/-- Once the section has been read another spelling does no harm; in place of the first it does. -/
theorem respelled_outputs_settled :
    outputs (Reader.call (layered asciiLower urlEnv) asciiLower) urlReader
        [readUrl "database.analytics", readUrlMap "database.analytics", .unusedSections] =
      outputs (Reader.call (layered asciiLower urlEnv) asciiLower) urlReader
        [readUrl "database.analytics", readUrlMap "database.Analytics", .unusedSections] ∧
    ¬∀ cs, outputs (Reader.call (layered asciiLower urlEnv) asciiLower) urlReader
        (readUrlMap "database.analytics" :: cs) =
      outputs (Reader.call (layered asciiLower urlEnv) asciiLower) urlReader
        (readUrlMap "database.Analytics" :: cs) := by
  have hsame (r : Reader (Layers Nat)) (c : Call (Value Nat)) :
      Respelled asciiLower c c ∧ Harmless (layered asciiLower urlEnv) asciiLower r c c :=
    ⟨.same c, harmless_self r c⟩
  have hspell : Respelled asciiLower (readUrlMap "database.analytics")
      (readUrlMap "database.Analytics") := .readMap (by decide) _
  constructor
  · refine (respelled_outputs asciiLower).1 _ _ _ (layered_caseInsensitive asciiLower urlEnv)
      urlReader _ _ (.cons (hsame _ _) ?_)
    rw [urlReader_call]
    exact .cons ⟨hspell, urlRead_harmless⟩ (.cons (hsame _ _) trivial)
  · intro h
    have hnamed : urlReader.viper.Named [urlKey] := ⟨by decide, by decide, by decide, by decide⟩
    have hwithin :
        (readUrlMap "database.analytics").Within asciiLower urlReader.binds [urlKey] := by
      constructor
      · intro k hk
        cases hk
      · intro sect hs
        cases hs
        decide
    exact urlReader_not_harmless (((respelled_outputs asciiLower).2 Nat urlEnv urlReader [urlKey]
      ⟨by decide, by decide⟩ hnamed _ _ hspell hwithin).mp h)

/-- With a capital letter the variable is not looked at, and a section that was read is reported. -/
theorem analytics_respelled :
    Respelled asciiLower (readUrl "database.analytics") (readUrl "database.Analytics") ∧
    Respelled asciiLower (readUrl "database.analytics") (readUrl "Database.analytics") ∧
    (∃ x, (urlReader.call (layered asciiLower urlEnv) asciiLower
        (readUrl "database.analytics")).1 = .value x ∧
      x.leafAt (bytes "database.analytics") urlKey = some 2) ∧
    (∃ x, (urlReader.call (layered asciiLower urlEnv) asciiLower
        (readUrl "database.Analytics")).1 = .value x ∧
      x.leafAt (bytes "database.analytics") urlKey = some 1) ∧
    (outputs (Reader.call (layered asciiLower urlEnv) asciiLower) urlReader
      [readUrl "database.analytics", .unusedSections])[1]? = some (.sections []) ∧
    (outputs (Reader.call (layered asciiLower urlEnv) asciiLower) urlReader
      [readUrl "Database.analytics", .unusedSections])[1]? =
        some (.sections [bytes "database"]) :=
  ⟨.read (by decide) _ _, .read (by decide) _ _, ⟨_, rfl, by decide⟩, ⟨_, rfl, by decide⟩,
    rfl, rfl⟩

end Microjet.Configx
