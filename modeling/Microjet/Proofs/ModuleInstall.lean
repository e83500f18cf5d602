import Mathlib.Logic.Relation
import Microjet.Host.Module
import Microjet.Lib.Log

/-!
# The installation of modules

A call of `WithModule` is a path of small steps. Each `Register` that begins takes a key from
those that are left (`left`), so as much fuel as there are keys is enough, cycles or not, and
more makes no difference (`withModules_mono`). The text of a struct type has only the last
element of its package path, so two modules may have the same key.
-/

namespace Microjet.Host

open Errorx Relation

variable {M : Type}

namespace Modules

def askedWith (sys : Modules M) (k : GoString) : ModuleNote M → Option M
  | .asked m => if sys.key m = k then some m else none
  | _ => none

def startedWith (sys : Modules M) (k : GoString) : ModuleNote M → Option M
  | .started m => if sys.key m = k then some m else none
  | _ => none

/-- The first module asked for with the key. -/
def firstAsked (sys : Modules M) (k : GoString) (log : List (ModuleNote M)) : Option M :=
  (log.filterMap (sys.askedWith k)).getLast?

def startedKey (sys : Modules M) : ModuleNote M → Option GoString
  | .started m => if sys.key m = [] then none else some (sys.key m)
  | _ => none

/-- The error a note reports. -/
def failureOf (sys : Modules M) : ModuleNote M → Option Err
  | .returned m (some err) => some (sys.failure m err)
  | .failed err => some err
  | _ => none

def called (sys : Modules M) (b : Build M) (m : M) : Build M :=
  (sys.store (b.note (.asked m)) m).note (.started m)

theorem called_modules (sys : Modules M) (b : Build M) (m : M) :
    (sys.called b m).modules = if sys.key m = [] then b.modules else sys.key m :: b.modules := rfl

theorem called_log (sys : Modules M) (b : Build M) (m : M) :
    (sys.called b m).log = .started m :: .asked m :: b.log := rfl

/-- The module is ignored. -/
def Skips (sys : Modules M) (b : Build M) (m : M) : Prop :=
  b.err.isSome = true ∨ sys.key m ∈ b.modules

/-- A step of an installation. -/
inductive Step (sys : Modules M) (b : Build M) : Build M → Prop
  | ignored (m : M) (h : sys.Skips b m) : Step sys b (b.note (.asked m))
  | begin (m : M) (herr : b.err = none) (hnew : sys.key m ∉ b.modules) :
      Step sys b (sys.called b m)
  | finish (m : M) (err : Option Err) : Step sys b (sys.finish m b err)
  | fail (err : Err) : Step sys b ((b.note (.failed err)).fail err)

abbrev Path (sys : Modules M) : Build M → Build M → Prop := ReflTransGen (Step sys)

section

variable {sys : Modules M} {b b' : Build M}

variable {m : M}

theorem withModule_of_skips (fuel : Nat) (h : sys.Skips b m) :
    sys.withModule (fuel + 1) b (some m) = some (b.note (.asked m)) := by
  simp only [withModule]
  exact if_pos ((Bool.or_eq_true _ _).mpr (h.imp_right decide_eq_true))

theorem withModule_of_not_skips (fuel : Nat) (h : ¬sys.Skips b m) :
    sys.withModule (fuel + 1) b (some m) =
      (exec (sys.withModule fuel) (sys.register m (sys.called b m)) (sys.called b m)).map
        fun r => sys.finish m r.1 r.2 := by
  simp only [withModule]
  refine if_neg fun hor => h ?_
  exact ((Bool.or_eq_true _ _).mp hor).imp_right of_decide_eq_true

theorem Step.of_not_skips (h : ¬sys.Skips b m) : sys.Step b (sys.called b m) :=
  .begin m (Option.not_isSome_iff_eq_none.mp fun herr => h (.inl herr)) fun hmem => h (.inr hmem)

variable {fuel : Nat}

theorem withModule_cases (h : sys.withModule (fuel + 1) b (some m) = some b') :
    (sys.Skips b m ∧ b' = b.note (.asked m)) ∨
    (¬sys.Skips b m ∧ ∃ c r, b' = sys.finish m c r ∧
      exec (sys.withModule fuel) (sys.register m (sys.called b m)) (sys.called b m) =
        some (c, r)) := by
  by_cases hskips : sys.Skips b m
  · rw [withModule_of_skips fuel hskips] at h
    exact .inl ⟨hskips, (Option.some.inj h).symm⟩
  · rw [withModule_of_not_skips fuel hskips] at h
    obtain ⟨⟨c, r⟩, hexec, hfinish⟩ := Option.map_eq_some_iff.mp h
    exact .inr ⟨hskips, c, r, hfinish.symm, hexec⟩

variable {wm : Build M → Option M → Option (Build M)} {p : Register M} {r : Option Err}

theorem exec_path (hwm : ∀ b m b', wm b m = some b' → sys.Path b b')
    (h : exec wm p b = some (b', r)) : sys.Path b b' := by
  induction p generalizing b with
  | ret err =>
    cases h
    exact .refl
  | withModule m next ih =>
    obtain ⟨c, hc, hrest⟩ := Option.bind_eq_some_iff.mp h
    exact (hwm b m c hc).trans (ih c hrest)
  | fail err next ih => exact (ReflTransGen.single (.fail err)).trans (ih _ h)

theorem withModule_path {m : Option M} (h : sys.withModule fuel b m = some b') :
    sys.Path b b' := by
  induction fuel generalizing b m b' with
  | zero => cases h
  | succ fuel ih =>
    cases m with
    | none =>
      cases h
      exact .refl
    | some m =>
      obtain ⟨hskips, rfl⟩ | ⟨hskips, c, r, rfl, hexec⟩ := withModule_cases h
      · exact .single (.ignored m hskips)
      · have hbody : sys.Path (sys.called b m) c := exec_path (fun _ _ _ => ih) hexec
        exact (ReflTransGen.head (.of_not_skips hskips) hbody).tail (.finish m r)

variable {ms : List (Option M)}

theorem withModules_path (h : sys.withModules fuel b ms = some b') : sys.Path b b' := by
  induction ms generalizing b with
  | nil =>
    cases h
    exact .refl
  | cons m ms ih =>
    obtain ⟨c, hc, hrest⟩ := Option.bind_eq_some_iff.mp h
    exact (withModule_path hc).trans (ih hrest)

/-- How many keys are left. -/
def left (keys : List GoString) (b : Build M) : Nat :=
  (keys.filter fun k => !b.modules.contains k).length

theorem not_contains {l : List GoString} {k : GoString} : (!l.contains k) = true ↔ k ∉ l := by
  rw [Bool.not_eq_true', ← Bool.not_eq_true, List.contains_iff_mem]

theorem left_empty_lt (keys : List GoString) : left keys ({} : Build M) < keys.length + 1 :=
  Nat.lt_succ_of_le (List.length_filter_le _ _)

theorem mem_called (hm : sys.key m ≠ []) : sys.key m ∈ (sys.called b m).modules := by
  rw [called_modules, if_neg hm]
  exact List.mem_cons_self

theorem Step.modules_subset (h : sys.Step b b') : b.modules ⊆ b'.modules := by
  cases h with
  | begin m herr hnew =>
    rw [called_modules]
    split
    · exact fun _ => id
    · exact List.subset_cons_self _ _
  | finish m err => cases err <;> exact fun _ => id
  | _ => exact fun _ => id

theorem left_sublist (keys : List GoString) (h : b.modules ⊆ b'.modules) :
    (keys.filter fun k => !b'.modules.contains k).Sublist
      (keys.filter fun k => !b.modules.contains k) := by
  refine List.monotone_filter_right keys fun k hk => ?_
  rw [not_contains] at hk ⊢
  exact fun hmem => hk (h hmem)

variable {keys : List GoString}

theorem Path.left_le (h : sys.Path b b') : left keys b' ≤ left keys b := by
  induction h with
  | refl => exact Nat.le_refl _
  | tail _ hstep ih => exact (left_sublist keys hstep.modules_subset).length_le.trans ih

theorem Step.left_lt (hmem : sys.key m ∈ keys) (hnew : sys.key m ∉ b.modules)
    (h : sys.Step b b') (htaken : sys.key m ∈ b'.modules) : left keys b' < left keys b := by
  have hsub := left_sublist keys h.modules_subset
  refine Nat.lt_of_le_of_ne hsub.length_le fun heq => ?_
  have hold : sys.key m ∈ keys.filter fun k => !b.modules.contains k :=
    List.mem_filter.mpr ⟨hmem, not_contains.mpr hnew⟩
  rw [← hsub.eq_of_length heq] at hold
  exact not_contains.mp (List.mem_filter.mp hold).2 htaken

theorem exec_isSome {n : Nat} (hpath : ∀ b m b', wm b m = some b' → sys.Path b b')
    (hwm : ∀ b m, left keys b < n → ∃ b', wm b m = some b') (p : Register M) (b : Build M)
    (hb : left keys b < n) : ∃ r, exec wm p b = some r := by
  induction p generalizing b with
  | ret err => exact ⟨_, rfl⟩
  | withModule m next ih =>
    obtain ⟨c, hc⟩ := hwm b m hb
    obtain ⟨r, hr⟩ := ih c c (Nat.lt_of_le_of_lt (hpath b m c hc).left_le hb)
    exact ⟨r, Option.bind_eq_some_iff.mpr ⟨c, hc, hr⟩⟩
  | fail err next ih => exact ih _ _ hb

theorem withModule_returns (hkeys : ∀ m, sys.key m ≠ [] ∧ sys.key m ∈ keys) (fuel : Nat)
    (b : Build M) (m : Option M) (hfuel : left keys b < fuel) :
    ∃ b', sys.withModule fuel b m = some b' := by
  induction fuel generalizing b m with
  | zero => cases hfuel
  | succ fuel ih =>
    cases m with
    | none => exact ⟨b, rfl⟩
    | some m =>
      by_cases hskips : sys.Skips b m
      · exact ⟨_, withModule_of_skips fuel hskips⟩
      · have hnew : sys.key m ∉ b.modules := fun hmem => hskips (.inr hmem)
        have hlt : left keys (sys.called b m) < left keys b :=
          (Step.of_not_skips hskips).left_lt (hkeys m).2 hnew (mem_called (hkeys m).1)
        obtain ⟨r, hr⟩ := exec_isSome (fun _ _ _ => withModule_path) (fun b m hb => ih b m hb)
          (sys.register m (sys.called b m)) (sys.called b m) (by omega)
        rw [withModule_of_not_skips fuel hskips, hr]
        exact ⟨_, rfl⟩

theorem withModules_returns (hkeys : ∀ m, sys.key m ≠ [] ∧ sys.key m ∈ keys) (fuel : Nat)
    (b : Build M) (ms : List (Option M)) (hfuel : left keys b < fuel) :
    ∃ b', sys.withModules fuel b ms = some b' := by
  induction ms generalizing b with
  | nil => exact ⟨b, rfl⟩
  | cons m ms ih =>
    obtain ⟨c, hc⟩ := withModule_returns hkeys fuel b m hfuel
    obtain ⟨d, hd⟩ := ih c (Nat.lt_of_le_of_lt (withModule_path hc).left_le hfuel)
    exact ⟨d, Option.bind_eq_some_iff.mpr ⟨c, hc, hd⟩⟩

theorem exec_mono {wm wm' : Build M → Option M → Option (Build M)}
    (hwm : ∀ b m b', wm b m = some b' → wm' b m = some b') {r : Build M × Option Err}
    (h : exec wm p b = some r) : exec wm' p b = some r := by
  induction p generalizing b with
  | ret err => exact h
  | withModule m next ih =>
    obtain ⟨c, hc, hrest⟩ := Option.bind_eq_some_iff.mp h
    exact Option.bind_eq_some_iff.mpr ⟨c, hwm b m c hc, ih c hrest⟩
  | fail err next ih => exact ih _ h

theorem withModule_mono {fuel fuel' : Nat} {m : Option M} (hle : fuel ≤ fuel')
    (h : sys.withModule fuel b m = some b') : sys.withModule fuel' b m = some b' := by
  induction fuel generalizing b m b' fuel' with
  | zero => cases h
  | succ fuel ih =>
    obtain ⟨fuel', rfl⟩ : ∃ n, fuel' = n + 1 := ⟨fuel' - 1, by omega⟩
    cases m with
    | none => exact h
    | some m =>
      obtain ⟨hskips, rfl⟩ | ⟨hskips, c, r, rfl, hexec⟩ := withModule_cases h
      · exact withModule_of_skips fuel' hskips
      · rw [withModule_of_not_skips fuel' hskips,
          exec_mono (fun _ _ _ => ih (Nat.le_of_succ_le_succ hle)) hexec]
        rfl

theorem withModules_mono {fuel fuel' : Nat} (hle : fuel ≤ fuel')
    (h : sys.withModules fuel b ms = some b') : sys.withModules fuel' b ms = some b' := by
  induction ms generalizing b with
  | nil => exact h
  | cons m ms ih =>
    obtain ⟨c, hc, hrest⟩ := Option.bind_eq_some_iff.mp h
    exact Option.bind_eq_some_iff.mpr ⟨c, withModule_mono hle hc, ih hrest⟩

/-! ### What a path keeps -/

/-- Nothing begins after a failure. -/
def HaltsOnFailure (sys : Modules M) (n : ModuleNote M) (older : List (ModuleNote M)) : Prop :=
  ∀ m, n = .started m → older.filterMap sys.failureOf = []

/-- The first module asked for under the key is the one installed. -/
def FirstInstalled (sys : Modules M) (k : GoString) (log : List (ModuleNote M)) : Prop :=
  log.filterMap (sys.startedWith k) = (sys.firstAsked k log).toList

/-- A module that was asked for before any failure is installed, or another one with its key. -/
def Heard (sys : Modules M) (modules : List GoString) (n : ModuleNote M)
    (older : List (ModuleNote M)) : Prop :=
  ∀ m, n = .asked m → sys.key m ≠ [] → older.filterMap sys.failureOf = [] → sys.key m ∈ modules

/-- The invariant. -/
structure Installed (sys : Modules M) (b : Build M) : Prop where
  modules : b.modules = b.log.filterMap sys.startedKey
  nodup : b.modules.Nodup
  err : b.err = (b.log.filterMap sys.failureOf).getLast?
  halts : Log.Each sys.HaltsOnFailure b.log
  heard : Log.Each (sys.Heard b.modules) b.log
  first : b.err = none → ∀ k, k ≠ [] → sys.FirstInstalled k b.log

theorem mem_startedWith {log : List (ModuleNote M)} :
    m ∈ log.filterMap (sys.startedWith (sys.key m)) ↔ .started m ∈ log := by
  rw [List.mem_filterMap]
  constructor
  · rintro ⟨n, hn, hm⟩
    cases n with
    | started m' =>
      obtain ⟨-, hm⟩ := Option.ite_none_right_eq_some.mp hm
      cases hm
      exact hn
    | _ => cases hm
  · exact fun h => ⟨_, h, if_pos rfl⟩

theorem Installed.mem_modules (hb : sys.Installed b) {k : GoString} (hk : k ≠ []) :
    k ∈ b.modules ↔ b.log.filterMap (sys.startedWith k) ≠ [] := by
  rw [hb.modules, List.mem_filterMap]
  constructor
  · rintro ⟨n, hn, hkey⟩
    cases n with
    | started m =>
      obtain ⟨-, hkey⟩ := Option.ite_none_left_eq_some.mp hkey
      cases hkey
      exact List.ne_nil_of_mem (mem_startedWith.mpr hn)
    | _ => cases hkey
  · intro hne
    obtain ⟨m, hm⟩ := List.exists_mem_of_ne_nil _ hne
    obtain ⟨n, hn, hkey⟩ := List.mem_filterMap.mp hm
    cases n with
    | started m' =>
      obtain ⟨hmk, -⟩ := Option.ite_none_right_eq_some.mp hkey
      subst hmk
      exact ⟨_, hn, if_neg hk⟩
    | _ => cases hkey

theorem Installed.no_failure (hb : sys.Installed b) (h : b.err = none) :
    b.log.filterMap sys.failureOf = [] := by
  rw [hb.err] at h
  exact List.getLast?_eq_none_iff.mp h

theorem Installed.quiet {n : ModuleNote M} (hb : sys.Installed b) (hs : sys.startedKey n = none)
    (hf : sys.failureOf n = none) (hn : ∀ m, n ≠ .started m) (hheard : sys.Heard b.modules n b.log)
    (hfirst : b.err = none → ∀ k, k ≠ [] → sys.FirstInstalled k (n :: b.log)) :
    sys.Installed (b.note n) where
  modules := hb.modules.trans (List.filterMap_cons_none hs).symm
  nodup := hb.nodup
  err := by
    show b.err = ((n :: b.log).filterMap sys.failureOf).getLast?
    rw [List.filterMap_cons_none hf]
    exact hb.err
  halts := ⟨fun m hm => absurd hm (hn m), hb.halts⟩
  heard := ⟨hheard, hb.heard⟩
  first := hfirst

variable {err : Err}

theorem Installed.fail {n : ModuleNote M} (hb : sys.Installed b) (hs : sys.startedKey n = none)
    (hf : sys.failureOf n = some err) (hn : ∀ m, n ≠ .started m) (hasked : ∀ m, n ≠ .asked m) :
    sys.Installed ((b.note n).fail err) where
  modules := hb.modules.trans (List.filterMap_cons_none hs).symm
  nodup := hb.nodup
  err := by
    show b.err.or (some err) = ((n :: b.log).filterMap sys.failureOf).getLast?
    rw [List.filterMap_cons_some hf, hb.err, List.getLast?_cons]
    cases (b.log.filterMap sys.failureOf).getLast? <;> rfl
  halts := ⟨fun m hm => absurd hm (hn m), hb.halts⟩
  heard := ⟨fun m hm => absurd hm (hasked m), hb.heard⟩
  first := fun herr => by
    have herr : b.err.or (some err) = none := herr
    cases h : b.err <;> rw [h] at herr <;> cases herr

section

variable {k : GoString} {log : List (ModuleNote M)} {m : M}

theorem FirstInstalled.cons {n : ModuleNote M} (h : sys.FirstInstalled k log)
    (hs : sys.startedWith k n = none) (ha : sys.askedWith k n = none) :
    sys.FirstInstalled k (n :: log) := by
  rw [FirstInstalled, firstAsked, List.filterMap_cons_none hs, List.filterMap_cons_none ha]
  exact h

theorem FirstInstalled.again (h : sys.FirstInstalled (sys.key m) log)
    (hne : log.filterMap (sys.startedWith (sys.key m)) ≠ []) :
    sys.FirstInstalled (sys.key m) (.asked m :: log) := by
  have hown : sys.askedWith (sys.key m) (.asked m) = some m := if_pos rfl
  rw [FirstInstalled, firstAsked] at h ⊢
  rw [List.filterMap_cons_none rfl, List.filterMap_cons_some hown, List.getLast?_cons]
  cases hlast : (log.filterMap (sys.askedWith (sys.key m))).getLast? with
  | none =>
    rw [hlast] at h
    exact absurd h hne
  | some m' =>
    rw [hlast] at h
    exact h

theorem FirstInstalled.install (h : sys.FirstInstalled (sys.key m) log)
    (hnil : log.filterMap (sys.startedWith (sys.key m)) = []) :
    sys.FirstInstalled (sys.key m) (.started m :: .asked m :: log) := by
  have hs : sys.startedWith (sys.key m) (.started m) = some m := if_pos rfl
  have ha : sys.askedWith (sys.key m) (.asked m) = some m := if_pos rfl
  rw [FirstInstalled, firstAsked] at h ⊢
  rw [hnil] at h
  have hold : log.filterMap (sys.askedWith (sys.key m)) = [] :=
    List.getLast?_eq_none_iff.mp (Option.toList_eq_nil_iff.mp h.symm)
  rw [List.filterMap_cons_some hs, List.filterMap_cons_none rfl, hnil,
    List.filterMap_cons_none rfl, List.filterMap_cons_some ha, hold]
  rfl

end

theorem Installed.ignored (hb : sys.Installed b)
    (h : b.err = none → sys.key m ∈ b.modules) : sys.Installed (b.note (.asked m)) := by
  refine hb.quiet rfl rfl nofun ?_ fun herr k hk => ?_
  · intro m' hm' _ hnone
    cases hm'
    rw [hb.err, hnone] at h
    exact h rfl
  · by_cases hmk : sys.key m = k
    · subst hmk
      exact (hb.first herr _ hk).again ((hb.mem_modules hk).mp (h herr))
    · exact (hb.first herr k hk).cons rfl (if_neg hmk)

theorem Installed.called (hb : sys.Installed b) (herr : b.err = none)
    (hnew : sys.key m ∉ b.modules) : sys.Installed (sys.called b m) := by
  refine ⟨?_, ?_, hb.err, ⟨fun _ _ => hb.no_failure herr, nofun, hb.halts⟩, ?_, fun _ k hk => ?_⟩
  · rw [called_modules, called_log]
    by_cases hm : sys.key m = []
    · have hnone : sys.startedKey (.started m) = none := if_pos hm
      rw [if_pos hm, List.filterMap_cons_none hnone]
      exact hb.modules
    · have hsome : sys.startedKey (.started m) = some (sys.key m) := if_neg hm
      rw [if_neg hm, List.filterMap_cons_some hsome, hb.modules]
      rfl
  · rw [called_modules]
    split
    · exact hb.nodup
    · exact hb.nodup.cons hnew
  · have hgrow := (Step.begin m herr hnew).modules_subset
    refine ⟨nofun, ?_, hb.heard.imp fun n older hn m' hm' hk ho => hgrow (hn m' hm' hk ho)⟩
    intro m' hm' hk _
    cases hm'
    exact mem_called hk
  · rw [called_log]
    by_cases hmk : sys.key m = k
    · subst hmk
      refine (hb.first herr _ hk).install ?_
      by_contra hne
      exact hnew ((hb.mem_modules hk).mpr hne)
    · exact ((hb.first herr k hk).cons (n := .asked m) rfl (if_neg hmk)).cons (if_neg hmk) rfl

theorem Installed.step (hb : sys.Installed b) (h : sys.Step b b') : sys.Installed b' := by
  cases h with
  | ignored m h =>
    refine hb.ignored fun herr => h.resolve_left ?_
    rw [herr]
    exact Bool.false_ne_true
  | begin m herr hnew => exact hb.called herr hnew
  | finish m err =>
    cases err with
    | none => exact hb.quiet rfl rfl nofun nofun fun herr k hk => hb.first herr k hk
    | some err => exact hb.fail rfl rfl nofun nofun
  | fail err => exact hb.fail rfl rfl nofun nofun

theorem installed_empty : sys.Installed {} :=
  ⟨rfl, List.nodup_nil, rfl, trivial, trivial, fun _ _ _ => rfl⟩

theorem Installed.path (hb : sys.Installed b) (h : sys.Path b b') : sys.Installed b' := by
  induction h with
  | refl => exact hb
  | tail _ hstep ih => exact ih.step hstep

/-! ### What is asked for -/

/-- Whatever happens, this code calls `WithModule` with the module before it returns. -/
def Asks (m : M) : Register M → Prop
  | .ret _ => False
  | .withModule m' next => m' = some m ∨ ∀ b, Asks m (next b)
  | .fail _ next => ∀ b, Asks m (next b)

/-- Registering the one asks for the other. -/
def Imports (sys : Modules M) (m m' : M) : Prop :=
  ∀ b, Asks m' (sys.register m b)

theorem Step.log_subset (h : sys.Step b b') : b.log ⊆ b'.log := by
  cases h with
  | begin m herr hnew => exact fun _ hn => .tail _ (.tail _ hn)
  | finish m err => cases err <;> exact List.subset_cons_self _ _
  | _ => exact List.subset_cons_self _ _

theorem Path.log_subset (h : sys.Path b b') : b.log ⊆ b'.log := by
  induction h with
  | refl => exact fun _ => id
  | tail _ hstep ih => exact List.Subset.trans ih hstep.log_subset

theorem withModule_asked (h : sys.withModule fuel b (some m) = some b') :
    .asked m ∈ b'.log := by
  cases fuel with
  | zero => cases h
  | succ fuel =>
    obtain ⟨-, rfl⟩ | ⟨-, c, r, rfl, hexec⟩ := withModule_cases h
    · exact List.mem_cons_self
    · have hlater : sys.Path (sys.called b m) (sys.finish m c r) :=
        (exec_path (fun _ _ _ => withModule_path) hexec).tail (.finish m r)
      exact hlater.log_subset (.tail _ (.head _))

theorem exec_asked (hp : Asks m p) (h : exec (sys.withModule fuel) p b = some (b', r)) :
    .asked m ∈ b'.log := by
  induction p generalizing b with
  | ret err => cases hp
  | withModule m' next ih =>
    obtain ⟨c, hc, hrest⟩ := Option.bind_eq_some_iff.mp h
    rcases hp with rfl | hp
    · exact (exec_path (fun _ _ _ => withModule_path) hrest).log_subset (withModule_asked hc)
    · exact ih c (hp c) hrest
  | fail err next ih => exact ih _ (hp _) h

/-- What a module imports is asked for by the time its `Register` has returned. -/
def Served (sys : Modules M) (b b' : Build M) : Prop :=
  ∀ m, .started m ∈ b'.log → .started m ∈ b.log ∨ ∀ m', sys.Imports m m' → .asked m' ∈ b'.log

theorem Served.refl : sys.Served b b := fun _ h => .inl h

theorem Served.trans {c : Build M} (h : sys.Served b c) (h' : sys.Served c b')
    (hpath : sys.Path c b') : sys.Served b b' := by
  intro m hm
  rcases h' m hm with hc | hall
  · exact (h m hc).imp_right fun hall m' hi => hpath.log_subset (hall m' hi)
  · exact .inr hall

theorem exec_served (hpath : ∀ b m b', wm b m = some b' → sys.Path b b')
    (hwm : ∀ b m b', wm b m = some b' → sys.Served b b') (h : exec wm p b = some (b', r)) :
    sys.Served b b' := by
  induction p generalizing b with
  | ret err =>
    cases h
    exact .refl
  | withModule m next ih =>
    obtain ⟨c, hc, hrest⟩ := Option.bind_eq_some_iff.mp h
    exact (hwm b m c hc).trans (ih c hrest) (exec_path hpath hrest)
  | fail err next ih =>
    intro m hm
    refine (ih _ h m hm).imp_left fun hm => ?_
    cases hm with
    | tail _ hm => exact hm

theorem withModule_served {m : Option M} (h : sys.withModule fuel b m = some b') :
    sys.Served b b' := by
  induction fuel generalizing b m b' with
  | zero => cases h
  | succ fuel ih =>
    cases m with
    | none =>
      cases h
      exact .refl
    | some m =>
      obtain ⟨-, rfl⟩ | ⟨-, c, r, rfl, hexec⟩ := withModule_cases h
      · exact fun m' hm' => .inl ((List.mem_cons.mp hm').resolve_left nofun)
      · have hsub : c.log ⊆ (sys.finish m c r).log := (Step.finish m r).log_subset
        intro m' hm'
        have hold : .started m' ∈ c.log := by
          cases r <;> exact (List.mem_cons.mp hm').resolve_left nofun
        rcases exec_served (fun _ _ _ => withModule_path) (fun _ _ _ => ih) hexec m' hold
          with hbefore | hall
        · rcases List.mem_cons.mp hbefore with heq | hbefore
          · -- the one whose `Register` has just returned
            cases heq
            exact .inr fun m'' hi => hsub (exec_asked (hi _) hexec)
          · exact .inl ((List.mem_cons.mp hbefore).resolve_left nofun)
        · exact .inr fun m'' hi => hsub (hall m'' hi)

theorem withModules_served (h : sys.withModules fuel b ms = some b') : sys.Served b b' := by
  induction ms generalizing b with
  | nil =>
    cases h
    exact .refl
  | cons m ms ih =>
    obtain ⟨c, hc, hrest⟩ := Option.bind_eq_some_iff.mp h
    exact (withModule_served hc).trans (ih hrest) (withModules_path hrest)

theorem withModules_asked (h : sys.withModules fuel b ms = some b') (hm : some m ∈ ms) :
    .asked m ∈ b'.log := by
  induction ms generalizing b with
  | nil => cases hm
  | cons m' ms ih =>
    obtain ⟨c, hc, hrest⟩ := Option.bind_eq_some_iff.mp h
    rcases List.mem_cons.mp hm with rfl | hm
    · exact (withModules_path hrest).log_subset (withModule_asked hc)
    · exact ih hrest hm

/-- What an installation comes to. -/
structure InstallSpec (sys : Modules M) (ms : List (Option M)) (b : Build M) : Prop where
  atMostOnce : (b.log.filterMap sys.startedKey).Nodup
  /-- The imports that are executed: those of the caller, and of each `Register` called. -/
  asked : ∀ m, (some m ∈ ms ∨ ∃ m', .started m' ∈ b.log ∧ sys.Imports m' m) → .asked m ∈ b.log
  exactlyOnce : ∀ newer m older, b.log = newer ++ .asked m :: older →
    older.filterMap sys.failureOf = [] → (b.log.filterMap sys.startedKey).count (sys.key m) = 1
  halts : ∀ newer m err older, b.log = newer ++ .returned m (some err) :: older →
    ∀ m', .started m' ∉ newer
  err : ∀ newer m err older, b.log = newer ++ .returned m (some err) :: older →
    older.filterMap sys.failureOf = [] → b.err = some (sys.failure m err)

theorem failureOf_returned (m : M) (err : Err) :
    sys.failureOf (.returned m (some err)) = some (sys.failure m err) := rfl

variable {newer older : List (ModuleNote M)}

theorem Installed.no_start (hb : sys.Installed b) {m m' : M}
    (hlog : b.log = newer ++ .returned m (some err) :: older) :
    .started m' ∉ newer := by
  intro hmem
  obtain ⟨between, hhalts⟩ := hb.halts.after hlog hmem
  have hnone := hhalts m' rfl
  rw [List.filterMap_append, List.filterMap_cons_some (failureOf_returned m err)] at hnone
  exact absurd hnone (List.append_ne_nil_of_right_ne_nil _ (List.cons_ne_nil _ _))

theorem Installed.first_failure (hb : sys.Installed b)
    (hlog : b.log = newer ++ .returned m (some err) :: older)
    (hnone : older.filterMap sys.failureOf = []) : b.err = some (sys.failure m err) := by
  rw [hb.err, hlog, List.filterMap_append, List.filterMap_cons_some (failureOf_returned m err),
    hnone]
  exact List.getLast?_concat

/-- However the modules import each other, their installation ends, when there are finitely
many keys. -/
theorem modules_installed (sys : Modules M) (keys : List GoString)
    (hkeys : ∀ m, sys.key m ≠ [] ∧ sys.key m ∈ keys) (ms : List (Option M)) :
    ∃ b, (∀ fuel, keys.length < fuel → sys.withModules fuel {} ms = some b) ∧
      sys.InstallSpec ms b := by
  obtain ⟨b, hb⟩ := withModules_returns hkeys (keys.length + 1) {} ms (left_empty_lt keys)
  have hinst : sys.Installed b := installed_empty.path (withModules_path hb)
  refine ⟨b, fun fuel hfuel => withModules_mono hfuel hb, ?_, ?_, ?_, ?_, ?_⟩
  · rw [← hinst.modules]
    exact hinst.nodup
  · rintro m (hm | ⟨m', hstarted, himports⟩)
    · exact withModules_asked hb hm
    · exact ((withModules_served hb m' hstarted).resolve_left nofun) m himports
  · intro newer m older hlog hnone
    rw [← hinst.modules]
    refine List.count_eq_one_of_mem hinst.nodup ?_
    exact Log.each_iff.mp hinst.heard newer _ older hlog m rfl (hkeys m).1 hnone
  · exact fun newer m err older hlog m' => hinst.no_start hlog
  · exact fun newer m err older hlog hnone => hinst.first_failure hlog hnone

def cyclic : Modules (Fin 3) where
  info m := keyedModuleFunc (bytes (toString m))
  register
    | 0, _ => .withModule (some 1) fun _ => .withModule (some 2) fun _ => .ret none
    | 1, _ => .withModule (some 2) fun _ => .ret none
    | 2, _ => .withModule (some 0) fun _ => .ret none

theorem cyclic_modules_installed : ∃ b, cyclic.withModules 4 {} [some 0] = some b ∧
    b.err.isSome = false ∧ .started 2 ∈ b.log ∧ cyclic.InstallSpec [some 0] b := by
  obtain ⟨b, hends, hspec⟩ := modules_installed cyclic [bytes "0", bytes "1", bytes "2"]
    (by decide) [some 0]
  have hb := hends 4 (by decide)
  have hrun : (cyclic.withModules 4 {} [some 0]).map
      (fun b => (b.err.isSome, decide (.started 2 ∈ b.log))) = some (false, true) := by
    decide
  rw [hb] at hrun
  obtain ⟨herr, hstarted⟩ := Prod.mk.inj (Option.some.inj hrun)
  exact ⟨b, hb, herr, of_decide_eq_true hstarted, hspec⟩

/-! ### Modules with the same key -/

section

variable [DecidableEq M]

theorem startedWith_key_beq (m : M) (n : ModuleNote M) :
    (sys.startedWith (sys.key m) n == some m) = (n == .started m) := by
  rw [Bool.eq_iff_iff, beq_iff_eq, beq_iff_eq]
  constructor
  · intro h
    cases n with
    | started m' =>
      obtain ⟨-, hm⟩ := Option.ite_none_right_eq_some.mp h
      rw [Option.some.inj hm]
    | _ => cases h
  · rintro rfl
    exact if_pos rfl

theorem count_started (sys : Modules M) (m : M) (log : List (ModuleNote M)) :
    log.count (.started m) = (log.filterMap (sys.startedWith (sys.key m))).count m := by
  rw [List.count_filterMap]
  exact List.countP_congr fun n _ => by rw [startedWith_key_beq]

end

def IsStruct (m : Module) : Prop := m.key = none ∧ m.func = false

theorem IsStruct.key_ne_nil {m : Module} (h : IsStruct m) : moduleKey m ≠ [] := by
  rw [moduleKey, h.1, h.2]
  exact List.append_ne_nil_of_left_ne_nil
    (List.append_ne_nil_of_right_ne_nil _ (by decide)) _

/-- A struct module is installed once exactly when it is the first one with its key that is asked
for. -/
theorem struct_module_installed_iff [DecidableEq M] (sys : Modules M) (ms : List (Option M)) :
    (∀ keys : List GoString, (∀ m, sys.key m ≠ [] ∧ sys.key m ∈ keys) →
      ∃ b, sys.withModules (keys.length + 1) {} ms = some b) ∧
    ∀ fuel b, sys.withModules fuel {} ms = some b → b.err = none →
      ∀ m, IsStruct (sys.info m) →
        (b.log.count (.started m) = 1 ↔ sys.firstAsked (sys.key m) b.log = some m) := by
  constructor
  · intro keys hkeys
    exact withModules_returns hkeys _ {} ms (left_empty_lt keys)
  · intro fuel b hrun herr m hstruct
    have hinst : sys.Installed b := installed_empty.path (withModules_path hrun)
    rw [count_started sys, hinst.first herr _ hstruct.key_ne_nil]
    cases sys.firstAsked (sys.key m) b.log with
    | none => exact ⟨nofun, nofun⟩
    | some m' =>
      rw [Option.toList_some, List.count_singleton, Option.some_inj]
      by_cases heq : m' = m
      · exact iff_of_true (if_pos (beq_iff_eq.mpr heq)) heq
      · exact iff_of_false (by rw [if_neg (mt beq_iff_eq.mp heq)]; exact Nat.zero_ne_one) heq

def sameText : Modules Bool where
  info second :=
    { type := ⟨if second then bytes "example.com/b/auth" else bytes "example.com/a/auth",
        bytes "Module"⟩ }
  register _ _ := .ret none

/-- Two packages with different names. -/
def otherText : Modules Bool where
  info second :=
    { type := ⟨if second then bytes "example.com/b/billing" else bytes "example.com/a/auth",
        bytes "Module"⟩ }
  register _ _ := .ret none

theorem struct_module_alone_installed :
    (otherText.withModules 3 {} [some false, some true]).map
      (fun b => (b.log.count (.started false), b.log.count (.started true))) = some (1, 1) := by
  obtain ⟨hends, honce⟩ := struct_module_installed_iff otherText [some false, some true]
  obtain ⟨b, hb⟩ := hends [bytes "auth.Module", bytes "billing.Module"] (by decide)
  have hb : otherText.withModules 3 {} [some false, some true] = some b := hb
  have hrun : (otherText.withModules 3 {} [some false, some true]).map
      (fun b => (b.err.isNone, otherText.firstAsked (otherText.key false) b.log,
        otherText.firstAsked (otherText.key true) b.log)) =
      some (true, some false, some true) := by
    decide
  rw [hb] at hrun ⊢
  obtain ⟨herr, hfirst⟩ := Prod.mk.inj (Option.some.inj hrun)
  obtain ⟨hauth, hbilling⟩ := Prod.mk.inj hfirst
  have hiff := honce 3 b hb (Option.isNone_iff_eq_none.mp herr)
  rw [Option.map_some, (hiff false ⟨rfl, rfl⟩).mpr hauth, (hiff true ⟨rfl, rfl⟩).mpr hbilling]

/-- A module is not installed, for another of the same name. -/
theorem second_struct_module_suppressed :
    IsStruct (sameText.info false) ∧ IsStruct (sameText.info true) ∧
    (sameText.info false).type ≠ (sameText.info true).type ∧
    (sameText.withModules 2 {} [some false, some true]).map (fun b => (b.err.isNone,
      b.log.count (.started false), b.log.count (.started true))) = some (true, 1, 0) :=
  ⟨⟨rfl, rfl⟩, ⟨rfl, rfl⟩, by decide, by decide⟩

end

end Modules

end Microjet.Host
