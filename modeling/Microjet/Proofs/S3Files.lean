import Microjet.Aws.S3
import Microjet.Lib.Run

/-!
# Downloads replace only complete files

A goroutine writes to its temporary file, which nobody else has, and to its target in one step,
the rename; by then the temporary file has the whole body (`Holds`).
-/

namespace Microjet.Aws

open Trace Errorx
open Function (update update_self update_of_ne update_eq_self)

variable {π : Type}

/-- The temporary file of a goroutine. -/
def At.tmp : At π → Option π
  | .fetching tmp | .copying tmp _ | .closing tmp | .replacing tmp | .removing tmp _ => some tmp
  | _ => none

/-- The same, until it is renamed or removed. -/
def At.file : At π → Option π
  | .fetching tmp | .copying tmp _ | .closing tmp | .replacing tmp => some tmp
  | _ => none

theorem At.tmp_of_file {a : At π} {tmp : π} (h : a.file = some tmp) : a.tmp = some tmp := by
  cases a <;> cases h <;> rfl

/-- From one statement to the next. -/
inductive Goes : At π → At π → Prop where
  | checked : Goes .checking .creating
  | refused (err : Err) : Goes .checking (.returned (some err))
  | uncreated (err : Err) : Goes .creating (.returned (some err))
  | failed {a : At π} {tmp : π} (err : Err) (ha : a.file = some tmp) :
      Goes a (.removing tmp (some err))
  | copied (tmp : π) : Goes (.copying tmp []) (.closing tmp)
  | closed (tmp : π) : Goes (.closing tmp) (.replacing tmp)

variable {a b : At π}

theorem Goes.tmp_eq (h : Goes a b) : b.tmp = a.tmp := by
  cases h with
  | failed err ha => exact (At.tmp_of_file ha).symm
  | _ => rfl

theorem Goes.not_returned (h : Goes a b) (err : Option Err) : a ≠ .returned err := by
  rintro rfl
  cases h with
  | failed err ha => cases ha

theorem Goes.not_removing (h : Goes a b) (tmp : π) (err : Option Err) :
    a ≠ .removing tmp err := by
  rintro rfl
  cases h with
  | failed err ha => cases ha

namespace Downloads

variable {s s' : Downloads π} {fs₀ : π → Option GoString}

def tmpOf (s : Downloads π) (i : Nat) : Option π := (s.workers i).bind At.tmp

/-- What is in the temporary file there. -/
def Holds (s : Downloads π) (i : Nat) : At π → Prop
  | .fetching tmp => s.fs tmp = some []
  | .copying tmp rest => ∃ written, s.fs tmp = some written ∧ (i, written ++ rest) ∈ s.served
  | .closing tmp | .replacing tmp => ∃ body, s.fs tmp = some body ∧ (i, body) ∈ s.served
  | _ => True

/-- As it was, or what was served for it. -/
def Replaced (fs₀ : π → Option GoString) (s : Downloads π) (p : π) : Prop :=
  s.fs p = fs₀ p ∨ ∃ i req body, s.reqs[i]? = some req ∧ req.localFilePath = p ∧
    (i, body) ∈ s.served ∧ s.fs p = some body

/-- Temporary files are apart from each other and from targets, and hold what they should. -/
structure Sound (fs₀ : π → Option GoString) (s : Downloads π) : Prop where
  named : ∀ i tmp, s.tmpOf i = some tmp → tmp ∈ s.names
  apart : ∀ i j tmp, s.tmpOf i = some tmp → s.tmpOf j = some tmp → i = j
  foreign : ∀ tmp ∈ s.names, tmp ∉ s.targets
  unused : ∀ tmp ∈ s.names, fs₀ tmp = none
  kept : ∀ tmp ∈ s.names, s.fs tmp ≠ none → ∃ i, s.tmpOf i = some tmp
  holds : ∀ i a, s.workers i = some a → s.Holds i a
  replaced : ∀ p ∈ s.targets, Replaced fs₀ s p
  others : ∀ p, p ∉ s.targets → p ∉ s.names → s.fs p = fs₀ p

variable {i : Nat}

theorem tmpOf_eq {a : At π} (ha : s.workers i = some a) : s.tmpOf i = a.tmp := by
  rw [tmpOf, ha, Option.bind_some]

theorem of_update_eq_some {α : Type} {f : Nat → Option α} {i j : Nat} {x : Option α} {y : α}
    (h : update f i x j = some y) : j = i ∧ x = some y ∨ j ≠ i ∧ f j = some y := by
  by_cases hj : j = i
  · subst hj
    rw [update_self] at h
    exact .inl ⟨rfl, h⟩
  · rw [update_of_ne hj] at h
    exact .inr ⟨hj, h⟩

theorem tmpOf_update {b : At π} (h : s'.workers = update s.workers i (some b)) :
    s'.tmpOf = update s.tmpOf i b.tmp := by
  funext j
  by_cases hj : j = i
  · rw [hj, update_self, tmpOf, h, update_self, Option.bind_some]
  · rw [update_of_ne hj, tmpOf, h, update_of_ne hj, tmpOf]

theorem Holds.mono {a : At π} (h : s.Holds i a)
    (hfs : ∀ tmp, a.file = some tmp → s'.fs tmp = s.fs tmp)
    (hserved : ∀ x ∈ s.served, x ∈ s'.served) : s'.Holds i a := by
  cases a with
  | fetching tmp => exact (hfs tmp rfl).trans h
  | copying tmp rest =>
    obtain ⟨written, hwritten, hmem⟩ := h
    exact ⟨written, (hfs tmp rfl).trans hwritten, hserved _ hmem⟩
  | closing tmp =>
    obtain ⟨body, hbody, hmem⟩ := h
    exact ⟨body, (hfs tmp rfl).trans hbody, hserved _ hmem⟩
  | replacing tmp =>
    obtain ⟨body, hbody, hmem⟩ := h
    exact ⟨body, (hfs tmp rfl).trans hbody, hserved _ hmem⟩
  | _ => trivial

theorem Replaced.mono {p : π} (h : Replaced fs₀ s p) (hfs : s'.fs p = s.fs p)
    (hreqs : s'.reqs = s.reqs) (hserved : ∀ x ∈ s.served, x ∈ s'.served) :
    Replaced fs₀ s' p := by
  rcases h with h | ⟨i, req, body, hreq, hp, hmem, hbody⟩
  · exact .inl (hfs.trans h)
  · exact .inr ⟨i, req, body, hreqs ▸ hreq, hp, hserved _ hmem, hfs.trans hbody⟩

theorem Holds.goes {a b : At π} (ha : s.Holds i a) (h : Goes a b) : s.Holds i b := by
  cases h with
  | copied tmp =>
    obtain ⟨written, hwritten, hmem⟩ := ha
    rw [List.append_nil] at hmem
    exact ⟨written, hwritten, hmem⟩
  | closed tmp => exact ha
  | _ => trivial

theorem Sound.worker (hs : s.Sound fs₀) {b : At π}
    (hworkers : s'.workers = update s.workers i (some b)) (htmp : b.tmp = s.tmpOf i)
    (hnames : s'.names = s.names) (hreqs : s'.reqs = s.reqs)
    (hserved : ∀ x ∈ s.served, x ∈ s'.served)
    (hfs : ∀ p, p ∉ s.targets → s.tmpOf i ≠ some p → s'.fs p = s.fs p) (hb : s'.Holds i b)
    (hreplaced : ∀ p ∈ s.targets, Replaced fs₀ s' p) : s'.Sound fs₀ := by
  have htargets : s'.targets = s.targets := by rw [targets, targets, hreqs]
  have htmpOf : s'.tmpOf = s.tmpOf := by
    rw [tmpOf_update hworkers, htmp, update_eq_self]
  -- the file of another goroutine is neither a target nor the file of this one
  have hother {j : Nat} {tmp : π} (hj : j ≠ i) (hjtmp : s.tmpOf j = some tmp) :
      s'.fs tmp = s.fs tmp := by
    refine hfs tmp (hs.foreign tmp (hs.named j tmp hjtmp)) fun hitmp => hj ?_
    exact hs.apart j i tmp hjtmp hitmp
  refine ⟨?_, ?_, ?_, ?_, ?_, ?_, ?_, ?_⟩
  · rw [htmpOf, hnames]
    exact hs.named
  · rw [htmpOf]
    exact hs.apart
  · rw [hnames, htargets]
    exact hs.foreign
  · rw [hnames]
    exact hs.unused
  · rw [hnames, htmpOf]
    intro tmp hmem hne
    by_cases hitmp : s.tmpOf i = some tmp
    · exact ⟨i, hitmp⟩
    · rw [hfs tmp (hs.foreign tmp hmem) hitmp] at hne
      exact hs.kept tmp hmem hne
  · intro j c hc
    rw [hworkers] at hc
    rcases of_update_eq_some hc with ⟨rfl, heq⟩ | ⟨hj, hc⟩
    · cases heq
      exact hb
    · refine (hs.holds j c hc).mono (fun tmp hctmp => ?_) hserved
      exact hother hj ((tmpOf_eq hc).trans (At.tmp_of_file hctmp))
  · rw [htargets]
    exact hreplaced
  · rw [htargets, hnames]
    intro p hp hpnames
    rw [hfs p hp fun hitmp => hpnames (hs.named i p hitmp)]
    exact hs.others p hp hpnames

/-- Goroutines not started are not there, and when the call has returned all have. -/
structure Started (s : Downloads π) : Prop where
  unlaunched : ∀ i, s.launched ≤ i → s.workers i = none
  ended : s.result ≠ none → ∀ i a, s.workers i = some a → ∃ err, a = .returned err

theorem Started.worker (hs : s.Started) {a b : At π} (ha : s.workers i = some a)
    (hne : ∀ err, a ≠ .returned err) (hworkers : s'.workers = update s.workers i (some b))
    (hlaunched : s'.launched = s.launched) (hresult : s'.result = s.result) : s'.Started := by
  refine ⟨fun j hj => ?_, fun hover => ?_⟩
  · have hji : j ≠ i := by
      rintro rfl
      cases (hs.unlaunched j (hlaunched ▸ hj)).symm.trans ha
    rw [hworkers, update_of_ne hji]
    exact hs.unlaunched j (hlaunched ▸ hj)
  · obtain ⟨err, herr⟩ := hs.ended (hresult ▸ hover) i a ha
    exact absurd herr (hne err)

variable [DecidableEq π] {e : Event π}

/-- The steps, as a relation. -/
inductive Moves (s : Downloads π) : Event π → Downloads π → Prop where
  | launch (hresult : s.result = none) :
      Moves s .launch { s.goto s.launched .checking with launched := s.launched + 1 }
  | cancel {err : Err} (c : Option Err) : Moves s (.cancel err) { s with ctxErr := c }
  | goes {e : Event π} {i : Nat} {a b : At π} (c f : Option Err) (ha : s.workers i = some a)
      (h : Goes a b) : Moves s e { s.goto i b with ctxErr := c, firstErr := f }
  | create {i : Nat} {tmp : π} (ha : s.workers i = some .creating) (htmp : s.fresh tmp = true) :
      Moves s (.createTemp i (.ok tmp))
        { s.goto i (.fetching tmp) with
          fs := update s.fs tmp (some [])
          names := tmp :: s.names }
  | serve {i : Nat} {tmp : π} {body : GoString} (ha : s.workers i = some (.fetching tmp)) :
      Moves s (.getObject i (.ok body))
        { s.goto i (.copying tmp body) with served := (i, body) :: s.served }
  | copy {i n : Nat} {tmp : π} {rest : GoString} (ha : s.workers i = some (.copying tmp rest)) :
      Moves s (.copy i n)
        { s.goto i (.copying tmp (rest.drop n)) with
          fs := update s.fs tmp ((s.fs tmp).map (· ++ rest.take n)) }
  | rename {i : Nat} {tmp : π} {req : S3DownloadFileRequest π}
      (ha : s.workers i = some (.replacing tmp)) (hreq : s.reqs[i]? = some req) :
      Moves s (.rename i none)
        { s.goto i (.removing tmp none) with
          fs := update (update s.fs req.localFilePath (s.fs tmp)) tmp none }
  | remove {i : Nat} {tmp : π} {err : Option Err} (c f : Option Err)
      (ha : s.workers i = some (.removing tmp err)) :
      Moves s (.remove i)
        { s.goto i (.returned err) with
          fs := update s.fs tmp none, ctxErr := c, firstErr := f }
  | wait (hdone : ∀ i < s.launched, s.done i = true) (r : Option (Option Err)) :
      Moves s .wait { s with result := r }

theorem step_moves (hstep : s.step e = some s') : Moves s e s' := by
  cases e with
  | launch =>
    simp only [step] at hstep
    split at hstep
    · next h =>
        cases hstep
        rw [Bool.and_eq_true, Bool.and_eq_true] at h
        exact .launch (Option.isNone_iff_eq_none.mp h.1.1)
    · cases hstep
  | cancel err =>
    cases hstep
    exact .cancel _
  | check i =>
    simp only [step] at hstep
    split at hstep
    · next ha =>
        split at hstep
        · cases hstep
          exact .goes _ _ ha (.refused _)
        · cases hstep
          exact .goes s.ctxErr s.firstErr ha .checked
    · cases hstep
  | createTemp i name =>
    simp only [step] at hstep
    split at hstep
    · next ha =>
        split at hstep
        · cases hstep
          exact .goes _ _ ha (.uncreated _)
        · split at hstep
          · next htmp =>
              cases hstep
              exact .create ha htmp
          · cases hstep
    · cases hstep
  | getObject i body =>
    simp only [step] at hstep
    split at hstep
    · next tmp ha =>
        split at hstep
        · cases hstep
          exact .goes s.ctxErr s.firstErr ha (.failed _ rfl)
        · cases hstep
          exact .serve ha
    · cases hstep
  | copy i n =>
    simp only [step] at hstep
    split at hstep
    · next ha =>
        cases hstep
        exact .copy ha
    · cases hstep
  | copied i err =>
    simp only [step] at hstep
    split at hstep
    · next tmp rest ha =>
        split at hstep
        · cases hstep
          exact .goes s.ctxErr s.firstErr ha (.failed _ rfl)
        · split at hstep
          · next hrest =>
              cases hstep
              rw [List.isEmpty_iff.mp hrest] at ha
              exact .goes s.ctxErr s.firstErr ha (.copied tmp)
          · cases hstep
    · cases hstep
  | close i err =>
    simp only [step] at hstep
    split at hstep
    · next tmp ha =>
        split at hstep
        · cases hstep
          exact .goes s.ctxErr s.firstErr ha (.failed _ rfl)
        · cases hstep
          exact .goes s.ctxErr s.firstErr ha (.closed tmp)
    · cases hstep
  | rename i err =>
    simp only [step] at hstep
    split at hstep
    · next tmp req ha hreq =>
        split at hstep
        · cases hstep
          exact .goes s.ctxErr s.firstErr ha (.failed _ rfl)
        · cases hstep
          exact .rename ha hreq
    · cases hstep
  | remove i =>
    simp only [step] at hstep
    split at hstep
    · next ha =>
        cases hstep
        exact .remove _ _ ha
    · cases hstep
  | wait =>
    simp only [step] at hstep
    split at hstep
    · next h =>
        cases hstep
        rw [Bool.and_eq_true] at h
        exact .wait (fun i hi => List.all_eq_true.mp h.2 i (List.mem_range.mpr hi)) _
    · cases hstep

/-! ### A step keeps the files sound -/

variable {tmp : π}

theorem fresh_iff : s.fresh tmp = true ↔
    s.fs tmp = none ∧ tmp ∉ s.names ∧ tmp ∉ s.targets := by
  rw [fresh, Bool.and_eq_true, Bool.and_eq_true, Option.isNone_iff_eq_none, and_assoc]
  simp

theorem Sound.create (hs : s.Sound fs₀) (hi : s.tmpOf i = none) (htmp : s.fresh tmp = true) :
    Sound fs₀ { s.goto i (.fetching tmp) with
      fs := update s.fs tmp (some [])
      names := tmp :: s.names } := by
  obtain ⟨hnone, hnames, htargets⟩ := fresh_iff.mp htmp
  have hother {p : π} (hp : p ∈ s.names) : update s.fs tmp (some []) p = s.fs p :=
    update_of_ne (ne_of_mem_of_not_mem hp hnames) ..
  refine ⟨?_, ?_, ?_, ?_, ?_, ?_, ?_, ?_⟩
  · intro j t hj
    rw [tmpOf_update rfl] at hj
    rcases of_update_eq_some hj with ⟨-, heq⟩ | ⟨-, hj⟩
    · cases heq
      exact List.mem_cons_self
    · exact List.mem_cons_of_mem tmp (hs.named j t hj)
  · intro j k t hj hk
    rw [tmpOf_update rfl] at hj hk
    rcases of_update_eq_some hj with ⟨rfl, heq⟩ | ⟨-, hj'⟩
    · cases heq
      rcases of_update_eq_some hk with ⟨rfl, -⟩ | ⟨-, hk'⟩
      · rfl
      · exact absurd (hs.named k tmp hk') hnames
    · rcases of_update_eq_some hk with ⟨rfl, heq⟩ | ⟨-, hk'⟩
      · cases heq
        exact absurd (hs.named j tmp hj') hnames
      · exact hs.apart j k t hj' hk'
  · exact List.forall_mem_cons.mpr ⟨htargets, hs.foreign⟩
  · exact List.forall_mem_cons.mpr ⟨(hs.others tmp htargets hnames).symm.trans hnone, hs.unused⟩
  · rw [tmpOf_update rfl]
    refine List.forall_mem_cons.mpr ⟨fun _ => ⟨i, update_self ..⟩, fun t ht hne => ?_⟩
    obtain ⟨j, hj⟩ := hs.kept t ht (hother ht ▸ hne)
    have hji : j ≠ i := by
      rintro rfl
      cases hi.symm.trans hj
    exact ⟨j, (update_of_ne hji ..).trans hj⟩
  · intro j c hc
    rcases of_update_eq_some hc with ⟨rfl, heq⟩ | ⟨-, hc⟩
    · cases heq
      exact update_self ..
    · refine (hs.holds j c hc).mono (fun t ht => hother ?_) fun _ h => h
      exact hs.named j t ((tmpOf_eq hc).trans (At.tmp_of_file ht))
  · intro p hp
    refine (hs.replaced p hp).mono ?_ rfl fun _ h => h
    exact update_of_ne (ne_of_mem_of_not_mem hp htargets) ..
  · intro p hp hpnames
    rw [List.mem_cons, not_or] at hpnames
    exact (update_of_ne hpnames.1 ..).trans (hs.others p hp hpnames.2)

theorem Sound.remove (hs : s.Sound fs₀) {err : Option Err} (c f : Option Err)
    (ha : s.workers i = some (.removing tmp err)) :
    Sound fs₀ { s.goto i (.returned err) with
      fs := update s.fs tmp none, ctxErr := c, firstErr := f } := by
  have hi : s.tmpOf i = some tmp := tmpOf_eq ha
  have hname := hs.named i tmp hi
  refine ⟨?_, ?_, hs.foreign, hs.unused, ?_, ?_, ?_, ?_⟩
  · intro j t hj
    rw [tmpOf_update rfl] at hj
    rcases of_update_eq_some hj with ⟨-, heq⟩ | ⟨-, hj⟩
    · cases heq
    · exact hs.named j t hj
  · intro j k t hj hk
    rw [tmpOf_update rfl] at hj hk
    rcases of_update_eq_some hj with ⟨-, heq⟩ | ⟨-, hj⟩
    · cases heq
    rcases of_update_eq_some hk with ⟨-, heq⟩ | ⟨-, hk⟩
    · cases heq
    exact hs.apart j k t hj hk
  · -- the name stays in the list, and the file is gone
    rw [tmpOf_update rfl]
    intro t ht hne
    have htmp : t ≠ tmp := by
      rintro rfl
      exact hne (update_self ..)
    obtain ⟨j, hj⟩ := hs.kept t ht fun h => hne ((update_of_ne htmp ..).trans h)
    have hji : j ≠ i := by
      rintro rfl
      cases hi.symm.trans hj
      exact htmp rfl
    exact ⟨j, (update_of_ne hji ..).trans hj⟩
  · intro j c hc
    rcases of_update_eq_some hc with ⟨-, heq⟩ | ⟨hj, hc⟩
    · cases heq
      trivial
    · refine (hs.holds j c hc).mono (fun t ht => ?_) fun _ h => h
      have hjt := (tmpOf_eq hc).trans (At.tmp_of_file ht)
      have htmp : t ≠ tmp := by
        rintro rfl
        exact hj (hs.apart j i t hjt hi)
      exact update_of_ne htmp ..
  · intro p hp
    refine (hs.replaced p hp).mono ?_ rfl fun _ h => h
    exact update_of_ne (ne_of_mem_of_not_mem hp (hs.foreign tmp hname)) ..
  · intro p hp hpnames
    have htmp : p ≠ tmp := (ne_of_mem_of_not_mem hname hpnames).symm
    exact (update_of_ne htmp ..).trans (hs.others p hp hpnames)

theorem Started.moves (hs : s.Started) (hmoves : Moves s e s') : s'.Started := by
  cases hmoves with
  | launch hresult =>
    refine ⟨fun j hj => ?_, fun hover => absurd hresult hover⟩
    have hj : s.launched + 1 ≤ j := hj
    exact (update_of_ne (by omega) ..).trans (hs.unlaunched j (by omega))
  | cancel c => exact ⟨hs.unlaunched, hs.ended⟩
  | goes c f ha h => exact hs.worker ha h.not_returned rfl rfl rfl
  | create ha htmp => exact hs.worker ha nofun rfl rfl rfl
  | serve ha => exact hs.worker ha nofun rfl rfl rfl
  | copy ha => exact hs.worker ha nofun rfl rfl rfl
  | rename ha hreq => exact hs.worker ha nofun rfl rfl rfl
  | remove c f ha => exact hs.worker ha nofun rfl rfl rfl
  | wait hdone r =>
    refine ⟨hs.unlaunched, fun _ i a ha => ?_⟩
    have hi : i < s.launched := by
      by_contra hi
      cases (hs.unlaunched i (Nat.le_of_not_lt hi)).symm.trans ha
    have hret := hdone i hi
    rw [done, ha] at hret
    split at hret
    · next err heq =>
        cases heq
        exact ⟨err, rfl⟩
    · cases hret

theorem Sound.moves (hs : s.Sound fs₀) (hstarted : s.Started) (hmoves : Moves s e s') :
    s'.Sound fs₀ := by
  have hreplaced {s' : Downloads π} (hfs : ∀ p ∈ s.targets, s'.fs p = s.fs p)
      (hreqs : s'.reqs = s.reqs) (hserved : ∀ x ∈ s.served, x ∈ s'.served) :
      ∀ p ∈ s.targets, Replaced fs₀ s' p :=
    fun p hp => (hs.replaced p hp).mono (hfs p hp) hreqs hserved
  cases hmoves with
  | launch hresult =>
    have hnone : s.tmpOf s.launched = none := by
      rw [tmpOf, hstarted.unlaunched s.launched (Nat.le_refl _)]
      rfl
    exact hs.worker rfl hnone.symm rfl rfl (fun _ h => h) (fun _ _ _ => rfl) trivial
      (hreplaced (fun _ _ => rfl) rfl fun _ h => h)
  | cancel c => exact ⟨hs.1, hs.2, hs.3, hs.4, hs.5, hs.6, hs.7, hs.8⟩
  | goes c f ha h =>
    refine hs.worker rfl (h.tmp_eq.trans (tmpOf_eq ha).symm) rfl rfl (fun _ h => h)
      (fun _ _ _ => rfl) ((hs.holds _ _ ha).goes h) ?_
    exact hreplaced (fun _ _ => rfl) rfl fun _ h => h
  | create ha htmp => exact hs.create (tmpOf_eq ha) htmp
  | @serve i tmp body ha =>
    have hmono : ∀ x ∈ s.served, x ∈ (i, body) :: s.served := fun x => List.mem_cons_of_mem _
    refine hs.worker rfl (tmpOf_eq ha).symm rfl rfl hmono (fun _ _ _ => rfl)
      ⟨[], hs.holds i _ ha, List.mem_cons_self⟩ ?_
    exact hreplaced (fun _ _ => rfl) rfl hmono
  | @copy i n tmp rest ha =>
    have hname := hs.named i tmp (tmpOf_eq ha)
    obtain ⟨written, hwritten, hmem⟩ := hs.holds i _ ha
    refine hs.worker rfl (tmpOf_eq ha).symm rfl rfl (fun _ h => h) ?_ ?_ ?_
    · intro p _ hne
      rw [tmpOf_eq ha] at hne
      exact update_of_ne (fun h => hne (congrArg some h.symm)) ..
    · refine ⟨written ++ rest.take n, ?_, ?_⟩
      · show update s.fs tmp _ tmp = _
        rw [update_self, hwritten]
        rfl
      · rw [List.append_assoc, List.take_append_drop]
        exact hmem
    · refine hreplaced (fun p hp => ?_) rfl fun _ h => h
      exact update_of_ne (ne_of_mem_of_not_mem hp (hs.foreign tmp hname)) ..
  | @rename i tmp req ha hreq =>
    have hforeign := hs.foreign tmp (hs.named i tmp (tmpOf_eq ha))
    have htarget : req.localFilePath ∈ s.targets :=
      List.mem_map.mpr ⟨req, List.mem_of_getElem? hreq, rfl⟩
    obtain ⟨body, hbody, hmem⟩ := hs.holds i _ ha
    have hfs {p : π} (htmp : p ≠ tmp) (hp : p ≠ req.localFilePath) :
        update (update s.fs req.localFilePath (s.fs tmp)) tmp none p =
          s.fs p := by
      rw [update_of_ne htmp, update_of_ne hp]
    -- the one step that changes a target, when the temporary file has the whole body
    refine hs.worker rfl (tmpOf_eq ha).symm rfl rfl (fun _ h => h) ?_ trivial ?_
    · intro p hp hne
      rw [tmpOf_eq ha] at hne
      exact hfs (fun h => hne (congrArg some h.symm)) (ne_of_mem_of_not_mem htarget hp).symm
    · intro p hp
      have htmp : p ≠ tmp := ne_of_mem_of_not_mem hp hforeign
      by_cases hpath : p = req.localFilePath
      · refine .inr ⟨i, req, body, hreq, hpath.symm, hmem, ?_⟩
        show update (update s.fs _ _) tmp none p = some body
        rw [update_of_ne htmp, hpath, update_self]
        exact hbody
      · exact (hs.replaced p hp).mono (hfs htmp hpath) rfl fun _ h => h
  | remove c f ha => exact hs.remove c f ha
  | wait hdone r => exact ⟨hs.1, hs.2, hs.3, hs.4, hs.5, hs.6, hs.7, hs.8⟩

end Downloads

end Microjet.Aws
