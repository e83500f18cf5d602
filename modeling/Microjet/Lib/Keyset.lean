import Mathlib.Data.List.Nodup
import Mathlib.Data.List.Sort

/-!
# Sweeping a table by key

A client reads a table page by page, which may be a different one at every request. "Beyond"
only has to be stricter than the order. If the table stands still, the sweep returns every row
exactly if no page ends between two rows that are not strictly apart (`Sweep.static`). If keys
are unique and comparable, the keys returned go strictly up and no row that was there all the
time is missed, whatever happens in between (`Sweep.strict`, `Sweep.complete`).
-/

namespace Keyset

/-- An order of keys, and a test for a key lying strictly beyond another. -/
structure Order (κ : Type) where
  le : κ → κ → Prop
  beyond : κ → κ → Bool
  le_total : ∀ a b, le a b ∨ le b a
  le_antisymm : ∀ a b, le a b → le b a → a = b
  not_le_of_beyond : ∀ a b, beyond a b = true → ¬ le b a
  beyond_trans : ∀ a b c, beyond a b = true → beyond b c = true → beyond a c = true

variable {ρ κ : Type} (K : Order κ) (key : ρ → κ)

/-- The row is beyond the bound. -/
def after (bound : Option κ) (r : ρ) : Bool :=
  match bound with
  | none => true
  | some b => K.beyond b (key r)

/-- The rows are in key order. -/
def InOrder (l : List ρ) : Prop := l.Pairwise fun r s => K.le (key r) (key s)

/-- A read from request `n` on: the bound, the pages, and whether it went on to the end. -/
inductive Sweep (p : Nat) (rows : Nat → List ρ) :
    Nat → Option κ → List (List ρ) → Bool → Prop where
  | pause {n : Nat} {bound : Option κ} : Sweep p rows n bound [] false
  | last {n : Nat} {bound : Option κ} {l : List ρ}
      (hperm : l.Perm ((rows n).filter (after K key bound))) (hl : InOrder K key l)
      (hlen : l.length ≤ p) : Sweep p rows n bound [l] true
  | more {n : Nat} {bound : Option κ} {l : List ρ} {x : ρ} {pages : List (List ρ)}
      {done : Bool}
      (hperm : l.Perm ((rows n).filter (after K key bound))) (hl : InOrder K key l)
      (hlen : p < l.length) (hx : (l.take p).getLast? = some x)
      (hrest : Sweep p rows (n + 1) (some (key x)) pages done) :
      Sweep p rows n bound (l.take p :: pages) done

section Page

variable {K key} {l : List ρ} {p : Nat} {x : ρ}

theorem Order.le_refl (K : Order κ) (a : κ) : K.le a a := (K.le_total a a).elim id id

theorem mem_of_last (hx : (l.take p).getLast? = some x) : x ∈ l.take p := by
  obtain ⟨ys, hys⟩ := List.getLast?_eq_some_iff.mp hx
  rw [hys]
  simp

theorem InOrder.le_last (hl : InOrder K key l) (hx : (l.take p).getLast? = some x) :
    ∀ r ∈ l.take p, K.le (key r) (key x) := by
  intro r hr
  obtain ⟨ys, hys⟩ := List.getLast?_eq_some_iff.mp hx
  have hpage : InOrder K key (l.take p) := hl.sublist (List.take_sublist p l)
  rw [hys] at hpage hr
  rcases List.mem_append.mp hr with hr | hr
  · exact (List.pairwise_append.mp hpage).2.2 r hr x (by simp)
  · rw [List.mem_singleton] at hr
    rw [hr]
    exact K.le_refl _

theorem InOrder.split (hl : InOrder K key l) :
    ∀ r ∈ l.take p, ∀ s ∈ l.drop p, K.le (key r) (key s) := by
  have hsplit : InOrder K key (l.take p ++ l.drop p) := by
    rwa [List.take_append_drop]
  exact (List.pairwise_append.mp hsplit).2.2

theorem InOrder.filter_beyond (hl : InOrder K key l)
    (hx : (l.take p).getLast? = some x) :
    l.filter (after K key (some (key x))) =
      (l.drop p).filter (after K key (some (key x))) := by
  have hnone : (l.take p).filter (after K key (some (key x))) = [] := by
    rw [List.filter_eq_nil_iff]
    intro r hr hbeyond
    exact K.not_le_of_beyond _ _ hbeyond (hl.le_last hx r hr)
  conv_lhs => rw [← List.take_append_drop p l, List.filter_append, hnone, List.nil_append]

end Page

/-! ## A table that stands still -/

/-- What comes after the end of a page of `p` lies strictly beyond it. -/
def Untied (p : Nat) (ks : List κ) : Prop :=
  ∀ k a, 0 < k → ks[k * p - 1]? = some a → ∀ b ∈ ks.drop (k * p), K.beyond a b = true

section Static

variable {K key} {p : Nat}

variable {ks : List κ}

theorem untied_of_length_le (h : ks.length ≤ p) : Untied K p ks := by
  intro k a hk _ b hb
  have hle : p ≤ k * p := Nat.le_mul_of_pos_left p hk
  rw [List.drop_of_length_le (by omega)] at hb
  cases hb

theorem untied_iff (hp : 0 < p) {a : κ} (ha : ks[p - 1]? = some a) :
    Untied K p ks ↔
      (∀ b ∈ ks.drop p, K.beyond a b = true) ∧ Untied K p (ks.drop p) := by
  have hidx : ∀ k, 0 < k → p + (k * p - 1) = (k + 1) * p - 1 := by
    intro k hk
    have hle : p ≤ k * p := Nat.le_mul_of_pos_left p hk
    rw [Nat.add_mul]
    omega
  have hsucc : ∀ k, p + k * p = (k + 1) * p := by
    intro k
    rw [Nat.add_mul]
    omega
  constructor
  · intro h
    refine ⟨fun b hb => h 1 a Nat.one_pos (by rwa [Nat.one_mul]) b (by rwa [Nat.one_mul]),
      fun k c hk hc b hb => ?_⟩
    rw [List.getElem?_drop, hidx k hk] at hc
    rw [List.drop_drop, hsucc] at hb
    exact h (k + 1) c (Nat.succ_pos k) hc b hb
  · rintro ⟨hfirst, hrest⟩ k c hk hc b hb
    cases k with
    | zero => omega
    | succ k =>
      cases k with
      | zero =>
        rw [Nat.zero_add, Nat.one_mul] at hc hb
        rw [ha] at hc
        cases hc
        exact hfirst b hb
      | succ k =>
        refine hrest (k + 1) c (Nat.succ_pos k) ?_ b ?_
        · rw [List.getElem?_drop, hidx (k + 1) (Nat.succ_pos k)]
          exact hc
        · rw [List.drop_drop, hsucc]
          exact hb

theorem filter_after {rows : List ρ} {bound : Option κ} {x : ρ}
    (hx : after K key bound x = true) :
    rows.filter (after K key (some (key x))) =
      (rows.filter (after K key bound)).filter (after K key (some (key x))) := by
  rw [List.filter_filter]
  refine List.filter_congr fun r _ => ?_
  cases bound with
  | none => exact (Bool.and_true _).symm
  | some b =>
    cases hr : after K key (some (key x)) r with
    | false => rfl
    | true =>
      have hbr : after K key (some b) r = true := K.beyond_trans _ _ _ hx hr
      rw [hbr]
      rfl

theorem InOrder.next_perm {l rows : List ρ} {bound : Option κ} {x : ρ}
    (hl : InOrder K key l) (hperm : l.Perm (rows.filter (after K key bound)))
    (hx : (l.take p).getLast? = some x) :
    (rows.filter (after K key (some (key x)))).Perm
      ((l.drop p).filter (after K key (some (key x)))) := by
  have hbound : after K key bound x = true :=
    (List.mem_filter.mp (hperm.subset (List.mem_of_mem_take (mem_of_last hx)))).2
  rw [filter_after hbound, ← hl.filter_beyond hx]
  exact (hperm.filter _).symm

theorem InOrder.keys_eq {l rows : List ρ} (hl : InOrder K key l) (hperm : l.Perm rows)
    (hks : ks.Perm (rows.map key)) (hsorted : ks.Pairwise K.le) :
    ks = l.map key := by
  refine List.Perm.eq_of_pairwise (fun a b _ _ => K.le_antisymm a b) hsorted ?_
    (hks.trans (hperm.map key).symm)
  exact List.pairwise_map.mpr hl

theorem getElem?_page_end {l : List ρ} {x : ρ} (hlen : p < l.length)
    (hx : (l.take p).getLast? = some x) : l[p - 1]? = some x := by
  rw [List.getLast?_take] at hx
  split at hx
  · cases hx
  · have hget : l[p - 1]? = some (l[p - 1]) := List.getElem?_eq_getElem (by omega)
    rw [hget, Option.some_or] at hx
    rw [hget, hx]

/-- Over a table that stands still: as much as was asked for exactly if the keys are untied. -/
theorem Sweep.static {rows : List ρ} (hp : 0 < p) : ∀ {n : Nat} {bound : Option κ}
    {pages : List (List ρ)} {done : Bool},
    Sweep K key p (fun _ => rows) n bound pages done → done = true →
    ∀ ks : List κ, ks.Perm ((rows.filter (after K key bound)).map key) →
      ks.Pairwise K.le →
    pages.flatten.length ≤ (rows.filter (after K key bound)).length ∧
      (pages.flatten.length = (rows.filter (after K key bound)).length →
        Untied K p ks) ∧
      (Untied K p ks → pages.flatten.Perm (rows.filter (after K key bound)) ∧
        InOrder K key pages.flatten) := by
  intro n bound pages done h
  induction h with
  | pause =>
    intro hdone
    cases hdone
  | @last n bound l hperm hl hlen =>
    intro _ ks hks hsorted
    rw [hl.keys_eq hperm hks hsorted, List.flatten_singleton]
    refine ⟨hperm.length_eq.le, fun _ => untied_of_length_le ?_, fun _ => ⟨hperm, hl⟩⟩
    rwa [List.length_map]
  | @more n bound l x pages done hperm hl hlen hx hrest ih =>
    intro hdone ks hks hsorted
    have hkeys := hl.keys_eq hperm hks hsorted
    subst hkeys
    have hnext := hl.next_perm hperm hx
    have hdrop : InOrder K key (l.drop p) := hl.sublist (List.drop_sublist p l)
    have hend : (l.map key)[p - 1]? = some (key x) := by
      rw [List.getElem?_map, getElem?_page_end hlen hx]
      rfl
    rw [untied_iff hp hend, ← List.map_drop]
    obtain ⟨hle, htied, hall⟩ := ih hdone
      (((l.drop p).filter (after K key (some (key x)))).map key)
      (hnext.map key).symm (List.pairwise_map.mpr (hdrop.sublist List.filter_sublist))
    have hpage : (l.take p).length = p := by
      rw [List.length_take]
      omega
    have hcur := hperm.length_eq
    have hfilter := List.length_filter_le (after K key (some (key x))) (l.drop p)
    rw [List.flatten_cons, List.length_append, hpage]
    rw [hnext.length_eq] at hle htied
    rw [List.length_drop] at hfilter
    refine ⟨by omega, fun heq => ?_, ?_⟩
    · -- as many as asked for: the filter has kept all of the rest
      have hkeep : ((l.drop p).filter (after K key (some (key x)))).length =
          (l.drop p).length := by
        rw [List.length_drop]
        omega
      have hself := List.filter_eq_self.mpr (List.length_filter_eq_length_iff.mp hkeep)
      rw [hself] at htied
      rw [List.length_drop] at htied
      refine ⟨?_, htied (by omega)⟩
      intro b hb
      obtain ⟨r, hr, rfl⟩ := List.mem_map.mp hb
      exact List.length_filter_eq_length_iff.mp hkeep r hr
    · rintro ⟨hbeyond, hlater⟩
      have hself : (l.drop p).filter (after K key (some (key x))) = l.drop p :=
        List.filter_eq_self.mpr fun r hr => hbeyond (key r) (List.mem_map_of_mem hr)
      rw [hself] at hall hnext
      obtain ⟨hpermRest, hinRest⟩ := hall hlater
      have hrestPerm := hpermRest.trans hnext
      constructor
      · have happ := (List.Perm.append_left (l.take p) hrestPerm)
        rw [List.take_append_drop] at happ
        exact happ.trans hperm
      · refine List.pairwise_append.mpr ⟨hl.sublist (List.take_sublist p l), hinRest, ?_⟩
        intro r hr s hs
        exact hl.split r hr s (hrestPerm.subset hs)

end Static

/-! ## A table that changes

From here on the keys of every table are unique, and any two of them can be
compared. -/

section Changing

variable {K key} {p : Nat} {rows : Nat → List ρ} {P : κ → Prop}

/-- What is asked of the tables. -/
structure Distinct (K : Order κ) (key : ρ → κ) (P : κ → Prop) (rows : Nat → List ρ) :
    Prop where
  unique : ∀ n, ((rows n).map key).Nodup
  all : ∀ n, ∀ r ∈ rows n, P (key r)
  beyond : ∀ a b, P a → P b → ¬ K.le b a → K.beyond a b = true

theorem Distinct.inOrder (h : Distinct K key P rows) {n : Nat} {bound : Option κ}
    {l : List ρ} (hperm : l.Perm ((rows n).filter (after K key bound)))
    (hl : InOrder K key l) :
    l.Pairwise fun r s => K.beyond (key r) (key s) = true := by
  have hmem : ∀ r ∈ l, P (key r) := fun r hr =>
    h.all n r (List.mem_of_mem_filter (hperm.subset hr))
  have hne : (l.map key).Nodup := by
    rw [(hperm.map key).nodup_iff]
    exact (List.filter_sublist.map key).nodup (h.unique n)
  have hne : l.Pairwise fun r s => key r ≠ key s := List.pairwise_map.mp hne
  have hboth := hl.and hne
  refine hboth.imp_of_mem fun {r s} hr hs hrs => ?_
  refine h.beyond _ _ (hmem r hr) (hmem s hs) fun hsr => ?_
  exact hrs.2 (K.le_antisymm _ _ hrs.1 hsr)

theorem Sweep.strict (hd : Distinct K key P rows) : ∀ {n : Nat} {bound : Option κ}
    {pages : List (List ρ)} {done : Bool}, Sweep K key p rows n bound pages done →
    (∀ r ∈ pages.flatten, after K key bound r = true) ∧
      pages.flatten.Pairwise fun r s => K.beyond (key r) (key s) = true := by
  intro n bound pages done h
  induction h with
  | pause => exact ⟨fun r hr => (nomatch hr), List.Pairwise.nil⟩
  | @last n bound l hperm hl hlen =>
    rw [List.flatten_singleton]
    exact ⟨fun r hr => (List.mem_filter.mp (hperm.subset hr)).2, hd.inOrder hperm hl⟩
  | @more n bound l x pages done hperm hl hlen hx hrest ih =>
    obtain ⟨hafter, hpair⟩ := ih
    have hlist := hd.inOrder hperm hl
    have hmem : ∀ r ∈ l.take p, after K key bound r = true := fun r hr =>
      (List.mem_filter.mp (hperm.subset (List.mem_of_mem_take hr))).2
    rw [List.flatten_cons]
    constructor
    · intro r hr
      rcases List.mem_append.mp hr with hr | hr
      · exact hmem r hr
      · have hxr : K.beyond (key x) (key r) = true := hafter r hr
        have hbx := hmem x (mem_of_last hx)
        cases bound with
        | none => rfl
        | some b => exact K.beyond_trans _ _ _ hbx hxr
    · refine List.pairwise_append.mpr
        ⟨hlist.sublist (List.take_sublist p l), hpair, fun r hr s hs => ?_⟩
      have hxs : K.beyond (key x) (key s) = true := hafter s hs
      -- `r` is `x`, or `x` lies beyond it
      obtain ⟨ys, hys⟩ := List.getLast?_eq_some_iff.mp hx
      have hpage := hlist.sublist (List.take_sublist p l)
      rw [hys] at hpage hr
      rcases List.mem_append.mp hr with hr | hr
      · exact K.beyond_trans _ _ _ ((List.pairwise_append.mp hpage).2.2 r hr x (by simp)) hxs
      · rw [List.mem_singleton] at hr
        rwa [hr]

/-- A sweep that went to the end has seen every row that was there all the time. -/
theorem Sweep.complete (hd : Distinct K key P rows) {r : ρ} : ∀ {n : Nat}
    {bound : Option κ} {pages : List (List ρ)} {done : Bool},
    Sweep K key p rows n bound pages done → done = true → after K key bound r = true →
    (∀ j, j < pages.length → r ∈ rows (n + j)) → r ∈ pages.flatten := by
  intro n bound pages done h
  induction h with
  | pause =>
    intro hdone
    cases hdone
  | @last n bound l hperm hl hlen =>
    intro _ hr hthere
    rw [List.flatten_singleton]
    exact hperm.symm.subset (List.mem_filter.mpr ⟨hthere 0 Nat.one_pos, hr⟩)
  | @more n bound l x pages done hperm hl hlen hx hrest ih =>
    intro hdone hr hthere
    rw [List.length_cons] at hthere
    have hmem : r ∈ l := hperm.symm.subset
      (List.mem_filter.mpr ⟨hthere 0 (Nat.succ_pos _), hr⟩)
    rw [← List.take_append_drop p l] at hmem
    rw [List.flatten_cons, List.mem_append]
    rcases List.mem_append.mp hmem with hmem | hmem
    · exact .inl hmem
    · refine .inr (ih hdone ?_ fun j hj => ?_)
      · have hlist := hd.inOrder hperm hl
        rw [← List.take_append_drop p l] at hlist
        exact (List.pairwise_append.mp hlist).2.2 x (mem_of_last hx) r hmem
      · have hthere := hthere (j + 1) (by omega)
        rwa [Nat.add_assoc, Nat.add_comm 1 j]

end Changing

end Keyset
