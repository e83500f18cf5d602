import Mathlib.Algebra.Order.Ring.Defs
import Mathlib.Tactic.Linarith
import Mathlib.Tactic.Ring
import Microjet.Lib.Machine

/-!
# Token buckets

How many are admitted in a window is bounded by a potential (`window_bound`): a quantity between
0 and `cap` that grows at most at the rate and pays 1 for each admission, as the level of a
bucket does. A quantity that grows at the rate up to `cap` and loses no more than what it pays
is short only if all of some window was used (`Reserve.window`).
-/

namespace TokenBucket

variable {F : Type} [CommRing F] [LinearOrder F] [IsStrictOrderedRing F]

/-- The tokens at the last admission. -/
structure Bucket (F : Type) where
  tokens : F
  last : F

section Bucket

/-- The tokens at a time after it. -/
def Bucket.level (rate cap : F) (b : Bucket F) (now : F) : F :=
  min cap (b.tokens + rate * (now - b.last))

/-- Whoever takes a token is admitted. -/
def Bucket.take (rate cap : F) (b : Bucket F) (now : F) : Bool × Bucket F :=
  if 1 ≤ b.level rate cap now then (true, ⟨b.level rate cap now - 1, now⟩) else (false, b)

variable {rate cap now : F} {b : Bucket F}

omit [IsStrictOrderedRing F] in
theorem level_le_cap : b.level rate cap now ≤ cap := min_le_left _ _

theorem level_nonneg (hrate : 0 ≤ rate) (hcap : 0 ≤ cap) (hb : 0 ≤ b.tokens)
    (hlast : b.last ≤ now) : 0 ≤ b.level rate cap now :=
  le_min hcap (add_nonneg hb (mul_nonneg hrate (sub_nonneg.mpr hlast)))

theorem level_le_add (hrate : 0 ≤ rate) {now' : F} (h : now ≤ now') :
    b.level rate cap now' ≤ b.level rate cap now + rate * (now' - now) := by
  have hgrow : 0 ≤ rate * (now' - now) := mul_nonneg hrate (sub_nonneg.mpr h)
  rw [Bucket.level, Bucket.level, ← min_add_add_right]
  refine le_min ((min_le_left _ _).trans (le_add_of_nonneg_right hgrow)) ?_
  refine (min_le_right _ _).trans (le_of_eq ?_)
  ring

theorem min_level_le {now' : F} :
    min cap (b.level rate cap now + rate * (now' - now)) ≤ b.level rate cap now' := by
  refine min_le_min_left cap ?_
  have hlevel : b.level rate cap now ≤ b.tokens + rate * (now - b.last) := min_le_right _ _
  calc b.level rate cap now + rate * (now' - now)
      ≤ b.tokens + rate * (now - b.last) + rate * (now' - now) := by gcongr
    _ = b.tokens + rate * (now' - b.last) := by ring

theorem level_full (hrate : 0 ≤ rate) {since : F} (h : since ≤ now) :
    (Bucket.mk cap since).level rate cap now = cap :=
  min_eq_left (le_add_of_nonneg_right (mul_nonneg hrate (sub_nonneg.mpr h)))

theorem level_idle (hb : 0 ≤ b.tokens) (h : cap ≤ rate * (now - b.last)) :
    b.level rate cap now = cap :=
  min_eq_left (h.trans (le_add_of_nonneg_left hb))

theorem take_level :
    (b.take rate cap now).2.level rate cap now + (if (b.take rate cap now).1 then 1 else 0) =
      b.level rate cap now := by
  rw [Bucket.take]
  split
  · have hle : b.level rate cap now - 1 ≤ cap :=
      (sub_le_self _ zero_le_one).trans level_le_cap
    rw [if_pos rfl]
    show min cap (b.level rate cap now - 1 + rate * (now - now)) + 1 = _
    rw [sub_self, mul_zero, add_zero, min_eq_right hle, sub_add_cancel]
  · rw [if_neg Bool.false_ne_true, add_zero]

theorem take_nonneg (hb : 0 ≤ b.tokens) : 0 ≤ (b.take rate cap now).2.tokens := by
  rw [Bucket.take]
  split
  · next h => exact sub_nonneg.mpr h
  · exact hb

omit [IsStrictOrderedRing F] in
theorem take_last (hb : b.last ≤ now) : (b.take rate cap now).2.last ≤ now := by
  rw [Bucket.take]
  split
  · exact le_refl now
  · exact hb

end Bucket

section Window

variable {σ ι ο : Type} {step : σ → ι → ο × σ} {time : ι → F} {pays : ι → ο → Bool}

/-- How many calls are admitted at a time from `a` to `e`. -/
def countIn (step : σ → ι → ο × σ) (time : ι → F) (pays : ι → ο → Bool) (a e : F)
    (s : σ) (xs : List ι) : Nat :=
  (xs.zip (Machine.outputs step s xs)).countP fun xo =>
    pays xo.1 xo.2 && decide (a ≤ time xo.1) && decide (time xo.1 ≤ e)

variable {s : σ} {a e : F}

omit [CommRing F] [IsStrictOrderedRing F] in
theorem countIn_nil : countIn step time pays a e s [] = 0 := rfl

variable {xs : List ι} {x : ι}

omit [CommRing F] [IsStrictOrderedRing F] in
theorem countIn_cons :
    countIn step time pays a e s (x :: xs) =
      countIn step time pays a e (step s x).2 xs +
        (pays x (step s x).1 && decide (a ≤ time x) && decide (time x ≤ e)).toNat := by
  rw [countIn, Machine.outputs, List.zip_cons_cons, List.countP_cons, ← countIn]
  cases pays x (step s x).1 && decide (a ≤ time x) && decide (time x ≤ e) <;> rfl

omit [CommRing F] [IsStrictOrderedRing F] in
theorem countIn_append {xs ys : List ι} :
    countIn step time pays a e s (xs ++ ys) =
      countIn step time pays a e s xs +
        countIn step time pays a e (Machine.final step s xs) ys := by
  induction xs generalizing s with
  | nil => rw [List.nil_append, countIn_nil, Nat.zero_add, Machine.final]
  | cons x xs ih =>
    rw [List.cons_append, countIn_cons, countIn_cons, ih, Machine.final]
    omega

/-- The calls come one after the other, from the time `t` on. -/
def Timed (time : ι → F) : F → List ι → Prop
  | _, [] => True
  | t, x :: xs => t ≤ time x ∧ Timed time (time x) xs

variable {t : F}

omit [CommRing F] [IsStrictOrderedRing F] in
theorem Timed.head (h : Timed time t (x :: xs)) :
    Timed time (time x) (x :: xs) := ⟨le_refl _, h.2⟩

omit [CommRing F] [IsStrictOrderedRing F] in
theorem Timed.of_le {t t' : F} (ht : t ≤ t') : ∀ {xs : List ι}, Timed time t' xs → Timed time t xs
  | [], _ => trivial
  | _ :: _, h => ⟨ht.trans h.1, h.2⟩

omit [CommRing F] [IsStrictOrderedRing F] in
theorem Timed.replicate_append (ht : t ≤ time x) (h : Timed time (time x) xs) (n : Nat) :
    Timed time t (List.replicate n x ++ xs) := by
  induction n generalizing t with
  | zero => exact h.of_le ht
  | succ n ih => exact ⟨ht, ih (le_refl _)⟩

omit [CommRing F] [IsStrictOrderedRing F] in
theorem countIn_eq_zero {a e t : F} (ht : e < t) (hxs : Timed time t xs) :
    countIn step time pays a e s xs = 0 := by
  induction xs generalizing s t with
  | nil => rfl
  | cons x xs ih =>
    obtain ⟨htx, hxs⟩ := hxs
    have hlate := ht.trans_le htx
    rw [countIn_cons, ih hlate hxs, decide_eq_false (not_le.mpr hlate), Bool.and_false]
    rfl

/-- What pays for the admissions. `I s t` is what is known about the state at the time `t`. -/
structure Potential (step : σ → ι → ο × σ) (time : ι → F) (pays : ι → ο → Bool) (rate cap : F)
    (I : σ → F → Prop) (φ : σ → F → F) : Prop where
  nonneg : ∀ s t, I s t → 0 ≤ φ s t
  le_cap : ∀ s t, I s t → φ s t ≤ cap
  grows : ∀ s t t', I s t → t ≤ t' → φ s t' ≤ φ s t + rate * (t' - t)
  wait : ∀ s t t', I s t → t ≤ t' → I s t'
  keeps : ∀ s x, I s (time x) → I (step s x).2 (time x)
  pays : ∀ s x, I s (time x) →
    φ (step s x).2 (time x) + (pays x (step s x).1).toNat ≤ φ s (time x)

variable {rate cap : F} {I : σ → F → Prop} {φ : σ → F → F}

/-- From a time in the window on: what is there, and what comes in until its end. -/
theorem Potential.count_from (h : Potential step time pays rate cap I φ) (hrate : 0 ≤ rate)
    {a e t : F} (hs : I s t) (hte : t ≤ e) (hxs : Timed time t xs) :
    (countIn step time pays a e s xs : F) ≤ φ s t + rate * (e - t) := by
  have hroom : ∀ {s t}, I s t → t ≤ e → 0 ≤ φ s t + rate * (e - t) := fun hs hte =>
    add_nonneg (h.nonneg _ _ hs) (mul_nonneg hrate (sub_nonneg.mpr hte))
  induction xs generalizing s t with
  | nil =>
    rw [countIn_nil, Nat.cast_zero]
    exact hroom hs hte
  | cons x xs ih =>
    by_cases hxe : time x ≤ e
    · obtain ⟨htx, hxs⟩ := hxs
      have hsx := h.wait s t (time x) hs htx
      have hpaid := h.pays s x hsx
      have hgrown := h.grows s t (time x) hs htx
      have hrest := ih (h.keeps s x hsx) hxe hxs
      have hone : ((pays x (step s x).1 && decide (a ≤ time x) &&
          decide (time x ≤ e)).toNat : F) ≤ (pays x (step s x).1).toNat := by
        rw [Nat.cast_le, Bool.and_assoc]
        cases pays x (step s x).1
        · exact le_refl _
        · exact Bool.toNat_le _
      have hsum : rate * (e - t) = rate * (time x - t) + rate * (e - time x) := by ring
      rw [countIn_cons, Nat.cast_add]
      linarith
    · rw [countIn_eq_zero (not_le.mp hxe) hxs.head, Nat.cast_zero]
      exact hroom hs hte

/-- In a window of length `d` there are at most `cap + rate * d` admissions. -/
theorem Potential.window_bound (h : Potential step time pays rate cap I φ) (hrate : 0 ≤ rate)
    (hcap : 0 ≤ cap) {a d t : F} (hd : 0 ≤ d) (hs : I s t) (hxs : Timed time t xs) :
    (countIn step time pays a (a + d) s xs : F) ≤ cap + rate * d := by
  have hroom : 0 ≤ cap + rate * d := add_nonneg hcap (mul_nonneg hrate hd)
  induction xs generalizing s t with
  | nil =>
    rw [countIn_nil, Nat.cast_zero]
    exact hroom
  | cons x xs ih =>
    have hsx := h.wait s t (time x) hs hxs.1
    by_cases hax : a ≤ time x
    · -- the first call of the window, or one after it
      by_cases hxe : time x ≤ a + d
      · have hle := h.count_from hrate (a := a) hsx hxe hxs.head
        have hcapped := h.le_cap s (time x) hsx
        have hshort : rate * (a + d - time x) ≤ rate * d :=
          mul_le_mul_of_nonneg_left (by linarith) hrate
        linarith
      · rw [countIn_eq_zero (not_le.mp hxe) hxs.head, Nat.cast_zero]
        exact hroom
    · rw [countIn_cons, decide_eq_false hax, Bool.and_false, Bool.false_and, Bool.toNat_false,
        Nat.add_zero]
      exact ih (h.keeps s x hsx) hxs.2

/-- What is there for the admissions, at least. -/
structure Reserve (step : σ → ι → ο × σ) (time : ι → F) (pays : ι → ο → Bool) (rate cap : F)
    (I : σ → F → Prop) (φ : σ → F → F) : Prop where
  grows : ∀ s t t', I s t → t ≤ t' → min cap (φ s t + rate * (t' - t)) ≤ φ s t'
  wait : ∀ s t t', I s t → t ≤ t' → I s t'
  keeps : ∀ s x, I s (time x) → I (step s x).2 (time x)
  spends : ∀ s x, I s (time x) →
    φ s (time x) ≤ φ (step s x).2 (time x) + (pays x (step s x).1).toNat

omit [CommRing F] [IsStrictOrderedRing F] in
theorem countIn_le {a' : F} (h : a' ≤ a) :
    countIn step time pays a e s xs ≤ countIn step time pays a' e s xs := by
  refine List.countP_mono_left fun xo _ hxo => ?_
  simp only [Bool.and_eq_true, decide_eq_true_eq] at hxo ⊢
  exact ⟨⟨hxo.1.1, h.trans hxo.1.2⟩, hxo.2⟩

/-- The reserve was full at some time of the window, or what came in since `t` was used or is
there. -/
theorem Reserve.since (h : Reserve step time pays rate cap I φ) (hs : I s t)
    (hte : t ≤ e) (hxs : Timed time t xs) (hend : ∀ x ∈ xs, time x ≤ e) :
    (∃ a, t ≤ a ∧ a ≤ e ∧ cap + rate * (e - a) ≤
      φ (Machine.final step s xs) e + countIn step time pays a e s xs) ∨
    φ s t + rate * (e - t) ≤
      φ (Machine.final step s xs) e + countIn step time pays t e s xs := by
  induction xs generalizing s t with
  | nil =>
    have hgrown := h.grows s t e hs hte
    rw [Machine.final]
    rcases min_le_iff.mp hgrown with hfull | hall
    · exact .inl ⟨e, hte, le_refl e, by rw [sub_self, mul_zero, countIn_nil]; simpa using hfull⟩
    · exact .inr (by rw [countIn_nil]; simpa using hall)
  | cons x xs ih =>
    obtain ⟨htx, hxs⟩ := hxs
    have hxe := hend x List.mem_cons_self
    have hsx := h.wait s t (time x) hs htx
    have hspent := h.spends s x hsx
    have hcount : ∀ {a : F}, a ≤ time x → countIn step time pays a e s (x :: xs) =
        countIn step time pays a e (step s x).2 xs + (pays x (step s x).1).toNat := by
      intro a ha
      rw [countIn_cons, decide_eq_true ha, decide_eq_true hxe, Bool.and_true, Bool.and_true]
    rw [Machine.final]
    rcases ih (h.keeps s x hsx) hxe hxs fun y hy => hend y (List.mem_cons_of_mem x hy) with
      ⟨a, hxa, hae, hle⟩ | hle
    · have hmore : countIn step time pays a e (step s x).2 xs ≤
          countIn step time pays a e s (x :: xs) := by
        rw [countIn_cons]
        exact Nat.le_add_right _ _
      exact .inl ⟨a, htx.trans hxa, hae, hle.trans (by gcongr)⟩
    · rcases min_le_iff.mp (h.grows s t (time x) hs htx) with hfull | hall
      · refine .inl ⟨time x, htx, hxe, ?_⟩
        rw [hcount (le_refl _), Nat.cast_add]
        linarith
      · have hearlier : (countIn step time pays (time x) e (step s x).2 xs : F) ≤
            countIn step time pays t e (step s x).2 xs := Nat.cast_le.mpr (countIn_le htx)
        have hsum : rate * (e - t) = rate * (time x - t) + rate * (e - time x) := by ring
        refine .inr ?_
        rw [hcount htx, Nat.cast_add]
        linarith

/-- In some window that ends at `e`, all that it can pay for was used or is still there. -/
theorem Reserve.window (h : Reserve step time pays rate cap I φ) (hs : I s t)
    (hfull : cap ≤ φ s t) (hte : t ≤ e) (hxs : Timed time t xs) (hend : ∀ x ∈ xs, time x ≤ e) :
    ∃ a ≤ e, cap + rate * (e - a) ≤
      φ (Machine.final step s xs) e + countIn step time pays a e s xs := by
  rcases h.since hs hte hxs hend with ⟨a, -, hae, hle⟩ | hle
  · exact ⟨a, hae, hle⟩
  · exact ⟨t, hte, by linarith⟩

end Window

end TokenBucket
