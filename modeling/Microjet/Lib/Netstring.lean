import Mathlib.Data.List.Basic
import Mathlib.Data.List.TakeWhile

/-!
# Length-prefixed parts

Whatever the parts hold, a text of several can be read in one way only: the first separator
ends the first length.
-/

namespace Netstring

/-- Numerals that can be read back and do not use the separator. -/
structure Numerals (α : Type) where
  sep : α
  num : Nat → List α
  value : List α → Nat
  value_num : ∀ n, value (num n) = n
  sep_notMem : ∀ n, sep ∉ num n

variable {α : Type} (N : Numerals α)

/-- A part with its length in front. -/
def frame (part : List α) : List α := N.num part.length ++ N.sep :: part

section Read

variable [DecidableEq α]

/-- The first part, and the rest. -/
def unframe (text : List α) : Option (List α × List α) :=
  match text.dropWhile (· ≠ N.sep) with
  | [] => none
  | _ :: rest =>
    let n := N.value (text.takeWhile (· ≠ N.sep))
    if n ≤ rest.length then some (rest.take n, rest.drop n) else none

theorem unframe_frame (part rest : List α) :
    unframe N (frame N part ++ rest) = some (part, rest) := by
  have hnum : ∀ a ∈ N.num part.length, decide (a ≠ N.sep) = true := by
    intro a ha
    simpa using fun h : a = N.sep => N.sep_notMem part.length (h ▸ ha)
  have htext : frame N part ++ rest = N.num part.length ++ N.sep :: (part ++ rest) := by
    simp [frame]
  have hdrop : (frame N part ++ rest).dropWhile (· ≠ N.sep) = N.sep :: (part ++ rest) := by
    rw [htext, List.dropWhile_append_of_pos hnum, List.dropWhile_cons_of_neg (by simp)]
  have htake : (frame N part ++ rest).takeWhile (· ≠ N.sep) = N.num part.length := by
    rw [htext, List.takeWhile_append_of_pos hnum, List.takeWhile_cons_of_neg (by simp),
      List.append_nil]
  simp only [unframe, hdrop, htake, N.value_num]
  simp

end Read

theorem frame_append_inj {a b x y : List α} (h : frame N a ++ x = frame N b ++ y) :
    a = b ∧ x = y := by
  classical
  have ha := unframe_frame N a x
  rw [h, unframe_frame] at ha
  simpa [eq_comm] using ha

/-- Several parts. -/
def frames (parts : List (List α)) : List α := parts.flatMap (frame N)

theorem frames_inj {as bs : List (List α)} (hlen : as.length = bs.length)
    (h : frames N as = frames N bs) : as = bs := by
  induction as generalizing bs with
  | nil => exact (List.length_eq_zero_iff.mp hlen.symm).symm
  | cons a as ih =>
    cases bs with
    | nil => simp at hlen
    | cons b bs =>
      obtain ⟨hab, hrest⟩ := frame_append_inj N (x := frames N as) (y := frames N bs) h
      rw [hab, ih (by simpa using hlen) hrest]

end Netstring
