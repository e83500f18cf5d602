import Mathlib.Data.List.Nodup

/-!
# At most once

A key is used only while it is pending, a used key is pending no more, and no key becomes
pending again. A step uses nothing (`mono`) or one pending key (`use`).
-/

namespace Once

variable {K : Type} {P Q : K → Prop} {used : List K} {k : K}

/-- The keys used so far are distinct and none of them is pending. -/
def Spent (P : K → Prop) (used : List K) : Prop :=
  used.Nodup ∧ ∀ k ∈ used, ¬P k

theorem spent_nil : Spent P [] := ⟨.nil, nofun⟩

theorem Spent.mono (h : Spent P used) (hle : ∀ j, Q j → P j) : Spent Q used :=
  ⟨h.1, fun j hj hq => h.2 j hj (hle j hq)⟩

theorem Spent.use (h : Spent P used) (hk : P k) (hle : ∀ j, Q j → P j) (hnot : ¬Q k) :
    Spent Q (k :: used) := by
  refine ⟨List.nodup_cons.mpr ⟨fun hmem => h.2 k hmem hk, h.1⟩, fun j hj hq => ?_⟩
  rcases List.mem_cons.mp hj with rfl | hj
  · exact hnot hq
  · exact h.2 j hj (hle j hq)

end Once
