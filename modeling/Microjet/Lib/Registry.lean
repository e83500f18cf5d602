import Mathlib.Data.List.Nodup

/-!
# Lists of numbered records

Nothing is reordered, so two registries that hold the same records under two descriptions stay
in step (`get_map`, `modify_map`, `remove_map`), and taking out one number does not disturb
another (`remove_modify`, `remove_remove`).
-/

namespace Registry

variable {α β : Type}

/-- The record with a number. -/
def get (id : α → Nat) (l : List α) (i : Nat) : Option α := l.find? fun a => id a = i

/-- It is changed where it stands. -/
def modify (id : α → Nat) (l : List α) (i : Nat) (f : α → α) : List α :=
  l.map fun a => if id a = i then f a else a

/-- It is taken out. -/
def remove (id : α → Nat) (l : List α) (i : Nat) : List α := l.filter fun a => id a ≠ i

/-- No number is there twice. -/
def Distinct (id : α → Nat) (l : List α) : Prop := (l.map id).Nodup

variable {id : α → Nat} {id' : β → Nat} {l : List α} {a b : α} {i j : Nat} {f : α → α}

theorem get_mem (h : get id l i = some a) : a ∈ l := List.mem_of_find?_eq_some h

theorem get_id (h : get id l i = some a) : id a = i := by
  have := List.find?_some h
  simpa using this

theorem get_eq_none : get id l i = none ↔ ∀ a ∈ l, id a ≠ i := by
  simp [get, List.find?_eq_none]

theorem Distinct.eq (hd : Distinct id l) (ha : a ∈ l) (hb : b ∈ l) (h : id a = id b) :
    a = b := List.inj_on_of_nodup_map hd ha hb h

theorem Distinct.get_of_mem (hd : Distinct id l) (ha : a ∈ l) :
    Registry.get id l (id a) = some a := by
  cases h : Registry.get id l (id a) with
  | none => exact absurd rfl (get_eq_none.mp h a ha)
  | some b => rw [hd.eq (get_mem h) ha (get_id h)]

theorem Distinct.cons (hd : Distinct id l) (h : Registry.get id l (id a) = none) :
    Distinct id (a :: l) := by
  refine List.nodup_cons.mpr ⟨fun hmem => ?_, hd⟩
  obtain ⟨b, hb, hid⟩ := List.mem_map.mp hmem
  exact get_eq_none.mp h b hb hid

theorem Distinct.modify (hd : Distinct id l) (hf : ∀ a, id (f a) = id a) :
    Distinct id (modify id l i f) := by
  have hmap : (Registry.modify id l i f).map id = l.map id := by
    rw [Registry.modify, List.map_map]
    refine List.map_congr_left fun a _ => ?_
    show id (if id a = i then f a else a) = id a
    split
    · exact hf a
    · rfl
  rw [Distinct, hmap]
  exact hd

theorem Distinct.remove (hd : Distinct id l) : Distinct id (remove id l i) :=
  List.Nodup.sublist (List.filter_sublist.map id) hd

theorem mem_modify :
    b ∈ modify id l i f ↔ (b ∈ l ∧ id b ≠ i) ∨ ∃ a ∈ l, id a = i ∧ b = f a := by
  rw [modify, List.mem_map]
  constructor
  · intro h
    obtain ⟨a, ha, hb⟩ := h
    split at hb
    · next hi => exact .inr ⟨a, ha, hi, hb.symm⟩
    · next hi => exact .inl ⟨hb ▸ ha, hb ▸ hi⟩
  · intro h
    obtain ⟨hb, hi⟩ | ⟨a, ha, hi, hb⟩ := h
    · exact ⟨b, hb, if_neg hi⟩
    · exact ⟨a, ha, by rw [if_pos hi, hb]⟩

theorem mem_remove : b ∈ remove id l i ↔ b ∈ l ∧ id b ≠ i := by
  simp [remove]

section Count

variable {p : α → Bool}

theorem Distinct.split (hd : Distinct id l) (h : Registry.get id l i = some a) :
    ∃ as bs, l = as ++ a :: bs ∧ (∀ b ∈ as, id b ≠ i) ∧ ∀ b ∈ bs, id b ≠ i := by
  obtain ⟨as, bs, hl⟩ := List.append_of_mem (get_mem h)
  refine ⟨as, bs, hl, ?_, ?_⟩
  · intro b hb hid
    rw [Distinct, hl, List.map_append, List.map_cons, List.nodup_append] at hd
    exact hd.2.2 (id b) (List.mem_map_of_mem hb) (id a) List.mem_cons_self
      (hid.trans (get_id h).symm)
  · intro b hb hid
    rw [Distinct, hl, List.map_append, List.map_cons, List.nodup_append,
      List.nodup_cons] at hd
    exact hd.2.1.1 ((hid.trans (get_id h).symm) ▸ List.mem_map_of_mem hb)

theorem Distinct.modify_eq (hd : Distinct id l) (h : Registry.get id l i = some a) :
    ∃ as bs, l = as ++ a :: bs ∧ Registry.modify id l i f = as ++ f a :: bs ∧
      Registry.remove id l i = as ++ bs := by
  obtain ⟨as, bs, hl, has, hbs⟩ := hd.split h
  have hi := get_id h
  have hkeep : ∀ l : List α, (∀ b ∈ l, id b ≠ i) →
      (l.map fun a => if id a = i then f a else a) = l := by
    intro l hl
    refine (List.map_congr_left fun b hb => ?_).trans (List.map_id l)
    exact if_neg (hl b hb)
  have hall : ∀ l : List α, (∀ b ∈ l, id b ≠ i) → l.filter (fun a => id a ≠ i) = l := by
    intro l hl
    exact List.filter_eq_self.mpr fun b hb => by simpa using hl b hb
  refine ⟨as, bs, hl, ?_, ?_⟩
  · rw [Registry.modify, hl, List.map_append, List.map_cons, hkeep as has, hkeep bs hbs,
      if_pos hi]
  · rw [Registry.remove, hl, List.filter_append, List.filter_cons_of_neg (by simp [hi]),
      hall as has, hall bs hbs]

theorem Distinct.countP_modify (hd : Distinct id l) (h : Registry.get id l i = some a) :
    (Registry.modify id l i f).countP p + (if p a then 1 else 0) =
      l.countP p + if p (f a) then 1 else 0 := by
  obtain ⟨as, bs, hl, hmod, _⟩ := hd.modify_eq (f := f) h
  rw [hmod, hl]
  simp only [List.countP_append, List.countP_cons]
  omega

theorem Distinct.countP_remove (hd : Distinct id l) (h : Registry.get id l i = some a) :
    (Registry.remove id l i).countP p + (if p a then 1 else 0) = l.countP p := by
  obtain ⟨as, bs, hl, _, hrem⟩ := hd.modify_eq (f := fun a => a) h
  rw [hrem, hl]
  simp only [List.countP_append, List.countP_cons]
  omega

end Count

/-! ### Two descriptions of one registry -/

section Map

variable {g : α → β}

theorem get_map (hg : ∀ a, id' (g a) = id a) :
    get id' (l.map g) i = (get id l i).map g := by
  rw [get, get, List.find?_map]
  congr 2
  funext a
  show decide (id' (g a) = i) = _
  rw [hg]

theorem modify_map {f' : β → β} (hg : ∀ a, id' (g a) = id a)
    (hf : ∀ a, f' (g a) = g (f a)) :
    modify id' (l.map g) i f' = (modify id l i f).map g := by
  rw [modify, modify, List.map_map, List.map_map]
  refine List.map_congr_left fun a _ => ?_
  show (if id' (g a) = i then f' (g a) else g a) = g (if id a = i then f a else a)
  rw [hg, hf]
  split <;> rfl

theorem remove_map (hg : ∀ a, id' (g a) = id a) :
    remove id' (l.map g) i = (remove id l i).map g := by
  rw [remove, remove, List.filter_map]
  congr 2
  funext a
  show decide (id' (g a) ≠ i) = _
  rw [hg]

end Map

/-! ### Taking one number out -/

theorem get_remove (h : i ≠ j) : get id (remove id l j) i = get id l i := by
  rw [get, remove, List.find?_filter]
  congr 1
  funext a
  by_cases ha : id a = i
  · simp [ha, h]
  · simp [ha]

theorem remove_modify (hf : ∀ a, id (f a) = id a) :
    remove id (modify id l i f) j = modify id (remove id l j) i f := by
  rw [remove, modify, modify, remove, List.filter_map]
  congr 2
  funext a
  show decide (id (if id a = i then f a else a) ≠ j) = decide (id a ≠ j)
  split
  · rw [hf]
  · rfl

theorem remove_remove : remove id (remove id l i) j = remove id (remove id l j) i := by
  rw [remove, remove, remove, remove, List.filter_comm]

theorem remove_of_get_none (h : get id l i = none) : remove id l i = l :=
  List.filter_eq_self.mpr fun a ha => by simpa using get_eq_none.mp h a ha

theorem remove_self : remove id (remove id l i) i = remove id l i := by
  rw [remove, remove, List.filter_filter]
  congr 1
  funext a
  simp

theorem get_modify_map (hf : ∀ a, id (f a) = id a) :
    get id (modify id l j f) i = (get id l i).map fun a => if id a = j then f a else a := by
  rw [get, modify, List.find?_map, get]
  congr 2
  funext a
  show decide (id (if id a = j then f a else a) = i) = decide (id a = i)
  split
  · rw [hf]
  · rfl

theorem get_modify_self (hf : ∀ a, id (f a) = id a) :
    get id (modify id l i f) i = (get id l i).map f := by
  rw [get_modify_map hf]
  cases h : get id l i with
  | none => rfl
  | some a => exact congrArg some (if_pos (get_id h))

theorem get_modify (hf : ∀ a, id (f a) = id a) (h : i ≠ j) :
    get id (modify id l j f) i = get id l i := by
  rw [get_modify_map hf]
  cases hget : get id l i with
  | none => rfl
  | some a => exact congrArg some (if_neg fun hj => h ((get_id hget).symm.trans hj))

theorem get_cons (h : id a ≠ i) : get id (a :: l) i = get id l i := by
  rw [get, List.find?_cons_of_neg (by simpa using h), ← get]

end Registry
