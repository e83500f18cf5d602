import Microjet.Limitx.Pool

/-!
# The limiter is a pool

Forgetting the slots turns each step of the limiter into the step of the pool (`step_pool`).
This rests on `Counted`: the reference count of a key's slot is the number of calls at that key,
so an entry is deleted exactly when nobody is left who could still be waiting on its channel.
-/

namespace Microjet.Limitx

open Registry Trace
open Function (update update_self update_of_ne)

variable {K : Type} [DecidableEq K]

/-- The stay of a call. -/
def Ticket.stay (t : Ticket K) : Stay K := ⟨t.id, t.key, t.place⟩

/-- The pool of a limiter. -/
def Limiter.pool (s : Limiter K) : Pool K := ⟨s.live.map Ticket.stay, s.released⟩

/-! ### Counting references -/

namespace Limiter

variable {s s' : Limiter K}

/-- The tickets of the key. -/
def refs (s : Limiter K) (key : K) : Nat := s.live.countP fun t => t.key = key

/-- Those that hold a permit. -/
def held (s : Limiter K) (key : K) : Nat :=
  s.live.countP fun t => t.key = key ∧ t.place = .holding

/-- The counts of every slot are those of its calls. -/
structure Counted (s : Limiter K) : Prop where
  distinct : Distinct Ticket.id s.live
  slot : ∀ t ∈ s.live, s.keyed.slots t.key = some t.slot
  old : ∀ key i, s.keyed.slots key = some i → i < s.keyed.next
  own : ∀ key key' i, s.keyed.slots key = some i → s.keyed.slots key' = some i →
    key = key'
  count : ∀ key i, s.keyed.slots key = some i →
    0 < s.refs key ∧ s.keyed.heap i = ⟨s.held key, s.refs key⟩

theorem Counted.refs_pos_iff (hs : s.Counted) (key : K) :
    0 < s.refs key ↔ (s.keyed.slots key).isSome := by
  constructor
  · intro hpos
    obtain ⟨t, ht, hkey⟩ := List.countP_pos_iff.mp hpos
    have hslot := hs.slot t ht
    rw [of_decide_eq_true hkey] at hslot
    rw [hslot]
    rfl
  · intro hsome
    obtain ⟨i, hi⟩ := Option.isSome_iff_exists.mp hsome
    exact (hs.count key i hi).1

theorem start_counted (perKey : Int) : (start perKey : Limiter K).Counted where
  distinct := List.nodup_nil
  slot := fun _ h => by simp [start] at h
  old := fun _ _ h => by simp [start, newKeyed] at h
  own := fun _ _ _ h => by simp [start, newKeyed] at h
  count := fun _ _ h => by simp [start, newKeyed] at h

theorem held_le_refs (s : Limiter K) (key : K) : s.held key ≤ s.refs key :=
  List.countP_mono_left fun t _ h => by
    rw [decide_eq_true_eq] at h ⊢
    exact h.1

variable {id : Nat}

theorem at?_spec {K : Type} {s : Limiter K} {place : Place} {t : Ticket K}
    (h : s.at? id place = some t) :
    get Ticket.id s.live id = some t ∧ t.place = place := by
  obtain ⟨hget, hplace⟩ := Option.filter_eq_some_iff.mp h
  exact ⟨hget, of_decide_eq_true hplace⟩

/-- The steps, as a relation. -/
inductive Moves (s : Limiter K) : Event K → Limiter K → Prop
  | refuse (id : Nat) (key : K) : Moves s (.refuse id key) s
  | reserve (id : Nat) (key : K) (hid : get Ticket.id s.live id = none) :
      Moves s (.reserve id key)
        (s.arrive id key (s.keyed.reserve key).1 (s.keyed.reserve key).2)
  | take (id : Nat) {t : Ticket K} {l : Keyed K} (hat : s.at? id .waiting = some t)
      (hl : s.keyed.send t.slot = some l) : Moves s (.take id) (s.move id .holding l)
  | cancel (id : Nat) {t : Ticket K} (hat : s.at? id .waiting = some t) :
      Moves s (.cancel id) (s.leave id (s.keyed.release t.key))
  | again (id : Nat) : Moves s (.release id) s
  | release (id : Nat) {t : Ticket K} {l : Keyed K} (hat : s.at? id .holding = some t)
      (hl : s.keyed.receive t.slot = some l) : Moves s (.release id) (s.move id .giving l)
  | drop (id : Nat) {t : Ticket K} (hat : s.at? id .giving = some t) :
      Moves s (.drop id)
        { s.leave id (s.keyed.release t.key) with released := id :: s.released }

theorem moves {e : Event K} (h : s.step e = some s') : s.Moves e s' := by
  cases e with
  | refuse id key =>
    cases h
    exact .refuse id key
  | reserve id key =>
    obtain ⟨hfree, heq⟩ := Option.ite_none_left_eq_some.mp h
    cases heq
    exact .reserve id key (by simpa using (not_or.mp hfree).1)
  | take id =>
    obtain ⟨t, hat, hsend⟩ := Option.bind_eq_some_iff.mp h
    obtain ⟨l, hl, rfl⟩ := Option.map_eq_some_iff.mp hsend
    exact .take id hat hl
  | cancel id =>
    obtain ⟨t, hat, rfl⟩ := Option.map_eq_some_iff.mp h
    exact .cancel id hat
  | release id =>
    simp only [step] at h
    split at h
    · cases h
      exact .again id
    · obtain ⟨t, hat, hrecv⟩ := Option.bind_eq_some_iff.mp h
      obtain ⟨l, hl, rfl⟩ := Option.map_eq_some_iff.mp hrecv
      exact .release id hat hl
  | drop id =>
    obtain ⟨t, hat, rfl⟩ := Option.map_eq_some_iff.mp h
    exact .drop id hat

variable {t : Ticket K}

theorem held_move (hs : s.Counted) (ht : get Ticket.id s.live id = some t) (place : Place)
    (l : Keyed K) (key : K) :
    (s.move id place l).held key + (if t.key = key then t.place.share else 0) =
      s.held key + if t.key = key then place.share else 0 := by
  have h := hs.distinct.countP_modify (f := fun t => { t with place })
    (p := fun t => t.key = key ∧ t.place = .holding) ht
  simp only [decide_eq_true_eq, ite_and, ← Place.share_eq] at h
  exact h

theorem refs_move (hs : s.Counted) (ht : get Ticket.id s.live id = some t) (place : Place)
    (l : Keyed K) (key : K) :
    (s.move id place l).refs key = s.refs key := by
  have h := hs.distinct.countP_modify (f := fun t => { t with place })
    (p := fun t => t.key = key) ht
  exact Nat.add_right_cancel h

theorem refs_arrive (s : Limiter K) (id : Nat) (key : K) (i : Nat) (l : Keyed K) (k : K) :
    (s.arrive id key i l).refs k = s.refs k + if key = k then 1 else 0 := by
  simp [refs, arrive, List.countP_cons]

theorem held_arrive (s : Limiter K) (id : Nat) (key : K) (i : Nat) (l : Keyed K) (k : K) :
    (s.arrive id key i l).held k = s.held k := by
  simp [held, arrive]

theorem Counted.reserve_known (hs : s.Counted) {id i : Nat} {key : K}
    (hid : get Ticket.id s.live id = none) (hslot : s.keyed.slots key = some i) :
    (s.arrive id key (s.keyed.reserve key).1 (s.keyed.reserve key).2).Counted := by
  have hres : s.keyed.reserve key = (i, { s.keyed with
      heap := update s.keyed.heap i
        { s.keyed.heap i with refs := (s.keyed.heap i).refs + 1 } }) := by
    rw [Keyed.reserve, hslot]
  rw [hres]
  exact {
    distinct := hs.distinct.cons hid
    slot := fun t ht => by
      cases List.mem_cons.mp ht with
      | inl hnew =>
        rw [hnew]
        exact hslot
      | inr hold => exact hs.slot t hold
    old := hs.old
    own := hs.own
    count := fun k j hj => by
      rw [refs_arrive, held_arrive]
      have hcount := hs.count k j hj
      by_cases hk : key = k
      · subst hk
        have hij : i = j := Option.some.inj (hslot.symm.trans hj)
        subst hij
        refine ⟨by omega, (update_self _ _ _).trans ?_⟩
        simp [hcount.2]
      · have hij : j ≠ i := fun h => hk (hs.own key k i hslot (h ▸ hj))
        rw [if_neg hk]
        exact ⟨hcount.1, (update_of_ne hij _ _).trans hcount.2⟩ }

theorem Counted.reserve_new (hs : s.Counted) {key : K} (hid : get Ticket.id s.live id = none)
    (hslot : s.keyed.slots key = none) :
    (s.arrive id key (s.keyed.reserve key).1 (s.keyed.reserve key).2).Counted := by
  have hres : s.keyed.reserve key = (s.keyed.next, { s.keyed with
      slots := update s.keyed.slots key (some s.keyed.next)
      heap := update s.keyed.heap s.keyed.next ⟨0, 1⟩
      next := s.keyed.next + 1 }) := by
    rw [Keyed.reserve, hslot]
  have hnone : s.refs key = 0 := by
    have hiff := hs.refs_pos_iff key
    rw [hslot] at hiff
    simpa using hiff
  have hheld : s.held key = 0 := by
    have := s.held_le_refs key
    omega
  -- an entry of the new map is the new one, or an old one of another key
  have hcases : ∀ k j, update s.keyed.slots key (some s.keyed.next) k = some j →
      (key = k ∧ j = s.keyed.next) ∨ (key ≠ k ∧ s.keyed.slots k = some j) := by
    intro k j hj
    by_cases hk : key = k
    · subst hk
      rw [update_self] at hj
      exact .inl ⟨rfl, (Option.some.inj hj).symm⟩
    · rw [update_of_ne (Ne.symm hk)] at hj
      exact .inr ⟨hk, hj⟩
  rw [hres]
  exact {
    distinct := hs.distinct.cons hid
    slot := fun t ht => by
      cases List.mem_cons.mp ht with
      | inl hnew =>
        rw [hnew]
        exact update_self _ _ _
      | inr hold =>
        have hold' := hs.slot t hold
        have hne : t.key ≠ key := by
          intro h
          rw [h, hslot] at hold'
          simp at hold'
        exact (update_of_ne hne _ _).trans hold'
    old := fun k j hj => by
      show j < s.keyed.next + 1
      obtain ⟨_, hnew⟩ | ⟨_, hold⟩ := hcases k j hj
      · omega
      · have := hs.old k j hold
        omega
    own := fun k k' j hj hj' => by
      obtain ⟨hk, hnew⟩ | ⟨_, hold⟩ := hcases k j hj
      · obtain ⟨hk', _⟩ | ⟨_, hold'⟩ := hcases k' j hj'
        · exact hk.symm.trans hk'
        · have := hs.old k' j hold'
          omega
      · obtain ⟨_, hnew'⟩ | ⟨_, hold'⟩ := hcases k' j hj'
        · have := hs.old k j hold
          omega
        · exact hs.own k k' j hold hold'
    count := fun k j hj => by
      rw [refs_arrive, held_arrive]
      obtain ⟨hk, hnew⟩ | ⟨hk, hold⟩ := hcases k j hj
      · subst hk hnew
        rw [if_pos rfl, hnone, hheld]
        exact ⟨by omega, update_self _ _ _⟩
      · have hcount := hs.count k j hold
        have hne : j ≠ s.keyed.next := by
          have := hs.old k j hold
          omega
        rw [if_neg hk]
        exact ⟨hcount.1, (update_of_ne hne _ _).trans hcount.2⟩ }

theorem Counted.move (hs : s.Counted) {place : Place} {n : Nat}
    (ht : get Ticket.id s.live id = some t)
    (hn : (s.keyed.heap t.slot).sem + place.share = n + t.place.share) :
    (s.move id place { s.keyed with
      heap := update s.keyed.heap t.slot
        { s.keyed.heap t.slot with sem := n } }).Counted := by
  have hslot := hs.slot t (get_mem ht)
  exact {
    distinct := hs.distinct.modify fun _ => rfl
    slot := fun u hu => by
      obtain ⟨hold, _⟩ | ⟨v, hv, _, huv⟩ := mem_modify.mp hu
      · exact hs.slot u hold
      · rw [huv]
        exact hs.slot v hv
    old := hs.old
    own := hs.own
    count := fun k j hj => by
      have hcount := hs.count k j hj
      have hheld := held_move hs ht place s.keyed k
      rw [refs_move hs ht]
      refine ⟨hcount.1, ?_⟩
      show update s.keyed.heap t.slot _ j =
        ⟨(s.move id place s.keyed).held k, s.refs k⟩
      by_cases hk : t.key = k
      · subst hk
        have hij : t.slot = j := Option.some.inj (hslot.symm.trans hj)
        subst hij
        rw [hcount.2] at hn
        rw [if_pos rfl, if_pos rfl] at hheld
        refine (update_self _ _ _).trans ?_
        rw [hcount.2, Slot.mk.injEq]
        refine ⟨?_, rfl⟩
        have hn' : s.held t.key + place.share = n + t.place.share := hn
        omega
      · have hij : j ≠ t.slot := fun h => hk (hs.own t.key k j (h ▸ hslot) hj)
        rw [if_neg hk, if_neg hk, Nat.add_zero, Nat.add_zero] at hheld
        rw [hheld]
        exact (update_of_ne hij _ _).trans hcount.2 }

theorem refs_leave (hs : s.Counted) (ht : get Ticket.id s.live id = some t) (l : Keyed K)
    (key : K) :
    (s.leave id l).refs key + (if t.key = key then 1 else 0) = s.refs key := by
  have h := hs.distinct.countP_remove (p := fun t => t.key = key) ht
  simp only [decide_eq_true_eq] at h
  exact h

theorem held_leave (hs : s.Counted) (ht : get Ticket.id s.live id = some t)
    (hshare : t.place.share = 0) (l : Keyed K) (key : K) :
    (s.leave id l).held key = s.held key := by
  have h := hs.distinct.countP_remove (p := fun t => t.key = key ∧ t.place = .holding) ht
  simp only [decide_eq_true_eq, ite_and, ← Place.share_eq, hshare, ite_self] at h
  exact h

theorem Counted.leave (hs : s.Counted) (ht : get Ticket.id s.live id = some t)
    (hshare : t.place.share = 0) :
    (s.leave id (s.keyed.release t.key)).Counted := by
  have hslot := hs.slot t (get_mem ht)
  have hcount := hs.count t.key t.slot hslot
  have hdist : Distinct Ticket.id (s.leave id (s.keyed.release t.key)).live :=
    hs.distinct.remove
  have hrefs := fun k => refs_leave hs ht (s.keyed.release t.key) k
  have hheld := fun k => held_leave hs ht hshare (s.keyed.release t.key) k
  have hrel : s.keyed.release t.key = { s.keyed with
      heap := update s.keyed.heap t.slot ⟨s.held t.key, s.refs t.key - 1⟩
      slots := if (s.refs t.key : Int) - 1 ≤ 0 then update s.keyed.slots t.key none
        else s.keyed.slots } := by
    simp only [Keyed.release, hslot, hcount.2]
  have hheap : (s.keyed.release t.key).heap =
      update s.keyed.heap t.slot ⟨s.held t.key, s.refs t.key - 1⟩ := by rw [hrel]
  -- an entry that is left is an old one, and its key still has calls
  have hcases : ∀ k j, (s.keyed.release t.key).slots k = some j →
      s.keyed.slots k = some j ∧ (t.key = k → 2 ≤ s.refs k) := by
    intro k j hj
    rw [hrel] at hj
    dsimp only at hj
    split at hj
    · by_cases hk : t.key = k
      · subst hk
        rw [update_self] at hj
        simp at hj
      · rw [update_of_ne (Ne.symm hk)] at hj
        exact ⟨hj, fun h => absurd h hk⟩
    · next hlast =>
        refine ⟨hj, fun hk => ?_⟩
        subst hk
        omega
  exact {
    distinct := hdist
    slot := fun u hu => by
      obtain ⟨hmem, hid⟩ := mem_remove.mp hu
      have hu' := hs.slot u hmem
      show (s.keyed.release t.key).slots u.key = some u.slot
      rw [hrel]
      show (if (s.refs t.key : Int) - 1 ≤ 0 then
        update s.keyed.slots t.key none else s.keyed.slots) u.key = _
      by_cases hk : t.key = u.key
      · -- `u` itself is counted, so this was not the last reference
        have hpos : 0 < (s.leave id (s.keyed.release t.key)).refs t.key :=
          List.countP_pos_iff.mpr ⟨u, hu, decide_eq_true hk.symm⟩
        have := hrefs t.key
        rw [if_pos rfl] at this
        rw [if_neg (by omega)]
        exact hu'
      · split
        · exact (update_of_ne (Ne.symm hk) _ _).trans hu'
        · exact hu'
    old := fun k j hj => by
      have hold := hs.old k j (hcases k j hj).1
      show j < (s.keyed.release t.key).next
      rw [hrel]
      exact hold
    own := fun k k' j hj hj' =>
      hs.own k k' j (hcases k j hj).1 (hcases k' j hj').1
    count := fun k j hj => by
      obtain ⟨hold, htwo⟩ := hcases k j hj
      have hcountk := hs.count k j hold
      have hrefsk := hrefs k
      rw [hheld k]
      show _ ∧ (s.keyed.release t.key).heap j = _
      rw [hheap]
      by_cases hk : t.key = k
      · subst hk
        have hij : t.slot = j := Option.some.inj (hslot.symm.trans hold)
        subst hij
        rw [if_pos rfl] at hrefsk
        have := htwo rfl
        rw [update_self, Slot.mk.injEq]
        exact ⟨by omega, rfl, by omega⟩
      · have hij : j ≠ t.slot := fun h => hk (hs.own t.key k j (h ▸ hslot) hold)
        rw [if_neg hk, Nat.add_zero] at hrefsk
        rw [hrefsk, update_of_ne hij]
        exact hcountk }

theorem Counted.step (hs : s.Counted) {e : Event K} (h : s.step e = some s') :
    s'.Counted := by
  cases moves h with
  | refuse => exact hs
  | again => exact hs
  | reserve id key hid =>
    cases hslot : s.keyed.slots key with
    | some i => exact hs.reserve_known hid hslot
    | none => exact hs.reserve_new hid hslot
  | take id hat hl =>
    obtain ⟨ht, hplace⟩ := at?_spec hat
    obtain ⟨_, heq⟩ := Option.ite_none_right_eq_some.mp hl
    cases heq
    exact hs.move ht (by simp [hplace, Place.share])
  | cancel id hat =>
    obtain ⟨ht, hplace⟩ := at?_spec hat
    exact hs.leave ht (by simp [hplace, Place.share])
  | release id hat hl =>
    obtain ⟨ht, hplace⟩ := at?_spec hat
    obtain ⟨hpos, heq⟩ := Option.ite_none_right_eq_some.mp hl
    cases heq
    exact hs.move ht (by simp only [hplace, Place.share]; omega)
  | drop id hat =>
    obtain ⟨ht, hplace⟩ := at?_spec hat
    have hleave := hs.leave ht (by simp [hplace, Place.share])
    exact ⟨hleave.distinct, hleave.slot, hleave.old, hleave.own, hleave.count⟩

/-! ### The limiter is a pool -/

theorem at?_pool {K : Type} (s : Limiter K) (id : Nat) (place : Place) :
    s.pool.at? id place = (s.at? id place).map Ticket.stay := by
  have hget : get Stay.id s.pool.stays id = (get Ticket.id s.live id).map Ticket.stay :=
    get_map fun _ => rfl
  rw [Pool.at?, Limiter.at?, hget]
  cases get Ticket.id s.live id with
  | none => rfl
  | some t =>
    show (some t.stay).filter _ = ((some t).filter _).map Ticket.stay
    by_cases h : t.place = place
    · simp [Option.filter, Ticket.stay, h]
    · simp [Option.filter, Ticket.stay, h]

theorem holding_pool (s : Limiter K) (key : K) : s.pool.holding key = s.held key :=
  List.countP_map

theorem pool_move {K : Type} (s : Limiter K) (id : Nat) (place : Place) (l : Keyed K) :
    (s.move id place l).pool = s.pool.move id place := by
  have h : modify Stay.id (s.live.map Ticket.stay) id (fun t => { t with place }) =
      (modify Ticket.id s.live id fun t => { t with place }).map Ticket.stay :=
    modify_map (fun _ => rfl) fun _ => rfl
  rw [pool, Pool.move]
  exact congrArg (Pool.mk · s.released) h.symm

theorem pool_leave {K : Type} (s : Limiter K) (id : Nat) (l : Keyed K) :
    (s.leave id l).live.map Ticket.stay = remove Stay.id s.pool.stays id := by
  have h : remove Stay.id (s.live.map Ticket.stay) id =
      (remove Ticket.id s.live id).map Ticket.stay := remove_map fun _ => rfl
  exact h.symm

/-- Forgetting the slots turns the limiter's steps into the pool's. -/
theorem step_pool (hs : s.Counted) (e : Event K) :
    (s.step e).map pool = s.pool.step s.keyed.perKey e := by
  cases e with
  | refuse id key => rfl
  | reserve id key =>
    have hget : get Stay.id s.pool.stays id = (get Ticket.id s.live id).map Ticket.stay :=
      get_map fun _ => rfl
    have hreleased : s.pool.released = s.released := rfl
    simp only [Limiter.step, Pool.step, hget, hreleased, Option.isSome_map]
    by_cases hused : (get Ticket.id s.live id).isSome ∨ id ∈ s.released
    · rw [if_pos hused, if_pos hused]
      rfl
    · rw [if_neg hused, if_neg hused]
      rfl
  | take id =>
    rw [Limiter.step, Pool.step, at?_pool]
    cases hat : s.at? id .waiting with
    | none => rfl
    | some t =>
      obtain ⟨ht, _⟩ := at?_spec hat
      -- the channel's length is the number of stays that hold a place under the key
      have hsem : (s.keyed.heap t.slot).sem = s.pool.holding t.stay.key := by
        rw [holding_pool, (hs.count t.key t.slot (hs.slot t (get_mem ht))).2]
        rfl
      show Option.map pool ((s.keyed.send t.slot).map (s.move id .holding)) =
        if s.pool.holding t.stay.key < s.keyed.perKey then some (s.pool.move id .holding)
        else none
      rw [Keyed.send, hsem]
      split
      · exact congrArg some (pool_move s id .holding _)
      · rfl
  | cancel id =>
    rw [Limiter.step, Pool.step, at?_pool]
    cases s.at? id .waiting with
    | none => rfl
    | some t => exact congrArg (fun l => some (Pool.mk l s.released)) (pool_leave s id _)
  | release id =>
    have hreleased : s.pool.released = s.released := rfl
    simp only [Limiter.step, Pool.step, hreleased]
    by_cases hused : id ∈ s.released
    · rw [if_pos hused, if_pos hused]
      rfl
    · rw [if_neg hused, if_neg hused, at?_pool]
      cases hat : s.at? id .holding with
      | none => rfl
      | some t =>
        obtain ⟨ht, hplace⟩ := at?_spec hat
        have hpos : 0 < (s.keyed.heap t.slot).sem := by
          rw [(hs.count t.key t.slot (hs.slot t (get_mem ht))).2]
          exact List.countP_pos_iff.mpr ⟨t, get_mem ht, decide_eq_true ⟨rfl, hplace⟩⟩
        show Option.map pool ((s.keyed.receive t.slot).map (s.move id .giving)) =
          some (s.pool.move id .giving)
        rw [Keyed.receive, if_pos hpos]
        exact congrArg some (pool_move s id .giving _)
  | drop id =>
    rw [Limiter.step, Pool.step, at?_pool]
    cases s.at? id .giving with
    | none => rfl
    | some t =>
      exact congrArg (fun l => some (Pool.mk l (id :: s.released)))
        (pool_leave s id (s.keyed.release t.key))

end Limiter

/-! ### Runs of the limiter -/

namespace Limiter

variable {s s' : Limiter K}

theorem step_perKey {e : Event K} (h : s.step e = some s') :
    s'.keyed.perKey = s.keyed.perKey := by
  have hrelease : ∀ key, (s.keyed.release key).perKey = s.keyed.perKey := by
    intro key
    unfold Keyed.release
    split <;> rfl
  cases moves h with
  | refuse => rfl
  | again => rfl
  | reserve id key =>
    show (s.keyed.reserve key).2.perKey = _
    unfold Keyed.reserve
    split <;> rfl
  | take id _ hl =>
    obtain ⟨_, heq⟩ := Option.ite_none_right_eq_some.mp hl
    cases heq
    rfl
  | release id _ hl =>
    obtain ⟨_, heq⟩ := Option.ite_none_right_eq_some.mp hl
    cases heq
    rfl
  | cancel => exact hrelease _
  | drop => exact hrelease _

theorem run_counted {perKey : Int} {es : List (Event K)}
    (h : run step (start perKey) es = some s) :
    s.Counted ∧ s.keyed.perKey = (newKeyed perKey : Keyed K).perKey :=
  run_inv (I := fun s => s.Counted ∧ s.keyed.perKey = (newKeyed perKey : Keyed K).perKey)
    (fun _ _ _ hs _ hstep => ⟨hs.1.step hstep, (step_perKey hstep).trans hs.2⟩)
    ⟨start_counted perKey, rfl⟩ (along_of_forall (fun _ _ => trivial) _ _) h

theorem run_pool (perKey : Int) (es : List (Event K)) :
    (run step (start perKey) es).map pool =
      run (Pool.step (newKeyed perKey : Keyed K).perKey) ⟨[], []⟩ es :=
  run_map (I := fun s => s.Counted ∧ s.keyed.perKey = (newKeyed perKey : Keyed K).perKey)
    (fun _ _ _ hs hstep => ⟨hs.1.step hstep, (step_perKey hstep).trans hs.2⟩)
    (fun s e hs => by rw [step_pool hs.1, hs.2]) ⟨start_counted perKey, rfl⟩ es

theorem newKeyed_perKey_eq {K : Type} (perKey : Int) :
    (newKeyed perKey : Keyed K).perKey = max perKey 1 := by
  show (if perKey < 1 then 1 else perKey) = _
  split <;> omega

theorem newKeyed_perKey_pos {K : Type} (perKey : Int) :
    0 < (newKeyed perKey : Keyed K).perKey := by
  rw [newKeyed_perKey_eq]
  omega

theorem Counted.entry (hs : s.Counted) (key : K) :
    s.entry key = if 0 < s.refs key then some ⟨s.held key, s.refs key⟩ else none := by
  cases hslot : s.keyed.slots key with
  | none =>
    have hiff := hs.refs_pos_iff key
    rw [hslot] at hiff
    rw [Limiter.entry, hslot, if_neg (by simpa using hiff)]
    rfl
  | some i =>
    obtain ⟨hpos, hheap⟩ := hs.count key i hslot
    rw [Limiter.entry, hslot, if_pos hpos, ← hheap]
    rfl

theorem refs_pool (s : Limiter K) (key : K) :
    s.refs key = s.pool.stays.countP fun t => t.key = key := by
  have h : (s.live.map Ticket.stay).countP (fun t => t.key = key) =
      s.live.countP fun t => t.key = key := List.countP_map
  exact h.symm

theorem entry_eq_of_pool (hs : s.Counted) (hs' : s'.Counted) (h : s.pool = s'.pool)
    (key : K) : s.entry key = s'.entry key := by
  rw [hs.entry, hs'.entry, refs_pool, refs_pool, ← holding_pool, ← holding_pool, h]

/-- A call that is neither there nor released has failed, if it was made: the run without its
events leads to the same stays and entries. -/
theorem failed_leaves_no_trace {perKey : Int} {es : List (Event K)}
    (h : run step (start perKey) es = some s) {g : Nat}
    (hgone : get Ticket.id s.live g = none) (hrel : g ∉ s.released) :
    ∃ s', run step (start perKey) (es.filter fun e => e.id ≠ g) = some s' ∧
      s'.pool = s.pool ∧ ∀ key, s'.entry key = s.entry key := by
  have hpool := run_pool perKey es
  rw [h] at hpool
  have hgone' : get Stay.id s.pool.stays g = none := by
    have hget : get Stay.id s.pool.stays g = (get Ticket.id s.live g).map Ticket.stay :=
      get_map fun _ => rfl
    rw [hget, hgone]
    rfl
  have hnot : ¬ Pool.Taken g s.pool := by
    intro htaken
    obtain ⟨t, hget, _⟩ | hmem := htaken
    · rw [hgone'] at hget
      simp at hget
    · exact hrel hmem
  have hwithout := Pool.run_without (Int.le_of_lt (newKeyed_perKey_pos perKey)) hpool.symm hnot
  rw [← run_pool] at hwithout
  obtain ⟨s', hrun, hs'⟩ := Option.map_eq_some_iff.mp hwithout
  have hsame : s'.pool = s.pool := by
    rw [hs', Pool.without, remove_of_get_none hgone']
  exact ⟨s', hrun, hsame,
    entry_eq_of_pool (run_counted hrun).1 (run_counted h).1 hsame⟩

/-- At most `perKey` calls hold a key, all calls at a key have the slot of the map in hand, a key
has an entry while a call is there, a call that failed and a second release leave nothing behind,
and the map is empty when nobody is there. -/
theorem limited {perKey : Int} {es : List (Event K)}
    (h : run step (start perKey) es = some s) :
    (∀ key, (s.holders key).length ≤ max perKey 1) ∧
    (∀ t ∈ s.live, ∀ u ∈ s.live, t.key = u.key → t.slot = u.slot) ∧
    (∀ key, (s.keyed.slots key).isSome ↔ ∃ t ∈ s.live, t.key = key) ∧
    (∀ g, get Ticket.id s.live g = none → g ∉ s.released →
      ∃ s', run step (start perKey) (es.filter fun e => e.id ≠ g) = some s' ∧
        s'.pool = s.pool ∧ ∀ key, s'.entry key = s.entry key) ∧
    (∀ g ∈ s.released, s.step (.release g) = some s) ∧
    (s.live = [] → ∀ key, s.keyed.slots key = none) := by
  obtain ⟨hs, hper⟩ := run_counted h
  have hentry : ∀ key, (s.keyed.slots key).isSome ↔ ∃ t ∈ s.live, t.key = key := by
    intro key
    rw [← hs.refs_pos_iff, refs, List.countP_pos_iff]
    simp only [decide_eq_true_eq]
  refine ⟨fun key => ?_, fun t ht u hu hkey => ?_, hentry,
    fun g hgone hrel => failed_leaves_no_trace h hgone hrel,
    fun g hg => if_pos hg, fun hnone key => ?_⟩
  · have hpool := run_pool perKey es
    rw [h] at hpool
    have hbound := Pool.run_bounded (Int.le_of_lt (newKeyed_perKey_pos perKey)) hpool.symm
    have hle := hbound.bound key
    rw [holding_pool, held, List.countP_eq_length_filter] at hle
    rw [newKeyed_perKey_eq] at hle
    exact hle
  · have hslot := hs.slot t ht
    rw [hkey, hs.slot u hu] at hslot
    exact (Option.some.inj hslot).symm
  · cases hslot : s.keyed.slots key with
    | none => rfl
    | some i =>
      obtain ⟨t, ht, _⟩ := (hentry key).mp (by rw [hslot]; rfl)
      rw [hnone] at ht
      simp at ht

theorem limited_queue :
    ∃ s s' : Limiter Nat,
      run step (start 1) [.reserve 0 7, .take 0, .reserve 1 7, .cancel 1] = some s ∧
      s.step (.take 1) = none ∧ ((s.holders 7).length : Int) ≤ max 1 1 ∧
      run step (start 1) [.reserve 0 7, .take 0] = some s' ∧
      s'.entry 7 = s.entry 7 := by
  have hrun : ∃ s : Limiter Nat,
      run step (start 1) [.reserve 0 7, .take 0, .reserve 1 7, .cancel 1] = some s ∧
      s.step (.take 1) = none ∧ get Ticket.id s.live 1 = none ∧ 1 ∉ s.released :=
    ⟨_, rfl, rfl, rfl, by decide⟩
  obtain ⟨s, hs, htake, hgone, hrel⟩ := hrun
  obtain ⟨hbound, _, _, hfailed, _⟩ := limited hs
  obtain ⟨s', hs', _, hentry⟩ := hfailed 1 hgone hrel
  exact ⟨s, s', hs, htake, hbound 7, hs', hentry 7⟩

/-- A waiting call can go on exactly if fewer than `perKey` calls hold its key, and a call that
has its permit can always give it back. -/
theorem no_permit_lost {perKey : Int} {es : List (Event K)}
    (h : run step (start perKey) es = some s) {t : Ticket K} (ht : t ∈ s.live) :
    (t.place = .waiting → ((s.step (.take t.id)).isSome ↔
      ((s.holders t.key).length : Int) < max perKey 1)) ∧
    (t.place = .holding → (s.step (.release t.id)).isSome) ∧
    (t.place = .giving → (s.step (.drop t.id)).isSome) := by
  obtain ⟨hs, hper⟩ := run_counted h
  have hpool : ∀ e, (s.step e).isSome = (s.pool.step s.keyed.perKey e).isSome := fun e => by
    rw [← step_pool hs, Option.isSome_map]
  have hat : ∀ place, t.place = place → s.pool.at? t.id place = some t.stay := by
    rintro _ rfl
    rw [at?_pool, at?, hs.distinct.get_of_mem ht, Option.filter_some, if_pos (decide_eq_true rfl)]
    rfl
  refine ⟨fun hplace => ?_, fun hplace => ?_, fun hplace => ?_⟩
  · rw [hpool, Pool.step, hat _ hplace, Option.bind_some, holding_pool, held,
      List.countP_eq_length_filter, hper, newKeyed_perKey_eq]
    exact Option.isSome_ite
  · rw [hpool, Pool.step, hat _ hplace]
    split <;> rfl
  · rw [hpool, Pool.step, hat _ hplace]
    rfl

/-- The second call at key 7 can go on once the first has given its permit back. -/
theorem permit_passed_on :
    ∃ s : Limiter Nat,
      run step (start 1) [.reserve 0 7, .take 0, .reserve 1 7, .release 0] = some s ∧
      (s.step (.take 1)).isSome := by
  refine ⟨_, rfl, ?_⟩
  exact ((no_permit_lost (t := ⟨1, 7, 0, .waiting⟩)
    (show run step (start 1) [.reserve 0 7, .take 0, .reserve 1 7, .release 0] = _ from rfl)
    List.mem_cons_self).1 rfl).mpr (by decide)

end Limiter

end Microjet.Limitx
