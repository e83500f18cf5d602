import Microjet.Cache.Memory
import Microjet.Lib.Run

/-!
# What a `Get` of the in-memory cache returns

A value that `Get` returns was in the cache when it read it, with an expiry after the look at
the clock. For a miss, another `Set` may replace the entry between the two; then `Get` misses a
key that was never without a live entry. The re-check does not ask which entry it finds.
-/

namespace Microjet.Cache

open Trace
open Function (update update_self update_of_ne)

variable {τ : Type} {key key' : GoString}

/-- The entry of the key may change. -/
def MemoryEvent.touches (key : GoString) : MemoryEvent τ → Bool
  | .store _ k _ | .remove _ k | .recheck _ k true => k = key
  | _ => false

def MemoryEvent.actor : MemoryEvent τ → Option Nat
  | .tick _ => none
  | .get g _ | .read g | .look g | .recheck g _ _ | .ret g _ | .set g _ _ _ | .stamp g
  | .store g _ _ | .delete g _ | .remove g _ | .done g => some g

variable {e : MemoryEntry τ} {now : Int}

theorem MemoryEntry.expired_of_zero (h : e.expiresAt = 0) :
    e.expired now = false := by
  simp [expired, h]

theorem MemoryEntry.expired_eq_false (h : now ≤ e.expiresAt) :
    e.expired now = false := by
  simp [expired, h]

theorem MemoryEntry.expired_eq_true (hzero : e.expiresAt ≠ 0)
    (h : e.expiresAt < now) : e.expired now = true := by
  simp [expired, hzero, h]

namespace MemoryCache

variable {s s' m : MemoryCache τ} {x : MemoryEvent τ} {es : List (MemoryEvent τ)} {g h : Nat}

/-- The steps, as a relation. -/
inductive Moves (s : MemoryCache τ) : MemoryEvent τ → MemoryCache τ → Prop where
  | tick {now : Int} (hnow : s.now ≤ now) : Moves s (.tick now) { s with now := now }
  | get {g : Nat} {key : GoString} (ha : s.goroutines g = none) :
      Moves s (.get g key) (s.goto g (.reading key))
  | absent {g : Nat} {key : GoString} (ha : s.goroutines g = some (.reading key))
      (he : s.entries key = none) : Moves s (.read g) (s.goto g (.returning none))
  | lasting {g : Nat} {key : GoString} {e : MemoryEntry τ}
      (ha : s.goroutines g = some (.reading key)) (he : s.entries key = some e)
      (hzero : e.expiresAt = 0) : Moves s (.read g) (s.goto g (.returning (some e.value)))
  | timed {g : Nat} {key : GoString} {e : MemoryEntry τ}
      (ha : s.goroutines g = some (.reading key)) (he : s.entries key = some e)
      (hzero : e.expiresAt ≠ 0) : Moves s (.read g) (s.goto g (.looking key e))
  | live {g : Nat} {key : GoString} {e : MemoryEntry τ}
      (ha : s.goroutines g = some (.looking key e)) (hnow : s.now ≤ e.expiresAt) :
      Moves s (.look g) (s.goto g (.returning (some e.value)))
  | expired {g : Nat} {key : GoString} {e : MemoryEntry τ}
      (ha : s.goroutines g = some (.looking key e)) (hnow : e.expiresAt < s.now) :
      Moves s (.look g) (s.goto g (.rechecking key))
  | removed {g : Nat} {key : GoString} (ha : s.goroutines g = some (.rechecking key))
      (hstale : s.stale key = true) :
      Moves s (.recheck g key true) ((s.put key none).goto g (.returning none))
  | kept {g : Nat} {key : GoString} (ha : s.goroutines g = some (.rechecking key)) :
      Moves s (.recheck g key false) (s.goto g (.returning none))
  | ret {g : Nat} {res : Option τ} (ha : s.goroutines g = some (.returning res)) :
      Moves s (.ret g res) (s.exit g)
  | set {g : Nat} {key : GoString} {value : τ} {ttl : Int} (ha : s.goroutines g = none) :
      Moves s (.set g key value ttl) (s.goto g (.stamping key value ttl))
  | stamp {g : Nat} {key : GoString} {value : τ} {ttl : Int}
      (ha : s.goroutines g = some (.stamping key value ttl)) :
      Moves s (.stamp g) (s.goto g (.storing key ⟨value, if 0 < ttl then s.now + ttl else 0⟩))
  | store {g : Nat} {key : GoString} {e : MemoryEntry τ}
      (ha : s.goroutines g = some (.storing key e)) :
      Moves s (.store g key e) ((s.put key (some e)).goto g .done)
  | delete {g : Nat} {key : GoString} (ha : s.goroutines g = none) :
      Moves s (.delete g key) (s.goto g (.deleting key))
  | remove {g : Nat} {key : GoString} (ha : s.goroutines g = some (.deleting key)) :
      Moves s (.remove g key) ((s.put key none).goto g .done)
  | done {g : Nat} (ha : s.goroutines g = some .done) : Moves s (.done g) (s.exit g)

theorem call_eq {a : MemoryAt τ} (h : s.call g a = some s') :
    s.goroutines g = none ∧ s' = s.goto g a := by
  rw [call] at h
  split at h
  · next ha =>
      cases h
      exact ⟨ha, rfl⟩
  · cases h

theorem step_moves [DecidableEq τ] (hstep : s.step x = some s') : Moves s x s' := by
  cases x with
  | tick now =>
    simp only [step] at hstep
    split at hstep
    · next hnow =>
        cases hstep
        exact .tick hnow
    · cases hstep
  | get g key =>
    obtain ⟨ha, rfl⟩ := call_eq hstep
    exact .get ha
  | read g =>
    simp only [step] at hstep
    split at hstep
    · next key ha =>
        split at hstep
        · next he =>
            cases hstep
            exact .absent ha he
        · next e he =>
            cases hstep
            split
            · next hzero => exact .lasting ha he hzero
            · next hzero => exact .timed ha he hzero
    · cases hstep
  | look g =>
    simp only [step] at hstep
    split at hstep
    · next key e ha =>
        cases hstep
        split
        · next hnow => exact .expired ha hnow
        · next hnow => exact .live ha (not_lt.mp hnow)
    · cases hstep
  | recheck g key removed =>
    simp only [step] at hstep
    split at hstep
    · next hguard =>
        cases hstep
        cases removed with
        | true => exact .removed hguard.1 hguard.2
        | false => exact .kept hguard.1
    · cases hstep
  | ret g res =>
    simp only [step] at hstep
    split at hstep
    · next ha =>
        cases hstep
        exact .ret ha
    · cases hstep
  | set g key value ttl =>
    obtain ⟨ha, rfl⟩ := call_eq hstep
    exact .set ha
  | stamp g =>
    simp only [step] at hstep
    split at hstep
    · next key value ttl ha =>
        cases hstep
        exact .stamp ha
    · cases hstep
  | store g key e =>
    simp only [step] at hstep
    split at hstep
    · next ha =>
        cases hstep
        exact .store ha
    · cases hstep
  | delete g key =>
    obtain ⟨ha, rfl⟩ := call_eq hstep
    exact .delete ha
  | remove g key =>
    simp only [step] at hstep
    split at hstep
    · next ha =>
        cases hstep
        exact .remove ha
    · cases hstep
  | done g =>
    simp only [step] at hstep
    split at hstep
    · next ha =>
        cases hstep
        exact .done ha
    · cases hstep

theorem Moves.now_le (hmove : Moves s x s') : s.now ≤ s'.now := by
  cases hmove with
  | tick hnow => exact hnow
  | _ => exact Int.le_refl _

theorem Moves.entries_eq (hmove : Moves s x s') (hx : x.touches key = false) :
    s'.entries key = s.entries key := by
  cases hmove with
  | removed ha hstale =>
    exact update_of_ne (Ne.symm (of_decide_eq_false hx)) ..
  | store ha => exact update_of_ne (Ne.symm (of_decide_eq_false hx)) ..
  | remove ha => exact update_of_ne (Ne.symm (of_decide_eq_false hx)) ..
  | _ => rfl

theorem Moves.stored (hmove : Moves s x s') (hx : x.touches key = true) {e : MemoryEntry τ}
    (he : s'.entries key = some e) :
    ∃ h, x = .store h key e ∧ s.goroutines h = some (.storing key e) := by
  cases hmove with
  | @store g k e' ha =>
    obtain rfl : k = key := of_decide_eq_true hx
    cases (update_self ..).symm.trans he
    exact ⟨g, rfl, ha⟩
  | @removed g k ha hstale =>
    obtain rfl : k = key := of_decide_eq_true hx
    cases (update_self ..).symm.trans he
  | @remove g k ha =>
    obtain rfl : k = key := of_decide_eq_true hx
    cases (update_self ..).symm.trans he
  | _ => cases hx

/-! ### Where an entry comes from -/

theorem of_goto {a b : MemoryAt τ} (hb : (s.goto g a).goroutines h = some b) :
    s.goroutines h = some b ∨ h = g ∧ b = a := by
  by_cases hg : h = g
  · subst hg
    have hb : update s.goroutines h (some a) h = some b := hb
    rw [update_self] at hb
    exact .inr ⟨rfl, (Option.some.inj hb).symm⟩
  · exact .inl ((update_of_ne hg ..).symm.trans hb)

theorem of_exit {b : MemoryAt τ} (hb : (s.exit g).goroutines h = some b) :
    s.goroutines h = some b := by
  by_cases hg : h = g
  · subst hg
    have hb : update s.goroutines h none h = some b := hb
    rw [update_self] at hb
    cases hb
  · exact (update_of_ne hg ..).symm.trans hb

theorem Moves.stamping {value : τ} {ttl : Int} (hmove : Moves s x s')
    (hb : s'.goroutines h = some (.stamping key value ttl)) :
    s.goroutines h = some (.stamping key value ttl) ∨ x = .set h key value ttl := by
  cases hmove with
  | tick hnow => exact .inl hb
  | ret ha => exact .inl (of_exit hb)
  | done ha => exact .inl (of_exit hb)
  | set ha =>
    rcases of_goto hb with hold | ⟨rfl, hnew⟩
    · exact .inl hold
    · cases hnew
      exact .inr rfl
  | _ =>
    rcases of_goto hb with hold | ⟨rfl, hnew⟩
    · exact .inl hold
    · cases hnew

theorem Moves.storing {e : MemoryEntry τ} (hmove : Moves s x s')
    (hb : s'.goroutines h = some (.storing key e)) :
    s.goroutines h = some (.storing key e) ∨
      ∃ ttl, s.goroutines h = some (.stamping key e.value ttl) := by
  cases hmove with
  | tick hnow => exact .inl hb
  | ret ha => exact .inl (of_exit hb)
  | done ha => exact .inl (of_exit hb)
  | stamp ha =>
    rcases of_goto hb with hold | ⟨rfl, hnew⟩
    · exact .inl hold
    · cases hnew
      exact .inr ⟨_, ha⟩
  | _ =>
    rcases of_goto hb with hold | ⟨rfl, hnew⟩
    · exact .inl hold
    · cases hnew

/-- A `Set` has stored the entry, and nothing has taken its place. -/
def StoredIn (es : List (MemoryEvent τ)) (key : GoString) (e : MemoryEntry τ) : Prop :=
  ∃ p h q, es = p ++ .store h key e :: q ∧ (∃ ttl, .set h key e.value ttl ∈ p) ∧
    ∀ x ∈ q, x.touches key = false

/-- What the schedule says of the cache. -/
structure History (es : List (MemoryEvent τ)) (s : MemoryCache τ) : Prop where
  stamping : ∀ h key value ttl, s.goroutines h = some (.stamping key value ttl) →
    .set h key value ttl ∈ es
  storing : ∀ h key e, s.goroutines h = some (.storing key e) →
    ∃ ttl, .set h key e.value ttl ∈ es
  entries : ∀ key e, s.entries key = some e → StoredIn es key e

theorem history_nil (now : Int) : History [] (newMemoryCache now : MemoryCache τ) :=
  ⟨nofun, nofun, nofun⟩

theorem History.snoc (hist : History es s) (hmove : Moves s x s') : History (es ++ [x]) s' where
  stamping := by
    intro h key value ttl hb
    rcases hmove.stamping hb with hb | rfl
    · exact List.mem_append_left _ (hist.stamping h key value ttl hb)
    · exact List.mem_append_right _ List.mem_cons_self
  storing := by
    intro h key e hb
    rcases hmove.storing hb with hb | ⟨ttl, hb⟩
    · obtain ⟨ttl, hset⟩ := hist.storing h key e hb
      exact ⟨ttl, List.mem_append_left _ hset⟩
    · exact ⟨ttl, List.mem_append_left _ (hist.stamping h key e.value ttl hb)⟩
  entries := by
    intro key e he
    cases hx : x.touches key with
    | false =>
      obtain ⟨p, h, q, rfl, hset, hq⟩ := hist.entries key e (hmove.entries_eq hx ▸ he)
      refine ⟨p, h, q ++ [x], by rw [List.append_assoc, List.cons_append], hset, ?_⟩
      intro y hy
      rcases List.mem_append.mp hy with hy | hy
      · exact hq y hy
      · rw [List.mem_singleton.mp hy]
        exact hx
    | true =>
      obtain ⟨h, rfl, hb⟩ := hmove.stored hx he
      exact ⟨es, h, [], rfl, hist.storing h key e hb, nofun⟩

/-! ### A call of `Get` -/

section Call

variable [DecidableEq τ] {s₁ : MemoryCache τ} {a : List (MemoryEvent τ)} {e : MemoryEntry τ}

/-- A state during the events. -/
def Moment (s₁ : MemoryCache τ) (a : List (MemoryEvent τ)) (m : MemoryCache τ) : Prop :=
  ∃ a₁ a₂, a = a₁ ++ a₂ ∧ run step s₁ a₁ = some m

/-- The `Get` has read this entry. -/
def Saw (s₁ : MemoryCache τ) (a : List (MemoryEvent τ)) (key : GoString) (e : MemoryEntry τ) :
    Prop :=
  ∃ m, Moment s₁ a m ∧ m.entries key = some e

/-- At some moment there was an entry, which had expired at a later one. -/
def Outlived (s₁ : MemoryCache τ) (a : List (MemoryEvent τ)) (key : GoString) : Prop :=
  ∃ a₁ a₂ m e, a = a₁ ++ a₂ ∧ run step s₁ a₁ = some m ∧ m.entries key = some e ∧
    ∃ m', Moment m a₂ m' ∧ e.expired m'.now = true

/-- Where a `Get` is, and what it has seen. -/
inductive Progress (s₁ : MemoryCache τ) (key : GoString) (a : List (MemoryEvent τ)) :
    MemoryAt τ → Prop where
  | reading : Progress s₁ key a (.reading key)
  | looking {a₁ a₂ : List (MemoryEvent τ)} {m : MemoryCache τ} {e : MemoryEntry τ}
      (ha : a = a₁ ++ a₂) (hm : run step s₁ a₁ = some m) (he : m.entries key = some e)
      (hzero : e.expiresAt ≠ 0) : Progress s₁ key a (.looking key e)
  | rechecking (h : Outlived s₁ a key) : Progress s₁ key a (.rechecking key)
  | hit {e : MemoryEntry τ} (hsaw : Saw s₁ a key e) (hlive : e.expired s₁.now = false) :
      Progress s₁ key a (.returning (some e.value))
  | miss (h : (∃ m, Moment s₁ a m ∧ m.entries key = none) ∨ Outlived s₁ a key) :
      Progress s₁ key a (.returning none)

theorem Moment.snoc (h : Moment s₁ a m) : Moment s₁ (a ++ [x]) m := by
  obtain ⟨a₁, a₂, rfl, hrun⟩ := h
  exact ⟨a₁, a₂ ++ [x], List.append_assoc .., hrun⟩

theorem Outlived.snoc (h : Outlived s₁ a key) : Outlived s₁ (a ++ [x]) key := by
  obtain ⟨a₁, a₂, m, e, rfl, hm, he, m', hm', hexpired⟩ := h
  exact ⟨a₁, a₂ ++ [x], m, e, List.append_assoc .., hm, he, m', hm'.snoc, hexpired⟩

theorem Progress.snoc {b : MemoryAt τ} (h : Progress s₁ key a b) :
    Progress s₁ key (a ++ [x]) b := by
  cases h with
  | reading => exact .reading
  | looking ha hm he hzero =>
    exact .looking (by rw [ha, List.append_assoc]) hm he hzero
  | rechecking h => exact .rechecking h.snoc
  | hit hsaw hlive =>
    obtain ⟨m, hm, he⟩ := hsaw
    exact .hit ⟨m, hm.snoc, he⟩ hlive
  | miss h =>
    rcases h with ⟨m, hm, he⟩ | h
    · exact .miss (.inl ⟨m, hm.snoc, he⟩)
    · exact .miss (.inr h.snoc)

omit [DecidableEq τ] in
theorem Moves.goroutines_eq (hmove : Moves s x s') (hx : x.actor ≠ some g) :
    s'.goroutines g = s.goroutines g := by
  cases hmove with
  | tick hnow => rfl
  | _ => exact update_of_ne (fun heq => hx (congrArg some heq.symm)) ..

theorem Progress.moves {b : MemoryAt τ} (h : Progress s₁ key a b) (hb : s.goroutines g = some b)
    (hrun : run step s₁ a = some s) (hnow : s₁.now ≤ s.now) (hmove : Moves s x s')
    (hx : x.actor = some g) (hret : ∀ res, x ≠ .ret g res) :
    ∃ b', s'.goroutines g = some b' ∧ Progress s₁ key (a ++ [x]) b' := by
  have hhere : Moment s₁ (a ++ [x]) s := ⟨a, [x], rfl, hrun⟩
  cases hmove with
  | tick => cases hx
  | get ha =>
    cases hx
    cases ha.symm.trans hb
  | absent ha he =>
    cases hx
    cases ha.symm.trans hb
    cases h
    exact ⟨_, update_self .., .miss (.inl ⟨s, hhere, he⟩)⟩
  | lasting ha he hzero =>
    cases hx
    cases ha.symm.trans hb
    cases h
    exact ⟨_, update_self .., .hit ⟨s, hhere, he⟩ (MemoryEntry.expired_of_zero hzero)⟩
  | timed ha he hzero =>
    cases hx
    cases ha.symm.trans hb
    cases h
    exact ⟨_, update_self .., .looking rfl hrun he hzero⟩
  | live ha hlook =>
    cases hx
    cases ha.symm.trans hb
    cases h with
    | looking ha' hm he hzero =>
      have hsaw : Moment s₁ a _ := ⟨_, _, ha', hm⟩
      refine ⟨_, update_self .., .hit ⟨_, hsaw.snoc, he⟩ ?_⟩
      exact MemoryEntry.expired_eq_false (hnow.trans hlook)
  | expired ha hlook =>
    cases hx
    cases ha.symm.trans hb
    cases h with
    | looking ha' hm he hzero =>
      subst ha'
      obtain ⟨m', hm', hrest⟩ := run_append.mp hrun
      cases hm.symm.trans hm'
      refine ⟨_, update_self .., .rechecking ?_⟩
      exact ⟨_, _, _, _, List.append_assoc .., hm, he, s, ⟨_, _, rfl, hrest⟩,
        MemoryEntry.expired_eq_true hzero hlook⟩
  | removed ha hstale =>
    cases hx
    cases ha.symm.trans hb
    cases h with
    | rechecking h => exact ⟨_, update_self .., .miss (.inr h.snoc)⟩
  | kept ha =>
    cases hx
    cases ha.symm.trans hb
    cases h with
    | rechecking h => exact ⟨_, update_self .., .miss (.inr h.snoc)⟩
  | ret ha =>
    cases hx
    exact absurd rfl (hret _)
  | set ha =>
    cases hx
    cases ha.symm.trans hb
  | delete ha =>
    cases hx
    cases ha.symm.trans hb
  | stamp ha =>
    cases hx
    cases ha.symm.trans hb
    cases h
  | store ha =>
    cases hx
    cases ha.symm.trans hb
    cases h
  | remove ha =>
    cases hx
    cases ha.symm.trans hb
    cases h
  | done ha =>
    cases hx
    cases ha.symm.trans hb
    cases h

/-- `Get` of the key, begun in the first state. -/
structure Calling (s₁ : MemoryCache τ) (g : Nat) (key : GoString) (a : List (MemoryEvent τ))
    (s : MemoryCache τ) : Prop where
  run : run step s₁ a = some s
  now : s₁.now ≤ s.now
  at_ : (∀ res, .ret g res ∉ a) → ∃ b, s.goroutines g = some b ∧ Progress s₁ key a b

theorem Calling.snoc (h : Calling s₁ g key a s) (hstep : s.step x = some s') :
    Calling s₁ g key (a ++ [x]) s' := by
  have hmove := step_moves hstep
  refine ⟨run_snoc.mpr ⟨s, h.run, hstep⟩, h.now.trans hmove.now_le, fun hret => ?_⟩
  obtain ⟨b, hb, hprogress⟩ := h.at_ fun res hmem => hret res (List.mem_append_left _ hmem)
  by_cases hx : x.actor = some g
  · refine hprogress.moves hb h.run h.now hmove hx fun res heq => hret res ?_
    rw [heq]
    exact List.mem_append_right _ List.mem_cons_self
  · exact ⟨b, (hmove.goroutines_eq hx).trans hb, hprogress.snoc⟩

theorem calling_of_run (hget : s.goroutines g = some (.reading key)) (hrun : run step s a = some m)
    (hret : ∀ res, .ret g res ∉ a) : ∃ b, m.goroutines g = some b ∧ Progress s key a b := by
  have hcalling : Calling s g key a m :=
    run_hist (I := Calling s g key) ⟨rfl, Int.le_refl _, fun _ => ⟨_, hget, .reading⟩⟩
      (fun a s x s' h hstep => h.snoc hstep) hrun
  exact hcalling.at_ hret

end Call

/-! ### What it returns -/

section Returns

variable [DecidableEq τ] {now₀ : Int} {pre mid : List (MemoryEvent τ)} {e : MemoryEntry τ}

/-- A `Set` stored the entry, before the call with nothing done to it since, or during it. -/
def StoredFor (pre mid : List (MemoryEvent τ)) (key : GoString) (e : MemoryEntry τ) : Prop :=
  ∃ h ttl,
    (∃ p q, pre = p ++ .store h key e :: q ∧ .set h key e.value ttl ∈ p ∧
      ∀ x ∈ q, x.touches key = false) ∨
    (.store h key e ∈ mid ∧ .set h key e.value ttl ∈ pre ++ mid)

/-- The entry had not been replaced, deleted or expired when the call started. -/
def Hit (now₀ : Int) (pre mid : List (MemoryEvent τ)) (key : GoString) (value : τ) : Prop :=
  ∃ m e, run step (newMemoryCache now₀) pre = some m ∧ e.value = value ∧
    e.expired m.now = false ∧ StoredFor pre mid key e

/-- The key was absent at some moment of the call, or had an entry that expired during it. -/
def Miss (now₀ : Int) (pre : List (MemoryEvent τ)) (g : Nat) (mid : List (MemoryEvent τ))
    (key : GoString) : Prop :=
  ∃ m, run step (newMemoryCache now₀) pre = some m ∧
    ((∃ m', Moment (m.goto g (.reading key)) mid m' ∧ m'.entries key = none) ∨
      Outlived (m.goto g (.reading key)) mid key)

/-- An entry of the key had expired. -/
def Expired (now₀ : Int) (pre : List (MemoryEvent τ)) (key : GoString) : Prop :=
  ∃ m e, run step (newMemoryCache now₀) pre = some m ∧ m.entries key = some e ∧
    e.expired m.now = true

theorem history_of_run (hrun : run step (newMemoryCache now₀) es = some s) : History es s :=
  run_hist (history_nil now₀) (fun _ _ _ _ hist hstep => hist.snoc (step_moves hstep)) hrun

omit [DecidableEq τ] in
theorem StoredIn.for {a : List (MemoryEvent τ)}
    (h : StoredIn (pre ++ .get g key' :: a) key e) (ha : ∀ x ∈ a, x ∈ mid) :
    StoredFor pre mid key e := by
  obtain ⟨p, h, q, heq, ⟨ttl, hset⟩, hq⟩ := h
  refine ⟨h, ttl, ?_⟩
  rcases List.append_eq_append_iff.mp heq with ⟨r, rfl, hr⟩ | ⟨r, rfl, hr⟩
  · -- in the call: `r` is what of it comes before the step
    cases r with
    | nil => cases hr
    | cons y r =>
      obtain ⟨rfl, rfl⟩ := List.cons.inj hr
      refine .inr ⟨ha _ (List.mem_append_right _ List.mem_cons_self), ?_⟩
      rcases List.mem_append.mp hset with hset | hset
      · exact List.mem_append_left _ hset
      · rcases List.mem_cons.mp hset with hset | hset
        · cases hset
        · exact List.mem_append_right _ (ha _ (List.mem_append_left _ hset))
  · cases r with
    | nil => cases hr
    | cons y r =>
      obtain ⟨rfl, rfl⟩ := List.cons.inj hr
      exact .inl ⟨p, r, rfl, hset, fun x hx => hq x (List.mem_append_left _ hx)⟩

theorem returns_of_run {res : Option τ}
    (hrun : run step (newMemoryCache now₀) (pre ++ .get g key :: (mid ++ [.ret g res])) = some s)
    (hcall : ∀ res, .ret g res ∉ mid) :
    ∃ m, run step (newMemoryCache now₀) pre = some m ∧
      m.step (.get g key) = some (m.goto g (.reading key)) ∧
      Progress (m.goto g (.reading key)) key mid (.returning res) := by
  obtain ⟨m, hpre, hrest⟩ := run_append.mp hrun
  obtain ⟨s₁, hget, hrest⟩ := run_cons.mp hrest
  obtain ⟨s₂, hmid, hret⟩ := run_snoc.mp hrest
  obtain ⟨-, rfl⟩ := call_eq hget
  obtain ⟨b, hb, hprogress⟩ := calling_of_run (update_self ..) hmid hcall
  refine ⟨m, hpre, hget, ?_⟩
  cases step_moves hret with
  | ret ha =>
    cases ha.symm.trans hb
    exact hprogress

/-- A value that `Get` returns is that of a `Set` which had not been replaced, deleted or expired
when it started. If it misses, the key was absent at some moment of the call, or had an entry
that expired during it. If it removes an entry, this has expired. -/
theorem get_spec {es : List (MemoryEvent τ)}
    (hrun : run step (newMemoryCache now₀) es = some s) (g : Nat) (key : GoString) :
    (∀ pre mid value, es = pre ++ .get g key :: (mid ++ [.ret g (some value)]) →
      (∀ res, .ret g res ∉ mid) → Hit now₀ pre mid key value) ∧
    (∀ pre mid, es = pre ++ .get g key :: (mid ++ [.ret g none]) →
      (∀ res, .ret g res ∉ mid) → Miss now₀ pre g mid key) ∧
    (∀ pre, es = pre ++ [.recheck g key true] → Expired now₀ pre key) := by
  refine ⟨?_, ?_, ?_⟩
  · rintro pre mid value rfl hcall
    obtain ⟨m, hpre, hget, hprogress⟩ := returns_of_run hrun hcall
    cases hprogress with
    | @hit e hsaw hlive =>
      obtain ⟨m', ⟨a₁, a₂, rfl, ha₁⟩, he⟩ := hsaw
      have hthere := run_append.mpr ⟨m, hpre, run_cons.mpr ⟨_, hget, ha₁⟩⟩
      refine ⟨m, e, hpre, rfl, hlive, ?_⟩
      exact ((history_of_run hthere).entries key e he).for fun x hx => List.mem_append_left _ hx
  · rintro pre mid rfl hcall
    obtain ⟨m, hpre, hget, hprogress⟩ := returns_of_run hrun hcall
    cases hprogress with
    | miss h => exact ⟨m, hpre, h⟩
  · rintro pre rfl
    obtain ⟨m, hpre, hstep⟩ := run_snoc.mp hrun
    cases step_moves hstep with
    | removed ha hstale =>
      unfold stale at hstale
      split at hstale
      · next e he => exact ⟨m, e, hpre, he, hstale⟩
      · cases hstale

/-- A value that is replaced while `Get` is between its read and its look at the clock. -/
theorem replaced_value_returned :
    ∃ s, run step (newMemoryCache 0 : MemoryCache Nat)
        ([.set 0 (bytes "k") 7 5, .stamp 0, .store 0 (bytes "k") ⟨7, 5⟩] ++ .get 1 (bytes "k") ::
          ([.read 1, .set 2 (bytes "k") 8 9, .stamp 2, .store 2 (bytes "k") ⟨8, 9⟩, .look 1] ++
            [.ret 1 (some 7)])) = some s ∧
      Hit 0 [.set 0 (bytes "k") 7 5, .stamp 0, .store 0 (bytes "k") ⟨7, 5⟩]
        [.read 1, .set 2 (bytes "k") 8 9, .stamp 2, .store 2 (bytes "k") ⟨8, 9⟩, .look 1]
        (bytes "k") 7 := by
  have hrun : run step (newMemoryCache 0 : MemoryCache Nat)
      ([.set 0 (bytes "k") 7 5, .stamp 0, .store 0 (bytes "k") ⟨7, 5⟩] ++ .get 1 (bytes "k") ::
        ([.read 1, .set 2 (bytes "k") 8 9, .stamp 2, .store 2 (bytes "k") ⟨8, 9⟩, .look 1] ++
          [.ret 1 (some 7)])) = some _ := rfl
  exact ⟨_, hrun, (get_spec hrun 1 (bytes "k")).1 _ _ _ rfl (by simp)⟩

/-- There is one that has not. -/
def live (s : MemoryCache τ) (key : GoString) : Bool :=
  match s.entries key with
  | some e => !e.expired s.now
  | none => false

/-- A key that always has a live entry is missed, and one stored after `Get` had looked removed. -/
theorem refreshed_entry_missed_and_removed :
    (∃ m, run step (newMemoryCache 0 : MemoryCache Nat)
        [.set 0 (bytes "k") 7 5, .stamp 0, .store 0 (bytes "k") ⟨7, 5⟩, .get 1 (bytes "k")] =
          some m ∧
      Always step (fun m => m.live (bytes "k") = true) m
        [.read 1, .set 2 (bytes "k") 8 100, .stamp 2, .store 2 (bytes "k") ⟨8, 100⟩, .tick 6,
          .look 1, .recheck 1 (bytes "k") false, .ret 1 none] ∧
      (run step m
        [.read 1, .set 2 (bytes "k") 8 100, .stamp 2, .store 2 (bytes "k") ⟨8, 100⟩, .tick 6,
          .look 1, .recheck 1 (bytes "k") false, .ret 1 none]).isSome) ∧
    ∃ m s, run step (newMemoryCache 0 : MemoryCache Nat)
        [.set 0 (bytes "k") 7 5, .stamp 0, .store 0 (bytes "k") ⟨7, 5⟩, .tick 10,
          .get 1 (bytes "k"), .read 1, .look 1,
          .set 2 (bytes "k") 8 1, .stamp 2, .store 2 (bytes "k") ⟨8, 11⟩, .tick 12] = some m ∧
      m.entries (bytes "k") = some ⟨8, 11⟩ ∧
      m.step (.recheck 1 (bytes "k") true) = some s ∧ s.entries (bytes "k") = none :=
  ⟨⟨_, rfl, by decide, by decide⟩, _, _, rfl, by decide, rfl, by decide⟩

end Returns

end MemoryCache

end Microjet.Cache
