import Microjet.Tenant.Cache

/-!
# Lookups one at a time (`core/tenant/cache.go`)

`findTenant` is a `FindTenant` that nothing gets in between of. `History` is a `CachedStore`
in such use; the wrapped store may change between two calls as it likes.
-/

namespace Microjet.Tenant

open Errorx

/-- A tenant, neither tenant nor error, or an error without a tenant. -/
inductive Reply (τ : Type) where
  | tenant (t : τ)
  | absent
  | failed (err : Err)
  deriving DecidableEq, Repr

/-- What the wrapped store returns. -/
def Reply.answer {τ : Type} : Reply τ → Answer τ
  | .tenant t => ⟨some t, none⟩
  | .absent => ⟨none, none⟩
  | .failed err => ⟨none, some err⟩

namespace CachedStore

variable {ι τ : Type}

/-- How long an answer of this kind is held; an error other than not-found is not. -/
def ttlOf (c : CachedStore ι τ) (a : Answer τ) : Option Int :=
  match a.err with
  | some err => if err.isNotFoundError then some c.absentTTL else none
  | none => if a.tenant.isSome then some c.ttl else some c.absentTTL

variable [DecidableEq ι]

/-- The entry, if it has not expired. -/
def hit (c : CachedStore ι τ) (id : ι) (now : Int) : Option (CacheEntry τ) :=
  (c.cache id).filter fun entry => now < entry.expiresAt

/-- `FindTenant`, where the wrapped store would answer `a`. -/
def findTenant (c : CachedStore ι τ) (id : ι) (a : Answer τ) (now : Int) :
    Answer τ × CachedStore ι τ :=
  match c.cache id with
  | some entry =>
    if now < entry.expiresAt then (⟨entry.tenant, entry.err⟩, c)
    else (c.invalidate id).settle id a now
  | none => c.settle id a now

end CachedStore

/-- What the wrapped store was asked, or what was dropped. -/
inductive Note (ι τ : Type) where
  | asked (id : ι) (a : Answer τ) (time : Int)
  /-- `Invalidate`, or `Clear` when there is no target. -/
  | dropped (target : Option ι)
  deriving DecidableEq, Repr

/-- It drops the id. -/
def Note.drops {ι τ : Type} [DecidableEq ι] (id : ι) : Note ι τ → Bool
  | .asked _ _ _ => false
  | .dropped target => covers target id

/-- The cache, the clock and the wrapped store; the log is newest first. -/
structure History (ι τ : Type) where
  store : CachedStore ι τ
  wrapped : ι → Reply τ
  now : Int
  log : List (Note ι τ) := []

/-- A call, or a change outside. -/
inductive Op (ι τ : Type) where
  | findTenant (id : ι)
  | invalidate (id : ι)
  | clear
  | advance (d : Nat)
  | change (wrapped : ι → Reply τ)

namespace History

variable {ι τ : Type} [DecidableEq ι]

/-- A new `CachedStore`, with what the option `WithNegativeTTL` is given each time it is
passed. -/
def start (ttl : Int) (negativeTTLs : List Int) (wrapped : ι → Reply τ) (now : Int) :
    History ι τ where
  store := newCachedStore ttl (negativeTTLs.map withNegativeTTL)
  wrapped
  now

/-- A lookup would ask the wrapped store. -/
def asks (s : History ι τ) (id : ι) : Bool := (s.store.hit id s.now).isNone

/-- One call. -/
def step (s : History ι τ) : Op ι τ → Option (Answer τ) × History ι τ
  | .findTenant id =>
    let r := s.store.findTenant id (s.wrapped id).answer s.now
    (some r.1, { s with
      store := r.2
      log := if s.asks id then .asked id (s.wrapped id).answer s.now :: s.log else s.log })
  | .invalidate id =>
    (none, { s with store := s.store.invalidate id, log := .dropped (some id) :: s.log })
  | .clear => (none, { s with store := s.store.clear, log := .dropped none :: s.log })
  | .advance d => (none, { s with now := s.now + d })
  | .change wrapped => (none, { s with wrapped })

end History

end Microjet.Tenant
