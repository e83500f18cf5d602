import Microjet.Middleware.Tenant

/-!
# One request, one tenant

The loop returns the first value of whichever spelling of the parameter it visits first. So the
id depends on the request alone exactly if the first values of all spellings name one tenant.
-/

namespace Microjet

section Query

variable {m : Values} {ps : List (GoString × GoString)} {k : GoString}

def Values.first (m : Values) (k : GoString) : Option GoString := (m.get k).bind List.head?

theorem Values.first_add (p : GoString × GoString) :
    (m.add p).first k = (m.first k).or (if k = p.1 then some p.2 else none) := by
  rw [first, add, GoMap.get_insert, first]
  split
  · next h =>
      rw [h]
      cases m.get p.1 with
      | none => rfl
      | some vs => cases vs <;> rfl
  · rw [Option.or_none]

theorem Values.first_foldl :
    (ps.foldl add m).first k = (m.first k).or (ps.lookup k) := by
  induction ps generalizing m with
  | nil => exact Option.or_none.symm
  | cons p ps ih =>
    rw [List.foldl_cons, ih, first_add, Option.or_assoc]
    congr 1
    rw [List.lookup_cons]
    by_cases hk : k = p.1
    · rw [if_pos hk, hk, beq_self_eq_true]
      rfl
    · rw [if_neg hk, beq_false_of_ne hk]
      rfl

theorem first_parseQuery (limit : Option Nat) (query : GoString) :
    (parseQuery limit query).first k = (queryParams limit query).lookup k :=
  Values.first_foldl.trans Option.none_or

end Query

namespace Middleware

open Errorx Gin Dynamo

variable (table : Nat → Nat) (limit : Option Nat)

section Loop

variable {table} {order : List (GoString × List GoString)} {e : GoString × List GoString}
  {v : GoString}

/-- The entry is a spelling of the parameter, with this first value. -/
def Offers (table : Nat → Nat) (e : GoString × List GoString) (v : GoString) : Prop :=
  toLower table e.1 = tenantIDQueryParamLower ∧ e.2.head? = some v

theorem findTenantParam_of_offers (h : Offers table e v) :
    findTenantParam table (e :: order) = some v := by
  obtain ⟨name, values⟩ := e
  obtain ⟨hname, hvalue⟩ := h
  rw [findTenantParam, if_pos ⟨hname, List.length_pos_of_mem (List.mem_of_mem_head? hvalue)⟩]
  exact hvalue

theorem findTenantParam_of_not_offers (h : ∀ v, ¬ Offers table e v) :
    findTenantParam table (e :: order) = findTenantParam table order := by
  obtain ⟨name, values⟩ := e
  rw [findTenantParam, if_neg]
  rintro ⟨hname, hlen⟩
  exact h _ ⟨hname, List.head?_eq_some_head (List.ne_nil_of_length_pos hlen)⟩

theorem findTenantParam_spec (table : Nat → Nat) (order : List (GoString × List GoString)) :
    match findTenantParam table order with
    | some v => ∃ e ∈ order, Offers table e v
    | none => ∀ e ∈ order, ∀ v, ¬ Offers table e v := by
  induction order with
  | nil => exact fun e he => absurd he List.not_mem_nil
  | cons e order ih =>
    by_cases h : ∃ v, Offers table e v
    · obtain ⟨v, hv⟩ := h
      rw [findTenantParam_of_offers hv]
      exact ⟨e, List.mem_cons_self, hv⟩
    · have h : ∀ v, ¬ Offers table e v := fun v hv => h ⟨v, hv⟩
      rw [findTenantParam_of_not_offers h]
      cases hrest : findTenantParam table order with
      | none =>
        rw [hrest] at ih
        intro e' he'
        rcases List.mem_cons.mp he' with rfl | he'
        · exact h
        · exact ih e' he'
      | some v =>
        rw [hrest] at ih
        obtain ⟨e', he', hv⟩ := ih
        exact ⟨e', List.mem_cons_of_mem e he', hv⟩

end Loop

/-- The order is one in which the query of the request may be visited. -/
def TenantRequest.Visits (r : TenantRequest) (order : List (GoString × List GoString)) : Prop :=
  order.Perm (parseQuery limit r.rawQuery).entries

/-- The value comes first in the query string under a spelling of the parameter. -/
def TenantRequest.Spells (r : TenantRequest) (v : GoString) : Prop :=
  ∃ name, toLower table name = tenantIDQueryParamLower ∧
    (queryParams limit r.rawQuery).lookup name = some v

def TenantRequest.tenantID (r : TenantRequest) (order : List (GoString × List GoString)) :
    Option UUID :=
  (parseUUID (extractTenantID table order r.header)).toOption

/-- All the spellings of the parameter name the same tenant, or none at all. -/
def TenantRequest.Agrees (r : TenantRequest) : Prop :=
  ∀ v v', r.Spells table limit v → r.Spells table limit v' →
    (parseUUID v).toOption = (parseUUID v').toOption

variable {table limit} {r : TenantRequest} {order order' : List (GoString × List GoString)}

theorem TenantRequest.spells_iff {v : GoString} : r.Spells table limit v ↔
    ∃ e ∈ (parseQuery limit r.rawQuery).entries, Offers table e v := by
  constructor
  · rintro ⟨name, hname, hv⟩
    rw [← first_parseQuery, Values.first, Option.bind_eq_some_iff] at hv
    obtain ⟨vs, hvs, hv⟩ := hv
    exact ⟨(name, vs), GoMap.mem_entries.mpr hvs, hname, hv⟩
  · rintro ⟨⟨name, vs⟩, he, hname, hv⟩
    refine ⟨name, hname, ?_⟩
    rw [← first_parseQuery, Values.first, GoMap.mem_entries.mp he]
    exact hv

theorem TenantRequest.tenantID_eq (h : r.Agrees table limit) (ho : r.Visits limit order)
    (ho' : r.Visits limit order') : r.tenantID table order = r.tenantID table order' := by
  have hspells {order} (ho : r.Visits limit order) {v} :
      (∃ e ∈ order, Offers table e v) → r.Spells table limit v := by
    rintro ⟨e, he, hv⟩
    exact spells_iff.mpr ⟨e, ho.mem_iff.mp he, hv⟩
  -- both orders have the same entries, so that the parameter is found in both or in none
  have hspec := findTenantParam_spec table order
  have hspec' := findTenantParam_spec table order'
  rw [tenantID, tenantID, extractTenantID, extractTenantID]
  cases hv : findTenantParam table order with
  | none =>
    cases hv' : findTenantParam table order' with
    | none => rfl
    | some v' =>
      rw [hv] at hspec
      rw [hv'] at hspec'
      obtain ⟨e, he, hoffers⟩ := hspec'
      exact absurd hoffers (hspec e ((ho'.trans ho.symm).mem_iff.mp he) v')
  | some v =>
    rw [hv] at hspec
    cases hv' : findTenantParam table order' with
    | none =>
      rw [hv'] at hspec'
      obtain ⟨e, he, hoffers⟩ := hspec
      exact absurd hoffers (hspec' e ((ho.trans ho'.symm).mem_iff.mp he) v)
    | some v' =>
      rw [hv'] at hspec'
      exact h v v' (hspells ho hspec) (hspells ho' hspec')

theorem TenantRequest.exists_order {v : GoString} (h : r.Spells table limit v) :
    ∃ order, r.Visits limit order ∧
      r.tenantID table order = (parseUUID v).toOption := by
  obtain ⟨e, he, hv⟩ := spells_iff.mp h
  refine ⟨e :: (parseQuery limit r.rawQuery).entries.erase e, (List.perm_cons_erase he).symm, ?_⟩
  rw [tenantID, extractTenantID, findTenantParam_of_offers hv]
  rfl

theorem tenant_eq_of_tenantID {τ : Type} (asBase : τ → Base)
    (findTenant : UUID → Tenant.Answer τ)
    (h : r.tenantID table order = r.tenantID table order') :
    tenant table asBase findTenant order r.header =
      tenant table asBase findTenant order' r.header := by
  rw [tenant, tenant]
  rw [TenantRequest.tenantID, TenantRequest.tenantID] at h
  cases hid : parseUUID (extractTenantID table order r.header) with
  | error err =>
    cases hid' : parseUUID (extractTenantID table order' r.header) with
    | error err' => rfl
    | ok id' =>
      rw [hid, hid'] at h
      cases h
  | ok id =>
    cases hid' : parseUUID (extractTenantID table order' r.header) with
    | error err' =>
      rw [hid, hid'] at h
      cases h
    | ok id' =>
      rw [hid, hid'] at h
      cases h
      rfl

/-- Every order of the query gives the same tenant id, and then the same tenant, exactly if the
spellings of the parameter agree. -/
theorem tenantID_same_iff (table : Nat → Nat) (limit : Option Nat) (r : TenantRequest) :
    ((∀ order order', r.Visits limit order → r.Visits limit order' →
        r.tenantID table order = r.tenantID table order') ↔ r.Agrees table limit) ∧
      (r.Agrees table limit → ∀ (τ : Type) (asBase : τ → Base)
        (findTenant : UUID → Tenant.Answer τ) (order order' : List (GoString × List GoString)),
        r.Visits limit order → r.Visits limit order' →
          tenant table asBase findTenant order r.header =
            tenant table asBase findTenant order' r.header) := by
  refine ⟨⟨fun h v v' hv hv' => ?_, fun h order order' => TenantRequest.tenantID_eq h⟩, ?_⟩
  · obtain ⟨order, ho, hid⟩ := TenantRequest.exists_order hv
    obtain ⟨order', ho', hid'⟩ := TenantRequest.exists_order hv'
    rw [← hid, ← hid']
    exact h order order' ho ho'
  · intro h τ asBase findTenant order order' ho ho'
    exact tenant_eq_of_tenantID asBase findTenant (TenantRequest.tenantID_eq h ho ho')

def twoTenants : TenantRequest where
  rawQuery := bytes ("tenantId=00000000-0000-0000-0000-000000000001&" ++
    "TenantID=00000000-0000-0000-0000-000000000002")
  header := fun _ => []

/-- Two spellings, and the order decides. -/
theorem twoTenants_differ :
    let visited := (parseQuery none twoTenants.rawQuery).entries
    twoTenants.Visits none visited ∧ twoTenants.Visits none visited.reverse ∧
      twoTenants.tenantID id visited ≠ twoTenants.tenantID id visited.reverse :=
  ⟨.refl _, List.reverse_perm _, by decide +kernel⟩

end Middleware

end Microjet
