import Microjet.Dynamo.Batch
import Microjet.Proofs.DynamoWalk

/-!
# BatchGet loses and duplicates nothing

A server splits the keys of a request into those it processes and those it leaves (`Splits`). So
in every round what has been collected and what is still asked for make up the chunk, up to
order, and an answer never asks for more than the request did.
-/

namespace Microjet.Dynamo

open Errorx

/-- An answer to a request for `keys`; leaving none may be said in two ways. -/
structure Splits (stored : Key → Option (GoMap AttributeValue)) (tableName : GoString)
    (keys : List Key) (out : BatchGetItemOutput) : Prop where
  split : ∃ processed unprocessed, keys.Perm (processed ++ unprocessed) ∧
    ((out.responses.entries.map Prod.snd).flatten).Perm (processed.filterMap stored) ∧
    (out.unprocessedKeys.entries = [] ∧ unprocessed = [] ∨
      out.unprocessedKeys.entries = [(tableName, unprocessed)])

/-- The keys asked for. -/
def RequestItems.keys (r : RequestItems) : List Key := (r.entries.map Prod.snd).flatten

section Rounds

variable {t : StructType} {ν φ ε : Type} {text : TextMethods ν} {sdk : Sdk t ν φ ε}
  {table : Table t} {serve : Nat → RequestItems → Except Err BatchGetItemOutput}
  {stored : Key → Option (GoMap AttributeValue)}

/-- The items are those stored under the keys. -/
def Holds (text : TextMethods ν) (sdk : Sdk t ν φ ε) (table : Table t)
    (stored : Key → Option (GoMap AttributeValue)) (keys : List Key)
    (items : List (Nat → Handle ν)) : Prop :=
  (items.map Out.ok).Perm ((keys.filterMap stored).map (unmarshalItem text sdk table))

theorem unmarshalItems_ok {raws : List (GoMap AttributeValue)} {items : List (Nat → Handle ν)}
    (h : unmarshalItems text sdk table raws = .ok items) :
    items.map Out.ok = raws.map (unmarshalItem text sdk table) := by
  induction raws generalizing items with
  | nil =>
    cases h
    rfl
  | cons raw raws ih =>
    obtain ⟨item, rest, hitem, hrest, rfl⟩ := Out.bind₂_eq_ok.mp h
    rw [List.map_cons, List.map_cons, ih hrest, hitem]

theorem Holds.append {ks ks' : List Key} {xs ys : List (Nat → Handle ν)}
    (hx : Holds text sdk table stored ks xs) (hy : Holds text sdk table stored ks' ys) :
    Holds text sdk table stored (ks ++ ks') (xs ++ ys) := by
  rw [Holds, List.map_append, List.filterMap_append, List.map_append]
  exact List.Perm.append hx hy

theorem Holds.perm {ks ks' : List Key} {xs : List (Nat → Handle ν)}
    (hx : Holds text sdk table stored ks xs) (hp : ks.Perm ks') :
    Holds text sdk table stored ks' xs :=
  hx.trans ((hp.filterMap stored).map _)

variable {r : RequestItems} {ks : List Key}

theorem eq_single {tableName : GoString} (h : r.entries = [(tableName, ks)]) :
    r = GoMap.single tableName ks := by
  obtain ⟨entries, distinct⟩ := r
  cases h
  rfl

theorem keys_single (tableName : GoString) (ks : List Key) :
    RequestItems.keys (GoMap.single tableName ks) = ks := List.flatten_singleton

theorem fetchRounds_done {fuel n : Nat} {acc : List (Nat → Handle ν)} (h : r.entries = []) :
    fetchRounds text sdk table serve fuel n r acc = ⟨[], some (.ok acc)⟩ := by
  cases fuel <;> rw [fetchRounds, if_pos h]

variable (text sdk table serve) in
theorem fetchRounds_round (fuel n : Nat) (ks : List Key) (acc : List (Nat → Handle ν)) :
    (∃ result, fetchRounds text sdk table serve (fuel + 1) n (GoMap.single table.tableName ks) acc =
        ⟨[GoMap.single table.tableName ks], some result⟩ ∧ ∀ items, result ≠ .ok items) ∨
      ∃ out items, serve n (GoMap.single table.tableName ks) = .ok out ∧
        unmarshalItems text sdk table (out.responses.entries.map Prod.snd).flatten = .ok items ∧
        fetchRounds text sdk table serve (fuel + 1) n (GoMap.single table.tableName ks) acc =
          ⟨GoMap.single table.tableName ks ::
            (fetchRounds text sdk table serve fuel (n + 1) out.unprocessedKeys
              (acc ++ items)).requests,
            (fetchRounds text sdk table serve fuel (n + 1) out.unprocessedKeys
              (acc ++ items)).result⟩ := by
  have hne : (GoMap.single table.tableName ks).entries ≠ [] := List.cons_ne_nil _ _
  rw [fetchRounds, if_neg hne]
  cases hs : serve n (GoMap.single table.tableName ks) with
  | error err => exact .inl ⟨_, rfl, nofun⟩
  | ok out =>
    dsimp only
    cases hu : unmarshalItems text sdk table (out.responses.entries.map Prod.snd).flatten with
    | error err => exact .inl ⟨_, rfl, nofun⟩
    | panic => exact .inl ⟨_, rfl, nofun⟩
    | ok items => exact .inr ⟨out, items, rfl, hu, rfl⟩

theorem fetchRounds_spec (hserve : ∀ n ks out,
      serve n (GoMap.single table.tableName ks) = .ok out → Splits stored table.tableName ks out)
    {fuel n : Nat} {acc : List (Nat → Handle ν)} {fetched : Fetched (List (Nat → Handle ν))}
    (hr : r.entries = [] ∧ ks = [] ∨ r.entries = [(table.tableName, ks)])
    (h : fetchRounds text sdk table serve fuel n r acc = fetched) :
    (∀ r' ∈ fetched.requests, r'.keys.length ≤ ks.length) ∧
      ∀ items, fetched.result = some (.ok items) →
        ∃ got, items = acc ++ got ∧ Holds text sdk table stored ks got := by
  induction fuel generalizing n r ks acc fetched with
  | zero =>
    subst h
    rcases hr with ⟨hnil, rfl⟩ | hr
    · rw [fetchRounds_done hnil]
      refine ⟨nofun, fun items hitems => ?_⟩
      cases hitems
      exact ⟨[], (List.append_nil acc).symm, .refl _⟩
    · rw [fetchRounds, if_neg (by rw [hr]; exact List.cons_ne_nil _ _)]
      exact ⟨nofun, nofun⟩
  | succ fuel ih =>
    subst h
    rcases hr with ⟨hnil, rfl⟩ | hr
    · rw [fetchRounds_done hnil]
      refine ⟨nofun, fun items hitems => ?_⟩
      cases hitems
      exact ⟨[], (List.append_nil acc).symm, .refl _⟩
    · rw [eq_single hr]
      have hself : (RequestItems.keys (GoMap.single table.tableName ks)).length ≤ ks.length :=
        (congrArg List.length (keys_single _ ks)).le
      rcases fetchRounds_round text sdk table serve fuel n ks acc with
        ⟨result, heq, hnot⟩ | ⟨out, items, hs, hu, heq⟩
      · rw [heq]
        refine ⟨fun r' hr' => List.mem_singleton.mp hr' ▸ hself, fun items hitems => ?_⟩
        cases hitems
        exact absurd rfl (hnot items)
      · obtain ⟨processed, unprocessed, hsplit, hresp, hleft⟩ := (hserve n ks out hs).split
        have hle : unprocessed.length ≤ ks.length := by
          rw [hsplit.length_eq, List.length_append]
          omega
        have hitems : Holds text sdk table stored processed items := by
          rw [Holds, unmarshalItems_ok hu]
          exact hresp.map _
        obtain ⟨hreqs, hres⟩ := ih hleft rfl
        rw [heq]
        constructor
        · intro r' hr'
          rcases List.mem_cons.mp hr' with rfl | hr'
          · exact hself
          · exact (hreqs r' hr').trans hle
        · intro all hall
          obtain ⟨got, rfl, hgot⟩ := hres all hall
          exact ⟨items ++ got, List.append_assoc _ _ _, (hitems.append hgot).perm hsplit.symm⟩

theorem buildKeys_ok {keys : List (Item t ν)} (h : buildKeys text table keys = .ok ks) :
    ks.map Out.ok = keys.map fun key => buildKey text table.tags (key.handles table.pointers) := by
  induction keys generalizing ks with
  | nil =>
    cases h
    rfl
  | cons key keys ih =>
    obtain ⟨k, rest, hk, hrest, rfl⟩ := Out.bind₂_eq_ok.mp h
    rw [List.map_cons, List.map_cons, ih hrest, hk]

theorem fetchChunks_spec (hserve : ∀ n ks out,
      serve n (GoMap.single table.tableName ks) = .ok out → Splits stored table.tableName ks out)
    (fuel : Nat) {size n : Nat} {chunks : List (List (Item t ν))}
    (hsize : ∀ c ∈ chunks, c.length ≤ size) (acc : List (Nat → Handle ν)) :
    (∀ r ∈ (fetchChunks text sdk table serve fuel n chunks acc).requests, r.keys.length ≤ size) ∧
      ∀ items, (fetchChunks text sdk table serve fuel n chunks acc).result = some (.ok items) →
        ∃ ks got, ks.map Out.ok = chunks.flatten.map (fun key =>
            buildKey text table.tags (key.handles table.pointers)) ∧
          items = acc ++ got ∧ Holds text sdk table stored ks got := by
  induction chunks generalizing n acc with
  | nil =>
    refine ⟨nofun, fun items hitems => ?_⟩
    cases hitems
    exact ⟨[], [], rfl, (List.append_nil acc).symm, .refl _⟩
  | cons chunk chunks ih =>
    rw [fetchChunks]
    cases hk : buildKeys text table chunk with
    | error err => exact ⟨nofun, nofun⟩
    | panic => exact ⟨nofun, nofun⟩
    | ok ks =>
      dsimp only
      have hks := buildKeys_ok hk
      have hlen : ks.length ≤ size := by
        have := congrArg List.length hks
        rw [List.length_map, List.length_map] at this
        exact this.trans_le (hsize chunk List.mem_cons_self)
      generalize hf : fetchRounds text sdk table serve fuel n
        (GoMap.single table.tableName ks) acc = fetched
      obtain ⟨hreqs, hres⟩ := fetchRounds_spec hserve (.inr rfl) hf
      split
      · next result hresult =>
          obtain ⟨got, rfl, hgot⟩ := hres result hresult
          obtain ⟨hreqs', hres'⟩ := ih (n := n + fetched.requests.length)
            (fun c hc => hsize c (List.mem_cons_of_mem chunk hc)) (acc ++ got)
          constructor
          · intro r hr
            rcases List.mem_append.mp hr with hr | hr
            · exact (hreqs r hr).trans hlen
            · exact hreqs' r hr
          · intro items hitems
            obtain ⟨ks', got', hks', rfl, hgot'⟩ := hres' items hitems
            refine ⟨ks ++ ks', got ++ got', ?_, List.append_assoc _ _ _, hgot.append hgot'⟩
            rw [List.map_append, hks, hks', List.flatten_cons, List.map_append]
      · next hnot =>
          exact ⟨fun r hr => (hreqs r hr).trans hlen, fun items hitems =>
            absurd hitems (hnot items)⟩

/-- No request is for more than 100 keys, and a call without an error returns one item for each
of its keys that is stored, and no other. -/
theorem batchGet_complete (text : TextMethods ν) (sdk : Sdk t ν φ ε) (table : Table t)
    (serve : Nat → RequestItems → Except Err BatchGetItemOutput)
    (stored : Key → Option (GoMap AttributeValue))
    (hserve : ∀ n ks out, serve n (GoMap.single table.tableName ks) = .ok out →
      Splits stored table.tableName ks out)
    (fuel : Nat) (keys : List (Item t ν)) :
    (∀ r ∈ (table.batchGet text sdk serve fuel keys).requests, r.keys.length ≤ 100) ∧
      ∀ items, (table.batchGet text sdk serve fuel keys).result = some (.ok items) →
        ∃ ks, ks.map Out.ok = keys.map (fun key =>
            buildKey text table.tags (key.handles table.pointers)) ∧
          Holds text sdk table stored ks items := by
  obtain ⟨hreqs, hres⟩ := fetchChunks_spec (n := 0) hserve fuel
    (fun c hc => Chunks.length_le_of_mem_chunks hc) []
  refine ⟨hreqs, fun items hitems => ?_⟩
  obtain ⟨ks, got, hks, rfl, hgot⟩ := hres items hitems
  rw [Chunks.flatten_chunks (by decide)] at hks
  exact ⟨ks, hks, hgot⟩

end Rounds

/-- One of two memos is stored. -/
def memoStored (key : Key) : Option (GoMap AttributeValue) :=
  if key.2 = bytes "memo#b" then some (memoRow (bytes "b")).attrs else none

/-- A server that answers the first key only. -/
def firstOnly (_ : Nat) (r : RequestItems) : Except Err BatchGetItemOutput :=
  match r.entries with
  | [(name, [k])] => .ok ⟨GoMap.single name (memoStored k).toList, .empty⟩
  | [(name, k :: ks)] => .ok ⟨GoMap.single name (memoStored k).toList, GoMap.single name ks⟩
  | _ => .ok ⟨.empty, .empty⟩

theorem firstOnly_splits (n : Nat) (ks : List Key) (out : BatchGetItemOutput)
    (h : firstOnly n (GoMap.single noteTable.tableName ks) = .ok out) :
    Splits memoStored noteTable.tableName ks out := by
  have hone : ∀ k, (memoStored k).toList = [k].filterMap memoStored := by
    intro k
    cases hk : memoStored k <;> simp [hk]
  rcases ks with _ | ⟨k, _ | ⟨k', ks⟩⟩
  · cases h
    exact ⟨[], [], .refl _, .refl _, .inl ⟨rfl, rfl⟩⟩
  · cases h
    exact ⟨[k], [], .refl _, .of_eq (List.flatten_singleton.trans (hone k)), .inl ⟨rfl, rfl⟩⟩
  · cases h
    exact ⟨[k], k' :: ks, .refl _, .of_eq (List.flatten_singleton.trans (hone k)), .inr rfl⟩

theorem memos_fetched :
    ∃ items, (noteTable.batchGet noText noteSdk firstOnly 2
        [note tenant (bytes "memo") (bytes "a"), note tenant (bytes "memo") (bytes "b")]).result =
          some (.ok items) ∧
      (noteTable.batchGet noText noteSdk firstOnly 2
        [note tenant (bytes "memo") (bytes "a"),
          note tenant (bytes "memo") (bytes "b")]).requests.length = 2 ∧
      items.length = 1 ∧ ∃ ks,
        ks.map Out.ok = [note tenant (bytes "memo") (bytes "a"),
          note tenant (bytes "memo") (bytes "b")].map (fun key =>
            buildKey noText noteTable.tags (key.handles noteTable.pointers)) ∧
        Holds noText noteSdk noteTable memoStored ks items := by
  refine ⟨_, rfl, rfl, rfl, ?_⟩
  obtain ⟨-, hres⟩ := batchGet_complete noText noteSdk noteTable firstOnly memoStored
    firstOnly_splits 2
    [note tenant (bytes "memo") (bytes "a"), note tenant (bytes "memo") (bytes "b")]
  exact hres _ rfl

end Microjet.Dynamo
