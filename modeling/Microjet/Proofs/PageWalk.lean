import Microjet.Gormx.Walk

/-!
# What a walk through the pages returns

`Table.list` with a page request is one step of a sweep by key (`list_page`), so a walk is a
`Keyset.Sweep` (`walk_sweep`), for scopes that show every row once and with its cursor column
(`Table.Steady`).
-/

namespace Microjet.Gormx

open Errorx Microjet.Types

variable {ρ V : Type}

/-! ## One request -/

/-- The token stands for the bound: no token or an empty one for none. -/
def Client.Decodes (c : Client ρ V) (token : Option GoString)
    (bound : Option (Option V)) : Prop :=
  decodePageToken c.json token = .ok (bound.map PageData.mk)

/-- The cursor condition of a request. -/
def Client.cursor (c : Client ρ V) (bound : Option (Option V)) : List (Cond ρ V) :=
  match bound with
  | none => []
  | some v => [.compare (c.cursorCol ++ if c.desc then " < ?" else " > ?") v]

/-- The order term of the request. -/
def Client.orderBy (c : Client ρ V) : String :=
  c.cursorCol ++ if c.desc then " DESC" else " ASC"

/-- The query of a request whose token stands for the bound. -/
def Client.query (c : Client ρ V) (t : Table ρ V) (bound : Option (Option V)) :
    Query ρ V :=
  { t.db with
    wheres := t.db.wheres ++ c.cursor bound
    orders := t.db.orders ++ [c.orderBy]
    limit := some (c.pageSize + 1) }

section Request

variable {c : Client ρ V} {token : Option GoString} {bound : Option (Option V)}

theorem decodes_none : c.Decodes none none := rfl

theorem checkedPageSize_client (c : Client ρ V) :
    checkedPageSize c.pageSize = .ok c.pageSize := by
  have hpos := c.pageSize_pos
  have hle := c.pageSize_le
  rw [checkedPageSize, if_neg (by omega), if_neg (by omega), Int.toNat_natCast]

theorem request_eq : c.request token = PageRequest.listRequest c.json c.intSize
    ⟨⟨c.pageSize, token, none⟩, c.cursorCol, c.cursorFn, c.desc⟩ := by
  cases hd : c.desc <;> simp only [Client.request, hd] <;> rfl

theorem request_pageSize : (c.request token).pageSize = c.pageSize := by
  have hpos := c.pageSize_pos
  rw [request_eq]
  show (if (c.pageSize : Int) = 0 then _ else (c.pageSize : Int)) = _
  rw [if_neg (by omega)]

theorem request_orderBy : (c.request token).orderBy = c.orderBy := by
  rw [request_eq, Client.orderBy]
  show (if c.desc then _ else _) = _
  split <;> rfl

theorem request_currentPageData (h : c.Decodes token bound) :
    (c.request token).currentPageData = .ok (c.cursor bound).head? := by
  rw [request_eq]
  show PageRequest.currentPageData c.json _ = _
  rw [PageRequest.currentPageData, h]
  cases bound with
  | none => rfl
  | some v =>
    show Except.ok (some (Cond.compare _ v)) = Except.ok (some (Cond.compare _ v))
    cases hd : c.desc <;> simp [String.append_assoc]

theorem request_createNextPageToken {items : List ρ} {x : ρ}
    (hx : items.getLast? = some x) :
    (c.request token).createNextPageToken items =
      encodePageToken c.json ⟨c.cursorFn x⟩ := by
  rw [request_eq]
  show PageRequest.createNextPageToken c.json _ items = _
  rw [PageRequest.createNextPageToken, hx]

theorem list_eq (h : c.Decodes token bound) (db : DB ρ V) (t : Table ρ V) :
    t.list db (c.request token) = (db.find (c.query t bound) >>= fun items =>
      if c.pageSize < items.length then
        (c.request token).createNextPageToken (items.take c.pageSize) >>= fun next =>
          .ok ⟨items.take c.pageSize, c.pageSize, -1, next⟩
      else .ok ⟨items, c.pageSize, -1, none⟩) := by
  have hcursor : applyCursor ((t.db.order c.orderBy).withLimit (c.pageSize + 1))
      (c.request token) = .ok (c.query t bound) := by
    have hnone : (c.request token).cursorScope = none := by rw [request_eq]; rfl
    rw [applyCursor, hnone]
    dsimp only
    rw [request_currentPageData h]
    cases bound with
    | none =>
      show Except.ok _ = Except.ok _
      simp [Client.query, Client.cursor, Query.withLimit, Query.order]
    | some v => rfl
  have hoffset : (c.request token).offset = some none := by rw [request_eq]; rfl
  have hscope : (c.request token).scope = none := by rw [request_eq]; rfl
  rw [Table.list, request_pageSize, checkedPageSize_client, hoffset]
  show listByCursor db t _ c.pageSize = _
  rw [listByCursor, request_orderBy, applyFilter, hscope]
  dsimp only
  rw [hcursor]
  rfl

end Request

/-! ## One page

The assumptions on the surroundings from here on: the database reads the column
as SQL says, the scopes of the table are of the kinds named here, and the JSON
library reads back the values it wrote. -/

/-- The table has filter scopes only. -/
def Table.FilterOnly (t : Table ρ V) : Prop :=
  ∀ s ∈ t.scopes, ∃ keep, s = Query.andWhere (.filter keep)

/-- The scopes have left conditions only. -/
def Table.Plain (t : Table ρ V) : Prop := t.db = { wheres := t.db.wheres }

variable {t : Table ρ V}

theorem Table.FilterOnly.plain (h : t.FilterOnly) : t.Plain := by
  have hfold : ∀ (scopes : List (Query ρ V → Query ρ V)) (wheres : List (Cond ρ V)),
      (∀ s ∈ scopes, ∃ keep, s = Query.andWhere (.filter keep)) →
      ∃ wheres', scopes.foldl (fun q s => s q) { wheres } = { wheres := wheres' } := by
    intro scopes
    induction scopes with
    | nil =>
      intro wheres _
      exact ⟨wheres, rfl⟩
    | cons s scopes ih =>
      intro wheres hs
      obtain ⟨keep, rfl⟩ := hs s (by simp)
      exact ih _ fun s' hs' => hs s' (List.mem_cons_of_mem _ hs')
  obtain ⟨wheres, hdb⟩ := hfold t.scopes [] h
  have hdb : t.db = { wheres } := hdb
  rw [Table.Plain, hdb]

/-- The scopes keep the order and the range, and show every row once or not at all, with the
cursor column. -/
structure Table.Steady (t : Table ρ V) (cursorFn : ρ → Option V) : Prop where
  orders : t.db.orders = []
  limit : t.db.limit = none
  offset : t.db.offset = 0
  joins : ∀ r, t.db.joins r ≤ 1
  grouping : t.db.grouping = none
  columns : ∀ r, cursorFn (t.db.columns r) = cursorFn r
  distinct : ∀ same ∈ t.db.distinct, ∀ r s, same r s = true → cursorFn r = cursorFn s
  skipLocked : t.db.skipLocked = false

theorem Table.Plain.steady (h : t.Plain) (cursorFn : ρ → Option V) :
    t.Steady cursorFn := by
  constructor <;> rw [h]
  · exact fun _ => Nat.le_refl 1
  · exact fun _ => rfl
  · nofun

/-- The query is about the row. -/
def Table.keeps (sql : Sql ρ V) (t : Table ρ V) (r : ρ) : Bool :=
  t.db.joins r == 1 && t.db.matches sql r

/-- What the scopes leave of the rows of the table. -/
def Table.visible (sql : Sql ρ V) (t : Table ρ V) (rows : List ρ) : List ρ :=
  (rows.filter (t.keeps sql)).map t.db.columns

theorem Table.Plain.visible (h : t.Plain) (sql : Sql ρ V) (rows : List ρ) :
    t.visible sql rows = rows.filter (t.db.matches sql) := by
  have hkeeps : t.keeps sql = t.db.matches sql := by
    funext r
    rw [Table.keeps, show t.db.joins r = 1 by rw [h]]
    rfl
  rw [Table.visible, hkeeps, show t.db.columns = id by rw [h], List.map_id]

variable {q : Query ρ V}

theorem matching_eq (sql : Sql ρ V) (h : ∀ r, q.joins r ≤ 1) (rows : List ρ) :
    q.matching sql rows = rows.filter fun r => q.joins r == 1 && q.matches sql r := by
  have hjoin : (rows.flatMap fun r => List.replicate (q.joins r) r) =
      rows.filter fun r => q.joins r == 1 := by
    induction rows with
    | nil => rfl
    | cons r rows ih =>
      have hr := h r
      rw [List.flatMap_cons, ih]
      obtain hzero | hone : q.joins r = 0 ∨ q.joins r = 1 := by omega
      · simp [hzero]
      · simp [hone]
  rw [Query.matching, hjoin, List.filter_filter]
  simp only [Bool.and_comm]

/-- What an answer is where nothing is grouped or skipped. -/
theorem Query.Answers.sorted {sql : Sql ρ V} {rows items : List ρ}
    (h : q.Answers sql rows items) (hjoins : ∀ r, q.joins r ≤ 1) (hgrouping : q.grouping = none)
    (hlocked : q.skipLocked = false) :
    ∃ sorted : List ρ,
      sorted.Perm (rows.filter fun r => q.joins r == 1 && q.matches sql r) ∧
      sorted.Pairwise (lexLe sql q.orders) ∧ items = q.cut (q.shown sorted) := by
  obtain ⟨seen, sorted, hseen, hperm, hsorted, hitems⟩ := h
  rw [hlocked, if_neg Bool.false_ne_true, matching_eq sql hjoins] at hseen
  rw [Query.grouped, hgrouping] at hperm
  exact ⟨sorted, hperm.trans hseen, hsorted, hitems⟩

theorem firstOf_eq_self {same : ρ → ρ → Bool} {rows : List ρ}
    (h : rows.Pairwise fun r s => same r s = false) : firstOf same rows = rows := by
  induction h with
  | nil => rfl
  | cons hhead _ ih =>
    rw [firstOf, ih, List.filter_eq_self.mpr fun s hs => by rw [hhead s hs]; rfl]

theorem shown_eq {sorted : List ρ} {cursorFn : ρ → Option V}
    (hcolumns : ∀ r, cursorFn (q.columns r) = cursorFn r)
    (hdistinct : ∀ same ∈ q.distinct, ∀ r s, same r s = true → cursorFn r = cursorFn s)
    (h : q.distinct = none ∨ (sorted.map cursorFn).Nodup) :
    q.shown sorted = sorted.map q.columns := by
  rw [Query.shown]
  split
  · rfl
  · next same hsame =>
      refine firstOf_eq_self (List.pairwise_map.mpr ?_)
      have hnodup := h.resolve_left (by rw [hsame]; exact Option.some_ne_none same)
      refine (List.pairwise_map.mp hnodup).imp fun {r s} hne => ?_
      refine Bool.eq_false_iff.mpr fun heq => hne ?_
      rw [← hcolumns r, ← hcolumns s, hdistinct same hsame _ _ heq]

theorem after_congr {K : Keyset.Order (Option V)} {key : ρ → Option V}
    {bound : Option (Option V)} {r s : ρ} (h : key r = key s) :
    Keyset.after K key bound r = Keyset.after K key bound s := by
  cases bound with
  | none => rfl
  | some v => exact congrArg (K.beyond v) h

section Page

variable [LinearOrder V] {sql : Sql ρ V} {nullsLow : Bool} {c : Client ρ V}
  {t : Table ρ V}

theorem query_matches (hsql : sql.Reads nullsLow c.cursorCol c.cursorFn)
    (bound : Option (Option V)) (r : ρ) :
    (c.query t bound).matches sql r =
      (t.db.matches sql r &&
        Keyset.after (cursorOrder V nullsLow c.desc) c.cursorFn bound r) := by
  rw [Query.matches, Client.query, List.all_append]
  congr 1
  cases bound with
  | none => rfl
  | some v =>
    have hcmp : sql.holds (c.cursorCol ++ if c.desc then " < ?" else " > ?") v r =
        beyond c.desc v (c.cursorFn r) := by
      cases hd : c.desc
      · exact hsql.gt v r
      · exact hsql.lt v r
    simp only [Client.cursor, List.all_cons, List.all_nil, Bool.and_true, Cond.holds]
    exact hcmp

theorem query_order (hsql : sql.Reads nullsLow c.cursorCol c.cursorFn)
    (ht : t.Steady c.cursorFn) (bound : Option (Option V)) (r s : ρ) :
    lexLe sql (c.query t bound).orders r s ↔
      (cursorOrder V nullsLow c.desc).le (c.cursorFn r) (c.cursorFn s) := by
  have hle : sql.le c.orderBy r s ↔
      leDir nullsLow c.desc (c.cursorFn r) (c.cursorFn s) := by
    rw [Client.orderBy]
    cases hd : c.desc
    · exact hsql.asc r s
    · exact hsql.desc r s
  show lexLe sql (t.db.orders ++ [c.orderBy]) r s ↔ _
  rw [ht.orders, List.nil_append]
  show sql.le c.orderBy r s ∧ (sql.le c.orderBy s r → True) ↔ _
  rw [hle]
  simp [cursorOrder]

/-- The first rows of a list in order, and the token for the last of them if there are more. -/
def Client.IsPage (c : Client ρ V) (nullsLow : Bool) (rows : List ρ)
    (bound : Option (Option V)) (page : PagedResult ρ) : Prop :=
  ∃ l : List ρ,
    l.Perm (rows.filter (Keyset.after (cursorOrder V nullsLow c.desc) c.cursorFn bound)) ∧
    Keyset.InOrder (cursorOrder V nullsLow c.desc) c.cursorFn l ∧
    ((l.length ≤ c.pageSize ∧ page.items = l ∧ page.nextPageToken = none) ∨
      (c.pageSize < l.length ∧ page.items = l.take c.pageSize ∧
        ∃ x next, (l.take c.pageSize).getLast? = some x ∧
          page.nextPageToken = some next ∧ c.Decodes (some next) (some (c.cursorFn x))))

variable (hsql : sql.Reads nullsLow c.cursorCol c.cursorFn) (ht : t.Steady c.cursorFn)

include hsql ht

/-- The rows of the table in order, up to one more than the page has room for. -/
theorem answers_query {rows items : List ρ}
    (hrows : t.db.distinct = none ∨ (rows.map c.cursorFn).Nodup) {bound : Option (Option V)}
    (hanswer : (c.query t bound).Answers sql rows items) :
    ∃ l : List ρ, l.Perm ((t.visible sql rows).filter
        (Keyset.after (cursorOrder V nullsLow c.desc) c.cursorFn bound)) ∧
      Keyset.InOrder (cursorOrder V nullsLow c.desc) c.cursorFn l ∧
      items = l.take (c.pageSize + 1) := by
  obtain ⟨sorted, hperm, hsorted, hitems⟩ := hanswer.sorted ht.joins ht.grouping ht.skipLocked
  have hkept : sorted.Perm ((rows.filter (t.keeps sql)).filter
      (Keyset.after (cursorOrder V nullsLow c.desc) c.cursorFn bound)) := by
    rw [List.filter_filter]
    convert hperm using 3 with r
    rw [query_matches hsql, Table.keeps, Bool.and_comm, Bool.and_assoc]
    rfl
  refine ⟨sorted.map t.db.columns, ?_, ?_, ?_⟩
  · rw [Table.visible, List.filter_map]
    convert hkept.map t.db.columns using 3
    funext r
    exact after_congr (ht.columns r)
  · rw [Keyset.InOrder, List.pairwise_map]
    refine hsorted.imp fun {r s} h => ?_
    rw [ht.columns, ht.columns]
    exact (query_order hsql ht bound r s).mp h
  · have hshown : (c.query t bound).shown sorted = sorted.map t.db.columns := by
      refine shown_eq ht.columns ht.distinct (hrows.imp_right fun hnodup => ?_)
      rw [hkept.map c.cursorFn |>.nodup_iff]
      exact ((List.filter_sublist.trans List.filter_sublist).map _).nodup hnodup
    rw [hitems, hshown]
    show ((sorted.map t.db.columns).drop t.db.offset).take (c.pageSize + 1) = _
    rw [ht.offset, List.drop_zero]

theorem list_page {rows : List ρ} (hrows : t.db.distinct = none ∨ (rows.map c.cursorFn).Nodup)
    (hjson : ∀ r ∈ rows, c.json.RoundTrips ⟨c.cursorFn r⟩) {db : DB ρ V}
    {token : Option GoString} {bound : Option (Option V)} (htoken : c.Decodes token bound)
    {items : List ρ} (hfind : db.find (c.query t bound) = .ok items)
    (hanswer : (c.query t bound).Answers sql rows items) :
    ∃ page, t.list db (c.request token) = .ok page ∧
      c.IsPage nullsLow (t.visible sql rows) bound page := by
  obtain ⟨l, hperm, horder, hitems⟩ := answers_query hsql ht hrows hanswer
  have htake : items.take c.pageSize = l.take c.pageSize := by
    rw [hitems, List.take_take, Nat.min_eq_left (Nat.le_succ _)]
  rw [list_eq htoken, hfind]
  show ∃ page, (if c.pageSize < items.length then _ else _) = Except.ok page ∧ _
  have hlen : items.length = min (c.pageSize + 1) l.length := by
    rw [hitems, List.length_take]
  have hpos := c.pageSize_pos
  -- the query asks for one row more than the page, which tells whether another page follows
  by_cases hmore : c.pageSize < l.length
  · rw [if_pos (by omega), htake]
    obtain ⟨x, hx⟩ : ∃ x, (l.take c.pageSize).getLast? = some x := by
      cases hlast : (l.take c.pageSize).getLast? with
      | some x => exact ⟨x, rfl⟩
      | none =>
        rw [List.getLast?_eq_none_iff, List.take_eq_nil_iff] at hlast
        rcases hlast with hzero | hnil
        · omega
        · rw [hnil, List.length_nil] at hmore
          omega
    have hround : c.json.RoundTrips ⟨c.cursorFn x⟩ := by
      have hl := hperm.subset (List.mem_of_mem_take (Keyset.mem_of_last hx))
      obtain ⟨r, hr, rfl⟩ := List.mem_map.mp (List.mem_of_mem_filter hl)
      rw [ht.columns]
      exact hjson r (List.mem_of_mem_filter hr)
    obtain ⟨next, henc, hdec⟩ := decodePageToken_encode hround
    refine ⟨⟨l.take c.pageSize, c.pageSize, -1, some next⟩, ?_, l, hperm, horder,
      .inr ⟨hmore, rfl, x, next, hx, rfl, hdec⟩⟩
    rw [request_createNextPageToken hx, henc]
    rfl
  · have hall : items = l := by
      rw [hitems, List.take_of_length_le (by omega)]
    rw [if_neg (by omega), hall]
    exact ⟨⟨l, c.pageSize, -1, none⟩, rfl, l, hperm, horder, .inl ⟨by omega, rfl, rfl⟩⟩

theorem list_isPage {rows : List ρ} (hrows : t.db.distinct = none ∨ (rows.map c.cursorFn).Nodup)
    (hjson : ∀ r ∈ rows, c.json.RoundTrips ⟨c.cursorFn r⟩) {db : DB ρ V}
    (hdb : ∀ q items, db.find q = .ok items → q.Answers sql rows items)
    {token : Option GoString} {bound : Option (Option V)} (htoken : c.Decodes token bound)
    {page : PagedResult ρ} (hlist : t.list db (c.request token) = .ok page) :
    c.IsPage nullsLow (t.visible sql rows) bound page := by
  cases hfind : db.find (c.query t bound) with
  | error err =>
    rw [list_eq htoken, hfind] at hlist
    cases hlist
  | ok items =>
    obtain ⟨page', hlist', hpage⟩ := list_page hsql ht hrows hjson htoken hfind
      (hdb _ items hfind)
    rw [hlist'] at hlist
    cases hlist
    exact hpage

end Page

/-! ## A table of orders

The concrete inputs below are orders, listed by the time they were made. -/

structure Order where
  id : Nat
  createdAt : Nat
  deriving DecidableEq

def orderSql : Sql Order Nat where
  holds := fun text arg r =>
    if text = "created_at > ?" then beyond false arg (some r.createdAt)
    else if text = "created_at < ?" then beyond true arg (some r.createdAt)
    else false
  le := fun term r s =>
    if term = "created_at ASC" then r.createdAt ≤ s.createdAt
    else if term = "created_at DESC" then s.createdAt ≤ r.createdAt
    else True

instance (term : String) : DecidableRel (orderSql.le term) := fun r s =>
  inferInstanceAs (Decidable (if term = "created_at ASC" then r.createdAt ≤ s.createdAt
    else if term = "created_at DESC" then s.createdAt ≤ r.createdAt else True))

def orderDB (rows : List Order) : DB Order Nat where
  find := fun q => .ok (q.eval orderSql rows)
  count := fun q => .ok (rows.filter (q.matches orderSql)).length

theorem orderDB_answers (rows : List Order) (q : Query Order Nat) :
    q.Answers orderSql rows (q.eval orderSql rows) := by
  refine eval_answers (fun term r s => ?_) (fun term r s u => ?_) q rows
  · show (if _ then _ else _) ∨ (if _ then _ else _)
    split
    · exact Nat.le_total _ _
    · split
      · exact Nat.le_total _ _
      · exact .inl trivial
  · show (if _ then _ else _) → (if _ then _ else _) → (if _ then _ else _)
    split
    · exact Nat.le_trans
    · split
      · exact fun hrs hsu => Nat.le_trans hsu hrs
      · exact fun _ _ => trivial

def fourOrders : List Order := [⟨1, 5⟩, ⟨2, 10⟩, ⟨3, 10⟩, ⟨4, 20⟩]

def withoutFirst : Table Order Nat := Table.andWhere (fun r => r.id != 1) {}

theorem withoutFirst_filterOnly : withoutFirst.FilterOnly := by
  intro s hs
  have hs : s ∈ [Query.andWhere (.filter fun r : Order => r.id != 1)] := hs
  exact ⟨_, List.mem_singleton.mp hs⟩

def ordersAt : Nat → List Order
  | 0 => [⟨1, 5⟩, ⟨2, 20⟩, ⟨3, 30⟩]
  | _ + 1 => [⟨2, 20⟩, ⟨3, 30⟩, ⟨4, 10⟩, ⟨5, 25⟩]

def decimal (n : Nat) : GoString := (Nat.toDigits 10 n).map fun ch => ch.toNat.toUInt8

def orderJSON : JSON (PageData Nat) where
  marshal := fun d =>
    .ok (bytes "\x7b\"v\":" ++ (match d.lastValue with
      | none => bytes "null"
      | some n => decimal n) ++ bytes "\x7d")
  unmarshal := fun b =>
    let body := (b.drop 5).dropLast
    if b ≠ bytes "\x7b\"v\":" ++ body ++ bytes "\x7d" then .error (.other "syntax error")
    else if body = bytes "null" then .ok ⟨none⟩
    else if body ≠ [] ∧ body.all (fun ch => 48 ≤ ch && ch ≤ 57) then
      .ok ⟨some (body.foldl (fun n ch => 10 * n + (ch.toNat - 48)) 0)⟩
    else .error (.other "syntax error")

def orderClient (pageSize : Nat) (hpos : 1 ≤ pageSize) (hle : pageSize ≤ maxPageSize) :
    Client Order Nat :=
  ⟨orderJSON, "created_at", fun r => some r.createdAt, false, .w64, pageSize, hpos, hle⟩

theorem orderJSON_roundTrips : ∀ n ∈ [5, 10, 20, 25, 30],
    orderJSON.RoundTrips ⟨some n⟩ := by
  intro n hn
  simp only [List.mem_cons, List.not_mem_nil, or_false] at hn
  rcases hn with rfl | rfl | rfl | rfl | rfl <;> exact ⟨_, rfl, by decide, rfl⟩

theorem ordersAt_unique (n : Nat) :
    ((ordersAt n).map fun r => some r.createdAt).Nodup := by
  cases n with
  | zero => decide
  | succ n =>
    show (([⟨2, 20⟩, ⟨3, 30⟩, ⟨4, 10⟩, ⟨5, 25⟩] : List Order).map _).Nodup
    decide

theorem ordersAt_roundTrips : ∀ n, ∀ r ∈ ordersAt n,
    orderJSON.RoundTrips ⟨some r.createdAt⟩ := by
  intro n r hr
  refine orderJSON_roundTrips _ ?_
  cases n with
  | zero =>
    revert r
    decide
  | succ n =>
    have hall : ∀ r ∈ [(⟨2, 20⟩ : Order), ⟨3, 30⟩, ⟨4, 10⟩, ⟨5, 25⟩],
        r.createdAt ∈ [5, 10, 20, 25, 30] := by decide
    exact hall r hr

theorem ordersAt_answers (n : Nat) (q : Query Order Nat) (items : List Order)
    (h : (orderDB (ordersAt n)).find q = .ok items) :
    q.Answers orderSql (ordersAt n) items := by
  cases h
  exact orderDB_answers _ q

theorem orderSql_reads :
    orderSql.Reads true "created_at" fun r => some r.createdAt where
  gt := fun _ _ => rfl
  lt := fun _ _ => rfl
  asc := fun _ _ => Iff.rfl
  desc := fun _ _ => Iff.rfl

/-! ## Whole walks -/

section Walks

variable [LinearOrder V] {sql : Sql ρ V} {nullsLow : Bool} {c : Client ρ V}
  {t : Table ρ V} {db : Nat → DB ρ V} {rows : Nat → List ρ}

theorem walk_sweep (hsql : sql.Reads nullsLow c.cursorCol c.cursorFn)
    (ht : t.Steady c.cursorFn)
    (hrows : ∀ n, t.db.distinct = none ∨ ((rows n).map c.cursorFn).Nodup)
    (hjson : ∀ n, ∀ r ∈ rows n, c.json.RoundTrips ⟨c.cursorFn r⟩)
    (hdb : ∀ n q items, (db n).find q = .ok items → q.Answers sql (rows n) items) :
    ∀ {n : Nat} {token : Option GoString} {pages : List (List ρ)} {done : Bool},
    Walk c t db n token pages done →
    ∀ bound : Option (Option V), c.Decodes token bound →
    Keyset.Sweep (cursorOrder V nullsLow c.desc) c.cursorFn c.pageSize
      (fun n => t.visible sql (rows n)) n bound pages done := by
  intro n token pages done h
  induction h with
  | pause =>
    intro bound _
    exact .pause
  | @last n token items size total hlist =>
    intro bound htoken
    obtain ⟨l, hperm, hl, hcase⟩ :=
      list_isPage hsql ht (hrows n) (hjson n) (hdb n) htoken hlist
    rcases hcase with ⟨hlen, hitems, -⟩ | ⟨-, -, x, next, -, hnext, -⟩
    · have hitems : items = l := hitems
      rw [hitems]
      exact .last hperm hl hlen
    · cases hnext
  | @more n token items size total next pages done hlist hrest ih =>
    intro bound htoken
    obtain ⟨l, hperm, hl, hcase⟩ :=
      list_isPage hsql ht (hrows n) (hjson n) (hdb n) htoken hlist
    rcases hcase with ⟨-, -, hnone⟩ | ⟨hlen, hitems, x, next', hx, hnext, hdec⟩
    · cases hnone
    · have hitems : items = l.take c.pageSize := hitems
      cases hnext
      rw [hitems]
      exact .more hperm hl hlen hx (ih _ hdec)

/-- Over a table that does not change the walk ends: every page takes at least one row away. -/
theorem exists_walk (hsql : sql.Reads nullsLow c.cursorCol c.cursorFn)
    (ht : t.Steady c.cursorFn) {rows : List ρ}
    (hrows : t.db.distinct = none ∨ (rows.map c.cursorFn).Nodup)
    (hjson : ∀ r ∈ rows, c.json.RoundTrips ⟨c.cursorFn r⟩)
    (hdb : ∀ n q, ∃ items, (db n).find q = .ok items ∧ q.Answers sql rows items) :
    ∀ (k n : Nat) (token : Option GoString) (bound : Option (Option V)),
    c.Decodes token bound →
    ((t.visible sql rows).filter
      (Keyset.after (cursorOrder V nullsLow c.desc) c.cursorFn bound)).length < k →
    ∃ pages, Walk c t db n token pages true := by
  intro k
  induction k with
  | zero =>
    intro n token bound _ hk
    exact absurd hk (Nat.not_lt_zero _)
  | succ k ih =>
    intro n token bound htoken hk
    obtain ⟨items, hfind, hanswer⟩ := hdb n (c.query t bound)
    obtain ⟨⟨_, _, _, token'⟩, hlist, l, hperm, hl, hcase⟩ :=
      list_page hsql ht hrows hjson htoken hfind hanswer
    rcases hcase with ⟨-, -, hnone⟩ | ⟨hlen, -, x, next, hx, hnext, hdec⟩
    · cases hnone
      exact ⟨_, .last hlist⟩
    · have hpos := c.pageSize_pos
      have hcur := hperm.length_eq
      have hleft := (hl.next_perm hperm hx).length_eq
      have hfilter := List.length_filter_le (Keyset.after
        (cursorOrder V nullsLow c.desc) c.cursorFn (some (c.cursorFn x)))
        (l.drop c.pageSize)
      rw [List.length_drop] at hfilter
      obtain ⟨pages, hrest⟩ := ih (n + 1) (some next) (some (c.cursorFn x)) hdec
        (by omega)
      cases hnext
      exact ⟨_, .more hlist hrest⟩

theorem filter_after_none (l : List ρ) :
    l.filter (Keyset.after (cursorOrder V nullsLow c.desc) c.cursorFn none) = l :=
  List.filter_eq_self.mpr fun _ _ => rfl

def Client.sortedValues (c : Client ρ V) (nullsLow : Bool) (rows : List ρ) :
    List (Option V) :=
  (rows.map c.cursorFn).insertionSort (leDir nullsLow c.desc)

theorem sortedValues_pairwise (rows : List ρ) :
    (c.sortedValues nullsLow rows).Pairwise (cursorOrder V nullsLow c.desc).le := by
  have htotal : Std.Total (leDir (V := V) nullsLow c.desc) :=
    ⟨(cursorOrder V nullsLow c.desc).le_total⟩
  have htrans : IsTrans (Option V) (leDir (V := V) nullsLow c.desc) := by
    refine ⟨fun a b d hab hbd => ?_⟩
    unfold leDir at hab hbd ⊢
    split at hab
    · next hd =>
        rw [if_pos hd] at hbd ⊢
        exact leNull_trans nullsLow d b a hbd hab
    · next hd =>
        rw [if_neg hd] at hbd ⊢
        exact leNull_trans nullsLow a b d hab hbd
  exact List.pairwise_insertionSort (leDir nullsLow c.desc) _

variable (c t db) in
/-- Over a table that does not change, the walk ends, and it returns every matching row, in
order, exactly if no page ends between values that do not compare strictly. -/
theorem walk_iff (rows : List ρ) (hsql : sql.Reads nullsLow c.cursorCol c.cursorFn)
    (ht : t.FilterOnly) (hjson : ∀ r ∈ rows, c.json.RoundTrips ⟨c.cursorFn r⟩)
    (hdb : ∀ n q, ∃ items, (db n).find q = .ok items ∧ q.Answers sql rows items) :
    (∃ pages, Walk c t db 0 none pages true) ∧
    ∀ pages, Walk c t db 0 none pages true →
      ((pages.flatten.Perm (rows.filter (t.db.matches sql)) ∧
          pages.flatten.Pairwise fun r s =>
            leDir nullsLow c.desc (c.cursorFn r) (c.cursorFn s)) ↔
        Keyset.Untied (cursorOrder V nullsLow c.desc) c.pageSize
          (c.sortedValues nullsLow (rows.filter (t.db.matches sql)))) := by
  have hdistinct : t.db.distinct = none := by rw [ht.plain]
  have hsteady := ht.plain.steady c.cursorFn
  refine ⟨exists_walk hsql hsteady (.inl hdistinct) hjson hdb _ 0 none none decodes_none
    (Nat.lt_succ_self _), ?_⟩
  intro pages hwalk
  have hright : ∀ n q items, (db n).find q = .ok items → q.Answers sql rows items := by
    intro n q items hfind
    obtain ⟨items', hfind', hanswer⟩ := hdb n q
    rw [hfind] at hfind'
    cases hfind'
    exact hanswer
  have hsweep := walk_sweep hsql hsteady (fun _ => .inl hdistinct) (fun _ => hjson) hright hwalk
    none decodes_none
  rw [ht.plain.visible] at hsweep
  have hstatic := hsweep.static c.pageSize_pos rfl
    (c.sortedValues nullsLow (rows.filter (t.db.matches sql)))
  rw [filter_after_none] at hstatic
  obtain ⟨-, htied, hall⟩ := hstatic (List.perm_insertionSort _ _)
    (sortedValues_pairwise _)
  constructor
  · rintro ⟨hperm, -⟩
    exact htied hperm.length_eq
  · exact hall

theorem walk_orders : ∃ pages : List (List Order),
    Walk (orderClient 2 (by decide) (by decide)) withoutFirst (fun _ => orderDB fourOrders)
      0 none pages true ∧
    pages.flatten.Perm [⟨2, 10⟩, ⟨3, 10⟩, ⟨4, 20⟩] ∧
    pages.flatten.Pairwise fun r s => r.createdAt ≤ s.createdAt := by
  obtain ⟨⟨pages, hwalk⟩, hiff⟩ := walk_iff (orderClient 2 (by decide) (by decide))
    withoutFirst (fun _ => orderDB fourOrders) fourOrders orderSql_reads
    withoutFirst_filterOnly (fun r hr => orderJSON_roundTrips _ (by revert r; decide))
    (fun n q => ⟨_, rfl, orderDB_answers _ q⟩)
  have huntied : Keyset.Untied (cursorOrder Nat true false) 2
      [some 10, some 10, some 20] := by
    refine (Keyset.untied_iff (by decide) rfl).mpr
      ⟨by decide, Keyset.untied_of_length_le (by decide)⟩
  exact ⟨pages, hwalk, (hiff pages hwalk).mpr huntied⟩

/-- With one order a page the third order, made when the second was, is skipped. -/
theorem orders_skipped :
    orderSql.Reads true "created_at" (fun r => some r.createdAt) ∧
    withoutFirst.FilterOnly ∧
    (∀ r ∈ fourOrders, orderJSON.RoundTrips ⟨some r.createdAt⟩) ∧
    (∀ q, ∃ items, (orderDB fourOrders).find q = .ok items ∧
      q.Answers orderSql fourOrders items) ∧
    Walk (orderClient 1 (by decide) (by decide)) withoutFirst
      (fun _ => orderDB fourOrders) 0 none [[⟨2, 10⟩], [⟨4, 20⟩]] true ∧
    ¬ [[(⟨2, 10⟩ : Order)], [⟨4, 20⟩]].flatten.Perm
      (fourOrders.filter (withoutFirst.db.matches orderSql)) := by
  have hfirst : withoutFirst.list (orderDB fourOrders)
      ((orderClient 1 (by decide) (by decide)).request none) =
        .ok ⟨[⟨2, 10⟩], 1, -1, some (bytes "eyJ2IjoxMH0=")⟩ := rfl
  have hsecond : withoutFirst.list (orderDB fourOrders)
      ((orderClient 1 (by decide) (by decide)).request (some (bytes "eyJ2IjoxMH0="))) =
        .ok ⟨[⟨4, 20⟩], 1, -1, none⟩ := rfl
  refine ⟨orderSql_reads, withoutFirst_filterOnly,
    fun r hr => orderJSON_roundTrips _ (by revert r; decide),
    fun q => ⟨_, rfl, orderDB_answers _ q⟩, ?_, by decide⟩
  exact .more hfirst (.last hsecond)

theorem distinct_visible (ht : t.Steady c.cursorFn) {rows : Nat → List ρ}
    (hnull : ∀ n, ∀ r ∈ rows n, (c.cursorFn r).isSome)
    (hunique : ∀ n, ((rows n).map c.cursorFn).Nodup) :
    Keyset.Distinct (cursorOrder V nullsLow c.desc) c.cursorFn (fun v => v.isSome = true)
      (fun n => t.visible sql (rows n)) where
  unique := by
    intro n
    rw [Table.visible, List.map_map, show c.cursorFn ∘ t.db.columns = c.cursorFn from
      funext ht.columns]
    exact (List.filter_sublist.map c.cursorFn).nodup (hunique n)
  all := by
    intro n r hr
    obtain ⟨s, hs, rfl⟩ := List.mem_map.mp hr
    rw [ht.columns]
    exact hnull n s (List.mem_of_mem_filter hs)
  beyond := by
    intro a b ha hb hle
    obtain ⟨a, rfl⟩ := Option.isSome_iff_exists.mp ha
    obtain ⟨b, rfl⟩ := Option.isSome_iff_exists.mp hb
    show beyond c.desc (some a) (some b) = true
    cases hd : c.desc with
    | false =>
      refine decide_eq_true (not_le.mp fun hba => hle ?_)
      show leDir nullsLow c.desc (some b) (some a)
      rw [hd]
      exact hba
    | true =>
      refine decide_eq_true (not_le.mp fun hab => hle ?_)
      show leDir nullsLow c.desc (some b) (some a)
      rw [hd]
      exact hab

variable (c t db rows) in
/-- While rows come and go: the values returned go strictly in the direction of the request, no
row and no page comes twice, and a walk that went to the end has returned once every matching row
that was there at each request. -/
theorem walk_concurrent [DecidableEq ρ]
    (hsql : sql.Reads nullsLow c.cursorCol c.cursorFn) (ht : t.Steady c.cursorFn)
    (hnull : ∀ n, ∀ r ∈ rows n, (c.cursorFn r).isSome)
    (hunique : ∀ n, ((rows n).map c.cursorFn).Nodup)
    (hjson : ∀ n, ∀ r ∈ rows n, c.json.RoundTrips ⟨c.cursorFn r⟩)
    (hdb : ∀ n q items, (db n).find q = .ok items → q.Answers sql (rows n) items)
    {pages : List (List ρ)} {done : Bool} (hwalk : Walk c t db 0 none pages done) :
    (pages.flatten.Pairwise fun r s =>
      beyond c.desc (c.cursorFn r) (c.cursorFn s) = true) ∧
    pages.flatten.Nodup ∧ pages.Pairwise List.Disjoint ∧
    (done = true → ∀ r, (∀ n, n < pages.length → r ∈ rows n) →
      t.keeps sql r = true → pages.flatten.count (t.db.columns r) = 1) := by
  have hd : Keyset.Distinct (cursorOrder V nullsLow c.desc) c.cursorFn
      (fun v => v.isSome = true) (fun n => t.visible sql (rows n)) :=
    distinct_visible ht hnull hunique
  have hsweep := walk_sweep hsql ht (fun n => .inr (hunique n)) hjson hdb hwalk none decodes_none
  obtain ⟨-, hstrict⟩ := hsweep.strict hd
  have hnodup : pages.flatten.Nodup := by
    refine hstrict.imp fun {r s} hrs heq => ?_
    subst heq
    exact (cursorOrder V nullsLow c.desc).not_le_of_beyond _ _ hrs
      ((cursorOrder V nullsLow c.desc).le_refl _)
  refine ⟨hstrict, hnodup, (List.nodup_flatten.mp hnodup).2, ?_⟩
  intro hdone r hthere hmatch
  refine List.count_eq_one_of_mem hnodup ?_
  refine hsweep.complete hd hdone rfl fun j hj => ?_
  rw [Nat.zero_add]
  exact List.mem_map_of_mem (List.mem_filter.mpr ⟨hthere j hj, hmatch⟩)

theorem orders_concurrent :
    Walk (orderClient 2 (by decide) (by decide)) {}
      (fun n => orderDB (ordersAt n)) 0 none [[⟨1, 5⟩, ⟨2, 20⟩], [⟨5, 25⟩, ⟨3, 30⟩]] true ∧
    [[(⟨1, 5⟩ : Order), ⟨2, 20⟩], [⟨5, 25⟩, ⟨3, 30⟩]].flatten.count ⟨3, 30⟩ = 1 := by
  have hfirst : Table.list (orderDB (ordersAt 0)) {}
      ((orderClient 2 (by decide) (by decide)).request none) =
        .ok ⟨[⟨1, 5⟩, ⟨2, 20⟩], 2, -1, some (bytes "eyJ2IjoyMH0=")⟩ := rfl
  have hsecond : Table.list (orderDB (ordersAt 1)) {}
      ((orderClient 2 (by decide) (by decide)).request (some (bytes "eyJ2IjoyMH0="))) =
        .ok ⟨[⟨5, 25⟩, ⟨3, 30⟩], 2, -1, none⟩ := rfl
  have hwalk : Walk (orderClient 2 (by decide) (by decide)) {}
      (fun n => orderDB (ordersAt n)) 0 none
      [[⟨1, 5⟩, ⟨2, 20⟩], [⟨5, 25⟩, ⟨3, 30⟩]] true := .more hfirst (.last hsecond)
  obtain ⟨-, -, -, hcount⟩ := walk_concurrent (orderClient 2 (by decide) (by decide)) {}
    (fun n => orderDB (ordersAt n)) ordersAt orderSql_reads
    ((show Table.Plain {} from rfl).steady _) (fun _ _ _ => rfl) ordersAt_unique
    ordersAt_roundTrips ordersAt_answers hwalk
  refine ⟨hwalk, hcount rfl ⟨3, 30⟩ (fun n _ => ?_) rfl⟩
  cases n <;> simp [ordersAt]

/-- Orders without their time, orders with two lines each, and one order of each kind. -/
def timelessOrders : Table Order Nat := Table.omit (fun r => { r with createdAt := 0 }) {}

def linesOfOrders : Table Order Nat := Table.joins (fun _ => 2) {}

def orderKinds : Table Order Nat := Table.group (fun r s => r.id % 2 == s.id % 2) {}

/-- Without the cursor column page one comes again, with a join an order comes twice, and with
groups one is missing. -/
theorem scoped_orders :
    (∀ t ∈ [timelessOrders, linesOfOrders, orderKinds],
      t.db.orders = [] ∧ t.db.limit = none ∧ t.db.offset = 0) ∧
    Walk (orderClient 1 (by decide) (by decide)) timelessOrders (fun _ => orderDB (ordersAt 0))
      0 none [[⟨1, 0⟩], [⟨1, 0⟩]] false ∧
    Walk (orderClient 4 (by decide) (by decide)) linesOfOrders (fun _ => orderDB (ordersAt 0))
      0 none [[⟨1, 5⟩, ⟨1, 5⟩, ⟨2, 20⟩, ⟨2, 20⟩], [⟨3, 30⟩, ⟨3, 30⟩]] true ∧
    Walk (orderClient 4 (by decide) (by decide)) orderKinds (fun _ => orderDB (ordersAt 0))
      0 none [[⟨1, 5⟩, ⟨2, 20⟩]] true := by
  have hfirst : timelessOrders.list (orderDB (ordersAt 0))
      ((orderClient 1 (by decide) (by decide)).request none) =
        .ok ⟨[⟨1, 0⟩], 1, -1, some (bytes "eyJ2IjowfQ==")⟩ := rfl
  have hsecond : timelessOrders.list (orderDB (ordersAt 0))
      ((orderClient 1 (by decide) (by decide)).request (some (bytes "eyJ2IjowfQ=="))) =
        .ok ⟨[⟨1, 0⟩], 1, -1, some (bytes "eyJ2IjowfQ==")⟩ := rfl
  have hlines : linesOfOrders.list (orderDB (ordersAt 0))
      ((orderClient 4 (by decide) (by decide)).request none) =
        .ok ⟨[⟨1, 5⟩, ⟨1, 5⟩, ⟨2, 20⟩, ⟨2, 20⟩], 4, -1, some (bytes "eyJ2IjoyMH0=")⟩ := rfl
  have hmore : linesOfOrders.list (orderDB (ordersAt 0))
      ((orderClient 4 (by decide) (by decide)).request (some (bytes "eyJ2IjoyMH0="))) =
        .ok ⟨[⟨3, 30⟩, ⟨3, 30⟩], 4, -1, none⟩ := rfl
  have hkinds : orderKinds.list (orderDB (ordersAt 0))
      ((orderClient 4 (by decide) (by decide)).request none) =
        .ok ⟨[⟨1, 5⟩, ⟨2, 20⟩], 4, -1, none⟩ := rfl
  refine ⟨?_, .more hfirst (.more hsecond .pause), .more hlines (.last hmore), .last hkinds⟩
  intro t ht
  simp only [List.mem_cons, List.not_mem_nil, or_false] at ht
  rcases ht with rfl | rfl | rfl <;> exact ⟨rfl, rfl, rfl⟩

end Walks

end Microjet.Gormx
