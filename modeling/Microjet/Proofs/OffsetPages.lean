import Microjet.Lib.Chunks
import Microjet.Proofs.PageWalk

/-!
# Pages by number

The offset is a product of two 32-bit numbers, and the request is refused where an `int` of the
machine cannot hold it (`offset_eq`). Since no two rows have the same value in the order column
there is one sorted list of the rows (`sorted_unique`), and the pages are its slices.
-/

namespace Microjet.Gormx

open Errorx Microjet.Types

variable {ρ V : Type}

/-! ## The offset -/

def PageRequest.atPage (r : PageRequest ρ V) (page : Int32) : PageRequest ρ V :=
  { r with req := { r.req with page := some page.toInt } }

section Offset

variable (s : IntSize) (r : PageRequest ρ V)

theorem IntSize.wrap_of_le {s : IntSize} {x : Int} (hpos : 0 ≤ x) (hle : x ≤ s.maxInt) :
    s.wrap x = x := by
  cases s with
  | w32 =>
    rw [IntSize.maxInt, IntSize.card] at hle
    rw [IntSize.wrap, IntSize.card, Int.bmod]
    omega
  | w64 =>
    rw [IntSize.maxInt, IntSize.card] at hle
    rw [IntSize.wrap, IntSize.card, Int.bmod]
    omega

theorem wrap_page (page : Int32) : s.wrap (max page.toInt 1 - 1) = max page.toInt 1 - 1 := by
  have hlt := page.toInt_lt
  refine IntSize.wrap_of_le (by omega) ?_
  cases s with
  | w32 => simp only [IntSize.maxInt, IntSize.card]; omega
  | w64 => simp only [IntSize.maxInt, IntSize.card]; omega

theorem offset_eq {page : Int32} (hsize : 0 < r.pageSize) :
    (r.atPage page).offset s =
      if s.maxInt < (max page.toInt 1 - 1) * r.pageSize then some (-1)
      else some ((max page.toInt 1 - 1) * r.pageSize) := by
  have hpage : 0 ≤ max page.toInt 1 - 1 := by omega
  have hguard : max page.toInt 1 - 1 > s.maxInt / r.pageSize ↔
      s.maxInt < (max page.toInt 1 - 1) * r.pageSize :=
    Int.ediv_lt_iff_lt_mul hsize
  show (if r.pageSize ≤ 0 ∨ s.wrap (max page.toInt 1 - 1) > s.maxInt / r.pageSize then some (-1)
    else some (s.wrap (s.wrap (max page.toInt 1 - 1) * r.pageSize))) = _
  rw [wrap_page]
  by_cases hover : s.maxInt < (max page.toInt 1 - 1) * r.pageSize
  · rw [if_pos (.inr (hguard.mpr hover)), if_pos hover]
  · rw [if_neg (by rw [not_or]; exact ⟨Int.not_le.mpr hsize, fun h => hover (hguard.mp h)⟩),
      if_neg hover, IntSize.wrap_of_le (Int.mul_nonneg hpage hsize.le) (Int.not_lt.mp hover)]

end Offset

/-! ## The pages -/

/-- The database answers every query over the table `rows`. -/
structure DB.Serves (db : DB ρ V) (sql : Sql ρ V) (rows : List ρ) : Prop where
  find : ∀ q, ∃ items, db.find q = .ok items ∧ q.Answers sql rows items
  count : ∀ wheres, db.count { wheres } =
    .ok (rows.filter (Query.matches sql { wheres })).length

def PageRequest.rowLe [LinearOrder V] (r : PageRequest ρ V) (nullsLow : Bool) (a b : ρ) : Prop :=
  leDir nullsLow r.desc (r.cursorFn a) (r.cursorFn b)

section Pages

variable [LinearOrder V] {sql : Sql ρ V} {nullsLow : Bool} {t : Table ρ V} {rows : List ρ}
  {db : DB ρ V} {r : PageRequest ρ V}

theorem lexLe_orderBy (hsql : sql.Reads nullsLow r.cursorCol r.cursorFn) (a b : ρ) :
    lexLe sql [r.orderBy] a b ↔ r.rowLe nullsLow a b := by
  have hle : sql.le r.orderBy a b ↔ r.rowLe nullsLow a b := by
    rw [PageRequest.orderBy, PageRequest.rowLe]
    cases r.desc
    · exact hsql.asc a b
    · exact hsql.desc a b
  show sql.le r.orderBy a b ∧ (sql.le r.orderBy b a → True) ↔ _
  rw [hle]
  exact and_iff_left fun _ => trivial

theorem sorted_unique (hunique : (rows.map r.cursorFn).Nodup) {sorted sorted' : List ρ}
    (hsub : ∀ a ∈ sorted, a ∈ rows) (hperm : sorted.Perm sorted')
    (hle : sorted.Pairwise (r.rowLe nullsLow)) (hle' : sorted'.Pairwise (r.rowLe nullsLow)) :
    sorted = sorted' := by
  refine hperm.eq_of_pairwise (fun a b ha hb hab hba => ?_) hle hle'
  have hvalues : r.cursorFn a = r.cursorFn b :=
    (cursorOrder V nullsLow r.desc).le_antisymm _ _ hab hba
  exact List.inj_on_of_nodup_map hunique (hsub a ha) (hsub b (hperm.mem_iff.mpr hb)) hvalues

theorem exists_sorted (hsql : sql.Reads nullsLow r.cursorCol r.cursorFn) (ht : t.Plain)
    (hunique : (rows.map r.cursorFn).Nodup) (hdb : db.Serves sql rows) :
    ∃ sorted : List ρ, sorted.Perm (rows.filter (t.db.matches sql)) ∧
      sorted.Pairwise (r.rowLe nullsLow) ∧
      ∀ offset n, db.find (((t.db.order r.orderBy).withOffset offset).withLimit n) =
        .ok ((sorted.drop offset).take n) := by
  have hanswer (offset n : Nat) : ∃ sorted : List ρ,
      sorted.Perm (rows.filter (t.db.matches sql)) ∧ sorted.Pairwise (r.rowLe nullsLow) ∧
      db.find (((t.db.order r.orderBy).withOffset offset).withLimit n) =
        .ok ((sorted.drop offset).take n) := by
    obtain ⟨items, hfind, hitems⟩ :=
      hdb.find (((t.db.order r.orderBy).withOffset offset).withLimit n)
    rw [ht] at hfind hitems ⊢
    obtain ⟨sorted, hperm, hle, rfl⟩ := hitems.sorted (fun _ => Nat.le_refl 1) rfl rfl
    refine ⟨sorted, hperm, hle.imp fun {a b} hab => (lexLe_orderBy hsql a b).mp hab, ?_⟩
    rw [hfind]
    show Except.ok (((sorted.map id).drop offset).take n) = _
    rw [List.map_id]
  obtain ⟨sorted, hperm, hle, -⟩ := hanswer 0 0
  refine ⟨sorted, hperm, hle, fun offset n => ?_⟩
  obtain ⟨sorted', hperm', hle', hfind⟩ := hanswer offset n
  -- each query sorts for itself, but there is one order only
  have hsame : sorted = sorted' := sorted_unique hunique
    (fun a ha => List.mem_of_mem_filter (hperm.mem_iff.mp ha)) (hperm.trans hperm'.symm) hle hle'
  rw [hfind, hsame]

variable {n : Nat}

omit [LinearOrder V] in
theorem list_atPage (t : Table ρ V) (db : DB ρ V) (json : JSON (PageData V)) (s : IntSize)
    (page : Int32) (hn : r.pageSize = n) (hpos : 1 ≤ n) (hle : n ≤ maxPageSize) :
    t.list db ((r.atPage page).listRequest json s) =
      if s.maxInt < (max page.toInt 1 - 1) * n then
        .error (errBadRequest.withMessage "invalid pagination offset")
      else listByOffset db t ((r.atPage page).listRequest json s) n
        ((max page.toInt 1 - 1) * n).toNat := by
  have hchecked : checkedPageSize (n : Int) = .ok n := by
    rw [checkedPageSize, if_neg (by omega), if_neg (by omega), Int.toNat_natCast]
  have hsize : ((r.atPage page).listRequest json s).pageSize = n := hn
  have hoffset : ((r.atPage page).listRequest json s).offset =
      some ((r.atPage page).offset s) := rfl
  rw [Table.list, hsize, hchecked, hoffset, offset_eq s r (by omega), hn]
  by_cases hover : s.maxInt < (max page.toInt 1 - 1) * (n : Int)
  · rw [if_pos hover, if_pos hover]
    rfl
  · have hnonneg : ¬ (max page.toInt 1 - 1) * (n : Int) < 0 :=
      Int.not_lt.mpr (Int.mul_nonneg (by omega) (by omega))
    rw [if_neg hover, if_neg hover]
    show (if (max page.toInt 1 - 1) * (n : Int) < 0 then _ else _) = _
    rw [if_neg hnonneg]

variable {sorted : List ρ}

omit [LinearOrder V] in
theorem listByOffset_eq (json : JSON (PageData V)) (s : IntSize) (page : Int32) (ht : t.Plain)
    (hdb : db.Serves sql rows) (hperm : sorted.Perm (rows.filter (t.db.matches sql)))
    (hfind : ∀ offset n, db.find (((t.db.order r.orderBy).withOffset offset).withLimit n) =
      .ok ((sorted.drop offset).take n)) (n offset : Nat) :
    listByOffset db t ((r.atPage page).listRequest json s) n offset =
      .ok ⟨(sorted.drop offset).take n, n, sorted.length, none⟩ := by
  have hcount : db.count t.db = .ok sorted.length := by
    rw [hperm.length_eq, ht]
    exact hdb.count t.db.wheres
  have hfind' : db.find (((t.db.order ((r.atPage page).listRequest json s).orderBy).withOffset
      offset).withLimit n) = .ok ((sorted.drop offset).take n) := hfind offset n
  have hscope : ((r.atPage page).listRequest json s).scope = none := rfl
  rw [listByOffset, applyFilter, applyFilter, hscope]
  dsimp only
  rw [hcount, hfind']
  rfl

omit [LinearOrder V] in
theorem list_refused (json : JSON (PageData V)) (s : IntSize) (page : Int32)
    (h : r.pageSize < 1 ∨ (maxPageSize : Int) < r.pageSize) :
    ∃ err, t.list db ((r.atPage page).listRequest json s) = .error err := by
  have hsize : ((r.atPage page).listRequest json s).pageSize = r.pageSize := rfl
  have hzero : r.pageSize ≠ 0 := by
    rw [PageRequest.pageSize]
    split
    · decide
    · next hne => exact hne
  have hchecked : checkedPageSize r.pageSize =
      .error (errBadRequest.withMessage "page size must be between 1 and 1000") := by
    rw [checkedPageSize, if_neg hzero, if_pos (by omega)]
  exact ⟨_, by rw [Table.list, hsize, hchecked]; rfl⟩

/-- The slice of a page. -/
def pageOf (sorted : List ρ) (n : Nat) (page : Int) : List ρ :=
  (sorted.drop (n * (max page 1 - 1).toNat)).take n

theorem flatten_pageOf (sorted : List ρ) (n k : Nat) :
    ((List.range k).map fun (j : Nat) => pageOf sorted n (j + 1)).flatten =
      sorted.take (n * k) := by
  rw [← Chunks.flatten_range]
  congr 1
  refine List.map_congr_left fun j _ => ?_
  rw [pageOf, show (max ((j : Int) + 1) 1 - 1).toNat = j by omega]

theorem disjoint_pageOf (hnodup : sorted.Nodup) (n k : Nat) :
    ((List.range k).map fun (j : Nat) => pageOf sorted n (j + 1)).Pairwise List.Disjoint := by
  refine (List.nodup_flatten.mp ?_).2
  rw [flatten_pageOf]
  exact hnodup.sublist (List.take_sublist _ _)

theorem pageOf_beyond {page : Int} (h : (sorted.length : Int) ≤ n * (page - 1)) :
    pageOf sorted n page = [] := by
  have hcast : ((n * (max page 1 - 1).toNat : Nat) : Int) = n * (max page 1 - 1) := by
    rw [Int.natCast_mul, Int.toNat_of_nonneg (by omega)]
  have hgrow : (n : Int) * (page - 1) ≤ n * (max page 1 - 1) :=
    Int.mul_le_mul_of_nonneg_left (by omega) (by omega)
  rw [pageOf, List.drop_of_length_le (by omega), List.take_nil]

omit [LinearOrder V] in
theorem pageSize_bounds (r : PageRequest ρ V)
    (hsize : 0 ≤ r.req.pageSize ∧ r.req.pageSize ≤ 1000) :
    ∃ n : Nat, r.pageSize = n ∧ 1 ≤ n ∧ n ≤ maxPageSize := by
  obtain ⟨n, hn⟩ : ∃ n : Nat, r.pageSize = n := by
    refine Int.eq_ofNat_of_zero_le ?_
    rw [PageRequest.pageSize]
    split
    · decide
    · exact hsize.1
  refine ⟨n, hn, ?_⟩
  rw [PageRequest.pageSize, defaultPageSize] at hn
  rw [maxPageSize]
  split at hn <;> omega

omit [LinearOrder V] in
theorem list_eq_pageOf (json : JSON (PageData V)) (s : IntSize) (page : Int32) (ht : t.Plain)
    (hdb : db.Serves sql rows) (hperm : sorted.Perm (rows.filter (t.db.matches sql)))
    (hfind : ∀ offset n, db.find (((t.db.order r.orderBy).withOffset offset).withLimit n) =
      .ok ((sorted.drop offset).take n))
    (hn : r.pageSize = n) (hpos : 1 ≤ n) (hle : n ≤ maxPageSize) :
    t.list db ((r.atPage page).listRequest json s) =
      if s.maxInt < (max page.toInt 1 - 1) * n then
        .error (errBadRequest.withMessage "invalid pagination offset")
      else .ok ⟨pageOf sorted n page.toInt, n, sorted.length, none⟩ := by
  have hoffset : ((max page.toInt 1 - 1) * (n : Int)).toNat = n * (max page.toInt 1 - 1).toNat := by
    rw [Int.toNat_mul (by omega) (by omega), Int.toNat_natCast, Nat.mul_comm]
  rw [list_atPage t db json s page hn hpos hle]
  split
  · rfl
  · rw [listByOffset_eq json s page ht hdb hperm hfind, pageOf, hoffset]

omit [LinearOrder V] in
/-- With any page size the offset is the product, or the request is refused. -/
theorem offset_exact_or_refused (t : Table ρ V) (db : DB ρ V) (json : JSON (PageData V))
    (s : IntSize) (r : PageRequest ρ V) (page : Int32) :
    (r.atPage page).offset s = some ((max page.toInt 1 - 1) * r.pageSize) ∨
      ∃ err, t.list db ((r.atPage page).listRequest json s) = .error err := by
  by_cases hok : 1 ≤ r.pageSize ∧ r.pageSize ≤ maxPageSize
  · obtain ⟨n, hn⟩ := Int.eq_ofNat_of_zero_le (show 0 ≤ r.pageSize by omega)
    rw [offset_eq s r (by omega)]
    split
    · next hover =>
        rw [hn] at hover
        have hlist := list_atPage t db json s page hn (by omega) (by omega)
        rw [if_pos hover] at hlist
        exact .inr ⟨_, hlist⟩
    · exact .inl rfl
  · exact .inr (list_refused json s page (by omega))

/-- Pages by number are the slices of one sorted list of the matching rows, they come with its
length, and the offset is exact or the request is refused. -/
theorem pages_partition (json : JSON (PageData V)) (s : IntSize)
    (hsize : 0 ≤ r.req.pageSize ∧ r.req.pageSize ≤ 1000)
    (hsql : sql.Reads nullsLow r.cursorCol r.cursorFn) (ht : t.FilterOnly)
    (hunique : (rows.map r.cursorFn).Nodup) (hdb : db.Serves sql rows) :
    (∃ (n : Nat) (sorted : List ρ),
      (n : Int) = (if r.req.pageSize = 0 then 10 else r.req.pageSize) ∧
      sorted.Perm (rows.filter (t.db.matches sql)) ∧ sorted.Pairwise (r.rowLe nullsLow) ∧
      (∀ page : Int32, t.list db ((r.atPage page).listRequest json s) =
        if s.maxInt < (max page.toInt 1 - 1) * n then
          .error (errBadRequest.withMessage "invalid pagination offset")
        else .ok ⟨pageOf sorted n page.toInt, n, sorted.length, none⟩) ∧
      (∀ k : Nat, ((List.range k).map fun (j : Nat) => pageOf sorted n (j + 1)).Pairwise
        List.Disjoint) ∧
      (∀ k : Nat, sorted.length ≤ n * k →
        ((List.range k).map fun (j : Nat) => pageOf sorted n (j + 1)).flatten = sorted) ∧
      (∀ page : Int32, (sorted.length : Int) ≤ n * (page.toInt - 1) →
        pageOf sorted n page.toInt = [])) ∧
    (∀ page : Int32, page.toInt < 1 →
      t.list db ((r.atPage page).listRequest json s) =
        t.list db ((r.atPage 1).listRequest json s)) ∧
    ∀ (r' : PageRequest ρ V) (page : Int32),
      (r'.atPage page).offset s = some ((max page.toInt 1 - 1) * r'.pageSize) ∨
        ∃ err, t.list db ((r'.atPage page).listRequest json s) = .error err := by
  obtain ⟨n, hn, hpos, hmax⟩ := pageSize_bounds r hsize
  obtain ⟨sorted, hperm, hle, hfind⟩ := exists_sorted hsql ht.plain hunique hdb
  have hlist (page : Int32) := list_eq_pageOf json s page ht.plain hdb hperm hfind hn hpos hmax
  have hnodup : sorted.Nodup :=
    hperm.nodup_iff.mpr ((List.Nodup.of_map _ hunique).filter _)
  refine ⟨⟨n, sorted, ?_, hperm, hle, hlist, disjoint_pageOf hnodup n, ?_,
    fun page hpage => pageOf_beyond hpage⟩, ?_, offset_exact_or_refused t db json s⟩
  · rw [← hn, PageRequest.pageSize]
    rfl
  · intro k hk
    rw [flatten_pageOf, List.take_of_length_le hk]
  · intro page hpage
    have hone : max page.toInt 1 = max (Int32.toInt 1) 1 := by
      rw [show Int32.toInt 1 = 1 by decide]
      omega
    rw [hlist, hlist, pageOf, pageOf, hone]

def orderPages : PageRequest Order Nat :=
  PageRequest.newPageRequest ⟨3, none, none⟩ "created_at" fun r => some r.createdAt

theorem orders_second_page :
    ∃ sorted : List Order, sorted.Perm [⟨2, 20⟩, ⟨3, 30⟩, ⟨4, 10⟩, ⟨5, 25⟩] ∧
      withoutFirst.list (orderDB (ordersAt 1))
          ((orderPages.atPage 2).listRequest orderJSON .w32) =
        .ok ⟨(sorted.drop 3).take 3, 3, 4, none⟩ := by
  have hserves : (orderDB (ordersAt 1)).Serves orderSql (ordersAt 1) :=
    ⟨fun q => ⟨_, rfl, orderDB_answers _ q⟩, fun _ => rfl⟩
  obtain ⟨⟨n, sorted, hn, hperm, -, hpage, -⟩, -⟩ := pages_partition (r := orderPages)
    orderJSON .w32 (by decide) orderSql_reads withoutFirst_filterOnly (ordersAt_unique 1) hserves
  obtain rfl : n = 3 := Int.ofNat.inj hn
  have hlength : sorted.length = 4 := hperm.length_eq
  refine ⟨sorted, hperm, ?_⟩
  rw [hpage, if_neg (by decide), hlength]
  rfl

end Pages

end Microjet.Gormx
