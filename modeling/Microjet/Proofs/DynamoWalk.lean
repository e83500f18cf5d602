import Microjet.Dynamo.Query
import Microjet.Lib.Pages
import Microjet.Lib.Utf8
import Microjet.Proofs.KeyCodec
import Mathlib.Logic.Encodable.Basic
import Mathlib.Logic.Equiv.List

/-!
# A walk through the pages of a partition

`decodePageToken` gives the key of a token back, up to the order of its attributes
(`decodePageToken_encode`). So behind a token come the rows after that key, as `Pages.Resumes`
asks, and the walk returns what a query without a cut returns.
-/

namespace Microjet.Dynamo

open Errorx
open Microjet.Types (JSON)

/-- The attribute is a key's and its text is UTF-8. -/
def AttributeValue.Plain : AttributeValue → Prop
  | .s value => Utf8.valid value = true
  | .n value => Utf8.valid value = true
  | .b value => value ≠ []
  | .other _ => False

instance : ∀ attr : AttributeValue, Decidable attr.Plain
  | .s value => inferInstanceAs (Decidable (Utf8.valid value = true))
  | .n value => inferInstanceAs (Decidable (Utf8.valid value = true))
  | .b value => inferInstanceAs (Decidable (value ≠ []))
  | .other _ => inferInstanceAs (Decidable False)

/-- So are all of them. -/
def Plain (key : GoMap AttributeValue) : Prop :=
  ∀ e ∈ key.entries, Utf8.valid e.1 = true ∧ e.2.Plain

instance (key : GoMap AttributeValue) : Decidable (Plain key) :=
  inferInstanceAs (Decidable (∀ e ∈ key.entries, Utf8.valid e.1 = true ∧ e.2.Plain))

/-- What JSON can hold: texts are UTF-8, and an empty slice is omitted. -/
def Writable (raw : GoMap PageKeyAttr) : Prop :=
  ∀ e ∈ raw.entries, Utf8.valid e.1 = true ∧ (∀ s ∈ e.2.s, Utf8.valid s = true) ∧
    (∀ n ∈ e.2.n, Utf8.valid n = true) ∧ ∀ b ∈ e.2.b, b ≠ []

/-- The JSON library reads back what it has written. -/
def Inverse (json : JSON (GoMap PageKeyAttr)) : Prop :=
  ∀ raw, Writable raw → ∃ text raw', json.marshal raw = .ok text ∧
    json.unmarshal text = .ok raw' ∧ raw'.Same raw

section Token

variable {json : JSON (GoMap PageKeyAttr)} {key : GoMap AttributeValue}

variable {attr : AttributeValue}

theorem AttributeValue.Plain.encode (h : attr.Plain) (name : GoString) :
    ∃ raw, encodeKeyAttr name attr = .ok raw ∧ (∀ s ∈ raw.s, Utf8.valid s = true) ∧
      (∀ n ∈ raw.n, Utf8.valid n = true) ∧ ∀ b ∈ raw.b, b ≠ [] := by
  cases attr with
  | s value =>
    refine ⟨_, rfl, fun s hs => ?_, nofun, nofun⟩
    cases hs
    exact h
  | n value =>
    refine ⟨_, rfl, nofun, fun n hn => ?_, nofun⟩
    cases hn
    exact h
  | b value =>
    refine ⟨_, rfl, nofun, nofun, fun b hb => ?_⟩
    cases hb
    exact h
  | other type => exact h.elim

theorem decodeKeyAttr_encode {name : GoString} {raw : PageKeyAttr}
    (h : encodeKeyAttr name attr = .ok raw) : decodeKeyAttr name raw = .ok attr := by
  cases attr with
  | s value | n value | b value =>
    cases h
    rfl
  | other type => cases h

theorem Plain.traverse (h : Plain key) :
    ∃ raw, key.traverse encodeKeyAttr = .ok raw ∧ Writable raw ∧
      raw.traverse decodeKeyAttr = .ok key := by
  have hall : ∀ e ∈ key.entries, ∃ raw, encodeKeyAttr e.1 e.2 = .ok raw := by
    intro e he
    obtain ⟨raw, hraw, -⟩ := (h e he).2.encode e.1
    exact ⟨raw, hraw⟩
  obtain ⟨bs, hbs⟩ := traverseEntries_ok hall
  have hdistinct : (bs.map Prod.fst).Nodup := traverseEntries_keys hbs ▸ key.distinct
  refine ⟨⟨bs, hdistinct⟩, GoMap.traverse_eq_ok.mpr hbs, ?_, ?_⟩
  · rintro ⟨name, raw⟩ he
    obtain ⟨attr, ha, hattr⟩ := traverseEntries_mem hbs he
    obtain ⟨hname, hplain⟩ := h _ ha
    obtain ⟨raw', hraw', hwritable⟩ := hplain.encode name
    cases hattr.symm.trans hraw'
    exact ⟨hname, hwritable⟩
  · exact GoMap.traverse_eq_ok.mpr
      (traverseEntries_inverse hbs fun e _ b hb => decodeKeyAttr_encode hb)

theorem decodePageToken_encode (hjson : Inverse json) (h : Plain key) :
    ∃ token key', encodePageToken json (some key) = .ok (some token) ∧
      decodePageToken json (some token) = .ok (some key') ∧ key'.Same key := by
  obtain ⟨raw, henc, hwritable, hdec⟩ := h.traverse
  obtain ⟨text, raw', hmarshal, hunmarshal, hsame⟩ := hjson raw hwritable
  obtain ⟨es, hes, hperm⟩ := traverseEntries_perm hsame.symm (GoMap.traverse_eq_ok.mp hdec)
  have hdistinct : (es.map Prod.fst).Nodup := traverseEntries_keys hes ▸ raw'.distinct
  refine ⟨Base64.encode text, ⟨es, hdistinct⟩, ?_, ?_, hperm.symm⟩
  · rw [encodePageToken, henc, Out.ok_bind, hmarshal]
    rfl
  · have hdec' : raw'.traverse decodeKeyAttr = .ok ⟨es, hdistinct⟩ := GoMap.traverse_eq_ok.mpr hes
    simp only [decodePageToken, Base64.decode_encode, hunmarshal, hdec', Out.ok_bind]
    rfl

theorem encodePageToken_none {lastKey : Option (GoMap AttributeValue)}
    (h : encodePageToken json lastKey = .ok none) : lastKey = none := by
  cases lastKey with
  | none => rfl
  | some key =>
    obtain ⟨raw, -, h⟩ := Out.bind_eq_ok.mp h
    split at h <;> cases h

variable (json) in
/-- A token is refused as a bad request or stands for a key. -/
theorem decodePageToken_cases (token : GoString) :
    (∃ inner, decodePageToken json (some token) = .error (badToken inner)) ∨
      ∃ key, decodePageToken json (some token) = .ok (some key) ∧
        ∀ e ∈ key.entries, ∀ type, e.2 ≠ .other type := by
  have hattr : ∀ name raw, (∃ attr, decodeKeyAttr name raw = .ok attr) ∨
      ∃ err, decodeKeyAttr name raw = .error err ∧ ∃ inner, err = badToken inner := by
    rintro name ⟨_ | s, _ | n, _ | b⟩
    · exact .inr ⟨_, rfl, _, rfl⟩
    all_goals exact .inl ⟨_, rfl⟩
  have hkind : ∀ name raw attr type, decodeKeyAttr name raw = .ok attr → attr ≠ .other type := by
    rintro name ⟨_ | s, _ | n, _ | b⟩ attr type h <;> cases h <;> exact nofun
  simp only [decodePageToken]
  split
  · exact .inl ⟨_, rfl⟩
  · split
    · exact .inl ⟨_, rfl⟩
    · next raw _ =>
        rcases traverseEntries_cases (fun err => ∃ inner, err = badToken inner) hattr raw.entries
          with ⟨es, hes⟩ | ⟨err, herr, inner, rfl⟩
        · have hdistinct : (es.map Prod.fst).Nodup := traverseEntries_keys hes ▸ raw.distinct
          have hkey : raw.traverse decodeKeyAttr = .ok ⟨es, hdistinct⟩ :=
            GoMap.traverse_eq_ok.mpr hes
          refine .inr ⟨⟨es, hdistinct⟩, by rw [hkey]; rfl, ?_⟩
          rintro ⟨name, attr⟩ he type
          obtain ⟨raw', -, hattr'⟩ := traverseEntries_mem hes he
          exact hkind name raw' attr type hattr'
        · refine .inl ⟨inner, ?_⟩
          rw [GoMap.traverse_eq_error.mpr herr]
          rfl

end Token

/-- A row of a partition. -/
structure Row where
  key : GoMap AttributeValue
  attrs : GoMap AttributeValue

/-- What a filter leaves. -/
def shown (keep : Row → Bool) (rows : List Row) : List (GoMap AttributeValue) :=
  (rows.filter keep).map Row.attrs

/-- The key is that of the last row seen. -/
def Behind (seen : List Row) : Option (GoMap AttributeValue) → Prop
  | none => seen = []
  | some key => ∃ row, seen.getLast? = some row ∧ key.Same row.key

/-- Some of the rows left, with the key of the last one looked at, or all and perhaps no key. -/
def QueryOutput.Answers (output : QueryOutput) (keep : Row → Bool) (left : List Row) : Prop :=
  ∃ page rest, left = page ++ rest ∧ output.items = shown keep page ∧
    match output.lastEvaluatedKey with
    | none => rest = []
    | some key => ∃ row, page.getLast? = some row ∧ key.Same row.key

/-- The server resumes after the start key of every request, wherever it cuts. -/
def Serves {ε : Type} (query : Nat → QueryInput ε → Except Err QueryOutput) (inp : QueryInput ε)
    (keep : Row → Bool) (rows : List Row) : Prop :=
  ∀ n start seen left, rows = seen ++ left → Behind seen start →
    ∃ output, query n { inp with exclusiveStartKey := start } = .ok output ∧
      output.Answers keep left

/-- What is asked for, and so which of the two functions is called. -/
inductive Target (t : StructType) (ν : Type) where
  | table (pkItem : Item t ν) (skPrefix : GoString)
  | gsi (indexName pkAttr pkValue : GoString) (skCond : Option SKCondition)

section Walk

variable {t : StructType} {ν φ ε : Type} (text : TextMethods ν) (sdk : Sdk t ν φ ε)
  (json : JSON (GoMap PageKeyAttr)) (table : Table t)

/-- The input of the query. -/
def Target.input (opts : List (Option (QueryOption φ))) : Target t ν → Out (QueryInput ε)
  | .table pkItem skPrefix =>
    tableQueryInput text sdk table pkItem skPrefix (newQueryOptions opts)
  | .gsi indexName pkAttr pkValue skCond =>
    gsiQueryInput sdk table indexName pkAttr pkValue skCond (newQueryOptions opts)

/-- One page of it. -/
def Target.page (query : QueryInput ε → Except Err QueryOutput) (pageSize : Int)
    (opts : List (Option (QueryOption φ))) (token : Option GoString) :
    Target t ν → Out (List (Nat → Handle ν) × Option GoString)
  | .table pkItem skPrefix =>
    table.queryPage text sdk json query pkItem skPrefix pageSize token opts
  | .gsi indexName pkAttr pkValue skCond =>
    table.queryGSIPage text sdk json query indexName pkAttr pkValue skCond pageSize token opts

variable {text sdk json table} {target : Target t ν} {opts : List (Option (QueryOption φ))}
  {inp : QueryInput ε} {query : QueryInput ε → Except Err QueryOutput} {pageSize : Int}
  {token : Option GoString}

theorem Target.page_eq (hinp : target.input text sdk table opts = .ok inp)
    {start : Option (GoMap AttributeValue)} (hstart : decodePageToken json token = .ok start) :
    target.page text sdk json table query pageSize opts token =
      queryPage text sdk json table query
        { inp with exclusiveStartKey := start, limit := some pageSize } := by
  cases target with
  | table pkItem skPrefix =>
    have hinp : tableQueryInput text sdk table pkItem skPrefix (newQueryOptions opts) = .ok inp :=
      hinp
    simp only [Target.page, Table.queryPage, hinp, hstart, Out.ok_bind]
  | gsi indexName pkAttr pkValue skCond =>
    have hinp : gsiQueryInput sdk table indexName pkAttr pkValue skCond (newQueryOptions opts) =
      .ok inp := hinp
    simp only [Target.page, Table.queryGSIPage, hinp, hstart, Out.ok_bind]

theorem Target.page_error (hinp : target.input text sdk table opts = .ok inp) {err : Err}
    (herr : decodePageToken json token = .error err) :
    target.page text sdk json table query pageSize opts token = .error err := by
  cases target with
  | table pkItem skPrefix =>
    have hinp : tableQueryInput text sdk table pkItem skPrefix (newQueryOptions opts) = .ok inp :=
      hinp
    simp only [Target.page, Table.queryPage, hinp, herr, Out.ok_bind, Out.error_bind]
  | gsi indexName pkAttr pkValue skCond =>
    simp only [Target.page, Table.queryGSIPage, herr, Out.error_bind]

variable {items : List (Nat → Handle ν)}

theorem unmarshalItems_cons {raw : GoMap AttributeValue} {raws : List (GoMap AttributeValue)} :
    unmarshalItems text sdk table (raw :: raws) = .ok items ↔
      ∃ item rest, unmarshalItem text sdk table raw = .ok item ∧
        unmarshalItems text sdk table raws = .ok rest ∧ items = item :: rest := by
  rw [unmarshalItems]
  exact Out.bind₂_eq_ok

theorem unmarshalItems_append {raws raws' : List (GoMap AttributeValue)}
    (h : unmarshalItems text sdk table (raws ++ raws') = .ok items) :
    ∃ as bs, unmarshalItems text sdk table raws = .ok as ∧
      unmarshalItems text sdk table raws' = .ok bs ∧ items = as ++ bs := by
  induction raws generalizing items with
  | nil => exact ⟨[], items, rfl, h, rfl⟩
  | cons raw raws ih =>
    obtain ⟨item, rest, hitem, hrest, rfl⟩ := unmarshalItems_cons.mp h
    obtain ⟨as, bs, has, hbs, rfl⟩ := ih hrest
    exact ⟨item :: as, bs, unmarshalItems_cons.mpr ⟨item, as, hitem, has, rfl⟩, hbs, rfl⟩

variable {output : QueryOutput} {next : Option GoString}

theorem queryPage_eq (hout : nextPage query inp = .ok output)
    (hitems : unmarshalItems text sdk table output.items = .ok items)
    (hnext : encodePageToken json output.lastEvaluatedKey = .ok next) :
    queryPage text sdk json table query inp = .ok (items, next) := by
  simp only [queryPage, hout, hitems, hnext, Out.ok_bind]
  rfl

theorem queryPage_token (hout : nextPage query inp = .ok output)
    (h : queryPage text sdk json table query inp = .ok (items, next)) :
    next = none ↔ output.lastEvaluatedKey = none := by
  simp only [queryPage, hout] at h
  obtain ⟨items', -, h⟩ := Out.bind_eq_ok.mp h
  obtain ⟨next', hnext, h⟩ := Out.bind_eq_ok.mp h
  cases h
  constructor
  · rintro rfl
    exact encodePageToken_none hnext
  · intro hnone
    rw [hnone] at hnext
    cases hnext
    rfl

theorem shown_append (keep : Row → Bool) (page rest : List Row) :
    shown keep (page ++ rest) = shown keep page ++ shown keep rest := by
  simp [shown]

theorem Plain.same {key key' : GoMap AttributeValue} (h : Plain key) (hs : key'.Same key) :
    Plain key' := fun e he => h e (List.Perm.mem_iff hs |>.mp he)

/-- The items still to come behind a token. -/
def ToCome (text : TextMethods ν) (sdk : Sdk t ν φ ε) (json : JSON (GoMap PageKeyAttr))
    (table : Table t) (keep : Row → Bool) (rows : List Row) (token : Option GoString)
    (size : Nat) (todo : List (Nat → Handle ν)) : Prop :=
  ∃ seen left start, rows = seen ++ left ∧ left.length = size ∧
    decodePageToken json token = .ok start ∧ Behind seen start ∧
    unmarshalItems text sdk table (shown keep left) = .ok todo

theorem ToCome.page {keep : Row → Bool} {rows : List Row}
    {query : Nat → QueryInput ε → Except Err QueryOutput} (hjson : Inverse json)
    (hinp : target.input text sdk table opts = .ok inp) (hplain : ∀ row ∈ rows, Plain row.key)
    (hserves : Serves query { inp with limit := (some pageSize).filter (0 < ·) } keep rows)
    {size : Nat} {todo : List (Nat → Handle ν)}
    (h : ToCome text sdk json table keep rows token size todo) (n : Nat) :
    ∃ items next, target.page text sdk json table (query n) pageSize opts token =
        .ok (items, next) ∧
      match next with
      | none => items = todo
      | some next => ∃ size' rest, size' < size ∧ todo = items ++ rest ∧
          ToCome text sdk json table keep rows (some next) size' rest := by
  obtain ⟨seen, left, start, hrows, hsize, hstart, hbehind, htodo⟩ := h
  obtain ⟨output, hquery, page, rest, rfl, hitems, hlast⟩ := hserves n start seen left hrows hbehind
  rw [shown_append] at htodo
  obtain ⟨items, todo', hpage, hrest, rfl⟩ := unmarshalItems_append htodo
  rw [← hitems] at hpage
  have hout : nextPage (query n)
      { inp with exclusiveStartKey := start, limit := some pageSize } = .ok output := hquery
  rw [Target.page_eq hinp hstart]
  cases hkey : output.lastEvaluatedKey with
  | none =>
    rw [hkey] at hlast
    subst hlast
    cases hrest
    refine ⟨items, none, queryPage_eq hout hpage (by rw [hkey]; rfl), ?_⟩
    exact (List.append_nil items).symm
  | some key =>
    rw [hkey] at hlast
    obtain ⟨row, hrow, hsame⟩ := hlast
    have hmem : row ∈ rows := by
      rw [hrows]
      exact List.mem_append_right _ (List.mem_append_left _ (List.mem_of_getLast? hrow))
    obtain ⟨next, key', henc, hdec, hsame'⟩ :=
      decodePageToken_encode hjson ((hplain row hmem).same hsame)
    refine ⟨items, some next, queryPage_eq hout hpage (by rw [hkey]; exact henc), ?_⟩
    refine ⟨rest.length, todo', ?_, rfl, seen ++ page, rest, some key', ?_, rfl, hdec, ?_, hrest⟩
    · have hpos : 0 < page.length := List.length_pos_of_mem (List.mem_of_getLast? hrow)
      rw [← hsize, List.length_append]
      omega
    · rw [hrows, List.append_assoc]
    · refine ⟨row, ?_, hsame'.trans hsame⟩
      rw [List.getLast?_append, hrow]
      rfl

/-- Calling `QueryPage` or `QueryGSIPage` with each token ends, and returns what one query
without a cut returns. -/
theorem queryPage_walk (text : TextMethods ν) (sdk : Sdk t ν φ ε)
    (json : JSON (GoMap PageKeyAttr)) (hjson : Inverse json) (table : Table t)
    (target : Target t ν) (opts : List (Option (QueryOption φ))) (pageSize : Int)
    (inp : QueryInput ε) (hinp : target.input text sdk table opts = .ok inp) (keep : Row → Bool)
    (rows : List Row) (hplain : ∀ row ∈ rows, Plain row.key)
    (query : Nat → QueryInput ε → Except Err QueryOutput)
    (hserves : Serves query { inp with limit := (some pageSize).filter (0 < ·) } keep rows)
    (items : List (Nat → Handle ν))
    (hitems : queryPage text sdk json table (fun _ => .ok ⟨shown keep rows, none⟩) inp =
      .ok (items, none)) :
    ((∃ pages, Pages.Walk (fun n token page next =>
          target.page text sdk json table (query n) pageSize opts token = .ok (page, next))
          0 none pages) ∧
      ∀ pages, Pages.Walk (fun n token page next =>
          target.page text sdk json table (query n) pageSize opts token = .ok (page, next))
          0 none pages → pages.flatten = items) ∧
    (∀ key, Plain key → ∃ token key', encodePageToken json (some key) = .ok (some token) ∧
      decodePageToken json (some token) = .ok (some key') ∧ key'.Same key) ∧
    (∀ ask inp' output page next, nextPage ask inp' = .ok output →
      queryPage text sdk json table ask inp' = .ok (page, next) →
        (next = none ↔ output.lastEvaluatedKey = none)) ∧
    ∀ token, (∃ err, err.isErrorTypeEqual .badRequest = true ∧
        decodePageToken json (some token) = .error err ∧
        ∀ n, target.page text sdk json table (query n) pageSize opts (some token) = .error err) ∨
      ∃ key, decodePageToken json (some token) = .ok (some key) ∧
        ∀ e ∈ key.entries, ∀ type, e.2 ≠ .other type := by
  have hwhole : unmarshalItems text sdk table (shown keep rows) = .ok items := by
    obtain ⟨as, has, h⟩ := Out.bind_eq_ok.mp hitems
    cases h
    exact has
  have hresumes : Pages.Resumes (fun n token page next =>
      target.page text sdk json table (query n) pageSize opts token = .ok (page, next))
      (ToCome text sdk json table keep rows) := by
    constructor
    case total =>
      intro n token size todo hto
      obtain ⟨page, next, hpage, -⟩ := hto.page hjson hinp hplain hserves n
      exact ⟨page, next, hpage⟩
    case last =>
      intro n token size todo page hto hpage
      obtain ⟨page', next, hpage', hnext⟩ := hto.page hjson hinp hplain hserves n
      cases hpage.symm.trans hpage'
      exact hnext
    case more =>
      intro n token size todo page next hto hpage
      obtain ⟨page', next', hpage', hnext⟩ := hto.page hjson hinp hplain hserves n
      cases hpage.symm.trans hpage'
      exact hnext
  have hto : ToCome text sdk json table keep rows none rows.length items :=
    ⟨[], rows, none, rfl, rfl, rfl, rfl, hwhole⟩
  refine ⟨⟨hresumes.ends hto, fun pages hw => hresumes.flatten hto hw⟩,
    fun key hkey => decodePageToken_encode hjson hkey,
    fun ask inp' output page next hout h => queryPage_token hout h, fun token => ?_⟩
  rcases decodePageToken_cases json token with ⟨inner, herr⟩ | hkey
  · exact .inl ⟨badToken inner, rfl, herr, fun n => Target.page_error hinp herr⟩
  · exact .inr hkey

end Walk

/-! ## A walk with an empty page -/

instance encodableByte : Encodable UInt8 :=
  Encodable.ofLeftInverse UInt8.toNat Nat.toUInt8 fun b => by simp

instance encodablePageKeyAttr : Encodable PageKeyAttr :=
  Encodable.ofLeftInverse (fun a => (a.s, a.n, a.b)) (fun p => ⟨p.1, p.2.1, p.2.2⟩) fun _ => rfl

/-- The key behind which the walk goes on. -/
def memoKey : GoMap PageKeyAttr :=
  ⟨[(bytes "PK", ⟨some (bytes "T#0000000a-0000-0000-0000-000000000000"), none, none⟩),
    (bytes "SK", ⟨some (bytes "memo#a"), none, none⟩)], by decide⟩

/-- The JSON text of the key of a memo. -/
def memoKeyText : GoString :=
  bytes ("\x7b\"PK\":\x7b\"S\":\"T#0000000a-0000-0000-0000-000000000000\"\x7d," ++
    "\"SK\":\x7b\"S\":\"memo#a\"\x7d\x7d")

/-- `encoding/json` on the key of the walk; other keys have a text of their own. -/
def memoJSON : JSON (GoMap PageKeyAttr) where
  marshal raw := .ok (if raw.entries = memoKey.entries then memoKeyText
    else List.replicate (Encodable.encode raw.entries) 0)
  unmarshal text :=
    if text = memoKeyText then .ok memoKey
    else
      match Encodable.decode (α := List (GoString × PageKeyAttr)) text.length with
      | none => .error (.other "unexpected end of JSON input")
      | some es =>
        if h : (es.map Prod.fst).Nodup then .ok ⟨es, h⟩ else .error (.other "duplicate key")

theorem memoJSON_inverse : Inverse memoJSON := by
  intro raw _
  have hother : ∀ n, List.replicate n 0 ≠ memoKeyText := by
    intro n heq
    have hmem : 123 ∈ List.replicate n (0 : UInt8) := by
      rw [heq]
      decide
    exact absurd (List.eq_of_mem_replicate hmem) (by decide)
  by_cases hkey : raw.entries = memoKey.entries
  · exact ⟨memoKeyText, memoKey, by simp [memoJSON, hkey], by simp [memoJSON],
      .of_eq hkey.symm⟩
  · refine ⟨_, raw, rfl, ?_, List.Perm.refl _⟩
    simp [memoJSON, hkey, hother, raw.distinct]

/-- A table of notes. -/
def noteTable : Table noteType where
  pointers := 0
  tableName := bytes "notes"
  tags := noteTags

/-- Its SDK. -/
def noteSdk : Sdk noteType Empty Unit Unit where
  build _ _ := .ok ()
  unmarshalMap _ := .ok (note tenant [] [])
  unmarshalString
    | .s value => .ok value
    | _ => .error (.other "unmarshal failed")

/-- A memo. -/
def memoRow (name : GoString) : Row :=
  let key : GoMap AttributeValue :=
    ⟨[(bytes "PK", .s (bytes "T#0000000a-0000-0000-0000-000000000000")),
      (bytes "SK", .s (bytes "memo#" ++ name))], by simp; decide⟩
  ⟨key, key⟩

/-- Two memos. -/
def memoRows : List Row := [memoRow (bytes "a"), memoRow (bytes "b")]

/-- The filter. -/
def keepSecond (row : Row) : Bool := row.key.get (bytes "SK") = some (.s (bytes "memo#b"))

/-- A server that stops at every row. -/
def oneByOne (_ : Nat) (inp : QueryInput Unit) : Except Err QueryOutput :=
  match inp.exclusiveStartKey with
  | none => .ok ⟨[], some (memoRow (bytes "a")).key⟩
  | some key =>
    if key.entries.Perm (memoRow (bytes "a")).key.entries then
      .ok ⟨[(memoRow (bytes "b")).attrs], none⟩
    else .ok ⟨[], none⟩

theorem oneByOne_serves (inp : QueryInput Unit) : Serves oneByOne inp keepSecond memoRows := by
  intro n start seen left hrows hbehind
  have hseen : seen = [] ∧ left = memoRows ∨
      seen = [memoRow (bytes "a")] ∧ left = [memoRow (bytes "b")] ∨
      seen = memoRows ∧ left = [] := by
    rcases seen with _ | ⟨a, _ | ⟨b, _ | ⟨c, seen⟩⟩⟩
    · exact .inl ⟨rfl, hrows.symm⟩
    · cases hrows
      exact .inr (.inl ⟨rfl, rfl⟩)
    · cases hrows
      exact .inr (.inr ⟨rfl, rfl⟩)
    · cases hrows
  cases start with
  | none =>
    obtain rfl : seen = [] := hbehind
    rcases hseen with ⟨-, rfl⟩ | ⟨h, -⟩ | ⟨h, -⟩
    · exact ⟨_, rfl, [memoRow (bytes "a")], [memoRow (bytes "b")], rfl, rfl, _, rfl, .refl _⟩
    · cases h
    · cases h
  | some key =>
    obtain ⟨row, hrow, hsame⟩ := hbehind
    rcases hseen with ⟨rfl, -⟩ | ⟨rfl, rfl⟩ | ⟨rfl, rfl⟩
    · cases hrow
    · cases hrow
      exact ⟨_, if_pos hsame, [memoRow (bytes "b")], [], rfl, rfl, rfl⟩
    · cases hrow
      have hdiff :
          ¬ (memoRow (bytes "b")).key.entries.Perm (memoRow (bytes "a")).key.entries := by
        decide
      have hne : ¬ key.entries.Perm (memoRow (bytes "a")).key.entries := fun h =>
        hdiff (List.Perm.trans (List.Perm.symm hsame) h)
      exact ⟨_, if_neg hne, [], [], rfl, rfl, rfl⟩

theorem memo_walk :
    ∃ inp items, (Target.table (note tenant [] []) []).input noText noteSdk noteTable
        [some (withFilter ())] = .ok inp ∧
      queryPage noText noteSdk memoJSON noteTable
        (fun _ => .ok ⟨shown keepSecond memoRows, none⟩) inp = .ok (items, none) ∧
      items.length = 1 ∧
      ∀ pages, Pages.Walk (fun n token page next =>
        (Target.table (note tenant [] []) []).page noText noteSdk memoJSON noteTable (oneByOne n) 1
          [some (withFilter ())] token = .ok (page, next)) 0 none pages →
        pages.flatten = items := by
  refine ⟨_, _, rfl, rfl, rfl, ?_⟩
  exact (queryPage_walk noText noteSdk memoJSON memoJSON_inverse noteTable
    (.table (note tenant [] []) []) [some (withFilter ())] 1 _ rfl keepSecond memoRows (by decide)
    oneByOne (oneByOne_serves _) _ rfl).1.2

end Microjet.Dynamo
