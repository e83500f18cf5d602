import Microjet.Logx.Record
import Microjet.Proofs.LogFields

/-!
# One line for a record

The text handler writes the message and all names as they are, and quotes a value if there is a
space, a tab, a newline, a quote or an equals sign in it. What is quoted has no control
characters (`quote_visible`), but a carriage return alone does not make it quote.
-/

namespace Microjet.Logx

open Secretx Strconv

/-! ### Quoted text -/

section Quote

/-- No control characters. -/
def Visible (s : GoString) : Prop := ∀ b ∈ s, 32 ≤ b

theorem visible_of_all {s : GoString} (h : s.all (32 ≤ ·) = true) : Visible s :=
  fun b hb => of_decide_eq_true (List.all_eq_true.mp h b hb)

theorem Visible.append {s t : GoString} (hs : Visible s) (ht : Visible t) : Visible (s ++ t) :=
  fun b hb => (List.mem_append.mp hb).elim (hs b) (ht b)

theorem hexDigits_visible (width n : Nat) : Visible (hexDigits width n) := by
  induction width generalizing n with
  | zero => exact fun b hb => absurd hb List.not_mem_nil
  | succ width ih =>
    refine (ih (n / 16)).append fun b hb => ?_
    have hdigit : ∀ d : Fin 16, 32 ≤ lowerHex d := by decide
    rw [List.mem_singleton.mp hb]
    exact hdigit ⟨n % 16, Nat.mod_lt n (by decide)⟩

theorem escapeAscii_visible (b : UInt8) : Visible (escapeAscii b) := by
  unfold escapeAscii
  split
  · next h =>
      have hb : 32 ≤ b := by
        rcases Bool.or_eq_true_iff.mp h with h | h <;> rw [of_decide_eq_true h] <;> decide
      exact List.forall_mem_cons.mpr ⟨by decide, List.forall_mem_singleton.mpr hb⟩
  split
  · next h =>
      exact List.forall_mem_singleton.mpr (of_decide_eq_true (Bool.and_eq_true_iff.mp h).1)
  split
  all_goals first
    | exact visible_of_all rfl
    | exact (visible_of_all rfl).append (hexDigits_visible 2 _)

theorem escapeWide_visible (isPrint : Nat → Bool) (asciiOnly : Bool) {c : GoString}
    (hc : Visible c) : Visible (escapeWide isPrint asciiOnly c) := by
  rw [escapeWide]
  split
  · exact hc
  split
  · exact (visible_of_all rfl).append (hexDigits_visible 4 _)
  · exact (visible_of_all rfl).append (hexDigits_visible 8 _)

theorem wide_visible {b : UInt8} {rest : GoString} {w : Nat}
    (hw : Utf8.runeWidth (b :: rest) = w + 2) : Visible (b :: rest.take (w + 1)) := by
  have hhigh {c : UInt8} (h : 0x80 ≤ c) : 32 ≤ c := UInt8.le_trans (by decide) h
  refine List.forall_mem_cons.mpr ⟨hhigh ?_, fun c hc => hhigh ?_⟩
  · refine UInt8.not_lt.mp fun hlt => ?_
    rw [Utf8.runeWidth_ascii hlt] at hw
    omega
  · obtain ⟨i, hi, rfl⟩ := List.getElem_of_mem hc
    rw [List.length_take] at hi
    have hget : rest.getD i 0 = rest[i] := by
      rw [List.getD_eq_getElem?_getD, List.getElem?_eq_getElem (by omega), Option.getD_some]
    rw [List.getElem_take, ← hget]
    refine Utf8.high_of_lt_runeWidth (b := b) ?_
    rw [hw]
    omega

theorem escape_visible (isPrint : Nat → Bool) (asciiOnly : Bool) (b : UInt8) (rest : GoString) :
    Visible (escape isPrint asciiOnly b rest) := by
  rw [escape]
  split
  · exact (visible_of_all rfl).append (hexDigits_visible 2 _)
  · exact escapeAscii_visible b
  · next w hw => exact escapeWide_visible isPrint asciiOnly (wide_visible hw)

theorem quoteFrom_visible (isPrint : Nat → Bool) (asciiOnly : Bool) (k : Nat) (s : GoString) :
    Visible (quoteFrom isPrint asciiOnly k s) := by
  induction s generalizing k with
  | nil => exact fun b hb => absurd hb (by simp [quoteFrom])
  | cons b rest ih =>
    cases k with
    | zero => exact (escape_visible isPrint asciiOnly b rest).append (ih _)
    | succ k => exact ih k

theorem quote_visible (isPrint : Nat → Bool) (s : GoString) : Visible (quote isPrint s) :=
  ((visible_of_all (s := [34]) rfl).append (quoteFrom_visible isPrint false 0 s)).append
    (visible_of_all rfl)

end Quote

section Terminators

/-- No line terminator. -/
def Unbroken (s : GoString) : Prop := 10 ∉ s ∧ 13 ∉ s

instance (s : GoString) : Decidable (Unbroken s) := inferInstanceAs (Decidable (_ ∧ _))

/-- One line with its newline. -/
def OneLine (s : GoString) : Prop := ∃ body, s = body ++ bytes "\n" ∧ Unbroken body

theorem unbroken_nil : Unbroken [] := ⟨List.not_mem_nil, List.not_mem_nil⟩

theorem unbroken_append {s t : GoString} : Unbroken (s ++ t) ↔ Unbroken s ∧ Unbroken t := by
  simp only [Unbroken, List.mem_append, not_or]
  tauto

theorem unbroken_flatMap {α : Type} {f : α → GoString} {l : List α} :
    Unbroken (l.flatMap f) ↔ ∀ a ∈ l, Unbroken (f a) := by
  induction l with
  | nil => exact ⟨fun _ _ h => absurd h List.not_mem_nil, fun _ => unbroken_nil⟩
  | cons a l ih => rw [List.flatMap_cons, unbroken_append, ih, List.forall_mem_cons]

theorem Visible.unbroken {s : GoString} (h : Visible s) : Unbroken s :=
  ⟨fun hmem => absurd (h 10 hmem) (by decide), fun hmem => absurd (h 13 hmem) (by decide)⟩

theorem oneLine_iff {s : GoString} : OneLine (s ++ bytes "\n") ↔ Unbroken s := by
  constructor
  · rintro ⟨body, heq, h⟩
    rw [List.append_cancel_right heq]
    exact h
  · exact fun h => ⟨s, rfl, h⟩

theorem unbroken_qualify {grp key : GoString} :
    Unbroken (qualify grp key) ↔ Unbroken grp ∧ Unbroken key := by
  rw [qualify]
  split
  · next h =>
      rw [h]
      exact (and_iff_right unbroken_nil).symm
  · have hdot : Unbroken (bytes ".") := by decide
    rw [unbroken_append, unbroken_append, and_iff_left hdot]

end Terminators

section Fields

variable (isPrint : Nat → Bool) (ρ : Secrets) (cmp : KeyOrder)

/-- A carriage return does not come without a character for which the text is quoted. -/
def Contained (v : LogValue) : Prop :=
  13 ∈ fmtValue isPrint ρ cmp v → needsQuotes (fmtValue isPrint ρ cmp v) = true

theorem unbroken_fieldText (field : GoString × LogValue) :
    Unbroken (fieldText isPrint ρ cmp field) ↔
      Unbroken field.1 ∧ Contained isPrint ρ cmp field.2 := by
  have hspace : Unbroken (bytes " ") := by decide
  have hequals : Unbroken (bytes "=") := by decide
  rw [fieldText, writeValue, qualify, if_pos rfl, unbroken_append, unbroken_append,
    unbroken_append, and_iff_right hspace, and_iff_left hequals, Contained]
  refine and_congr_right fun _ => ?_
  split
  · next h => exact ⟨fun _ _ => h, fun _ => (quote_visible isPrint _).unbroken⟩
  · next h =>
      -- a newline alone would have been a reason to quote
      have hnewline : 10 ∉ fmtValue isPrint ρ cmp field.2 := fun hmem =>
        h (List.any_eq_true.mpr ⟨10, hmem, by decide⟩)
      exact ⟨fun hval h13 => absurd h13 hval.2, fun hval => ⟨hnewline, fun h13 => h (hval h13)⟩⟩

theorem unbroken_field (grp key : GoString) (v : LogValue) :
    (∀ field ∈ [(qualify grp key, v)], Unbroken (fieldText isPrint ρ cmp field)) ↔
      (Unbroken key ∧ Contained isPrint ρ cmp v) ∧ (true = true → Unbroken grp) := by
  rw [List.forall_mem_singleton, unbroken_fieldText, unbroken_qualify]
  tauto

mutual

/-- The keys have no terminators where something is printed under them, and the values are
contained. -/
def AttrUnbroken (key : GoString) : LogValue → Prop
  | .group attrs => AttrsUnbroken attrs ∧ (attrsPrint attrs = true → Unbroken key)
  | .nil => Unbroken key
  | v => Unbroken key ∧ Contained isPrint ρ cmp v.resolve

def AttrsUnbroken : List Attr → Prop
  | [] => True
  | (key, v) :: attrs => AttrUnbroken key v ∧ AttrsUnbroken attrs

end

mutual

theorem unbroken_attrFields (grp key : GoString) : ∀ v : LogValue,
    (∀ field ∈ attrFields grp key v, Unbroken (fieldText isPrint ρ cmp field)) ↔
      AttrUnbroken isPrint ρ cmp key v ∧ (attrPrints key v = true → Unbroken grp)
  | .group attrs => by
      rw [attrFields, unbroken_attrsFields, AttrUnbroken, attrPrints]
      split
      · next h =>
          have hkey : Unbroken key := h ▸ unbroken_nil
          tauto
      · rw [unbroken_qualify]
        tauto
  | .nil => by
      have hnil : Contained isPrint ρ cmp .nil := fun h =>
        absurd (show 13 ∈ bytes "<nil>" from h) (by decide)
      rw [attrFields, AttrUnbroken, attrPrints]
      cases key with
      | nil => simp [unbroken_nil]
      | cons b key =>
        rw [if_neg (List.cons_ne_nil b key), List.forall_mem_singleton, unbroken_fieldText,
          unbroken_qualify, and_iff_left hnil]
        simp [and_comm]
  | .string _ => unbroken_field isPrint ρ cmp grp key _
  | .time _ => unbroken_field isPrint ρ cmp grp key _
  | .duration _ => unbroken_field isPrint ρ cmp grp key _
  | .any _ => unbroken_field isPrint ρ cmp grp key _

theorem unbroken_attrsFields (grp : GoString) : ∀ attrs : List Attr,
    (∀ field ∈ attrsFields grp attrs, Unbroken (fieldText isPrint ρ cmp field)) ↔
      AttrsUnbroken isPrint ρ cmp attrs ∧ (attrsPrint attrs = true → Unbroken grp)
  | [] => by
      simp [attrsFields, AttrsUnbroken, attrsPrint]
  | (key, v) :: attrs => by
      rw [attrsFields, List.forall_mem_append, unbroken_attrFields, unbroken_attrsFields,
        AttrsUnbroken, attrsPrint, Bool.or_eq_true, or_imp]
      tauto

end

end Fields

theorem padDigits_visible (width n : Nat) : Visible (padDigits width n) := by
  refine Visible.append (fun b hb => ?_) fun b hb => ?_
  · rw [List.eq_of_mem_replicate hb]
    decide
  · obtain ⟨d, hd, rfl⟩ := List.mem_map.mp hb
    have hlt : d < 10 := Nat.digits_lt_base (by decide) (List.mem_reverse.mp hd)
    have hdigit : ∀ d : Fin 10, 32 ≤ (48 + d.val).toUInt8 := by decide
    exact hdigit ⟨d, hlt⟩

theorem format_visible (t : UTCTime) : Visible t.format := by
  have hyear : Visible (if t.year < 0 then bytes "-" else []) := by
    split <;> exact visible_of_all rfl
  have hnext {s sep : GoString} (width n : Nat) (hs : Visible s) (hsep : Visible sep) :
      Visible (s ++ padDigits width n ++ sep) :=
    (hs.append (padDigits_visible width n)).append hsep
  have hdash : Visible (bytes "-") := visible_of_all rfl
  have hcolon : Visible (bytes ":") := visible_of_all rfl
  have hmonth := hnext 2 t.month (hnext 4 t.year.natAbs hyear hdash) hdash
  have hday := hnext 2 t.day hmonth (visible_of_all (s := bytes "T") rfl)
  have hminute := hnext 2 t.minute (hnext 2 t.hour hday hcolon) hcolon
  have hsecond := hnext 2 t.second hminute (visible_of_all (s := bytes ".") rfl)
  exact hnext 3 t.millisecond hsecond (visible_of_all rfl)

theorem levelLabel_visible (l : Int) : Visible (levelLabel l) := by
  rw [levelLabel]
  repeat' split
  all_goals exact visible_of_all rfl

theorem unbroken_head (r : Record) : Unbroken r.head ↔ Unbroken r.message := by
  have hfixed : Visible (r.time.format ++ bytes " [" ++ levelLabel r.level ++ bytes "] ") :=
    (((format_visible _).append (visible_of_all rfl)).append (levelLabel_visible _)).append
      (visible_of_all rfl)
  rw [Record.head, unbroken_append, and_iff_right hfixed.unbroken]

theorem unbroken_lastGroup (chain : List Derivation) (grp : GoString) :
    Unbroken (lastGroup grp chain) ↔
      Unbroken grp ∧ ∀ name, .withGroup name ∈ chain → Unbroken name := by
  induction chain generalizing grp with
  | nil => simp [lastGroup]
  | cons d chain ih =>
    cases d with
    | withAttrs attrs => simp [lastGroup, ih]
    | withGroup name => simp [lastGroup, ih, unbroken_qualify, and_assoc]

/-- A record is one line exactly if the message and the printed names have no terminators and the
values are contained. -/
theorem handleRecord_oneLine_iff (isPrint : Nat → Bool) (ρ : Secrets) (chain : List Derivation)
    (r : Record) :
    let logged := added chain ++ r.attrs
    OneLine ((PlainTextHandler.deriveAll {} chain).handleRecord isPrint ρ r) ↔
      Unbroken r.message ∧ AttrsUnbroken isPrint ρ (compareValues ρ) logged ∧
        (attrsPrint logged = true → ∀ name, .withGroup name ∈ chain → Unbroken name) := by
  intro logged
  rw [PlainTextHandler.handleRecord, PlainTextHandler.handle, line_eq_fields, oneLine_iff,
    unbroken_append, unbroken_head, unbroken_flatMap, fields_deriveAll, unbroken_attrsFields,
    unbroken_lastGroup, and_iff_right unbroken_nil]

/-- A message that looks like two records. -/
theorem forged_record :
    let time : UTCTime := ⟨2026, 1, 2, 3, 4, 5, 6⟩
    let r : Record := ⟨time, 0, bytes "login\n2026-01-02T03:04:05.006Z [INF] granted", []⟩
    PlainTextHandler.handleRecord (fun _ => true) (fun _ => []) {} r =
        bytes ("2026-01-02T03:04:05.006Z [INF] login\n" ++
          "2026-01-02T03:04:05.006Z [INF] granted") ++ bytes "\n" ∧
      ¬ OneLine (PlainTextHandler.handleRecord (fun _ => true) (fun _ => []) {} r) := by
  intro time r
  have hline : PlainTextHandler.handleRecord (fun _ => true) (fun _ => []) {} r =
      bytes ("2026-01-02T03:04:05.006Z [INF] login\n" ++
        "2026-01-02T03:04:05.006Z [INF] granted") ++ bytes "\n" := by decide +kernel
  refine ⟨hline, ?_⟩
  rw [hline, oneLine_iff]
  decide

end Microjet.Logx
