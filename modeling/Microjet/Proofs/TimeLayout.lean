import Microjet.Core.Time

/-!
# What a layout writes is read back

Every field of a time has a numeral of a fixed width, as long as the year has four digits, so
`Parse` reads, element by element, what `Format` has written (`parseElements_format`).
-/

namespace Microjet.Core

variable {d : Nat}

theorem digit_toNat (h : d < 10) : (digit d).toNat = 48 + d := by
  rw [digit, Nat.toUInt8_eq, UInt8.toNat_ofNat']
  omega

theorem isDigit_digit (h : d < 10) : isDigit (digit d) = true := by
  have hall : ∀ d : Fin 10, isDigit (digit d) = true := by decide
  exact hall ⟨d, h⟩

theorem digitValue_digit (h : d < 10) : digitValue (digit d) = d := by
  rw [digitValue, digit_toNat h]
  omega

abbrev numeral (width n : Nat) : GoString := Numeral.fixed digit 10 width n

variable {width n : Nat}

theorem appendInt_eq (h : n < 10 ^ width) :
    appendInt n width = numeral width n := by
  have hlen : (Nat.digits 10 n).length ≤ width := (Nat.digits_length_le_iff (by decide) n).mpr h
  rw [appendInt, if_neg (by omega), Int.natAbs_natCast, Nat.max_eq_left hlen]
  rfl

theorem isDigit_of_mem_numeral {b : UInt8} (h : b ∈ numeral width n) :
    isDigit b = true := by
  obtain ⟨d, hd, rfl⟩ := Numeral.mem_fixed (by decide) h
  exact isDigit_digit hd

theorem read_numeral (h : n < 10 ^ width) :
    Numeral.read 10 digitValue (numeral width n) = n :=
  Numeral.read_fixed (by decide) (fun _ => digitValue_digit) width n h

theorem numeral_two (n : Nat) : numeral 2 n = [digit (n / 10 % 10), digit (n % 10)] := by
  simp [numeral, Numeral.fixed]

theorem getnum_numeral {n : Nat} (h : n < 100) (rest : GoString) (isFixed : Bool) :
    getnum (numeral 2 n ++ rest) isFixed = some (n, rest) := by
  have hd₁ : n / 10 % 10 < 10 := Nat.mod_lt _ (by decide)
  have hd₀ : n % 10 < 10 := Nat.mod_lt _ (by decide)
  rw [numeral_two]
  simp only [List.cons_append, List.nil_append, getnum, isDigit_digit hd₁, isDigit_digit hd₀,
    digitValue_digit hd₁, digitValue_digit hd₀, Bool.not_true, Bool.false_eq_true, if_false,
    if_true, Option.some.injEq, Prod.mk.injEq, and_true]
  omega

theorem head_numeral_ne {b : UInt8} (hb : isDigit b = false) :
    (numeral width n).head? ≠ some b := by
  intro h
  rw [isDigit_of_mem_numeral (List.mem_of_head? h)] at hb
  cases hb

theorem atoi_numeral (h : n < 10 ^ width) :
    atoi (numeral width n) = some (n : Int) := by
  have hminus : (numeral width n).head? ≠ some 45 := head_numeral_ne (by decide)
  have hplus : (numeral width n).head? ≠ some 43 := head_numeral_ne (by decide)
  have hall : (numeral width n).all isDigit = true :=
    List.all_eq_true.mpr fun _ => isDigit_of_mem_numeral
  simp only [atoi, hminus, hplus, or_self, if_false, hall, if_true, read_numeral h]

namespace Time

/-- The year has four digits. -/
def InYears (t : Time) : Prop := 0 ≤ t.date.year ∧ t.date.year ≤ 9999

instance (t : Time) : Decidable t.InYears := inferInstanceAs (Decidable (_ ∧ _))

variable {t : Time}

theorem hour_lt (t : Time) : t.hour < 24 := by
  unfold hour
  omega

theorem minute_lt (t : Time) : t.minute < 60 := by
  unfold minute
  omega

theorem second_lt (t : Time) : t.second < 60 := by
  unfold second
  omega

theorem month_le (t : Time) : 1 ≤ t.date.month ∧ t.date.month ≤ 12 :=
  ⟨(Calendar.valid_ofDays _).month_pos, (Calendar.valid_ofDays _).month_le⟩

theorem day_le (t : Time) : t.date.day ≤ 31 := (Calendar.valid_ofDays _).day_le_31

end Time

/-- Its part of the time. -/
def Element.put (t : Time) (p : Parsed) : Element → Parsed
  | .longYear => { p with year := t.date.year }
  | .zeroMonth => { p with month := t.date.month }
  | .zeroDay => { p with day := t.date.day }
  | .hour => { p with hour := t.hour }
  | .zeroMinute => { p with minute := t.minute }
  | .zeroSecond => { p with second := t.second }
  | .fracSecond0 digits =>
    { p with nsec := t.nsec / 10 ^ (9 - digits) * 10 ^ (9 - digits) }

def Element.Narrow : Element → Prop
  | .fracSecond0 digits => digits ≤ 9
  | _ => True

variable {n digits : Nat}

theorem take_nsec (hn : n < 1000000000) (hdigits : digits ≤ 9) :
    (appendInt n 9).take digits = numeral digits (n / 10 ^ (9 - digits)) := by
  have hpos : 0 < 10 ^ (9 - digits) := Nat.pow_pos (by decide)
  have hsplit : numeral 9 n = numeral digits (n / 10 ^ (9 - digits)) ++
      numeral (9 - digits) (n % 10 ^ (9 - digits)) := by
    rw [numeral, numeral, numeral, ← Numeral.fixed_append (by decide) _ _ _ (Nat.mod_lt _ hpos),
      Nat.div_add_mod', Nat.add_sub_cancel' hdigits]
  rw [appendInt_eq hn, hsplit, List.take_left' (Numeral.length_fixed _ _)]

theorem nsec_div_lt (hn : n < 1000000000) (hdigits : digits ≤ 9) :
    n / 10 ^ (9 - digits) < 10 ^ digits := by
  rw [Nat.div_lt_iff_lt_mul (Nat.pow_pos (by decide)), ← Nat.pow_add,
    Nat.add_sub_cancel' hdigits]
  exact hn

theorem parseNanoseconds_numeral (hn : n < 10 ^ digits) (hdigits : digits ≤ 9) (rest : GoString) :
    parseNanoseconds (46 :: (numeral digits n ++ rest)) (digits + 1) =
      some (n * 10 ^ (9 - digits)) := by
  have hmin : min (digits + 1) 10 = digits + 1 := Nat.min_eq_left (by omega)
  have hscale : 10 - (digits + 1) = 9 - digits := by omega
  have htake : ((46 :: (numeral digits n ++ rest)).take (digits + 1)).drop 1 =
      numeral digits n := by
    rw [List.take_succ_cons, List.drop_one, List.tail_cons,
      List.take_left' (Numeral.length_fixed _ _)]
  unfold parseNanoseconds
  simp only [List.head?_cons, Option.any_some, hmin, htake, atoi_numeral hn, hscale]
  rfl

section Elements

variable {t : Time} (ht : t.InYears)

include ht

theorem Element.head_append {e : Element} (he : e.isFraction = false) :
    ∃ b rest, e.append t = b :: rest ∧ isDigit b = true := by
  have hnumeral {x : Int} {width n : Nat} (hx : x = n) (hn : n < 10 ^ (width + 1)) :
      ∃ b rest, appendInt x (width + 1) = b :: rest ∧ isDigit b = true := by
    rw [hx, appendInt_eq hn]
    exact ⟨_, _, rfl, isDigit_digit (Nat.mod_lt _ (by decide))⟩
  have hhour := t.hour_lt
  have hminute := t.minute_lt
  have hsecond := t.second_lt
  have hmonth := t.month_le
  have hday := t.day_le
  obtain ⟨hyear, hyear'⟩ := ht
  cases e with
  | longYear => exact hnumeral (Int.toNat_of_nonneg hyear).symm (by omega)
  | zeroMonth => exact hnumeral rfl (by omega)
  | zeroDay => exact hnumeral rfl (by omega)
  | hour => exact hnumeral rfl (by omega)
  | zeroMinute => exact hnumeral rfl (by omega)
  | zeroSecond => exact hnumeral rfl (by omega)
  | fracSecond0 digits => cases he

/-- No fraction is read here. -/
def NoFraction (next : Option Element) (rest : GoString) : Prop :=
  next.any Element.isFraction = true ∨ rest.head?.any commaOrPeriod = false

theorem Element.parse_append {e : Element} (he : e.Narrow) {next : Option Element}
    {rest : GoString} (hrest : NoFraction next rest) (p : Parsed) :
    e.parse next p (e.append t ++ rest) = some (e.put t p, rest) := by
  have hhour := t.hour_lt
  have hminute := t.minute_lt
  have hsecond := t.second_lt
  have hmonth := t.month_le
  have hday := t.day_le
  cases e with
  | longYear =>
    -- the year is the one field that is an integer, and here it has four digits
    obtain ⟨year, hyear⟩ := Int.eq_ofNat_of_zero_le ht.1
    have hlt : year < 10 ^ 4 := by
      have hle := ht.2
      omega
    have happend : Element.longYear.append t = numeral 4 year := by
      rw [Element.append, hyear]
      exact appendInt_eq hlt
    have hlen : ¬(numeral 4 year ++ rest).length < 4 := by
      rw [List.length_append, Numeral.length_fixed]
      omega
    have hhead : (numeral 4 year ++ rest).head?.any isDigit = true :=
      isDigit_digit (Nat.mod_lt _ (by decide))
    rw [happend]
    simp only [Element.parse, hlen, hhead, List.take_left' (Numeral.length_fixed 4 year),
      List.drop_left' (Numeral.length_fixed 4 year), atoi_numeral hlt]
    simp [Element.put, hyear]
  | zeroMonth =>
    rw [Element.append, appendInt_eq (by omega)]
    simp only [Element.parse, getnum_numeral (show t.date.month < 100 by omega)]
    exact if_neg (by simp; omega)
  | zeroDay =>
    rw [Element.append, appendInt_eq (by omega)]
    simp only [Element.parse, getnum_numeral (show t.date.day < 100 by omega)]
    rfl
  | hour =>
    rw [Element.append, appendInt_eq (by omega)]
    simp only [Element.parse, getnum_numeral (show t.hour < 100 by omega)]
    exact if_neg (by omega)
  | zeroMinute =>
    rw [Element.append, appendInt_eq (by omega)]
    simp only [Element.parse, getnum_numeral (show t.minute < 100 by omega)]
    exact if_neg (by omega)
  | zeroSecond =>
    rw [Element.append, appendInt_eq (by omega)]
    simp only [Element.parse, getnum_numeral (show t.second < 100 by omega)]
    -- behind the seconds a fraction is read even if the layout has none
    refine (if_neg (by omega)).trans (if_neg fun hfraction => ?_)
    simp only [Bool.and_eq_true, Bool.not_eq_true'] at hfraction
    rcases hrest with hnext | hhead
    · rw [hnext] at hfraction
      cases hfraction.2
    · rw [hhead] at hfraction
      cases hfraction.1.1
  | fracSecond0 digits =>
    have hdigits : digits ≤ 9 := he
    have happend : (Element.fracSecond0 digits).append t ++ rest =
        46 :: (numeral digits (t.nsec / 10 ^ (9 - digits)) ++ rest) := by
      rw [Element.append, take_nsec t.nsec_lt hdigits]
      rfl
    have hlen : ¬(46 :: (numeral digits (t.nsec / 10 ^ (9 - digits)) ++ rest)).length <
        digits + 1 := by
      rw [List.length_cons, List.length_append, Numeral.length_fixed]
      omega
    rw [happend]
    simp only [Element.parse, if_neg hlen,
      parseNanoseconds_numeral (nsec_div_lt t.nsec_lt hdigits) hdigits, List.drop_succ_cons,
      List.drop_left' (Numeral.length_fixed digits _)]
    rfl

omit ht in
theorem noFraction_nil (next : Option Element) : NoFraction next [] := .inr rfl

theorem noFraction_format (layout : List Element) :
    NoFraction layout.head? (t.format layout) := by
  cases layout with
  | nil => exact noFraction_nil none
  | cons e layout =>
    cases he : e.isFraction with
    | true => exact .inl he
    | false =>
      obtain ⟨b, rest, hb, hdigit⟩ := Element.head_append ht he
      refine .inr ?_
      have hhead : (t.format (e :: layout)).head? = some b := by
        rw [Time.format, List.flatMap_cons, hb]
        rfl
      rw [hhead, Option.any_some, commaOrPeriod]
      by_contra hcomma
      rw [Bool.not_eq_false, Bool.or_eq_true, decide_eq_true_eq, decide_eq_true_eq] at hcomma
      rcases hcomma with rfl | rfl <;> cases hdigit

/-- What is written with a layout is read with it. -/
theorem parseElements_format {layout : List Element} (hlayout : ∀ e ∈ layout, e.Narrow)
    (p : Parsed) :
    parseElements layout p (t.format layout) = some (layout.foldl (Element.put t) p, []) := by
  induction layout generalizing p with
  | nil => rfl
  | cons e layout ih =>
    obtain ⟨he, hlayout⟩ := List.forall_mem_cons.mp hlayout
    have hparse := Element.parse_append ht he (noFraction_format ht layout) p
    have hformat : t.format (e :: layout) = e.append t ++ t.format layout := List.flatMap_cons
    rw [hformat, parseElements, hparse]
    exact ih hlayout (e.put t p)

end Elements

end Microjet.Core
