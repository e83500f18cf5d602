import Microjet.Proofs.TimeLayout

/-!
# Sortable texts

A sortable text is the numeral of one number, which grows with what the clocks of the location
show (`timeToSortable_eq`): the texts are in the order of the clocks, and read as if these were
those of UTC. Both are right where they show UTC, and the second only there (`sortable_iff`).
-/

namespace Microjet.Core

/-! ### One number -/

variable {width n m : Nat}

theorem numeral_append (h : m < 100) :
    numeral (width + 2) (n * 100 + m) = numeral width n ++ numeral 2 m :=
  Numeral.fixed_append (by decide) width 2 n h

theorem numeral_lt (hn : n < 10 ^ width) (hm : m < 10 ^ width) :
    numeral width n < numeral width m ↔ n < m := by
  have hdigit (c d : Nat) (hc : c < 10) (hd : d < 10) : digit c < digit d ↔ c < d := by
    rw [UInt8.lt_iff_toNat_lt, digit_toNat hc, digit_toNat hd]
    omega
  have hinj (c d : Nat) (hc : c < 10) (hd : d < 10) (h : digit c = digit d) : c = d := by
    rw [← digitValue_digit hc, h, digitValue_digit hd]
  rw [numeral, numeral, Numeral.fixed_lt_fixed_mod (by decide) hdigit hinj, Nat.mod_eq_of_lt hn,
    Nat.mod_eq_of_lt hm]

theorem numeral_le (hn : n < 10 ^ width) (hm : m < 10 ^ width) :
    numeral width n ≤ numeral width m ↔ n ≤ m := by
  rw [← Nat.not_lt, ← numeral_lt hm hn]
  exact Iff.rfl

def stampOf (wall : Int) : Int :=
  (Calendar.ofDays (wall / 86400 + unixDays)).code * 1000000 +
    ((wall % 86400 / 3600 * 100 + wall % 3600 / 60) * 100 + wall % 60)

theorem stampOf_lt_stampOf {w w' : Int} (hw : w < w') : stampOf w < stampOf w' := by
  unfold stampOf
  have hle : w / 86400 ≤ w' / 86400 := Int.ediv_le_ediv (by decide) (Int.le_of_lt hw)
  rcases Int.lt_or_eq_of_le hle with hday | hday
  · have hcode := Calendar.code_lt_code (Int.add_lt_add_right hday unixDays)
    omega
  · rw [hday]
    omega

section Stamp

variable {t t' : Time}

/-- The digits of the text as a number. -/
def Time.stamp (t : Time) : Nat :=
  ((((t.date.year.toNat * 100 + t.date.month) * 100 + t.date.day) * 100 + t.hour) * 100 +
    t.minute) * 100 + t.second

theorem hour_eq (t : Time) : (t.hour : Int) = t.wall % 86400 / 3600 :=
  Int.toNat_of_nonneg (by omega)

theorem minute_eq (t : Time) : (t.minute : Int) = t.wall % 3600 / 60 :=
  Int.toNat_of_nonneg (by omega)

theorem second_eq (t : Time) : (t.second : Int) = t.wall % 60 :=
  Int.toNat_of_nonneg (by omega)

theorem stamp_eq (ht : t.InYears) : (t.stamp : Int) = stampOf t.wall := by
  have hyear := Int.toNat_of_nonneg ht.1
  have hdate : Calendar.ofDays (t.wall / 86400 + unixDays) = t.date := rfl
  rw [stampOf, hdate, Calendar.Date.code, Time.stamp]
  push_cast
  rw [hyear, hour_eq, minute_eq, second_eq]
  omega

theorem stamp_lt (ht : t.InYears) : t.stamp < 10 ^ 14 := by
  have hhour := t.hour_lt
  have hminute := t.minute_lt
  have hsecond := t.second_lt
  have hmonth := t.month_le
  have hday := t.day_le
  have hyear := ht.2
  unfold Time.stamp
  omega

theorem timeToSortable_eq (ht : t.InYears) : timeToSortable t = numeral 14 t.stamp := by
  have hhour := t.hour_lt
  have hminute := t.minute_lt
  have hsecond := t.second_lt
  have hmonth := t.month_le
  have hday := t.day_le
  obtain ⟨year, hyear⟩ := Int.eq_ofNat_of_zero_le ht.1
  have hyear' := ht.2
  have hlong : appendInt t.date.year 4 = numeral 4 year := by
    rw [hyear]
    exact appendInt_eq (by omega)
  rw [Time.stamp, hyear, Int.toNat_natCast, numeral_append (by omega), numeral_append (by omega),
    numeral_append (by omega), numeral_append (by omega), numeral_append (by omega)]
  simp only [timeToSortable, Time.format, sortableLayout, List.flatMap_cons, List.flatMap_nil,
    Element.append, hlong, List.append_nil, List.append_assoc,
    appendInt_eq (show t.date.month < 10 ^ 2 by omega),
    appendInt_eq (show t.date.day < 10 ^ 2 by omega), appendInt_eq (show t.hour < 10 ^ 2 by omega),
    appendInt_eq (show t.minute < 10 ^ 2 by omega), appendInt_eq (show t.second < 10 ^ 2 by omega)]

def Time.millisecond (t : Time) : Nat := t.nsec / 1000000

theorem millisecond_lt (t : Time) : t.millisecond < 1000 := by
  have hlt := t.nsec_lt
  unfold Time.millisecond
  omega

theorem format_sortableMS (t : Time) :
    t.format sortableMSLayout = timeToSortable t ++ 46 :: numeral 3 t.millisecond := by
  have hfraction : (Element.fracSecond0 3).append t = 46 :: numeral 3 t.millisecond := by
    rw [Element.append, take_nsec t.nsec_lt (by decide)]
    rfl
  rw [Time.format, sortableMSLayout, List.flatMap_append, List.flatMap_cons, hfraction]
  simp [timeToSortable, Time.format]

theorem timeToSortableMS_append (ht : t.InYears) :
    timeToSortableMS t = timeToSortable t ++ numeral 3 t.millisecond := by
  have hdot : 46 ∉ timeToSortable t := by
    rw [timeToSortable_eq ht]
    intro hmem
    cases isDigit_of_mem_numeral hmem
  rw [timeToSortableMS, format_sortableMS, List.erase_append_right _ hdot,
    List.erase_cons_head]

theorem timeToSortableMS_eq (ht : t.InYears) :
    timeToSortableMS t = numeral 17 (t.stamp * 1000 + t.millisecond) := by
  rw [timeToSortableMS_append ht, timeToSortable_eq ht]
  exact (Numeral.fixed_append (by decide) 14 3 _ (millisecond_lt t)).symm

theorem stamp_le_iff (ht : t.InYears) (ht' : t'.InYears) :
    t.stamp ≤ t'.stamp ↔ t.wall ≤ t'.wall := by
  have h := stamp_eq ht
  have h' := stamp_eq ht'
  rcases Int.lt_trichotomy t.wall t'.wall with hlt | heq | hgt
  · have hstamp := stampOf_lt_stampOf hlt
    omega
  · rw [heq] at h
    omega
  · have hstamp := stampOf_lt_stampOf hgt
    omega

theorem timeToSortable_le_iff (ht : t.InYears) (ht' : t'.InYears) :
    timeToSortable t ≤ timeToSortable t' ↔ t.wall ≤ t'.wall := by
  rw [timeToSortable_eq ht, timeToSortable_eq ht', numeral_le (stamp_lt ht) (stamp_lt ht'),
    stamp_le_iff ht ht']

/-- The reading of the clock. -/
def Time.wallMillis (t : Time) : Int := t.wall * 1000 + t.millisecond

theorem timeToSortableMS_le_iff (ht : t.InYears) (ht' : t'.InYears) :
    timeToSortableMS t ≤ timeToSortableMS t' ↔ t.wallMillis ≤ t'.wallMillis := by
  have hms := millisecond_lt t
  have hms' := millisecond_lt t'
  have hlt := stamp_lt ht
  have hlt' := stamp_lt ht'
  have hle := stamp_le_iff ht ht'
  have hge := stamp_le_iff ht' ht
  rw [timeToSortableMS_eq ht, timeToSortableMS_eq ht', numeral_le (by omega) (by omega),
    Time.wallMillis, Time.wallMillis]
  -- the milliseconds decide where the seconds are the same
  rcases Int.lt_trichotomy t.wall t'.wall with hwall | hwall | hwall
  · omega
  · omega
  · omega

def Time.parsed (t : Time) (nsec : Nat) : Parsed :=
  { year := t.date.year, month := t.date.month, day := t.date.day, hour := t.hour
    minute := t.minute, second := t.second, nsec }

theorem nanos_parsed (t : Time) (nsec : Nat) :
    (t.parsed nsec).time.nanos = t.wall * 1000000000 + nsec := by
  have hdays : Calendar.toDays ⟨t.date.year, t.date.month, t.date.day⟩ =
      t.wall / 86400 + unixDays := Calendar.toDays_ofDays _
  simp only [Time.nanos, Parsed.time, Time.parsed, hdays, hour_eq, minute_eq, second_eq]
  omega

theorem parse_parsed {layout : List Element} {text : GoString} {nsec : Nat}
    (h : parseElements layout {} text = some (t.parsed nsec, [])) :
    parse layout text = some (t.parsed nsec).time := by
  have hvalid := Calendar.valid_ofDays (t.wall / 86400 + unixDays)
  have hpos : ¬(t.parsed nsec).day = 0 := Nat.pos_iff_ne_zero.mp hvalid.day_pos
  have hle : ¬Calendar.daysIn (Calendar.isLeap (t.parsed nsec).year) (t.parsed nsec).month <
      (t.parsed nsec).day := Nat.not_lt.mpr hvalid.day_le
  rw [parse, h]
  simp [hpos, hle]

theorem nanos_sortableToTime (ht : t.InYears) :
    (sortableToTime (timeToSortable t)).nanos = t.wall * 1000000000 := by
  have hparse : parseElements sortableLayout {} (timeToSortable t) = some (t.parsed 0, []) :=
    parseElements_format ht (by simp [sortableLayout, Element.Narrow]) {}
  rw [sortableToTime, parse_parsed hparse, Option.getD_some, nanos_parsed]
  simp

theorem nanos_sortableMSToTime (ht : t.InYears) :
    (sortableMSToTime (timeToSortableMS t)).nanos =
      t.wall * 1000000000 + t.millisecond * 1000000 := by
  have hlen : (timeToSortable t).length = 14 := by
    rw [timeToSortable_eq ht, Numeral.length_fixed]
  have htext : (timeToSortableMS t).take 14 ++ bytes "." ++ (timeToSortableMS t).drop 14 =
      t.format sortableMSLayout := by
    rw [timeToSortableMS_append ht, List.take_left' hlen, List.drop_left' hlen,
      format_sortableMS, List.append_assoc]
    rfl
  have hlen' : (timeToSortableMS t).length = 17 := by
    rw [timeToSortableMS_eq ht, Numeral.length_fixed]
  have hparse : parseElements sortableMSLayout {} (t.format sortableMSLayout) =
      some (t.parsed (t.millisecond * 1000000), []) :=
    parseElements_format ht (by simp [sortableMSLayout, sortableLayout, Element.Narrow]) {}
  rw [sortableMSToTime, if_pos hlen', htext, parse_parsed hparse, Option.getD_some,
    nanos_parsed]
  push_cast
  rfl

end Stamp

/-- Both texts are read as the instant, to the second and the millisecond. -/
def ParsesBack (t : Time) : Prop :=
  (sortableToTime (timeToSortable t)).nanos = t.sec * 1000000000 ∧
    (sortableMSToTime (timeToSortableMS t)).nanos =
      t.sec * 1000000000 + t.millisecond * 1000000

theorem parsesBack_iff {t : Time} (ht : t.InYears) : ParsesBack t ↔ t.offset = 0 := by
  rw [ParsesBack, nanos_sortableToTime ht, nanos_sortableMSToTime ht, Time.wall]
  omega

/-- Both texts are in order. -/
def Ordered (t t' : Time) : Prop :=
  timeToSortable t ≤ timeToSortable t' ∧ timeToSortableMS t ≤ timeToSortableMS t'

theorem ordered_iff {t t' : Time} (ht : t.InYears) (ht' : t'.InYears) :
    Ordered t t' ↔ t.wallMillis ≤ t'.wallMillis := by
  have hms := millisecond_lt t
  have hms' := millisecond_lt t'
  rw [Ordered, timeToSortable_le_iff ht ht', timeToSortableMS_le_iff ht ht', Time.wallMillis,
    Time.wallMillis]
  omega

/-- The texts of two instants are in order and give them back exactly if both are carried with
the clocks on UTC. They are in order exactly if the clocks are. -/
theorem sortable_iff (t₁ t₂ : Time) (hle : t₁.nanos ≤ t₂.nanos) (h₁ : t₁.InYears)
    (h₂ : t₂.InYears) :
    (Ordered t₁ t₂ ∧ ParsesBack t₁ ∧ ParsesBack t₂ ↔ t₁.offset = 0 ∧ t₂.offset = 0) ∧
      (timeToSortable t₁ ≤ timeToSortable t₂ ↔ t₁.wall ≤ t₂.wall) ∧
      (timeToSortableMS t₁ ≤ timeToSortableMS t₂ ↔ t₁.wallMillis ≤ t₂.wallMillis) ∧
      (ParsesBack t₁ ↔ t₁.offset = 0) := by
  refine ⟨?_, timeToSortable_le_iff h₁ h₂, timeToSortableMS_le_iff h₁ h₂, parsesBack_iff h₁⟩
  rw [ordered_iff h₁ h₂, parsesBack_iff h₁, parsesBack_iff h₂, and_iff_right_iff_imp]
  rintro ⟨hoffset₁, hoffset₂⟩
  have hlt₁ := t₁.nsec_lt
  have hlt₂ := t₂.nsec_lt
  rw [Time.nanos, Time.nanos] at hle
  rw [Time.wallMillis, Time.wallMillis, Time.wall, Time.wall, hoffset₁, hoffset₂,
    Time.millisecond, Time.millisecond]
  omega

theorem half_second_later :
    let t₁ : Time := ⟨1782037815, 123000000, utcLocation, by decide⟩
    let t₂ : Time := ⟨1782037815, 623000000, utcLocation, by decide⟩
    t₁.nanos ≤ t₂.nanos ∧ t₁.InYears ∧ t₂.InYears ∧
      Ordered t₁ t₂ ∧ ParsesBack t₁ ∧ ParsesBack t₂ := by
  intro t₁ t₂
  have hle : t₁.nanos ≤ t₂.nanos := by decide
  have h₁ : t₁.InYears := by decide +kernel
  have h₂ : t₂.InYears := by decide +kernel
  exact ⟨hle, h₁, h₂, (sortable_iff t₁ t₂ hle h₁ h₂).1.mpr ⟨rfl, rfl⟩⟩

/-- Summer time ends at 01:00 UTC. -/
def berlin : Location := fun sec => if sec < 1792890000 then 7200 else 3600

/-- The hour from two to three is repeated: forty minutes after 02:30 it is 02:10. -/
theorem repeated_hour :
    let t₁ : Time := ⟨1792888200, 0, berlin, by decide⟩
    let t₂ : Time := ⟨1792890600, 0, berlin, by decide⟩
    t₁.nanos ≤ t₂.nanos ∧ t₁.InYears ∧ t₂.InYears ∧
      timeToSortable t₁ = bytes "20261025023000" ∧ timeToSortable t₂ = bytes "20261025021000" ∧
      ¬timeToSortable t₁ ≤ timeToSortable t₂ ∧ ¬timeToSortableMS t₁ ≤ timeToSortableMS t₂ ∧
      (sortableToTime (timeToSortable t₁)).sec = 1792895400 ∧ ¬ParsesBack t₁ := by
  intro t₁ t₂
  have h₁ : t₁.InYears := by decide +kernel
  have h₂ : t₂.InYears := by decide +kernel
  refine ⟨by decide, h₁, h₂, by decide +kernel, by decide +kernel, ?_, ?_, by decide +kernel, ?_⟩
  · rw [timeToSortable_le_iff h₁ h₂]
    decide
  · rw [timeToSortableMS_le_iff h₁ h₂]
    decide
  · rw [parsesBack_iff h₁]
    decide

def Time.ofSecond (loc : Location) (sec : Int) : Time := { Time.zero with sec, loc }

theorem inYears_ofSecond {t : Time} {loc : Location} (h : t.loc = loc) :
    (Time.ofSecond loc t.sec).InYears ↔ t.InYears := by
  have hwall : (Time.ofSecond loc t.sec).wall = t.wall := by
    rw [← h]
    rfl
  rw [Time.InYears, Time.InYears, Time.date, Time.date, hwall]

/-- The texts of one location are in order exactly if its clocks are never put back, nor stopped. -/
theorem location_ordered_iff (loc : Location) :
    (∀ t t' : Time, t.loc = loc → t'.loc = loc → t.InYears → t'.InYears →
      t.nanos ≤ t'.nanos → Ordered t t') ↔
      ∀ s s', (Time.ofSecond loc s).InYears → (Time.ofSecond loc s').InYears → s < s' →
        s + loc s < s' + loc s' := by
  constructor
  · intro h s s' hs hs' hlt
    let t : Time := ⟨s, 999000000, loc, by decide⟩
    have ht : t.InYears := (inYears_ofSecond (t := t) rfl).mp hs
    have hle : t.nanos ≤ (Time.ofSecond loc s').nanos := by
      show s * 1000000000 + 999000000 ≤ s' * 1000000000 + 0
      omega
    -- the last millisecond of a second comes before the first of the next
    have hmillis : t.wallMillis ≤ (Time.ofSecond loc s').wallMillis :=
      (ordered_iff ht hs').mp (h t _ rfl rfl ht hs' hle)
    have hlast : t.millisecond = 999 := Nat.div_eq_of_eq_mul_left (by decide) rfl
    have hfirst : (Time.ofSecond loc s').millisecond = 0 := Nat.zero_div _
    rw [Time.wallMillis, Time.wallMillis, hlast, hfirst] at hmillis
    have hwall : t.wall = s + loc s := rfl
    have hwall' : (Time.ofSecond loc s').wall = s' + loc s' := rfl
    omega
  · rintro h t t' rfl hloc ht ht' hle
    have hwall : t.sec < t'.sec → t.wall < t'.wall := by
      intro hlt
      have hmono := h _ _ ((inYears_ofSecond rfl).mpr ht) ((inYears_ofSecond hloc).mpr ht') hlt
      rw [Time.wall, Time.wall, Time.offset, Time.offset, hloc]
      exact hmono
    have hms := millisecond_lt t
    rw [ordered_iff ht ht', Time.wallMillis, Time.wallMillis]
    have hlt := t.nsec_lt
    have hlt' := t'.nsec_lt
    rw [Time.nanos, Time.nanos] at hle
    rcases Int.lt_or_le t.sec t'.sec with hsec | hsec
    · have hless := hwall hsec
      omega
    · have heq : t.sec = t'.sec := by omega
      have hsame : t.wall = t'.wall := by
        rw [Time.wall, Time.wall, Time.offset, Time.offset, hloc, heq]
      rw [hsame, Time.millisecond, Time.millisecond]
      omega

inductive FixedClock.Call where
  | set (t : Time)
  | advance (d : Int)

def FixedClock.call (c : FixedClock) : FixedClock.Call → FixedClock
  | .set t => c.set t
  | .advance d => c.advance d

theorem FixedClock.loc_calls (t : Time) (calls : List FixedClock.Call) :
    (calls.foldl FixedClock.call (FixedClock.new t)).time.loc = utcLocation := by
  have hstep (c : FixedClock) (hc : c.time.loc = utcLocation) (call : FixedClock.Call) :
      (c.call call).time.loc = utcLocation := by
    cases call with
    | set t => rfl
    | advance d => exact hc
  induction calls using List.reverseRecOn with
  | nil => rfl
  | append_singleton calls call ih =>
    rw [List.foldl_concat]
    exact hstep _ ih call

/-- The texts of a fixed clock give its time back, to the second and the millisecond, whatever
time of whatever zone it is made with or set to. -/
theorem FixedClock.parsesBack (t : Time) (calls : List FixedClock.Call) (c : FixedClock)
    (hc : c = calls.foldl FixedClock.call (FixedClock.new t)) (h : c.time.InYears) :
    (sortableToTime c.nowSortable).nanos = c.time.sec * 1000000000 ∧
      (sortableMSToTime c.nowSortableMS).nanos =
        c.time.sec * 1000000000 + c.time.millisecond * 1000000 := by
  refine (parsesBack_iff h).mpr ?_
  rw [hc, Time.offset, FixedClock.loc_calls]
  rfl

/-- A clock made in Berlin, at the repeated hour. -/
theorem FixedClock.advanced_parses_back :
    let c := (FixedClock.new ⟨1792888200, 0, berlin, by decide⟩).call (.advance 1500000000)
    (sortableToTime c.nowSortable).nanos = 1792888201000000000 ∧
      (sortableMSToTime c.nowSortableMS).nanos = 1792888201500000000 :=
  FixedClock.parsesBack ⟨1792888200, 0, berlin, by decide⟩ [.advance 1500000000] _ rfl
    (by decide +kernel)

end Microjet.Core
