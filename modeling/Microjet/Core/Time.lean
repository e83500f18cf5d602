import Microjet.Core.Go
import Microjet.Lib.Calendar
import Microjet.Lib.Numeral

/-!
# Times and clocks (`core/time_utils.go`, `time.go`)

Of package `time` there is what the two sortable layouts use. `Format` writes the clocks of
the location; `Parse` reads them as those of UTC, and its callers drop its error.
-/

namespace Microjet.Core

/-- A `*time.Location`, from the seconds since 1970. -/
abbrev Location := Int → Int

def utcLocation : Location := fun _ => 0

/-- A `time.Time`, in seconds and nanoseconds since 1970. -/
structure Time where
  sec : Int
  nsec : Nat
  loc : Location
  nsec_lt : nsec < 1000000000

/-- The days from 1 January of the year 1 to the Unix epoch. -/
def unixDays : Int := 719162

namespace Time

/-- The instant, in nanoseconds. -/
def nanos (t : Time) : Int := t.sec * 1000000000 + t.nsec

/-- What the clocks are ahead of UTC. -/
def offset (t : Time) : Int := t.loc t.sec

/-- What the clocks of the location show, as seconds since 1970 on them. -/
def wall (t : Time) : Int := t.sec + t.offset

/-- The date on the clocks. -/
def date (t : Time) : Calendar.Date := Calendar.ofDays (t.wall / 86400 + unixDays)

def hour (t : Time) : Nat := (t.wall % 86400 / 3600).toNat

def minute (t : Time) : Nat := (t.wall % 3600 / 60).toNat

def second (t : Time) : Nat := (t.wall % 60).toNat

/-- `UTC` -/
def utc (t : Time) : Time := { t with loc := utcLocation }

/-- `Add` -/
def add (t : Time) (d : Int) : Time where
  sec := (t.nanos + d) / 1000000000
  nsec := ((t.nanos + d) % 1000000000).toNat
  loc := t.loc
  nsec_lt := by omega

/-- The zero `time.Time`. -/
def zero : Time := ⟨-unixDays * 86400, 0, utcLocation, by decide⟩

end Time

/-! ### Layouts -/

/-- A piece of a layout. -/
inductive Element where
  /-- `2006` -/
  | longYear
  /-- `01` -/
  | zeroMonth
  /-- `02` -/
  | zeroDay
  /-- `15` -/
  | hour
  /-- `04` -/
  | zeroMinute
  /-- `05` -/
  | zeroSecond
  /-- `.000`, with as many zeros -/
  | fracSecond0 (digits : Nat)
  deriving DecidableEq

def Element.isFraction : Element → Bool
  | .fracSecond0 _ => true
  | _ => false

/-- `20060102150405` -/
def sortableLayout : List Element :=
  [.longYear, .zeroMonth, .zeroDay, .hour, .zeroMinute, .zeroSecond]

/-- `20060102150405.000` -/
def sortableMSLayout : List Element := sortableLayout ++ [.fracSecond0 3]

def digit (d : Nat) : UInt8 := (48 + d).toUInt8

/-- `appendInt`: padded with zeros. -/
def appendInt (x : Int) (width : Nat) : GoString :=
  (if x < 0 then bytes "-" else []) ++
    Numeral.fixed digit 10 (max width (Nat.digits 10 x.natAbs).length) x.natAbs

/-- What `Format` writes for a piece. -/
def Element.append (t : Time) : Element → GoString
  | .longYear => appendInt t.date.year 4
  | .zeroMonth => appendInt t.date.month 2
  | .zeroDay => appendInt t.date.day 2
  | .hour => appendInt t.hour 2
  | .zeroMinute => appendInt t.minute 2
  | .zeroSecond => appendInt t.second 2
  | .fracSecond0 digits => bytes "." ++ (appendInt t.nsec 9).take digits

/-- `Format` -/
def Time.format (t : Time) (layout : List Element) : GoString :=
  layout.flatMap (Element.append t)

def isDigit (b : UInt8) : Bool := 48 ≤ b && b ≤ 57

def digitValue (b : UInt8) : Nat := b.toNat - 48

/-- One or two digits, or always two. -/
def getnum : GoString → Bool → Option (Nat × GoString)
  | [], _ => none
  | [a], isFixed => if isDigit a && !isFixed then some (digitValue a, []) else none
  | a :: b :: rest, isFixed =>
    if !isDigit a then none
    else if isDigit b then some (digitValue a * 10 + digitValue b, rest)
    else if isFixed then none
    else some (digitValue a, b :: rest)

/-- `atoi` of package `time`. -/
def atoi (s : GoString) : Option Int :=
  let digits := if s.head? = some 45 ∨ s.head? = some 43 then s.tail else s
  let n := Numeral.read 10 digitValue digits
  if digits.all isDigit then some (if s.head? = some 45 then -n else n) else none

def commaOrPeriod (b : UInt8) : Bool := b = 46 || b = 44

/-- `parseNanoseconds` -/
def parseNanoseconds (value : GoString) (nbytes : Nat) : Option Nat :=
  if !value.head?.any commaOrPeriod then none
  else do
    let nbytes := min nbytes 10
    let ns ← atoi ((value.take nbytes).drop 1)
    if ns < 0 then none else some (ns.toNat * 10 ^ (10 - nbytes))

/-- The fields `Parse` has read. -/
structure Parsed where
  year : Int := 0
  month : Nat := 1
  day : Nat := 1
  hour : Nat := 0
  minute : Nat := 0
  second : Nat := 0
  nsec : Nat := 0

/-- One element of the layout; after the seconds a fraction is read even if it has none. -/
def Element.parse (next : Option Element) (p : Parsed) (value : GoString) :
    Element → Option (Parsed × GoString)
  | .longYear =>
    if value.length < 4 || !value.head?.any isDigit then none
    else do
      let year ← atoi (value.take 4)
      return ({ p with year }, value.drop 4)
  | .zeroMonth => do
      let (month, value) ← getnum value true
      if month = 0 || 12 < month then none else return ({ p with month }, value)
  | .zeroDay => do
      let (day, value) ← getnum value true
      return ({ p with day }, value)
  | .hour => do
      let (n, value) ← getnum value false
      if 24 ≤ n then none else return ({ p with hour := n }, value)
  | .zeroMinute => do
      let (minute, value) ← getnum value true
      if 60 ≤ minute then none else return ({ p with minute }, value)
  | .zeroSecond => do
      let (second, value) ← getnum value true
      if 60 ≤ second then none
      else if value.head?.any commaOrPeriod && value.tail.head?.any isDigit &&
          !next.any Element.isFraction then do
        let n := 2 + ((value.drop 2).takeWhile isDigit).length
        let nsec ← parseNanoseconds value n
        return ({ p with second, nsec }, value.drop n)
      else return ({ p with second }, value)
  | .fracSecond0 digits =>
    if value.length < digits + 1 then none
    else do
      let nsec ← parseNanoseconds value (digits + 1)
      return ({ p with nsec }, value.drop (digits + 1))

def parseElements : List Element → Parsed → GoString → Option (Parsed × GoString)
  | [], p, value => some (p, value)
  | e :: layout, p, value => do
      let (p, value) ← e.parse layout.head? p value
      parseElements layout p value

/-- `Date`, in UTC. -/
def Parsed.time (p : Parsed) : Time where
  sec := (Calendar.toDays ⟨p.year, p.month, p.day⟩ - unixDays) * 86400 + p.hour * 3600 +
    p.minute * 60 + p.second + p.nsec / 1000000000
  nsec := p.nsec % 1000000000
  loc := utcLocation
  nsec_lt := Nat.mod_lt _ (by decide)

/-- `Parse` -/
def parse (layout : List Element) (value : GoString) : Option Time := do
  let (p, rest) ← parseElements layout {} value
  if rest ≠ [] then none
  else if p.day = 0 || Calendar.daysIn (Calendar.isLeap p.year) p.month < p.day then none
  else return p.time

/-! ### Sortable texts -/

/-- `TimeToSortable` -/
def timeToSortable (t : Time) : GoString := t.format sortableLayout

/-- `TimeToSortableMS`; `strings.Replace` takes out the first dot. -/
def timeToSortableMS (t : Time) : GoString := (t.format sortableMSLayout).erase 46

/-- `SortableToTime` -/
def sortableToTime (st : GoString) : Time := (parse sortableLayout st).getD .zero

/-- `SortableMSToTime` -/
def sortableMSToTime (st : GoString) : Time :=
  let st := if st.length = 17 then st.take 14 ++ bytes "." ++ st.drop 14 else st
  (parse sortableMSLayout st).getD .zero

/-- `FixedClock` -/
structure FixedClock where
  time : Time

namespace FixedClock

/-- `NewFixedClock` -/
def new (t : Time) : FixedClock := ⟨t.utc⟩

/-- `Set` -/
def set (_ : FixedClock) (t : Time) : FixedClock := ⟨t.utc⟩

/-- `Advance` -/
def advance (c : FixedClock) (d : Int) : FixedClock := ⟨c.time.add d⟩

/-- `NowSortable` -/
def nowSortable (c : FixedClock) : GoString := timeToSortable c.time

/-- `NowSortableMS` -/
def nowSortableMS (c : FixedClock) : GoString := timeToSortableMS c.time

end FixedClock

end Microjet.Core
