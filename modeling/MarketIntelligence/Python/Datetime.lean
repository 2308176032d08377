import MarketIntelligence.Python.Exceptions
import Mathlib.Data.Int.Basic
import Mathlib.Tactic.Linarith

/-!
# Python datetimes

A `datetime` is a wall-clock reading, counted here in microseconds from the start
of year 1, with an optional time zone. A time zone yields an offset or `None`, or it
raises. Two datetimes with the same time zone object are compared by their wall
clocks, whatever the offsets are; others are compared as instants. Conversion to UTC
fails when the instant lies outside the years 1 to 9999, although the wall-clock
reading lies inside.
-/

namespace Python

/-- Microseconds in a day. -/
def microsPerDay : ℤ := 86400000000

/-- Microseconds from the start of year 1 to the end of year 9999. -/
def datetimeRange : ℤ := 3652059 * microsPerDay

/-- An aware datetime: a wall-clock reading and the offset of its time zone. -/
@[ext] structure AwareDatetime where
  /-- Wall-clock microseconds since the start of year 1. -/
  wall : ℤ
  /-- The UTC offset in microseconds. -/
  offset : ℤ
  /-- The reading lies in the years 1 to 9999. -/
  wall_range : 0 ≤ wall ∧ wall < datetimeRange
  /-- Offsets are shorter than a day. -/
  offset_range : -microsPerDay < offset ∧ offset < microsPerDay
  deriving DecidableEq

/-- A `datetime` object: naive, or with a time zone that yields no offset, raises when
it is asked for one, or yields one. The number stands for the time zone object, and
`folds` says that the offset changes with the attribute `fold`. -/
inductive Datetime
  | naive (wall : ℤ)
  | unknownOffset (zone : ℕ) (wall : ℤ)
  | raising (zone : ℕ) (wall : ℤ) (e : BuiltinError)
  | aware (zone : ℕ) (t : AwareDatetime) (folds : Bool)
  deriving DecidableEq

/-- What `datetime.fromisoformat` yields: a naive datetime, or one with a fixed offset. -/
inductive ParsedDatetime
  | naive (wall : ℤ)
  | aware (t : AwareDatetime)
  deriving DecidableEq

namespace AwareDatetime

/-- The instant of an aware datetime, as UTC microseconds since the start of
year 1. Instants may lie outside the range of datetimes. -/
def instant (t : AwareDatetime) : ℤ := t.wall - t.offset

/-- Whether the instant of a datetime can be written as a UTC datetime. -/
def InUtcRange (t : AwareDatetime) : Prop := 0 ≤ t.instant ∧ t.instant < datetimeRange

instance (t : AwareDatetime) : Decidable t.InUtcRange := inferInstanceAs (Decidable (_ ∧ _))

/-- UTC has an offset that is allowed. -/
theorem offset_zero_range : -microsPerDay < 0 ∧ 0 < microsPerDay := by decide

/-- `value.astimezone(UTC)`; `none` is the `OverflowError` of an instant outside
the range of datetimes. -/
def astimezoneUtc (t : AwareDatetime) : Option AwareDatetime :=
  if h : t.InUtcRange then some ⟨t.instant, 0, h, offset_zero_range⟩ else none

/-- `<` on aware datetimes of which one is a UTC datetime. -/
def lt (s t : AwareDatetime) : Bool := s.instant < t.instant

/-- Conversion to UTC succeeds exactly inside the range of datetimes. -/
theorem astimezoneUtc_isSome {t : AwareDatetime} : t.astimezoneUtc.isSome ↔ t.InUtcRange := by
  unfold astimezoneUtc
  split <;> simp_all

/-- Conversion to UTC keeps the instant and yields offset zero. -/
theorem astimezoneUtc_spec {s t : AwareDatetime} (h : s.astimezoneUtc = some t) :
    t.instant = s.instant ∧ t.offset = 0 := by
  unfold astimezoneUtc at h
  split at h
  · obtain rfl := Option.some.inj h
    simp [instant]
  · simp at h

/-- A UTC datetime is its own conversion to UTC. -/
theorem astimezoneUtc_of_offset_zero {t : AwareDatetime} (h : t.offset = 0) :
    t.astimezoneUtc = some t := by
  have hrange : t.InUtcRange := by simpa [InUtcRange, instant, h] using t.wall_range
  rw [astimezoneUtc, dif_pos hrange]
  congr 1
  ext
  · simp [instant, h]
  · simp [h]

/-- UTC datetimes of the same instant are equal. -/
theorem eq_of_instant_eq {s t : AwareDatetime} (hs : s.offset = 0) (ht : t.offset = 0)
    (h : s.instant = t.instant) : s = t := by
  ext
  · simpa [instant, hs, ht] using h
  · rw [hs, ht]

end AwareDatetime

namespace Datetime

/-- The number of the time zone `UTC`. -/
def utcZone : ℕ := 0

/-- A datetime in the time zone `UTC`. -/
def utc (wall : ℤ) (h : 0 ≤ wall ∧ wall < datetimeRange) : Datetime :=
  .aware utcZone ⟨wall, 0, h, AwareDatetime.offset_zero_range⟩ false

/-- `tzinfo`. -/
def zone : Datetime → Option ℕ
  | naive _ => none
  | unknownOffset zone _ | raising zone _ _ | aware zone _ _ => some zone

/-- The wall-clock reading. -/
def wall : Datetime → ℤ
  | naive wall | unknownOffset _ wall | raising _ wall _ => wall
  | aware _ t _ => t.wall

/-- `utcoffset()`. -/
def utcoffset : Datetime → Except BuiltinError (Option ℤ)
  | naive _ | unknownOffset _ _ => .ok none
  | raising _ _ e => .error e
  | aware _ t _ => .ok (some t.offset)

/-- Whether the offset changes with `fold`. -/
def folds : Datetime → Bool
  | aware _ _ folds => folds
  | _ => false

/-- The instant, where there is an offset. -/
def instant : Datetime → Option ℤ
  | aware _ t _ => some t.instant
  | _ => none

/-- The coordinates by which two datetimes are compared; `none` where only one of them
has an offset. -/
def coordinates (s t : Datetime) : Except BuiltinError (Option (ℤ × ℤ)) :=
  if s.zone = t.zone then .ok (some (s.wall, t.wall))
  else do
    match ← s.utcoffset, ← t.utcoffset with
    | none, none => return some (s.wall, t.wall)
    | some o, some p => return some (s.wall - o, t.wall - p)
    | _, _ => return none

/-- An order comparison of two datetimes. -/
def compare (holds : ℤ → ℤ → Bool) (s t : Datetime) : Except BuiltinError Bool := do
  match ← coordinates s t with
  | some (x, y) => return holds x y
  | none => .error .typeError

/-- `<`. -/
def lt : Datetime → Datetime → Except BuiltinError Bool := compare fun x y => x < y

/-- `<=`. -/
def le : Datetime → Datetime → Except BuiltinError Bool := compare fun x y => x ≤ y

/-- `>`. -/
def gt : Datetime → Datetime → Except BuiltinError Bool := compare fun x y => y < x

/-- `==`. Of different time zones, a datetime whose offset changes with `fold` equals
nothing. -/
def eq (s t : Datetime) : Except BuiltinError Bool := do
  match ← coordinates s t with
  | some (x, y) => return x = y && (s.zone = t.zone || !(s.folds || t.folds))
  | none => return false

/-- The coordinates do not depend on which datetime is asked first. -/
theorem coordinates_swap {s t : Datetime} {x y : ℤ} :
    s.coordinates t = .ok (some (x, y)) ↔ t.coordinates s = .ok (some (y, x)) := by
  unfold coordinates
  by_cases h : s.zone = t.zone
  · simp [h, and_comm]
  · have h' : ¬t.zone = s.zone := fun heq => h heq.symm
    rw [if_neg h, if_neg h']
    cases s.utcoffset with
    | error e => cases t.utcoffset <;> simp
    | ok o =>
      cases t.utcoffset with
      | error e => simp
      | ok p => cases o <;> cases p <;> simp [and_comm]

/-- A comparison has a result on datetimes with coordinates. -/
theorem compare_eq_ok {holds : ℤ → ℤ → Bool} {s t : Datetime} {b : Bool} :
    compare holds s t = .ok b ↔ ∃ x y, s.coordinates t = .ok (some (x, y)) ∧ holds x y = b := by
  unfold compare
  rw [bind_eq_ok]
  constructor
  · rintro ⟨_ | ⟨x, y⟩, hcoordinates, hb⟩
    · cases hb
    · exact ⟨x, y, hcoordinates, Except.ok.inj hb⟩
  · rintro ⟨x, y, hcoordinates, rfl⟩
    exact ⟨some (x, y), hcoordinates, rfl⟩

/-- A comparison of datetimes with known coordinates. -/
theorem compare_of_coordinates {holds : ℤ → ℤ → Bool} {s t : Datetime} {x y : ℤ}
    (h : s.coordinates t = .ok (some (x, y))) : compare holds s t = .ok (holds x y) :=
  compare_eq_ok.mpr ⟨x, y, h, rfl⟩

/-- What is not at or before a datetime is after it. -/
theorem le_eq_ok_false {s t : Datetime} : t.le s = .ok false ↔ s.lt t = .ok true := by
  rw [le, lt, compare_eq_ok, compare_eq_ok]
  constructor
  · rintro ⟨x, y, hcoordinates, hle⟩
    exact ⟨y, x, coordinates_swap.mp hcoordinates, by simpa using hle⟩
  · rintro ⟨x, y, hcoordinates, hlt⟩
    exact ⟨y, x, coordinates_swap.mp hcoordinates, by simpa using hlt⟩

/-- `<` is asymmetric. -/
theorem lt_asymm {s t : Datetime} (h : s.lt t = .ok true) : t.lt s = .ok false := by
  obtain ⟨x, y, hcoordinates, hlt⟩ := compare_eq_ok.mp h
  refine compare_eq_ok.mpr ⟨y, x, coordinates_swap.mp hcoordinates, ?_⟩
  have hless : x < y := of_decide_eq_true hlt
  exact decide_eq_false (by omega)

/-- What is before a datetime is not equal to it. -/
theorem eq_of_lt {s t : Datetime} (h : s.lt t = .ok true) : s.eq t = .ok false := by
  obtain ⟨x, y, hcoordinates, hlt⟩ := compare_eq_ok.mp h
  have hne : x ≠ y := by
    have : x < y := of_decide_eq_true hlt
    omega
  rw [eq, hcoordinates]
  simp [hne]

/-- What is after a datetime is not equal to it. -/
theorem eq_of_gt {s t : Datetime} (h : s.lt t = .ok true) : t.eq s = .ok false := by
  obtain ⟨x, y, hcoordinates, hlt⟩ := compare_eq_ok.mp h
  have hne : y ≠ x := by
    have : x < y := of_decide_eq_true hlt
    omega
  rw [eq, coordinates_swap.mp hcoordinates]
  simp [hne]

/-- Two datetimes are ordered in both directions or in none. -/
theorem comparable_comm {s t : Datetime} (h : ∃ b, s.gt t = .ok b) : ∃ b, t.gt s = .ok b := by
  obtain ⟨b, h⟩ := h
  obtain ⟨x, y, hcoordinates, -⟩ := compare_eq_ok.mp h
  exact ⟨_, compare_of_coordinates (coordinates_swap.mp hcoordinates)⟩

/-! ### The same time -/

/-- Equal datetimes of the same instant. In one time zone equal datetimes may have
different offsets. -/
def Same (s t : Datetime) : Prop := s.eq t = .ok true ∧ s.instant = t.instant

/-- A datetime of a time zone with a fixed offset. -/
def OfFixedZone (zone : ℕ) (offset : ℤ) (t : Datetime) : Prop :=
  ∃ (u : AwareDatetime) (folds : Bool), t = .aware zone u folds ∧ u.offset = offset

variable {zone : ℕ} {offset : ℤ} {s t : Datetime}

/-- In one time zone wall clocks are compared. -/
theorem coordinates_of_zone (h : s.zone = t.zone) :
    s.coordinates t = .ok (some (s.wall, t.wall)) := by
  rw [coordinates, if_pos h]

/-- In one time zone equal wall clocks are equal. -/
theorem eq_of_zone (h : s.zone = t.zone) : s.eq t = .ok (s.wall = t.wall) := by
  rw [eq, coordinates_of_zone h]
  simp [h]

/-- Datetimes of a fixed offset are ordered like their wall clocks. -/
theorem gt_of_fixedZone (hs : OfFixedZone zone offset s) (ht : OfFixedZone zone offset t) :
    s.gt t = .ok (t.wall < s.wall) := by
  obtain ⟨u, _, rfl, -⟩ := hs
  obtain ⟨v, _, rfl, -⟩ := ht
  exact compare_of_coordinates (coordinates_of_zone rfl)

/-- Datetimes of a fixed offset are the same if their wall clocks are. -/
theorem same_of_fixedZone (hs : OfFixedZone zone offset s) (ht : OfFixedZone zone offset t)
    (h : s.wall = t.wall) : s.Same t := by
  obtain ⟨u, _, rfl, hu⟩ := hs
  obtain ⟨v, _, rfl, hv⟩ := ht
  have hwall : u.wall = v.wall := h
  constructor
  · rw [eq_of_zone (s := .aware zone u _) (t := .aware zone v _) rfl, h]
    simp
  · simp [instant, AwareDatetime.instant, hu, hv, hwall]

end Datetime

end Python
