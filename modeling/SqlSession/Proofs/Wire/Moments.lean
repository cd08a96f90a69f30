/-
Dates and times on the wire.

A date is written as its number and comes back whole: `dateOf?_dateBytes`.  A time of the day is
written in microseconds, and any eight bytes are read as one.  A timestamp is microseconds as well,
split into a day and the time in it when it is read.  One without a leap second and with whole
microseconds comes back: `timestampOf?_timestampBytes`.

A leap second has no microseconds of its own.  It is written as the second after it, and in the last
second of a day that lies on the next day.  For one timestamp no date is left there, and it is the
only one that is written but not read: `isSome_timestampOf?_timestampBytes`.
-/
import SqlSession.Proofs.Calendar.DayNumber
import SqlSession.Proofs.Wire.Integers

namespace SqlSession

/-- A leap second behind which no day follows. -/
def Timestamp.OutOfDays (t : Timestamp) : Prop :=
  t.date.IsLast ∧ t.clock.second = 86399 ∧ 1000000000 ≤ t.clock.nanos

instance (t : Timestamp) : Decidable t.OutOfDays :=
  inferInstanceAs (Decidable (_ ∧ _ ∧ _))

namespace Wire

/-! ### Dates -/

@[simp] theorem dateOf?_dateBytes (d : Date) : dateOf? (dateBytes d) = some d := by
  have hfits : FitsBytes 4 d.number := by
    have := d.number_bounds
    show -(2147483648 : Int) ≤ d.number ∧ d.number < 2147483648
    omega
  unfold dateOf? dateBytes
  rw [int?_signedBytes (by decide) hfits, Option.bind_some, d.ofNumber?_number]

/-! ### Times of the day -/

/-- The microseconds of a day are its times of whole microseconds without leap seconds. -/
theorem ofParts?_micros (micros : Nat) (h : micros < 86400000000) :
    ∃ c, Clock.ofParts? (micros / 1000000) (micros % 1000000 * 1000) = some c ∧
      c.nanos < 1000000000 ∧ c.nanos % 1000 = 0 := by
  have hnanos : micros % 1000000 * 1000 < 1000000000 := by omega
  refine ⟨⟨micros / 1000000, micros % 1000000 * 1000, by omega, by omega⟩, ?_, hnanos,
    Nat.mul_mod_left _ _⟩
  exact dif_pos ⟨by omega, by omega⟩

/-- Eight bytes are always a time of the day. -/
theorem isSome_clockOf? {b : Bytes} (h : b.length = 8) : (clockOf? b).isSome := by
  have hday : (intOfBytes b % 86400000000).toNat < 86400000000 := by omega
  obtain ⟨c, hc, -⟩ := ofParts?_micros _ hday
  unfold clockOf? int?
  rw [if_pos h, Option.bind_some]
  exact Option.isSome_iff_exists.mpr ⟨c, hc⟩

theorem clockOf?_of_length_ne {b : Bytes} (h : b.length ≠ 8) : clockOf? b = none := by
  unfold clockOf? int?
  rw [if_neg h]
  rfl

/-! ### Points in time -/

/-- The microseconds that a point in time is written as. -/
def micros (t : Timestamp) : Int :=
  ((t.date.number * 86400 + t.clock.second) * 1000000000 + t.clock.nanos : Int).tdiv 1000

/-- What is finer than a microsecond is cut, before the epoch upwards. -/
theorem micros_bounds (t : Timestamp) :
    (t.date.number * 86400 + t.clock.second) * 1000000 + (t.clock.nanos / 1000 : Nat) ≤ micros t ∧
      micros t ≤ (t.date.number * 86400 + t.clock.second) * 1000000
        + ((t.clock.nanos + 999) / 1000 : Nat) ∧
      (0 ≤ t.date.number →
        micros t = (t.date.number * 86400 + t.clock.second) * 1000000
          + (t.clock.nanos / 1000 : Nat)) := by
  have hsign : Int.sign 1000 = 1 := rfl
  unfold micros
  rw [Int.tdiv_eq_ediv, hsign]
  split <;> omega

theorem fitsBytes_micros (t : Timestamp) : FitsBytes 8 (micros t) := by
  have hdate := t.date.number_bounds
  have hsecond := t.clock.second_lt
  have hnanos := t.clock.nanos_lt
  obtain ⟨hlow, hhigh, -⟩ := micros_bounds t
  show -(9223372036854775808 : Int) ≤ micros t ∧ micros t < 9223372036854775808
  omega

/-- Reading splits the microseconds written into days and the time within one. -/
theorem timestampOf?_timestampBytes_eq (t : Timestamp) :
    timestampOf? (timestampBytes t) =
      (Date.ofNumber? (micros t / 86400000000)).bind fun date =>
        (Clock.ofParts? ((micros t % 86400000000).toNat / 1000000)
          ((micros t % 86400000000).toNat % 1000000 * 1000)).map fun clock => ⟨date, clock⟩ := by
  have hread : int? 8 (timestampBytes t) = some (micros t) :=
    int?_signedBytes (by decide) (fitsBytes_micros t)
  unfold timestampOf?
  rw [hread]
  simp only [Option.bind_eq_bind, Option.bind_some, Option.pure_def, Option.map_eq_bind,
    Function.comp_def]

/-- **A point in time of whole microseconds** outside a leap second is read as it was written. -/
theorem timestampOf?_timestampBytes {t : Timestamp} (hplain : t.clock.nanos < 1000000000)
    (hwhole : t.clock.nanos % 1000 = 0) : timestampOf? (timestampBytes t) = some t := by
  have hsecond := t.clock.second_lt
  obtain ⟨hlow, hhigh, -⟩ := micros_bounds t
  have hday : micros t / 86400000000 = t.date.number := by omega
  have hofDay : (micros t % 86400000000).toNat
      = t.clock.second * 1000000 + t.clock.nanos / 1000 := by omega
  have hwhole' : (t.clock.second * 1000000 + t.clock.nanos / 1000) / 1000000 = t.clock.second := by
    omega
  have hpart : (t.clock.second * 1000000 + t.clock.nanos / 1000) % 1000000 * 1000
      = t.clock.nanos := by omega
  have hclock : Clock.ofParts? t.clock.second t.clock.nanos = some t.clock :=
    dif_pos ⟨t.clock.second_lt, t.clock.nanos_lt⟩
  rw [timestampOf?_timestampBytes_eq, hday, hofDay, hwhole', hpart, t.date.ofNumber?_number, hclock]
  rfl

/-- What was read has whole microseconds and lies outside leap seconds. -/
theorem nanos_of_timestampOf? {b : Bytes} {t : Timestamp} (h : timestampOf? b = some t) :
    t.clock.nanos < 1000000000 ∧ t.clock.nanos % 1000 = 0 := by
  unfold timestampOf? at h
  simp only [Option.bind_eq_bind, Option.bind_eq_some_iff, Option.pure_def] at h
  obtain ⟨n, -, date, -, clock, hclock, ht⟩ := h
  obtain ⟨c, hc, hplain, hwhole⟩ := ofParts?_micros (n % 86400000000).toNat (by omega)
  rw [hc] at hclock
  cases hclock
  cases ht
  exact ⟨hplain, hwhole⟩

/-- A point in time that is written is read, unless it is a leap second at the end of all days. -/
theorem isSome_timestampOf?_timestampBytes (t : Timestamp) :
    (timestampOf? (timestampBytes t)).isSome ↔ ¬ t.OutOfDays := by
  have hsecond := t.clock.second_lt
  have hnanos := t.clock.nanos_lt
  have hofDay : (micros t % 86400000000).toNat < 86400000000 := by omega
  obtain ⟨c, hc, -⟩ := ofParts?_micros _ hofDay
  have hdate : (timestampOf? (timestampBytes t)).isSome
      = (Date.ofNumber? (micros t / 86400000000)).isSome := by
    rw [timestampOf?_timestampBytes_eq, hc]
    cases Date.ofNumber? (micros t / 86400000000) <;> rfl
  rw [hdate]
  have hlast (h : t.date.IsLast) :
      micros t = (t.date.number * 86400 + t.clock.second) * 1000000
        + (t.clock.nanos / 1000 : Nat) :=
    (micros_bounds t).2.2 (by rw [t.date.number_of_isLast h]; decide)
  obtain ⟨hlow, hhigh, -⟩ := micros_bounds t
  by_cases hday : micros t / 86400000000 = t.date.number
  · rw [hday, t.date.ofNumber?_number]
    refine ⟨fun _ hout => ?_, fun _ => rfl⟩
    have hexact := hlast hout.1
    have hsecond' := hout.2.1
    have hleap := hout.2.2
    omega
  · have hnext : micros t / 86400000000 = t.date.number + 1 := by omega
    rw [hnext, Date.ofNumber?_add_one]
    refine ⟨fun h hout => h hout.1, fun h heq => h ⟨heq, ?_⟩⟩
    have hexact := hlast heq
    omega

end Wire

end SqlSession
