import Mathlib.Tactic

/-!
# Instants and durations of the Go library

`time.Time` without its location and monotonic reading: seconds since the start of year 1 in an
`int64`, and nanoseconds below one second. Conversions to and from Unix seconds wrap, `add`
saturates the seconds, and `sub` saturates the duration, as the library does.
-/

namespace AccessRelay.Go

/-- A `time.Duration`: nanoseconds in an `int64`. -/
abbrev Duration := Int64

/-- `time.Second`. -/
def second : Duration := 1000000000

/-- `time.Minute`. -/
def minute : Duration := 60 * second

/-- `time.Hour`. -/
def hour : Duration := 60 * minute

/-- The largest and the smallest duration. -/
def maxDuration : Duration := Int64.maxValue
def minDuration : Duration := Int64.minValue

/-- A `time.Time`. -/
structure Time where
  sec : Int64
  nsec : Nat
  nsec_lt : nsec < 1000000000
  deriving DecidableEq

namespace Time

theorem zero_nsec_lt : 0 < 1000000000 := by decide

theorem half_second_lt : 500000000 < 1000000000 := by decide

/-- Seconds from the start of year 1 to the Unix epoch. -/
def unixToInternal : Int64 := 62135596800

/-- `time.Unix(sec, 0)`. The conversion wraps. -/
def ofUnix (sec : Int64) : Time := ⟨sec + unixToInternal, 0, zero_nsec_lt⟩

/-- `t.Unix()`. -/
def unix (t : Time) : Int64 := t.sec - unixToInternal

/-- The zero instant. -/
def zero : Time := ⟨0, 0, zero_nsec_lt⟩

/-- `t.IsZero()`. -/
def isZero (t : Time) : Bool := t.sec = 0 && t.nsec = 0

/-- `t.Before(u)`. -/
def before (t u : Time) : Bool :=
  t.sec < u.sec || (t.sec = u.sec && t.nsec < u.nsec)

/-- `t.After(u)`. -/
def after (t u : Time) : Bool := u.before t

/-- `t.Truncate(time.Second)`. -/
def truncateSecond (t : Time) : Time := ⟨t.sec, 0, zero_nsec_lt⟩

/-- `addSec`: the seconds stop at the ends of the `int64` range. -/
def addSec (sec : Int64) (d : Int) : Int64 :=
  if Int64.maxValue.toInt < sec.toInt + d then Int64.maxValue
  else if sec.toInt + d < Int64.minValue.toInt then -Int64.maxValue
  else Int64.ofInt (sec.toInt + d)

/-- `t.Add(d)`. -/
def add (t : Time) (d : Duration) : Time where
  sec := addSec t.sec ((t.nsec + d.toInt) / 1000000000)
  nsec := ((t.nsec + d.toInt) % 1000000000).toNat
  nsec_lt := by omega

/-- `t.Sub(u)`: a difference that no duration represents becomes the nearest one. -/
def sub (t u : Time) : Duration :=
  let d : Duration := (t.sec - u.sec) * second + Int64.ofInt (t.nsec - u.nsec)
  if u.add d = t then d
  else if t.before u then minDuration
  else maxDuration

@[simp] theorem unix_of_unix (sec : Int64) : (ofUnix sec).unix = sec :=
  Int64.add_sub_cancel sec unixToInternal

/-- An instant with whole seconds is determined by its Unix seconds, wrapping included. -/
theorem of_unix_unix {t : Time} (h : t.nsec = 0) : ofUnix t.unix = t := by
  obtain ⟨sec, nsec, hlt⟩ := t
  obtain rfl : nsec = 0 := h
  simp only [ofUnix, unix, Int64.sub_add_cancel]

/-- The instant as a number of nanoseconds, without a bound. -/
def nanos (t : Time) : Int := t.sec.toInt * 1000000000 + t.nsec

/-- `Before` compares instants. -/
theorem before_iff {t u : Time} : t.before u = true ↔ t.nanos < u.nanos := by
  have ht := t.nsec_lt
  have hu := u.nsec_lt
  simp only [before, nanos, Bool.or_eq_true, Bool.and_eq_true, decide_eq_true_eq,
    Int64.lt_iff_toInt_lt, ← Int64.toInt_inj]
  omega

/-- Seconds are added exactly, or stop at an end of their range. -/
theorem add_sec_cases (sec : Int64) (d : Int) :
    (2 ^ 63 ≤ sec.toInt + d ∧ (addSec sec d).toInt = 2 ^ 63 - 1) ∨
      (sec.toInt + d < -2 ^ 63 ∧ (addSec sec d).toInt = -2 ^ 63 + 1) ∨
      (addSec sec d).toInt = sec.toInt + d := by
  have hlow : (-Int64.maxValue).toInt = -2 ^ 63 + 1 := by decide
  unfold addSec
  rw [Int64.toInt_maxValue, Int64.toInt_minValue]
  split_ifs with hhigh hunder
  · exact .inl ⟨by omega, Int64.toInt_maxValue⟩
  · exact .inr (.inl ⟨hunder, hlow⟩)
  · exact .inr (.inr (Int64.toInt_ofInt_of_le (by omega) (by omega)))

theorem nanos_range (t : Time) :
    -2 ^ 63 * 1000000000 ≤ t.nanos ∧ t.nanos < 2 ^ 63 * 1000000000 := by
  have hlow := t.sec.le_toInt
  have hhigh := t.sec.toInt_lt
  have hnsec := t.nsec_lt
  simp only [nanos]
  omega

/-- `Add` stops in the last second of its range, or in the second after the first, or is exact. -/
theorem nanos_add_cases (t : Time) (d : Duration) :
    (2 ^ 63 * 1000000000 ≤ t.nanos + d.toInt ∧ (2 ^ 63 - 1) * 1000000000 ≤ (t.add d).nanos ∧
        (t.add d).nanos ≤ t.nanos + d.toInt) ∨
      (t.nanos + d.toInt < -2 ^ 63 * 1000000000 ∧ t.nanos + d.toInt ≤ (t.add d).nanos ∧
        (t.add d).nanos < (-2 ^ 63 + 2) * 1000000000) ∨
      (t.add d).nanos = t.nanos + d.toInt := by
  have hsum : (t.add d).nanos = (addSec t.sec ((t.nsec + d.toInt) / 1000000000)).toInt *
      1000000000 + (((t.nsec + d.toInt) % 1000000000).toNat : Int) := rfl
  have hreal : t.nanos = t.sec.toInt * 1000000000 + t.nsec := rfl
  rcases add_sec_cases t.sec ((t.nsec + d.toInt) / 1000000000) with ⟨h, he⟩ | ⟨h, he⟩ | he <;>
    omega

/-- Going forward, `Add` may stop early. -/
theorem nanos_add_le {t : Time} {d : Duration} (hd : 0 ≤ d.toInt) :
    (t.add d).nanos ≤ t.nanos + d.toInt := by
  have ht := t.nanos_range
  rcases nanos_add_cases t d with h | h | h <;> omega

/-- Going back, `Add` may stop early. -/
theorem le_nanos_add {t : Time} {d : Duration} (hd : d.toInt ≤ 0) :
    t.nanos + d.toInt ≤ (t.add d).nanos := by
  have ht := t.nanos_range
  rcases nanos_add_cases t d with h | h | h <;> omega

/-- Where `Add` stops going forward, it is not before any whole second. -/
theorem whole_le_nanos_add {t u : Time} {d : Duration} (hu : u.nsec = 0)
    (h : u.nanos ≤ t.nanos + d.toInt) : u.nanos ≤ (t.add d).nanos := by
  have hhigh := u.sec.toInt_lt
  have hwhole : u.nanos = u.sec.toInt * 1000000000 := by simp only [nanos, hu]; omega
  rcases nanos_add_cases t d with hstop | hstop | hstop <;> omega

/-- Going forward to an instant or short of it, `Add` does not stop. -/
theorem nanos_add_of_le {t u : Time} {d : Duration} (hd : 0 ≤ d.toInt)
    (h : t.nanos + d.toInt ≤ u.nanos) : (t.add d).nanos = t.nanos + d.toInt := by
  have ht := t.nanos_range
  have hu := u.nanos_range
  rcases nanos_add_cases t d with hstop | hstop | hstop <;> omega

/-- Where `Add` stops going back, it is after the first two seconds of the range only. -/
theorem nanos_add_le_of_le {t u : Time} {d : Duration} (hu : -2 ^ 63 + 2 ≤ u.sec.toInt)
    (h : t.nanos + d.toInt ≤ u.nanos) : (t.add d).nanos ≤ u.nanos := by
  have hunit : u.sec.toInt * 1000000000 ≤ u.nanos := by simp only [nanos]; omega
  rcases nanos_add_cases t d with hstop | hstop | hstop <;> omega

/-- What `Sub` computes before it checks for overflow. -/
def difference (t u : Time) : Duration :=
  (t.sec - u.sec) * second + Int64.ofInt (t.nsec - u.nsec)

/-- The computed difference is exact for instants that are not too far apart. -/
theorem to_int_difference {t u : Time} (hlow : -2 ^ 62 ≤ t.nanos - u.nanos)
    (hhigh : t.nanos - u.nanos ≤ 2 ^ 62) : (difference t u).toInt = t.nanos - u.nanos := by
  have ht := t.nsec_lt
  have hu := u.nsec_lt
  have hbmod : ∀ {n : Int}, -2 ^ 63 ≤ n → n < 2 ^ 63 → n.bmod (2 ^ 64) = n := by
    intro n h₁ h₂
    rw [Int.bmod_def]
    omega
  simp only [nanos] at *
  have hseconds : (t.sec - u.sec).toInt = t.sec.toInt - u.sec.toInt := by
    rw [Int64.toInt_sub]
    exact hbmod (by omega) (by omega)
  have hproduct : ((t.sec - u.sec) * second).toInt =
      (t.sec.toInt - u.sec.toInt) * 1000000000 := by
    have hsecond : second.toInt = 1000000000 := by decide
    rw [Int64.toInt_mul, hseconds, hsecond]
    exact hbmod (by omega) (by omega)
  have hrest : (Int64.ofInt (t.nsec - u.nsec)).toInt = t.nsec - u.nsec :=
    Int64.toInt_ofInt_of_le (by omega) (by omega)
  rw [difference, Int64.toInt_add, hproduct, hrest]
  rw [hbmod (by omega) (by omega)]
  omega

/-- A difference that `Sub` reports as small is small. -/
theorem sub_le {t u : Time} {d : Duration} (h : t.sub u ≤ d) (hd : 0 ≤ d.toInt)
    (hmax : d < maxDuration) : t.nanos - u.nanos ≤ d.toInt := by
  have hsub : t.sub u = if u.add (difference t u) = t then difference t u
      else if t.before u then minDuration else maxDuration := rfl
  rw [hsub] at h
  split_ifs at h with hexact hbefore
  · have hx := Int64.le_iff_toInt_le.mp h
    by_contra hlate
    have hu := u.nanos_range
    have hcases := nanos_add_cases u (difference t u)
    rw [hexact] at hcases
    rcases hcases with hover | hunder | heq
    · omega
    · -- The sum stopped at the low end of the range, so both instants are close to it and the
      -- computed difference is the real one.
      have hdiff := to_int_difference (t := t) (u := u) (by omega) (by omega)
      omega
    · omega
  · have hlt := before_iff.mp hbefore
    omega
  · exact absurd hmax (Int64.not_lt.mpr h)

/-- `Sub` is exact for instants that are not too far apart. -/
theorem to_int_sub {t u : Time} (hlow : -2 ^ 62 ≤ t.nanos - u.nanos)
    (hhigh : t.nanos - u.nanos ≤ 2 ^ 62) : (t.sub u).toInt = t.nanos - u.nanos := by
  have hdiff := to_int_difference hlow hhigh
  have hsub : t.sub u = if u.add (difference t u) = t then difference t u
      else if t.before u then minDuration else maxDuration := rfl
  have hseconds : (u.nsec + (difference t u).toInt) / 1000000000 = t.sec.toInt - u.sec.toInt := by
    have ht := t.nsec_lt
    simp only [nanos] at hdiff
    omega
  have hrest : ((u.nsec + (difference t u).toInt) % 1000000000).toNat = t.nsec := by
    have ht := t.nsec_lt
    simp only [nanos] at hdiff
    omega
  have hsum : u.add (difference t u) = t := by
    have hsec : addSec u.sec (t.sec.toInt - u.sec.toInt) = t.sec := by
      have hlow := t.sec.le_toInt
      have hhigh := t.sec.toInt_lt
      rcases add_sec_cases u.sec (t.sec.toInt - u.sec.toInt) with ⟨h, -⟩ | ⟨h, -⟩ | he
      · omega
      · omega
      · exact Int64.toInt_inj.mp (by omega)
    obtain ⟨sec, nsec, hnsec⟩ := t
    simp only [add, hseconds, hrest, hsec]
  rw [hsub, if_pos hsum, hdiff]

/-- Unix seconds for which there is no instant: `time.Unix` wraps. -/
def PastEnd (sec : Int64) : Prop := Int64.maxValue - unixToInternal < sec

instance (sec : Int64) : Decidable (PastEnd sec) := inferInstanceAs (Decidable (_ < _))

/-- An instant and a number of Unix seconds compare in the same way as instants and as seconds,
unless just one of the two conversions wraps. -/
theorem before_of_unix_iff {t : Time} {sec : Int64} :
    t.before (ofUnix sec) = true ↔ (t.unix < sec ↔ (PastEnd t.unix ↔ PastEnd sec)) := by
  have hepoch : unixToInternal.toInt = 62135596800 := by decide
  have hlast : (Int64.maxValue - unixToInternal).toInt = 2 ^ 63 - 1 - 62135596800 := by decide
  have hsec : t.sec = t.unix + unixToInternal := (Int64.sub_add_cancel _ _).symm
  have hbefore : t.before (ofUnix sec) = true ↔ t.sec < sec + unixToInternal := by
    simp only [before, ofUnix, Nat.not_lt_zero, decide_false, Bool.and_false, Bool.or_false]
    exact decide_eq_true_iff
  rw [hbefore, hsec]
  simp only [PastEnd, Int64.lt_iff_toInt_lt, Int64.toInt_add, hepoch, hlast, Int.bmod_def]
  have hlow := t.unix.le_toInt
  have hhigh := t.unix.toInt_lt
  have hlow' := sec.le_toInt
  have hhigh' := sec.toInt_lt
  omega

/-- No instant is before and after another. -/
theorem not_after_iff {t u : Time} : t.after u = false ↔ t.before u = true ∨ t = u := by
  have hnanos : t.nanos = u.nanos ↔ t = u := by
    constructor
    · intro h
      obtain ⟨sec, nsec, hlt⟩ := t
      obtain ⟨sec', nsec', hlt'⟩ := u
      simp only [nanos] at h
      obtain rfl : sec = sec' := Int64.toInt_inj.mp (by omega)
      obtain rfl : nsec = nsec' := by omega
      rfl
    · exact congrArg nanos
  rw [← Bool.not_eq_true, after, before_iff, before_iff, ← hnanos]
  omega

end Time

end AccessRelay.Go
