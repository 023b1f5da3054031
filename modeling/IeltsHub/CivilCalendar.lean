import IeltsHub.AscendingText

set_option autoImplicit false

/-!
# Dates and times of day

The proleptic Gregorian calendar from the first of January of year one, and the text of a moment
by its year, month, day, hour, minute, second and microsecond, which goes up with the moment.
-/
namespace IeltsHub.CivilCalendar
open AscendingText

/-! ## The last block begun -/

section
variable {start : ℕ → ℕ} {bound n n' : ℕ}

def lastBegun (start : ℕ → ℕ) (bound n : ℕ) : ℕ := Nat.findGreatest (fun k => start k ≤ n) bound

theorem lastBegun_le : lastBegun start bound n ≤ bound := Nat.findGreatest_le bound

theorem start_lastBegun (h : start 0 = 0) : start (lastBegun start bound n) ≤ n := by
  unfold lastBegun
  refine @Nat.findGreatest_spec 0 (fun k => start k ≤ n) _ bound (Nat.zero_le _) ?_
  rw [h]
  exact Nat.zero_le n

theorem lt_start_succ (h : lastBegun start bound n < bound) :
    n < start (lastBegun start bound n + 1) := by
  have hnot := Nat.findGreatest_is_greatest (Nat.lt_succ_self (lastBegun start bound n)) h
  exact Nat.lt_of_not_le hnot

theorem lastBegun_mono (h : n ≤ n') : lastBegun start bound n ≤ lastBegun start bound n' :=
  Nat.findGreatest_mono (fun _ hk => le_trans hk h) le_rfl

theorem block_or_offset (h₀ : start 0 = 0) (h : n < n') :
    lastBegun start bound n < lastBegun start bound n' ∨
      lastBegun start bound n = lastBegun start bound n' ∧
        n - start (lastBegun start bound n) < n' - start (lastBegun start bound n') := by
  have hmono : lastBegun start bound n ≤ lastBegun start bound n' := lastBegun_mono h.le
  rcases Nat.lt_or_eq_of_le hmono with hlt | heq
  · exact .inl hlt
  · refine .inr ⟨heq, ?_⟩
    have hn : start (lastBegun start bound n) ≤ n := start_lastBegun h₀
    rw [← heq]
    omega

end

/-! ## Dates -/

def isLeap (year : ℕ) : Bool := year % 4 = 0 ∧ (year % 100 ≠ 0 ∨ year % 400 = 0)

/-- The days before the first of January, `y` full years after year one began. -/
def daysBeforeYear (y : ℕ) : ℕ := 365 * y + y / 4 - y / 100 + y / 400

/-- The days of the year before the month that `m` months precede. -/
def daysBeforeMonth (leap : Bool) (m : ℕ) : ℕ :=
  [0, 31, 59, 90, 120, 151, 181, 212, 243, 273, 304, 334].getD m 0 +
    if 2 ≤ m ∧ leap then 1 else 0

def maxDays : ℕ := daysBeforeYear 9999

structure Date where
  year : ℕ
  month : ℕ
  day : ℕ
  deriving DecidableEq

def yearsBefore (days : ℕ) : ℕ := lastBegun daysBeforeYear 9998 days

def dayOfYear (days : ℕ) : ℕ := days - daysBeforeYear (yearsBefore days)

def monthsBefore (days : ℕ) : ℕ :=
  lastBegun (daysBeforeMonth (isLeap (yearsBefore days + 1))) 11 (dayOfYear days)

/-- `date.fromordinal`, counted from zero. -/
def Date.ofDays (days : ℕ) : Date where
  year := yearsBefore days + 1
  month := monthsBefore days + 1
  day := dayOfYear days -
    daysBeforeMonth (isLeap (yearsBefore days + 1)) (monthsBefore days) + 1

example : Date.ofDays 738944 = ⟨2024, 2, 29⟩ := by decide +kernel

/-- `%Y%m%d`. -/
def Date.text (d : Date) : List Char := zfill 4 d.year ++ (zfill 2 d.month ++ zfill 2 d.day)

theorem daysBeforeYear_succ_le (y : ℕ) : daysBeforeYear (y + 1) ≤ daysBeforeYear y + 366 := by
  unfold daysBeforeYear
  omega

theorem dayOfYear_lt {days : ℕ} (h : days < maxDays) : dayOfYear days < 366 := by
  have hnext : days < daysBeforeYear (yearsBefore days + 1) := by
    rcases Nat.lt_or_eq_of_le (lastBegun_le : yearsBefore days ≤ 9998) with hlt | heq
    · exact lt_start_succ hlt
    · rw [show yearsBefore days = 9998 from heq]
      exact h
  have hbegun : daysBeforeYear (yearsBefore days) ≤ days := start_lastBegun rfl
  have hle := daysBeforeYear_succ_le (yearsBefore days)
  unfold dayOfYear
  omega

theorem daysBeforeMonth_succ_le (leap : Bool) {m : ℕ} (hm : m < 11) :
    daysBeforeMonth leap (m + 1) ≤ daysBeforeMonth leap m + 32 := by
  have hall : ∀ leap, ∀ m < 11, daysBeforeMonth leap (m + 1) ≤ daysBeforeMonth leap m + 32 := by
    decide
  exact hall leap m hm

theorem dayOfMonth_lt (leap : Bool) {r : ℕ} (h : r < 366) :
    r - daysBeforeMonth leap (lastBegun (daysBeforeMonth leap) 11 r) < 32 := by
  rcases Nat.lt_or_eq_of_le (lastBegun_le : lastBegun (daysBeforeMonth leap) 11 r ≤ 11)
    with hlt | heq
  · have hnext := lt_start_succ hlt
    have hle := daysBeforeMonth_succ_le leap hlt
    omega
  · have hlast : 334 ≤ daysBeforeMonth leap 11 := by cases leap <;> decide
    rw [heq]
    omega

theorem ascending_date : Ascending 8 maxDays (fun days => (Date.ofDays days).text) := by
  have hday : Ascending 2 99 (fun n => zfill 2 (n + 1)) := (ascending_zfill 1).shift
  have hmonth : ∀ leap, Ascending (2 + 2) 366 (fun r =>
      zfill 2 (lastBegun (daysBeforeMonth leap) 11 r + 1) ++
        zfill 2 (r - daysBeforeMonth leap (lastBegun (daysBeforeMonth leap) 11 r) + 1)) := by
    intro leap
    refine Ascending.blocks (f := fun n => zfill 2 (n + 1)) (g := fun _ n => zfill 2 (n + 1))
      hday ?_ (fun _ _ => hday) ?_ ?_
    · intro r _
      have hle : lastBegun (daysBeforeMonth leap) 11 r ≤ 11 := lastBegun_le
      omega
    · intro r hr
      have hlt := dayOfMonth_lt leap hr
      omega
    · intro r r' hlt _
      exact block_or_offset (by cases leap <;> rfl) hlt
  have hyear : Ascending 4 9999 (fun n => zfill 4 (n + 1)) := (ascending_zfill 3).shift
  refine Ascending.blocks (f := fun n => zfill 4 (n + 1)) (g := fun y r =>
    zfill 2 (lastBegun (daysBeforeMonth (isLeap (y + 1))) 11 r + 1) ++
      zfill 2 (r - daysBeforeMonth (isLeap (y + 1))
        (lastBegun (daysBeforeMonth (isLeap (y + 1))) 11 r) + 1))
    hyear ?_ (fun days _ => hmonth _) (fun days h => dayOfYear_lt h) ?_
  · intro days _
    exact Nat.lt_succ_of_le lastBegun_le
  · intro days days' hlt _
    exact block_or_offset rfl hlt

/-! ## Moments -/

def second : ℕ := 1000000

def day : ℕ := 86400 * second

/-- `%H%M%S%f` of the microseconds since midnight. -/
def clockText (n : ℕ) : List Char :=
  zfill 2 (n / (3600 * second)) ++ (zfill 2 (n / (60 * second) % 60) ++
    (zfill 2 (n / second % 60) ++ zfill 6 (n % second)))

def epoch : ℤ := 719162 * day

/-- The moments a `datetime` can hold. -/
def Representable (t : ℤ) : Prop := 0 ≤ t + epoch ∧ t + epoch < maxDays * day

/-- `%Y%m%d%H%M%S%f`, in UTC. -/
def momentText (t : ℤ) : List Char :=
  let n := (t + epoch).toNat
  (Date.ofDays (n / day)).text ++ clockText (n % day)

example : momentText 1709210096000007 = "20240229123456000007".toList := by decide +kernel

theorem ascending_clock : Ascending 12 day clockText := by
  have hsecond : Ascending (2 + 6) (60 * second)
      (fun n => zfill 2 (n / second) ++ zfill 6 (n % second)) :=
    ((ascending_zfill 1).mono (by decide)).divMod (ascending_zfill 5) (by decide)
  have hminute := ((ascending_zfill 1).mono (c := 60) (by decide)).divMod hsecond (by decide)
  have hhour := ((ascending_zfill 1).mono (c := 24) (by decide)).divMod hminute (by decide)
  refine hhour.congr (fun n _ => ?_)
  unfold clockText
  have hm : n % (60 * (60 * second)) / (60 * second) = n / (60 * second) % 60 := by
    unfold second
    omega
  have hs : n % (60 * (60 * second)) % (60 * second) / second = n / second % 60 := by
    unfold second
    omega
  have hf : n % (60 * (60 * second)) % (60 * second) % second = n % second := by
    unfold second
    omega
  rw [hm, hs, hf]
  rfl

theorem ascending_moment : Ascending 20 (maxDays * day)
    (fun n => (Date.ofDays (n / day)).text ++ clockText (n % day)) :=
  ascending_date.divMod ascending_clock (by decide)

section
variable {t t' : ℤ}

theorem Representable.toNat_lt (h : Representable t) : (t + epoch).toNat < maxDays * day := by
  obtain ⟨h₀, h₁⟩ := h
  omega

theorem length_momentText (h : Representable t) : (momentText t).length = 20 :=
  ascending_moment.length_eq _ h.toNat_lt

theorem momentText_lt_iff (h : Representable t) (h' : Representable t') :
    momentText t < momentText t' ↔ t < t' := by
  have hlt := ascending_moment.lt_iff h.toNat_lt h'.toNat_lt
  have hnat : (t + epoch).toNat < (t' + epoch).toNat ↔ t < t' := by
    have h₀ := h.1
    have h₀' := h'.1
    omega
  exact hlt.trans hnat

theorem momentText_inj (h : Representable t) (h' : Representable t')
    (heq : momentText t = momentText t') : t = t' := by
  have hnat := ascending_moment.inj h.toNat_lt h'.toNat_lt heq
  have h₀ := h.1
  have h₀' := h'.1
  omega

end

end IeltsHub.CivilCalendar
