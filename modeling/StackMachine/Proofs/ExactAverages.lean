import Mathlib.Data.Nat.Find
import Mathlib.Order.Monotone.Basic
import StackMachine.Timing.Table

/-!
Averages on a clock that moves on between any two readings.

Every test of such a clock reads at least a nanosecond more than the test before, so that a
measurement makes fewer iterations than there are nanoseconds to wait. Main statement: the
measurement ends, its iterations can be counted with 32 bits, and the average is the total divided
by them, unless the first test already reads the least duration.
-/

namespace StackMachine.Timing

/-! ## 1. Tests of the clock -/

/-- The time since the start that test number `k` of a measurement reads. The start is reading
number `reading`. -/
def Clock.elapsed (clock : Clock) (reading k : Nat) : Nat := clock (reading + 1 + k) - clock reading

/-- From reading number `reading` on, every reading is later than the one before. -/
def Clock.IncreasesFrom (clock : Clock) (reading : Nat) : Prop :=
  ∀ k, reading ≤ k → clock k + 1 ≤ clock (k + 1)

section

variable {clock : Clock} {reading : Nat}

theorem Clock.IncreasesFrom.strictMono (h : clock.IncreasesFrom reading) :
    StrictMono fun k => clock (reading + k) :=
  strictMono_nat_of_lt_succ fun k => h (reading + k) (Nat.le_add_right _ _)

theorem Clock.IncreasesFrom.mono {later : Nat} (h : clock.IncreasesFrom reading)
    (hle : reading ≤ later) :
    clock.IncreasesFrom later := fun k hk => h k (hle.trans hk)

theorem Clock.IncreasesFrom.lt_elapsed (h : clock.IncreasesFrom reading) (k : Nat) :
    k < clock.elapsed reading k := by
  have hge : k + 1 + clock reading ≤ clock (reading + (k + 1)) := h.strictMono.add_le_nat (k + 1) 0
  rw [Clock.elapsed, Nat.add_assoc, Nat.add_comm 1]
  omega

theorem Clock.IncreasesFrom.elapsed_mono (h : clock.IncreasesFrom reading) {j k : Nat}
    (hjk : j ≤ k) :
    clock.elapsed reading j ≤ clock.elapsed reading k := by
  have hle : clock (reading + (1 + j)) ≤ clock (reading + (1 + k)) :=
    h.strictMono.monotone (Nat.add_le_add_left hjk 1)
  rw [Clock.elapsed, Clock.elapsed, Nat.add_assoc, Nat.add_assoc]
  exact Nat.sub_le_sub_right hle _

/-- The tests below the least duration come first, and there are fewer of them than nanoseconds to
wait. -/
theorem Clock.IncreasesFrom.exists_tests (h : clock.IncreasesFrom reading) :
    ∃ n, n < leastDuration ∧ ∀ k, k < n ↔ clock.elapsed reading k < leastDuration := by
  have hlast : leastDuration ≤ clock.elapsed reading (leastDuration - 1) :=
    Nat.le_of_pred_lt (h.lt_elapsed _)
  have hex : ∃ k, leastDuration ≤ clock.elapsed reading k := ⟨_, hlast⟩
  refine ⟨Nat.find hex, ?_, fun k => ⟨fun hk => Nat.not_le.1 (Nat.find_min hex hk), fun hk => ?_⟩⟩
  · have hfirst : Nat.find hex ≤ leastDuration - 1 := Nat.find_min' hex hlast
    exact hfirst.trans_lt (by decide)
  · -- a test below the least duration cannot come after one that reached it
    by_contra hge
    have hle : clock.elapsed reading (Nat.find hex) ≤ clock.elapsed reading k :=
      h.elapsed_mono (Nat.not_lt.1 hge)
    exact Nat.not_le.2 hk ((Nat.find_spec hex).trans hle)

/-! ## 2. Measurements -/

/-- Tests below the least duration are iterations; the first that is not below ends the loop. -/
theorem iterate_eq {start n fuel : Nat}
    (hbelow : ∀ k, k < n → clock (reading + k) - start < leastDuration)
    (hlast : leastDuration ≤ clock (reading + n) - start) (hfuel : n < fuel) (iterations : Nat) :
    iterate clock start fuel reading iterations = some (iterations + n, reading + n + 1) := by
  -- on the tests that are still below; the reading and the iterations move on together
  induction n generalizing fuel reading iterations with
  | zero =>
    obtain ⟨fuel, rfl⟩ := Nat.exists_eq_add_one.2 hfuel
    exact if_neg (Nat.not_lt.2 hlast)
  | succ n ih =>
    obtain ⟨fuel, rfl⟩ := Nat.exists_eq_add_one.2 (n.succ_pos.trans hfuel)
    have hshift : ∀ k, reading + 1 + k = reading + (k + 1) := fun k => by omega
    have hstep : iterate clock start (fuel + 1) reading iterations =
        iterate clock start fuel (reading + 1) (iterations + 1) :=
      if_pos (hbelow 0 n.succ_pos)
    have hrest : ∀ k, k < n → clock (reading + 1 + k) - start < leastDuration := by
      intro k hk
      rw [hshift]
      exact hbelow (k + 1) (Nat.succ_lt_succ hk)
    rw [← hshift] at hlast
    rw [hstep, ih hrest hlast (Nat.lt_of_succ_lt_succ hfuel), hshift, Nat.add_assoc iterations,
      Nat.add_comm 1]

theorem measure_eq {n fuel : Nat} (htests : ∀ k, k < n ↔ clock.elapsed reading k < leastDuration)
    (hfuel : n < fuel) :
    measure clock fuel reading = some (⟨n, clock.elapsed reading (n + 1)⟩, reading + n + 3) := by
  have hlast : leastDuration ≤ clock.elapsed reading n :=
    Nat.not_lt.1 fun h => Nat.lt_irrefl n ((htests n).2 h)
  rw [measure, iterate_eq (fun k hk => (htests k).1 hk) hlast hfuel, Nat.zero_add]
  have hnext : reading + 1 + n + 1 + 1 = reading + n + 3 := by omega
  rw [← hnext]
  rfl

/-- The counter of 32 bits holds every number of iterations below its size. -/
theorem Measurement.average_eq {m : Measurement} (h : m.iterations < UInt32.size) :
    m.average =
      if m.iterations = 0 then .error .noIterations else .ok (m.total / m.iterations) := by
  have hcount : m.iterations.toUInt32.toNat = m.iterations := UInt32.toNat_ofNat_of_lt h
  rw [Measurement.average, hcount]

/-- The loop ends after the tests below the least duration, however much fuel is left. The end is
read after the test that ended the loop, which already read the least duration. -/
theorem Clock.IncreasesFrom.exists_measurement (h : clock.IncreasesFrom reading) :
    ∃ m : Measurement, m.iterations < leastDuration ∧
      m.total = clock.elapsed reading (m.iterations + 1) ∧ leastDuration ≤ m.total ∧
      (∀ k, k < m.iterations ↔ clock.elapsed reading k < leastDuration) ∧
      ∀ fuel, leastDuration ≤ fuel →
        measure clock fuel reading = some (m, reading + m.iterations + 3) := by
  obtain ⟨n, hn, htests⟩ := h.exists_tests
  have hend : leastDuration ≤ clock.elapsed reading (n + 1) :=
    Nat.not_lt.1 fun hlt => Nat.lt_irrefl n (Nat.lt_of_succ_lt ((htests (n + 1)).2 hlt))
  exact ⟨⟨n, clock.elapsed reading (n + 1)⟩, hn, rfl, hend, htests,
    fun fuel hfuel => measure_eq htests (hn.trans_le hfuel)⟩

end

/-- No workload of a table waits forever: the next one starts at a later reading of the same
clock. -/
theorem rows_ne_endless {clock : Clock} {fuel : Nat} (hfuel : leastDuration ≤ fuel)
    (workloads : List Workload) {reading : Nat} (h : clock.IncreasesFrom reading) :
    (rows clock fuel reading workloads).1 ≠ .endless := by
  induction workloads generalizing reading with
  | nil => exact Ending.noConfusion
  | cons w rest ih =>
    obtain ⟨m, -, -, -, -, hmeasure⟩ := h.exists_measurement
    have hnext : clock.IncreasesFrom (reading + m.iterations + 3) := h.mono (by omega)
    rw [rows, hmeasure fuel hfuel]
    cases hentry : entry w m with
    | error cause => simp only [hentry, ne_eq, reduceCtorEq, not_false_eq_true]
    | ok line =>
      simp only [hentry]
      exact ih hnext

/-! ## 3. Averages -/

/-- On a clock that moves on between any two readings every measurement ends, with as many
iterations as tests read less than two seconds. There are too few of them to be cut off at 32 bits:
the average is rounded down from the exact quotient. It is missing only if the first test reads two
seconds or more, and then the workload has no row. -/
theorem averages_exact (clock : Clock) (reading : Nat)
    (h : ∀ k, reading ≤ k → clock k + 1 ≤ clock (k + 1)) :
    ∃ m : Measurement,
      (∀ fuel, 2000000000 ≤ fuel →
        measure clock fuel reading = some (m, reading + m.iterations + 3)) ∧
      (∀ k, k < m.iterations ↔ clock (reading + 1 + k) - clock reading < 2000000000) ∧
      m.iterations ≤ 1999999999 ∧
      m.total = clock (reading + m.iterations + 2) - clock reading ∧ 2000000000 ≤ m.total ∧
      m.iterations.toUInt32.toNat = m.iterations ∧
      (m.average = .error .noIterations ↔ 2000000000 ≤ clock (reading + 1) - clock reading) ∧
      (clock (reading + 1) - clock reading < 2000000000 →
        m.average = .ok (m.total / m.iterations)) ∧
      (∀ w, entry w m =
        if clock (reading + 1) - clock reading < 2000000000
        then w.execute.map (row w.name m (m.total / m.iterations))
        else .error (.breach .noIterations)) ∧
      ∀ fuel workloads, 2000000000 ≤ fuel → (rows clock fuel reading workloads).1 ≠ .endless := by
  have hclock : clock.IncreasesFrom reading := h
  obtain ⟨m, hfew, htotal, hlong, htests, hmeasure⟩ := hclock.exists_measurement
  have hsize : m.iterations < UInt32.size := hfew.trans (by decide)
  have hend : m.total = clock (reading + m.iterations + 2) - clock reading := by
    rw [htotal, Clock.elapsed]
    congr 2
    omega
  have hfirst : 0 < m.iterations ↔ clock (reading + 1) - clock reading < 2000000000 := htests 0
  refine ⟨m, hmeasure, htests, Nat.le_of_lt_succ hfew, hend, hlong, UInt32.toNat_ofNat_of_lt hsize,
    ?_⟩
  have hrows :
      ∀ fuel workloads, 2000000000 ≤ fuel → (rows clock fuel reading workloads).1 ≠ .endless :=
    fun fuel workloads hfuel => rows_ne_endless hfuel workloads hclock
  by_cases hshort : clock (reading + 1) - clock reading < 2000000000
  · have haverage : m.average = .ok (m.total / m.iterations) := by
      rw [Measurement.average_eq hsize, if_neg (hfirst.2 hshort).ne']
    refine ⟨?_, fun _ => haverage, fun w => ?_, hrows⟩
    · refine iff_of_false (fun hmissing => ?_) (Nat.not_le.2 hshort)
      cases haverage.symm.trans hmissing
    · rw [entry, haverage, if_pos hshort]
  · have haverage : m.average = .error .noIterations := by
      rw [Measurement.average_eq hsize, if_pos (Nat.eq_zero_of_not_pos (mt hfirst.1 hshort))]
    refine ⟨iff_of_true haverage (Nat.not_lt.1 hshort), fun h => absurd h hshort, fun w => ?_,
      hrows⟩
    rw [entry, haverage, if_neg hshort]

/-- The slowest clock makes the most iterations; a clock that jumps by two seconds makes none. -/
theorem averages_exact_slowest_and_jump :
    let slowest : Clock := fun k => k
    let jump : Clock := fun k => k * 2000000000
    (∀ k, 1 ≤ k → slowest k + 1 ≤ slowest (k + 1)) ∧ (∀ k, 1 ≤ k → jump k + 1 ≤ jump (k + 1)) ∧
      (∃ next, measure slowest 2000000000 1 = some (⟨1999999999, 2000000001⟩, next)) ∧
      (⟨1999999999, 2000000001⟩ : Measurement).average = .ok 1 ∧
      (∃ next, measure jump 2000000000 1 = some (⟨0, 4000000000⟩, next)) ∧
      (⟨0, 4000000000⟩ : Measurement).average = .error .noIterations := by
  intro slowest jump
  have hslowest : ∀ k, 1 ≤ k → slowest k + 1 ≤ slowest (k + 1) := fun k _ => Nat.le_refl _
  have hjump : ∀ k, 1 ≤ k → jump k + 1 ≤ jump (k + 1) := by
    intro k _
    simp only [jump]
    omega
  refine ⟨hslowest, hjump, ?_⟩
  obtain ⟨⟨most, total⟩, hmeasure, htests, hmost, htotal, -, -, -, haverage, -⟩ :=
    averages_exact slowest 1 hslowest
  obtain ⟨⟨fewest, long⟩, hmeasure', htests', -, htotal', -, -, hmissing, -⟩ :=
    averages_exact jump 1 hjump
  -- test number `k` reads `k + 1` nanoseconds
  obtain rfl : most = 1999999999 := by
    have hlast : 1999999998 < most := (htests 1999999998).2 (by decide)
    exact Nat.le_antisymm hmost hlast
  obtain rfl : fewest = 0 := by
    have hfirst : ¬ 0 < fewest := (htests' 0).1.mt (by decide)
    exact Nat.eq_zero_of_not_pos hfirst
  have htotal : total = 1 + 1999999999 + 2 - 1 := htotal
  have htotal' : long = 3 * 2000000000 - 1 * 2000000000 := htotal'
  subst htotal htotal'
  exact ⟨⟨_, hmeasure _ (Nat.le_refl _)⟩, haverage (by decide), ⟨_, hmeasure' _ (Nat.le_refl _)⟩,
    hmissing.2 (by decide)⟩

end StackMachine.Timing
