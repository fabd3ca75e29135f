/-
This file is about when the flows of a generator start. `setup_flow_events` gives
them equal steps, a second divided by their number, in microseconds. The division
is truncated, and the rounding error is added once for every flow: a second that
the flows do not divide well is over long before the last of them has started
where it should.
-/

import TrafficGenerator.Replay
import TrafficGenerator.EvenSteps
import TrafficGenerator.CycleConversions

namespace TrafficGenerator

open EvenSteps

/-! ### The step -/

/-- The product whose quotient is the step. -/
def stepProduct (hz : UInt64) (count : ℕ) : ℕ := 1000000 / count * hz.toNat

theorem flowTscStep_toNat (hz : UInt64) (count : ℕ) :
    (flowTscStep hz count).toNat = stepProduct hz count % 2 ^ 64 / 1000000 :=
  Cycles.toNat_fromDuration hz .microseconds (1000000 / count)

theorem flowTscStep_ne_zero_iff (hz : UInt64) (count : ℕ) :
    flowTscStep hz count ≠ 0 ↔ 1000000 ≤ stepProduct hz count % 2 ^ 64 := by
  rw [← Nat.div_pos_iff.trans (and_iff_right (by decide : 0 < 1000000)), ← flowTscStep_toNat,
    Nat.pos_iff_ne_zero, ne_eq, ne_eq, ← UInt64.toNat_inj]
  rfl

/-- With a whole number of cycles a microsecond the quotient is exact. -/
theorem stepProduct_div (count rate : ℕ) :
    1000000 / count * (1000000 * rate) / 1000000 = 1000000 / count * rate := by
  rw [Nat.mul_left_comm, Nat.mul_div_cancel_left _ (by decide)]

/-- With a whole number of cycles a microsecond the steps fit the second. -/
theorem steps_fit {hz : UInt64} (count : ℕ) (whole : 1000000 ∣ hz.toNat) :
    count * (flowTscStep hz count).toNat ≤ hz.toNat := by
  obtain ⟨rate, frequency⟩ := whole
  rw [flowTscStep_toNat, stepProduct, frequency]
  calc count * (1000000 / count * (1000000 * rate) % 2 ^ 64 / 1000000)
      ≤ count * (1000000 / count * rate) :=
        Nat.mul_le_mul_left _
          ((ScaledDivision.mod_div_le_div _ _ _).trans (stepProduct_div count rate).le)
    _ = count * (1000000 / count) * rate := (Nat.mul_assoc _ _ _).symm
    _ ≤ 1000000 * rate := Nat.mul_le_mul_right _ (Nat.mul_div_le 1000000 count)

/-- What the steps leave of the second when the product does not wrap. -/
theorem remainder_of_fits {hz : UInt64} {count : ℕ} (whole : 1000000 ∣ hz.toNat)
    (fits : stepProduct hz count < 2 ^ 64) :
    1000000 * (hz.toNat - count * (flowTscStep hz count).toNat) =
      hz.toNat * (1000000 % count) := by
  obtain ⟨rate, frequency⟩ := whole
  rw [flowTscStep_toNat, Nat.mod_eq_of_lt fits, stepProduct, frequency]
  have rest : 1000000 % count = 1000000 - count * (1000000 / count) :=
    Nat.mod_eq_sub_mul_div
  rw [stepProduct_div, rest, ← Nat.mul_assoc, ← Nat.sub_mul, Nat.mul_assoc, Nat.mul_comm rate]

/-- They leave more than half of it when the product does. -/
theorem remainder_of_wraps {hz : UInt64} {count : ℕ} (wraps : 2 ^ 64 ≤ stepProduct hz count) :
    hz.toNat < 2 * (hz.toNat - count * (flowTscStep hz count).toNat) := by
  have half : 2 * (stepProduct hz count % 2 ^ 64) < stepProduct hz count := by omega
  have step : 1000000 * (flowTscStep hz count).toNat ≤ stepProduct hz count % 2 ^ 64 := by
    rw [flowTscStep_toNat]
    exact Nat.mul_div_le _ _
  have some : 0 < count := by
    by_contra none
    rw [Nat.eq_zero_of_not_pos none, stepProduct, Nat.div_zero, Nat.zero_mul] at wraps
    omega
  have twice : 1000000 * (2 * (count * (flowTscStep hz count).toNat)) < 1000000 * hz.toNat := by
    calc 1000000 * (2 * (count * (flowTscStep hz count).toNat))
        = count * (2 * (1000000 * (flowTscStep hz count).toNat)) := by ring
      _ ≤ count * (2 * (stepProduct hz count % 2 ^ 64)) :=
          Nat.mul_le_mul_left _ (Nat.mul_le_mul_left _ step)
      _ < count * stepProduct hz count := Nat.mul_lt_mul_of_pos_left half some
      _ = count * (1000000 / count) * hz.toNat := (Nat.mul_assoc _ _ _).symm
      _ ≤ 1000000 * hz.toNat := Nat.mul_le_mul_right _ (Nat.mul_div_le 1000000 count)
  omega

/-- The rounding errors before the last flow add up to less than a second. -/
theorem roundings_lt_iff {hz : UInt64} {count : ℕ} (whole : 1000000 ∣ hz.toNat)
    (some : 0 < count) (nonzero : 1000000 ≤ stepProduct hz count % 2 ^ 64) :
    (count - 1) * (hz.toNat - count * (flowTscStep hz count).toNat) < hz.toNat ↔
      (count - 1) * (1000000 % count) < 1000000 ∧ (stepProduct hz count < 2 ^ 64 ∨ count ≤ 2) := by
  have positive : 0 < hz.toNat := by
    by_contra none
    rw [stepProduct, Nat.eq_zero_of_not_pos none, Nat.mul_zero] at nonzero
    omega
  rcases Nat.lt_or_ge (stepProduct hz count) (2 ^ 64) with fits | wraps
  · rw [and_iff_left (Or.inl fits), ← Nat.mul_lt_mul_left (a := 1000000) (by decide),
      Nat.mul_left_comm, remainder_of_fits whole fits, Nat.mul_left_comm, Nat.mul_comm 1000000,
      Nat.mul_lt_mul_left positive]
  · have left := remainder_of_wraps wraps
    constructor
    · intro less
      have few : count ≤ 2 := by
        by_contra many
        have twice := Nat.mul_le_mul_right
          (hz.toNat - count * (flowTscStep hz count).toNat) (show 2 ≤ count - 1 by omega)
        omega
      refine ⟨?_, Or.inr few⟩
      obtain rfl | rfl : count = 1 ∨ count = 2 := by omega
      · decide
      · decide
    · rintro ⟨-, fits | few⟩
      · exact absurd fits (Nat.not_lt.mpr wraps)
      · have step : 0 < (flowTscStep hz count).toNat := by
          rw [flowTscStep_toNat]
          exact Nat.div_pos nonzero (by decide)
        calc (count - 1) * (hz.toNat - count * (flowTscStep hz count).toNat)
            ≤ 1 * (hz.toNat - count * (flowTscStep hz count).toNat) :=
              Nat.mul_le_mul_right _ (by omega)
          _ < hz.toNat := by
              rw [Nat.one_mul]
              exact Nat.sub_lt positive (Nat.mul_pos some step)

/-! ### The timers of a generator just built -/

/-- The delay the timer of a flow is armed with. -/
def FlowsGenerator.delayAt (gen : FlowsGenerator) (pos : ℕ) : Cycles :=
  (gen.flows[pos]?.map fun fl => fl.event.delay).getD 0

/-- How much later than the first flow a flow is timed, in cycles of 64 bits. -/
def FlowsGenerator.offset (gen : FlowsGenerator) (pos : ℕ) : ℕ :=
  (gen.delayAt pos - gen.delayAt 0).toNat

theorem withEvents_delayAt (cfg : FlowsGeneratorConfig) (pkts : List Pkt) (hz : UInt64) {pos : ℕ}
    (among : pos < cfg.flowsPerSec.toNat) :
    ((FlowsGenerator.withFlows cfg pkts).withEvents hz).delayAt pos =
      UInt64.ofNat pos * flowTscStep hz cfg.flowsPerSec.toNat + (pktAt pkts 0).relTsc := by
  obtain ⟨fl, found, -, delay⟩ := withEvents_flow cfg pkts hz among
  rw [FlowsGenerator.delayAt, found, Option.map_some, Option.getD_some, delay]

/-- It is the flow's place times the step: the first packet is the same for all flows. -/
theorem withEvents_offset (cfg : FlowsGeneratorConfig) (pkts : List Pkt) {hz : UInt64}
    (whole : 1000000 ∣ hz.toNat) {pos : ℕ} (among : pos < cfg.flowsPerSec.toNat) :
    ((FlowsGenerator.withFlows cfg pkts).withEvents hz).offset pos =
      pos * (flowTscStep hz cfg.flowsPerSec.toNat).toNat := by
  rw [FlowsGenerator.offset, withEvents_delayAt cfg pkts hz among,
    withEvents_delayAt cfg pkts hz (Nat.zero_lt_of_lt among)]
  have step : UInt64.ofNat pos * flowTscStep hz cfg.flowsPerSec.toNat + (pktAt pkts 0).relTsc -
      (UInt64.ofNat 0 * flowTscStep hz cfg.flowsPerSec.toNat + (pktAt pkts 0).relTsc) =
      UInt64.ofNat pos * flowTscStep hz cfg.flowsPerSec.toNat := by
    grind
  have small : pos * (flowTscStep hz cfg.flowsPerSec.toNat).toNat < 2 ^ 64 :=
    Nat.lt_of_le_of_lt ((Nat.mul_le_mul_right _ among.le).trans (steps_fit _ whole)) hz.toNat_lt
  rw [step, UInt64.toNat_mul, UInt64.toNat_ofNat', Nat.mod_mul_mod, Nat.mod_eq_of_lt small]

/-- The starts of the flows are evenly spread over the second exactly when the step does not
round to nothing, the rounding of a second divided by the flows, once for every flow but the
first, stays below a second, and the product of the step does not wrap, or there are at most two
flows. -/
theorem flows_evenlySpread_iff (env : Env) (cfg : FlowsGeneratorConfig) (pkts : List Pkt)
    (ops : Ops) (accepted : 1 ≤ cfg.flowsPerSec ∧ cfg.flowsPerSec ≤ 1000000)
    (whole : 1000000 ∣ env.hz.toNat) :
    (∃ gen ops', (FlowsGenerator.withFlows cfg pkts).setupFlowEvents env ops = (.ok gen, ops') ∧
      EvenlySpread env.hz.toNat cfg.flowsPerSec.toNat gen.offset) ↔
      1000000 ≤ stepProduct env.hz cfg.flowsPerSec.toNat % 2 ^ 64 ∧
        (cfg.flowsPerSec.toNat - 1) * (1000000 % cfg.flowsPerSec.toNat) < 1000000 ∧
        (stepProduct env.hz cfg.flowsPerSec.toNat < 2 ^ 64 ∨ cfg.flowsPerSec.toNat ≤ 2) := by
  have some : 0 < cfg.flowsPerSec.toNat := UInt32.le_iff_toNat_le.mp accepted.1
  have built := setupFlowEvents_eq env (FlowsGenerator.withFlows cfg pkts) ops
  rw [withFlows_length, flowTscStep_ne_zero_iff] at built
  have offsets := fun pos (among : pos < cfg.flowsPerSec.toNat) =>
    withEvents_offset cfg pkts whole among
  have spread := evenlySpread_steps_iff some (steps_fit cfg.flowsPerSec.toNat whole)
  constructor
  · rintro ⟨gen, ops', result, even⟩
    have nonzero : 1000000 ≤ stepProduct env.hz cfg.flowsPerSec.toNat % 2 ^ 64 := by
      rw [← flowTscStep_ne_zero_iff]
      intro none
      rw [FlowsGenerator.setupFlowEvents, withFlows_length, none] at result
      exact absurd result (by simp)
    obtain ⟨aborted, -, built⟩ := built nonzero
    obtain rfl := Except.ok.inj (Prod.mk.inj (built.symm.trans result)).1
    exact ⟨nonzero, (roundings_lt_iff whole some nonzero).mp (spread.mp (even.congr offsets))⟩
  · rintro ⟨nonzero, rest⟩
    obtain ⟨aborted, -, built⟩ := built nonzero
    refine ⟨_, _, built, ?_⟩
    exact (spread.mpr ((roundings_lt_iff whole some nonzero).mpr rest)).congr
      fun pos among => (offsets pos among).symm

/-- A generator with a number of flows. -/
def spreadCfg (flowsPerSec : UInt32) (limits : 1 ≤ flowsPerSec ∧ flowsPerSec ≤ 1000000) :
    FlowsGeneratorConfig :=
  generatorConfig (sampleEnv samplePool) "" sampleAddr 0 (sampleFlows flowsPerSec limits)

/-- A thousand flows are. -/
theorem flows_evenlySpread_thousand : ∃ gen ops',
    (FlowsGenerator.withFlows (spreadCfg 1000 (by decide)) samplePkts).setupFlowEvents
        (sampleEnv samplePool) {} = (.ok gen, ops') ∧
      EvenlySpread 1000000 1000 gen.offset :=
  (flows_evenlySpread_iff (sampleEnv samplePool) (spreadCfg 1000 (by decide)) samplePkts {}
    (by decide) ⟨1, rfl⟩).mpr (by decide)

/-- The step of six hundred thousand flows is one microsecond, so all of them start in the first
six tenths of the second. -/
theorem flows_not_evenlySpread : ¬ ∃ gen ops',
    (FlowsGenerator.withFlows (spreadCfg 600000 (by decide)) samplePkts).setupFlowEvents
        (sampleEnv samplePool) {} = (.ok gen, ops') ∧
      EvenlySpread 1000000 600000 gen.offset := by
  rintro ⟨gen, ops', result, even⟩
  obtain ⟨aborted, -, built⟩ := setupFlowEvents_eq (sampleEnv samplePool)
    (FlowsGenerator.withFlows (spreadCfg 600000 (by decide)) samplePkts) {}
    (by rw [withFlows_length]; decide)
  obtain rfl := Except.ok.inj (Prod.mk.inj (built.symm.trans result)).1
  have last := even.near 599999 (by decide)
  rw [withEvents_offset _ _ ⟨1, rfl⟩ (show 599999 < 600000 by decide)] at last
  exact absurd ((near_step_iff (by decide) (by decide)).mp last) (by decide)

end TrafficGenerator
