/-
This file is about the length of a generation. The configured duration becomes a
number of cycles when the generation starts, the number does not change while it
runs, and `process_events` ends the generation at the first clock reading that is
more than that many cycles after the start. The conversion multiplies before it
divides, in 64 bits, and the configuration puts no upper limit on the duration:
from the first duration on whose product with the frequency wraps, a longer one
may end sooner.

The durations of the flows in the answer to a stop request go the other way, with
a product of the same width.
-/

import TrafficGenerator.StopReport
import TrafficGenerator.CycleConversions
import TrafficGenerator.ConfigFormat
import TrafficGenerator.MgmtManager

namespace TrafficGenerator

open ScaledDivision

variable {env : Env} {cfg : GenConfig} {started : GenState}

/-! ### The stored duration -/

/-- A start stores the clock and the converted duration. -/
theorem Starts.genCycles (starts : Starts env cfg started) :
    ∃ begin, started.manager.genCycles =
      some ⟨begin, Cycles.fromDuration env.hz .milliseconds cfg.duration⟩ := by
  obtain ⟨workingDir, before, manager, request, rest, input, reached, idle, start, begun⟩ := starts
  have sound := (GenState.sound_of_run reached).manager
  cases (genStep_spec start).2 with
  | handle manager msg rest input =>
    cases onStartGeneration_cases env input cfg manager sound.empty with
    | refused running => exact absurd (idle.symm.trans running) Bool.false_ne_true
    | failed thrown middle idle undone result =>
      have same : (onStartGeneration env input cfg manager).generationStarted = true := begun
      rw [result] at same
      exact absurd (idle.symm.trans same) Bool.false_ne_true
    | begun gens middle idle built done result =>
      refine ⟨input.now, ?_⟩
      show (onStartGeneration env input cfg manager).genCycles = _
      rw [result]

/-- The part up to the timers keeps the stored duration of a generation it does not end. -/
theorem beforeTimers_genCycles (env : Env) (input : TickIn) {manager : GenManager}
    (still : (beforeTimers env input manager).2.generationStarted = true) :
    (beforeTimers env input manager).2.genCycles = manager.genCycles := by
  rcases beforeTimers_cases env input manager with ⟨-, _, -, result⟩ | ⟨-, result⟩ |
    ⟨-, result⟩ | ⟨-, result⟩
  · rw [result]
  · rw [result] at still
    exact absurd still Bool.false_ne_true
  · rw [result]
  · rw [result]
    rfl

/-- Such a step keeps it. -/
theorem uninterrupted_genCycles {state next : GenState} {label : GenLabel}
    (begun : state.manager.generationStarted = true)
    (uninterrupted : Uninterrupted env state label)
    (step : (genMachine env).step state label = some next)
    (still : next.manager.generationStarted = true) :
    next.manager.genCycles = state.manager.genCycles := by
  cases (genStep_spec step).2 with
  | dequeue | flush | nic => rfl
  | handle manager msg rest input =>
    obtain ⟨request, msg⟩ := msg
    cases msg with
    | startGeneration cfg =>
      show (onIncMsg env input manager _).genCycles = _
      rw [onIncMsg, onStartGeneration_started input cfg begun]
    | stopGeneration => exact absurd rfl uninterrupted.1
    | statsReport => rfl
  | tick manager input => exact beforeTimers_genCycles env input still
  | fire manager next pos flow event run =>
    obtain ⟨gen, fl, -, -, -, rfl⟩ := fire_eq_some.mp run
    rfl

/-- And so does every run in which the generation goes on. -/
theorem run_genCycles {state final : GenState} {labels : List GenLabel} (sound : state.Sound)
    (begun : state.manager.generationStarted = true)
    (between : (genMachine env).AllSteps (Uninterrupted env) state labels)
    (run : (genMachine env).run state labels = some final)
    (running : final.manager.generationStarted = true) :
    final.manager.genCycles = state.manager.genCycles := by
  induction labels generalizing state with
  | nil =>
    obtain rfl := Option.some.inj run
    rfl
  | cons label rest inductionHypothesis =>
    obtain ⟨next, step, run⟩ := ((genMachine env).run_cons_eq_some).mp run
    obtain ⟨uninterrupted, between⟩ := between next step
    by_cases still : next.manager.generationStarted = true
    · exact (inductionHypothesis (sound.step step) still between run).trans
        (uninterrupted_genCycles begun uninterrupted step still)
    · have ends := (over_stays (sound.step step) (Bool.not_eq_true _ ▸ still) between run).1
      exact absurd (ends.symm.trans running) Bool.false_ne_true

/-! ### The end of the generation -/

/-- The cycles the configured duration takes, over unbounded numbers. -/
def GenConfig.exactCycles (hz : UInt64) (cfg : GenConfig) : ℕ :=
  rescale cfg.duration.toNat hz.toNat 1000

/-- A generation has its configured length: the duration stored at its start is the exact number
of cycles, and `process_events` ends it only at a clock reading that is more than that after the
start. -/
structure FollowsDuration (env : Env) (cfg : GenConfig) (started : GenState) : Prop where
  stored : ∀ genCycles ∈ started.manager.genCycles,
    genCycles.duration.toNat = cfg.exactCycles env.hz
  ends : ∀ genCycles ∈ started.manager.genCycles, ∀ labels last input next,
    (genMachine env).AllSteps (Uninterrupted env) started labels →
      (genMachine env).run started labels = some last →
        (genMachine env).step last (.tick input) = some next →
          last.manager.generationStarted = true → next.manager.generationStarted = false →
            cfg.exactCycles env.hz < (input.now - genCycles.begin).toNat

/-- What the part up to the timers ends has run for more than the stored duration. -/
theorem Starts.ends_after (starts : Starts env cfg started) {genCycles : GenCycles}
    (stored : genCycles ∈ started.manager.genCycles) {labels : List GenLabel}
    {last next : GenState} {input : TickIn}
    (between : (genMachine env).AllSteps (Uninterrupted env) started labels)
    (run : (genMachine env).run started labels = some last)
    (step : (genMachine env).step last (.tick input) = some next)
    (running : last.manager.generationStarted = true)
    (finished : next.manager.generationStarted = false) :
    genCycles.duration.toNat < (input.now - genCycles.begin).toNat := by
  have sound := starts.begun.1
  obtain ⟨-, -, -, -, -, -, -, -, -, begun⟩ := starts
  have same := run_genCycles sound begun between run running
  cases (genStep_spec step).2 with
  | tick manager input =>
    have expired : manager.Expired input.now := by
      by_contra before
      have still := (beforeTimers_started env input running).mpr before
      exact absurd (finished.symm.trans still) Bool.false_ne_true
    obtain ⟨found, member, elapsed⟩ := expired
    rw [show manager.genCycles = started.manager.genCycles from same] at member
    obtain rfl := Option.some.inj (member.symm.trans stored)
    exact UInt64.lt_iff_toNat_lt.mp elapsed

/-- One generation has its configured length exactly when the product does not wrap. -/
theorem followsDuration_iff (starts : Starts env cfg started) (nonneg : 0 ≤ cfg.duration) :
    FollowsDuration env cfg started ↔ cfg.duration.toNat * env.hz.toNat < 2 ^ 64 := by
  obtain ⟨begin, genCycles⟩ := starts.genCycles
  have value : (Cycles.fromDuration env.hz .milliseconds cfg.duration).toNat =
      cfg.exactCycles env.hz ↔ cfg.duration.toNat * env.hz.toNat < 2 ^ 64 := by
    rw [← Cycles.toNat_fromDuration_eq_iff .milliseconds, Int.toNat_of_nonneg nonneg]
    rfl
  constructor
  · intro follows
    exact value.mp (follows.stored _ genCycles)
  · intro fits
    have exactly : ∀ found ∈ started.manager.genCycles,
        found.duration.toNat = cfg.exactCycles env.hz := by
      intro found member
      obtain rfl := Option.some.inj (genCycles.symm.trans member)
      exact value.mpr fits
    refine ⟨exactly, fun found member labels last input next between run step running
      finished => ?_⟩
    rw [← exactly found member]
    exact starts.ends_after member between run step running finished

/-- Of two generations at one frequency, with durations that are not negative, both have their
configured length, and the longer one is stored as no fewer cycles, exactly when the product of
the longer duration and the frequency fits 64 bits. -/
theorem followsDurations_iff {shortEnv longEnv : Env} {short long : GenConfig}
    {shortStarted longStarted : GenState} (shortStarts : Starts shortEnv short shortStarted)
    (longStarts : Starts longEnv long longStarted) (frequency : shortEnv.hz = longEnv.hz)
    (nonneg : 0 ≤ short.duration) (order : short.duration ≤ long.duration) :
    (FollowsDuration shortEnv short shortStarted ∧ FollowsDuration longEnv long longStarted ∧
      ∀ first ∈ shortStarted.manager.genCycles, ∀ second ∈ longStarted.manager.genCycles,
        first.duration ≤ second.duration) ↔
      long.duration.toNat * longEnv.hz.toNat < 2 ^ 64 := by
  have longIff := followsDuration_iff longStarts (nonneg.trans order)
  constructor
  · rintro ⟨-, follows, -⟩
    exact longIff.mp follows
  · intro fits
    have counts : short.duration.toNat ≤ long.duration.toNat := Int.toNat_le_toNat order
    have shortFollows := (followsDuration_iff shortStarts nonneg).mpr
      (Nat.lt_of_le_of_lt (frequency ▸ Nat.mul_le_mul_right _ counts) fits)
    have longFollows := longIff.mpr fits
    refine ⟨shortFollows, longFollows, fun first shortStored second longStored => ?_⟩
    rw [UInt64.le_iff_toNat_le, shortFollows.stored first shortStored,
      longFollows.stored second longStored, GenConfig.exactCycles, GenConfig.exactCycles, frequency]
    exact rescale_mono _ _ counts

/-! ### Durations about the largest one of a fast timer -/

/-- Two and a half cycles a nanosecond. -/
def fastEnv : Env := { sampleEnv samplePool with hz := 2500000000 }

/-- A document that asks for a number of seconds and has no captures. -/
def durationMembers (secs : ℕ) : List (String × BoostJson.Value) :=
  exampleMembers (.decimal secs (Float.ofNat secs)) []

def durationText (secs : ℕ) : String :=
  "\x7b\"duration_secs\": " ++ toString secs ++
    ".0, \"dut_ether_addr\": \"e4:8d:8c:20:fb:bc\", \"captures\": []\x7d"

/-- The configuration of a document that asks for a number of seconds. -/
def AsksFor (secs : ℕ) (cfg : GenConfig) : Prop :=
  genConfig (exampleEnv (durationText secs) (durationMembers secs)) (durationText secs) = .ok cfg

/-- Such a document is accepted, and starts a generation. -/
theorem duration_starts (env : Env) (secs : ℕ) :
    ∃ cfg started, AsksFor secs cfg ∧
      cfg.duration = (durationMsecs (Float.ofNat secs)).toInt ∧ Starts env cfg started := by
  obtain ⟨addr, parsed⟩ := parseEtherAddr_of_valid exampleEther_valid
  let cfg : GenConfig := ⟨(durationMsecs (Float.ofNat secs)).toInt, addr, [],
    ⟨Int64.le_toInt _, Int64.toInt_lt _⟩⟩
  have accepted : AsksFor secs cfg := by
    have read : readConfig (.object (durationMembers secs)) =
        .ok ⟨Float.ofNat secs, exampleEther, []⟩ :=
      readConfig_ok.mpr ⟨durationMembers secs, rfl, rfl, rfl,
        show (durationMembers secs).lookup "captures" = some (.array []) from rfl⟩
    refine genConfig_ok.mpr ⟨_, exampleEnv_parse _ _, ?_⟩
    simp only [genConfigOf, BoostJson.bind_ok, ofJson_ok]
    refine ⟨_, read, ?_⟩
    rw [parsed]
    rfl
  have handled : (genMachine env).step
      ⟨{}, .handling [⟨none, .startGeneration cfg⟩]⟩ (.handle {}) = some _ := rfl
  refine ⟨cfg, _, accepted, rfl, "", [.dequeue [⟨none, .startGeneration cfg⟩]], {}, none, [], {},
    rfl, rfl, handled, ?_⟩
  show (onStartGeneration env {} cfg {}).generationStarted = true
  rw [onStartGeneration_built {} cfg {} rfl rfl rfl]
  rfl

/-- The longest duration in whole seconds whose product does not wrap, and half of it. -/
theorem followsDurations_longest : ∃ short long shortStarted longStarted,
    (Starts fastEnv short shortStarted ∧ short.duration = 3689348000) ∧
    (Starts fastEnv long longStarted ∧ long.duration = 7378697000) ∧
    FollowsDuration fastEnv short shortStarted ∧ FollowsDuration fastEnv long longStarted ∧
      ∀ first ∈ shortStarted.manager.genCycles, ∀ second ∈ longStarted.manager.genCycles,
        first.duration ≤ second.duration := by
  obtain ⟨short, shortStarted, -, shortMsecs, shortStarts⟩ := duration_starts fastEnv 3689348
  obtain ⟨long, longStarted, -, longMsecs, longStarts⟩ := duration_starts fastEnv 7378697
  replace shortMsecs : short.duration = 3689348000 := shortMsecs.trans (by decide +kernel)
  replace longMsecs : long.duration = 7378697000 := longMsecs.trans (by decide +kernel)
  refine ⟨short, long, shortStarted, longStarted, ⟨shortStarts, shortMsecs⟩,
    ⟨longStarts, longMsecs⟩, ?_⟩
  refine (followsDurations_iff shortStarts longStarts rfl ?_ ?_).mpr ?_
  · rw [shortMsecs]
    decide
  · rw [shortMsecs, longMsecs]
    decide
  · rw [longMsecs]
    decide

theorem fastEnv_wraps :
    Cycles.fromDuration fastEnv.hz .milliseconds 7378698000 = 926290448 ∧
      (926290448 : Cycles) < Cycles.fromDuration fastEnv.hz .milliseconds 7378697000 := by
  decide

/-- One second more than that, which is over 85 days, is stored as less than half a second: both
configurations are accepted, and the longer one gives the shorter generation. -/
theorem followsDurations_wraps : ∃ short long shortStarted longStarted,
    (AsksFor 7378697 short ∧ Starts fastEnv short shortStarted) ∧
    (AsksFor 7378698 long ∧ Starts fastEnv long longStarted) ∧
    (0 ≤ short.duration ∧ short.duration ≤ long.duration ∧ long.duration < 2 ^ 63) ∧
    ¬ (FollowsDuration fastEnv short shortStarted ∧ FollowsDuration fastEnv long longStarted ∧
      ∀ first ∈ shortStarted.manager.genCycles, ∀ second ∈ longStarted.manager.genCycles,
        first.duration ≤ second.duration) ∧
    (long.exactCycles fastEnv.hz = 18446745000000000 ∧
      ∀ second ∈ longStarted.manager.genCycles, second.duration = 926290448) ∧
    ∀ first ∈ shortStarted.manager.genCycles, ∀ second ∈ longStarted.manager.genCycles,
      second.duration < first.duration := by
  obtain ⟨short, shortStarted, shortAsks, shortMsecs, shortStarts⟩ :=
    duration_starts fastEnv 7378697
  obtain ⟨long, longStarted, longAsks, longMsecs, longStarts⟩ :=
    duration_starts fastEnv 7378698
  replace shortMsecs : short.duration = 7378697000 := shortMsecs.trans (by decide +kernel)
  replace longMsecs : long.duration = 7378698000 := longMsecs.trans (by decide +kernel)
  obtain ⟨shortBegin, shortCycles⟩ := shortStarts.genCycles
  obtain ⟨longBegin, longCycles⟩ := longStarts.genCycles
  rw [shortMsecs] at shortCycles
  obtain ⟨wrapped, shorter⟩ := fastEnv_wraps
  rw [longMsecs, wrapped] at longCycles
  refine ⟨short, long, shortStarted, longStarted, ⟨shortAsks, shortStarts⟩,
    ⟨longAsks, longStarts⟩, ?_, ?_, ⟨?_, ?_⟩, ?_⟩
  · rw [shortMsecs, longMsecs]
    decide
  · rintro ⟨-, -, order⟩
    exact absurd (order _ shortCycles _ longCycles) (UInt64.not_le.mpr shorter)
  · rw [GenConfig.exactCycles, longMsecs]
    decide
  · intro second member
    obtain rfl := Option.some.inj (longCycles.symm.trans member)
    rfl
  · intro first shortMember second longMember
    obtain rfl := Option.some.inj (shortCycles.symm.trans shortMember)
    obtain rfl := Option.some.inj (longCycles.symm.trans longMember)
    exact shorter

/-! ### The duration a stop request is told -/

/-- The value of `duration_usec` in the answer to a stop request. -/
def SummaryEntry.durationUsec (hz : UInt64) (ent : SummaryEntry) : Int :=
  Cycles.countOf hz .microseconds ent.duration

/-- It is what the entry is written with. -/
theorem entryMembers_durationUsec (hz : UInt64) (ent : SummaryEntry) :
    entryMembers hz ent = jsonMembers [("gen_idx", toString ent.genIdx),
      ("flow_idx", toString ent.flowIdx), ("cnt_pkts", toString ent.cntPkts),
      ("cnt_bytes", toString ent.cntBytes), ("duration_usec", toString (ent.durationUsec hz))] :=
  rfl

/-- The microseconds between the first and the last packet of a flow, over unbounded numbers. -/
def Flow.exactUsec (hz : UInt64) (fl : Flow) : ℕ :=
  rescale (fl.tstampEnd.toNat - fl.tstampBeg.toNat) 1000000 hz.toNat

/-- A signed count of cycles is at most the count. -/
theorem toInt_toInt64_le (num : UInt64) : num.toInt64.toInt ≤ num.toNat := by
  rw [toInt_toInt64]
  split <;> omega

/-- The 64-bit product is too small by at least one quotient when it wraps. -/
theorem durationUsec_lt_of_wraps {ent : SummaryEntry} {hz : UInt64} (positive : 0 < hz)
    (wraps : 2 ^ 64 ≤ ent.duration.toNat * 1000000) :
    ent.durationUsec hz < rescale ent.duration.toNat 1000000 hz.toNat := by
  have quotient := mod_div_eq_div_iff (ent.duration.toNat * 1000000)
    (UInt64.lt_iff_toNat_lt.mp positive) hz.toNat_lt.le
  have smaller := mod_div_le_div (ent.duration.toNat * 1000000) (2 ^ 64) hz.toNat
  have written := toInt_toInt64_le (Cycles.toDuration hz .microseconds ent.duration)
  rw [Cycles.toNat_toDuration, show DurationUnit.microseconds.perSecond.toNat = 1000000 from rfl]
    at written
  have strict := Nat.lt_of_le_of_ne smaller fun same => Nat.not_lt.mpr wraps (quotient.mp same)
  exact Int.lt_of_le_of_lt written (by exact_mod_cast strict)

/-- The written duration of a flow is the exact one exactly when the cycles between its packets,
a million times over, fit 64 bits; at one cycle a second they have to fit a signed number. -/
theorem durationUsec_exact_iff (gen : FlowsGenerator) (fl : Flow) {hz : UInt64} (positive : 0 < hz)
    (order : fl.tstampBeg ≤ fl.tstampEnd) :
    entryMembers hz (summaryEntry gen fl) = jsonMembers [("gen_idx", toString gen.idx),
        ("flow_idx", toString fl.idx), ("cnt_pkts", toString fl.cntPkts),
        ("cnt_bytes", toString fl.cntBytes),
        ("duration_usec", toString ((summaryEntry gen fl).durationUsec hz))] ∧
      ((summaryEntry gen fl).durationUsec hz = fl.exactUsec hz ↔
        (fl.tstampEnd.toNat - fl.tstampBeg.toNat) * 1000000 < 2 ^ 64 ∧
          (hz = 1 → (fl.tstampEnd.toNat - fl.tstampBeg.toNat) * 1000000 < 2 ^ 63)) := by
  refine ⟨entryMembers_durationUsec hz _, ?_⟩
  have cycles : (summaryEntry gen fl).duration.toNat =
      fl.tstampEnd.toNat - fl.tstampBeg.toNat := UInt64.toNat_sub_of_le _ _ order
  rw [Flow.exactUsec, ← cycles]
  generalize summaryEntry gen fl = ent
  have positive' : 0 < hz.toNat := UInt64.lt_iff_toNat_lt.mp positive
  have written : ent.durationUsec hz = _ := toInt_toInt64 _
  constructor
  · intro same
    have noWrap : ent.duration.toNat * 1000000 < 2 ^ 64 := by
      by_contra wraps
      exact absurd same (durationUsec_lt_of_wraps positive (Nat.le_of_not_lt wraps)).ne
    refine ⟨noWrap, ?_⟩
    rintro rfl
    rw [Cycles.toNat_toDuration_of_fits .microseconds noWrap, same] at written
    have whole : rescale ent.duration.toNat 1000000 (1 : UInt64).toNat =
        ent.duration.toNat * 1000000 := Nat.div_one _
    rw [← whole]
    by_contra large
    rw [show DurationUnit.microseconds.perSecond.toNat = 1000000 from rfl, if_neg large] at written
    omega
  · rintro ⟨noWrap, slow⟩
    refine Cycles.countOf_of_fits .microseconds noWrap ?_
    show ent.duration.toNat * 1000000 / hz.toNat < 2 ^ 63
    rcases Nat.lt_or_ge 1 hz.toNat with fast | one
    · have half := Nat.div_le_div_left (a := ent.duration.toNat * 1000000)
        (show 2 ≤ hz.toNat from fast) Nat.two_pos
      omega
    · have single : hz = 1 := UInt64.toNat_inj.mp (Nat.le_antisymm one positive')
      exact Nat.lt_of_le_of_lt (Nat.div_le_self _ _) (slow single)

/-- A flow with packets that are a number of cycles apart. -/
def flowLasting (cycles : Cycles) : Flow where
  idx := 0
  pktIdx := 0
  clnIpAddr := 0
  srvIpAddr := 0
  event := none
  cntPkts := 2
  cntBytes := 0
  tstampBeg := 0
  tstampEnd := cycles

/-- Two hours are told. -/
theorem durationUsec_exact_twoHours :
    ((flowLasting 18000000000000).tstampBeg ≤ (flowLasting 18000000000000).tstampEnd ∧
      (flowLasting 18000000000000).exactUsec fastEnv.hz = 7200000000) ∧
    (summaryEntry sampleGen (flowLasting 18000000000000)).durationUsec fastEnv.hz =
      (flowLasting 18000000000000).exactUsec fastEnv.hz :=
  ⟨by decide, (durationUsec_exact_iff sampleGen (flowLasting 18000000000000) (by decide)
    (by decide)).2.mpr (by decide)⟩

/-- After two hours and three minutes nothing is left of the product. -/
theorem durationUsec_wraps :
    ((flowLasting 18446744073710).tstampBeg ≤ (flowLasting 18446744073710).tstampEnd ∧
      (flowLasting 18446744073710).exactUsec fastEnv.hz = 7378697629) ∧
    (summaryEntry sampleGen (flowLasting 18446744073710)).durationUsec fastEnv.hz = 0 ∧
    ¬ (summaryEntry sampleGen (flowLasting 18446744073710)).durationUsec fastEnv.hz =
      (flowLasting 18446744073710).exactUsec fastEnv.hz := by
  decide

end TrafficGenerator
