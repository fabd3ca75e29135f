/-
This file is about the delays that `load_pkts` stores with the packets. Every
delay is meant to count from the packet before; the code counts all of them from
the first packet and adds the gap between two passes to each. A packet that was
captured more than that gap before the first one gets a negative delay, which
becomes one of days or years.
-/

import TrafficGenerator.CutCaptures
import TrafficGenerator.CycleConversions

namespace TrafficGenerator

open ScaledDivision

variable {env : Env} {ops ops' : Ops}

/-! ### What the loop stores -/

/-- The time stamps the loop works with: those of the packets, or the multiples of the gap between
packets from the one it has got to. -/
def timeline (ipg : Option Int) : Option Int → List ℕ → List Int
  | _, [] => []
  | ipgTstamp, tstamp :: rest =>
    ipgTstamp.getD tstamp :: timeline ipg (ipgTstamp.map fun tstamp => tstamp + ipg.getD 0) rest

/-- The delays of a timeline count from a reference. -/
def delaysFrom (hz : UInt64) (reference : Int) (tstamps : List Int) : List Cycles :=
  tstamps.map fun tstamp => Cycles.fromDuration hz .microseconds (ifGap + tstamp - reference)

/-- The reference is the first time stamp the loop has seen. -/
theorem foldl_addPkt_relTsc (hz : UInt64) (ipg : Option Int) (pkts : List TcapPkt)
    (load : LoadState) :
    (pkts.foldl (fun load pk => addPkt hz ipg pk load) load).ret.map Pkt.relTsc =
      load.ret.map Pkt.relTsc ++ delaysFrom hz
        (load.prevTstamp.getD ((timeline ipg load.ipgTstamp (pkts.map TcapPkt.tstamp)).headD 0))
        (timeline ipg load.ipgTstamp (pkts.map TcapPkt.tstamp)) := by
  induction pkts generalizing load with
  | nil => exact (List.append_nil _).symm
  | cons pk rest inductionHypothesis =>
    rw [List.foldl_cons, inductionHypothesis, addPkt]
    dsimp only
    rw [List.map_append, List.append_assoc]
    rfl

/-- The second loop keeps the delays. -/
theorem prepareLoop_relTsc {cfg : FlowsGeneratorConfig} {clnEtherAddr : Option (List UInt8)}
    {pkts prepared : List Pkt} {ops : Ops}
    (run : prepareLoop env cfg clnEtherAddr pkts ops = (.ok prepared, ops')) :
    prepared.map Pkt.relTsc = pkts.map Pkt.relTsc := by
  induction pkts generalizing clnEtherAddr ops prepared with
  | nil =>
    obtain rfl := Except.ok.inj (Prod.mk.inj run).1
    rfl
  | cons pkt rest inductionHypothesis =>
    rw [prepareLoop] at run
    split at run
    · exact absurd (Prod.mk.inj run).1 (by simp)
    · dsimp only at run
      split at run
      · exact absurd (Prod.mk.inj run).1 (by simp)
      · next done =>
        obtain ⟨same, rfl⟩ := Prod.mk.inj run
        obtain rfl := Except.ok.inj same
        rw [List.map_cons, List.map_cons, inductionHypothesis done]

/-- The time stamps of some records, in microseconds. -/
def tstampsOf (records : List Record) : List ℕ := records.map Record.tstamp

/-- What an accepted capture stores. -/
theorem loadPkts_relTsc {cfg : FlowsGeneratorConfig} {pkts : List Pkt} {file : File}
    {hdr : PcapHdr} {records : List Record} {tail : List UInt8}
    (run : loadPkts env cfg ops = (.ok pkts, ops')) (opens : env.fopen cfg.capFpath = .ok file)
    (clear : file.eof = false) (capture : CaptureOf file.data hdr records tail) :
    pkts ≠ [] ∧ pkts.map Pkt.relTsc = delaysFrom env.hz
      ((timeline cfg.interPktsGap (cfg.interPktsGap.map fun _ => 0) (tstampsOf records)).headD 0)
      (timeline cfg.interPktsGap (cfg.interPktsGap.map fun _ => 0) (tstampsOf records)) := by
  refine ⟨(loadPkts_spec run).2.2 pkts rfl, ?_⟩
  rw [loadPkts] at run
  split at run
  · exact absurd (Prod.mk.inj run).1 (by simp)
  · next opened =>
    split at run
    · exact absurd (Prod.mk.inj run).1 (by simp)
    · next load middle loop =>
      have loads : LoadsAll env cfg ops load := ⟨_, _, opened, loop⟩
      obtain ⟨other, others, otherTail, again, loaded, tstamps, rfl⟩ := loads.capture opens clear
      split at run
      · exact absurd (Prod.mk.inj run).1 (by simp)
      · next prepared =>
        split at run
        · exact absurd (Prod.mk.inj run).1 (by simp)
        · obtain rfl := Except.ok.inj (Prod.mk.inj run).1
          rw [prepareLoop_relTsc prepared, foldl_addPkt_relTsc, tstamps,
            ← capture.tstamps_unique again]
          rfl

/-- How long after the first packet a packet is due: by its time stamp, or by its place. -/
def sinceFirst (ipg : Option Int) (tstamps : List ℕ) (pos : ℕ) : Int :=
  ipg.elim (tstamps.getD pos 0 - tstamps.getD 0 0) fun gap => pos * gap

/-- How long after the packet before it. -/
def sincePrevious (ipg : Option Int) (tstamps : List ℕ) (pos : ℕ) : Int :=
  ipg.getD (tstamps.getD pos 0 - tstamps.getD (pos - 1) 0)

theorem timeline_getElem? (ipg ipgTstamp : Option Int) (tstamps : List ℕ) (pos : ℕ) :
    (timeline ipg ipgTstamp tstamps)[pos]? = tstamps[pos]?.map fun tstamp : ℕ =>
      ipgTstamp.elim (tstamp : Int) fun start => start + pos * ipg.getD 0 := by
  induction tstamps generalizing ipgTstamp pos with
  | nil => rfl
  | cons tstamp rest inductionHypothesis =>
    cases pos with
    | zero => cases ipgTstamp <;> simp [timeline]
    | succ pos =>
      rw [timeline, List.getElem?_cons_succ, List.getElem?_cons_succ, inductionHypothesis]
      cases ipgTstamp with
      | none => rfl
      | some start =>
        refine congrArg (Option.map · _) (funext fun _ => ?_)
        rw [Option.map_some, Option.elim_some, Option.elim_some, Nat.cast_succ, Int.add_mul,
          Int.one_mul, Int.add_assoc, Int.add_comm (ipg.getD 0)]

theorem timeline_length (ipg ipgTstamp : Option Int) (tstamps : List ℕ) :
    (timeline ipg ipgTstamp tstamps).length = tstamps.length := by
  induction tstamps generalizing ipgTstamp with
  | nil => rfl
  | cons tstamp rest inductionHypothesis => exact congrArg (· + 1) (inductionHypothesis _)

/-- Every packet of an accepted capture is one of its records, and its delay counts from the
first. -/
theorem loadPkts_delay {cfg : FlowsGeneratorConfig} {pkts : List Pkt} {file : File}
    {hdr : PcapHdr} {records : List Record} {tail : List UInt8}
    (run : loadPkts env cfg ops = (.ok pkts, ops')) (opens : env.fopen cfg.capFpath = .ok file)
    (clear : file.eof = false) (capture : CaptureOf file.data hdr records tail) :
    pkts.length = records.length ∧ ∀ pos pkt, pkts[pos]? = some pkt →
      pkt.relTsc = Cycles.fromDuration env.hz .microseconds
        (ifGap + sinceFirst cfg.interPktsGap (tstampsOf records) pos) := by
  obtain ⟨-, stored⟩ := loadPkts_relTsc run opens clear capture
  have length : pkts.length = records.length := by
    rw [← List.length_map (f := Pkt.relTsc), stored, delaysFrom, List.length_map, timeline_length,
      tstampsOf, List.length_map]
  refine ⟨length, fun pos pkt found => ?_⟩
  have low : pos < (tstampsOf records).length := by
    rw [tstampsOf, List.length_map, ← length]
    exact (List.getElem?_eq_some_iff.mp found).1
  have delay := congrArg (fun tscs => tscs[pos]?) stored
  rw [List.getElem?_map, found, delaysFrom, List.getElem?_map, timeline_getElem?,
    List.getElem?_eq_getElem low, List.headD_eq_head?_getD, List.head?_eq_getElem?,
    timeline_getElem?, List.getElem?_eq_getElem (Nat.zero_lt_of_lt low)] at delay
  rw [sinceFirst, List.getD_eq_getElem?_getD, List.getD_eq_getElem?_getD,
    List.getElem?_eq_getElem low, List.getElem?_eq_getElem (Nat.zero_lt_of_lt low),
    Option.some.inj delay]
  cases cfg.interPktsGap with
  | none => exact congrArg _ (Int.add_sub_assoc _ _ _)
  | some gap => simp

/-! ### Delays from the packet before -/

/-- Every packet but the first is stored with the time since the packet before it. -/
def DelaysFromPrevious (hz : UInt64) (ipg : Option Int) (tstamps : List ℕ) (pkts : List Pkt) :
    Prop :=
  ∀ pos pkt, 1 ≤ pos → pkts[pos]? = some pkt →
    pkt.relTsc = Cycles.fromDuration hz .microseconds (sincePrevious ipg tstamps pos)

/-- No conversion of the loop overflows. -/
def DelaysFit (hz : UInt64) (ipg : Option Int) (tstamps : List ℕ) : Prop :=
  ∀ pos < tstamps.length, (ifGap + sinceFirst ipg tstamps pos) * hz.toNat < 2 ^ 64

/-- In a capture in order, with a positive gap when one is configured, a packet is due after the
one before it, which is not before the first. -/
theorem sincePrevious_bounds {ipg : Option Int} {tstamps : List ℕ} {pos : ℕ}
    (ordered : tstamps.Pairwise (· ≤ ·)) (positive : ∀ gap ∈ ipg, 1 ≤ gap) (later : 1 ≤ pos)
    (among : pos < tstamps.length) :
    0 ≤ sincePrevious ipg tstamps pos ∧
      sincePrevious ipg tstamps pos ≤ sinceFirst ipg tstamps pos := by
  cases ipg with
  | none =>
    have order : ∀ first second, first ≤ second → second < tstamps.length →
        tstamps.getD first 0 ≤ tstamps.getD second 0 := by
      intro first second before within
      rw [List.getD_eq_getElem?_getD, List.getD_eq_getElem?_getD, List.getElem?_eq_getElem within,
        List.getElem?_eq_getElem (Nat.lt_of_le_of_lt before within)]
      rcases Nat.eq_or_lt_of_le before with rfl | less
      · exact Nat.le_refl _
      · exact List.pairwise_iff_getElem.mp ordered _ _ _ _ less
    have step := order (pos - 1) pos (Nat.sub_le _ _) among
    have start := order 0 (pos - 1) (Nat.zero_le _) (by omega)
    rw [sincePrevious, sinceFirst, Option.getD_none, Option.elim_none]
    omega
  | some gap =>
    have atLeast := positive gap rfl
    rw [sincePrevious, sinceFirst, Option.getD_some, Option.elim_some]
    exact ⟨by omega, le_mul_of_one_le_left (by omega) (by exact_mod_cast later)⟩

/-- The division of the products by a million takes away the difference between the two delays of a
packet: no multiple of a million lies between the products. -/
def RoundedAway (hz : UInt64) (ipg : Option Int) (tstamps : List ℕ) (pos : ℕ) : Prop :=
  ∀ multiple : ℕ, multiple * 1000000 ≤ (ifGap + sinceFirst ipg tstamps pos).toNat * hz.toNat →
    multiple * 1000000 ≤ (sincePrevious ipg tstamps pos).toNat * hz.toNat

/-- One stored delay is the one from the packet before exactly when the division rounds away the
whole difference. -/
theorem delay_eq_iff {hz : UInt64} {ipg : Option Int} {tstamps : List ℕ} {pos : ℕ}
    (nonneg : 0 ≤ sincePrevious ipg tstamps pos)
    (order : sincePrevious ipg tstamps pos ≤ sinceFirst ipg tstamps pos)
    (fits : (ifGap + sinceFirst ipg tstamps pos) * hz.toNat < 2 ^ 64) :
    Cycles.fromDuration hz .microseconds (ifGap + sinceFirst ipg tstamps pos) =
        Cycles.fromDuration hz .microseconds (sincePrevious ipg tstamps pos) ↔
      hz < 10 ∧ RoundedAway hz ipg tstamps pos := by
  rw [RoundedAway]
  generalize sincePrevious ipg tstamps pos = previous at nonneg order ⊢
  generalize sinceFirst ipg tstamps pos = since at order fits ⊢
  obtain ⟨before, rfl⟩ := Int.eq_ofNat_of_zero_le nonneg
  obtain ⟨total, whole⟩ := Int.eq_ofNat_of_zero_le (show 0 ≤ ifGap + since by
    have gap : ifGap = 100000 := rfl
    omega)
  rw [whole] at fits ⊢
  have apart : before + 100000 ≤ total := by
    have gap : ifGap = 100000 := rfl
    omega
  have products : before * hz.toNat + 100000 * hz.toNat ≤ total * hz.toNat :=
    Nat.add_mul _ _ _ ▸ Nat.mul_le_mul_right _ apart
  have totalFits : total * hz.toNat < 2 ^ 64 := by exact_mod_cast fits
  have quotients : Cycles.fromDuration hz .microseconds total =
      Cycles.fromDuration hz .microseconds before ↔
        total * hz.toNat / 1000000 = before * hz.toNat / 1000000 := by
    rw [← UInt64.toNat_inj, Cycles.toNat_fromDuration_of_fits _ totalFits,
      Cycles.toNat_fromDuration_of_fits _ (by omega)]
    rfl
  rw [quotients, Int.toNat_natCast, Int.toNat_natCast,
    ← div_eq_div_iff_multiples (by omega) (by decide), iff_and_self]
  intro same
  by_contra fast
  have ten : 10 ≤ hz.toNat := UInt64.le_iff_toNat_le.mp (UInt64.not_lt.mp fast)
  exact div_ne_div_of_add_le (by omega) (by decide) same

/-- The delays of an accepted capture in order count from the packet before exactly when there is
one packet only, or the timer has less than ten cycles a second and all the differences are
rounded away. -/
theorem delaysFromPrevious_iff {cfg : FlowsGeneratorConfig} {pkts : List Pkt} {file : File}
    {hdr : PcapHdr} {records : List Record} {tail : List UInt8}
    (run : loadPkts env cfg ops = (.ok pkts, ops')) (opens : env.fopen cfg.capFpath = .ok file)
    (clear : file.eof = false) (capture : CaptureOf file.data hdr records tail)
    (ordered : (tstampsOf records).Pairwise (· ≤ ·))
    (accepted : ∀ gap ∈ cfg.interPktsGap, 1 ≤ gap)
    (fits : DelaysFit env.hz cfg.interPktsGap (tstampsOf records)) :
    DelaysFromPrevious env.hz cfg.interPktsGap (tstampsOf records) pkts ↔
      records.length = 1 ∨ env.hz < 10 ∧ ∀ pos, 1 ≤ pos → pos < records.length →
        RoundedAway env.hz cfg.interPktsGap (tstampsOf records) pos := by
  obtain ⟨some, -⟩ := loadPkts_relTsc run opens clear capture
  obtain ⟨length, delays⟩ := loadPkts_delay run opens clear capture
  have nonempty := List.length_pos_iff.mpr some
  have each : ∀ pos, 1 ≤ pos → pos < pkts.length →
      (Cycles.fromDuration env.hz .microseconds
          (ifGap + sinceFirst cfg.interPktsGap (tstampsOf records) pos) =
        Cycles.fromDuration env.hz .microseconds
          (sincePrevious cfg.interPktsGap (tstampsOf records) pos) ↔
        env.hz < 10 ∧ RoundedAway env.hz cfg.interPktsGap (tstampsOf records) pos) := by
    intro pos later among
    have within : pos < (tstampsOf records).length := by
      rwa [tstampsOf, List.length_map, ← length]
    obtain ⟨nonneg, order⟩ := sincePrevious_bounds ordered accepted later within
    exact delay_eq_iff nonneg order (fits pos within)
  rw [← length]
  constructor
  · intro previous
    by_cases one : pkts.length = 1
    · exact Or.inl one
    · have all := fun pos later among =>
        (each pos later among).mp ((delays pos _ (List.getElem?_eq_getElem among)).symm.trans
          (previous pos _ later (List.getElem?_eq_getElem among)))
      exact Or.inr ⟨(all 1 (Nat.le_refl 1) (by omega)).1,
        fun pos later among => (all pos later among).2⟩
  · intro rounded pos pkt later found
    have among := (List.getElem?_eq_some_iff.mp found).1
    rcases rounded with one | ⟨slow, none⟩
    · omega
    · exact (delays pos pkt found).trans
        ((each pos later among).mpr ⟨slow, none pos later among⟩)

/-! ### Captures of the sample packet -/

theorem captureFile_captureOf {records : List Record} (fits : ∀ record ∈ records, record.Fits) :
    CaptureOf (captureFile records).data ⟨0, 0, 65536, 1⟩ records [] := ⟨rfl, fits, Or.inl rfl⟩

/-- The sample packet, captured at some times. -/
def capturedAt (times : List (UInt32 × UInt32)) : List Record :=
  times.map fun time => ⟨time.1, time.2, samplePacket⟩

theorem capturedAt_fits (times : List (UInt32 × UInt32)) :
    ∀ record ∈ capturedAt times, record.Fits := by
  intro record member
  obtain ⟨time, -, rfl⟩ := List.mem_map.mp member
  exact (by decide : samplePacket.length < 2 ^ 32)

/-- The delays of the packets when the capture is accepted. -/
def loadedDelays (env : Env) : Option (List Cycles) :=
  (loadPkts env sampleGenCfg {}).1.toOption.map (List.map Pkt.relTsc)

theorem loadedDelays_run {delays : List Cycles} (loaded : loadedDelays env = some delays) :
    ∃ pkts ops', loadPkts env sampleGenCfg {} = (.ok pkts, ops') ∧
      pkts.map Pkt.relTsc = delays := by
  rw [loadedDelays] at loaded
  cases run : loadPkts env sampleGenCfg {} with
  | mk res ops' =>
    rw [run] at loaded
    cases res with
    | error thrown => exact absurd loaded (by simp [Except.toOption])
    | ok pkts => exact ⟨pkts, ops', rfl, Option.some.inj loaded⟩

/-- At one cycle a second nothing is seen of half a second between two packets, nor of the tenth
of a second that is added to it. -/
theorem delaysFromPrevious_slowTimer :
    let env : Env := { envOpening (captureFile (capturedAt [(0, 0), (0, 500000)])) with hz := 1 }
    ∃ pkts ops', loadPkts env sampleGenCfg {} = (.ok pkts, ops') ∧ pkts.length = 2 ∧
      DelaysFromPrevious 1 none [0, 500000] pkts := by
  intro env
  have loaded : loadedDelays env = some [0, 0] := by decide +kernel
  obtain ⟨pkts, ops', run, delays⟩ := loadedDelays_run loaded
  have length := congrArg List.length delays
  rw [List.length_map] at length
  refine ⟨pkts, ops', run, length, ?_⟩
  refine (delaysFromPrevious_iff run rfl rfl (captureFile_captureOf (capturedAt_fits _))
    (by decide) (fun gap none => absurd none (by simp [sampleGenCfg, generatorConfig, oneFlow,
      sampleFlows])) (by unfold DelaysFit; decide)).mpr (Or.inr ⟨by decide, ?_⟩)
  intro pos later (among : pos < 2) multiple within
  obtain rfl : pos = 1 := by omega
  have product : (ifGap + sinceFirst none [0, 500000] 1).toNat * (1 : UInt64).toNat = 600000 := rfl
  have small := product ▸ within
  obtain rfl : multiple = 0 := by omega
  exact Nat.zero_le _

/-- The second packet of a capture is stored a tenth of a second late, and so is the third, which
also counts the delay of the second once more. -/
theorem delaysFromPrevious_fails : ∃ pkts ops',
    loadPkts (envOpening (captureFile (capturedAt [(0, 0), (1, 0), (3, 0)]))) sampleGenCfg {} =
      (.ok pkts, ops') ∧
    ([0, 1000000, 3000000].Pairwise (· ≤ ·) ∧ DelaysFit 1000000 none [0, 1000000, 3000000]) ∧
    pkts.map Pkt.relTsc = [100000, 1100000, 3100000] ∧
    ¬ DelaysFromPrevious 1000000 none [0, 1000000, 3000000] pkts := by
  have loaded : loadedDelays (envOpening (captureFile (capturedAt [(0, 0), (1, 0), (3, 0)]))) =
      some [100000, 1100000, 3100000] := by
    decide +kernel
  obtain ⟨pkts, ops', run, delays⟩ := loadedDelays_run loaded
  refine ⟨pkts, ops', run, ⟨by decide, by unfold DelaysFit; decide⟩, delays, fun previous => ?_⟩
  have third := congrArg (fun tscs => tscs[2]?) delays
  rw [List.getElem?_map] at third
  obtain ⟨pkt, found, delay⟩ := Option.map_eq_some_iff.mp third
  exact absurd (delay.symm.trans (previous 2 pkt (by decide) found)) (by decide)

/-! ### Delays that wrap -/

/-- The largest difference between two time stamps. -/
def spread (tstamps : List ℕ) : ℕ := tstamps.max?.getD 0 - tstamps.min?.getD 0

theorem sub_le_spread {tstamps : List ℕ} {first second : ℕ} (firstAmong : first ∈ tstamps)
    (secondAmong : second ∈ tstamps) : first - second ≤ spread tstamps := by
  have most : first ≤ tstamps.max?.getD 0 := List.le_max?_getD_of_mem firstAmong
  have least : tstamps.min?.getD 0 ≤ second := List.min?_getD_le_of_mem secondAmong
  rw [spread]
  omega

/-- No stored delay is longer than the largest difference and the gap between two passes. -/
def DelaysBounded (hz : UInt64) (tstamps : List ℕ) (pkts : List Pkt) : Prop :=
  ∀ pkt ∈ pkts, pkt.relTsc.toNat * 1000000 ≤ (spread tstamps + 100000) * hz.toNat

/-- A packet is no earlier than the gap between two passes before the first one, or so early that
the wrapped product is within a bound again. -/
def NotTooEarly (hz : UInt64) (bound first tstamp : ℕ) : Prop :=
  tstamp + 100000 < first →
    2 ^ 64 < (first - tstamp - 100000) * hz.toNat + (bound / 1000000 + 1) * 1000000

/-- A delay that is not negative is never too long: the product can only lose by wrapping. -/
theorem delay_bounded {hz : UInt64} {total bound : ℕ} (within : total * hz.toNat ≤ bound) :
    (Cycles.fromDuration hz .microseconds total).toNat * 1000000 ≤ bound := by
  rw [Cycles.toNat_fromDuration]
  exact (Nat.div_mul_le_self _ _).trans ((Nat.mod_le _ _).trans within)

/-- A negative one is within a bound that is at least as long exactly when the two come around. -/
theorem negative_delay_bounded_iff {hz : UInt64} {late bound : ℕ} (positive : 0 < late * hz.toNat)
    (within : late * hz.toNat ≤ bound) :
    (Cycles.fromDuration hz .microseconds (-(late : Int))).toNat * 1000000 ≤ bound ↔
      2 ^ 64 < late * hz.toNat + (bound / 1000000 + 1) * 1000000 := by
  rw [Cycles.toNat_fromDuration_neg,
    show DurationUnit.microseconds.perSecond.toNat = 1000000 from rfl]
  generalize late * hz.toNat = product at positive within ⊢
  omega

/-- The delays of an accepted capture are within the bound exactly when no packet is too early. -/
theorem delaysBounded_iff {cfg : FlowsGeneratorConfig} {pkts : List Pkt} {file : File}
    {hdr : PcapHdr} {records : List Record} {tail : List UInt8}
    (run : loadPkts env cfg ops = (.ok pkts, ops')) (opens : env.fopen cfg.capFpath = .ok file)
    (clear : file.eof = false) (capture : CaptureOf file.data hdr records tail)
    (noGap : cfg.interPktsGap = none) (frequency : 1000000 ≤ env.hz.toNat) :
    DelaysBounded env.hz (tstampsOf records) pkts ↔ ∀ tstamp ∈ tstampsOf records,
      NotTooEarly env.hz ((spread (tstampsOf records) + 100000) * env.hz.toNat)
        ((tstampsOf records).headD 0) tstamp := by
  obtain ⟨length, delays⟩ := loadPkts_delay run opens clear capture
  rw [noGap] at delays
  have each : ∀ (pos : ℕ) (low : pos < pkts.length) (high : pos < (tstampsOf records).length),
      (pkts[pos].relTsc.toNat * 1000000 ≤ (spread (tstampsOf records) + 100000) * env.hz.toNat ↔
        NotTooEarly env.hz ((spread (tstampsOf records) + 100000) * env.hz.toNat)
          ((tstampsOf records).headD 0) (tstampsOf records)[pos]) := by
    intro pos low high
    have start : 0 < (tstampsOf records).length := Nat.zero_lt_of_lt high
    rw [delays pos _ (List.getElem?_eq_getElem low), sinceFirst, Option.elim_none,
      List.getD_eq_getElem?_getD, List.getD_eq_getElem?_getD, List.getElem?_eq_getElem high,
      List.getElem?_eq_getElem start, Option.getD_some, Option.getD_some,
      List.headD_eq_head?_getD, List.head?_eq_getElem?, List.getElem?_eq_getElem start,
      Option.getD_some]
    have ahead := sub_le_spread (List.getElem_mem high) (List.getElem_mem start)
    have behind := sub_le_spread (List.getElem_mem start) (List.getElem_mem high)
    generalize (tstampsOf records)[pos] = tstamp at ahead behind ⊢
    generalize (tstampsOf records)[0] = first at ahead behind ⊢
    have gap : ifGap = 100000 := rfl
    rw [NotTooEarly]
    by_cases early : tstamp + 100000 < first
    · rw [show ifGap + ((tstamp : Int) - first) = -((first - tstamp - 100000 : ℕ) : Int) by omega,
        negative_delay_bounded_iff (Nat.mul_pos (by omega) (by omega))
          (Nat.mul_le_mul_right _ (by omega))]
      exact ⟨fun around _ => around, fun implied => implied early⟩
    · rw [show ifGap + ((tstamp : Int) - first) = ((tstamp + 100000 - first : ℕ) : Int) by omega]
      exact iff_of_true (delay_bounded (Nat.mul_le_mul_right _ (by omega)))
        fun late => absurd late early
  have sizes : pkts.length = (tstampsOf records).length := by
    rw [length, tstampsOf, List.length_map]
  constructor
  · intro bounded tstamp member
    obtain ⟨pos, high, rfl⟩ := List.getElem_of_mem member
    have low : pos < pkts.length := sizes ▸ high
    exact (each pos low high).mp (bounded _ (List.getElem_mem low))
  · intro notEarly pkt member
    obtain ⟨pos, low, rfl⟩ := List.getElem_of_mem member
    have high : pos < (tstampsOf records).length := sizes ▸ low
    exact (each pos low high).mpr (notEarly _ (List.getElem_mem high))

/-- A packet may be a little earlier than the first. -/
theorem delaysBounded_slightlyEarly : ∃ pkts ops',
    loadPkts (envOpening (captureFile (capturedAt [(1, 0), (0, 950000)]))) sampleGenCfg {} =
      (.ok pkts, ops') ∧ DelaysBounded 1000000 [1000000, 950000] pkts := by
  have loaded : loadedDelays (envOpening (captureFile (capturedAt [(1, 0), (0, 950000)]))) =
      some [100000, 50000] := by
    decide +kernel
  obtain ⟨pkts, ops', run, -⟩ := loadedDelays_run loaded
  refine ⟨pkts, ops', run, ?_⟩
  exact (delaysBounded_iff run rfl rfl (captureFile_captureOf (capturedAt_fits _)) rfl
    (by decide)).mpr (by unfold NotTooEarly; decide)

/-- One that is a second earlier is stored with a delay of more than two hundred days. -/
theorem delaysBounded_wraps : ∃ pkts ops',
    loadPkts (envOpening (captureFile (capturedAt [(1, 0), (0, 0)]))) sampleGenCfg {} =
      (.ok pkts, ops') ∧
    pkts.map Pkt.relTsc = [100000, 18446743173709] ∧
    ¬ DelaysBounded 1000000 [1000000, 0] pkts := by
  have loaded : loadedDelays (envOpening (captureFile (capturedAt [(1, 0), (0, 0)]))) =
      some [100000, 18446743173709] := by
    decide +kernel
  obtain ⟨pkts, ops', run, delays⟩ := loadedDelays_run loaded
  refine ⟨pkts, ops', run, delays, fun bounded => ?_⟩
  have among : (18446743173709 : Cycles) ∈ pkts.map Pkt.relTsc := by
    rw [delays]
    decide
  obtain ⟨pkt, member, delay⟩ := List.mem_map.mp among
  have small := bounded pkt member
  rw [delay] at small
  exact absurd small (by decide)

end TrafficGenerator
