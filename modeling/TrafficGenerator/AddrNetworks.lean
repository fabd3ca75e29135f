/-
This file compares the addresses of the flows with the networks they are
configured from. The hosts of a network are all in it, for every prefix length,
so a generator stays in its networks as long as its iterators stay among the
hosts. They do unless there is no host: the range of a network with prefix
length 31 ends where it begins, and an iterator that is advanced once has passed
the end.
-/

import TrafficGenerator.AddrRotation

namespace TrafficGenerator

variable {env : Env}

/-! ### Masks -/

/-- A mask of the high bits of a number clears the others. -/
theorem and_highMask {num width low : ℕ} (bound : num < 2 ^ width) (shorter : low ≤ width) :
    num &&& (2 ^ width - 2 ^ low) = num / 2 ^ low * 2 ^ low := by
  have mask : 2 ^ width - 2 ^ low = (2 ^ (width - low) - 1) * 2 ^ low := by
    rw [Nat.sub_mul, Nat.one_mul, ← Nat.pow_add, Nat.sub_add_cancel shorter]
  have high : (num &&& (2 ^ width - 2 ^ low)) / 2 ^ low = num / 2 ^ low := by
    rw [Nat.and_div_two_pow, mask, Nat.mul_div_cancel _ (Nat.two_pow_pos low)]
    refine Nat.and_two_pow_sub_one_of_lt_two_pow (Nat.div_lt_of_lt_mul ?_)
    rwa [← Nat.pow_add, Nat.add_sub_cancel' shorter]
  have rest : (num &&& (2 ^ width - 2 ^ low)) % 2 ^ low = 0 := by
    rw [Nat.and_mod_two_pow, mask, Nat.mul_mod_left, Nat.and_zero]
  rw [← high, Nat.div_mul_cancel (Nat.dvd_of_mod_eq_zero rest)]

/-- A multiple of a power of two with the low bits set. -/
theorem or_lowBits (num low : ℕ) :
    num / 2 ^ low * 2 ^ low ||| (2 ^ low - 1) = num / 2 ^ low * 2 ^ low + (2 ^ low - 1) := by
  rw [Nat.mul_comm]
  exact (Nat.two_pow_add_eq_or_of_lt (Nat.sub_lt (Nat.two_pow_pos low) Nat.one_pos) _).symm

/-! ### The hosts of a network -/

/-- The number of bits of an address that the prefix leaves. -/
def NetworkV4.hostBits (net : NetworkV4) : ℕ := 32 - net.prefixLength

theorem NetworkV4.hostBits_le (net : NetworkV4) : net.hostBits ≤ 32 := Nat.sub_le _ _

/-- The address belongs to the network. -/
def NetworkV4.Contains (net : NetworkV4) (addr : UInt32) : Prop :=
  addr &&& net.netmask = net.network

instance (net : NetworkV4) (addr : UInt32) : Decidable (net.Contains addr) :=
  inferInstanceAs (Decidable (_ = _))

theorem NetworkV4.netmask_toNat (net : NetworkV4) :
    net.netmask.toNat = 2 ^ 32 - 2 ^ net.hostBits := by
  refine UInt32.toNat_ofNat_of_lt' (Nat.sub_lt (by decide) ?_)
  exact Nat.two_pow_pos _

theorem NetworkV4.masked_toNat (net : NetworkV4) (addr : UInt32) :
    (addr &&& net.netmask).toNat = addr.toNat / 2 ^ net.hostBits * 2 ^ net.hostBits := by
  rw [UInt32.toNat_and, net.netmask_toNat]
  exact and_highMask addr.toNat_lt net.hostBits_le

/-- The first address of the network, as a number. -/
theorem NetworkV4.network_toNat (net : NetworkV4) :
    net.network.toNat = net.address.toNat / 2 ^ net.hostBits * 2 ^ net.hostBits :=
  net.masked_toNat net.address

theorem NetworkV4.network_lt (net : NetworkV4) :
    net.network.toNat + 2 ^ net.hostBits ≤ 2 ^ 32 := by
  have split : 2 ^ 32 = 2 ^ (32 - net.hostBits) * 2 ^ net.hostBits := by
    rw [← Nat.pow_add, Nat.sub_add_cancel net.hostBits_le]
  have below : net.address.toNat / 2 ^ net.hostBits < 2 ^ (32 - net.hostBits) :=
    Nat.div_lt_of_lt_mul (by
      rw [Nat.mul_comm, ← split]
      exact net.address.toNat_lt)
  rw [net.network_toNat, split, ← Nat.succ_mul]
  exact Nat.mul_le_mul_right _ below

/-- The last address of the network, as a number. -/
theorem NetworkV4.broadcast_toNat (net : NetworkV4) :
    net.broadcast.toNat = net.network.toNat + (2 ^ net.hostBits - 1) := by
  have whole : 2 ^ net.hostBits ≤ 2 ^ 32 := Nat.pow_le_pow_right Nat.two_pos net.hostBits_le
  have low : (~~~net.netmask).toNat = 2 ^ net.hostBits - 1 := by
    rw [UInt32.toNat_not, net.netmask_toNat]
    show 2 ^ 32 - 1 - (2 ^ 32 - 2 ^ net.hostBits) = _
    omega
  rw [broadcast, UInt32.toNat_or, low, net.network_toNat]
  exact or_lowBits _ _

/-- The addresses of a network are those from the first on. -/
theorem NetworkV4.contains_iff (net : NetworkV4) {addr : UInt32} {offset : ℕ}
    (place : addr.toNat = net.network.toNat + offset) :
    net.Contains addr ↔ offset < 2 ^ net.hostBits := by
  have positive := Nat.two_pow_pos net.hostBits
  rw [Contains, ← UInt32.toNat_inj, net.masked_toNat, place, net.network_toNat,
    Nat.add_comm, Nat.add_mul_div_right _ _ positive, Nat.add_mul]
  constructor
  · intro same
    have none : offset / 2 ^ net.hostBits * 2 ^ net.hostBits = 0 := by omega
    rcases Nat.mul_eq_zero.mp none with zero | zero
    · exact (Nat.div_eq_zero_iff.mp zero).resolve_left (by omega)
    · omega
  · intro below
    rw [Nat.div_eq_of_lt below, Nat.zero_mul, Nat.zero_add]

/-- The hosts of a network that has more than its own and the broadcast address: all but these
two. -/
theorem NetworkV4.hosts_wide (net : NetworkV4) (wide : 2 ≤ net.hostBits) :
    net.hosts.first.toNat = net.network.toNat + 1 ∧
      net.hosts.size = 2 ^ net.hostBits - 2 := by
  have room := net.network_lt
  have four : 2 ^ 2 ≤ 2 ^ net.hostBits := Nat.pow_le_pow_right Nat.two_pos wide
  have several : net.prefixLength ≠ 32 := by
    intro single
    rw [hostBits, single] at wide
    exact absurd wide (by decide)
  have first : (net.network + 1).toNat = net.network.toNat + 1 := by
    rw [UInt32.toNat_add]
    exact Nat.mod_eq_of_lt (show net.network.toNat + 1 < 2 ^ 32 by omega)
  rw [AddrRange.size, hosts, if_neg several]
  refine ⟨first, ?_⟩
  rw [UInt32.toNat_sub_of_le, first, net.broadcast_toNat]
  · omega
  · rw [UInt32.le_iff_toNat_le, first, net.broadcast_toNat]
    omega

/-- The range of a network with prefix length 31 ends where it begins. -/
theorem NetworkV4.hosts_point {net : NetworkV4} (point : net.prefixLength = 31) :
    net.hosts.first.toNat = net.network.toNat + 1 ∧ net.hosts.size = 0 := by
  have bits : net.hostBits = 1 := by rw [hostBits, point]
  have room := net.network_lt
  rw [bits] at room
  have first : (net.network + 1).toNat = net.network.toNat + 1 := by
    rw [UInt32.toNat_add]
    exact Nat.mod_eq_of_lt (show net.network.toNat + 1 < 2 ^ 32 by omega)
  have same : net.broadcast = net.network + 1 := by
    rw [← UInt32.toNat_inj, first, net.broadcast_toNat, bits]
    rfl
  rw [AddrRange.size, hosts, if_neg (by rw [point]; decide), same]
  exact ⟨first, by rw [UInt32.sub_self]; rfl⟩

/-- All hosts are in the network, unless the prefix length is 31. -/
theorem NetworkV4.contains_host {net : NetworkV4} (several : net.prefixLength ≠ 31) (num : ℕ) :
    net.Contains (net.hosts.host num) ∧ 0 < net.hosts.size := by
  by_cases single : net.prefixLength = 32
  · have size : net.hosts.size = 1 := by
      rw [AddrRange.size, hosts, if_pos single]
      show (net.address + 1 - net.address).toNat = 1
      rw [show net.address + 1 - net.address = 1 by grind]
      rfl
    have host : net.hosts.host num = net.address := by
      rw [AddrRange.host, size, Nat.mod_one, hosts, if_pos single]
      exact UInt32.add_zero _
    rw [host, size]
    exact ⟨rfl, Nat.one_pos⟩
  · have wide : 2 ≤ net.hostBits := by
      have valid := net.valid
      rw [hostBits]
      omega
    have room := net.network_lt
    have four : 2 ^ 2 ≤ 2 ^ net.hostBits := Nat.pow_le_pow_right Nat.two_pos wide
    obtain ⟨first, size⟩ := net.hosts_wide wide
    have nonempty : 0 < net.hosts.size := by omega
    have below := Nat.mod_lt num nonempty
    have place : (net.hosts.host num).toNat =
        net.network.toNat + (1 + num % net.hosts.size) := by
      rw [AddrRange.host, UInt32.toNat_add, first, UInt32.toNat_ofNat', Nat.add_mod_mod,
        Nat.mod_eq_of_lt (by omega), Nat.add_assoc]
    exact ⟨(net.contains_iff place).mpr (by omega), nonempty⟩

/-- The first host is in the network always, as the address an iterator begins at. -/
theorem NetworkV4.contains_first (net : NetworkV4) : net.Contains (net.hosts.host 0) := by
  by_cases point : net.prefixLength = 31
  · have place := (hosts_point point).1
    have bits : net.hostBits = 1 := by rw [hostBits, point]
    rw [AddrRange.host_zero]
    exact (net.contains_iff place).mpr (by rw [bits]; decide)
  · exact (contains_host point 0).1

/-! ### The iterators -/

/-- An iterator is among the addresses of its range, or at its end. -/
def AddrRange.Within (rng : AddrRange) (iterator : UInt32) : Prop :=
  (iterator - rng.first).toNat ≤ rng.size

instance (rng : AddrRange) (iterator : UInt32) : Decidable (rng.Within iterator) :=
  inferInstanceAs (Decidable (_ ≤ _))

theorem AddrRange.offset_host (rng : AddrRange) (num : ℕ) :
    (rng.host num - rng.first).toNat = num % rng.size % 2 ^ 32 := by
  rw [host, show rng.first + UInt32.ofNat (num % rng.size) - rng.first =
    UInt32.ofNat (num % rng.size) by grind, UInt32.toNat_ofNat']

/-- In a range with hosts an iterator does not pass the end. -/
theorem AddrRange.within_host {rng : AddrRange} (nonempty : 0 < rng.size) (num : ℕ) :
    rng.Within (rng.host num) := by
  rw [Within, rng.offset_host]
  exact Nat.le_trans (Nat.mod_le _ _) (Nat.le_of_lt (Nat.mod_lt _ nonempty))

theorem AddrRange.within_first (rng : AddrRange) : rng.Within (rng.host 0) := by
  rw [Within, rng.offset_host, Nat.zero_mod, Nat.zero_mod]
  exact Nat.zero_le _

/-- In a range without hosts it passes the end when it is advanced. -/
theorem AddrRange.not_within_host {rng : AddrRange} (empty : rng.size = 0) {num : ℕ}
    (positive : 0 < num) (bound : num < 2 ^ 32) : ¬ rng.Within (rng.host num) := by
  rw [Within, rng.offset_host, empty, Nat.mod_zero, Nat.mod_eq_of_lt bound]
  omega

/-! ### Whole runs -/

/-- The flows have addresses of the configured networks, and the iterators are not past their
ends. -/
structure FlowsGenerator.InNetworks (cfg : FlowsGeneratorConfig) (gen : FlowsGenerator) :
    Prop where
  clnIpAddr : ∀ fl ∈ gen.flows, cfg.clnIpAddrs.Contains fl.clnIpAddr
  srvIpAddr : ∀ fl ∈ gen.flows, cfg.srvIpAddrs.Contains fl.srvIpAddr
  clnIterator : gen.clnIpAddrs.Within gen.cursor.clnIpAddr
  srvIterator : gen.srvIpAddrs.Within gen.cursor.srvIpAddr

/-- A generator after a number of assignments: its flows have pairs that were assigned. -/
structure FlowsGenerator.Handed (cfg : FlowsGeneratorConfig) (count : ℕ) (gen : FlowsGenerator) :
    Prop where
  clnIpAddrs : gen.clnIpAddrs = cfg.clnIpAddrs.hosts
  srvIpAddrs : gen.srvIpAddrs = cfg.srvIpAddrs.hosts
  burstCnt : gen.burstCnt = cfg.burst
  assigned : gen.Assigned count
  addrs : ∀ fl ∈ gen.flows, ∃ pos < count,
    fl.clnIpAddr = cfg.clnIpAddrs.hosts.host (pos / cfg.burst.toNat) ∧
    fl.srvIpAddr = cfg.srvIpAddrs.hosts.host (pos / cfg.burst.toNat)

theorem Constructed.handed {cfg : FlowsGeneratorConfig} {gen : FlowsGenerator}
    (start : Constructed cfg gen) : gen.Handed cfg cfg.flowsPerSec.toNat where
  clnIpAddrs := start.clnIpAddrs
  srvIpAddrs := start.srvIpAddrs
  burstCnt := start.burstCnt
  assigned := start.assigned
  addrs fl member := by
    obtain ⟨pos, found⟩ := List.mem_iff_getElem?.mp member
    refine ⟨pos, ?_, start.addrs pos fl found⟩
    rw [← start.length]
    exact (List.getElem?_eq_some_iff.mp found).1

/-- One event, with the assignment it makes. -/
theorem FlowsGenerator.Handed.step {cfg : FlowsGeneratorConfig} {gen next : FlowsGenerator}
    {event : FlowEvent} {count : ℕ} (burst : 0 < cfg.burst.toNat) (handed : gen.Handed cfg count)
    (step : replayStep env gen event = some next) :
    next.Handed cfg (count + (restart gen next event.flow).toList.length) := by
  have burst' : 0 < gen.burstCnt.toNat := by rwa [handed.burstCnt]
  obtain ⟨assigned, made⟩ := handed.assigned.step burst' step
  obtain ⟨clnIpAddrs, srvIpAddrs, burstCnt, others, fl, fl', found, found', cases⟩ :=
    replayStep_addrs step
  rw [handed.clnIpAddrs, handed.srvIpAddrs, handed.burstCnt] at made
  refine ⟨clnIpAddrs.trans handed.clnIpAddrs, srvIpAddrs.trans handed.srvIpAddrs,
    burstCnt.trans handed.burstCnt, assigned, fun other member => ?_⟩
  have earlier : other ∈ gen.flows → ∃ pos < count + (restart gen next event.flow).toList.length,
      other.clnIpAddr = cfg.clnIpAddrs.hosts.host (pos / cfg.burst.toNat) ∧
      other.srvIpAddr = cfg.srvIpAddrs.hosts.host (pos / cfg.burst.toNat) := by
    intro among
    obtain ⟨pos, below, pair⟩ := handed.addrs other among
    exact ⟨pos, Nat.lt_add_right _ below, pair⟩
  obtain ⟨at', foundOther⟩ := List.mem_iff_getElem?.mp member
  by_cases same : at' = event.flow
  · rw [same, found'] at foundOther
    obtain rfl := Option.some.inj foundOther
    rcases cases with ⟨new, -⟩ | ⟨none, cln, srv, -⟩
    · rw [new]
      exact ⟨count, Nat.lt_succ_self _, made _ new⟩
    · obtain ⟨pos, below, pair⟩ := handed.addrs fl (List.mem_of_getElem? found)
      exact ⟨pos, Nat.lt_add_right _ below, cln.trans pair.1, srv.trans pair.2⟩
  · exact earlier (List.mem_of_getElem? ((others at' same).symm.trans foundOther))

/-- Neither network has prefix length 31. -/
def FlowsGeneratorConfig.HostsExist (cfg : FlowsGeneratorConfig) : Prop :=
  cfg.clnIpAddrs.prefixLength ≠ 31 ∧ cfg.srvIpAddrs.prefixLength ≠ 31

/-- A generator is in its networks when these have hosts, or when the iterators have not been
advanced yet. -/
theorem FlowsGenerator.Handed.inNetworks {cfg : FlowsGeneratorConfig} {gen : FlowsGenerator}
    {count : ℕ} (handed : gen.Handed cfg count)
    (fits : cfg.HostsExist ∨ count < cfg.burst.toNat) : gen.InNetworks cfg := by
  have cln := handed.assigned.clnIpAddr
  have srv := handed.assigned.srvIpAddr
  rcases fits with ⟨clnHosts, srvHosts⟩ | few
  · refine ⟨fun fl member => ?_, fun fl member => ?_, ?_, ?_⟩
    · obtain ⟨pos, -, clnPair, -⟩ := handed.addrs fl member
      rw [clnPair]
      exact (NetworkV4.contains_host clnHosts _).1
    · obtain ⟨pos, -, -, srvPair⟩ := handed.addrs fl member
      rw [srvPair]
      exact (NetworkV4.contains_host srvHosts _).1
    · rw [cln, handed.clnIpAddrs]
      exact AddrRange.within_host (NetworkV4.contains_host clnHosts 0).2 _
    · rw [srv, handed.srvIpAddrs]
      exact AddrRange.within_host (NetworkV4.contains_host srvHosts 0).2 _
  · refine ⟨fun fl member => ?_, fun fl member => ?_, ?_, ?_⟩
    · obtain ⟨pos, below, clnPair, -⟩ := handed.addrs fl member
      rw [clnPair, Nat.div_eq_of_lt (Nat.lt_trans below few)]
      exact cfg.clnIpAddrs.contains_first
    · obtain ⟨pos, below, -, srvPair⟩ := handed.addrs fl member
      rw [srvPair, Nat.div_eq_of_lt (Nat.lt_trans below few)]
      exact cfg.srvIpAddrs.contains_first
    · rw [cln, handed.burstCnt, Nat.div_eq_of_lt few]
      exact AddrRange.within_first _
    · rw [srv, handed.burstCnt, Nat.div_eq_of_lt few]
      exact AddrRange.within_first _

/-- When a network has no hosts, a whole burst takes an iterator past its end. -/
theorem FlowsGenerator.Handed.pastEnd {cfg : FlowsGeneratorConfig} {gen : FlowsGenerator}
    {count : ℕ} (handed : gen.Handed cfg count) (point : ¬ cfg.HostsExist)
    (advanced : 0 < count / cfg.burst.toNat) (bound : count / cfg.burst.toNat < 2 ^ 32) :
    ¬ gen.InNetworks cfg := by
  intro inside
  have cln := inside.clnIterator
  have srv := inside.srvIterator
  rw [handed.assigned.clnIpAddr, handed.clnIpAddrs, handed.burstCnt] at cln
  rw [handed.assigned.srvIpAddr, handed.srvIpAddrs, handed.burstCnt] at srv
  rcases not_and_or.mp point with clnPoint | srvPoint
  · exact AddrRange.not_within_host (NetworkV4.hosts_point (not_not.mp clnPoint)).2 advanced
      bound cln
  · exact AddrRange.not_within_host (NetworkV4.hosts_point (not_not.mp srvPoint)).2 advanced
      bound srv

/-- The assignments of the events of a run that takes a first step. -/
theorem restarts_cons {gen next : FlowsGenerator} {event : FlowEvent} (rest : List FlowEvent)
    (step : replayStep env gen event = some next) :
    (restarts env gen (event :: rest)).length =
      (restart gen next event.flow).toList.length + (restarts env next rest).length := by
  rw [restarts, step]
  exact List.length_append

/-- From a first part of a run in which no burst was completed: the run is in the networks when
they have hosts or no burst is completed in the rest either. -/
theorem FlowsGenerator.Handed.allStates {cfg : FlowsGeneratorConfig} {gen : FlowsGenerator}
    {count : ℕ} (burst : 0 < cfg.burst.toNat) (handed : gen.Handed cfg count)
    {events : List FlowEvent}
    (fits : cfg.HostsExist ∨ count + (restarts env gen events).length < cfg.burst.toNat) :
    (replayMachine env).AllStates (InNetworks cfg) gen events := by
  have here : gen.InNetworks cfg :=
    handed.inNetworks (fits.imp_right (Nat.lt_of_le_of_lt (Nat.le_add_right _ _)))
  induction events generalizing gen count with
  | nil => exact here
  | cons event rest inductionHypothesis =>
    refine ⟨here, fun next step => ?_⟩
    have later := handed.step burst step
    rw [restarts_cons rest step, ← Nat.add_assoc] at fits
    exact inductionHypothesis later fits
      (later.inNetworks (fits.imp_right (Nat.lt_of_le_of_lt (Nat.le_add_right _ _))))

/-- Without hosts the states of a run are in the networks only as long as no burst is
completed. -/
theorem FlowsGenerator.Handed.few {cfg : FlowsGeneratorConfig} {gen : FlowsGenerator} {count : ℕ}
    (burst : 0 < cfg.burst.toNat) (handed : gen.Handed cfg count) (point : ¬ cfg.HostsExist)
    (start : count < cfg.burst.toNat) {events : List FlowEvent}
    (inside : (replayMachine env).AllStates (InNetworks cfg) gen events) :
    count + (restarts env gen events).length < cfg.burst.toNat := by
  induction events generalizing gen count with
  | nil => exact start
  | cons event rest inductionHypothesis =>
    cases step : replayStep env gen event with
    | none =>
      rw [restarts, step]
      exact start
    | some next =>
      have later := handed.step burst step
      have insideLater := inside.2 next step
      rw [restarts_cons rest step, ← Nat.add_assoc]
      refine inductionHypothesis later ?_ insideLater
      -- at most one assignment is made; the one that completes a burst would pass the end
      have one : (restart gen next event.flow).toList.length ≤ 1 := by
        cases restart gen next event.flow with
        | none => exact Nat.zero_le _
        | some new => exact Nat.le_refl _
      rcases Nat.lt_or_eq_of_le (Nat.le_trans (Nat.add_le_add_left one count) start) with
        below | full
      · exact below
      · refine absurd insideLater.head (later.pastEnd point ?_ ?_)
        · rw [full, Nat.div_self burst]
          exact Nat.one_pos
        · rw [full, Nat.div_self burst]
          decide

/-- The generated addresses stay inside the networks, and the iterators inside their ranges, in
every state of a run exactly when neither network has prefix length 31, or the run has fewer flow
starts than a burst. -/
theorem addresses_in_networks_iff (env : Env) (cfg : FlowsGeneratorConfig) {ops ops' : Ops}
    {gen : FlowsGenerator} (burst : 1 ≤ cfg.burst.toNat)
    (built : FlowsGenerator.construct env cfg ops = (.ok gen, ops')) (events : List FlowEvent) :
    (replayMachine env).AllStates (FlowsGenerator.InNetworks cfg) gen events ↔
      (cfg.clnIpAddrs.prefixLength ≠ 31 ∧ cfg.srvIpAddrs.prefixLength ≠ 31) ∨
        (assignments env gen events).length < cfg.burst.toNat := by
  have start := constructed burst built
  have handed := start.handed
  rw [assignments, List.length_append, List.length_mapIdx, start.length]
  constructor
  · intro inside
    by_cases hosts : cfg.HostsExist
    · exact Or.inl hosts
    · refine Or.inr (handed.few burst hosts ?_ inside)
      rcases Nat.lt_or_ge cfg.flowsPerSec.toNat cfg.burst.toNat with below | full
      · exact below
      · refine absurd inside.head (handed.pastEnd hosts ?_ ?_)
        · exact Nat.div_pos full burst
        · exact Nat.lt_of_le_of_lt (Nat.div_le_self _ _) (UInt32.toNat_lt _)
  · exact fun fits => handed.allStates burst fits

/-- With the sample networks, of prefix length 24. -/
theorem addresses_in_networks_sample : ∃ gen ops',
    FlowsGenerator.construct (sampleEnv samplePool) sampleGenCfg {} = (.ok gen, ops') ∧
      ((replayMachine (sampleEnv samplePool)).AllStates
          (FlowsGenerator.InNetworks sampleGenCfg) gen [sampleEvent, sampleEvent] ↔
        (sampleGenCfg.clnIpAddrs.prefixLength ≠ 31 ∧
          sampleGenCfg.srvIpAddrs.prefixLength ≠ 31) ∨
        (assignments (sampleEnv samplePool) gen [sampleEvent, sampleEvent]).length <
          sampleGenCfg.burst.toNat) := by
  obtain ⟨gen, ops', built, -⟩ := sample_construct sampleGenCfg rfl (by decide) {}
  exact ⟨gen, ops', built,
    addresses_in_networks_iff (sampleEnv samplePool) sampleGenCfg (by decide) built _⟩

/-- A network of two addresses, neither of which is a host. -/
def pointNet : NetworkV4 := ⟨0x0A000000, 31, by decide⟩

/-- One flow, restarted after each packet, with that network for both sides. -/
def pointGenCfg : FlowsGeneratorConfig :=
  generatorConfig (sampleEnv samplePool) "" sampleAddr 0
    { oneFlow with clnIps := pointNet, srvIps := pointNet }

/-- The first restart gives the flow an address outside the network. -/
theorem addresses_leave_network : ∃ gen ops' final,
    FlowsGenerator.construct (sampleEnv samplePool) pointGenCfg {} = (.ok gen, ops') ∧
      (replayMachine (sampleEnv samplePool)).run gen [sampleEvent] = some final ∧
      (∃ fl ∈ final.flows, ¬ pointNet.Contains fl.clnIpAddr) ∧
      ¬ final.clnIpAddrs.Within final.cursor.clnIpAddr := by
  obtain ⟨gen, ops', built, -⟩ := sample_construct pointGenCfg rfl (by decide) {}
  have moved : (((FlowsGenerator.construct (sampleEnv samplePool) pointGenCfg {}).1.toOption.bind
      fun gen => (replayMachine (sampleEnv samplePool)).run gen [sampleEvent]).map fun final =>
        (final.flows.map fun fl => fl.clnIpAddr, final.clnIpAddrs, final.cursor.clnIpAddr)) =
      some ([0x0A000002], ⟨0x0A000001, 0x0A000001⟩, 0x0A000003) := by
    decide +kernel
  rw [built] at moved
  obtain ⟨final, run, values⟩ := Option.map_eq_some_iff.mp moved
  obtain ⟨flows, rest⟩ := Prod.mk.inj values
  obtain ⟨range, iterator⟩ := Prod.mk.inj rest
  refine ⟨gen, ops', final, built, run, ?_, ?_⟩
  · obtain ⟨fl, member, addr⟩ := List.mem_map.mp (flows ▸ List.mem_cons_self :
      (0x0A000002 : UInt32) ∈ final.flows.map fun fl => fl.clnIpAddr)
    exact ⟨fl, member, by rw [addr]; decide⟩
  · rw [range, iterator]
    decide

end TrafficGenerator
