/-
This file models the data of `mgmt/gen_config.h` and the IPv4 networks it
holds. The bounds the constructor checks are fields, so a configuration that the
constructor would have refused cannot be built.
-/

import Mathlib.Algebra.Order.Ring.Int
import Mathlib.Algebra.Order.Ring.Nat

namespace TrafficGenerator

/-- `rte_ether_addr`: six bytes. -/
structure EtherAddr where
  addrBytes : List UInt8
  six : addrBytes.length = 6
deriving DecidableEq

/-- `boost::asio::ip::network_v4`: an address and a prefix length. -/
structure NetworkV4 where
  address : UInt32
  prefixLength : ℕ
  valid : prefixLength ≤ 32
deriving DecidableEq

def NetworkV4.netmask (net : NetworkV4) : UInt32 :=
  UInt32.ofNat (2 ^ 32 - 2 ^ (32 - net.prefixLength))

def NetworkV4.network (net : NetworkV4) : UInt32 := net.address &&& net.netmask

def NetworkV4.broadcast (net : NetworkV4) : UInt32 := net.network ||| ~~~net.netmask

/-- `address_v4_range`: the addresses from `first` up to, not including, `last`. An iterator
is the address it points at. -/
structure AddrRange where
  first : UInt32
  last : UInt32
deriving DecidableEq

/-- `network_v4::hosts`. -/
def NetworkV4.hosts (net : NetworkV4) : AddrRange :=
  if net.prefixLength = 32 then ⟨net.address, net.address + 1⟩
  else ⟨net.network + 1, net.broadcast⟩

/-- `mgmt::flows_config`, with the limits the constructor of `gen_config` checks. -/
structure FlowsConfig where
  name : String
  burst : UInt32
  flowsPerSec : UInt32
  /-- In microseconds. -/
  interPktsGap : Option Int
  clnIps : NetworkV4
  srvIps : NetworkV4
  clnPort : Option UInt16
  burstLimits : 1 ≤ burst ∧ burst ≤ 5
  fpsLimits : 1 ≤ flowsPerSec ∧ flowsPerSec ≤ 1000000
  ipgLimits : ∀ gap ∈ interPktsGap, 1 ≤ gap ∧ gap ≤ 1000000
  portLimits : ∀ port ∈ clnPort, 1024 ≤ port

/-- `mgmt::gen_config`. -/
structure GenConfig where
  /-- In milliseconds, a signed 64-bit count. -/
  duration : Int
  dutAddr : EtherAddr
  flowsCfgs : List FlowsConfig
  durationFits : -2 ^ 63 ≤ duration ∧ duration < 2 ^ 63

end TrafficGenerator
