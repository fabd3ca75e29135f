/-
This file models `gen/priv/eth_dev.h` and `gen/priv/eth_dev.cpp`: bringing up an
Ethernet port, and the objects that own the ports. An object knows its port by
number only, and the invalid number stands for none.

What DPDK answers is given for each construction, and every call that changes a
port is recorded with whether it succeeded.
-/

import TrafficGenerator.Transition

namespace TrafficGenerator

/-! ### The device -/

/-- `RTE_ETH_RX_OFFLOAD_CHECKSUM`: the IPv4, the UDP and the TCP checksum. -/
def rxOffloadChecksum : UInt64 := 0xE

/-- `RTE_ETH_TX_OFFLOAD_IPV4_CKSUM`. -/
def txOffloadIpv4Cksum : UInt64 := 0x2

/-- `RTE_ETH_TX_OFFLOAD_TCP_CKSUM | RTE_ETH_TX_OFFLOAD_UDP_CKSUM`. -/
def txOffloadTcpUdpCksum : UInt64 := 0x8 ||| 0x4

/-- `RTE_ETH_TX_OFFLOAD_MBUF_FAST_FREE`. -/
def txOffloadMbufFastFree : UInt64 := 0x10000

/-- `rte_eth_dev_info`: the offloads and the limits of the queue sizes. -/
structure EthDevInfo where
  rxOffloadCapa : UInt64
  txOffloadCapa : UInt64
  rxDescLim : ℕ × ℕ
  txDescLim : ℕ × ℕ

/-- `rte_eth_conf`: the offloads of the two modes. -/
structure EthConf where
  rxOffloads : UInt64 := 0
  txOffloads : UInt64 := 0
deriving DecidableEq

/-- `eth_dev::config`, the memory pool by its number. -/
structure EthDevConfig where
  portId : UInt16
  queueSize : UInt16
  socketId : UInt32
  mempool : ℕ

/-- What DPDK answers during one construction: the device information or an error, the
`rte_errno` of each call that fails, the link status at each poll. -/
structure EthAnswers where
  info : Except ℕ EthDevInfo
  configure : Option ℕ := none
  rxSetup : Option ℕ := none
  txSetup : Option ℕ := none
  start : Option ℕ := none
  linkUp : ℕ → Bool := fun _ => true
  strerror : ℕ → String := fun _ => ""

/-- A call that changes a port. -/
inductive EthCall where
  | configure (conf : EthConf) (ok : Bool)
  | rxQueueSetup (size : UInt16) (socketId : UInt32) (offloads : UInt64) (mempool : ℕ) (ok : Bool)
  | txQueueSetup (size : UInt16) (socketId : UInt32) (offloads : UInt64) (ok : Bool)
  | start (ok : Bool)
  | usleep (usec : ℕ)
  | stop
  | close
deriving DecidableEq

/-! ### The constructor -/

section Constructor

variable (cfg : EthDevConfig) (answers : EthAnswers)

/-- `put::throw_dpdk_error`. -/
def EthAnswers.dpdkError (errno : ℕ) (text : String) : String :=
  text ++ ": " ++ answers.strerror errno

/-- `check_capa`. -/
def checkCapa (capa flag : UInt64) : Bool := capa &&& flag == flag

/-- `set_capabilities`. -/
def setCapabilities : Except String (EthDevInfo × EthConf) := do
  let port := toString cfg.portId
  let info ← answers.info.mapError fun errno => answers.dpdkError errno
    s!"Failed to initialize DPDK port {port}. Failed to get device info"
  if !checkCapa info.rxOffloadCapa rxOffloadChecksum then
    throw s!"Failed to initialize DPDK port {port}. No support for Rx checksum offload"
  if !checkCapa info.txOffloadCapa txOffloadIpv4Cksum then
    throw s!"Failed to initialize DPDK port {port}. No support for Tx IPv4 checksum offload"
  if !checkCapa info.txOffloadCapa txOffloadTcpUdpCksum then
    throw s!"Failed to initialize DPDK port {port}. No support for Tx TCP/UDP checksum offload"
  let txOffloads := txOffloadIpv4Cksum ||| txOffloadTcpUdpCksum
  return (info, {
    rxOffloads := rxOffloadChecksum
    txOffloads := if checkCapa info.txOffloadCapa txOffloadMbufFastFree then
      txOffloads ||| txOffloadMbufFastFree else txOffloads })

/-- The text of an error in setting up a queue. -/
def queueError (kind : String) (lim : ℕ × ℕ) : String :=
  s!"Failed to initialize DPDK port {cfg.portId}. Failed to setup {kind} queue 0 " ++
    s!"with size {cfg.queueSize}. HW queue size range {lim.1}-{lim.2}"

/-- `rte_eth_rx_queue_setup` as `configure` calls it. -/
def rxQueueCall (conf : EthConf) (ok : Bool) : EthCall :=
  .rxQueueSetup cfg.queueSize cfg.socketId conf.rxOffloads cfg.mempool ok

/-- `rte_eth_tx_queue_setup` as `configure` calls it. -/
def txQueueCall (conf : EthConf) (ok : Bool) : EthCall :=
  .txQueueSetup cfg.queueSize cfg.socketId conf.txOffloads ok

/-- `configure`. -/
def configureDev (info : EthDevInfo) (conf : EthConf) : Except String Unit × List EthCall :=
  match answers.configure, answers.rxSetup, answers.txSetup with
  | some errno, _, _ =>
    (.error (answers.dpdkError errno
      s!"Failed to initialize DPDK port {cfg.portId}. Failed to configure the device"),
      [.configure conf false])
  | none, some errno, _ =>
    (.error (answers.dpdkError errno (queueError cfg "Rx" info.rxDescLim)),
      [.configure conf true, rxQueueCall cfg conf false])
  | none, none, some errno =>
    (.error (answers.dpdkError errno (queueError cfg "Tx" info.txDescLim)),
      [.configure conf true, rxQueueCall cfg conf true, txQueueCall cfg conf false])
  | none, none, none =>
    (.ok (), [.configure conf true, rxQueueCall cfg conf true, txQueueCall cfg conf true])

/-- `check_cnt`. -/
def linkCheckCnt : ℕ := 100

/-- `sleep_us`. -/
def linkSleepUs : ℕ := 100000

/-- The loop of `start`: the link status after it, with `left` polls left. -/
def waitLink (linkUp : ℕ → Bool) : (left poll : ℕ) → Bool × List EthCall
  | 0, _ => (false, [])
  | left + 1, poll =>
    if linkUp poll then (true, [.usleep linkSleepUs])
    else
      let rest := waitLink linkUp left (poll + 1)
      (rest.1, .usleep linkSleepUs :: rest.2)

/-- `start`. -/
def startDev : Except String Unit × List EthCall :=
  match answers.start with
  | some errno =>
    (.error (answers.dpdkError errno s!"Failed to start DPDK port {cfg.portId}"), [.start false])
  | none =>
    let link := waitLink answers.linkUp linkCheckCnt 0
    if link.1 then (.ok (), .start true :: link.2)
    else (.error s!"Failed to bring up DPDK port {cfg.portId}",
      .start true :: link.2 ++ [.stop])

/-- `eth_dev::eth_dev(config)`: the device is closed again when only its start fails. -/
def constructDev : Except String Unit × List EthCall :=
  match setCapabilities cfg answers with
  | .error text => (.error text, [])
  | .ok (info, conf) =>
    match configureDev cfg answers info conf with
    | (.error text, calls) => (.error text, calls)
    | (.ok (), calls) =>
      match startDev cfg answers with
      | (.error text, started) => (.error text, calls ++ started ++ [.close])
      | (.ok (), started) => (.ok (), calls ++ started)

end Constructor

/-! ### The objects -/

/-- `invalid_port_id`. -/
def invalidPortId : UInt16 := 0xFFFF

/-- The objects constructed so far with their `port_id_`, `none` for those destroyed, and the
calls with their ports. -/
structure EthDevs where
  slots : List (Option UInt16) := []
  calls : List (UInt16 × EthCall) := []

/-- What is done to the objects. -/
inductive EthDevOp where
  | construct (cfg : EthDevConfig) (answers : EthAnswers)
  | moveConstruct (src : ℕ)
  | moveAssign (dst src : ℕ)
  | destroy (pos : ℕ)

/-- The body of the destructor. -/
def destructorCalls (portId : UInt16) : List (UInt16 × EthCall) :=
  if portId ≠ invalidPortId then [(portId, .stop), (portId, .close)] else []

/-- An operation, `none` when it is about no live object. -/
def EthDevs.apply (devs : EthDevs) : EthDevOp → Option EthDevs
  | .construct cfg answers =>
    let built := constructDev cfg answers
    let calls := devs.calls ++ built.2.map (Prod.mk cfg.portId)
    match built.1 with
    | .ok () => some { slots := devs.slots ++ [some cfg.portId], calls }
    | .error _ => some { devs with calls }
  | .moveConstruct src =>
    match devs.slots[src]? with
    | some (some portId) => some { devs with
        slots := devs.slots.set src (some invalidPortId) ++ [some portId] }
    | _ => none
  | .moveAssign dst src =>
    match devs.slots[src]? with
    | some (some portId) =>
      -- `eth_dev tmp(std::move(rhs))`, `swap(port_id_, tmp.port_id_)`, the destructor of `tmp`
      let slots := devs.slots.set src (some invalidPortId)
      match slots[dst]? with
      | some (some old) => some {
          slots := slots.set dst (some portId)
          calls := devs.calls ++ destructorCalls old }
      | _ => none
    | _ => none
  | .destroy pos =>
    match devs.slots[pos]? with
    | some (some portId) => some {
        slots := devs.slots.set pos none
        calls := devs.calls ++ destructorCalls portId }
    | _ => none

/-- The objects as a machine. -/
def ethDevMachine : Machine EthDevs EthDevOp where
  step := EthDevs.apply

end TrafficGenerator
