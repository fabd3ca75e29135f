import TrafficGenerator.Transition
import TrafficGenerator.Circular
import TrafficGenerator.BoundedFifo
import TrafficGenerator.LinkedChain
import TrafficGenerator.SpscRing
import TrafficGenerator.SpscFifo
import TrafficGenerator.Cycles
import TrafficGenerator.GenConfig
import TrafficGenerator.Messages
import TrafficGenerator.Mbuf
import TrafficGenerator.MbufLedger
import TrafficGenerator.Environment
import TrafficGenerator.GenerationOps
import TrafficGenerator.TcapLoader
import TrafficGenerator.FlowsGenerator
import TrafficGenerator.GenManager
import TrafficGenerator.MgmtManager
import TrafficGenerator.MgmtSteps
import TrafficGenerator.System
import TrafficGenerator.LoadLedger
import TrafficGenerator.StartLedger
import TrafficGenerator.GenSteps
import TrafficGenerator.GenInvariant
import TrafficGenerator.Replay
import TrafficGenerator.Conservation
import TrafficGenerator.Enforce
import TrafficGenerator.SystemSteps
import TrafficGenerator.Matching
import TrafficGenerator.Delivery
import TrafficGenerator.BoostJson
import TrafficGenerator.ConfigReader
import TrafficGenerator.ConfigFormat
import TrafficGenerator.ConfigFaithful
import TrafficGenerator.EventHandles
import TrafficGenerator.AddrRotation
import TrafficGenerator.AddrNetworks
import TrafficGenerator.PacketContents
import TrafficGenerator.TcapRecords
import TrafficGenerator.StoredPackets
import TrafficGenerator.Emitted
import TrafficGenerator.FlowTally
import TrafficGenerator.FlowStats
import TrafficGenerator.StopReport
import TrafficGenerator.StopResponse
import TrafficGenerator.Occupancy
import TrafficGenerator.ScaledDivision
import TrafficGenerator.CycleConversions
import TrafficGenerator.RunLength
import TrafficGenerator.EvenSteps
import TrafficGenerator.FlowSpread
import TrafficGenerator.CutCaptures
import TrafficGenerator.StoredDelays
import TrafficGenerator.SpscCalls
import TrafficGenerator.SpscLifetimes
import TrafficGenerator.JsonText
import TrafficGenerator.ResponseBodies
import TrafficGenerator.HeaderRewrite
import TrafficGenerator.OffloadRequest
import TrafficGenerator.JsonReading
import TrafficGenerator.JsonUnique
import TrafficGenerator.Rounds
import TrafficGenerator.LoadOutcome
import TrafficGenerator.Numerals
import TrafficGenerator.ActionParsers
import TrafficGenerator.EtherAddrText
import TrafficGenerator.StringUtils
import TrafficGenerator.AppConfig
import TrafficGenerator.RingSystem
import TrafficGenerator.RingRefinement
import TrafficGenerator.HttpServer
import TrafficGenerator.HttpConnections
import TrafficGenerator.Drain
import TrafficGenerator.EthDev
import TrafficGenerator.EthPorts
import TrafficGenerator.Provenance
import TrafficGenerator.Linearization
import TrafficGenerator.Pacing
import TrafficGenerator.StartOutcome
import TrafficGenerator.VectorStorage
import TrafficGenerator.FlowPointers
import TrafficGenerator.FlowDispatch
import TrafficGenerator.Application
import TrafficGenerator.ApplicationSteps
import TrafficGenerator.Shutdown
import TrafficGenerator.TimerLcore
