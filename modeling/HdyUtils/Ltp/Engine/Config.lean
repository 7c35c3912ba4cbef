import HdyUtils.Ltp.Types

/-! Engine configuration (`engine/config.rs`). -/

namespace HdyUtils.Ltp

structure EngineConfig where
  engineId : EngineId
  maxSegmentPayloadLen : Nat
  checkpointRtxLimit : Nat
  reportRtxLimit : Nat
  cancelRtxLimit : Nat
  rttMicros : Nat
  ackMarginMicros : Nat
  maxBlockSize : UInt64
  sessionInactivityTimeoutMicros : Nat
  initialSessionNumber : UInt64
  maxRecvSessions : Nat
  maxReportsPerSession : Nat
  maxClaimsPerReport : Nat
  /-- `none` allows every client service. -/
  allowedClientServices : Option (List UInt64)

namespace EngineConfig

/-- The default configuration. -/
def default : EngineConfig where
  engineId := ⟨1⟩
  maxSegmentPayloadLen := 1400
  checkpointRtxLimit := 5
  reportRtxLimit := 5
  cancelRtxLimit := 5
  rttMicros := 2000000
  ackMarginMicros := 2000000
  maxBlockSize := 64 * 1024 * 1024
  sessionInactivityTimeoutMicros := 60000000
  initialSessionNumber := 1
  maxRecvSessions := 1024
  maxReportsPerSession := 64
  maxClaimsPerReport := 20
  allowedClientServices := none

/-- Whether data for a client service is accepted. -/
def allows (config : EngineConfig) (clientService : UInt64) : Bool :=
  match config.allowedClientServices with
  | some allowed => allowed.contains clientService
  | none => true

/-- The payload limit of a segment, at least 1. -/
def mtu (config : EngineConfig) : Nat := max config.maxSegmentPayloadLen 1

theorem mtu_pos (config : EngineConfig) : 0 < config.mtu := by
  simp only [mtu]
  omega

end EngineConfig

/-- The round-trip time and acknowledgment margin of a peer. -/
structure PeerTiming where
  rttMicros : Nat
  ackMarginMicros : Nat
deriving DecidableEq, Repr

def PeerTiming.timeoutDurationMicros (timing : PeerTiming) : Nat :=
  satAdd timing.rttMicros timing.ackMarginMicros

end HdyUtils.Ltp
