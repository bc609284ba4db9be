import ZeroFido.U2f.Apdu

/-!
# The CTAPHID session

`transport/usb_hid_session.c`. The session assembles 64-byte packets into one message, keeps the
table of allocated channels and the channel lock, and answers the packets that it refuses. A
function here takes the transport state and returns a `Handling`: the state it leaves, the messages
it has sent, whether it asks for the pending interaction to be cancelled, and the message that is
now complete, which the caller hands to the dispatcher.

What a packet may do while a request is being processed is said once, by
`processing_handlePacket_cases` for packets read in the approval wait and by
`handleProcessingControl_cases` for packets read in a poll.
-/

set_option autoImplicit false
set_option relaxedAutoImplicit false

namespace ZeroFido.Usb

section Constants

def typeInit : UInt8 := 0x80
def cmdPing : UInt8 := 0x81
def cmdMsg : UInt8 := 0x83
def cmdLock : UInt8 := 0x84
def cmdInit : UInt8 := 0x86
def cmdWink : UInt8 := 0x88
def cmdCbor : UInt8 := 0x90
def cmdCancel : UInt8 := 0x91
def cmdKeepalive : UInt8 := 0xBB
def cmdError : UInt8 := 0xBF

def errInvalidCmd : UInt8 := 0x01
def errInvalidPar : UInt8 := 0x02
def errInvalidLen : UInt8 := 0x03
def errInvalidSeq : UInt8 := 0x04
def errMsgTimeout : UInt8 := 0x05
def errChannelBusy : UInt8 := 0x06
def errInvalidChannel : UInt8 := 0x0B
def errOther : UInt8 := 0x7F

def capabilityWink : UInt8 := 0x01
def capabilityCbor : UInt8 := 0x04
def broadcastCid : UInt32 := 0xFFFFFFFF
def reservedCid : UInt32 := 0
def maxAllocatedCids : ℕ := 32
def packetSize : ℕ := 64
def maxMsgSize : ℕ := 1024
def assemblyTimeoutMs : ℕ := 3000
def keepaliveUpNeeded : UInt8 := 0x02

end Constants

/-- The profile switches that the transport reads. -/
structure Capabilities where
  u2fEnabled : Bool
  fido2Enabled : Bool
  transportWinkEnabled : Bool
  deriving DecidableEq, Repr

/-- What the session learns from outside while it handles one packet: the tick, the random words
drawn for a new channel, and the profile. -/
structure Surroundings where
  now : UInt32
  random : ℕ → UInt32
  capabilities : Capabilities

structure AllocatedCid where
  cid : UInt32
  lastUsed : UInt32
  deriving DecidableEq, Repr

/-- `ZfTransportState`. The payload is the transport arena, attached for as long as the worker
runs. -/
structure TransportState where
  active : Bool := false
  processing : Bool := false
  processingResync : Bool := false
  processingCancelRequested : Bool := false
  stopping : Bool := false
  processingGeneration : UInt32 := 0
  cid : UInt32 := 0
  cmd : UInt8 := 0
  totalLen : ℕ := 0
  receivedLen : ℕ := 0
  nextSeq : UInt8 := 0
  lastActivity : UInt32 := 0
  lockCid : UInt32 := 0
  lockExpiresAt : UInt32 := 0
  payload : Bytes := List.replicate maxMsgSize 0
  allocatedCids : List AllocatedCid := []
  deriving DecidableEq, Repr

/-- One call of `zf_transport_session_send_frames`. -/
structure Message where
  cid : UInt32
  cmd : UInt8
  data : Bytes
  deriving DecidableEq, Repr

inductive ProtocolKind where
  | ping
  | u2f
  | wink
  | ctap2
  deriving DecidableEq, Repr

/-- A complete message, as `zf_transport_dispatch_complete_message` receives it. -/
structure CompleteMessage where
  sessionId : UInt32
  protocol : ProtocolKind
  payload : Bytes
  deriving DecidableEq, Repr

/-- What a session function leaves behind. -/
structure Handling where
  transport : TransportState
  sent : List Message := []
  cancelPending : Bool := false
  complete : Option CompleteMessage := none
  deriving DecidableEq, Repr

/-- `zf_transport_session_send_error`. -/
def hidError (cid : UInt32) (code : UInt8) : Message := ⟨cid, cmdError, [code]⟩

/-- The state unchanged, with one error sent. -/
def refuse (transport : TransportState) (cid : UInt32) (code : UInt8) : Handling :=
  { transport := transport, sent := [hidError cid code] }

/-- The tick has reached the deadline, in the signed comparison of the code. -/
def reached (now deadline : UInt32) : Bool := (now - deadline).toNat < 2 ^ 31

section Channels

def cidIsReserved (cid : UInt32) : Bool := cid == reservedCid || cid == broadcastCid

def cidIsAllocated (transport : TransportState) (cid : UInt32) : Bool :=
  !cidIsReserved cid && transport.allocatedCids.any fun entry ↦ entry.cid == cid

def refreshLock (transport : TransportState) (now : UInt32) : TransportState :=
  if transport.lockCid == 0 then transport
  else if reached now transport.lockExpiresAt then
    { transport with lockCid := 0, lockExpiresAt := 0 }
  else transport

/-- The first entry with the smallest time among those that are neither the current channel nor the
locked one. -/
def findLruReclaimIndex (transport : TransportState) : Option ℕ :=
  let candidates := transport.allocatedCids.zipIdx.filter fun candidate ↦
    !(candidate.1.cid == transport.cid || candidate.1.cid == transport.lockCid)
  (candidates.foldl (fun best candidate ↦
    match best with
    | none => some candidate
    | some chosen =>
      if candidate.1.lastUsed < chosen.1.lastUsed then some candidate else some chosen)
    none).map Prod.snd

/-- The table with the time of a channel set, at its first entry. -/
def touchEntries (cid now : UInt32) : List AllocatedCid → List AllocatedCid
  | [] => []
  | entry :: rest =>
    if entry.cid == cid then { entry with lastUsed := now } :: rest
    else entry :: touchEntries cid now rest

def touchCid (transport : TransportState) (cid now : UInt32) : TransportState :=
  if cidIsReserved cid then transport
  else { transport with allocatedCids := touchEntries cid now transport.allocatedCids }

/-- `zf_transport_remember_cid`, with whether there is an entry for the channel now. -/
def rememberCid (transport : TransportState) (cid now : UInt32) : TransportState × Bool :=
  if cidIsReserved cid then (transport, false)
  else if transport.allocatedCids.any fun entry ↦ entry.cid == cid then
    ({ transport with allocatedCids := touchEntries cid now transport.allocatedCids }, true)
  else if transport.allocatedCids.length < maxAllocatedCids then
    ({ transport with allocatedCids := transport.allocatedCids ++ [⟨cid, now⟩] }, true)
  else
    let transport := refreshLock transport now
    match findLruReclaimIndex transport with
    | none => (transport, false)
    | some index =>
      ({ transport with allocatedCids := transport.allocatedCids.set index ⟨cid, now⟩ }, true)

/-- The loop of `zf_transport_allocate_cid` over the draws that are left. -/
def allocateCidFrom (transport : TransportState) (now : UInt32) :
    List UInt32 → TransportState × Option UInt32
  | [] => (transport, none)
  | cid :: draws =>
    if cidIsReserved cid || cidIsAllocated transport cid then allocateCidFrom transport now draws
    else
      let remembered := rememberCid transport cid now
      (remembered.1, if remembered.2 then some cid else none)

/-- `zf_transport_allocate_cid`, with at most 32 draws. -/
def allocateCid (transport : TransportState) (surroundings : Surroundings) :
    TransportState × Option UInt32 :=
  allocateCidFrom transport surroundings.now ((List.range 32).map surroundings.random)

def lockBlocksCid (transport : TransportState) (cid : UInt32) : Bool :=
  transport.lockCid != 0 && cid != transport.lockCid

end Channels

section Reset

/-- `zf_transport_session_reset`. The part of the payload that was in use is zeroed. -/
def sessionReset (transport : TransportState) : TransportState :=
  let used := min (max transport.totalLen transport.receivedLen) maxMsgSize
  { transport with
    active := false
    processing := false
    processingResync := false
    processingCancelRequested := false
    stopping := false
    processingGeneration := 0
    cid := 0
    cmd := 0
    totalLen := 0
    receivedLen := 0
    nextSeq := 0
    lastActivity := 0
    payload := List.replicate used 0 ++ transport.payload.drop used }

def expireLock (transport : TransportState) : TransportState :=
  { transport with lockCid := 0, lockExpiresAt := 0 }

/-- `zf_transport_session_tick`. -/
def sessionTick (transport : TransportState) (now : UInt32) : Handling :=
  let timedOut := transport.active &&
    decide (assemblyTimeoutMs ≤ (now - transport.lastActivity).toNat)
  let handling : Handling :=
    if timedOut then
      { transport := sessionReset transport, sent := [hidError transport.cid errMsgTimeout] }
    else { transport := transport }
  if handling.transport.lockCid != 0 && handling.transport.lockExpiresAt != 0 &&
      reached now handling.transport.lockExpiresAt then
    { handling with transport := expireLock handling.transport }
  else handling

end Reset

section Packets

/-- The initial frame of `zf_transport_session_send_frames`, padded to a HID report. Hosts frame
their messages in the same way. -/
def initFrame (message : Message) : Bytes :=
  let frame := toLittleEndian 4 message.cid.toNat ++ [message.cmd,
    UInt8.ofNat (message.data.length / 256), UInt8.ofNat message.data.length] ++
    message.data.take (packetSize - 7)
  frame ++ List.replicate (packetSize - frame.length) 0

def packetCid (packet : Bytes) : UInt32 := UInt32.ofNat (ofLittleEndian (packet.take 4))

def packetCmd (packet : Bytes) : UInt8 := packet.getD 4 0

def packetMsgLen (packet : Bytes) : ℕ :=
  256 * (packet.getD 5 0).toNat + (packet.getD 6 0).toNat

def isInitPacket (packet : Bytes) : Bool := packetCmd packet &&& typeInit != 0

/-- `zf_transport_handle_init`: the answer to INIT. -/
def handleInit (responseCid assignedCid : UInt32) (nonce : Bytes) (capabilities : Capabilities) :
    Message where
  cid := responseCid
  cmd := cmdInit
  data := nonce.take 8 ++ List.replicate (8 - nonce.length) 0 ++
    toLittleEndian 4 assignedCid.toNat ++ [2, 1, 4, 3,
      (if capabilities.transportWinkEnabled then capabilityWink else 0) |||
        (if capabilities.fido2Enabled then capabilityCbor else 0)]

/-- The nonce of an INIT packet. -/
def initNonce (packet : Bytes) : Bytes := (packet.drop 7).take 8

def isBusyForCid (transport : TransportState) (cid : UInt32) : Bool :=
  transport.active && cid != transport.cid

def sendBusyOr (code : UInt8) (transport : TransportState) (cid : UInt32) : Handling :=
  refuse transport cid (if cid != transport.cid then errChannelBusy else code)

/-- `zf_transport_resync_processing`: INIT on the channel of the request being processed. The second
component is false for the status KEEPALIVE_CANCEL. -/
def resyncProcessing (transport : TransportState) (packet : Bytes) (surroundings : Surroundings) :
    Handling × Bool :=
  let cid := packetCid packet
  if packetMsgLen packet ≠ 8 ∨ packet.length - 7 < packetMsgLen packet then
    (refuse transport cid errInvalidLen, true)
  else if !cidIsAllocated transport cid then (refuse transport cid errInvalidChannel, true)
  else
    let transport :=
      { transport with
        processingResync := true
        processing := false
        processingGeneration := transport.processingGeneration + 1 }
    ({ transport := touchCid transport cid surroundings.now
       sent := [handleInit cid cid (initNonce packet) surroundings.capabilities]
       cancelPending := true }, false)

/-- `zf_transport_recover_processing_with_broadcast_init`. -/
def recoverProcessingWithBroadcastInit (transport : TransportState) (packet : Bytes)
    (surroundings : Surroundings) : Handling × Bool :=
  if packetMsgLen packet ≠ 8 ∨ packet.length - 7 < packetMsgLen packet then
    (refuse transport broadcastCid errInvalidLen, true)
  else
    match allocateCid transport surroundings with
    | (transport, none) => (refuse transport broadcastCid errOther, true)
    | (transport, some assignedCid) =>
      ({ transport :=
           { transport with
             processingResync := true
             processing := false
             processingCancelRequested := true
             processingGeneration := transport.processingGeneration + 1 }
         sent := [handleInit broadcastCid assignedCid (initNonce packet) surroundings.capabilities]
         cancelPending := true }, false)

/-- `zf_transport_session_handle_processing_control`, for a packet that a poll of the running
request has read. -/
def handleProcessingControl (transport : TransportState) (packet : Bytes)
    (surroundings : Surroundings) : Handling × Bool :=
  let cid := packetCid packet
  if packet.length < 5 then ({ transport := transport }, true)
  else if !isInitPacket packet then ({ transport := transport }, true)
  else if packet.length < 7 then (sendBusyOr errInvalidLen transport cid, true)
  else if packetCmd packet = cmdCancel then
    if packetMsgLen packet ≠ 0 then (refuse transport cid errInvalidLen, true)
    else if transport.processing && transport.cmd == cmdCbor && cid == transport.cid then
      ({ transport := { transport with processingCancelRequested := true }
         cancelPending := true }, false)
    else ({ transport := transport }, true)
  else if packetCmd packet = cmdInit ∧ cid = transport.cid then
    resyncProcessing transport packet surroundings
  else if packetCmd packet = cmdInit ∧ cid = broadcastCid then
    recoverProcessingWithBroadcastInit transport packet surroundings
  else if cid ≠ transport.cid then (refuse transport cid errChannelBusy, true)
  else ({ transport := transport }, true)

end Packets

section Assembly

/-- The protocol that a complete message of the command goes to. -/
def protocolOf (cmd : UInt8) : Option ProtocolKind :=
  if cmd = cmdPing then some .ping
  else if cmd = cmdMsg then some .u2f
  else if cmd = cmdWink then some .wink
  else if cmd = cmdCbor then some .ctap2
  else none

/-- The answer to a U2F message that does not pass the request checks. -/
def u2fValidationError (transport : TransportState) (capabilities : Capabilities) :
    Option Bytes :=
  if transport.cmd = cmdMsg ∧ capabilities.u2fEnabled = true then
    U2f.validateRequestIntoResponse (transport.payload.take transport.totalLen)
  else none

/-- `zf_transport_complete_if_ready`. -/
def completeIfReady (transport : TransportState) (capabilities : Capabilities) : Handling :=
  if transport.receivedLen ≠ transport.totalLen then { transport := transport }
  else
    let transport := { transport with active := false }
    match u2fValidationError transport capabilities with
    | some status =>
      { transport := sessionReset transport, sent := [⟨transport.cid, cmdMsg, status⟩] }
    | none =>
      match protocolOf transport.cmd with
      | none => refuse transport transport.cid errInvalidCmd
      | some protocol =>
        { transport := transport
          complete := some ⟨transport.cid, protocol, transport.payload.take transport.totalLen⟩ }

/-- `zf_transport_validate_command_length`. -/
def validCommandLength (cmd : UInt8) (msgLen : ℕ) : Bool :=
  if cmd = cmdMsg ∨ cmd = cmdCbor then decide (0 < msgLen)
  else if cmd = cmdLock then msgLen == 1
  else if cmd = cmdWink then msgLen == 0
  else true

/-- `zf_transport_begin_message`, with whether an assembly has begun. -/
def beginMessage (transport : TransportState) (cid : UInt32) (cmd : UInt8) (msgLen : ℕ)
    (now : UInt32) : Handling × Bool :=
  if maxMsgSize < msgLen ∨ validCommandLength cmd msgLen = false then
    ({ transport := sessionReset transport, sent := [hidError cid errInvalidLen] }, false)
  else
    ({ transport :=
         { sessionReset transport with
           active := true, cid := cid, cmd := cmd, totalLen := msgLen, nextSeq := 0
           lastActivity := now } }, true)

/-- The payload with bytes copied to a place in it. -/
def copyPayload (payload : Bytes) (offset : ℕ) (data : Bytes) : Bytes :=
  payload.take offset ++ data ++ payload.drop (offset + data.length)

def copyInitPayload (transport : TransportState) (packet : Bytes) : TransportState :=
  let chunk := min (packet.length - 7) transport.totalLen
  if chunk = 0 then transport
  else
    { transport with
      payload := copyPayload transport.payload 0 ((packet.drop 7).take chunk)
      receivedLen := chunk }

def copyContinuationPayload (transport : TransportState) (packet : Bytes) : TransportState :=
  let chunk := min (packet.length - 5) (transport.totalLen - transport.receivedLen)
  if chunk = 0 then transport
  else
    { transport with
      payload := copyPayload transport.payload transport.receivedLen ((packet.drop 5).take chunk)
      receivedLen := transport.receivedLen + chunk }

/-- The LOCK command. -/
def handleLock (transport : TransportState) (packet : Bytes) (now : UInt32) : Handling :=
  let cid := packetCid packet
  let seconds := packet.getD 7 0
  if packetMsgLen packet ≠ 1 ∨ packet.length - 7 < packetMsgLen packet then
    refuse transport cid errInvalidLen
  else if !cidIsAllocated transport cid then refuse transport cid errInvalidChannel
  else if 10 < seconds then refuse transport cid errInvalidPar
  else
    let transport := touchCid transport cid now
    let transport :=
      if seconds = 0 then
        if transport.lockCid = cid then { transport with lockCid := 0, lockExpiresAt := 0 }
        else transport
      else
        { transport with
          lockCid := cid, lockExpiresAt := now + UInt32.ofNat (seconds.toNat * 1000) }
    { transport := transport, sent := [⟨cid, cmdLock, []⟩] }

/-- The INIT command outside of processing. -/
def handleIdleInit (transport : TransportState) (packet : Bytes) (surroundings : Surroundings) :
    Handling :=
  let cid := packetCid packet
  if packetMsgLen packet ≠ 8 ∨ packet.length - 7 < packetMsgLen packet then
    refuse transport cid errInvalidLen
  else if isBusyForCid transport cid then refuse transport cid errChannelBusy
  else if cid = broadcastCid then
    match allocateCid transport surroundings with
    | (transport, none) => refuse transport cid errOther
    | (transport, some assignedCid) =>
      { transport := sessionReset transport
        sent := [handleInit cid assignedCid (initNonce packet) surroundings.capabilities] }
  else if !cidIsAllocated transport cid then refuse transport cid errInvalidChannel
  else
    { transport := sessionReset (touchCid transport cid surroundings.now)
      sent := [handleInit cid cid (initNonce packet) surroundings.capabilities] }

/-- `zf_transport_handle_init_command`: the commands that never start an assembly, and a second
first packet during one. Nothing when the packet starts a message. -/
def handleInitCommand (transport : TransportState) (packet : Bytes)
    (surroundings : Surroundings) : Option Handling :=
  let cid := packetCid packet
  if packetCmd packet = cmdCancel then
    if packetMsgLen packet ≠ 0 then some (refuse transport cid errInvalidLen)
    else if transport.processing && transport.cmd == cmdCbor && cid == transport.cid then
      some { transport := { transport with processingCancelRequested := true }
             cancelPending := true }
    else some { transport := transport }
  else if packetCmd packet = cmdLock then some (handleLock transport packet surroundings.now)
  else if packetCmd packet = cmdInit then some (handleIdleInit transport packet surroundings)
  else if transport.active then
    let handling := sendBusyOr errInvalidSeq transport cid
    some (if cid = transport.cid then { handling with transport := sessionReset transport }
      else handling)
  else none

/-- The first packet of a message: its channel must be allocated and its length allowed. -/
def startMessage (transport : TransportState) (packet : Bytes) (surroundings : Surroundings) :
    Handling :=
  let cid := packetCid packet
  if !cidIsAllocated transport cid then refuse transport cid errInvalidChannel
  else
    let begun := beginMessage (touchCid transport cid surroundings.now) cid (packetCmd packet)
      (packetMsgLen packet) surroundings.now
    if begun.2 then
      completeIfReady (copyInitPayload begun.1.transport packet) surroundings.capabilities
    else begun.1

/-- `zf_transport_handle_init_packet`. -/
def handleInitPacket (transport : TransportState) (packet : Bytes) (surroundings : Surroundings) :
    Handling :=
  let cid := packetCid packet
  if packet.length < 7 then
    refuse transport cid
      (if 5 ≤ packet.length ∧ isBusyForCid transport cid = true then errChannelBusy
        else errInvalidLen)
  else if packetCmd packet ≠ cmdCancel ∧ isBusyForCid transport cid = true then
    refuse transport cid errChannelBusy
  else
    (handleInitCommand transport packet surroundings).getD
      (startMessage transport packet surroundings)

/-- `zf_transport_handle_processing_packet`. -/
def handleProcessingPacket (transport : TransportState) (packet : Bytes)
    (surroundings : Surroundings) : Handling :=
  let cid := packetCid packet
  if packet.length < 7 then sendBusyOr errInvalidLen transport cid
  else if !isInitPacket packet then refuse transport cid errInvalidSeq
  else if packetCmd packet = cmdCancel then handleInitPacket transport packet surroundings
  else if packetCmd packet = cmdInit ∧ cid = transport.cid then
    (resyncProcessing transport packet surroundings).1
  else if packetCmd packet = cmdInit ∧ cid = broadcastCid then
    (recoverProcessingWithBroadcastInit transport packet surroundings).1
  else sendBusyOr errInvalidSeq transport cid

/-- `zf_transport_handle_cont_packet`. -/
def handleContPacket (transport : TransportState) (packet : Bytes) (surroundings : Surroundings) :
    Handling :=
  let cid := packetCid packet
  if !transport.active then { transport := transport }
  else if packetCmd packet ≠ transport.nextSeq ∨ cid ≠ transport.cid then
    { transport := sessionReset transport, sent := [hidError cid errInvalidSeq] }
  else
    let transport :=
      { touchCid transport cid surroundings.now with
        nextSeq := transport.nextSeq + 1, lastActivity := surroundings.now }
    completeIfReady (copyContinuationPayload transport packet) surroundings.capabilities

/-- `zf_transport_session_handle_packet`. The lock check refreshes the lock. -/
def handlePacket (transport : TransportState) (packet : Bytes) (surroundings : Surroundings) :
    Handling :=
  if packet.length < 5 then { transport := transport }
  else
    let transport := refreshLock transport surroundings.now
    if lockBlocksCid transport (packetCid packet) then
      refuse transport (packetCid packet) errChannelBusy
    else if transport.processing then handleProcessingPacket transport packet surroundings
    else if !transport.active && isBusyForCid transport (packetCid packet) then
      refuse transport (packetCid packet) errChannelBusy
    else if isInitPacket packet then handleInitPacket transport packet surroundings
    else handleContPacket transport packet surroundings

end Assembly

section Effects

/-- The fields that say which request is assembled or processed are the same. -/
structure SameRequest (before after : TransportState) : Prop where
  active : after.active = before.active
  processing : after.processing = before.processing
  cancelRequested : after.processingCancelRequested = before.processingCancelRequested
  generation : after.processingGeneration = before.processingGeneration
  cid : after.cid = before.cid
  cmd : after.cmd = before.cmd

variable {transport : TransportState}

theorem SameRequest.refl (transport : TransportState) : SameRequest transport transport :=
  ⟨rfl, rfl, rfl, rfl, rfl, rfl⟩

theorem SameRequest.trans {first second third : TransportState} (h : SameRequest first second)
    (h' : SameRequest second third) : SameRequest first third :=
  ⟨h'.active.trans h.active, h'.processing.trans h.processing,
    h'.cancelRequested.trans h.cancelRequested, h'.generation.trans h.generation,
    h'.cid.trans h.cid, h'.cmd.trans h.cmd⟩

theorem sameRequest_refreshLock (transport : TransportState) (now : UInt32) :
    SameRequest transport (refreshLock transport now) := by
  unfold refreshLock
  split_ifs <;> exact ⟨rfl, rfl, rfl, rfl, rfl, rfl⟩

theorem sameRequest_touchCid (transport : TransportState) (cid now : UInt32) :
    SameRequest transport (touchCid transport cid now) := by
  unfold touchCid
  split_ifs <;> exact ⟨rfl, rfl, rfl, rfl, rfl, rfl⟩

theorem sameRequest_rememberCid (transport : TransportState) (cid now : UInt32) :
    SameRequest transport (rememberCid transport cid now).1 := by
  unfold rememberCid
  split_ifs
  · exact .refl _
  · exact ⟨rfl, rfl, rfl, rfl, rfl, rfl⟩
  · exact ⟨rfl, rfl, rfl, rfl, rfl, rfl⟩
  · dsimp only
    split
    · exact sameRequest_refreshLock transport now
    · exact (sameRequest_refreshLock transport now).trans ⟨rfl, rfl, rfl, rfl, rfl, rfl⟩

theorem sameRequest_allocateCidFrom (transport : TransportState) (now : UInt32) (draws : List UInt32) :
    SameRequest transport (allocateCidFrom transport now draws).1 := by
  induction draws with
  | nil => exact .refl _
  | cons cid draws ih =>
    unfold allocateCidFrom
    split_ifs
    · exact ih
    · exact sameRequest_rememberCid transport cid now

theorem sameRequest_allocateCid (transport : TransportState) (surroundings : Surroundings) :
    SameRequest transport (allocateCid transport surroundings).1 :=
  sameRequest_allocateCidFrom _ _ _

/-- INIT with its nonce. -/
def WellFormedInit (packet : Bytes) : Prop :=
  packetCmd packet = cmdInit ∧ packetMsgLen packet = 8 ∧ 8 ≤ packet.length - 7

instance (packet : Bytes) : Decidable (WellFormedInit packet) :=
  inferInstanceAs (Decidable (_ ∧ _ ∧ _))

/-- What a packet can do to the request that is being processed: nothing, mark it as cancelled, or
end its processing with a new generation, which only INIT does. INIT on a channel other than the
request's also marks it as cancelled. -/
inductive ProcessingEffect (transport : TransportState) (packet : Bytes) : Handling → Prop
  | kept {handling : Handling} (complete : handling.complete = none)
      (same : SameRequest transport handling.transport) : ProcessingEffect transport packet handling
  | canceled {handling : Handling} (complete : handling.complete = none)
      (cancelPending : handling.cancelPending = true)
      (same : SameRequest { transport with processingCancelRequested := true }
        handling.transport) : ProcessingEffect transport packet handling
  | aborted {handling : Handling} (cancelRequested : Bool) (complete : handling.complete = none)
      (cancelPending : handling.cancelPending = true)
      (same : SameRequest
        { transport with
          processing := false
          processingGeneration := transport.processingGeneration + 1
          processingCancelRequested := cancelRequested } handling.transport)
      (channel : WellFormedInit packet ∧ packetCid packet = transport.cid ∨
        cancelRequested = true) : ProcessingEffect transport packet handling

theorem processingEffect_refuse (packet : Bytes) (cid : UInt32) (code : UInt8) :
    ProcessingEffect transport packet (refuse transport cid code) :=
  .kept rfl (.refl _)

/-- INIT on the request's own channel leaves the cancel flag as it is. -/
theorem resyncProcessing_cases {packet : Bytes} (surroundings : Surroundings)
    (hcmd : packetCmd packet = cmdInit) (hcid : packetCid packet = transport.cid) :
    ProcessingEffect transport packet (resyncProcessing transport packet surroundings).1 ∧
      ((resyncProcessing transport packet surroundings).2 = true →
        (resyncProcessing transport packet surroundings).1.transport = transport) := by
  unfold resyncProcessing
  dsimp only
  split_ifs with hlength
  · exact ⟨processingEffect_refuse _ _ _, fun _ ↦ rfl⟩
  · exact ⟨processingEffect_refuse _ _ _, fun _ ↦ rfl⟩
  · have hinit : WellFormedInit packet := ⟨hcmd, by omega, by omega⟩
    refine ⟨.aborted transport.processingCancelRequested rfl rfl ?_ (Or.inl ⟨hinit, hcid⟩),
      by simp⟩
    refine SameRequest.trans ?_ (sameRequest_touchCid _ _ _)
    exact ⟨rfl, rfl, rfl, rfl, rfl, rfl⟩

theorem recoverProcessing_cases (packet : Bytes) (surroundings : Surroundings) :
    ProcessingEffect transport packet
        (recoverProcessingWithBroadcastInit transport packet surroundings).1 ∧
      ((recoverProcessingWithBroadcastInit transport packet surroundings).2 = true →
        SameRequest transport
          (recoverProcessingWithBroadcastInit transport packet surroundings).1.transport) := by
  unfold recoverProcessingWithBroadcastInit
  split_ifs
  · exact ⟨processingEffect_refuse _ _ _, fun _ ↦ .refl _⟩
  · have hsame := sameRequest_allocateCid transport surroundings
    split
    · rename_i allocated hallocate
      rw [hallocate] at hsame
      exact ⟨.kept rfl hsame, fun _ ↦ hsame⟩
    · rename_i allocated assignedCid hallocate
      rw [hallocate] at hsame
      refine ⟨.aborted true rfl rfl ?_ (Or.inr rfl), by simp⟩
      exact ⟨hsame.active, rfl, rfl, congrArg (· + 1) hsame.generation, hsame.cid, hsame.cmd⟩

/-- A packet read in a poll. When the poll goes on, the packet changed nothing about the request. -/
theorem handleProcessingControl_cases (transport : TransportState) (packet : Bytes)
    (surroundings : Surroundings) :
    ProcessingEffect transport packet (handleProcessingControl transport packet surroundings).1 ∧
      ((handleProcessingControl transport packet surroundings).2 = true →
        SameRequest transport
          (handleProcessingControl transport packet surroundings).1.transport) := by
  unfold handleProcessingControl
  dsimp only
  split_ifs with _ _ _ _ _ _ hown hbroadcast _
  · exact ⟨.kept rfl (.refl _), fun _ ↦ .refl _⟩
  · exact ⟨.kept rfl (.refl _), fun _ ↦ .refl _⟩
  · exact ⟨processingEffect_refuse _ _ _, fun _ ↦ .refl _⟩
  · exact ⟨processingEffect_refuse _ _ _, fun _ ↦ .refl _⟩
  · exact ⟨.canceled rfl rfl (.refl _), by simp⟩
  · exact ⟨.kept rfl (.refl _), fun _ ↦ .refl _⟩
  · obtain ⟨heffect, hsame⟩ := resyncProcessing_cases surroundings hown.1 hown.2
    refine ⟨heffect, fun hok ↦ ?_⟩
    rw [hsame hok]
    exact .refl _
  · exact recoverProcessing_cases packet surroundings
  · exact ⟨processingEffect_refuse _ _ _, fun _ ↦ .refl _⟩
  · exact ⟨.kept rfl (.refl _), fun _ ↦ .refl _⟩

/-- A packet read in the approval wait of the request that is being processed. -/
theorem handleProcessingPacket_cases (packet : Bytes) (surroundings : Surroundings) :
    ProcessingEffect transport packet (handleProcessingPacket transport packet surroundings) := by
  unfold handleProcessingPacket
  dsimp only
  split_ifs with hlength _ hcancel hown hbroadcast
  · exact processingEffect_refuse _ _ _
  · exact processingEffect_refuse _ _ _
  · unfold handleInitPacket
    dsimp only
    rw [if_neg hlength, if_neg (fun h ↦ h.1 hcancel), handleInitCommand, if_pos hcancel]
    split_ifs
    · exact processingEffect_refuse _ _ _
    · exact .canceled rfl rfl (.refl _)
    · exact .kept rfl (.refl _)
  · exact (resyncProcessing_cases surroundings hown.1 hown.2).1
  · exact (recoverProcessing_cases packet surroundings).1
  · exact processingEffect_refuse _ _ _

/-- The effect seen from before the lock was refreshed. -/
theorem ProcessingEffect.of_same {transport' : TransportState} {packet : Bytes}
    {handling : Handling} (hsame : SameRequest transport transport')
    (h : ProcessingEffect transport' packet handling) :
    ProcessingEffect transport packet handling := by
  cases h with
  | kept complete same => exact .kept complete (hsame.trans same)
  | canceled complete cancelPending same =>
    refine .canceled complete cancelPending (SameRequest.trans ?_ same)
    exact ⟨hsame.active, hsame.processing, rfl, hsame.generation, hsame.cid, hsame.cmd⟩
  | aborted cancelRequested complete cancelPending same channel =>
    refine .aborted cancelRequested complete cancelPending (SameRequest.trans ?_ same) ?_
    · exact ⟨hsame.active, rfl, rfl, congrArg (· + 1) hsame.generation, hsame.cid, hsame.cmd⟩
    · rwa [hsame.cid] at channel

theorem processing_handlePacket_cases (hprocessing : transport.processing = true) (packet : Bytes)
    (surroundings : Surroundings) :
    ProcessingEffect transport packet (handlePacket transport packet surroundings) := by
  have hlock := sameRequest_refreshLock transport surroundings.now
  unfold handlePacket
  dsimp only
  rw [hlock.processing, hprocessing, if_pos rfl]
  split_ifs
  · exact .kept rfl (.refl _)
  · exact (processingEffect_refuse _ _ _).of_same hlock
  · exact (handleProcessingPacket_cases packet surroundings).of_same hlock

/-- What a packet can do while no request is being processed. A message is assembled, and complete,
only at generation zero, because its first packet has reset the session. -/
structure IdleEffect (transport : TransportState) (handling : Handling) : Prop where
  processing : handling.transport.processing = false
  cancelPending : handling.cancelPending = false
  generation : handling.transport.processingGeneration = transport.processingGeneration ∨
    handling.transport.processingGeneration = 0
  assembling : handling.transport.active = true → handling.transport.processingGeneration = 0
  complete : handling.complete ≠ none →
    handling.transport.processingGeneration = 0 ∧ handling.transport.active = false

/-- Nothing is being processed, and a message that is being assembled has generation zero. -/
structure IdleSession (transport : TransportState) : Prop where
  processing : transport.processing = false
  assembling : transport.active = true → transport.processingGeneration = 0

theorem IdleSession.of_same {transport' : TransportState} (h : IdleSession transport)
    (hsame : SameRequest transport transport') : IdleSession transport' := by
  refine ⟨hsame.processing.trans h.processing, ?_⟩
  rw [hsame.active, hsame.generation]
  exact h.assembling

theorem IdleSession.idleEffect (h : IdleSession transport) {handling : Handling}
    (hsame : SameRequest transport handling.transport) (hcancel : handling.cancelPending = false)
    (hcomplete : handling.complete = none) : IdleEffect transport handling where
  processing := hsame.processing.trans h.processing
  cancelPending := hcancel
  generation := Or.inl hsame.generation
  assembling := (h.of_same hsame).assembling
  complete := fun hne ↦ absurd hcomplete hne

theorem idleEffect_reset {transport' : TransportState} {handling : Handling}
    (htransport : handling.transport = sessionReset transport')
    (hcancel : handling.cancelPending = false) (hcomplete : handling.complete = none) :
    IdleEffect transport handling where
  processing := by rw [htransport]; rfl
  cancelPending := hcancel
  generation := by rw [htransport]; exact Or.inr rfl
  assembling := by rw [htransport]; exact fun _ ↦ rfl
  complete := fun hne ↦ absurd hcomplete hne

theorem idleEffect_completeIfReady {transport' : TransportState}
    (hprocessing : transport'.processing = false) (hgeneration : transport'.processingGeneration = 0)
    (capabilities : Capabilities) :
    IdleEffect transport (completeIfReady transport' capabilities) := by
  unfold completeIfReady
  split_ifs
  · exact ⟨hprocessing, rfl, Or.inr hgeneration, fun _ ↦ hgeneration, fun hne ↦ absurd rfl hne⟩
  · dsimp only
    split
    · exact idleEffect_reset rfl rfl rfl
    · split
      · exact ⟨hprocessing, rfl, Or.inr hgeneration, fun _ ↦ hgeneration, fun hne ↦ absurd rfl hne⟩
      · exact ⟨hprocessing, rfl, Or.inr hgeneration, fun _ ↦ hgeneration,
          fun _ ↦ ⟨hgeneration, rfl⟩⟩

theorem IdleSession.idleEffect_refuse (h : IdleSession transport) (cid : UInt32) (code : UInt8) :
    IdleEffect transport (refuse transport cid code) :=
  h.idleEffect (.refl _) rfl rfl

theorem IdleSession.idleEffect_handleLock (h : IdleSession transport) (packet : Bytes)
    (now : UInt32) : IdleEffect transport (handleLock transport packet now) := by
  unfold handleLock
  dsimp only
  split_ifs
  · exact h.idleEffect_refuse _ _
  · exact h.idleEffect_refuse _ _
  · exact h.idleEffect_refuse _ _
  all_goals
    refine h.idleEffect ((sameRequest_touchCid transport (packetCid packet) now).trans ?_) rfl rfl
    exact ⟨rfl, rfl, rfl, rfl, rfl, rfl⟩

theorem IdleSession.idleEffect_handleIdleInit (h : IdleSession transport) (packet : Bytes)
    (surroundings : Surroundings) :
    IdleEffect transport (handleIdleInit transport packet surroundings) := by
  unfold handleIdleInit
  dsimp only
  split_ifs
  · exact h.idleEffect_refuse _ _
  · exact h.idleEffect_refuse _ _
  · have hsame := sameRequest_allocateCid transport surroundings
    split
    · rename_i allocated hallocate
      rw [hallocate] at hsame
      exact h.idleEffect hsame rfl rfl
    · exact idleEffect_reset rfl rfl rfl
  · exact h.idleEffect_refuse _ _
  · exact idleEffect_reset rfl rfl rfl

theorem IdleSession.idleEffect_handleInitCommand (h : IdleSession transport) {packet : Bytes}
    {surroundings : Surroundings} {handling : Handling}
    (hhandling : handleInitCommand transport packet surroundings = some handling) :
    IdleEffect transport handling := by
  unfold handleInitCommand at hhandling
  simp only [h.processing, Bool.false_and, Bool.false_eq_true, if_false] at hhandling
  split_ifs at hhandling
  all_goals obtain rfl := Option.some_injective _ hhandling
  · exact h.idleEffect_refuse _ _
  · exact h.idleEffect (.refl _) rfl rfl
  · exact h.idleEffect_handleLock _ _
  · exact h.idleEffect_handleIdleInit _ _
  · exact idleEffect_reset rfl rfl rfl
  · exact h.idleEffect_refuse _ _

theorem IdleSession.idleEffect_startMessage (h : IdleSession transport) (packet : Bytes)
    (surroundings : Surroundings) :
    IdleEffect transport (startMessage transport packet surroundings) := by
  unfold startMessage beginMessage
  dsimp only
  by_cases hallocated : (!cidIsAllocated transport (packetCid packet)) = true
  · rw [if_pos hallocated]
    exact h.idleEffect_refuse _ _
  · rw [if_neg hallocated]
    by_cases hrefused : maxMsgSize < packetMsgLen packet ∨
        validCommandLength (packetCmd packet) (packetMsgLen packet) = false
    · rw [if_pos hrefused, if_neg Bool.false_ne_true]
      exact idleEffect_reset rfl rfl rfl
    · rw [if_neg hrefused, if_pos rfl]
      unfold copyInitPayload
      dsimp only
      split_ifs <;> exact idleEffect_completeIfReady rfl rfl _

theorem IdleSession.idleEffect_handleInitPacket (h : IdleSession transport) (packet : Bytes)
    (surroundings : Surroundings) :
    IdleEffect transport (handleInitPacket transport packet surroundings) := by
  unfold handleInitPacket
  dsimp only
  split_ifs
  · exact h.idleEffect_refuse _ _
  · exact h.idleEffect_refuse _ _
  · exact h.idleEffect_refuse _ _
  · cases hcommand : handleInitCommand transport packet surroundings with
    | none => exact h.idleEffect_startMessage packet surroundings
    | some handling => exact h.idleEffect_handleInitCommand hcommand

theorem IdleSession.idleEffect_handleContPacket (h : IdleSession transport) (packet : Bytes)
    (surroundings : Surroundings) :
    IdleEffect transport (handleContPacket transport packet surroundings) := by
  unfold handleContPacket
  dsimp only
  split_ifs with hactive
  · exact h.idleEffect (.refl _) rfl rfl
  · exact idleEffect_reset rfl rfl rfl
  · have hsame := sameRequest_touchCid transport (packetCid packet) surroundings.now
    have hgeneration : transport.processingGeneration = 0 :=
      h.assembling (by simpa using hactive)
    refine idleEffect_completeIfReady ?_ ?_ _
    · unfold copyContinuationPayload
      dsimp only
      split_ifs <;> exact hsame.processing.trans h.processing
    · unfold copyContinuationPayload
      dsimp only
      split_ifs <;> exact hsame.generation.trans hgeneration

/-- A packet handled while no request is being processed. -/
theorem IdleSession.handlePacket_cases (h : IdleSession transport) (packet : Bytes)
    (surroundings : Surroundings) :
    IdleEffect transport (handlePacket transport packet surroundings) := by
  have hlock := sameRequest_refreshLock transport surroundings.now
  have hidle := h.of_same hlock
  have hback (handling : Handling)
      (heffect : IdleEffect (refreshLock transport surroundings.now) handling) :
      IdleEffect transport handling :=
    ⟨heffect.processing, heffect.cancelPending, by rw [← hlock.generation]; exact heffect.generation,
      heffect.assembling, heffect.complete⟩
  unfold handlePacket
  dsimp only
  rw [hidle.processing, if_neg Bool.false_ne_true]
  split_ifs
  · exact h.idleEffect (.refl _) rfl rfl
  · exact hback _ (hidle.idleEffect_refuse _ _)
  · exact hback _ (hidle.idleEffect_refuse _ _)
  · exact hback _ (hidle.idleEffect_handleInitPacket packet surroundings)
  · exact hback _ (hidle.idleEffect_handleContPacket packet surroundings)

/-- The clock tick resets an assembly that has timed out, and nothing else of the request. -/
theorem sessionTick_cases (transport : TransportState) (now : UInt32) :
    SameRequest transport (sessionTick transport now).transport ∨
      transport.active = true ∧ SameRequest (sessionReset transport)
        (sessionTick transport now).transport := by
  unfold sessionTick
  dsimp only
  by_cases htimedOut : (transport.active &&
      decide (assemblyTimeoutMs ≤ (now - transport.lastActivity).toNat)) = true
  · refine Or.inr ⟨(Bool.and_eq_true_iff.mp htimedOut).1, ?_⟩
    rw [if_pos htimedOut]
    split_ifs <;> exact ⟨rfl, rfl, rfl, rfl, rfl, rfl⟩
  · refine Or.inl ?_
    rw [if_neg htimedOut]
    split_ifs <;> exact ⟨rfl, rfl, rfl, rfl, rfl, rfl⟩

end Effects

end ZeroFido.Usb
