import ZeroFido.Foundations.Run
import ZeroFido.Usb.Channels

/-!
# Message assembly

A session reads packets, and hands a message to the dispatcher when its last byte has come.
`Session` adds to the transport state what an observer knows: the packets that were read since the
last message, and the messages with the packets that were read for each.

While a message is assembled the transport holds the first bytes of the packets it has accepted
(`Holds`), so a message that is complete consists of one first packet and of the continuations that
followed on its channel, each used once (`Assembled`). `message_assembly_sound` says so of every
run.
-/

set_option autoImplicit false
set_option relaxedAutoImplicit false

namespace ZeroFido.Usb

open Foundations

section Statement

/-- The data of a first packet and of the continuations after it. -/
def assembledData (first : Bytes) (conts : List Bytes) : Bytes :=
  first.drop 7 ++ conts.flatMap fun packet ↦ packet.drop 5

/-- Continuations of a channel with the sequence numbers 0, 1, 2, ... -/
def Continues (cid : UInt32) (conts : List Bytes) : Prop :=
  ∀ index packet, conts[index]? = some packet → isInitPacket packet = false ∧
    packetCmd packet = UInt8.ofNat index ∧ packetCid packet = cid

/-- A first packet, and continuations that follow it in the order of what was read. -/
structure Follows (read : List Bytes) (first : Bytes) (conts : List Bytes) : Prop where
  order : ∃ before after, read = before ++ first :: after ∧ conts.Sublist after
  length : 7 ≤ first.length
  init : isInitPacket first = true
  continues : Continues (packetCid first) conts

/-- The message is the first bytes of the packets of one channel, as many as the first packet says.
-/
def Assembled (read : List Bytes) (message : CompleteMessage) : Prop :=
  ∃ first conts, Follows read first conts ∧ packetCid first = message.sessionId ∧
    protocolOf (packetCmd first) = some message.protocol ∧
    message.payload = (assembledData first conts).take (packetMsgLen first) ∧
    packetMsgLen first ≤ (assembledData first conts).length ∧ packetMsgLen first ≤ maxMsgSize

/-- The session as an observer sees it. -/
structure Session where
  transport : TransportState := {}
  read : List Bytes := []
  dispatched : List (List Bytes × CompleteMessage) := []

/-- What happens to a session: a packet is handled, or read by a poll; the clock ticks; the
connection is lost or comes back; a cancellation or a stop is asked for; a handler returns. -/
inductive SessionEvent where
  | packet (packet : Bytes) (surroundings : Surroundings)
  | control (packet : Bytes) (surroundings : Surroundings)
  | tick (now : UInt32)
  | connection
  | cancel
  | stop
  | returned

/-- The transport when `zf_transport_dispatch_complete_message` calls the handler. -/
def beginDispatch (transport : TransportState) : TransportState :=
  { transport with
    processingGeneration := transport.processingGeneration + 1
    processing := true
    processingResync := false }

/-- A packet handled by the session. -/
def Session.handle (session : Session) (packet : Bytes) (surroundings : Surroundings) : Session :=
  let handling := handlePacket session.transport packet surroundings
  let read := session.read ++ [packet]
  match handling.complete with
  | none => { session with transport := handling.transport, read }
  | some message =>
    { transport := beginDispatch handling.transport
      read := []
      dispatched := session.dispatched ++ [(read, message)] }

/-- The packets that the session handles, in order. -/
def handledPackets : List SessionEvent → List Bytes
  | [] => []
  | .packet packet _ :: events => packet :: handledPackets events
  | _ :: events => handledPackets events

/-- A step of a session. -/
def sessionStep (session : Session) : SessionEvent → Session
  | .packet packet surroundings => session.handle packet surroundings
  | .control packet surroundings =>
    { session with
      transport := (handleProcessingControl session.transport packet surroundings).1.transport }
  | .tick now => { session with transport := (sessionTick session.transport now).transport }
  | .connection => { session with transport := expireLock (sessionReset session.transport) }
  | .cancel =>
    { session with transport := { session.transport with processingCancelRequested := true } }
  | .stop =>
    { session with
      transport := { session.transport with stopping := true, processingCancelRequested := true } }
  | .returned => { session with transport := { session.transport with processing := false } }

end Statement

section Holds

/-- The transport holds what the accepted packets have brought so far. -/
structure Holds (transport : TransportState) (first : Bytes) (conts : List Bytes) : Prop where
  cid : transport.cid = packetCid first
  cmd : transport.cmd = packetCmd first
  total : transport.totalLen = packetMsgLen first
  received : transport.receivedLen = min (assembledData first conts).length transport.totalLen
  payload : transport.payload.take transport.receivedLen =
    (assembledData first conts).take transport.receivedLen
  nextSeq : transport.nextSeq = UInt8.ofNat conts.length

variable {transport transport' : TransportState} {first : Bytes} {conts : List Bytes}

theorem Holds.of_same (h : Holds transport first conts) (hsame : SameMessage transport transport') :
    Holds transport' first conts := by
  refine ⟨?_, ?_, ?_, ?_, ?_, ?_⟩
  · rw [hsame.cid]
    exact h.cid
  · rw [hsame.cmd]
    exact h.cmd
  · rw [hsame.totalLen]
    exact h.total
  · rw [hsame.receivedLen, hsame.totalLen]
    exact h.received
  · rw [hsame.payload, hsame.receivedLen]
    exact h.payload
  · rw [hsame.nextSeq]
    exact h.nextSeq

theorem take_copyPayload {payload : Bytes} {offset : ℕ} (h : (payload.take offset).length = offset)
    (data : Bytes) :
    (copyPayload payload offset data).take (offset + data.length) = payload.take offset ++ data := by
  have hlength : (payload.take offset ++ data).length = offset + data.length := by
    rw [List.length_append, h]
  rw [copyPayload, ← hlength, List.take_left]

/-- The first packet of a message. -/
theorem holds_copyInitPayload {packet : Bytes} (hcid : transport.cid = packetCid packet)
    (hcmd : transport.cmd = packetCmd packet) (htotal : transport.totalLen = packetMsgLen packet)
    (hreceived : transport.receivedLen = 0) (hseq : transport.nextSeq = 0) :
    Holds (copyInitPayload transport packet) packet [] := by
  have hdata : assembledData packet [] = packet.drop 7 := List.append_nil _
  unfold copyInitPayload
  dsimp only
  split_ifs with hchunk
  · refine ⟨hcid, hcmd, htotal, ?_, ?_, hseq⟩
    · rw [hdata, List.length_drop, hreceived]
      exact hchunk.symm
    · rw [hreceived]
      rfl
  · refine ⟨hcid, hcmd, htotal, ?_, ?_, hseq⟩
    · rw [hdata, List.length_drop]
    · have hlength : ((packet.drop 7).take (min (packet.length - 7) transport.totalLen)).length =
          min (packet.length - 7) transport.totalLen := by
        rw [List.length_take, List.length_drop]
        omega
      have htake := @take_copyPayload transport.payload 0 rfl
        ((packet.drop 7).take (min (packet.length - 7) transport.totalLen))
      rw [hlength, Nat.zero_add] at htake
      rw [hdata]
      exact htake

/-- The next continuation. -/
theorem Holds.copyContinuationPayload (h : Holds transport first conts) (packet : Bytes)
    (hcid : transport'.cid = transport.cid) (hcmd : transport'.cmd = transport.cmd)
    (htotal : transport'.totalLen = transport.totalLen)
    (hreceived : transport'.receivedLen = transport.receivedLen)
    (hpayload : transport'.payload = transport.payload)
    (hseq : transport'.nextSeq = transport.nextSeq + 1) :
    Holds (copyContinuationPayload transport' packet) first (conts ++ [packet]) := by
  have hdata : assembledData first (conts ++ [packet]) =
      assembledData first conts ++ packet.drop 5 := by
    simp [assembledData]
  have hnext : transport'.nextSeq = UInt8.ofNat (conts ++ [packet]).length := by
    rw [hseq, h.nextSeq, List.length_append, List.length_singleton, UInt8.ofNat_add]
    rfl
  have hlength : transport'.receivedLen =
      min (assembledData first conts).length transport'.totalLen := by
    rw [hreceived, htotal]
    exact h.received
  have htake : transport'.payload.take transport'.receivedLen =
      (assembledData first conts).take transport'.receivedLen := by
    rw [hpayload, hreceived]
    exact h.payload
  have htotal' : transport'.totalLen = packetMsgLen first := htotal.trans h.total
  generalize hchunk : min (packet.length - 5) (transport'.totalLen - transport'.receivedLen) = chunk
  unfold Usb.copyContinuationPayload
  dsimp only
  rw [hchunk]
  split_ifs with hzero
  · refine ⟨hcid.trans h.cid, hcmd.trans h.cmd, htotal', ?_, ?_, hnext⟩
    · rw [hdata, List.length_append, List.length_drop]
      omega
    · rw [hdata, htake, List.take_append_of_le_length]
      omega
  · have hfull : transport'.receivedLen = (assembledData first conts).length := by omega
    have hdropped : ((packet.drop 5).take chunk).length = chunk := by
      rw [List.length_take, List.length_drop]
      omega
    refine ⟨hcid.trans h.cid, hcmd.trans h.cmd, htotal', ?_, ?_, hnext⟩
    · show transport'.receivedLen + chunk = min _ transport'.totalLen
      rw [hdata, List.length_append, List.length_drop]
      omega
    · have hoffset : (transport'.payload.take transport'.receivedLen).length =
          transport'.receivedLen := by
        rw [htake, List.length_take]
        omega
      have hcopied := take_copyPayload hoffset ((packet.drop 5).take chunk)
      rw [hdropped] at hcopied
      show (copyPayload transport'.payload transport'.receivedLen _).take
        (transport'.receivedLen + chunk) = _
      rw [hcopied, htake, hdata, hfull, List.take_append, List.take_length,
        List.take_of_length_le (Nat.le_add_right _ _), Nat.add_sub_cancel_left]

end Holds

section Effects

variable {transport transport' : TransportState} {packet : Bytes} {handling : Handling}

/-- An accepted packet: the assembly goes on, or is over, perhaps with a complete message. -/
inductive Grown (handling : Handling) (first : Bytes) (conts : List Bytes) : Prop
  | more (complete : handling.complete = none) (holds : Holds handling.transport first conts)
  | ended (complete : handling.complete = none) (inactive : handling.transport.active = false)
  | done {message : CompleteMessage} (inactive : handling.transport.active = false)
      (complete : handling.complete = some message) (cid : packetCid first = message.sessionId)
      (protocol : protocolOf (packetCmd first) = some message.protocol)
      (payload : message.payload = (assembledData first conts).take (packetMsgLen first))
      (enough : packetMsgLen first ≤ (assembledData first conts).length)

/-- What a packet can do to the message that is assembled. -/
inductive AssemblyEffect (transport : TransportState) (packet : Bytes) (handling : Handling) : Prop
  | kept (complete : handling.complete = none) (same : SameMessage transport handling.transport)
  | dropped (complete : handling.complete = none) (inactive : handling.transport.active = false)
  | started (length : 7 ≤ packet.length) (init : isInitPacket packet = true)
      (total : packetMsgLen packet ≤ maxMsgSize) (grown : Grown handling packet [])
  | continued (active : transport.active = true) (cont : isInitPacket packet = false)
      (seq : packetCmd packet = transport.nextSeq) (cid : packetCid packet = transport.cid)
      (grown : ∀ first conts, Holds transport first conts →
        Grown handling first (conts ++ [packet]))

/-- What a packet leaves. -/
structure Effect (transport : TransportState) (packet : Bytes) (handling : Handling) : Prop where
  wellFormed : WellFormed handling.transport
  occupied : handling.complete ≠ none → Occupied handling.transport
  assembly : AssemblyEffect transport packet handling

/-- A packet that changes the channels at most. -/
structure Kept (transport : TransportState) (handling : Handling) : Prop where
  same : SameMessage transport handling.transport
  wellFormed : WellFormed handling.transport
  complete : handling.complete = none

theorem Kept.effect (h : Kept transport handling) : Effect transport packet handling :=
  ⟨h.wellFormed, fun habsurd ↦ absurd h.complete habsurd, .kept h.complete h.same⟩

theorem WellFormed.kept_unchanged (h : WellFormed transport) :
    Kept transport { transport := transport } :=
  ⟨.refl _, h, rfl⟩

theorem WellFormed.kept_refuse (h : WellFormed transport) (cid : UInt32) (code : UInt8) :
    Kept transport (refuse transport cid code) :=
  ⟨.refl _, h, rfl⟩

/-- CANCEL never disturbs the assembly. -/
theorem WellFormed.kept_cancel (h : WellFormed transport) :
    Kept transport { transport := { transport with processingCancelRequested := true }
                     cancelPending := true } := by
  refine ⟨⟨rfl, rfl, rfl, rfl, rfl, rfl, rfl⟩, ?_, rfl⟩
  exact h.of_same ⟨rfl, rfl, rfl, rfl, rfl, rfl, rfl⟩ ⟨rfl, Or.inl rfl⟩ id

theorem WellFormed.sessionReset (h : WellFormed transport) : WellFormed (sessionReset transport) where
  received := Nat.le_refl _
  total := Nat.zero_le _
  distinct := h.distinct
  unreserved := h.unreserved
  bounded := h.bounded
  locked := h.locked
  occupied := by simp [Usb.sessionReset]

theorem WellFormed.expireLock (h : WellFormed transport) : WellFormed (expireLock transport) :=
  h.of_same ⟨rfl, rfl, rfl, rfl, rfl, rfl, rfl⟩ ⟨rfl, Or.inr rfl⟩ id

/-- A packet that resets the session. -/
theorem WellFormed.effect_reset (h : WellFormed transport')
    (htransport : handling.transport = Usb.sessionReset transport')
    (hcomplete : handling.complete = none) : Effect transport packet handling := by
  refine ⟨?_, fun habsurd ↦ absurd hcomplete habsurd, .dropped hcomplete ?_⟩
  · rw [htransport]
    exact h.sessionReset
  · rw [htransport]
    rfl

/-- Bytes of a packet are copied, no more than are missing. -/
theorem WellFormed.of_received (h : WellFormed transport) (hoccupied : Occupied transport)
    (payload : Bytes) {received : ℕ} (hreceived : received ≤ transport.totalLen) :
    WellFormed { transport with payload := payload, receivedLen := received } ∧
      Occupied { transport with payload := payload, receivedLen := received } := by
  have hoccupied' : Occupied { transport with payload := payload, receivedLen := received } :=
    ⟨hoccupied.allocated, hoccupied.unlocked⟩
  exact ⟨⟨hreceived, h.total, h.distinct, h.unreserved, h.bounded, h.locked, fun _ ↦ hoccupied'⟩,
    hoccupied'⟩

theorem WellFormed.copyInitPayload (h : WellFormed transport) (hoccupied : Occupied transport)
    (packet : Bytes) : WellFormed (copyInitPayload transport packet) ∧
      Occupied (copyInitPayload transport packet) := by
  unfold Usb.copyInitPayload
  dsimp only
  split_ifs
  · exact ⟨h, hoccupied⟩
  · exact h.of_received hoccupied _ (Nat.min_le_right _ _)

theorem WellFormed.copyContinuationPayload (h : WellFormed transport)
    (hoccupied : Occupied transport) (packet : Bytes) :
    WellFormed (copyContinuationPayload transport packet) ∧
      Occupied (copyContinuationPayload transport packet) := by
  have hreceived := h.received
  unfold Usb.copyContinuationPayload
  dsimp only
  split_ifs
  · exact ⟨h, hoccupied⟩
  · exact h.of_received hoccupied _ (by omega)

/-- The assembly is over once the last byte has come. -/
theorem WellFormed.completeIfReady (h : WellFormed transport) (hoccupied : Occupied transport)
    (capabilities : Capabilities) :
    WellFormed (completeIfReady transport capabilities).transport ∧
      ((completeIfReady transport capabilities).complete ≠ none →
        Occupied (completeIfReady transport capabilities).transport) := by
  have hoccupied' : Occupied { transport with active := false } :=
    ⟨hoccupied.allocated, hoccupied.unlocked⟩
  have hinactive : WellFormed { transport with active := false } :=
    ⟨h.received, h.total, h.distinct, h.unreserved, h.bounded, h.locked, fun _ ↦ hoccupied'⟩
  unfold Usb.completeIfReady
  split_ifs
  · exact ⟨h, fun habsurd ↦ absurd rfl habsurd⟩
  · dsimp only
    split
    · exact ⟨hinactive.sessionReset, fun habsurd ↦ absurd rfl habsurd⟩
    · split
      · exact ⟨hinactive, fun habsurd ↦ absurd rfl habsurd⟩
      · exact ⟨hinactive, fun _ ↦ hoccupied'⟩

/-- The message is complete when the last byte has come. -/
theorem Holds.grown_completeIfReady {first : Bytes} {conts : List Bytes}
    (h : Holds transport first conts) (capabilities : Capabilities) :
    Grown (completeIfReady transport capabilities) first conts := by
  unfold Usb.completeIfReady
  by_cases hmore : transport.receivedLen ≠ transport.totalLen
  · rw [if_pos hmore]
    exact .more rfl h
  · rw [if_neg hmore]
    have hfull := not_not.mp hmore
    dsimp only
    split
    · exact .ended rfl rfl
    · split
      · exact .ended rfl rfl
      · rename_i protocol hprotocol
        have hreceived := h.received
        refine .done rfl rfl h.cid.symm ?_ ?_ ?_
        · rw [← h.cmd]
          exact hprotocol
        · show transport.payload.take transport.totalLen = _
          rw [← hfull, h.payload, hfull, h.total]
        · rw [← h.total]
          omega

theorem WellFormed.effect_handleLock (h : WellFormed transport)
    (hidle : transport.processing = false)
    (hfree : isBusyForCid transport (packetCid packet) = false) (now : UInt32) :
    Effect transport packet (handleLock transport packet now) := by
  unfold handleLock
  dsimp only
  by_cases hlength : packetMsgLen packet ≠ 1 ∨ packet.length - 7 < packetMsgLen packet
  · rw [if_pos hlength]
    exact (h.kept_refuse _ _).effect
  rw [if_neg hlength]
  by_cases hallocated : (!cidIsAllocated transport (packetCid packet)) = true
  · rw [if_pos hallocated]
    exact (h.kept_refuse _ _).effect
  rw [if_neg hallocated]
  by_cases hseconds : 10 < packet.getD 7 0
  · rw [if_pos hseconds]
    exact (h.kept_refuse _ _).effect
  rw [if_neg hseconds]
  obtain ⟨hchannels, hmessage⟩ := @sameChannels_touchCid transport (packetCid packet) now
  have htouched : WellFormed (touchCid transport (packetCid packet) now) := by
    refine h.of_same hmessage hchannels ?_
    rw [(sameRequest_touchCid transport (packetCid packet) now).processing]
    exact id
  split_ifs with hopen howner
  · refine (Kept.mk (hmessage.trans ⟨rfl, rfl, rfl, rfl, rfl, rfl, rfl⟩) ?_ rfl).effect
    exact htouched.of_same ⟨rfl, rfl, rfl, rfl, rfl, rfl, rfl⟩ ⟨rfl, Or.inr rfl⟩ id
  · exact (Kept.mk hmessage htouched rfl).effect
  · -- The lock is taken: a message that is being assembled is on the same channel.
    have hallocated' : cidIsAllocated (touchCid transport (packetCid packet) now)
        (packetCid packet) = true := by
      rw [cidIsAllocated_congr hchannels.channels]
      simpa using hallocated
    refine (Kept.mk (hmessage.trans ⟨rfl, rfl, rfl, rfl, rfl, rfl, rfl⟩) ?_ rfl).effect
    refine ⟨htouched.received, htouched.total, htouched.distinct, htouched.unreserved,
      htouched.bounded, fun _ ↦ hallocated', fun hbusy ↦ ?_⟩
    have hactive : transport.active = true := by
      rcases hbusy with hactive | hprocessing
      · exact hmessage.active.symm.trans hactive
      · have habsurd := (sameRequest_touchCid transport (packetCid packet) now).processing.symm.trans
          hprocessing
        rw [hidle] at habsurd
        exact absurd habsurd Bool.false_ne_true
    have hcid : packetCid packet = transport.cid := by
      rw [isBusyForCid, hactive, Bool.true_and] at hfree
      exact bne_eq_false_iff_eq.mp hfree
    have hcid' := hcid.trans hmessage.cid.symm
    refine ⟨?_, Or.inr hcid'⟩
    rw [← hcid']
    exact hallocated'

theorem WellFormed.effect_handleIdleInit (h : WellFormed transport) (surroundings : Surroundings) :
    Effect transport packet (handleIdleInit transport packet surroundings) := by
  obtain ⟨hallocate, hsame, -⟩ := h.allocateCid surroundings
  obtain ⟨hchannels, hmessage⟩ :=
    @sameChannels_touchCid transport (packetCid packet) surroundings.now
  unfold handleIdleInit
  dsimp only
  split_ifs
  · exact (h.kept_refuse _ _).effect
  · exact (h.kept_refuse _ _).effect
  · split
    · rename_i allocated hallocated
      rw [hallocated] at hallocate hsame
      exact (Kept.mk hsame hallocate rfl).effect
    · rename_i allocated assignedCid hallocated
      rw [hallocated] at hallocate
      exact hallocate.effect_reset rfl rfl
  · exact (h.kept_refuse _ _).effect
  · refine WellFormed.effect_reset (h.of_same hmessage hchannels ?_) rfl rfl
    rw [(sameRequest_touchCid transport (packetCid packet) surroundings.now).processing]
    exact id

theorem WellFormed.effect_handleInitCommand (h : WellFormed transport)
    (hidle : transport.processing = false)
    (hfree : packetCmd packet ≠ cmdCancel → isBusyForCid transport (packetCid packet) = false)
    {surroundings : Surroundings}
    (hhandling : handleInitCommand transport packet surroundings = some handling) :
    Effect transport packet handling := by
  unfold handleInitCommand at hhandling
  dsimp only at hhandling
  split_ifs at hhandling with hcancel _ _ _ _ _ hcid
  all_goals obtain rfl := Option.some_injective _ hhandling
  · exact (h.kept_refuse _ _).effect
  · exact h.kept_cancel.effect
  · exact h.kept_unchanged.effect
  · exact h.effect_handleLock hidle (hfree hcancel) _
  · exact h.effect_handleIdleInit _
  · exact h.effect_reset rfl rfl
  · exact (h.kept_refuse _ _).effect

/-- The first packet of a message, on a channel that no lock excludes. -/
theorem WellFormed.effect_startMessage (h : WellFormed transport)
    (hlength : 7 ≤ packet.length) (hinit : isInitPacket packet = true)
    (hfree : lockBlocksCid transport (packetCid packet) = false) (surroundings : Surroundings) :
    Effect transport packet (startMessage transport packet surroundings) := by
  obtain ⟨hchannels, hmessage⟩ :=
    @sameChannels_touchCid transport (packetCid packet) surroundings.now
  have htouched : WellFormed (touchCid transport (packetCid packet) surroundings.now) := by
    refine h.of_same hmessage hchannels ?_
    rw [(sameRequest_touchCid transport (packetCid packet) surroundings.now).processing]
    exact id
  unfold startMessage beginMessage
  dsimp only
  by_cases hallocated : (!cidIsAllocated transport (packetCid packet)) = true
  · rw [if_pos hallocated]
    exact (h.kept_refuse _ _).effect
  rw [if_neg hallocated]
  by_cases hrefused : maxMsgSize < packetMsgLen packet ∨
      validCommandLength (packetCmd packet) (packetMsgLen packet) = false
  · rw [if_pos hrefused, if_neg Bool.false_ne_true]
    exact htouched.effect_reset rfl rfl
  rw [if_neg hrefused, if_pos rfl]
  dsimp only
  generalize hbegun : ({ Usb.sessionReset (touchCid transport (packetCid packet) surroundings.now) with
    active := true, cid := packetCid packet, cmd := packetCmd packet,
    totalLen := packetMsgLen packet, nextSeq := 0,
    lastActivity := surroundings.now } : TransportState) = begun
  have htotal : packetMsgLen packet ≤ maxMsgSize := by omega
  have hholds : Holds (Usb.copyInitPayload begun packet) packet [] := by
    rw [← hbegun]
    exact holds_copyInitPayload rfl rfl rfl rfl rfl
  have hoccupied : Occupied begun := by
    rw [← hbegun]
    constructor
    · show cidIsAllocated (touchCid transport (packetCid packet) surroundings.now)
        (packetCid packet) = true
      rw [cidIsAllocated_congr hchannels.channels]
      simpa using hallocated
    · show (touchCid transport (packetCid packet) surroundings.now).lockCid = 0 ∨
        (touchCid transport (packetCid packet) surroundings.now).lockCid = packetCid packet
      rw [lockBlocksCid, Bool.and_eq_false_iff, bne_eq_false_iff_eq, bne_eq_false_iff_eq] at hfree
      rcases hchannels.lock with hlock | hlock
      · rw [hlock]
        exact hfree.imp id Eq.symm
      · exact Or.inl hlock
  have hstarted : WellFormed begun := by
    rw [← hbegun]
    refine ⟨Nat.zero_le _, htotal, htouched.distinct, htouched.unreserved, htouched.bounded,
      htouched.locked, fun _ ↦ ?_⟩
    rw [hbegun]
    exact hoccupied
  obtain ⟨hcopied, hcopiedOccupied⟩ := hstarted.copyInitPayload hoccupied packet
  obtain ⟨hwellFormed, hcomplete⟩ :=
    hcopied.completeIfReady hcopiedOccupied surroundings.capabilities
  exact ⟨hwellFormed, hcomplete, .started hlength hinit htotal (hholds.grown_completeIfReady _)⟩

theorem WellFormed.effect_handleInitPacket (h : WellFormed transport)
    (hinit : isInitPacket packet = true)
    (hfree : lockBlocksCid transport (packetCid packet) = false)
    (hidle : transport.processing = false) (surroundings : Surroundings) :
    Effect transport packet (handleInitPacket transport packet surroundings) := by
  unfold handleInitPacket
  dsimp only
  by_cases hlength : packet.length < 7
  · rw [if_pos hlength]
    exact (h.kept_refuse _ _).effect
  rw [if_neg hlength]
  by_cases hbusy : packetCmd packet ≠ cmdCancel ∧ isBusyForCid transport (packetCid packet) = true
  · rw [if_pos hbusy]
    exact (h.kept_refuse _ _).effect
  rw [if_neg hbusy]
  rw [not_and, Bool.not_eq_true] at hbusy
  cases hcommand : handleInitCommand transport packet surroundings with
  | none => exact h.effect_startMessage (Nat.le_of_not_lt hlength) hinit hfree surroundings
  | some handling => exact h.effect_handleInitCommand hidle hbusy hcommand

/-- A continuation. -/
theorem WellFormed.effect_handleContPacket (h : WellFormed transport) (hcont : isInitPacket packet = false)
    (surroundings : Surroundings) :
    Effect transport packet (handleContPacket transport packet surroundings) := by
  obtain ⟨hchannels, hmessage⟩ :=
    @sameChannels_touchCid transport (packetCid packet) surroundings.now
  unfold handleContPacket
  dsimp only
  by_cases hinactive : (!transport.active) = true
  · rw [if_pos hinactive]
    exact h.kept_unchanged.effect
  rw [if_neg hinactive]
  by_cases hother : packetCmd packet ≠ transport.nextSeq ∨ packetCid packet ≠ transport.cid
  · rw [if_pos hother]
    exact h.effect_reset rfl rfl
  rw [if_neg hother]
  obtain ⟨hseq, hcid⟩ := not_or.mp hother
  have hactive : transport.active = true := by simpa using hinactive
  have hoccupied := hchannels.occupied hmessage.cid (h.occupied (Or.inl hactive))
  generalize hnext : ({ touchCid transport (packetCid packet) surroundings.now with
    nextSeq := transport.nextSeq + 1,
    lastActivity := surroundings.now } : TransportState) = next
  have hnextWellFormed : WellFormed next := by
    rw [← hnext]
    refine SameChannels.wellFormed ⟨hchannels.channels, hchannels.lock⟩ h ?_ ?_ fun _ ↦ ?_
    · show (touchCid _ _ _).receivedLen ≤ (touchCid _ _ _).totalLen
      rw [hmessage.receivedLen, hmessage.totalLen]
      exact h.received
    · show (touchCid _ _ _).totalLen ≤ maxMsgSize
      rw [hmessage.totalLen]
      exact h.total
    · exact ⟨hoccupied.allocated, hoccupied.unlocked⟩
  have hnextOccupied : Occupied next := by
    rw [← hnext]
    exact ⟨hoccupied.allocated, hoccupied.unlocked⟩
  obtain ⟨hcopied, hcopiedOccupied⟩ :=
    hnextWellFormed.copyContinuationPayload hnextOccupied packet
  obtain ⟨hwellFormed, hcomplete⟩ :=
    hcopied.completeIfReady hcopiedOccupied surroundings.capabilities
  -- Whatever the assembly held, the continuation is the next one of it.
  have hgrown : ∀ first conts, Holds transport first conts →
      Holds (Usb.copyContinuationPayload next packet) first (conts ++ [packet]) := by
    intro first conts hholds
    refine hholds.copyContinuationPayload packet ?_ ?_ ?_ ?_ ?_ ?_
    · rw [← hnext]
      exact hmessage.cid
    · rw [← hnext]
      exact hmessage.cmd
    · rw [← hnext]
      exact hmessage.totalLen
    · rw [← hnext]
      exact hmessage.receivedLen
    · rw [← hnext]
      exact hmessage.payload
    · rw [← hnext]
  exact ⟨hwellFormed, hcomplete, .continued hactive hcont (not_not.mp hseq) (not_not.mp hcid)
    fun first conts hholds ↦ (hgrown first conts hholds).grown_completeIfReady _⟩

/-- INIT on the channel of the request that is being processed. -/
theorem WellFormed.kept_resyncProcessing (h : WellFormed transport) (packet : Bytes)
    (surroundings : Surroundings) :
    Kept transport (resyncProcessing transport packet surroundings).1 := by
  unfold resyncProcessing
  dsimp only
  split_ifs
  · exact h.kept_refuse _ _
  · exact h.kept_refuse _ _
  · generalize hended : ({ transport with
      processingResync := true, processing := false,
      processingGeneration := transport.processingGeneration + 1 } : TransportState) = ended
    have hsame : SameMessage transport ended := by
      rw [← hended]
      exact ⟨rfl, rfl, rfl, rfl, rfl, rfl, rfl⟩
    have hendedWellFormed : WellFormed ended := by
      rw [← hended]
      refine h.of_same ⟨rfl, rfl, rfl, rfl, rfl, rfl, rfl⟩ ⟨rfl, Or.inl rfl⟩ ?_
      exact fun habsurd ↦ absurd habsurd Bool.false_ne_true
    obtain ⟨hchannels, hmessage⟩ := @sameChannels_touchCid ended (packetCid packet) surroundings.now
    refine ⟨hsame.trans hmessage, hendedWellFormed.of_same hmessage hchannels ?_, rfl⟩
    rw [(sameRequest_touchCid ended (packetCid packet) surroundings.now).processing]
    exact id

/-- INIT on the broadcast channel while a request is being processed. -/
theorem WellFormed.kept_recoverProcessing (h : WellFormed transport) (packet : Bytes)
    (surroundings : Surroundings) :
    Kept transport (recoverProcessingWithBroadcastInit transport packet surroundings).1 := by
  obtain ⟨hallocate, hsame, -⟩ := h.allocateCid surroundings
  unfold recoverProcessingWithBroadcastInit
  split_ifs
  · exact h.kept_refuse _ _
  · split
    · rename_i allocated hallocated
      rw [hallocated] at hallocate hsame
      exact ⟨hsame, hallocate, rfl⟩
    · rename_i allocated assignedCid hallocated
      rw [hallocated] at hallocate hsame
      refine ⟨hsame.trans ⟨rfl, rfl, rfl, rfl, rfl, rfl, rfl⟩, ?_, rfl⟩
      refine hallocate.of_same ⟨rfl, rfl, rfl, rfl, rfl, rfl, rfl⟩ ⟨rfl, Or.inl rfl⟩ ?_
      exact fun habsurd ↦ absurd habsurd Bool.false_ne_true

/-- A packet read in the approval wait of the request that is being processed. -/
theorem WellFormed.kept_handleProcessingPacket (h : WellFormed transport) (packet : Bytes)
    (surroundings : Surroundings) :
    Kept transport (handleProcessingPacket transport packet surroundings) := by
  unfold handleProcessingPacket
  dsimp only
  split_ifs with hlength _ hcancel
  · exact h.kept_refuse _ _
  · exact h.kept_refuse _ _
  · unfold handleInitPacket
    dsimp only
    rw [if_neg hlength, if_neg (fun hbusy ↦ hbusy.1 hcancel), handleInitCommand, if_pos hcancel]
    split_ifs
    · exact h.kept_refuse _ _
    · exact h.kept_cancel
    · exact h.kept_unchanged
  · exact h.kept_resyncProcessing _ _
  · exact h.kept_recoverProcessing _ _
  · exact h.kept_refuse _ _

/-- A packet read in a poll. -/
theorem WellFormed.kept_handleProcessingControl (h : WellFormed transport) (packet : Bytes)
    (surroundings : Surroundings) :
    Kept transport (handleProcessingControl transport packet surroundings).1 := by
  unfold handleProcessingControl
  dsimp only
  split_ifs
  · exact h.kept_unchanged
  · exact h.kept_unchanged
  · exact h.kept_refuse _ _
  · exact h.kept_refuse _ _
  · exact h.kept_cancel
  · exact h.kept_unchanged
  · exact h.kept_resyncProcessing _ _
  · exact h.kept_recoverProcessing _ _
  · exact h.kept_refuse _ _
  · exact h.kept_unchanged

/-- The effect seen from before the lock was refreshed. -/
theorem Effect.of_same (hsame : SameMessage transport transport')
    (h : Effect transport' packet handling) : Effect transport packet handling := by
  refine ⟨h.wellFormed, h.occupied, ?_⟩
  cases h.assembly with
  | kept complete same => exact .kept complete (hsame.trans same)
  | dropped complete inactive => exact .dropped complete inactive
  | started length init total grown => exact .started length init total grown
  | continued active cont seq cid grown =>
    rw [hsame.active] at active
    rw [hsame.nextSeq] at seq
    rw [hsame.cid] at cid
    exact .continued active cont seq cid fun first conts hholds ↦
      grown first conts (hholds.of_same hsame)

/-- A packet handled by the session. -/
theorem WellFormed.effect_handlePacket (h : WellFormed transport) (packet : Bytes)
    (surroundings : Surroundings) :
    Effect transport packet (handlePacket transport packet surroundings) := by
  obtain ⟨-, hmessage⟩ := @sameChannels_refreshLock transport surroundings.now
  have hrefreshed := h.refreshLock surroundings.now
  unfold handlePacket
  dsimp only
  split_ifs with _ hblocked hprocessing _ hinit
  · exact h.kept_unchanged.effect
  · exact (hrefreshed.kept_refuse _ _).effect.of_same hmessage
  · exact (hrefreshed.kept_handleProcessingPacket packet surroundings).effect.of_same hmessage
  · exact (hrefreshed.kept_refuse _ _).effect.of_same hmessage
  · rw [Bool.not_eq_true] at hblocked hprocessing
    exact (hrefreshed.effect_handleInitPacket hinit hblocked hprocessing surroundings).of_same
      hmessage
  · rw [Bool.not_eq_true] at hinit
    exact (hrefreshed.effect_handleContPacket hinit surroundings).of_same hmessage

end Effects

section Run

variable {session : Session} {read : List Bytes} {packet first : Bytes} {conts : List Bytes}

theorem follows_first (hlength : 7 ≤ packet.length) (hinit : isInitPacket packet = true) :
    Follows (read ++ [packet]) packet [] where
  order := ⟨read, [], rfl, List.Sublist.refl _⟩
  length := hlength
  init := hinit
  continues := by simp [Continues]

/-- A packet that is not used. -/
theorem Follows.skip (h : Follows read first conts) (packet : Bytes) :
    Follows (read ++ [packet]) first conts := by
  obtain ⟨before, after, horder, hsublist⟩ := h.order
  refine ⟨⟨before, after ++ [packet], ?_, ?_⟩, h.length, h.init, h.continues⟩
  · rw [horder, List.append_assoc, List.cons_append]
  · exact hsublist.trans (List.sublist_append_left after [packet])

/-- A packet that is used as the next continuation. -/
theorem Follows.continue (h : Follows read first conts) (hcont : isInitPacket packet = false)
    (hseq : packetCmd packet = UInt8.ofNat conts.length)
    (hcid : packetCid packet = packetCid first) :
    Follows (read ++ [packet]) first (conts ++ [packet]) := by
  obtain ⟨before, after, horder, hsublist⟩ := h.order
  refine ⟨⟨before, after ++ [packet], ?_, ?_⟩, h.length, h.init, ?_⟩
  · rw [horder, List.append_assoc, List.cons_append]
  · exact hsublist.append (List.Sublist.refl _)
  · intro index next hnext
    rcases Nat.lt_or_ge index conts.length with hindex | hindex
    · rw [List.getElem?_append_left hindex] at hnext
      exact h.continues index next hnext
    · rw [List.getElem?_append_right hindex, List.getElem?_singleton] at hnext
      obtain ⟨hlast, rfl⟩ := Option.ite_some_none_eq_some.mp hnext
      have hindex' : index = conts.length := by omega
      rw [hindex']
      exact ⟨hcont, hseq, hcid⟩

/-- The channels stay in order when a message is handed to the dispatcher. -/
theorem WellFormed.handle (h : WellFormed session.transport) (packet : Bytes)
    (surroundings : Surroundings) : WellFormed (session.handle packet surroundings).transport := by
  have heffect := h.effect_handlePacket packet surroundings
  have hwellFormed := heffect.wellFormed
  unfold Session.handle
  dsimp only
  split
  · exact hwellFormed
  · rename_i message hcomplete
    have hoccupied := heffect.occupied (by rw [hcomplete]; exact Option.some_ne_none _)
    exact ⟨hwellFormed.received, hwellFormed.total, hwellFormed.distinct, hwellFormed.unreserved,
      hwellFormed.bounded, hwellFormed.locked, fun _ ↦ ⟨hoccupied.allocated, hoccupied.unlocked⟩⟩

theorem WellFormed.sessionTick {transport : TransportState} (h : WellFormed transport)
    (now : UInt32) : WellFormed (sessionTick transport now).transport := by
  unfold Usb.sessionTick
  dsimp only
  by_cases htimedOut : (transport.active &&
      decide (assemblyTimeoutMs ≤ (now - transport.lastActivity).toNat)) = true
  · rw [if_pos htimedOut]
    split_ifs
    · exact h.sessionReset.expireLock
    · exact h.sessionReset
  · rw [if_neg htimedOut]
    split_ifs
    · exact h.expireLock
    · exact h

/-- Every step keeps the channels, the lock and the lengths in order. -/
theorem WellFormed.sessionStep (h : WellFormed session.transport) (event : SessionEvent) :
    WellFormed (sessionStep session event).transport := by
  cases event with
  | packet packet surroundings => exact h.handle packet surroundings
  | control packet surroundings =>
    exact (h.kept_handleProcessingControl packet surroundings).wellFormed
  | tick now => exact h.sessionTick now
  | connection => exact h.sessionReset.expireLock
  | cancel | stop =>
    exact h.of_same ⟨rfl, rfl, rfl, rfl, rfl, rfl, rfl⟩ ⟨rfl, Or.inl rfl⟩ id
  | returned =>
    refine h.of_same ⟨rfl, rfl, rfl, rfl, rfl, rfl, rfl⟩ ⟨rfl, Or.inl rfl⟩ ?_
    exact fun habsurd ↦ absurd habsurd Bool.false_ne_true

/-- What holds of a session in every run. -/
structure Sound (session : Session) : Prop where
  wellFormed : WellFormed session.transport
  assembling : session.transport.active = true → ∃ first conts,
    Follows session.read first conts ∧ Holds session.transport first conts ∧
      packetMsgLen first ≤ maxMsgSize
  dispatched : ∀ entry ∈ session.dispatched, Assembled entry.1 entry.2

theorem sound_initial : Sound {} where
  wellFormed := wellFormed_initial
  assembling := by simp
  dispatched := by simp

/-- The rule for a step after which the session has dispatched no message. -/
theorem Sound.of_kept (h : Sound session) {session' : Session}
    (hwellFormed : WellFormed session'.transport) (hdispatched : session'.dispatched = session.dispatched)
    (hmessage : session'.transport.active = true →
      SameMessage session.transport session'.transport)
    (hread : session'.read = session.read ∨ ∃ packet, session'.read = session.read ++ [packet]) :
    Sound session' := by
  refine ⟨hwellFormed, fun hactive ↦ ?_, ?_⟩
  · have hsame := hmessage hactive
    obtain ⟨first, conts, hfollows, hholds, htotal⟩ :=
      h.assembling (hsame.active.symm.trans hactive)
    refine ⟨first, conts, ?_, hholds.of_same hsame, htotal⟩
    rcases hread with hread | ⟨packet, hread⟩
    · rw [hread]
      exact hfollows
    · rw [hread]
      exact hfollows.skip packet
  · rw [hdispatched]
    exact h.dispatched

/-- An accepted packet, seen from the session. -/
theorem Sound.of_grown (h : Sound session) {surroundings : Surroundings}
    (hfollows : Follows (session.read ++ [packet]) first conts)
    (htotal : packetMsgLen first ≤ maxMsgSize)
    (hgrown : Grown (handlePacket session.transport packet surroundings) first conts) :
    Sound (session.handle packet surroundings) := by
  have hwellFormed := h.wellFormed.handle packet surroundings
  unfold Session.handle at hwellFormed ⊢
  dsimp only at hwellFormed ⊢
  cases hgrown with
  | more complete holds =>
    rw [complete] at hwellFormed ⊢
    exact ⟨hwellFormed, fun _ ↦ ⟨first, conts, hfollows, holds, htotal⟩, h.dispatched⟩
  | ended complete inactive =>
    rw [complete] at hwellFormed ⊢
    exact ⟨hwellFormed,
      fun hactive ↦ absurd (inactive.symm.trans hactive) Bool.false_ne_true, h.dispatched⟩
  | @done message inactive complete cid protocol payload enough =>
    rw [complete] at hwellFormed ⊢
    refine ⟨hwellFormed,
      fun hactive ↦ absurd (inactive.symm.trans hactive) Bool.false_ne_true, fun entry hentry ↦ ?_⟩
    rcases List.mem_append.mp hentry with hentry | hentry
    · exact h.dispatched entry hentry
    · rw [List.mem_singleton.mp hentry]
      exact ⟨first, conts, hfollows, cid, protocol, payload, enough, htotal⟩

theorem Sound.handle (h : Sound session) (packet : Bytes) (surroundings : Surroundings) :
    Sound (session.handle packet surroundings) := by
  have hwellFormed := h.wellFormed.handle packet surroundings
  cases (h.wellFormed.effect_handlePacket packet surroundings).assembly with
  | kept complete same =>
    unfold Session.handle at hwellFormed ⊢
    dsimp only at hwellFormed ⊢
    rw [complete] at hwellFormed ⊢
    exact h.of_kept hwellFormed rfl (fun _ ↦ same) (Or.inr ⟨packet, rfl⟩)
  | dropped complete inactive =>
    unfold Session.handle at hwellFormed ⊢
    dsimp only at hwellFormed ⊢
    rw [complete] at hwellFormed ⊢
    refine h.of_kept hwellFormed rfl (fun hactive ↦ ?_) (Or.inr ⟨packet, rfl⟩)
    exact absurd (inactive.symm.trans hactive) Bool.false_ne_true
  | started length init total grown => exact h.of_grown (follows_first length init) total grown
  | continued active cont seq cid grown =>
    obtain ⟨first, conts, hfollows, hholds, htotal⟩ := h.assembling active
    refine h.of_grown (hfollows.continue cont ?_ ?_) htotal (grown first conts hholds)
    · exact seq.trans hholds.nextSeq
    · exact cid.trans hholds.cid

theorem sameMessage_sessionTick {transport : TransportState} {now : UInt32}
    (hactive : (sessionTick transport now).transport.active = true) :
    SameMessage transport (sessionTick transport now).transport := by
  unfold sessionTick at hactive ⊢
  dsimp only at hactive ⊢
  by_cases htimedOut : (transport.active &&
      decide (assemblyTimeoutMs ≤ (now - transport.lastActivity).toNat)) = true
  · rw [if_pos htimedOut] at hactive
    split_ifs at hactive
    · exact absurd hactive Bool.false_ne_true
    · exact absurd hactive Bool.false_ne_true
  · rw [if_neg htimedOut]
    split_ifs
    · exact ⟨rfl, rfl, rfl, rfl, rfl, rfl, rfl⟩
    · exact .refl _

/-- Every step keeps the session sound. -/
theorem Sound.step (h : Sound session) (event : SessionEvent) :
    Sound (sessionStep session event) := by
  have hwellFormed := h.wellFormed.sessionStep event
  cases event with
  | packet packet surroundings => exact h.handle packet surroundings
  | control packet surroundings =>
    have hkept := h.wellFormed.kept_handleProcessingControl packet surroundings
    exact h.of_kept hwellFormed rfl (fun _ ↦ hkept.same) (Or.inl rfl)
  | tick now => exact h.of_kept hwellFormed rfl sameMessage_sessionTick (Or.inl rfl)
  | connection =>
    exact h.of_kept hwellFormed rfl (fun hactive ↦ absurd hactive Bool.false_ne_true) (Or.inl rfl)
  | cancel | stop | returned =>
    exact h.of_kept hwellFormed rfl (fun _ ↦ ⟨rfl, rfl, rfl, rfl, rfl, rfl, rfl⟩) (Or.inl rfl)

/-- The packets read for the messages, and those read since, are the packets that were handled. -/
theorem handledPackets_run (session : Session) (events : List SessionEvent) :
    (run sessionStep session events).dispatched.flatMap Prod.fst ++
        (run sessionStep session events).read =
      session.dispatched.flatMap Prod.fst ++ session.read ++ handledPackets events := by
  induction events generalizing session with
  | nil => exact (List.append_nil _).symm
  | cons event events ih =>
    rw [run_cons, ih]
    cases event with
    | packet packet surroundings =>
      rw [handledPackets, sessionStep, Session.handle]
      split <;> simp
    | _ => rfl

theorem sound_run (events : List SessionEvent) : Sound (run sessionStep {} events) :=
  @run_invariant_always _ _ sessionStep _ Sound (fun _ event h ↦ h.step event) events sound_initial

/-- Every message that is handed to the dispatcher consists of one first packet and of the
continuations that followed it on its channel, and no packet is read for two messages. -/
theorem message_assembly_sound (events : List SessionEvent) :
    (∀ entry ∈ (run sessionStep {} events).dispatched, Assembled entry.1 entry.2) ∧
      (run sessionStep {} events).dispatched.flatMap Prod.fst ++ (run sessionStep {} events).read =
        handledPackets events ∧
      WellFormed (run sessionStep {} events).transport :=
  ⟨(sound_run events).dispatched, handledPackets_run {} events, (sound_run events).wellFormed⟩

end Run

end ZeroFido.Usb
