import ZeroFido.Usb.Assembly
import ZeroFido.Usb.Worker

/-!
# Framing

`zf_transport_session_send_frames` splits a message into packets, and the session assembles packets
into a message. `sendFrames` is the sender, and hosts split their messages in the same way. A
session that is idle for a channel delivers what was split for that channel
(`delivers_sendFrames`): the packets before the last one are accepted in silence, and the last one
completes the message.

A PING is answered by a PING with the same payload, so splitting, assembling, dispatching and
splitting again returns it to the host (`ping_round_trip_iff`). The empty PING is the exception: it
is dispatched, and its empty answer is taken for the failure of a handler
(`empty_ping_is_an_error`).
-/

set_option autoImplicit false
set_option relaxedAutoImplicit false

namespace ZeroFido.Usb

section Frames

/-- A continuation frame, padded to a HID report. -/
def contFrame (cid : UInt32) (seq : UInt8) (chunk : Bytes) : Bytes :=
  let frame := toLittleEndian 4 cid.toNat ++ seq :: chunk
  frame ++ List.replicate (packetSize - frame.length) 0

/-- The loop of `zf_transport_session_send_frames` over the data that is left. Every round takes
some of it, so there are at most as many rounds as bytes. -/
def contFrames (cid : UInt32) : (rounds : ℕ) → (seq : UInt8) → (data : Bytes) → List Bytes
  | 0, _, _ => []
  | rounds + 1, seq, data =>
    if data = [] then []
    else
      contFrame cid seq (data.take (packetSize - 5)) ::
        contFrames cid rounds (seq + 1) (data.drop (packetSize - 5))

/-- `zf_transport_session_send_frames`. -/
def sendFrames (message : Message) : List Bytes :=
  initFrame message ::
    contFrames message.cid message.data.length 0 (message.data.drop (packetSize - 7))

variable {cid : UInt32} {cmd seq : UInt8} {data chunk : Bytes}

theorem packetCid_append (cid : UInt32) (rest : Bytes) :
    packetCid (toLittleEndian 4 cid.toNat ++ rest) = cid := by
  unfold packetCid
  rw [List.take_left' (length_toLittleEndian 4 _), ofLittleEndian_toLittleEndian]
  · exact UInt32.ofNat_toNat
  · exact cid.toNat_lt

theorem getD_header (cid : UInt32) (rest : Bytes) (index : ℕ) :
    (toLittleEndian 4 cid.toNat ++ rest).getD (4 + index) 0 = rest.getD index 0 := by
  simp only [List.getD_eq_getElem?_getD]
  rw [List.getElem?_append_right (by simp), length_toLittleEndian, Nat.add_sub_cancel_left]

theorem drop_header (cid : UInt32) (rest : Bytes) (count : ℕ) :
    (toLittleEndian 4 cid.toNat ++ rest).drop (4 + count) = rest.drop count := by
  rw [← List.drop_drop, List.drop_left' (length_toLittleEndian 4 _)]

/-- What the session reads from the first frame of a message. -/
structure ReadsInit (frame : Bytes) (message : Message) : Prop where
  length : frame.length = packetSize
  cid : packetCid frame = message.cid
  cmd : packetCmd frame = message.cmd
  total : packetMsgLen frame = message.data.length
  data : ∃ padding, frame.drop 7 = message.data.take (packetSize - 7) ++ padding ∧
    padding.length = packetSize - 7 - message.data.length

theorem readsInit_initFrame (message : Message) (hsize : message.data.length < 65536) :
    ReadsInit (initFrame message) message := by
  unfold initFrame
  dsimp only
  generalize hpadding : List.replicate (packetSize - (toLittleEndian 4 message.cid.toNat ++
    [message.cmd, UInt8.ofNat (message.data.length / 256), UInt8.ofNat message.data.length] ++
    message.data.take (packetSize - 7)).length) (0 : UInt8) = padding
  have hlength : padding.length = packetSize - 7 - message.data.length := by
    rw [← hpadding]
    simp [packetSize]
    omega
  rw [List.append_assoc, List.append_assoc]
  refine ⟨?_, packetCid_append _ _, getD_header _ _ 0, ?_, padding, drop_header _ _ 3, hlength⟩
  · simp [hlength, packetSize]
    omega
  · unfold packetMsgLen
    rw [getD_header _ _ 1, getD_header _ _ 2]
    show 256 * (UInt8.ofNat (message.data.length / 256)).toNat +
      (UInt8.ofNat message.data.length).toNat = _
    rw [UInt8.toNat_ofNat', UInt8.toNat_ofNat']
    omega

/-- What the session reads from a continuation frame. -/
structure ReadsCont (frame : Bytes) (cid : UInt32) (seq : UInt8) (chunk : Bytes) : Prop where
  length : frame.length = packetSize
  cid : packetCid frame = cid
  seq : packetCmd frame = seq
  data : ∃ padding, frame.drop 5 = chunk ++ padding ∧
    padding.length = packetSize - 5 - chunk.length

theorem readsCont_contFrame (hchunk : chunk.length ≤ packetSize - 5) :
    ReadsCont (contFrame cid seq chunk) cid seq chunk := by
  unfold contFrame
  dsimp only
  generalize hpadding : List.replicate (packetSize - (toLittleEndian 4 cid.toNat ++
    seq :: chunk).length) (0 : UInt8) = padding
  have hlength : padding.length = packetSize - 5 - chunk.length := by
    rw [← hpadding]
    simp [packetSize]
    omega
  rw [List.append_assoc]
  refine ⟨?_, packetCid_append _ _, getD_header _ _ 0, padding, drop_header _ _ 1, hlength⟩
  simp [hlength, packetSize] at hchunk ⊢
  omega

end Frames

section Delivery

/-- A session that can take a message of the channel: nothing goes on, and no other channel is
locked. -/
structure IdleFor (transport : TransportState) (cid : UInt32) : Prop where
  inactive : transport.active = false
  idle : transport.processing = false
  allocated : cidIsAllocated transport cid = true
  unlocked : transport.lockCid = 0 ∨ transport.lockCid = cid

/-- Fed to the session in order, the packets are accepted in silence, and the last one completes the
message. The clock says what the session learns from outside at each packet. -/
inductive Delivers : (ℕ → Surroundings) → TransportState → List Bytes → CompleteMessage → Prop
  | last {clock : ℕ → Surroundings} {transport : TransportState} {packet : Bytes}
      {message : CompleteMessage} (sent : (handlePacket transport packet (clock 0)).sent = [])
      (complete : (handlePacket transport packet (clock 0)).complete = some message) :
      Delivers clock transport [packet] message
  | more {clock : ℕ → Surroundings} {transport : TransportState} {packet : Bytes}
      {packets : List Bytes} {message : CompleteMessage}
      (sent : (handlePacket transport packet (clock 0)).sent = [])
      (complete : (handlePacket transport packet (clock 0)).complete = none)
      (rest : Delivers (fun index ↦ clock (index + 1))
        (handlePacket transport packet (clock 0)).transport packets message) :
      Delivers clock transport (packet :: packets) message

/-- A message of the channel is being assembled from the packets. -/
structure Assembling (transport : TransportState) (cid : UInt32) (first : Bytes)
    (conts : List Bytes) : Prop where
  active : transport.active = true
  idle : transport.processing = false
  unlocked : transport.lockCid = 0 ∨ transport.lockCid = cid
  current : transport.cid = cid
  holds : Holds transport first conts

variable {transport : TransportState} {cid : UInt32} {first packet : Bytes} {conts : List Bytes}

theorem SameChannels.unlocked {transport' : TransportState} (h : SameChannels transport transport')
    (hunlocked : transport.lockCid = 0 ∨ transport.lockCid = cid) :
    transport'.lockCid = 0 ∨ transport'.lockCid = cid := by
  rcases h.lock with hlock | hlock
  · rw [hlock]
    exact hunlocked
  · exact Or.inl hlock

/-- The lock does not get in the way of its own channel. -/
theorem lockBlocksCid_eq_false (hunlocked : transport.lockCid = 0 ∨ transport.lockCid = cid) :
    lockBlocksCid transport cid = false := by
  rw [lockBlocksCid, Bool.and_eq_false_iff, bne_eq_false_iff_eq, bne_eq_false_iff_eq]
  exact hunlocked.imp id Eq.symm

/-- The last byte has come: the message is complete unless it fails the checks of its protocol. -/
theorem completeIfReady_of_full (hfull : transport.receivedLen = transport.totalLen)
    {protocol : ProtocolKind} (hprotocol : protocolOf transport.cmd = some protocol)
    (hcmd : transport.cmd ≠ cmdMsg) (capabilities : Capabilities) :
    (completeIfReady transport capabilities).sent = [] ∧
      (completeIfReady transport capabilities).complete =
        some ⟨transport.cid, protocol, transport.payload.take transport.totalLen⟩ := by
  unfold completeIfReady u2fValidationError
  rw [if_neg (not_not.mpr hfull)]
  dsimp only
  rw [if_neg (fun h ↦ hcmd h.1)]
  dsimp only
  rw [hprotocol]
  exact ⟨rfl, rfl⟩

theorem completeIfReady_of_missing (hmissing : transport.receivedLen ≠ transport.totalLen)
    (capabilities : Capabilities) :
    completeIfReady transport capabilities = { transport := transport } := by
  unfold completeIfReady
  rw [if_pos hmissing]

theorem copyInitPayload_same (transport : TransportState) (packet : Bytes) :
    (copyInitPayload transport packet).active = transport.active ∧
      (copyInitPayload transport packet).processing = transport.processing ∧
      (copyInitPayload transport packet).lockCid = transport.lockCid ∧
      (copyInitPayload transport packet).cid = transport.cid := by
  unfold copyInitPayload
  dsimp only
  split_ifs <;> exact ⟨rfl, rfl, rfl, rfl⟩

theorem copyContinuationPayload_same (transport : TransportState) (packet : Bytes) :
    (copyContinuationPayload transport packet).active = transport.active ∧
      (copyContinuationPayload transport packet).processing = transport.processing ∧
      (copyContinuationPayload transport packet).lockCid = transport.lockCid ∧
      (copyContinuationPayload transport packet).cid = transport.cid := by
  unfold copyContinuationPayload
  dsimp only
  split_ifs <;> exact ⟨rfl, rfl, rfl, rfl⟩

/-- The first packet of a message as an idle session handles it. -/
theorem handlePacket_first (h : IdleFor transport cid) (hcid : packetCid packet = cid)
    (hlength : 7 ≤ packet.length) (hinit : isInitPacket packet = true)
    (hcommand : packetCmd packet ≠ cmdCancel ∧ packetCmd packet ≠ cmdLock ∧
      packetCmd packet ≠ cmdInit) (htotal : packetMsgLen packet ≤ maxMsgSize)
    (hvalid : validCommandLength (packetCmd packet) (packetMsgLen packet) = true)
    (surroundings : Surroundings) :
    ∃ transport', Assembling transport' cid packet [] ∧
      handlePacket transport packet surroundings =
        completeIfReady transport' surroundings.capabilities := by
  obtain ⟨hchannels, hmessage⟩ := @sameChannels_refreshLock transport surroundings.now
  have hprocessing := (sameRequest_refreshLock transport surroundings.now).processing.trans h.idle
  have hinactive := hmessage.active.trans h.inactive
  have hallocated := (cidIsAllocated_congr hchannels.channels cid).trans h.allocated
  have hunlocked := hchannels.unlocked h.unlocked
  unfold handlePacket
  dsimp only
  rw [hcid]
  generalize refreshLock transport surroundings.now = refreshed at *
  have hfree := lockBlocksCid_eq_false hunlocked
  have hbusy : isBusyForCid refreshed cid = false := by
    rw [isBusyForCid, hinactive, Bool.false_and]
  have hnew : handleInitCommand refreshed packet surroundings = none := by
    unfold handleInitCommand
    dsimp only
    rw [if_neg hcommand.1, if_neg hcommand.2.1, if_neg hcommand.2.2, hinactive,
      if_neg Bool.false_ne_true]
  have hstart : handleInitPacket refreshed packet surroundings =
      startMessage refreshed packet surroundings := by
    unfold handleInitPacket
    dsimp only
    rw [if_neg (by omega), hcid, hbusy, if_neg (fun hbusy ↦ Bool.false_ne_true hbusy.2), hnew]
    rfl
  rw [if_neg (by omega), hfree, if_neg Bool.false_ne_true, hprocessing, if_neg Bool.false_ne_true,
    hbusy, Bool.and_false, if_neg Bool.false_ne_true, if_pos hinit, hstart]
  unfold startMessage beginMessage
  dsimp only
  rw [hcid, hallocated, if_neg (by simp),
    if_neg (not_or.mpr ⟨Nat.not_lt.mpr htotal, by simp [hvalid]⟩), if_pos rfl]
  refine ⟨_, ?_, rfl⟩
  obtain ⟨hactive, hidle, hlock, hcurrent⟩ := copyInitPayload_same
    { sessionReset (touchCid refreshed cid surroundings.now) with
      active := true, cid := cid, cmd := packetCmd packet, totalLen := packetMsgLen packet,
      nextSeq := 0, lastActivity := surroundings.now } packet
  refine ⟨hactive, hidle, ?_, hcurrent, holds_copyInitPayload hcid.symm rfl rfl rfl rfl⟩
  rw [hlock]
  exact (@sameChannels_touchCid refreshed cid surroundings.now).1.unlocked hunlocked

/-- A continuation as a session handles it that assembles its message. -/
theorem handlePacket_cont (h : Assembling transport cid first conts) (hcid : packetCid packet = cid)
    (hlength : 5 ≤ packet.length) (hcont : isInitPacket packet = false)
    (hseq : packetCmd packet = UInt8.ofNat conts.length) (surroundings : Surroundings) :
    ∃ transport', Assembling transport' cid first (conts ++ [packet]) ∧
      handlePacket transport packet surroundings =
        completeIfReady transport' surroundings.capabilities := by
  obtain ⟨hchannels, hmessage⟩ := @sameChannels_refreshLock transport surroundings.now
  have hprocessing := (sameRequest_refreshLock transport surroundings.now).processing.trans h.idle
  have hactive := hmessage.active.trans h.active
  have hcurrent := hmessage.cid.trans h.current
  have hholds := h.holds.of_same hmessage
  have hunlocked := hchannels.unlocked h.unlocked
  unfold handlePacket
  dsimp only
  rw [hcid]
  generalize refreshLock transport surroundings.now = refreshed at *
  have hfree := lockBlocksCid_eq_false hunlocked
  obtain ⟨htouched, hsame⟩ := @sameChannels_touchCid refreshed cid surroundings.now
  rw [if_neg (by omega), hfree, if_neg Bool.false_ne_true, hprocessing, if_neg Bool.false_ne_true,
    hactive, Bool.not_true, Bool.false_and, if_neg Bool.false_ne_true, hcont,
    if_neg Bool.false_ne_true]
  unfold handleContPacket
  dsimp only
  rw [hactive, Bool.not_true, if_neg Bool.false_ne_true, hcid, hcurrent,
    if_neg (not_or.mpr ⟨not_not.mpr (hseq.trans hholds.nextSeq.symm), not_not.mpr rfl⟩)]
  refine ⟨_, ?_, rfl⟩
  obtain ⟨hactive', hidle', hlock', hcurrent'⟩ := copyContinuationPayload_same
    { touchCid refreshed cid surroundings.now with
      nextSeq := refreshed.nextSeq + 1, lastActivity := surroundings.now } packet
  refine ⟨hactive'.trans (hsame.active.trans hactive), ?_, ?_,
    hcurrent'.trans (hsame.cid.trans hcurrent), ?_⟩
  · exact hidle'.trans ((sameRequest_touchCid refreshed cid surroundings.now).processing.trans
      hprocessing)
  · rw [hlock']
    exact htouched.unlocked hunlocked
  · exact hholds.copyContinuationPayload packet hsame.cid hsame.cmd hsame.totalLen
      hsame.receivedLen hsame.payload rfl

theorem seq_and_typeInit : ∀ index < 128, UInt8.ofNat index &&& typeInit = 0 := by decide

theorem contFrames_nil (cid : UInt32) (rounds : ℕ) (seq : UInt8) :
    contFrames cid rounds seq [] = [] := by
  cases rounds with
  | zero => rfl
  | succ rounds => rfl

/-- The continuations of a message are delivered when the assembly holds the data before them. -/
theorem delivers_contFrames {protocol : ProtocolKind} (hcmd : packetCmd first ≠ cmdMsg)
    (hprotocol : protocolOf (packetCmd first) = some protocol)
    (hsize : packetMsgLen first ≤ maxMsgSize) {rounds : ℕ} {seq : UInt8} {rest : Bytes}
    {clock : ℕ → Surroundings} (h : Assembling transport cid first conts) (hrest : rest ≠ [])
    (hrounds : rest.length ≤ rounds) (hseq : seq = UInt8.ofNat conts.length)
    (htotal : packetMsgLen first = (assembledData first conts).length + rest.length)
    (hlength : (assembledData first conts).length = 57 + 59 * conts.length) :
    Delivers clock transport (contFrames cid rounds seq rest)
      ⟨cid, protocol, assembledData first conts ++ rest⟩ := by
  induction rounds generalizing transport conts seq rest clock with
  | zero => exact absurd (List.eq_nil_of_length_eq_zero (Nat.le_zero.mp hrounds)) hrest
  | succ rounds ih =>
    have hmax : maxMsgSize = 1024 := rfl
    have hchunk : (rest.take (packetSize - 5)).length ≤ packetSize - 5 := List.length_take_le _ _
    have hreads := @readsCont_contFrame cid seq _ hchunk
    unfold contFrames
    rw [if_neg hrest]
    generalize contFrame cid seq (rest.take (packetSize - 5)) = packet at hreads ⊢
    obtain ⟨padding, hdata, hpadding⟩ := hreads.data
    have hcont : isInitPacket packet = false := by
      rw [isInitPacket, hreads.seq, hseq, seq_and_typeInit _ (by omega)]
      rfl
    obtain ⟨transport', hassembling, hhandle⟩ := handlePacket_cont h hreads.cid
      (by rw [hreads.length]; decide) hcont (hreads.seq.trans hseq) (clock 0)
    have hassembled : assembledData first (conts ++ [packet]) =
        assembledData first conts ++ rest.take (packetSize - 5) ++ padding := by
      rw [assembledData, List.flatMap_append, List.flatMap_singleton, hdata]
      simp only [assembledData, List.append_assoc]
    have htotal' := hassembling.holds.total
    have hreceived := hassembling.holds.received
    by_cases hlast : rest.length ≤ packetSize - 5
    · -- The last continuation.
      rw [List.drop_eq_nil_of_le hlast, contFrames_nil]
      rw [List.take_of_length_le hlast] at hassembled
      have hfull : transport'.receivedLen = transport'.totalLen := by
        rw [hreceived, hassembled, htotal', htotal, List.length_append, List.length_append]
        omega
      have hpayload := hassembling.holds.payload
      obtain ⟨hsent, hcomplete⟩ := completeIfReady_of_full hfull
        (hassembling.holds.cmd ▸ hprotocol) (hassembling.holds.cmd ▸ hcmd) (clock 0).capabilities
      refine .last (by rw [hhandle, hsent]) ?_
      rw [hhandle, hcomplete, hassembling.current, ← hfull, hpayload, hfull, htotal', htotal,
        hassembled, ← List.length_append, List.take_left]
    · have hmissing : transport'.receivedLen ≠ transport'.totalLen := by
        have hpad : packetSize - 5 = 59 := rfl
        rw [List.length_take] at hpadding
        rw [hreceived, hassembled, htotal', htotal, List.length_append, List.length_append,
          List.length_take]
        omega
      have hhandle' := hhandle.trans (completeIfReady_of_missing hmissing _)
      have hpad : packetSize - 5 = 59 := rfl
      have hfilled : padding = [] := by
        rw [List.length_take] at hpadding
        exact List.eq_nil_of_length_eq_zero (by omega)
      rw [hfilled, List.append_nil] at hassembled
      have hsplit : assembledData first conts ++ rest =
          assembledData first (conts ++ [packet]) ++ rest.drop (packetSize - 5) := by
        rw [hassembled, List.append_assoc, List.take_append_drop]
      refine .more (by rw [hhandle']) (by rw [hhandle']) ?_
      rw [hhandle', hsplit]
      refine ih hassembling ?_ ?_ ?_ ?_ ?_
      · intro hnil
        exact hlast (List.drop_eq_nil_iff.mp hnil)
      · rw [List.length_drop]
        omega
      · rw [hseq, List.length_append, List.length_singleton, UInt8.ofNat_add]
        rfl
      · rw [hassembled, List.length_append, List.length_take, List.length_drop]
        omega
      · rw [hassembled, List.length_append, List.length_append, List.length_take,
          List.length_singleton]
        omega

/-- A message that was split by the sender is delivered to a session that is idle for its channel.
-/
theorem delivers_sendFrames {cmd : UInt8} {data : Bytes} {protocol : ProtocolKind}
    (h : IdleFor transport cid) (hinit : cmd &&& typeInit ≠ 0) (hcmd : cmd ≠ cmdMsg)
    (hcommand : cmd ≠ cmdCancel ∧ cmd ≠ cmdLock ∧ cmd ≠ cmdInit)
    (hprotocol : protocolOf cmd = some protocol) (hsize : data.length ≤ maxMsgSize)
    (hvalid : validCommandLength cmd data.length = true) (clock : ℕ → Surroundings) :
    Delivers clock transport (sendFrames ⟨cid, cmd, data⟩) ⟨cid, protocol, data⟩ := by
  have hmax : maxMsgSize = 1024 := rfl
  have hfirst : packetSize - 7 = 57 := rfl
  have hreads := readsInit_initFrame ⟨cid, cmd, data⟩ (by dsimp only; omega)
  unfold sendFrames
  dsimp only
  generalize initFrame ⟨cid, cmd, data⟩ = packet at hreads ⊢
  have hlength := hreads.length
  have hpacketCmd := hreads.cmd
  have hpacketTotal := hreads.total
  obtain ⟨padding, hdata, hpadding⟩ := hreads.data
  dsimp only at hpacketCmd hpacketTotal hdata hpadding
  have hassembled : assembledData packet [] = data.take (packetSize - 7) ++ padding := by
    rw [assembledData, List.flatMap_nil, List.append_nil, hdata]
  obtain ⟨transport', hassembling, hhandle⟩ := handlePacket_first h hreads.cid
    (by rw [hlength]; decide) (by rw [isInitPacket, hpacketCmd, bne_iff_ne]; exact hinit)
    (by rw [hpacketCmd]; exact hcommand) (by rw [hpacketTotal]; exact hsize)
    (by rw [hpacketCmd, hpacketTotal]; exact hvalid) (clock 0)
  have htotal' := hassembling.holds.total.trans hpacketTotal
  have hreceived := hassembling.holds.received
  by_cases hlast : data.length ≤ packetSize - 7
  · -- The message is in its first packet.
    rw [List.drop_eq_nil_of_le hlast, contFrames_nil]
    rw [List.take_of_length_le hlast] at hassembled
    have hfull : transport'.receivedLen = transport'.totalLen := by
      rw [hreceived, hassembled, htotal', List.length_append]
      omega
    have hpayload := hassembling.holds.payload
    obtain ⟨hsent, hcomplete⟩ := completeIfReady_of_full hfull
      (by rw [hassembling.holds.cmd, hpacketCmd]; exact hprotocol)
      (by rw [hassembling.holds.cmd, hpacketCmd]; exact hcmd) (clock 0).capabilities
    refine .last (by rw [hhandle, hsent]) ?_
    rw [hhandle, hcomplete, hassembling.current, ← hfull, hpayload, hfull, htotal', hassembled,
      List.take_left]
  · have hfilled : padding = [] := List.eq_nil_of_length_eq_zero (by omega)
    rw [hfilled, List.append_nil] at hassembled
    have hmissing : transport'.receivedLen ≠ transport'.totalLen := by
      rw [hreceived, hassembled, htotal', List.length_take]
      omega
    have hhandle' := hhandle.trans (completeIfReady_of_missing hmissing _)
    have hsplit : data = assembledData packet [] ++ data.drop (packetSize - 7) := by
      rw [hassembled, List.take_append_drop]
    refine .more (by rw [hhandle']) (by rw [hhandle']) ?_
    rw [hhandle']
    have hrest := @delivers_contFrames transport' cid packet [] protocol
      (by rw [hpacketCmd]; exact hcmd) (by rw [hpacketCmd]; exact hprotocol)
      (by rw [hpacketTotal]; exact hsize) data.length 0 (data.drop (packetSize - 7))
      (fun index ↦ clock (index + 1)) hassembling
    rw [← hsplit] at hrest
    refine hrest ?_ ?_ rfl ?_ ?_
    · intro hnil
      exact hlast (List.drop_eq_nil_iff.mp hnil)
    · rw [List.length_drop]
      omega
    · rw [hpacketTotal, hassembled, List.length_take, List.length_drop]
      omega
    · rw [hassembled, List.length_take, List.length_nil]
      omega

end Delivery

section Ping

/-- `zf_transport_dispatch_ping`. -/
def dispatchPing (message : CompleteMessage) : DispatchResult := .response message.payload

/-- The result of a message, given the handlers of the other protocols. -/
def dispatchResult (others : CompleteMessage → DispatchResult) (message : CompleteMessage) :
    DispatchResult :=
  match message.protocol with
  | .ping => dispatchPing message
  | _ => others message

/-- The frames that the device sends while packets are fed to it in order. -/
def serveAll (others : CompleteMessage → DispatchResult) :
    (ℕ → Surroundings) → TransportState → List Bytes → List Bytes
  | _, _, [] => []
  | clock, transport, packet :: packets =>
    let handling := handlePacket transport packet (clock 0)
    let later := fun index ↦ clock (index + 1)
    handling.sent.flatMap sendFrames ++
      match handling.complete with
      | none => serveAll others later handling.transport packets
      | some message =>
        sendFrames (responseMessage message.protocol message.sessionId
            (dispatchResult others message)) ++
          serveAll others later { beginDispatch handling.transport with processing := false } packets

/-- The messages that packets bring to a receiver that dispatches none of them. -/
def receiveAll : (ℕ → Surroundings) → TransportState → List Bytes → List CompleteMessage
  | _, _, [] => []
  | clock, transport, packet :: packets =>
    let handling := handlePacket transport packet (clock 0)
    handling.complete.toList ++
      receiveAll (fun index ↦ clock (index + 1)) handling.transport packets

variable {transport : TransportState} {cid : UInt32} {clock : ℕ → Surroundings}
  {packets : List Bytes} {message : CompleteMessage}

theorem Delivers.serveAll_eq (h : Delivers clock transport packets message)
    (others : CompleteMessage → DispatchResult) :
    serveAll others clock transport packets =
      sendFrames (responseMessage message.protocol message.sessionId
        (dispatchResult others message)) := by
  induction h with
  | last sent complete =>
    unfold serveAll
    dsimp only
    rw [sent, complete, List.flatMap_nil, List.nil_append]
    exact List.append_nil _
  | more sent complete rest ih =>
    unfold serveAll
    dsimp only
    rw [sent, complete, List.flatMap_nil, List.nil_append]
    exact ih

theorem Delivers.receiveAll_eq (h : Delivers clock transport packets message) :
    receiveAll clock transport packets = [message] := by
  induction h with
  | last sent complete =>
    unfold receiveAll
    dsimp only
    rw [complete, receiveAll]
    rfl
  | more sent complete rest ih =>
    unfold receiveAll
    dsimp only
    rw [complete, ih]
    rfl

/-- An error frame brings no message to the host. -/
theorem receiveAll_hidError (h : IdleFor transport cid) (code : UInt8) :
    receiveAll clock transport (sendFrames (hidError cid code)) = [] := by
  have hreads := readsInit_initFrame (hidError cid code) (by simp [hidError])
  have hrest : sendFrames (hidError cid code) = [initFrame (hidError cid code)] := rfl
  rw [hrest]
  generalize initFrame (hidError cid code) = packet at hreads ⊢
  have hcmd : packetCmd packet = cmdError := hreads.cmd
  have htotal : packetMsgLen packet = 1 := hreads.total
  obtain ⟨transport', hassembling, hhandle⟩ := handlePacket_first h hreads.cid
    (by rw [hreads.length]; decide) (by rw [isInitPacket, hcmd]; decide) (by rw [hcmd]; decide)
    (by rw [htotal]; decide) (by rw [hcmd, htotal]; decide) (clock 0)
  have hnone : (completeIfReady transport' (clock 0).capabilities).complete = none := by
    have hcurrent := hassembling.holds.cmd.trans hcmd
    by_cases hmissing : transport'.receivedLen ≠ transport'.totalLen
    · rw [completeIfReady_of_missing hmissing]
    · unfold completeIfReady u2fValidationError
      rw [if_neg hmissing]
      dsimp only
      rw [hcurrent, if_neg (fun hmsg ↦ absurd hmsg.1 (by decide))]
      rfl
  unfold receiveAll
  dsimp only
  rw [hhandle, hnone, receiveAll]
  rfl

/-- A PING on an allocated channel comes back to the host exactly if it is not empty. -/
theorem ping_round_trip_iff (others : CompleteMessage → DispatchResult)
    {device host : TransportState} (hdevice : IdleFor device cid) (hhost : IdleFor host cid)
    {payload : Bytes} (hsize : payload.length ≤ maxMsgSize) (clock hostClock : ℕ → Surroundings) :
    receiveAll hostClock host (serveAll others clock device (sendFrames ⟨cid, cmdPing, payload⟩)) =
        [⟨cid, .ping, payload⟩] ↔ payload ≠ [] := by
  have hdelivers {receiver : TransportState} (hidle : IdleFor receiver cid)
      (receiverClock : ℕ → Surroundings) : Delivers receiverClock receiver
        (sendFrames ⟨cid, cmdPing, payload⟩) ⟨cid, .ping, payload⟩ :=
    delivers_sendFrames hidle (by decide) (by decide) (by decide) rfl hsize rfl receiverClock
  rw [(hdelivers hdevice clock).serveAll_eq]
  by_cases hempty : payload = []
  · have hanswer : responseMessage .ping cid (dispatchResult others ⟨cid, .ping, payload⟩) =
        hidError cid errOther := by
      rw [hempty]
      rfl
    rw [hanswer, receiveAll_hidError hhost]
    exact ⟨fun habsurd ↦ absurd habsurd (List.cons_ne_nil _ _).symm, fun hne ↦ absurd hempty hne⟩
  · have hanswer : responseMessage .ping cid (dispatchResult others ⟨cid, .ping, payload⟩) =
        ⟨cid, cmdPing, payload⟩ := by
      unfold responseMessage dispatchResult dispatchPing
      dsimp only
      rw [if_neg (fun h ↦ hempty h.1)]
    rw [hanswer, (hdelivers hhost hostClock).receiveAll_eq]
    exact ⟨fun _ ↦ hempty, fun _ ↦ rfl⟩

/-- A session that has allocated channel 7 and has nothing else to do. -/
def sampleIdle : TransportState := { allocatedCids := [⟨7, 0⟩] }

theorem idleFor_sampleIdle : IdleFor sampleIdle 7 := ⟨rfl, rfl, by decide, Or.inl rfl⟩

def sampleClock : ℕ → Surroundings := fun _ ↦
  { now := 0, random := fun _ ↦ 7
    capabilities := { u2fEnabled := true, fido2Enabled := true, transportWinkEnabled := true } }

theorem ping_round_trip_iff_twoPackets :
    receiveAll sampleClock sampleIdle (serveAll (fun _ ↦ .error errOther) sampleClock sampleIdle
        (sendFrames ⟨7, cmdPing, List.replicate 100 1⟩)) = [⟨7, .ping, List.replicate 100 1⟩] :=
  (ping_round_trip_iff (fun _ ↦ .error errOther) idleFor_sampleIdle idleFor_sampleIdle
    (by decide) sampleClock sampleClock).mpr (by decide)

/-- The empty PING is answered with an error. -/
theorem empty_ping_is_an_error :
    ¬∀ (others : CompleteMessage → DispatchResult) (device host : TransportState) (cid : UInt32)
      (payload : Bytes) (clock hostClock : ℕ → Surroundings), IdleFor device cid → IdleFor host cid →
      payload.length ≤ maxMsgSize →
      receiveAll hostClock host (serveAll others clock device
        (sendFrames ⟨cid, cmdPing, payload⟩)) = [⟨cid, .ping, payload⟩] := by
  intro hclaim
  have hempty := hclaim (fun _ ↦ .error errOther) sampleIdle sampleIdle 7 [] sampleClock sampleClock
    idleFor_sampleIdle idleFor_sampleIdle (by decide)
  have hanswer : serveAll (fun _ ↦ .error errOther) sampleClock sampleIdle
      (sendFrames ⟨7, cmdPing, []⟩) = sendFrames (hidError 7 errOther) := by decide +kernel
  rw [hanswer, receiveAll_hidError idleFor_sampleIdle] at hempty
  exact absurd hempty (List.cons_ne_nil _ _).symm

end Ping

end ZeroFido.Usb
