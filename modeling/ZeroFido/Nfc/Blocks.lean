import ZeroFido.Nfc.AutoAccept

/-!
# Blocks that carry an APDU

How the listener treats a block of its own with an APDU in it, by the state of the exchange, and
the operations that start no command (`Quiet`): whatever they answer, the callback runs nothing
new, nothing is queued for the worker, and nothing is passed on to the CTAP2 commands.
-/

set_option autoImplicit false
set_option relaxedAutoImplicit false

namespace ZeroFido.Nfc

open Foundations

section Blocks

def maxRxFrameInfSize : ℕ := 250

/-- A command in a block of its own. -/
structure CommandBlock where
  pcb : UInt8
  payload : Bytes
  capabilities : NfcCapabilities
  surroundings : Surroundings

def CommandBlock.event (block : CommandBlock) : NfcEvent :=
  .iBlock block.pcb block.payload false block.capabilities block.surroundings

variable {handlers : Handlers} {app : NfcApp}

/-- An APDU is no single byte. -/
theorem four_le_length_of_parseApdu {payload : Bytes} {apdu : NfcApdu}
    (h : parseApdu payload = some apdu) : 4 ≤ payload.length := by
  unfold parseApdu at h
  split at h
  · simp
  · simp at h

/-- The listener takes the block for a question about the deferred response. -/
def defers (app : NfcApp) : Bool :=
  !app.ctapGetResponseSupported && (app.processing || app.responseReady || app.responseIsError)

/-- An APDU is neither an empty block nor one of the native commands. -/
theorem ne_native_of_four_le {payload : Bytes} (hlength : 4 ≤ payload.length) :
    payload ≠ [] ∧ payload ≠ [0x60] ∧ payload ≠ [0xAF] := by
  refine ⟨?_, ?_, ?_⟩ <;>
    · rintro rfl
      simp at hlength

/-- A block of its own, while the worker is not active. -/
theorem handleIso4Payload_single {pcb : UInt8} {payload : Bytes} {capabilities : NfcCapabilities}
    {surroundings : Surroundings} (hchain : app.commandChainActive = false)
    (hactive : requestWorkerActive app = false) (hlength : 4 ≤ payload.length) :
    handleIso4Payload handlers app pcb payload false capabilities surroundings =
      if defers app then sendDeferredResponseOrWtx app surroundings.sent
      else handleApdu handlers app payload capabilities surroundings := by
  obtain ⟨hempty, hversion, hadditional⟩ := ne_native_of_four_le hlength
  unfold handleIso4Payload
  rw [if_neg (by simp [hempty]), if_neg (by simp [hversion, hadditional]),
    if_neg (by simp [hactive]), if_neg (by simp), if_neg (by simp [hchain])]
  rfl

/-- A block ends the wait for the acknowledgement of a chain. -/
def blockReceived (app : NfcApp) : NfcApp := { app with txChainCompleted := false }

/-- The listener is free to look at a block. -/
theorem nfcStep_iBlock {pcb : UInt8} {payload : Bytes} {chained : Bool}
    {capabilities : NfcCapabilities} {surroundings : Surroundings}
    (hcallback : app.callback = .idle) (hrunning : app.stopping = false) :
    nfcStep handlers app (.iBlock pcb payload chained capabilities surroundings) =
      handleIso4Payload handlers (blockReceived app) pcb payload chained capabilities
        surroundings := by
  show (if app.stopping || app.callback != .idle then app else handleReaderEvent handlers app _) = _
  rw [if_neg (by simp [hcallback, hrunning])]
  rfl

/-- While the worker is active every block is answered with a status update. -/
theorem nfcStep_busy {pcb : UInt8} {payload : Bytes} {capabilities : NfcCapabilities}
    {surroundings : Surroundings} (hcallback : app.callback = .idle)
    (hrunning : app.stopping = false) (hactive : requestWorkerActive app = true)
    (hlength : 4 ≤ payload.length) :
    nfcStep handlers app (.iBlock pcb payload false capabilities surroundings) =
      sendBusyStatus (blockReceived app) := by
  obtain ⟨hempty, hversion, hadditional⟩ := ne_native_of_four_le hlength
  have hsame : requestWorkerActive (blockReceived app) = true := hactive
  rw [nfcStep_iBlock hcallback hrunning]
  unfold handleIso4Payload
  rw [if_neg (by simp [hempty]), if_neg (by simp [hversion, hadditional]), if_pos hsame]

theorem nfcStep_command {pcb : UInt8} {payload : Bytes} {capabilities : NfcCapabilities}
    {surroundings : Surroundings} (hcallback : app.callback = .idle)
    (hrunning : app.stopping = false) (hchain : app.commandChainActive = false)
    (hactive : requestWorkerActive app = false) (hlength : 4 ≤ payload.length)
    (hdefers : defers app = false) :
    nfcStep handlers app (.iBlock pcb payload false capabilities surroundings) =
      handleApdu handlers (blockReceived app) payload capabilities surroundings := by
  have hreceived : (blockReceived app).commandChainActive = false := hchain
  have hinactive : requestWorkerActive (blockReceived app) = false := hactive
  have hsame : defers (blockReceived app) = false := hdefers
  rw [nfcStep_iBlock hcallback hrunning, handleIso4Payload_single hreceived hinactive hlength, hsame]
  rfl

theorem nfcStep_deferred {pcb : UInt8} {payload : Bytes} {capabilities : NfcCapabilities}
    {surroundings : Surroundings} (hcallback : app.callback = .idle)
    (hrunning : app.stopping = false) (hchain : app.commandChainActive = false)
    (hactive : requestWorkerActive app = false) (hlength : 4 ≤ payload.length)
    (hdefers : defers app = true) :
    nfcStep handlers app (.iBlock pcb payload false capabilities surroundings) =
      sendDeferredResponseOrWtx (blockReceived app) surroundings.sent := by
  have hreceived : (blockReceived app).commandChainActive = false := hchain
  have hinactive : requestWorkerActive (blockReceived app) = false := hactive
  have hsame : defers (blockReceived app) = true := hdefers
  rw [nfcStep_iBlock hcallback hrunning, handleIso4Payload_single hreceived hinactive hlength, hsame]
  rfl

/-- A payload of the size of a page is sent. -/
theorem sendApduPayload_small {data : Bytes} (hlength : data.length ≤ getResponseChunkSize)
    (statusWord : UInt16) : sendApduPayload app data statusWord =
      transmit (clearTxChain app) (data ++ statusWordBytes statusWord) := by
  unfold sendApduPayload
  have hchunk : getResponseChunkSize + 2 ≤ maxTxFrameInfSize := by decide
  rw [if_neg (by omega)]

/-- What is collected and the payload that is appended to it. -/
theorem take_writeArena_append (arena payload : Bytes) (offset : ℕ) :
    (writeArena arena offset payload).take (offset + payload.length) =
      arena.take offset ++ payload := by
  unfold writeArena
  by_cases hshort : offset ≤ arena.length
  · have hlength : (arena.take offset ++ payload).length = offset + payload.length := by
      rw [List.length_append, List.length_take_of_le hshort]
    rw [← hlength, List.take_left]
  · have hdrop : arena.drop (offset + payload.length) = [] := List.drop_eq_nil_of_le (by omega)
    rw [hdrop, List.append_nil]
    refine List.take_of_length_le ?_
    rw [List.length_append, List.length_take]
    omega

/-- The bytes that the listener takes for an APDU when a block arrives. -/
def assembledFrame (app : NfcApp) (payload : Bytes) : Bytes :=
  (if app.commandChainActive then app.transportArena.take app.requestLen else []) ++ payload

/-- The collected data have been taken, with the last payload. -/
def chainTaken (app : NfcApp) (payload : Bytes) : NfcApp :=
  { app with
    transportArena := writeArena app.transportArena app.requestLen payload
    commandChainActive := false
    requestLen := 0
    rxChainLastValid := false
    rxChainLastPcb := 0
    rxChainDuplicateCount := 0
    rxChainLastOffset := 0
    rxChainLastLen := 0 }

/-- The last block of a chain makes an APDU of what has been collected. -/
theorem handleAssembledPayload_fits {payload : Bytes} {capabilities : NfcCapabilities}
    {surroundings : Surroundings}
    (hfits : ¬(maxMsgSize < app.requestLen ∨ maxMsgSize - app.requestLen < payload.length)) :
    handleAssembledPayload handlers app payload capabilities surroundings =
      handleApdu handlers (chainTaken app payload) (app.transportArena.take app.requestLen ++ payload)
        capabilities surroundings := by
  unfold handleAssembledPayload
  rw [if_neg hfits]
  dsimp only
  rw [take_writeArena_append]
  rfl

end Blocks

section Quiet

/-- No command is started: the callback runs none, and none is queued for the worker. -/
structure Unstarted (app next : NfcApp) : Prop where
  callback : next.callback = app.callback
  queued : next.queued = app.queued

/-- No command is started, nothing is passed on to the CTAP2 commands, and no chain is begun. -/
structure Quiet (app next : NfcApp) : Prop where
  callback : next.callback = app.callback
  queued : next.queued = app.queued
  handed : next.handed = app.handed
  chain : app.commandChainActive = false → next.commandChainActive = false

variable {handlers : Handlers} {app middle next : NfcApp}

theorem Quiet.refl (app : NfcApp) : Quiet app app := ⟨rfl, rfl, rfl, id⟩

theorem Quiet.after (h' : Quiet middle next) (h : Quiet app middle) : Quiet app next :=
  ⟨h'.callback.trans h.callback, h'.queued.trans h.queued, h'.handed.trans h.handed,
    h'.chain ∘ h.chain⟩

theorem Quiet.unstarted (h : Quiet app next) : Unstarted app next := ⟨h.callback, h.queued⟩

theorem quiet_resetExchange (app : NfcApp) : Quiet app (resetExchange app) :=
  ⟨rfl, rfl, rfl, fun _ ↦ rfl⟩

theorem quiet_sendStatusWord (app : NfcApp) (statusWord : UInt16) :
    Quiet app (sendStatusWord app statusWord) := ⟨rfl, rfl, rfl, id⟩

theorem quiet_sendApduPayload (app : NfcApp) (data : Bytes) (statusWord : UInt16) :
    Quiet app (sendApduPayload app data statusWord) := by
  unfold sendApduPayload
  split_ifs
  · exact .refl app
  · exact ⟨rfl, rfl, rfl, id⟩

theorem quiet_sendGetResponse (app : NfcApp) (apdu : NfcApdu) (pendingApproval : Bool) :
    Quiet app (sendGetResponse app apdu pendingApproval) := by
  unfold sendGetResponse
  dsimp only
  split_ifs
  all_goals first
    | exact quiet_sendStatusWord _ _
    | exact quiet_sendApduPayload _ _ _
    | exact (quiet_sendStatusWord _ _).after (quiet_resetExchange app)
    | exact (quiet_resetExchange _).after (quiet_sendApduPayload _ _ _)
    | exact (quiet_sendApduPayload _ _ _).after ⟨rfl, rfl, rfl, id⟩

theorem quiet_beginChainedApduPayload (app : NfcApp) (data : Bytes) (statusWord : UInt16)
    (sent : Bool) : Quiet app (beginChainedApduPayload app data statusWord sent) := by
  unfold beginChainedApduPayload
  split_ifs
  · exact .refl app
  · unfold sendNextTxChainBlock
    dsimp only
    split_ifs
    all_goals exact ⟨rfl, rfl, rfl, id⟩

theorem quiet_sendDeferredResponseOrWtx (app : NfcApp) (sent : Bool) :
    Quiet app (sendDeferredResponseOrWtx app sent) := by
  unfold sendDeferredResponseOrWtx
  dsimp only
  split_ifs
  all_goals first
    | exact quiet_sendApduPayload _ _ _
    | exact quiet_beginChainedApduPayload _ _ _ _
    | exact (quiet_resetExchange _).after (quiet_sendStatusWord _ _)
    | exact (quiet_resetExchange _).after (quiet_sendApduPayload _ _ _)

theorem quiet_sendU2fResponse (app : NfcApp) (apdu : NfcApdu) (response : Bytes)
    (surroundings : Surroundings) :
    Quiet app (sendU2fResponse app apdu response surroundings) := by
  unfold sendU2fResponse
  dsimp only
  split_ifs
  · exact quiet_sendStatusWord _ _
  · exact quiet_sendApduPayload _ _ _
  · exact (quiet_sendStatusWord _ _).after (quiet_resetExchange app)
  · exact (quiet_sendGetResponse _ _ _).after ⟨rfl, rfl, rfl, fun _ ↦ rfl⟩

theorem quiet_sendU2fWithoutPresence (app : NfcApp) (apdu : NfcApdu) (request : Bytes)
    (surroundings : Surroundings) :
    Quiet app (sendU2fWithoutPresence handlers app apdu request surroundings) :=
  (quiet_sendU2fResponse _ _ _ _).after ⟨rfl, rfl, rfl, id⟩

theorem quiet_sendU2fVersionImmediate (app : NfcApp) (apdu : NfcApdu)
    (surroundings : Surroundings) :
    Quiet app (sendU2fVersionImmediate handlers app apdu surroundings) := by
  unfold sendU2fVersionImmediate
  split_ifs
  · exact quiet_sendApduPayload _ _ _
  · dsimp only
    split
    · exact (quiet_sendStatusWord _ _).after ⟨rfl, rfl, rfl, fun _ ↦ rfl⟩
    · exact (quiet_sendU2fWithoutPresence _ _ _ _).after ⟨rfl, rfl, rfl, fun _ ↦ rfl⟩

theorem quiet_handleSelect (app : NfcApp) (apdu : NfcApdu) (fido2Enabled u2fEnabled : Bool) :
    Quiet app (handleSelect app apdu fido2Enabled u2fEnabled) := by
  unfold handleSelect
  by_cases hfido : (!isFidoSelectApdu apdu) = true
  · rw [if_pos hfido]
    exact quiet_sendStatusWord _ _
  · rw [if_neg hfido]
    exact (quiet_sendApduPayload _ _ _).after ⟨rfl, rfl, rfl, fun _ ↦ rfl⟩

theorem quiet_handleControlEnd (app : NfcApp) : Quiet app (handleControlEnd app) := by
  refine (quiet_sendStatusWord _ _).after ?_
  unfold cancelCurrentRequest
  split_ifs
  · exact ⟨rfl, rfl, rfl, fun _ ↦ rfl⟩
  · exact ⟨rfl, rfl, rfl, fun _ ↦ rfl⟩

/-- The getInfo response starts no command either, but it answers a CTAP2 request. -/
theorem quiet_sendGetInfoResponse (app : NfcApp) (surroundings : Surroundings) :
    Quiet { app with handed := app.handed ++ [[ctapCmdGetInfo]] }
      (sendGetInfoResponse handlers app surroundings) := by
  unfold sendGetInfoResponse
  dsimp only
  split_ifs
  · exact (quiet_sendApduPayload _ _ _).after ⟨rfl, rfl, rfl, id⟩
  · exact (quiet_beginChainedApduPayload _ _ _ _).after ⟨rfl, rfl, rfl, id⟩

end Quiet

section Handled

/-- A CTAP2 message, chained or not, whose parameters are in order. -/
structure IsMessage (chained : Bool) (apdu : NfcApdu) : Prop where
  cla : apdu.cla = 0x80
  ins : apdu.ins = insCtapMsg
  parameters : ctapMsgP1P2Valid apdu = true
  chained : apdu.chained = chained

/-- The message of an APDU has been taken as the request. -/
def messageTaken (app : NfcApp) (apdu : NfcApdu) : NfcApp :=
  { app with
    arenaAttached := true
    transportArena := writeArena app.transportArena 0 apdu.data
    requestLen := apdu.data.length
    ctapGetResponseSupported := ctapMsgGetResponseSupported apdu }

/-- What an APDU does while no chain is active. -/
inductive Handled (apdu : NfcApdu) (app : NfcApp) : NfcApp → Prop where
  | quiet {next : NfcApp} (h : Quiet app next) : Handled apdu app next
  /-- getInfo, which the dispatcher answers itself. -/
  | informed {next : NfcApp} (hmessage : IsMessage false apdu) (hdata : apdu.data = [ctapCmdGetInfo])
    (h : Quiet { app with handed := app.handed ++ [[ctapCmdGetInfo]] } next) : Handled apdu app next
  /-- A chained message, which is collected. -/
  | collected {next : NfcApp} (hmessage : IsMessage true apdu) (hcallback : next.callback = app.callback)
    (hqueued : next.queued = app.queued) (hhanded : next.handed = app.handed) :
    Handled apdu app next
  | message (hmessage : IsMessage false apdu) (hselected : app.appletSelected = true)
    (hpos : 0 < apdu.data.length) (hlength : apdu.data.length ≤ maxMsgSize) :
    Handled apdu app (finishCtap2Msg (messageTaken app apdu) apdu.extended)
  /-- A U2F command that needs user presence. -/
  | u2f {arena : Bytes} (hcla : apdu.cla = 0x00) :
    Handled apdu app
      (startU2fImmediate { app with arenaAttached := true, transportArena := arena } apdu)

variable {handlers : Handlers} {app next : NfcApp} {apdu : NfcApdu}

/-- It does not matter to an APDU whether the arena was attached. -/
theorem Handled.of_attached (h : Handled apdu { app with arenaAttached := true } next) :
    Handled apdu app next := by
  cases h with
  | quiet h => exact .quiet (h.after ⟨rfl, rfl, rfl, id⟩)
  | informed hmessage hdata h => exact .informed hmessage hdata (h.after ⟨rfl, rfl, rfl, id⟩)
  | collected hmessage hcallback hqueued hhanded =>
    exact .collected hmessage hcallback hqueued hhanded
  | message hmessage hselected hpos hlength => exact .message hmessage hselected hpos hlength
  | u2f hcla => exact .u2f hcla

theorem handleChainedCtapMsg_handled (hcla : apdu.cla = 0x80) (hins : apdu.ins = insCtapMsg)
    (hchained : apdu.chained = true) : Handled apdu app (handleChainedCtapMsg app apdu) := by
  unfold handleChainedCtapMsg appendCtapChainedFragment
  split_ifs with hparameters
  · exact .quiet ((quiet_sendStatusWord _ _).after (quiet_resetExchange app))
  · exact .quiet (quiet_sendApduPayload _ _ _)
  · exact .quiet ((quiet_sendStatusWord _ _).after (quiet_resetExchange app))
  · exact .collected ⟨hcla, hins, by simpa using hparameters, hchained⟩ rfl rfl rfl

theorem handleCtapMsg_handled {capabilities : NfcCapabilities} {surroundings : Surroundings}
    (hcla : apdu.cla = 0x80) (hins : apdu.ins = insCtapMsg) (hchained : apdu.chained = false)
    (hselected : app.appletSelected = true) (hattached : app.arenaAttached = true)
    (hchain : app.commandChainActive = false) :
    Handled apdu app (handleCtapMsg app apdu capabilities surroundings) := by
  unfold handleCtapMsg
  split_ifs with hparameters
  · exact .quiet ((quiet_sendStatusWord _ _).after (quiet_resetExchange app))
  · exact .quiet (quiet_sendStatusWord _ _)
  · exact .quiet (quiet_sendGetResponse _ _ _)
  · exact .quiet (quiet_sendApduPayload _ _ _)
  · have htake : takeCtapMsg app apdu = beginCtapMsg app apdu := by
      unfold takeCtapMsg
      rw [if_neg (by simp [hchain])]
    rw [htake]
    unfold beginCtapMsg
    by_cases hlength : apdu.data.length = 0 ∨ maxMsgSize < apdu.data.length
    · rw [if_pos hlength]
      exact .quiet (quiet_sendStatusWord _ _)
    · rw [if_neg hlength]
      obtain ⟨hne, hle⟩ := not_or.mp hlength
      have hmessage : IsMessage false apdu := ⟨hcla, hins, by simpa using hparameters, hchained⟩
      have htaken : messageTaken app apdu = { app with
          transportArena := writeArena app.transportArena 0 apdu.data
          requestLen := apdu.data.length
          ctapGetResponseSupported := ctapMsgGetResponseSupported apdu } := by
        simp only [messageTaken, ← hattached]
      dsimp only
      rw [← htaken]
      exact .message hmessage hselected (Nat.pos_of_ne_zero hne) (Nat.le_of_not_lt hle)

theorem handleU2fApdu_handled {surroundings : Surroundings} (hcla : apdu.cla = 0x00)
    (hattached : app.arenaAttached = true) :
    Handled apdu app (handleU2fApdu handlers app apdu surroundings) := by
  unfold handleU2fApdu
  split
  · exact .quiet (quiet_sendStatusWord _ _)
  · rename_i request _
    unfold runU2fRequest
    split
    · exact .quiet ((quiet_sendU2fResponse _ _ _ _).after ⟨rfl, rfl, rfl, id⟩)
    · split_ifs
      · have hstarted := @Handled.u2f apdu app (writeArena app.transportArena 0 request) hcla
        rw [← hattached] at hstarted
        exact hstarted
      · exact .quiet ((quiet_sendU2fWithoutPresence _ _ _ _).after ⟨rfl, rfl, rfl, id⟩)

theorem handleAppletApdu_handled {capabilities : NfcCapabilities} {surroundings : Surroundings}
    (hselected : app.appletSelected = true) (hattached : app.arenaAttached = true)
    (hchain : app.commandChainActive = false) :
    Handled apdu app (handleAppletApdu handlers app apdu capabilities surroundings) := by
  unfold handleAppletApdu
  split_ifs with _ hinfo hparameters _ _ _ _ hchained hmessage hcla
  · exact .quiet (quiet_handleControlEnd _)
  · exact .quiet (quiet_sendStatusWord _ _)
  · exact .quiet (quiet_sendStatusWord _ _)
  · exact .quiet (quiet_sendApduPayload _ _ _)
  · simp only [Bool.and_eq_true, beq_iff_eq, Bool.not_eq_true'] at hinfo
    obtain ⟨⟨⟨hcla, hins⟩, hunchained⟩, hdata⟩ := hinfo
    exact .informed ⟨hcla, hins, by simpa using hparameters, hunchained⟩ hdata
      (quiet_sendGetInfoResponse _ _)
  · exact .quiet (quiet_sendStatusWord _ _)
  · exact .quiet (quiet_sendGetResponse _ _ _)
  · simp only [Bool.and_eq_true, beq_iff_eq] at hchained
    exact handleChainedCtapMsg_handled hchained.1.2 hchained.2 hchained.1.1
  · simp only [Bool.and_eq_true, beq_iff_eq] at hmessage hchained
    have hunchained : apdu.chained = false := by
      by_contra hchained'
      exact hchained ⟨⟨by simpa using hchained', hmessage.1⟩, hmessage.2⟩
    exact handleCtapMsg_handled hmessage.1 hmessage.2 hunchained hselected hattached hchain
  · exact .quiet (quiet_sendStatusWord _ _)
  · exact .quiet (quiet_sendStatusWord _ _)
  · exact .quiet (quiet_sendApduPayload _ _ _)
  · exact handleU2fApdu_handled (by simpa using hcla) hattached
  · exact .quiet (quiet_sendStatusWord _ _)

theorem handleApdu_handled {payload : Bytes} {capabilities : NfcCapabilities}
    {surroundings : Surroundings} (hparsed : parseApdu payload = some apdu)
    (hchain : app.commandChainActive = false) :
    Handled apdu app (handleApdu handlers app payload capabilities surroundings) := by
  refine Handled.of_attached ?_
  unfold handleApdu
  dsimp only
  rw [hparsed]
  dsimp only
  split_ifs with _ _ _ _ hdeselected
  · exact .quiet ((quiet_sendStatusWord _ _).after ⟨rfl, rfl, rfl, id⟩)
  · exact .quiet (quiet_handleSelect _ _ _ _)
  · exact .quiet (quiet_sendU2fVersionImmediate _ _ _)
  · exact .quiet ((quiet_sendApduPayload _ _ _).after ⟨rfl, rfl, rfl, id⟩)
  · unfold sendDesfireVersionPart
    split_ifs
    · exact .quiet ((quiet_sendApduPayload _ _ _).after ⟨rfl, rfl, rfl, id⟩)
    · exact .quiet ((quiet_sendApduPayload _ _ _).after ⟨rfl, rfl, rfl, id⟩)
  · exact .quiet (quiet_sendStatusWord _ _)
  · exact .quiet (quiet_sendStatusWord _ _)
  · have hselected : app.appletSelected = true := by simpa using hdeselected
    exact handleAppletApdu_handled hselected rfl hchain

end Handled

end ZeroFido.Nfc
