import ZeroFido.Foundations.Run
import ZeroFido.Nfc.Dispatch

/-!
# The NFC listener and its worker

The listener callback of `transport/nfc_engine.c` and the request worker of
`transport/nfc_worker.c`, as two threads over one `NfcApp`. A step is one section under `ui_mutex`.

The callback runs on one thread: while it is inside a command of its own, no reader event is
handled. The worker takes a pending request, stores what the command returned, and restores the
automatic approval; between these sections it runs the command, whose results are arbitrary. `stop`
comes from the application's own thread. A poll changes nothing, so it is a question about a state
(`pollCborControl`) and not an event.

A duplicate of a block that was already answered, a request to repeat a frame, and protocol and
parameter selection only touch the block layer and are no events here.
-/

set_option autoImplicit false
set_option relaxedAutoImplicit false

namespace ZeroFido.Nfc

open Foundations

section Events

/-- What can happen to the transport. -/
inductive NfcEvent where
  /-- REQA or WUPA. -/
  | pollRestart
  | rats
  /-- S(DESELECT). -/
  | deselect
  /-- The field is lost, or the listener is halted. -/
  | disconnect
  /-- A discovery probe shortly after a successful exchange is put to sleep. -/
  | probeSleep
  /-- R(ACK): the reader asks for the next block of a chain. -/
  | rAck (sent : Bool)
  /-- An APDU that is not wrapped in a block. -/
  | bareApdu (frame : Bytes) (capabilities : NfcCapabilities) (surroundings : Surroundings)
  /-- An I-block. -/
  | iBlock (pcb : UInt8) (payload : Bytes) (chained : Bool) (capabilities : NfcCapabilities)
    (surroundings : Surroundings)
  /-- The command that the callback is running returns. -/
  | callbackReturns (response : Bytes) (surroundings : Surroundings)
  | workerTakes
  /-- The command that the worker is running returns; `none` when no response buffer could be
  allocated. -/
  | workerStores (response : Option Bytes)
  | workerReturns
  | stop
  deriving DecidableEq, Repr

end Events

section Listener

variable (handlers : Handlers)

/-- What a new activation does to the exchange of the old one. -/
def restartActivation (app : NfcApp) : NfcApp :=
  clearTxChain (resetExchange (cancelCurrentRequest
    { app with appletSelected := false, desfireProbeFrame := 0 }))

/-- `zf_transport_nfc_handle_rats_locked`. -/
def handleRats (app : NfcApp) : NfcApp := restartActivation app

/-- `zf_transport_nfc_handle_poll_restart_locked`. -/
def handlePollRestart (app : NfcApp) : NfcApp := restartActivation app

/-- `zf_transport_nfc_sleep_probe_locked`. -/
def sleepProbe (app : NfcApp) : NfcApp :=
  clearTxChain (resetExchange { app with appletSelected := false, desfireProbeFrame := 0 })

/-- `zf_transport_nfc_handle_native_desfire_locked`. -/
def handleNativeDesfire (app : NfcApp) (additionalFrame : Bool) : NfcApp :=
  if !additionalFrame then
    transmit { app with desfireProbeFrame := 1 } (0xAF :: desfireVersionPart)
  else if 2 ≤ app.desfireProbeFrame then
    transmit { app with desfireProbeFrame := 0 } (0x00 :: desfireVersionPart3)
  else
    transmit { app with desfireProbeFrame := 2 } (0xAF :: desfireVersionPart)

/-- `ZfNfcRxChainAppendResult`. -/
inductive RxChainAppendResult where
  | ok
  | duplicate
  | stalled
  | overflow
  deriving DecidableEq, Repr

/-- The received block repeats the last one of the chain. -/
def isRxChainDuplicate (app : NfcApp) (requestPcb : UInt8) (payload : Bytes) : Bool :=
  app.rxChainLastValid && app.rxChainLastPcb == requestPcb &&
    app.requestLen == app.rxChainLastOffset + app.rxChainLastLen &&
    payload.length == app.rxChainLastLen &&
    (app.transportArena.drop app.rxChainLastOffset).take payload.length == payload

/-- `zf_transport_nfc_append_rx_chain_payload_locked`. -/
def appendRxChainPayload (app : NfcApp) (requestPcb : UInt8) (payload : Bytes) :
    RxChainAppendResult × NfcApp :=
  if !app.arenaAttached || decide (maxMsgSize < app.requestLen) ||
      decide (maxMsgSize - app.requestLen < payload.length) then
    (.overflow, app)
  else if isRxChainDuplicate app requestPcb payload then
    if rxChainDuplicateLimit ≤ app.rxChainDuplicateCount then (.stalled, app)
    else (.duplicate, { app with rxChainDuplicateCount := app.rxChainDuplicateCount + 1 })
  else
    (.ok, { app with
      transportArena := writeArena app.transportArena app.requestLen payload
      requestLen := app.requestLen + payload.length
      commandChainActive := true
      rxChainLastValid := true
      rxChainLastPcb := requestPcb
      rxChainDuplicateCount := 0
      rxChainLastOffset := app.requestLen
      rxChainLastLen := payload.length })

/-- The final block of a receive chain. -/
def handleAssembledPayload (app : NfcApp) (payload : Bytes) (capabilities : NfcCapabilities)
    (surroundings : Surroundings) : NfcApp :=
  if maxMsgSize < app.requestLen ∨ maxMsgSize - app.requestLen < payload.length then
    sendStatusWord (resetExchange app) swWrongLength
  else
    let arena := writeArena app.transportArena app.requestLen payload
    handleApdu handlers { app with
      transportArena := arena
      commandChainActive := false
      requestLen := 0
      rxChainLastValid := false
      rxChainLastPcb := 0
      rxChainDuplicateCount := 0
      rxChainLastOffset := 0
      rxChainLastLen := 0 } (arena.take (app.requestLen + payload.length)) capabilities surroundings

/-- `zf_transport_nfc_handle_iso4_payload_locked`, for a block that is not a duplicate. -/
def handleIso4Payload (app : NfcApp) (requestPcb : UInt8) (payload : Bytes)
    (requestChained : Bool) (capabilities : NfcCapabilities) (surroundings : Surroundings) :
    NfcApp :=
  if !requestChained && !app.commandChainActive && payload == [] then
    app
  else if !requestChained && !app.commandChainActive && (payload == [0x60] || payload == [0xAF]) then
    handleNativeDesfire app (payload == [0xAF])
  else if requestWorkerActive app then
    sendBusyStatus app
  else if requestChained then
    match appendRxChainPayload app requestPcb payload with
    | (.ok, app) => app
    | (.duplicate, app) => app
    | (.stalled, app) => clearTxChain (resetExchange app)
    | (.overflow, app) => sendStatusWord (resetExchange app) swWrongLength
  else if app.commandChainActive then
    handleAssembledPayload handlers app payload capabilities surroundings
  else if !app.ctapGetResponseSupported &&
      (app.processing || app.responseReady || app.responseIsError) then
    sendDeferredResponseOrWtx app surroundings.sent
  else
    handleApdu handlers app payload capabilities surroundings

/-- `zf_transport_nfc_is_bare_apdu`. -/
def isBareApdu (frame : Bytes) : Bool :=
  (frame.getD 0 0 == 0x00 || frame.getD 0 0 == 0x80 || frame.getD 0 0 == 0x90) &&
    (parseApdu frame).isSome

/-- `zf_transport_nfc_event_callback` on one reader event, with the listener active. -/
def handleReaderEvent (app : NfcApp) : NfcEvent → NfcApp
  | .pollRestart => handlePollRestart app
  | .rats => handleRats app
  | .deselect => teardownRfActivation app
  | .disconnect => teardownRfActivation app
  | .probeSleep => sleepProbe app
  | .rAck sent =>
    if app.txChainActive then sendNextTxChainBlock app sent
    else { app with txChainCompleted := false }
  | .bareApdu frame capabilities surroundings =>
    if isBareApdu frame then handleApdu handlers app frame capabilities surroundings else app
  | .iBlock pcb payload chained capabilities surroundings =>
    handleIso4Payload handlers { app with txChainCompleted := false } pcb payload chained
      capabilities surroundings
  | _ => app

/-- The end of the command that the callback is running. -/
def callbackReturns (app : NfcApp) (response : Bytes) (surroundings : Surroundings) : NfcApp :=
  match app.callback with
  | .idle => app
  | .ctap2Direct oldAutoAccept requestWasExtendedApdu =>
    finishCtap2Direct app oldAutoAccept requestWasExtendedApdu response surroundings
  | .u2fImmediate oldAutoAccept apdu =>
    finishU2fImmediate app oldAutoAccept apdu response surroundings

end Listener

section Worker

/-- The first section of `zf_transport_nfc_process_request`. -/
def workerTakes (app : NfcApp) : NfcApp :=
  if !app.requestPending || !app.arenaAttached || decide (maxMsgSize < app.requestLen) then app
  else
    { app with
      requestPending := false
      transportAutoAcceptTransaction := true
      arenaAttached := false
      transportArena := zeroBytes transportArenaSize
      worker := .running {
        sessionId := app.processingSessionId
        requestGeneration := app.processingGeneration
        requestKind := app.requestKind
        requestCopy := app.transportArena.take app.requestLen
        oldAutoAccept := app.transportAutoAcceptTransaction
        origin := app.current } }

/-- `zf_transport_nfc_poll_cbor_control`. -/
def pollCborControl (app : NfcApp) (currentSessionId : ℕ) : CtapStatus :=
  if app.stopping ||
      (app.processingCancelRequested && app.processingSessionId == currentSessionId) ||
      app.canceledSessionId == currentSessionId then
    .keepaliveCancel
  else
    .success

/-- The call of `zf_transport_nfc_store_response` in `zf_transport_nfc_process_request`: an empty
response is an error, and so is a request of no kind. -/
def workerResponse (request : RunningRequest) (response : Option Bytes) : Option Bytes :=
  match request.requestKind with
  | .none => none
  | _ => response.filter fun bytes ↦ !bytes.isEmpty

/-- `zf_transport_nfc_store_response` as the worker calls it. -/
def workerStores (app : NfcApp) (request : RunningRequest) (response : Option Bytes) : NfcApp :=
  storeResponse app request.sessionId request.requestGeneration (workerResponse request response)
    (request.requestKind == .u2f)

end Worker

section Step

variable (handlers : Handlers)

/-- One step of the system. -/
def nfcStep (app : NfcApp) (event : NfcEvent) : NfcApp :=
  match event with
  | .stop => cancelCurrentRequest { app with stopping := true }
  | .callbackReturns response surroundings => callbackReturns app response surroundings
  | .workerTakes =>
    match app.worker with
    | .idle => workerTakes app
    | _ => app
  | .workerStores response =>
    match app.worker with
    | .running request =>
      { workerStores app request response with worker := .stored request }
    | _ => app
  | .workerReturns =>
    match app.worker with
    | .stored request =>
      { app with
        transportAutoAcceptTransaction := request.oldAutoAccept
        worker := .idle }
    | _ => app
  | _ =>
    if app.stopping || app.callback != .idle then app
    else handleReaderEvent handlers app event

end Step

end ZeroFido.Nfc
