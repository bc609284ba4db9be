import ZeroFido.Crypto
import ZeroFido.Nfc.Protocol

/-!
# The NFC exchange

The state of the NFC transport and the operations on it that run under `ui_mutex`: the transmit
chain of `transport/nfc_iso_dep.c`, and the exchange of `transport/nfc_session.c` from queueing a
request to paging out its response.

Frames are modelled by their information field. What the block layer adds (block numbers, CID, the
replay caches) and the user interface's view of the exchange do not influence it and are left out. A
buffer has contents but no address; `arenaAttached` says whether `state->arena` points at it.

The fields at the end of the state are the observer's: how many requests have been queued, how
often the exchange has been reset, which requests have been passed on to the CTAP2 commands, which
request is current.
-/

set_option autoImplicit false
set_option relaxedAutoImplicit false

namespace ZeroFido.Nfc

section State

/-- `ZfNfcRequestKind`. -/
inductive RequestKind where
  | none
  | u2f
  | ctap2
  deriving DecidableEq, Repr

/-- A request in the order in which requests were queued, the first being number one. -/
structure QueuedRequest where
  number : ℕ
  kind : RequestKind
  request : Bytes
  deriving DecidableEq, Repr

/-- What `zf_transport_nfc_process_request` keeps on its stack while a command runs. `origin` is the
observer's: the request that was taken; so is `cancelled`: whether it was cancelled meanwhile. -/
structure RunningRequest where
  sessionId : ℕ
  requestGeneration : ℕ
  requestKind : RequestKind
  requestCopy : Bytes
  oldAutoAccept : Bool
  origin : Option QueuedRequest
  cancelled : Bool := false
  deriving DecidableEq, Repr

/-- The worker thread: idle, running a command, or past `zf_transport_nfc_store_response`. -/
inductive Worker where
  | idle
  | running (request : RunningRequest)
  | stored (request : RunningRequest)
  deriving DecidableEq, Repr

/-- The thread of the NFC callback: in a section under `ui_mutex` only, or inside a command it runs
itself with the mutex released. -/
inductive Callback where
  | idle
  | ctap2Direct (oldAutoAccept requestWasExtendedApdu : Bool)
  | u2fImmediate (oldAutoAccept : Bool) (apdu : NfcApdu)
  deriving DecidableEq, Repr

/-- The fields of `ZfNfcTransportState` that the exchange uses, the fields of `ZerofidoApp` it
shares with the rest of the application, the two threads, and the observer. Session ids and
generations are 32-bit values. -/
structure NfcApp where
  stopping : Bool := false
  appletSelected : Bool := false
  requestPending : Bool := false
  processing : Bool := false
  processingCancelRequested : Bool := false
  responseReady : Bool := false
  responseIsU2f : Bool := false
  responseIsError : Bool := false
  commandChainActive : Bool := false
  ctapGetResponseSupported : Bool := false
  txChainActive : Bool := false
  txChainCompleted : Bool := false
  txChainData : Bytes := []
  txChainOffset : ℕ := 0
  desfireProbeFrame : ℕ := 0
  rxChainLastValid : Bool := false
  rxChainLastPcb : UInt8 := 0
  rxChainDuplicateCount : ℕ := 0
  rxChainLastOffset : ℕ := 0
  rxChainLastLen : ℕ := 0
  requestLen : ℕ := 0
  responseLen : ℕ := 0
  responseOffset : ℕ := 0
  errorStatusWord : UInt16 := 0
  sessionId : ℕ := 0
  processingSessionId : ℕ := 0
  canceledSessionId : ℕ := 0
  requestKind : RequestKind := .none
  requestGeneration : ℕ := 0
  processingGeneration : ℕ := 0
  arenaAttached : Bool := true
  transportArena : Bytes := zeroBytes transportArenaSize
  transportAutoAcceptTransaction : Bool := false
  transmitted : List Bytes := []
  worker : Worker := .idle
  callback : Callback := .idle
  queued : ℕ := 0
  resetsSinceQueue : ℕ := 0
  resets : ℕ := 0
  directs : ℕ := 0
  handed : List Bytes := []
  current : Option QueuedRequest := none
  deriving DecidableEq, Repr

/-- `memcpy` into the arena. -/
def writeArena (arena : Bytes) (offset : ℕ) (data : Bytes) : Bytes :=
  arena.take offset ++ data ++ arena.drop (offset + data.length)

end State

section Transmit

/-- `zf_transport_nfc_clear_tx_chain`. -/
def clearTxChain (app : NfcApp) : NfcApp :=
  { app with txChainActive := false, txChainCompleted := false, txChainData := [],
             txChainOffset := 0 }

/-- An information field handed to the listener. -/
def transmit (app : NfcApp) (inf : Bytes) : NfcApp :=
  { app with transmitted := app.transmitted ++ [inf] }

/-- `zf_transport_nfc_send_status_word`. -/
def sendStatusWord (app : NfcApp) (statusWord : UInt16) : NfcApp :=
  transmit (clearTxChain app) (statusWordBytes statusWord)

/-- `zf_transport_nfc_send_apdu_payload`; a payload that does not fit in a frame is not sent. -/
def sendApduPayload (app : NfcApp) (data : Bytes) (statusWord : UInt16) : NfcApp :=
  if maxTxFrameInfSize < data.length + 2 then app
  else transmit (clearTxChain app) (data ++ statusWordBytes statusWord)

/-- `zf_transport_nfc_send_next_tx_chain_block`; `sent` is what the listener reports. -/
def sendNextTxChainBlock (app : NfcApp) (sent : Bool) : NfcApp :=
  if !app.txChainActive || decide (app.txChainData.length ≤ app.txChainOffset) then app
  else
    let chunk := (app.txChainData.drop app.txChainOffset).take txChainChunkSize
    let app := transmit app chunk
    if !sent then app
    else if app.txChainData.length ≤ app.txChainOffset + chunk.length then
      { clearTxChain app with txChainCompleted := true }
    else
      { app with txChainOffset := app.txChainOffset + chunk.length }

/-- `zf_transport_nfc_begin_chained_apdu_payload`. The chain keeps a copy of what it sends; the source
keeps a pointer into the arena, where a command that is received before the last block is sent writes
over it. -/
def beginChainedApduPayload (app : NfcApp) (data : Bytes) (statusWord : UInt16) (sent : Bool) :
    NfcApp :=
  if transportArenaSize - 2 < data.length then app
  else
    sendNextTxChainBlock { clearTxChain app with
      txChainData := data ++ statusWordBytes statusWord
      txChainActive := true } sent

end Transmit

section Exchange

/-- `zf_transport_nfc_next_session_id`. -/
def nextSessionId (current : ℕ) : ℕ :=
  if (current + 1) % 2 ^ 32 = 0 then 1 else (current + 1) % 2 ^ 32

/-- `zf_transport_nfc_next_generation`. -/
def nextGeneration (current : ℕ) : ℕ :=
  if (current + 1) % 2 ^ 32 = 0 then 1 else (current + 1) % 2 ^ 32

/-- `zf_transport_nfc_request_worker_active`. -/
def requestWorkerActive (app : NfcApp) : Bool := app.processing || app.requestPending

/-- `zf_transport_nfc_reset_exchange_internal_locked`. -/
def resetExchange (app : NfcApp) : NfcApp :=
  { clearTxChain app with
    requestPending := false
    processing := false
    processingCancelRequested := false
    responseReady := false
    responseIsU2f := false
    responseIsError := false
    commandChainActive := false
    ctapGetResponseSupported := false
    requestLen := 0
    responseLen := 0
    responseOffset := 0
    rxChainLastValid := false
    rxChainLastPcb := 0
    rxChainDuplicateCount := 0
    rxChainLastOffset := 0
    rxChainLastLen := 0
    errorStatusWord := 0
    requestKind := .none
    processingSessionId := 0
    processingGeneration := nextGeneration app.processingGeneration
    transportArena := if app.arenaAttached then zeroBytes transportArenaSize
      else app.transportArena
    resetsSinceQueue := app.resetsSinceQueue + 1
    resets := app.resets + 1
    current := none }

/-- The observer's mark on the request the worker is running, when it is the one being cancelled. -/
def Worker.cancelSession (worker : Worker) (sessionId : ℕ) : Worker :=
  match worker with
  | .running request =>
    if request.sessionId = sessionId then .running { request with cancelled := true } else worker
  | _ => worker

/-- `zf_transport_nfc_cancel_current_request_locked`. -/
def cancelCurrentRequest (app : NfcApp) : NfcApp :=
  if app.processingSessionId ≠ 0 then
    { app with
      canceledSessionId := app.processingSessionId
      processingCancelRequested := true
      worker := app.worker.cancelSession app.processingSessionId }
  else
    { app with processingCancelRequested := true }

/-- `zf_transport_nfc_teardown_rf_activation_locked`. -/
def teardownRfActivation (app : NfcApp) : NfcApp :=
  clearTxChain (resetExchange (cancelCurrentRequest
    { app with appletSelected := false, desfireProbeFrame := 0 }))

/-- `zf_transport_nfc_send_get_response`. `pendingApproval` is whether an approval is pending, which
the status byte of a busy exchange tells the reader. -/
def sendGetResponse (app : NfcApp) (apdu : NfcApdu) (pendingApproval : Bool) : NfcApp :=
  let le := min (normalizeLe apdu) getResponseChunkSize
  if app.processing && !app.responseReady then
    if !app.ctapGetResponseSupported then sendStatusWord app swConditionsNotSatisfied
    else
      sendApduPayload app [if pendingApproval then statusUpNeeded else statusProcessing]
        swStatusUpdate
  else if app.responseIsError then
    let errorStatus := if app.errorStatusWord ≠ 0 then app.errorStatusWord else swInternalError
    sendStatusWord (resetExchange app) errorStatus
  else if !app.responseReady then
    sendStatusWord app swConditionsNotSatisfied
  else if !app.arenaAttached || decide (transportArenaSize < app.responseLen) ||
      decide (app.responseLen < app.responseOffset) ||
      (app.responseIsU2f && decide (app.responseLen < 2)) then
    sendStatusWord (resetExchange app) swInternalError
  else
    let response := app.transportArena.take app.responseLen
    let remaining := app.responseLen - app.responseOffset
    let page (length : ℕ) := (response.drop app.responseOffset).take length
    let more := sendApduPayload { app with responseOffset := app.responseOffset + le } (page le)
      (statusUpdateSw (app.responseLen - (app.responseOffset + le)))
    if app.responseIsU2f then
      let statusWord := UInt16.ofNat
        (length16 (response.getD (app.responseLen - 2) 0) (response.getD (app.responseLen - 1) 0))
      if remaining ≤ 2 then
        sendStatusWord (resetExchange app) statusWord
      else if remaining - 2 ≤ le then
        resetExchange (sendApduPayload app (page (remaining - 2)) statusWord)
      else more
    else if remaining ≤ le then
      resetExchange (sendApduPayload app (page remaining) swSuccess)
    else more

/-- `zf_transport_nfc_send_deferred_response_or_wtx`. -/
def sendDeferredResponseOrWtx (app : NfcApp) (sent : Bool) : NfcApp :=
  if app.processing && !app.responseReady && !app.responseIsError then
    sendApduPayload app [statusProcessing] swStatusUpdate
  else if app.responseIsError then
    let errorStatus := if app.errorStatusWord ≠ 0 then app.errorStatusWord else swInternalError
    resetExchange (sendStatusWord app errorStatus)
  else if !app.responseReady then
    sendApduPayload app [statusProcessing] swStatusUpdate
  else if !app.arenaAttached || decide (transportArenaSize < app.responseLen) then
    resetExchange (sendStatusWord app swInternalError)
  else if app.responseLen + 2 ≤ maxTxFrameInfSize then
    resetExchange (sendApduPayload app (app.transportArena.take app.responseLen) swSuccess)
  else
    beginChainedApduPayload app (app.transportArena.take app.responseLen) swSuccess sent

/-- `zf_transport_nfc_queue_request_locked`: whether the request was queued, and the new state. -/
def queueRequest (app : NfcApp) (requestKind : RequestKind) (request : Bytes) : Bool × NfcApp :=
  if app.stopping || decide (request.length = 0) || decide (maxMsgSize < request.length) ||
      app.processing || app.requestPending || requestWorkerActive app then
    (false, { app with responseIsError := true, errorStatusWord := swConditionsNotSatisfied })
  else
    (true, { app with
      arenaAttached := true
      transportArena := writeArena app.transportArena 0 request
      requestLen := request.length
      requestKind
      requestPending := true
      processing := true
      processingCancelRequested := false
      canceledSessionId := 0
      processingSessionId := app.sessionId
      requestGeneration := nextGeneration app.requestGeneration
      processingGeneration := nextGeneration app.requestGeneration
      responseReady := false
      responseIsError := false
      responseIsU2f := false
      responseLen := 0
      responseOffset := 0
      queued := app.queued + 1
      resetsSinceQueue := 0
      handed := app.handed ++ [request]
      current := some { number := app.queued + 1, kind := requestKind, request } })

/-- The start of a logical session, which SELECT and the VERSION fallback share. -/
def startSession (app : NfcApp) : NfcApp :=
  resetExchange { app with
    appletSelected := true
    sessionId := nextSessionId app.sessionId
    canceledSessionId := 0 }

/-- `zf_transport_nfc_handle_select`, for an APDU that selects an application. -/
def handleSelect (app : NfcApp) (apdu : NfcApdu) (fido2Enabled u2fEnabled : Bool) : NfcApp :=
  if !isFidoSelectApdu apdu then
    sendStatusWord app swFileNotFound
  else
    let response := if fido2Enabled && !u2fEnabled then fido2SelectResponse else selectResponse
    sendApduPayload (clearTxChain (startSession app)) response swSuccess

/-- `zf_transport_nfc_store_response`. `response` is what the worker computed, `none` an error. -/
def storeResponse (app : NfcApp) (sessionId requestGeneration : ℕ) (response : Option Bytes)
    (responseIsU2f : Bool) : NfcApp :=
  if app.processingSessionId ≠ sessionId ∨ app.processingGeneration ≠ requestGeneration ∨
      app.processingCancelRequested = true then
    app
  else
    let app := { app with
      arenaAttached := true
      processing := false
      requestPending := false
      processingSessionId := 0
      responseOffset := 0 }
    match response with
    | none =>
      { app with
        responseLen := 0
        responseReady := false
        responseIsU2f
        responseIsError := true
        errorStatusWord := swInternalError }
    | some response =>
      if transportArenaSize < response.length ∨ (responseIsU2f ∧ response.length < 2) then
        { app with
          transportArena := zeroBytes transportArenaSize
          responseLen := 0
          responseReady := false
          responseIsU2f := false
          responseIsError := true
          errorStatusWord := swInternalError }
      else
        { app with
          transportArena := writeArena (zeroBytes transportArenaSize) 0 response
          responseLen := response.length
          responseReady := true
          responseIsU2f
          responseIsError := false
          errorStatusWord := swSuccess }

end Exchange

end ZeroFido.Nfc
