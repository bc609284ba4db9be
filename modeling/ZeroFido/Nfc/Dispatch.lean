import ZeroFido.Nfc.Session

/-!
# NFC command dispatch

`transport/nfc_dispatch.c`: what one APDU does to the exchange. A CTAP2 message is queued for the
worker when the reader supports GET RESPONSE and is otherwise run by the callback itself; U2F
commands are always run by the callback. A command that the callback runs with the mutex released
is split in two: its first section leaves the callback in a phase of its own, and
`finishCtap2Direct` or `finishU2fImmediate` is the rest.

The U2F adapter and the getInfo encoder are parameters, collected in `Handlers`.
-/

set_option autoImplicit false
set_option relaxedAutoImplicit false

namespace ZeroFido.Nfc

/-- The functions the dispatcher calls on a request under the mutex: the U2F request validation,
with its error response; whether a U2F request needs user presence; the U2F adapter; and the
getInfo response. -/
structure Handlers where
  u2fValidateRequest : Bytes → Option Bytes
  u2fRequestNeedsUserPresence : Bytes → Bool
  u2fAdapterHandleMsg : Bytes → Bytes
  getInfoResponse : Bytes

/-- Handlers of a device without U2F. -/
def Handlers.withoutU2f : Handlers where
  u2fValidateRequest := fun _ ↦ some (statusWordBytes swInsNotSupported)
  u2fRequestNeedsUserPresence := fun _ ↦ false
  u2fAdapterHandleMsg := fun _ ↦ statusWordBytes swInsNotSupported
  getInfoResponse := [0x00]

/-- The capabilities of the running profile that the dispatcher reads. -/
structure NfcCapabilities where
  fido2Enabled : Bool
  u2fEnabled : Bool
  deriving DecidableEq, Repr

/-- What the dispatcher learns from outside while it handles one APDU: whether an approval is
pending, and whether the listener sends a first chained block. -/
structure Surroundings where
  pendingApproval : Bool := false
  sent : Bool := true
  deriving DecidableEq, Repr

section Helpers

/-- `zf_transport_nfc_exchange_busy`. -/
def exchangeBusy (app : NfcApp) : Bool :=
  app.processing || app.requestPending || app.responseReady || app.txChainActive ||
    requestWorkerActive app

/-- `zf_transport_nfc_ctap_msg_p1p2_valid`. -/
def ctapMsgP1P2Valid (apdu : NfcApdu) : Bool :=
  apdu.p1 &&& ~~~ctapMsgP1GetResponse == 0 && apdu.p2 == 0

/-- `zf_transport_nfc_ctap_msg_get_response_supported`. -/
def ctapMsgGetResponseSupported (apdu : NfcApdu) : Bool := apdu.p1 &&& ctapMsgP1GetResponse != 0

/-- `zf_transport_nfc_send_busy_status`. -/
def sendBusyStatus (app : NfcApp) : NfcApp := sendApduPayload app [statusProcessing] swStatusUpdate

/-- `zf_transport_nfc_append_ctap_chained_fragment`. -/
def appendCtapChainedFragment (app : NfcApp) (apdu : NfcApdu) : Bool × NfcApp :=
  if maxMsgSize < app.requestLen ∨ maxMsgSize - app.requestLen < apdu.data.length then
    (false, resetExchange app)
  else
    (true, { app with
      transportArena := writeArena app.transportArena app.requestLen apdu.data
      requestLen := app.requestLen + apdu.data.length
      ctapGetResponseSupported :=
        app.ctapGetResponseSupported || ctapMsgGetResponseSupported apdu })

/-- `zf_transport_nfc_begin_ctap_msg`. -/
def beginCtapMsg (app : NfcApp) (apdu : NfcApdu) : Bool × NfcApp :=
  if apdu.data.length = 0 ∨ maxMsgSize < apdu.data.length then
    (false, app)
  else
    (true, { app with
      transportArena := writeArena app.transportArena 0 apdu.data
      requestLen := apdu.data.length
      ctapGetResponseSupported := ctapMsgGetResponseSupported apdu })

/-- A response that a command of the callback leaves for GET RESPONSE. -/
def offerResponse (app : NfcApp) (responseLen : ℕ) (responseIsU2f : Bool) : NfcApp :=
  { app with
    responseLen
    responseOffset := 0
    responseReady := true
    responseIsU2f
    responseIsError := false
    errorStatusWord := 0
    processing := false
    requestPending := false
    requestKind := .none
    processingSessionId := 0
    commandChainActive := false }

/-- `zf_app_transport_arena_release` followed by detaching it from the state. -/
def releaseArena (app : NfcApp) : NfcApp :=
  { app with arenaAttached := false, transportArena := zeroBytes transportArenaSize }

end Helpers

section Direct

variable (handlers : Handlers)

/-- `zf_transport_nfc_send_get_info_response`. -/
def sendGetInfoResponse (app : NfcApp) (surroundings : Surroundings) : NfcApp :=
  let response := handlers.getInfoResponse
  let app := { app with
    transportArena := writeArena app.transportArena 0 response
    handed := app.handed ++ [[ctapCmdGetInfo]] }
  if response.length + 2 ≤ maxTxFrameInfSize then sendApduPayload app response swSuccess
  else beginChainedApduPayload app response swSuccess surroundings.sent

/-- `zf_transport_nfc_send_ctap2_direct` up to the point where it releases the mutex. -/
def startCtap2Direct (app : NfcApp) (requestWasExtendedApdu : Bool) : NfcApp :=
  if app.requestLen = 0 ∨ maxMsgSize < app.requestLen then
    sendStatusWord app swWrongLength
  else
    { app with
      transportAutoAcceptTransaction := true
      processing := true
      processingCancelRequested := false
      processingSessionId := app.sessionId
      requestKind := .ctap2
      arenaAttached := true
      transportArena := zeroBytes transportArenaSize
      callback := .ctap2Direct app.transportAutoAcceptTransaction requestWasExtendedApdu
      directs := app.directs + 1
      handed := app.handed ++ [app.transportArena.take app.requestLen] }

/-- The rest of `zf_transport_nfc_send_ctap2_direct`, once the command has returned `response`. -/
def finishCtap2Direct (app : NfcApp) (oldAutoAccept requestWasExtendedApdu : Bool)
    (response : Bytes) (surroundings : Surroundings) : NfcApp :=
  let app := { app with
    transportArena := writeArena app.transportArena 0 response
    transportAutoAcceptTransaction := oldAutoAccept
    processing := false
    processingSessionId := 0
    requestKind := .none
    callback := .idle }
  if response.length = 0 then
    sendStatusWord (releaseArena app) swInternalError
  else if response.length + 2 ≤ maxTxFrameInfSize then
    releaseArena (sendApduPayload app response swSuccess)
  else if requestWasExtendedApdu then
    beginChainedApduPayload app response swSuccess surroundings.sent
  else
    sendGetResponse (offerResponse app response.length false)
      { cla := 0x00, ins := insIsoGetResponse, p1 := 0, p2 := 0, hasLe := true }
      surroundings.pendingApproval

/-- `zf_transport_nfc_send_u2f_response`, for a response that lies in the arena. -/
def sendU2fResponse (app : NfcApp) (apdu : NfcApdu) (response : Bytes)
    (surroundings : Surroundings) : NfcApp :=
  if response.length < 2 then
    sendStatusWord app swInternalError
  else
    let statusWord := UInt16.ofNat (length16 (response.getD (response.length - 2) 0)
      (response.getD (response.length - 1) 0))
    if response.length ≤ maxTxFrameInfSize then
      sendApduPayload app (response.take (response.length - 2)) statusWord
    else if !app.arenaAttached || decide (transportArenaSize < response.length) then
      sendStatusWord (resetExchange app) swInternalError
    else
      sendGetResponse
        { offerResponse app response.length true with ctapGetResponseSupported := false } apdu
        surroundings.pendingApproval

/-- `zf_transport_nfc_send_encoded_u2f_immediate` without automatic approval, which does not let go
of the mutex. -/
def sendU2fWithoutPresence (app : NfcApp) (apdu : NfcApdu) (request : Bytes)
    (surroundings : Surroundings) : NfcApp :=
  let response := handlers.u2fAdapterHandleMsg request
  sendU2fResponse { app with transportArena := writeArena app.transportArena 0 response } apdu
    response surroundings

/-- `zf_transport_nfc_send_encoded_u2f_immediate` with automatic approval, up to the point where it
releases the mutex. -/
def startU2fImmediate (app : NfcApp) (apdu : NfcApdu) : NfcApp :=
  { app with
    transportAutoAcceptTransaction := true
    callback := .u2fImmediate app.transportAutoAcceptTransaction apdu }

/-- The rest of it, once the adapter has returned `response`. -/
def finishU2fImmediate (app : NfcApp) (oldAutoAccept : Bool) (apdu : NfcApdu) (response : Bytes)
    (surroundings : Surroundings) : NfcApp :=
  sendU2fResponse { app with
    transportArena := writeArena app.transportArena 0 response
    transportAutoAcceptTransaction := oldAutoAccept
    callback := .idle } apdu response surroundings

end Direct

section Routes

variable (handlers : Handlers)

/-- An APDU that `zf_transport_nfc_send_u2f_version_immediate` takes. -/
def isU2fVersionApdu (apdu : NfcApdu) : Bool :=
  apdu.cla == 0x00 && apdu.ins == u2fCmdVersion && !apdu.chained

/-- `zf_transport_nfc_send_u2f_version_immediate`, for an applet that is not selected. -/
def sendU2fVersionImmediate (app : NfcApp) (apdu : NfcApdu) (surroundings : Surroundings) :
    NfcApp :=
  if exchangeBusy app then sendBusyStatus app
  else
    let app := startSession app
    match encodeU2fRequest apdu maxMsgSize with
    | none => sendStatusWord app swWrongLength
    | some request =>
      sendU2fWithoutPresence handlers
        { app with transportArena := writeArena app.transportArena 0 request } apdu request
        surroundings

/-- The encoded request of `handleU2fApdu`: an invalid one is answered at once. -/
def runU2fRequest (app : NfcApp) (apdu : NfcApdu) (request : Bytes) (surroundings : Surroundings) :
    NfcApp :=
  match handlers.u2fValidateRequest request with
  | some response =>
    sendU2fResponse { app with transportArena := writeArena app.transportArena 0 response } apdu
      response surroundings
  | none =>
    if handlers.u2fRequestNeedsUserPresence request then startU2fImmediate app apdu
    else sendU2fWithoutPresence handlers app apdu request surroundings

/-- A U2F command for the selected applet: `zf_transport_nfc_send_u2f_immediate_without_presence`
and, for a command that needs user presence, `zf_transport_nfc_send_u2f_immediate`. -/
def handleU2fApdu (app : NfcApp) (apdu : NfcApdu) (surroundings : Surroundings) : NfcApp :=
  match encodeU2fRequest apdu maxMsgSize with
  | none => sendStatusWord app swWrongLength
  | some request =>
    runU2fRequest handlers { app with transportArena := writeArena app.transportArena 0 request }
      apdu request surroundings

/-- `zf_transport_nfc_finish_ctap2_msg`. The worker is woken by a flag of its own thread; waking it
fails only for a request that is not pending or a transport that is stopping. -/
def finishCtap2Msg (app : NfcApp) (requestWasExtendedApdu : Bool) : NfcApp :=
  let ctapGetResponseSupported := app.ctapGetResponseSupported
  let app := { app with commandChainActive := false }
  if !ctapGetResponseSupported then
    startCtap2Direct app requestWasExtendedApdu
  else
    match queueRequest app .ctap2 (app.transportArena.take app.requestLen) with
    | (false, app) => sendStatusWord app swConditionsNotSatisfied
    | (true, app) => sendBusyStatus { app with ctapGetResponseSupported }

/-- The body of a CTAP2 message that is not chained: the last fragment of a chain, or all of it. -/
def takeCtapMsg (app : NfcApp) (apdu : NfcApdu) : Bool × NfcApp :=
  if app.commandChainActive then appendCtapChainedFragment app apdu else beginCtapMsg app apdu

/-- The CTAP2 messages of `zf_transport_nfc_handle_apdu_internal` that are not chained. -/
def handleCtapMsg (app : NfcApp) (apdu : NfcApdu) (capabilities : NfcCapabilities)
    (surroundings : Surroundings) : NfcApp :=
  if !ctapMsgP1P2Valid apdu then
    sendStatusWord (resetExchange app) swWrongP1P2
  else if !capabilities.fido2Enabled then
    sendStatusWord app swInsNotSupported
  else if !app.ctapGetResponseSupported && (app.responseReady || app.responseIsError) then
    sendGetResponse app apdu surroundings.pendingApproval
  else if exchangeBusy app then
    sendBusyStatus app
  else
    match takeCtapMsg app apdu with
    | (false, app) => sendStatusWord app swWrongLength
    | (true, app) => finishCtap2Msg app apdu.extended

/-- The chained CTAP2 messages of `zf_transport_nfc_handle_apdu_internal`. -/
def handleChainedCtapMsg (app : NfcApp) (apdu : NfcApdu) : NfcApp :=
  if !ctapMsgP1P2Valid apdu then
    sendStatusWord (resetExchange app) swWrongP1P2
  else if exchangeBusy app then
    sendBusyStatus app
  else
    match appendCtapChainedFragment app apdu with
    | (false, app) => sendStatusWord app swWrongLength
    | (true, app) => sendStatusWord { app with commandChainActive := true } swSuccess

/-- CTAP control END. -/
def handleControlEnd (app : NfcApp) : NfcApp :=
  sendStatusWord (clearTxChain (resetExchange (cancelCurrentRequest
    { app with appletSelected := false }))) swSuccess

/-- The commands of `zf_transport_nfc_handle_apdu_internal` that need the applet to be selected. -/
def handleAppletApdu (app : NfcApp) (apdu : NfcApdu) (capabilities : NfcCapabilities)
    (surroundings : Surroundings) : NfcApp :=
  if apdu.cla == 0x80 && apdu.ins == insCtapControl && apdu.p1 == 0x01 && apdu.p2 == 0x00 then
    handleControlEnd app
  else if apdu.cla == 0x80 && apdu.ins == insCtapMsg && !apdu.chained &&
      apdu.data == [ctapCmdGetInfo] then
    if !ctapMsgP1P2Valid apdu then sendStatusWord app swWrongP1P2
    else if !capabilities.fido2Enabled then sendStatusWord app swInsNotSupported
    else if exchangeBusy app then sendBusyStatus app
    else sendGetInfoResponse handlers app surroundings
  else if (apdu.cla == 0x80 && apdu.ins == insCtapGetResponse) ||
      ((apdu.cla == 0x80 || apdu.cla == 0x00) && apdu.ins == insIsoGetResponse) then
    if apdu.ins == insCtapGetResponse && (apdu.p1 != 0x00 || apdu.p2 != 0x00) then
      sendStatusWord app swWrongP1P2
    else sendGetResponse app apdu surroundings.pendingApproval
  else if apdu.chained && apdu.cla == 0x80 && apdu.ins == insCtapMsg then
    handleChainedCtapMsg app apdu
  else if apdu.cla == 0x80 && apdu.ins == insCtapMsg then
    handleCtapMsg app apdu capabilities surroundings
  else if apdu.cla == 0x00 then
    if !capabilities.u2fEnabled then sendStatusWord app swInsNotSupported
    else if apdu.chained then sendStatusWord app swInsNotSupported
    else if exchangeBusy app then sendBusyStatus app
    else handleU2fApdu handlers app apdu surroundings
  else
    sendStatusWord app swInsNotSupported

def desfireVersionPart : Bytes := [0x04, 0x01, 0x01, 0x01, 0x00, 0x18, 0x05]
def desfireVersionPart3 : Bytes :=
  [0x04, 0xA1, 0xB2, 0xC3, 0xD4, 0xE5, 0xF6, 0x00, 0x00, 0x00, 0x00, 0x24, 0x04, 0x26]
def desfireVersionFull : Bytes := desfireVersionPart ++ desfireVersionPart ++ desfireVersionPart3

/-- `zf_transport_nfc_send_desfire_version_part`. -/
def sendDesfireVersionPart (app : NfcApp) : NfcApp :=
  if 2 ≤ app.desfireProbeFrame then
    sendApduPayload { app with desfireProbeFrame := 0 } desfireVersionPart3 desfireSwOk
  else
    sendApduPayload { app with desfireProbeFrame := app.desfireProbeFrame + 1 } desfireVersionPart
      desfireSwMore

/-- `zf_transport_nfc_handle_apdu_internal`, called with the mutex held. -/
def handleApdu (app : NfcApp) (apduBytes : Bytes) (capabilities : NfcCapabilities)
    (surroundings : Surroundings) : NfcApp :=
  let app := { app with arenaAttached := true }
  match parseApdu apduBytes with
  | none => sendStatusWord app swWrongLength
  | some apdu =>
    let rawCla := apduBytes.getD 0 0
    if isNdefSelectApdu apdu then
      sendStatusWord { app with appletSelected := false } swFileNotFound
    else if apdu.cla == 0x00 && apdu.ins == 0xA4 then
      handleSelect app apdu capabilities.fido2Enabled capabilities.u2fEnabled
    else if !app.appletSelected && capabilities.u2fEnabled && isU2fVersionApdu apdu then
      sendU2fVersionImmediate handlers app apdu surroundings
    else if rawCla == 0x90 && apdu.ins == 0x60 && apdu.p1 == 0x00 && apdu.p2 == 0x00 then
      sendApduPayload { app with desfireProbeFrame := 0 } desfireVersionFull desfireSwOk
    else if !app.appletSelected then
      if rawCla == 0x90 && apdu.ins == 0xAF then
        sendDesfireVersionPart app
      else if rawCla == 0x80 && apdu.ins == 0x60 && apdu.p1 == 0x00 && apdu.p2 == 0x00 then
        sendStatusWord app swInsNotSupported
      else sendStatusWord app swConditionsNotSatisfied
    else
      handleAppletApdu handlers app apdu capabilities surroundings

end Routes

end ZeroFido.Nfc
