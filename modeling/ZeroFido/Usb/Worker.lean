import ZeroFido.Foundations.Run
import ZeroFido.Foundations.Trace
import ZeroFido.Usb.Session

/-!
# The USB worker

`transport/usb_hid_worker.c` and `transport/dispatch.c`, with the approval state of
`ui/approval_state.c`. The worker is one thread. A complete message runs its handler inside
`zf_transport_handle_request`, and a handler that waits for the user runs a loop of its own that
calls `zf_transport_handle_request` again, so the handlers in progress form a stack (`activations`,
the innermost first) over the main loop. The user and the stop of the application act from other
threads, between any two steps of the worker.

A handler is what it asks of the transport, in order: polls, one interaction with the user, and its
commit to storage (`HandlerPath.controlPoints`). It may give up between any two of them, and it does
give up as soon as a poll or the interaction does not succeed.

The log records, for each request by its number, how it was dispatched, what it sent, what its polls
and its wait reported, and when it was interrupted.
-/

set_option autoImplicit false
set_option relaxedAutoImplicit false

namespace ZeroFido.Usb

section Handlers

/-- What a handler asks of the transport, or does after asking. -/
inductive ControlPoint where
  | poll
  | interaction
  | commit
  deriving DecidableEq, Repr

/-- The ways through the CTAP2 command handlers. -/
inductive HandlerPath where
  | makeCredential
  | makeCredentialExcluded
  | makeCredentialProbe
  | getAssertion
  | getAssertionSilent
  | getAssertionProbe
  | getNextAssertion
  | clientPin
  | clientPinConsent
  | reset
  | selection
  | getInfo
  deriving DecidableEq, Repr

/-- The command byte of the request. -/
def HandlerPath.command : HandlerPath → UInt8
  | .makeCredential | .makeCredentialExcluded | .makeCredentialProbe => 0x01
  | .getAssertion | .getAssertionSilent | .getAssertionProbe => 0x02
  | .getInfo => 0x04
  | .clientPin | .clientPinConsent => 0x06
  | .reset => 0x07
  | .getNextAssertion => 0x08
  | .selection => 0x0B

/-- The control points on each way, in the order of the source. An excluded credential and an empty
pinAuth ask for a touch and then return an error. -/
def HandlerPath.controlPoints : HandlerPath → List ControlPoint
  | .makeCredential => [.poll, .interaction, .poll, .poll, .commit]
  | .makeCredentialExcluded => [.poll, .interaction]
  | .makeCredentialProbe => [.interaction]
  | .getAssertion => [.poll, .interaction, .poll, .poll, .commit]
  | .getAssertionSilent => [.poll, .commit]
  | .getAssertionProbe => [.interaction]
  | .getNextAssertion => [.poll, .poll, .commit]
  | .clientPin => [.commit]
  | .clientPinConsent => [.interaction, .commit]
  | .reset => [.interaction, .commit]
  | .selection => [.interaction]
  | .getInfo => []

/-- The control points of the handler that a message is routed to. -/
def messageControlPoints (message : CompleteMessage) (capabilities : Capabilities)
    (path : HandlerPath) : List ControlPoint :=
  match message.protocol with
  | .ping => []
  | .wink => []
  | .u2f =>
    if capabilities.u2fEnabled && U2f.requestNeedsUserPresence message.payload then [.interaction]
    else []
  | .ctap2 =>
    if capabilities.fido2Enabled && message.payload.getD 0 0 == path.command then path.controlPoints
    else []

/-- A handler asks the user at most once. -/
theorem count_interaction_messageControlPoints (message : CompleteMessage)
    (capabilities : Capabilities) (path : HandlerPath) :
    (messageControlPoints message capabilities path).count .interaction ≤ 1 := by
  unfold messageControlPoints
  split
  · exact Nat.zero_le _
  · exact Nat.zero_le _
  · split_ifs <;> decide
  · split_ifs
    · cases path <;> decide
    · exact Nat.zero_le _

end Handlers

section State

/-- `ZfApprovalState`. -/
inductive ApprovalState where
  | idle
  | pending
  | approved
  | denied
  | timedOut
  | canceled
  deriving DecidableEq, Repr

/-- How the user, or a timer, ends a pending interaction. -/
inductive Answer where
  | approve
  | deny
  | expire
  | cancel
  deriving DecidableEq, Repr

def Answer.state : Answer → ApprovalState
  | .approve => .approved
  | .deny => .denied
  | .expire => .timedOut
  | .cancel => .canceled

/-- Where a loop of the worker stands. `running` and `draining` are places of a handler: between two
control points, and in the packet loop of a poll. `waking`, `signalled` and `answered` are places of
an approval wait: about to try the semaphore, with the semaphore taken, and with the result read
once. The others belong to the waits and to the main loop: in `zf_transport_worker_wait`, in
`zf_transport_handle_request`, and behind it. -/
inductive Phase where
  | running
  | draining
  | waking
  | asleep
  | reading (timedOut cancel : Bool)
  | checking (timedOut : Bool)
  | signalled
  | answered
  | stopped
  deriving DecidableEq, Repr

/-- A call of `zf_transport_dispatch_complete_message` that has not returned. -/
structure Activation where
  number : ℕ
  sessionId : UInt32
  protocol : ProtocolKind
  generation : UInt32
  remaining : List ControlPoint
  phase : Phase := .running
  sendKeepalive : Bool := false
  sentKeepalive : Bool := false
  deriving DecidableEq, Repr

/-- What ended the processing of a request from outside. -/
inductive AbortCause where
  | channelInit
  | broadcastInit
  | connection
  deriving DecidableEq, Repr

inductive Occurrence where
  | sent (message : Message)
  | dispatched (number : ℕ)
  | response (number : ℕ) (message : Message)
  | keepalive (number : ℕ)
  | aborted (number : ℕ) (protocol : ProtocolKind) (cause : AbortCause)
  | polled (number : ℕ) (status : CtapStatus)
  | waited (number : ℕ) (approved : Bool)
  | committed (number : ℕ)
  deriving DecidableEq, Repr

structure Worker where
  transport : TransportState := {}
  connected : Bool := false
  approval : ApprovalState := .idle
  approvalDone : Bool := false
  stopSignal : Bool := false
  mainPhase : Phase := .asleep
  activations : List Activation := []
  dispatched : ℕ := 0
  log : List Occurrence := []
  deriving DecidableEq, Repr

/-- The flags with which `zf_transport_worker_wait` returns. -/
structure WorkerFlags where
  stop : Bool := false
  connect : Bool := false
  disconnect : Bool := false
  deriving DecidableEq, Repr

/-- What a handler returns to the dispatcher: a transport error, or a response. -/
inductive DispatchResult where
  | error (code : UInt8)
  | response (data : Bytes)
  deriving DecidableEq, Repr

/-- What happens next: an answer of the user, the stop of the application, the end of a wait for
flags, the outcome of reading a packet, a step of the worker by itself, an interaction that is
accepted or refused without a prompt, or the return of the innermost handler. -/
inductive Event where
  | answer (answer : Answer)
  | stop
  | wake (flags : WorkerFlags)
  | timeout
  | waitError
  | packet (packet : Bytes) (surroundings : Surroundings) (path : HandlerPath)
  | noPacket (now : UInt32)
  | proceed (now : UInt32)
  | skipInteraction (accepted : Bool)
  | finish (result : DispatchResult)

end State

namespace Worker

/-- Where the innermost loop stands. -/
def phase (worker : Worker) : Phase :=
  match worker.activations with
  | [] => worker.mainPhase
  | top :: _ => top.phase

def setPhase (worker : Worker) (phase : Phase) : Worker :=
  match worker.activations with
  | [] => { worker with mainPhase := phase }
  | top :: below => { worker with activations := { top with phase := phase } :: below }

def record (worker : Worker) (occurrences : List Occurrence) : Worker :=
  { worker with log := worker.log ++ occurrences }

/-- `zerofido_ui_finish_interaction_locked`: only a pending interaction is completed. -/
def finishInteraction (worker : Worker) (state : ApprovalState) : Worker :=
  if worker.approval = .pending then { worker with approval := state, approvalDone := true }
  else worker

/-- `zf_transport_worker_apply_actions`. -/
def applyActions (worker : Worker) (cancel : Bool) : Worker :=
  if cancel then worker.finishInteraction .canceled else worker

/-- `zf_transport_usb_hid_stop`. -/
def requestStop (worker : Worker) : Worker :=
  { worker with
    transport := { worker.transport with stopping := true, processingCancelRequested := true }
    approvalDone := true
    stopSignal := true }

def stopRequested (worker : Worker) : Bool := worker.transport.stopping || worker.stopSignal

def requestCancel (worker : Worker) : Worker :=
  { worker with transport := { worker.transport with processingCancelRequested := true } }

/-- The transport replaced. A request that was being processed and no longer is was aborted. -/
def setTransport (worker : Worker) (transport : TransportState) (cause : AbortCause) : Worker :=
  let next := { worker with transport := transport }
  if worker.transport.processing && !transport.processing then
    match worker.activations with
    | [] => next
    | top :: _ => next.record [.aborted top.number top.protocol cause]
  else next

/-- `zf_transport_worker_on_connect`. -/
def onConnect (worker : Worker) : Worker :=
  if worker.connected then worker
  else
    { worker.setTransport (expireLock (sessionReset worker.transport)) .connection with
      connected := true }

/-- `zf_transport_worker_on_disconnect`. -/
def onDisconnect (worker : Worker) : Worker :=
  let worker := worker.finishInteraction .canceled
  { worker.setTransport (expireLock (sessionReset worker.transport)) .connection with
    connected := false }

def handleWorkerFlags (worker : Worker) (flags : WorkerFlags) : Worker :=
  let worker := if flags.connect then worker.onConnect else worker
  if flags.disconnect then worker.onDisconnect else worker

/-- `zf_transport_tick`. -/
def tick (worker : Worker) (now : UInt32) : Worker :=
  let handling := sessionTick worker.transport now
  (worker.setTransport handling.transport .connection).record (handling.sent.map .sent)

/-- `zf_transport_dispatch_complete_message` up to the handler. -/
def dispatch (worker : Worker) (message : CompleteMessage) (capabilities : Capabilities)
    (path : HandlerPath) : Worker :=
  let generation := worker.transport.processingGeneration + 1
  let activation : Activation :=
    { number := worker.dispatched
      sessionId := message.sessionId
      protocol := message.protocol
      generation := generation
      remaining := messageControlPoints message capabilities path }
  { worker with
    transport :=
      { worker.transport with
        processingGeneration := generation, processing := true, processingResync := false }
    activations := activation :: worker.activations
    dispatched := worker.dispatched + 1
    log := worker.log ++ [.dispatched worker.dispatched] }

/-- The rest of the loop of `zf_transport_handle_request` after a packet: the actions it asked for,
and the next packet only while a message is being assembled. -/
def packetHandled (worker : Worker) (timedOut cancel : Bool) : Worker :=
  let worker := worker.applyActions cancel
  worker.setPhase (if worker.transport.active then .reading timedOut cancel else .checking timedOut)

/-- A packet read by `zf_transport_handle_request`. -/
def readPacket (worker : Worker) (timedOut cancel : Bool) (packet : Bytes)
    (surroundings : Surroundings) (path : HandlerPath) : Worker :=
  if worker.stopRequested then worker.requestCancel.setPhase (.checking timedOut)
  else
    let worker := worker.onConnect
    let cause := if packetCid packet = worker.transport.cid then AbortCause.channelInit
      else .broadcastInit
    let handling := handlePacket worker.transport packet surroundings
    let cancel := cancel || handling.cancelPending
    let worker := (worker.setTransport handling.transport cause).record (handling.sent.map .sent)
    match handling.complete with
    | none => worker.packetHandled timedOut cancel
    | some message =>
      (worker.setPhase (.reading timedOut cancel)).dispatch message surroundings.capabilities path

/-- No packet for `zf_transport_handle_request`. -/
def readNothing (worker : Worker) (timedOut : Bool) : Worker :=
  let worker := if worker.stopRequested then worker.requestCancel else worker
  worker.setPhase (.checking timedOut)

end Worker

section Handler

open Worker

variable (worker : Worker) (top : Activation) (below : List Activation)

/-- The innermost handler replaced. -/
def withTop (top : Activation) : Worker := { worker with activations := top :: below }

/-- The innermost handler goes on to its next control point. -/
def continueHandler (remaining : List ControlPoint) : Worker :=
  withTop worker below { top with remaining := remaining, phase := .running }

/-- A control point did not succeed: the handler has only its return before it. -/
def abandonHandler : Worker := continueHandler worker top below []

/-- `zf_transport_usb_hid_poll_cbor_control` returns KEEPALIVE_CANCEL. -/
def pollCanceled : Worker :=
  (abandonHandler worker.requestCancel top below).record [.polled top.number .keepaliveCancel]

/-- `zf_transport_usb_hid_poll_cbor_control` returns SUCCESS. -/
def pollSucceeded (remaining : List ControlPoint) : Worker :=
  (continueHandler worker top below remaining).record [.polled top.number .success]

/-- A poll up to its packet loop. Only the request that is being processed looks for packets. -/
def beginPoll (rest : List ControlPoint) : Worker :=
  if !worker.transport.processing || worker.transport.cmd != cmdCbor ||
      worker.transport.cid != top.sessionId then
    pollSucceeded worker top below rest
  else if worker.stopRequested || worker.transport.processingCancelRequested then
    pollCanceled worker top below
  else withTop worker below { top with remaining := rest, phase := .draining }

/-- A packet read by a poll. -/
def drainPacket (packet : Bytes) (surroundings : Surroundings) : Worker :=
  if worker.stopRequested then pollCanceled worker top below
  else
    let cause := if packetCid packet = worker.transport.cid then AbortCause.channelInit
      else .broadcastInit
    let handled := handleProcessingControl worker.transport packet surroundings
    let worker := ((worker.setTransport handled.1.transport cause).record
      (handled.1.sent.map .sent)).applyActions handled.1.cancelPending
    if handled.2 then worker else pollCanceled worker top below

/-- No packet for a poll. -/
def drainNothing (now : UInt32) : Worker :=
  if worker.stopRequested || worker.transport.processingCancelRequested then
    pollCanceled worker top below
  else pollSucceeded (worker.tick now) top below top.remaining

/-- `zerofido_ui_request_approval` up to the wait: the interaction is pending and its signal is
cleared. -/
def beginInteraction (rest : List ControlPoint) : Worker :=
  { worker with
    approval := .pending
    approvalDone := false
    activations :=
      { top with
        remaining := rest
        phase := .waking
        sendKeepalive := worker.transport.cmd == cmdCbor
        sentKeepalive := false } :: below }

/-- `zf_transport_usb_hid_wait_for_interaction` returns false. -/
def waitFailed : Worker :=
  (abandonHandler worker top below).record [.waited top.number false]

/-- The top of the loop of `zf_transport_usb_hid_wait_for_interaction`. -/
def wakeWait : Worker :=
  if worker.approvalDone then
    withTop { worker with approvalDone := false } below { top with phase := .signalled }
  else if top.sendKeepalive && !top.sentKeepalive then
    (withTop worker below { top with phase := .asleep, sentKeepalive := true }).record
      [.keepalive top.number]
  else withTop worker below { top with phase := .asleep }

/-- The end of an iteration of the wait. -/
def endWaitIteration (timedOut : Bool) (now : UInt32) : Worker :=
  if worker.stopRequested || worker.transport.processingCancelRequested then
    waitFailed worker.requestCancel top below
  else
    let worker := if timedOut && top.sendKeepalive then worker.record [.keepalive top.number]
      else worker
    (withTop worker below { top with phase := .waking }).tick now

/-- The wait reports whether the interaction was approved. -/
def reportWait : Worker :=
  (withTop worker below { top with phase := .answered }).record
    [.waited top.number (worker.approval == .approved)]

/-- `zerofido_ui_wait_for_interaction_result` after the wait has returned true. -/
def endInteraction : Worker :=
  if worker.approval = .approved then continueHandler worker top below top.remaining
  else abandonHandler worker top below

/-- The frames of a response. -/
def responseMessage (protocol : ProtocolKind) (sessionId : UInt32) : DispatchResult → Message
  | .error code => hidError sessionId code
  | .response data =>
    if data = [] ∧ protocol ≠ .wink then hidError sessionId errOther
    else
      { cid := sessionId
        cmd := match protocol with
          | .ping => cmdPing
          | .u2f => cmdMsg
          | .ctap2 => cmdCbor
          | .wink => cmdWink
        data := data }

/-- `ZF_CTAP_ERR_KEEPALIVE_CANCEL` as a response. -/
def keepaliveCancelResponse : DispatchResult := .response [0x2D]

/-- The handler is off the stack, and the loop that read its message goes on. -/
def popHandler : Worker :=
  let worker := { worker with activations := below }
  match worker.phase with
  | .reading timedOut cancel => worker.packetHandled timedOut cancel
  | _ => worker

/-- `zf_transport_dispatch_complete_message` from the handler's return. -/
def finishHandler (result : DispatchResult) : Worker :=
  if top.generation ≠ worker.transport.processingGeneration then popHandler worker below
  else
    let result :=
      if top.protocol = .ctap2 ∧ worker.transport.processingCancelRequested = true then
        keepaliveCancelResponse
      else result
    let worker := worker.record
      [.response top.number (responseMessage top.protocol top.sessionId result)]
    popHandler { worker with transport := { worker.transport with processing := false } } below

/-- A step of a handler that is not waiting. -/
def runHandler : Worker :=
  match top.remaining with
  | [] => worker
  | .poll :: rest => beginPoll worker top below rest
  | .interaction :: rest => beginInteraction worker top below rest
  | .commit :: rest =>
    (continueHandler worker top below rest).record [.committed top.number]

/-- An interaction that needs no prompt, or is refused one. -/
def skipInteraction (accepted : Bool) : Worker :=
  match top.remaining with
  | .interaction :: rest =>
    if accepted then continueHandler worker top below rest else abandonHandler worker top below
  | _ => worker

/-- A step of the worker inside a handler. -/
def stepHandler : Phase → Event → Worker
  | .running, .proceed _ => runHandler worker top below
  | .running, .skipInteraction accepted => skipInteraction worker top below accepted
  | .running, .finish result => finishHandler worker top below result
  | .draining, .packet packet surroundings _ => drainPacket worker top below packet surroundings
  | .draining, .noPacket now => drainNothing worker top below now
  | .waking, .proceed _ => wakeWait worker top below
  | .asleep, .wake flags =>
    if flags.stop then waitFailed { worker with stopSignal := false } top below
    else (worker.handleWorkerFlags flags).setPhase (.reading false false)
  | .asleep, .timeout => worker.setPhase (.reading true false)
  | .asleep, .waitError => waitFailed worker top below
  | .reading timedOut cancel, .packet packet surroundings path =>
    worker.readPacket timedOut cancel packet surroundings path
  | .reading timedOut _, .noPacket _ => worker.readNothing timedOut
  | .checking timedOut, .proceed now => endWaitIteration worker top below timedOut now
  | .signalled, .proceed _ => reportWait worker top below
  | .answered, .proceed _ => endInteraction worker top below
  | _, _ => worker

/-- A step of the main loop. -/
def stepMain : Phase → Event → Worker
  | .asleep, .wake flags =>
    if flags.stop then { worker with mainPhase := .stopped }
    else (worker.handleWorkerFlags flags).setPhase (.reading false false)
  | .asleep, .timeout => worker.setPhase (.reading true false)
  | .asleep, .waitError => { worker with mainPhase := .stopped }
  | .reading timedOut cancel, .packet packet surroundings path =>
    worker.readPacket timedOut cancel packet surroundings path
  | .reading timedOut _, .noPacket _ => worker.readNothing timedOut
  | .checking _, .proceed now =>
    if worker.stopRequested then { worker with mainPhase := .stopped }
    else (worker.tick now).setPhase .asleep
  | _, _ => worker

/-- A step of the system. -/
def step (worker : Worker) (event : Event) : Worker :=
  match event with
  | .answer answer => worker.finishInteraction answer.state
  | .stop => worker.requestStop
  | event =>
    match worker.activations with
    | [] => stepMain worker worker.mainPhase event
    | top :: below => stepHandler worker top below top.phase event

end Handler

end ZeroFido.Usb
