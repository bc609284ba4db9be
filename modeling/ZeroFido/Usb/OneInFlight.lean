import Mathlib.Data.List.GetD
import ZeroFido.Usb.LateOutput
import ZeroFido.Usb.SessionRuns

/-!
# One request in flight

While a handler is on the stack the worker should start no other message, and the bytes of no other
message should reach the buffer that the handler reads. The session refuses new messages while a
request is being processed. What ends the processing while the handler is on the stack is an abort,
and after most aborts the handler reads no further packet: its wait finds the end of its
interaction signalled, and its polls look for packets only while its request is being processed.
`Spent` says so.

The exception is a connection that is lost in the wait. The iteration that handles the loss goes on
to read a packet, and that packet may begin another message (`message_begins_on_lost_connection`).
In every run without such a packet one request is in flight (`one_request_in_flight`).
-/

set_option autoImplicit false
set_option relaxedAutoImplicit false

namespace ZeroFido.Usb

open Foundations

section Statement

/-- Every byte of the buffer is as it was, or zero. -/
def OnlyCleared (before after : Bytes) : Prop :=
  ∀ index, after.getD index 0 = before.getD index 0 ∨ after.getD index 0 = 0

/-- A step inside a handler dispatches no message and writes no bytes of a message to the buffer. -/
def OneInFlight (worker : Worker) (event : Event) : Prop :=
  worker.activations ≠ [] → (step worker event).dispatched = worker.dispatched ∧
    OnlyCleared worker.transport.payload (step worker event).transport.payload

/-- The packet is the first one of a message. -/
def beginsMessage (transport : TransportState) (packet : Bytes) : Bool :=
  decide (7 ≤ packet.length) && isInitPacket packet &&
    !(packetCmd packet == cmdCancel || packetCmd packet == cmdLock || packetCmd packet == cmdInit) &&
    cidIsAllocated transport (packetCid packet) && decide (packetMsgLen packet ≤ maxMsgSize) &&
    validCommandLength (packetCmd packet) (packetMsgLen packet)

/-- A wait that has lost the connection reads no packet that begins a message. -/
def NoMessageOnLostConnection (worker : Worker) : Event → Prop
  | .packet packet _ _ =>
    worker.activations ≠ [] → worker.phase.isReading = true → worker.connected = false →
      worker.stopRequested = false → beginsMessage worker.transport packet = false
  | _ => True

instance (worker : Worker) (event : Event) : Decidable (NoMessageOnLostConnection worker event) := by
  cases event with
  | packet packet surroundings path => exact inferInstanceAs (Decidable (_ → _ → _ → _ → _))
  | _ => exact isTrue trivial

end Statement

section Quiet

theorem OnlyCleared.refl (buffer : Bytes) : OnlyCleared buffer buffer := fun _ ↦ Or.inl rfl

theorem OnlyCleared.trans {first second third : Bytes} (h : OnlyCleared first second)
    (h' : OnlyCleared second third) : OnlyCleared first third := by
  intro index
  rcases h' index with hkept | hzero
  · rw [hkept]
    exact h index
  · exact Or.inr hzero

/-- No message is begun, and the buffer is only cleared. -/
structure QuietTransport (transport transport' : TransportState) : Prop where
  inactive : transport.active = false → transport'.active = false
  buffer : OnlyCleared transport.payload transport'.payload

variable {transport transport' : TransportState}

theorem QuietTransport.refl (transport : TransportState) : QuietTransport transport transport :=
  ⟨id, .refl _⟩

theorem QuietTransport.trans {transport'' : TransportState} (h : QuietTransport transport transport')
    (h' : QuietTransport transport' transport'') : QuietTransport transport transport'' :=
  ⟨fun hinactive ↦ h'.inactive (h.inactive hinactive), h.buffer.trans h'.buffer⟩

theorem SameMessage.quiet (h : SameMessage transport transport') :
    QuietTransport transport transport' := by
  refine ⟨fun hinactive ↦ h.active.trans hinactive, ?_⟩
  rw [h.payload]
  exact .refl _

theorem quiet_sessionReset (transport : TransportState) :
    QuietTransport transport (sessionReset transport) := by
  refine ⟨fun _ ↦ rfl, fun index ↦ ?_⟩
  unfold sessionReset
  dsimp only
  generalize min (max transport.totalLen transport.receivedLen) maxMsgSize = used
  rcases Nat.lt_or_ge index used with hindex | hindex
  · right
    rw [List.getD_append _ _ _ _ (by rwa [List.length_replicate])]
    simp
  · left
    rw [List.getD_append_right _ _ _ _ (by rwa [List.length_replicate]), List.length_replicate]
    simp only [List.getD_eq_getElem?_getD, List.getElem?_drop]
    rw [Nat.add_sub_cancel' hindex]

theorem quiet_expireLock (transport : TransportState) :
    QuietTransport transport (expireLock transport) :=
  ⟨id, .refl _⟩

theorem quiet_sessionTick (transport : TransportState) (now : UInt32) :
    QuietTransport transport (sessionTick transport now).transport := by
  unfold sessionTick
  dsimp only
  by_cases htimedOut : (transport.active &&
      decide (assemblyTimeoutMs ≤ (now - transport.lastActivity).toNat)) = true
  · rw [if_pos htimedOut]
    split_ifs
    · exact (quiet_sessionReset _).trans (quiet_expireLock _)
    · exact quiet_sessionReset _
  · rw [if_neg htimedOut]
    split_ifs
    · exact quiet_expireLock _
    · exact .refl _

/-- Nothing is completed either. -/
structure QuietHandling (transport : TransportState) (handling : Handling) : Prop where
  complete : handling.complete = none
  quiet : QuietTransport transport handling.transport

variable {packet : Bytes} {handling : Handling}

theorem Kept.quiet (h : Kept transport handling) : QuietHandling transport handling :=
  ⟨h.complete, h.same.quiet⟩

/-- A handling that resets the session. -/
theorem quietHandling_reset {reset : TransportState} (hsame : QuietTransport transport reset)
    (htransport : handling.transport = sessionReset reset) (hcomplete : handling.complete = none) :
    QuietHandling transport handling := by
  refine ⟨hcomplete, ?_⟩
  rw [htransport]
  exact hsame.trans (quiet_sessionReset reset)

theorem quiet_touchCid (transport : TransportState) (cid now : UInt32) :
    QuietTransport transport (touchCid transport cid now) :=
  (sameChannels_touchCid cid now).2.quiet

theorem quietHandling_handleLock (packet : Bytes) (now : UInt32) :
    QuietHandling transport (handleLock transport packet now) := by
  have htouched := quiet_touchCid transport (packetCid packet) now
  unfold handleLock
  dsimp only
  split_ifs
  · exact ⟨rfl, .refl _⟩
  · exact ⟨rfl, .refl _⟩
  · exact ⟨rfl, .refl _⟩
  · exact ⟨rfl, htouched.trans ⟨id, .refl _⟩⟩
  · exact ⟨rfl, htouched⟩
  · exact ⟨rfl, htouched.trans ⟨id, .refl _⟩⟩

variable (h : WellFormed transport)
include h

theorem WellFormed.quiet_handleIdleInit (packet : Bytes) (surroundings : Surroundings) :
    QuietHandling transport (handleIdleInit transport packet surroundings) := by
  obtain ⟨-, hsame, -⟩ := h.allocateCid surroundings
  unfold handleIdleInit
  dsimp only
  split_ifs
  · exact ⟨rfl, .refl _⟩
  · exact ⟨rfl, .refl _⟩
  · split
    · rename_i allocated hallocated
      rw [hallocated] at hsame
      exact ⟨rfl, hsame.quiet⟩
    · rename_i allocated assignedCid hallocated
      rw [hallocated] at hsame
      exact quietHandling_reset hsame.quiet rfl rfl
  · exact ⟨rfl, .refl _⟩
  · exact quietHandling_reset (quiet_touchCid transport _ _) rfl rfl

/-- A first packet that begins no message, while no message is being assembled. -/
theorem WellFormed.quiet_handleInitPacket (hinactive : transport.active = false)
    (hidle : transport.processing = false) (hinit : isInitPacket packet = true)
    (hbegins : beginsMessage transport packet = false) (surroundings : Surroundings) :
    QuietHandling transport (handleInitPacket transport packet surroundings) := by
  unfold handleInitPacket
  dsimp only
  by_cases hlength : packet.length < 7
  · rw [if_pos hlength]
    exact ⟨rfl, .refl _⟩
  rw [if_neg hlength]
  by_cases hbusy : packetCmd packet ≠ cmdCancel ∧ isBusyForCid transport (packetCid packet) = true
  · rw [if_pos hbusy]
    exact ⟨rfl, .refl _⟩
  rw [if_neg hbusy]
  unfold handleInitCommand
  rw [hidle, hinactive]
  simp only [Bool.false_and, Bool.false_eq_true, if_false]
  split_ifs with hcancel _ hlock hinitCmd
  · exact ⟨rfl, .refl _⟩
  · exact ⟨rfl, .refl _⟩
  · exact quietHandling_handleLock _ _
  · exact h.quiet_handleIdleInit _ _
  · -- The command starts a message, so its channel or its length must be wrong.
    show QuietHandling transport (startMessage transport packet surroundings)
    unfold startMessage beginMessage
    dsimp only
    by_cases hallocated : (!cidIsAllocated transport (packetCid packet)) = true
    · rw [if_pos hallocated]
      exact ⟨rfl, .refl _⟩
    rw [if_neg hallocated]
    have hrefused : maxMsgSize < packetMsgLen packet ∨
        validCommandLength (packetCmd packet) (packetMsgLen packet) = false := by
      unfold beginsMessage at hbegins
      rw [Bool.not_eq_true, Bool.not_eq_false'] at hallocated
      by_contra hallowed
      rw [not_or, Bool.not_eq_false] at hallowed
      rw [hinit, hallocated, hallowed.2] at hbegins
      simp [hcancel, hlock, hinitCmd, Nat.le_of_not_lt hlength, Nat.le_of_not_lt hallowed.1]
        at hbegins
    rw [if_pos hrefused, if_neg Bool.false_ne_true]
    exact quietHandling_reset (quiet_touchCid transport _ _) rfl rfl

/-- A packet that is read while no message is being assembled, and begins none. -/
theorem WellFormed.quiet_handlePacket (hinactive : transport.active = false)
    (hbegins : transport.processing = true ∨ beginsMessage transport packet = false)
    (surroundings : Surroundings) :
    QuietHandling transport (handlePacket transport packet surroundings) := by
  obtain ⟨hchannels, hmessage⟩ := @sameChannels_refreshLock transport surroundings.now
  have hrefreshed := h.refreshLock surroundings.now
  have hprocessing := (sameRequest_refreshLock transport surroundings.now).processing
  have hback {handling : Handling}
      (hquiet : QuietHandling (Usb.refreshLock transport surroundings.now) handling) :
      QuietHandling transport handling := ⟨hquiet.complete, hmessage.quiet.trans hquiet.quiet⟩
  have hinactive' := hmessage.active.trans hinactive
  unfold handlePacket
  dsimp only
  split_ifs with _ _ hserving _ hinit
  · exact ⟨rfl, .refl _⟩
  · exact hback ⟨rfl, .refl _⟩
  · exact hback (hrefreshed.kept_handleProcessingPacket packet surroundings).quiet
  · exact hback ⟨rfl, .refl _⟩
  · rw [hprocessing] at hserving
    have hidle := hprocessing.trans (Bool.not_eq_true _ ▸ hserving)
    have hbegins' : beginsMessage (Usb.refreshLock transport surroundings.now) packet = false := by
      unfold beginsMessage
      rw [cidIsAllocated_congr hchannels.channels]
      exact hbegins.resolve_left hserving
    exact hback (hrefreshed.quiet_handleInitPacket hinactive' hidle hinit hbegins' surroundings)
  · unfold handleContPacket
    rw [hinactive', Bool.not_false, if_pos rfl]
    exact hback ⟨rfl, .refl _⟩

end Quiet

section Spent

/-- The handler of a request that is no longer processed reads a packet only in the iteration that
has lost the connection. -/
structure Spent (worker : Worker) (top : Activation) : Prop where
  processing : worker.transport.processing = false
  asksNoMore : .interaction ∉ top.remaining
  place : match top.phase with
    | .running | .signalled | .answered => True
    | .waking => worker.approvalDone = true
    | .reading _ _ => worker.approvalDone = true ∧ worker.connected = false
    | .checking _ => worker.transport.processingCancelRequested = true ∨
        worker.approvalDone = true
    | .draining | .asleep | .stopped => False

variable {worker worker' : Worker} {top top' : Activation}

/-- The innermost handler is the only one, and its request is being processed or it is spent. -/
structure Serves (worker : Worker) (top : Activation) : Prop where
  inactive : worker.transport.active = false
  request : worker.transport.processing = true ∨ Spent worker top

/-- What a step does to a spent handler: it stays spent, or returns. -/
inductive SpentStep (worker : Worker) : Worker → Prop
  | stays {worker' : Worker} {top' : Activation} (after : worker'.activations = [top'])
      (spent : Spent worker' top') : SpentStep worker worker'
  | returns {worker' : Worker} (after : worker'.activations = []) : SpentStep worker worker'

theorem Spent.external (h : Spent worker top)
    (hprocessing : worker'.transport.processing = worker.transport.processing)
    (hcancel : worker.transport.processingCancelRequested = true →
      worker'.transport.processingCancelRequested = true)
    (hdone : worker.approvalDone = true → worker'.approvalDone = true)
    (hconnected : worker'.connected = worker.connected) : Spent worker' top where
  processing := hprocessing.trans h.processing
  asksNoMore := h.asksNoMore
  place := by
    have hplace := h.place
    cases hphase : top.phase <;> rw [hphase] at hplace
    case reading => exact ⟨hdone hplace.1, hconnected.trans hplace.2⟩
    case checking => exact hplace.imp hcancel hdone
    case waking => exact hdone hplace
    all_goals exact hplace

/-- The handler goes on after a control point that is behind it. -/
theorem Spent.running (h : Spent worker top) {remaining : List ControlPoint}
    (hprocessing : worker'.transport.processing = worker.transport.processing)
    (hremaining : remaining.Sublist top.remaining) :
    Spent worker' { top with remaining := remaining, phase := .running } where
  processing := hprocessing.trans h.processing
  asksNoMore := fun hmem ↦ h.asksNoMore (hremaining.subset hmem)
  place := trivial

variable {event : Event}

/-- The worker has connected before it handles a packet. -/
theorem beginsMessage_onConnect (worker : Worker) (packet : Bytes) :
    beginsMessage worker.onConnect.transport packet = beginsMessage worker.transport packet := by
  unfold Worker.onConnect
  split_ifs
  · rfl
  · have htransport := setTransport_transport worker (expireLock (sessionReset worker.transport))
      .connection
    dsimp only
    rw [htransport]
    rfl

/-- The session does not begin a message with the packet. -/
def NotBegun (transport : TransportState) (packet : Bytes) : Prop :=
  transport.processing = true ∨ beginsMessage transport packet = false

theorem Serves.notBegun (h : Serves worker top) (horderly : Orderly worker) {below : List Activation}
    (hbefore : worker.activations = top :: below)
    (hcondition : NoMessageOnLostConnection worker event) :
    AllowsEvent NotBegun worker worker.phase event := by
  rintro packet surroundings path rfl hreading hstop
  rcases h.request with hprocessing | hspent
  · left
    unfold Worker.onConnect
    rw [if_pos (horderly.linked hprocessing)]
    exact hprocessing
  · right
    have hlost : worker.connected = false := by
      have hplace := hspent.place
      unfold Worker.phase at hreading
      rw [hbefore] at hreading
      dsimp only at hreading
      unfold Phase.isReading at hreading
      split at hreading
      · rename_i hphase
        rw [hphase] at hplace
        exact hplace.2
      · exact absurd hreading Bool.false_ne_true
    rw [beginsMessage_onConnect]
    refine hcondition (by simp [hbefore]) hreading hlost hstop

/-- A step of the session that begins no message. -/
theorem WellFormed.quiet_transportStep {transport : TransportState} (h : WellFormed transport)
    (hinactive : transport.active = false) {event : SessionEvent}
    (hallowed : Allows NotBegun transport event) :
    WellFormed (transportStep transport event) ∧
      QuietTransport transport (transportStep transport event) := by
  refine ⟨@WellFormed.sessionStep { transport := transport } h event, ?_⟩
  cases event with
  | packet packet surroundings =>
    have hquiet := h.quiet_handlePacket hinactive hallowed surroundings
    unfold transportStep Usb.sessionStep Session.handle
    dsimp only
    rw [hquiet.complete]
    exact hquiet.quiet
  | control packet surroundings => exact (h.kept_handleProcessingControl packet surroundings).same.quiet
  | tick now => exact quiet_sessionTick transport now
  | connection => exact (quiet_sessionReset transport).trans (quiet_expireLock _)
  | cancel => exact ⟨id, .refl _⟩
  | stop => exact ⟨id, .refl _⟩
  | returned => exact ⟨id, .refl _⟩

/-- Steps of the session that begin no message. -/
theorem Moves.quiet {transport transport' : TransportState} (h : Moves NotBegun transport transport')
    (hwellFormed : WellFormed transport) (hinactive : transport.active = false) :
    QuietTransport transport transport' := by
  obtain ⟨events, hallowed, rfl⟩ := h
  induction events generalizing transport with
  | nil => exact .refl _
  | cons event events ih =>
    obtain ⟨hwellFormed', hquiet⟩ := hwellFormed.quiet_transportStep hinactive hallowed.1
    exact hquiet.trans (ih hwellFormed' (hquiet.inactive hinactive) hallowed.2)

/-- A packet that a handler reads begins no message. -/
theorem Serves.quietPacket (h : Serves worker top) (hwellFormed : WellFormed worker.transport)
    {packet : Bytes} (hnotBegun : NotBegun worker.onConnect.transport packet)
    (surroundings : Surroundings) :
    (handlePacket worker.onConnect.transport packet surroundings).complete = none ∧
      (handlePacket worker.onConnect.transport packet surroundings).transport.active = false := by
  have hconnect : WellFormed worker.onConnect.transport ∧
      worker.onConnect.transport.active = false := by
    unfold Worker.onConnect
    split_ifs
    · exact ⟨hwellFormed, h.inactive⟩
    · have htransport := setTransport_transport worker
        (expireLock (sessionReset worker.transport)) .connection
      dsimp only
      rw [htransport]
      exact ⟨hwellFormed.sessionReset.expireLock, rfl⟩
  have hquiet := hconnect.1.quiet_handlePacket hconnect.2 hnotBegun surroundings
  exact ⟨hquiet.complete, hquiet.quiet.inactive hconnect.2⟩

/-- No step of a handler that serves its request dispatches a message. -/
theorem Serves.dispatched (h : Serves worker top) (horderly : Orderly worker)
    (hwellFormed : WellFormed worker.transport) {below : List Activation}
    (hbefore : worker.activations = top :: below)
    (hcondition : NoMessageOnLostConnection worker event) :
    (step worker event).dispatched = worker.dispatched := by
  have hallowed := h.notBegun horderly hbefore hcondition
  have hchange := change_step horderly event
  generalize step worker event = worker' at hchange ⊢
  cases hchange with
  | external session processing activations log dispatched => exact dispatched
  | main session processing before after log sent dispatched => exact dispatched
  | advance session processing before after continues log concerns dispatched => exact dispatched
  | abort session processing processing' generation before after continues log concerns dispatched =>
    exact dispatched
  | push session processing after rest_eq number generation phase asksOnce log sent dispatched
      reading completes goesOn serving =>
    obtain ⟨packet, surroundings, path, hevent, hcomplete⟩ := completes
    have hnotBegun := hallowed packet surroundings path hevent reading goesOn
    exact absurd (h.quietPacket hwellFormed hnotBegun surroundings).1 hcomplete
  | pop session processing before phase after log response dispatched => exact dispatched

theorem approvalDone_applyActions (worker : Worker) (cancel : Bool)
    (h : worker.approvalDone = true) : (worker.applyActions cancel).approvalDone = true := by
  unfold Worker.applyActions Worker.finishInteraction
  split_ifs
  · rfl
  · exact h
  · exact h

/-- The packet that a spent handler reads on the lost connection is the last one. -/
theorem Spent.readPacket (h : Spent worker top) (horderly : Orderly worker)
    (hbefore : worker.activations = [top]) {timedOut cancel : Bool}
    (hphase : top.phase = .reading timedOut cancel) (packet : Bytes) (surroundings : Surroundings)
    (path : HandlerPath) (hquiet : worker.stopRequested = false →
      (handlePacket worker.onConnect.transport packet surroundings).complete = none ∧
        (handlePacket worker.onConnect.transport packet surroundings).transport.active = false) :
    SpentStep worker (worker.readPacket timedOut cancel packet surroundings path) := by
  have hplace := h.place
  rw [hphase] at hplace
  unfold Worker.readPacket
  by_cases hstop : worker.stopRequested = true
  · rw [if_pos hstop, setPhase_cons worker.requestCancel hbefore]
    exact .stays rfl ⟨h.processing, h.asksNoMore, Or.inl rfl⟩
  · rw [if_neg hstop]
    rw [Bool.not_eq_true] at hstop
    obtain ⟨hcomplete, hinactive⟩ := hquiet hstop
    obtain ⟨hconnect, hsession, hsame, -⟩ := horderly.onConnect_eq
    rw [h.processing] at hsame
    have hprocessing := ((hsession.idleSession hsame).handlePacket_cases packet
      surroundings).processing
    have hactivations : worker.onConnect.activations = [top] := by rw [hconnect, hbefore]
    have hdone : worker.onConnect.approvalDone = true := by
      rw [hconnect]
      exact hplace.1
    dsimp only
    rw [hcomplete]
    dsimp only
    generalize hhandled : (Worker.record _ _ : Worker) = handled
    have htransport : handled.transport =
        (handlePacket worker.onConnect.transport packet surroundings).transport := by
      rw [← hhandled]
      exact setTransport_transport _ _ _
    have hstack : handled.activations = [top] := by
      rw [← hhandled, setTransport_eq]
      exact hactivations
    have hover : handled.approvalDone = true := by
      rw [← hhandled, setTransport_eq]
      exact hdone
    rw [packetHandled_eq, htransport, hinactive, if_neg Bool.false_ne_true,
      setPhase_cons _ ((applyActions_activations _ _).trans hstack)]
    refine .stays rfl ⟨?_, h.asksNoMore, Or.inr (approvalDone_applyActions handled _ hover)⟩
    show (Worker.applyActions _ _).transport.processing = false
    rw [applyActions_transport, htransport]
    exact hprocessing

theorem Spent.runHandler (h : Spent worker top) (hbefore : worker.activations = [top]) :
    SpentStep worker (runHandler worker top []) := by
  unfold Usb.runHandler
  split
  · exact .stays hbefore h
  · rename_i rest hremaining
    -- A poll of a request that is no longer processed reads no packet.
    unfold beginPoll
    rw [h.processing]
    refine .stays rfl (h.running rfl ?_)
    rw [hremaining]
    exact List.sublist_cons_self _ _
  · rename_i rest hremaining
    exact absurd (by simp [hremaining]) h.asksNoMore
  · rename_i rest hremaining
    refine .stays rfl (h.running rfl ?_)
    rw [hremaining]
    exact List.sublist_cons_self _ _

theorem spentStep_finishHandler (result : DispatchResult) :
    SpentStep worker (finishHandler worker top [] result) := by
  have hpop (worker : Worker) : (popHandler worker []).activations = [] := by
    unfold popHandler
    dsimp only
    split
    · rw [packetHandled_eq, setPhase_nil _ (applyActions_activations _ _)]
      exact applyActions_activations _ _
    · rfl
  unfold finishHandler
  by_cases hgeneration : top.generation ≠ worker.transport.processingGeneration
  · rw [if_pos hgeneration]
    exact .returns (hpop _)
  · rw [if_neg hgeneration]
    exact .returns (hpop _)

theorem Spent.endWaitIteration (h : Spent worker top) {timedOut : Bool}
    (hphase : top.phase = .checking timedOut) (now : UInt32) :
    SpentStep worker (endWaitIteration worker top [] timedOut now) := by
  have hplace := h.place
  rw [hphase] at hplace
  unfold Usb.endWaitIteration
  by_cases hstop : (worker.stopRequested || worker.transport.processingCancelRequested) = true
  · rw [if_pos hstop]
    exact .stays rfl (h.running rfl (List.nil_sublist _))
  · rw [if_neg hstop]
    simp only [Bool.or_eq_true, not_or, Bool.not_eq_true] at hstop
    have hdone := hplace.resolve_left (by simp [hstop.2])
    dsimp only
    generalize hkept : (if timedOut && top.sendKeepalive then
      worker.record [.keepalive top.number] else worker) = kept
    have hfields : kept.transport = worker.transport ∧ kept.approvalDone = worker.approvalDone := by
      rw [← hkept]
      split_ifs <;> exact ⟨rfl, rfl⟩
    have hprocessing := h.processing
    rw [← hfields.1] at hprocessing
    rw [← hfields.2] at hdone
    unfold Worker.tick
    dsimp only
    rw [setTransport_eq]
    refine .stays rfl ⟨?_, h.asksNoMore, hdone⟩
    show (sessionTick kept.transport now).transport.processing = false
    rcases sessionTick_cases kept.transport now with hsame | ⟨-, hsame⟩
    · exact hsame.processing.trans hprocessing
    · exact hsame.processing

/-- A spent handler stays spent until it returns. -/
theorem Spent.step (h : Spent worker top) (horderly : Orderly worker)
    (hbefore : worker.activations = [top]) (hquiet : ∀ packet surroundings path,
      event = .packet packet surroundings path → worker.phase.isReading = true →
      worker.stopRequested = false →
      (handlePacket worker.onConnect.transport packet surroundings).complete = none ∧
        (handlePacket worker.onConnect.transport packet surroundings).transport.active = false) :
    SpentStep worker (step worker event) := by
  have hsame : SpentStep worker worker := .stays hbefore h
  have hplace := h.place
  unfold Worker.phase at hquiet
  rw [hbefore] at hquiet
  have hhandler : SpentStep worker (stepHandler worker top [] top.phase event) := by
    cases hphase : top.phase with
    | running =>
      cases event with
      | proceed now => exact h.runHandler hbefore
      | skipInteraction accepted =>
        show SpentStep worker (skipInteraction worker top [] accepted)
        unfold skipInteraction
        split
        · rename_i rest hremaining
          exact absurd (by simp [hremaining]) h.asksNoMore
        · exact hsame
      | finish result => exact spentStep_finishHandler result
      | _ => exact hsame
    | waking =>
      rw [hphase] at hplace
      have hdone : worker.approvalDone = true := hplace
      cases event with
      | proceed now =>
        show SpentStep worker (wakeWait worker top [])
        unfold wakeWait
        rw [if_pos hdone]
        exact .stays rfl ⟨h.processing, h.asksNoMore, trivial⟩
      | _ => exact hsame
    | reading timedOut cancel =>
      rw [hphase] at hplace
      cases event with
      | packet packet surroundings path =>
        refine h.readPacket horderly hbefore hphase packet surroundings path ?_
        refine hquiet packet surroundings path rfl ?_
        show top.phase.isReading = true
        rw [hphase]
        rfl
      | noPacket now =>
        show SpentStep worker (worker.readNothing timedOut)
        unfold Worker.readNothing
        dsimp only
        by_cases hstop : worker.stopRequested = true
        · rw [if_pos hstop, setPhase_cons worker.requestCancel hbefore]
          exact .stays rfl ⟨h.processing, h.asksNoMore, Or.inl rfl⟩
        · rw [if_neg hstop, setPhase_cons worker hbefore]
          exact .stays rfl ⟨h.processing, h.asksNoMore, Or.inr hplace.1⟩
      | _ => exact hsame
    | checking timedOut =>
      cases event with
      | proceed now => exact h.endWaitIteration hphase now
      | _ => exact hsame
    | signalled =>
      cases event with
      | proceed now => exact .stays rfl ⟨h.processing, h.asksNoMore, trivial⟩
      | _ => exact hsame
    | answered =>
      cases event with
      | proceed now =>
        show SpentStep worker (endInteraction worker top [])
        unfold endInteraction
        split_ifs
        · exact .stays rfl (h.running rfl (List.Sublist.refl _))
        · exact .stays rfl (h.running rfl (List.nil_sublist _))
      | _ => exact hsame
    | draining | asleep | stopped =>
      rw [hphase] at hplace
      exact hplace.elim
  have hworker (hanswer : ∀ answer, event ≠ .answer answer) (hstop : event ≠ .stop) :
      SpentStep worker (Usb.step worker event) := by
    rw [step_eq_stepHandler hbefore hanswer hstop]
    exact hhandler
  cases event with
  | answer answer =>
    refine .stays ((finishInteraction_activations _ _).trans hbefore) (h.external ?_ ?_ ?_ ?_)
    · exact congrArg _ (finishInteraction_transport _ _)
    · rw [step, finishInteraction_transport]
      exact id
    · unfold step Worker.finishInteraction
      split_ifs
      · exact fun _ ↦ rfl
      · exact id
    · exact finishInteraction_connected _ _
  | stop => exact .stays hbefore (h.external rfl (fun _ ↦ rfl) (fun _ ↦ rfl) rfl)
  | _ => exact hworker (by simp) (by simp)

end Spent

section Run

variable {worker worker' : Worker} {event : Event}

/-- The invariant of the run: at most one handler is on the stack, and it serves its request or is
spent. -/
structure ServesOne (worker : Worker) : Prop where
  orderly : Orderly worker
  wellFormed : WellFormed worker.transport
  serves : ∀ top below, worker.activations = top :: below → below = [] ∧ Serves worker top

theorem servesOne_initial : ServesOne {} where
  orderly := orderly_initial
  wellFormed := wellFormed_initial
  serves := by simp

/-- The property of one step. -/
theorem ServesOne.oneInFlight (h : ServesOne worker)
    (hcondition : NoMessageOnLostConnection worker event) : OneInFlight worker event := by
  intro hactivations
  obtain ⟨top, below, hbefore⟩ := List.exists_cons_of_ne_nil hactivations
  have hserves := (h.serves top below hbefore).2
  have hmoves := step_moves worker (hserves.notBegun h.orderly hbefore hcondition)
  exact ⟨hserves.dispatched h.orderly h.wellFormed hbefore hcondition,
    (hmoves.quiet h.wellFormed hserves.inactive).buffer⟩

/-- An abort leaves the only handler spent. -/
theorem spent_of_abort (horderly : Orderly worker') {top top' : Activation} {cause : AbortCause}
    (hprocessing : worker'.transport.processing = false) (hafter : worker'.activations = [top'])
    (hplace : AbortPlace worker worker' event cause top top') : Spent worker' top' := by
  have hasks := (horderly.member top' (by simp [hafter])).2.2.2
  cases hplace with
  | returning phase remaining =>
    refine ⟨hprocessing, by simp [remaining], ?_⟩
    rw [phase]
    trivial
  | checking timedOut cancel phase phase' remaining sendKeepalive done approval approved init =>
    refine ⟨hprocessing, hasks (by simp [phase']) (by simp [phase']), ?_⟩
    rw [phase']
    exact Or.inr done
  | reading cause_eq phase' remaining done disconnected =>
    refine ⟨hprocessing, hasks (by simp [phase']) (by simp [phase']), ?_⟩
    rw [phase']
    exact ⟨done, disconnected⟩

/-- A step in which no handler is spent. -/
theorem Change.serves (horderly : Orderly worker') (hchange : Change worker event worker')
    (hbefore : ∀ top below, worker.activations = top :: below →
      below = [] ∧ worker.transport.processing = true)
    (hinactive : worker.activations ≠ [] → worker'.transport.active = false) (top : Activation)
    (below : List Activation) (hafter : worker'.activations = top :: below) :
    below = [] ∧ Serves worker' top := by
  cases hchange with
  | external session processing activations log dispatched signalled =>
    rw [activations] at hafter
    obtain ⟨hsingle, hserving⟩ := hbefore top below hafter
    exact ⟨hsingle, hinactive (by simp [hafter]), Or.inl (processing.trans hserving)⟩
  | main session processing before after log sent dispatched =>
    exact absurd (after.symm.trans hafter) (List.cons_ne_nil _ _).symm
  | @advance first first' others occurrences session processing before after =>
    obtain ⟨rfl, hserving⟩ := hbefore first others before
    obtain ⟨-, rfl⟩ := List.cons_eq_cons.mp (after.symm.trans hafter)
    exact ⟨rfl, hinactive (by simp [before]), Or.inl (processing.trans hserving)⟩
  | @abort first first' others cause occurrences session processing processing' generation before
      after continues log concerns dispatched place =>
    obtain ⟨rfl, -⟩ := hbefore first others before
    obtain ⟨rfl, rfl⟩ := List.cons_eq_cons.mp (after.symm.trans hafter)
    exact ⟨rfl, hinactive (by simp [before]),
      Or.inr (spent_of_abort horderly processing' after place)⟩
  | @push first rest occurrences session processing after rest_eq number generation phase asksOnce
      log sent dispatched reading completes goesOn serving =>
    obtain ⟨rfl, rfl⟩ := List.cons_eq_cons.mp (after.symm.trans hafter)
    have hrest : rest = [] := by
      rcases rest_eq with ⟨-, hrest⟩ | ⟨inner, outer, _, _, _, before, -⟩
      · exact hrest
      · exact absurd ((hbefore inner outer before).2.symm.trans processing) (by simp)
    exact ⟨hrest, horderly.not_active serving, Or.inl serving⟩
  | @pop first others occurrences session processing before phase after =>
    obtain ⟨rfl, -⟩ := hbefore first others before
    rcases after with after | ⟨next, deeper, _, _, _, hbelow, -⟩
    · exact absurd (after.symm.trans hafter) (List.cons_ne_nil _ _).symm
    · exact absurd hbelow (List.cons_ne_nil _ _).symm

theorem ServesOne.step (worker : Worker) (event : Event)
    (hcondition : NoMessageOnLostConnection worker event) (h : ServesOne worker) :
    ServesOne (step worker event) := by
  have horderly := orderly_step h.orderly event
  have hmoves : Moves (fun _ _ ↦ True) worker.transport (Usb.step worker event).transport :=
    step_moves worker fun _ _ _ _ _ _ ↦ trivial
  have hchange := change_step h.orderly event
  refine ⟨horderly, hmoves.wellFormed h.wellFormed, ?_⟩
  cases hactivations : worker.activations with
  | nil => exact hchange.serves horderly (by simp [hactivations]) fun hne ↦ absurd hactivations hne
  | cons top below =>
    obtain ⟨rfl, hserves⟩ := h.serves top below hactivations
    have hallowed := hserves.notBegun h.orderly hactivations hcondition
    have hquiet := (step_moves worker hallowed).quiet h.wellFormed hserves.inactive
    have hinactive := hquiet.inactive hserves.inactive
    rcases hserves.request with hprocessing | hspent
    · refine hchange.serves horderly (fun first others hfirst ↦ ?_) fun _ ↦ hinactive
      obtain ⟨-, rfl⟩ := List.cons_eq_cons.mp (hactivations.symm.trans hfirst)
      exact ⟨rfl, hprocessing⟩
    · have hstep : SpentStep worker (Usb.step worker event) := by
        refine hspent.step h.orderly hactivations ?_
        intro packet surroundings path hevent hreading hstop
        exact hserves.quietPacket h.wellFormed
          (hallowed packet surroundings path hevent hreading hstop) surroundings
      intro first others hfirst
      generalize Usb.step worker event = worker' at hstep hinactive hfirst ⊢
      cases hstep with
      | @stays top' after spent =>
        obtain ⟨rfl, rfl⟩ := List.cons_eq_cons.mp (after.symm.trans hfirst)
        exact ⟨rfl, hinactive, Or.inr spent⟩
      | returns after => exact absurd (after.symm.trans hfirst) (List.cons_ne_nil _ _).symm

/-- One request is in flight. In every run in which no packet begins a message while a handler
waits on a lost connection, no step inside a handler dispatches another message, and the buffer of
its message is at most cleared. -/
theorem one_request_in_flight (events : List Event)
    (h : EveryStep step NoMessageOnLostConnection {} events) :
    EveryStep step OneInFlight {} events :=
  everyStep_of_invariant ServesOne.step (fun _ _ hcondition hserves ↦ hserves.oneInFlight hcondition)
    h servesOne_initial

end Run

section Samples

theorem one_request_in_flight_initThenReturn : EveryStep step OneInFlight {} initThenReturn :=
  one_request_in_flight initThenReturn (by decide +kernel)

/-- The connection is lost in the wait, and the packet read next is a PING. -/
theorem message_begins_on_lost_connection :
    ¬∀ events, EveryStep step OneInFlight {} events := by
  intro hclaim
  have hsteps := hclaim pingAfterDisconnect
  have hsplit : pingAfterDisconnect = (waitingForApproval ++ [.wake { disconnect := true }]) ++
      hostSends 7 cmdPing [0x05] .getInfo :: [.finish (.response [0x05]), .proceed 0, .proceed 0,
        .proceed 0, .proceed 0, .finish keepaliveCancelResponse] := by
    simp [pingAfterDisconnect]
  rw [hsplit, everyStep_append] at hsteps
  have hping := hsteps.2.1
  exact absurd (hping (by decide +kernel)).1 (by decide +kernel)

end Samples

end ZeroFido.Usb
