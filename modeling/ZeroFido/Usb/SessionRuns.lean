import ZeroFido.Usb.Assembly
import ZeroFido.Usb.Step

/-!
# The session of the worker

Whatever the worker does to its transport, it does by steps of the session (`step_moves`): it
handles a packet or reads one in a poll, lets the clock tick, resets the session when the
connection changes, sets the flags that cancel a request, and ends the processing when a handler
returns. So the transport of every run of the worker is the transport of a run of the session
(`run_step_moves`), and what holds of all sessions holds of it (`run_step_wellFormed`).
-/

set_option autoImplicit false
set_option relaxedAutoImplicit false

namespace ZeroFido.Usb

open Foundations

section Moves

/-- The transport after a step of its session. -/
def transportStep (transport : TransportState) (event : SessionEvent) : TransportState :=
  (sessionStep { transport := transport } event).transport

theorem sessionStep_transport (session : Session) (event : SessionEvent) :
    (sessionStep session event).transport = transportStep session.transport event := by
  cases event with
  | packet packet surroundings =>
    show (session.handle packet surroundings).transport =
      (Session.handle { transport := session.transport } packet surroundings).transport
    unfold Session.handle
    dsimp only
    split <;> rfl
  | _ => rfl

theorem run_sessionStep_transport (session : Session) (events : List SessionEvent) :
    (run sessionStep session events).transport = run transportStep session.transport events := by
  induction events generalizing session with
  | nil => rfl
  | cons event events ih => rw [run_cons, run_cons, ih, sessionStep_transport]

/-- A packet that the session handles is allowed. -/
def Allows (allowed : TransportState → Bytes → Prop) (transport : TransportState) :
    SessionEvent → Prop
  | .packet packet _ => allowed transport packet
  | _ => True

/-- Steps of the session that handle allowed packets lead from one transport to the other. -/
def Moves (allowed : TransportState → Bytes → Prop) (transport transport' : TransportState) : Prop :=
  ∃ events, EveryStep transportStep (Allows allowed) transport events ∧
    run transportStep transport events = transport'

variable {allowed : TransportState → Bytes → Prop} {transport transport' : TransportState}

theorem Moves.refl (transport : TransportState) : Moves allowed transport transport :=
  ⟨[], trivial, rfl⟩

theorem Moves.trans {transport'' : TransportState} (h : Moves allowed transport transport')
    (h' : Moves allowed transport' transport'') : Moves allowed transport transport'' := by
  obtain ⟨events, hallowed, hevents⟩ := h
  obtain ⟨events', hallowed', hevents'⟩ := h'
  refine ⟨events ++ events', ?_, ?_⟩
  · rw [everyStep_append, hevents]
    exact ⟨hallowed, hallowed'⟩
  · rw [run_append, hevents, hevents']

theorem Moves.event (event : SessionEvent) (h : Allows allowed transport event) :
    Moves allowed transport (transportStep transport event) :=
  ⟨[event], ⟨h, trivial⟩, rfl⟩

theorem Moves.wellFormed (h : Moves allowed transport transport')
    (hwellFormed : WellFormed transport) : WellFormed transport' := by
  obtain ⟨events, -, rfl⟩ := h
  refine run_invariant_always (fun transport event hwellFormed ↦ ?_) events hwellFormed
  exact @WellFormed.sessionStep { transport := transport } hwellFormed event

end Moves

section Worker

variable {allowed : TransportState → Bytes → Prop} (worker : Worker) (top : Activation)
  (below : List Activation)

@[simp]
theorem setTransport_transport (transport : TransportState) (cause : AbortCause) :
    (worker.setTransport transport cause).transport = transport := by
  unfold Worker.setTransport
  dsimp only
  split_ifs
  · split <;> rfl
  · rfl

@[simp]
theorem setPhase_transport (phase : Phase) :
    (worker.setPhase phase).transport = worker.transport := by
  unfold Worker.setPhase
  split <;> rfl

theorem moves_onConnect : Moves allowed worker.transport worker.onConnect.transport := by
  unfold Worker.onConnect
  split_ifs
  · exact .refl _
  · have htransport := setTransport_transport worker
      (expireLock (sessionReset worker.transport)) .connection
    dsimp only
    rw [htransport]
    exact .event .connection trivial

theorem moves_onDisconnect : Moves allowed worker.transport worker.onDisconnect.transport := by
  unfold Worker.onDisconnect
  dsimp only
  rw [setTransport_transport, finishInteraction_transport]
  exact .event .connection trivial

theorem moves_handleWorkerFlags (flags : WorkerFlags) :
    Moves allowed worker.transport (worker.handleWorkerFlags flags).transport := by
  unfold Worker.handleWorkerFlags
  dsimp only
  have hconnect : Moves allowed worker.transport
      (if flags.connect then worker.onConnect else worker).transport := by
    split_ifs
    · exact moves_onConnect worker
    · exact .refl _
  generalize (if flags.connect then worker.onConnect else worker) = connected at hconnect ⊢
  split_ifs
  · exact hconnect.trans (moves_onDisconnect connected)
  · exact hconnect

theorem moves_tick (now : UInt32) : Moves allowed worker.transport (worker.tick now).transport := by
  unfold Worker.tick Worker.record
  dsimp only
  rw [setTransport_transport]
  exact .event (.tick now) trivial

theorem moves_requestCancel : Moves allowed worker.transport worker.requestCancel.transport :=
  .event .cancel trivial

@[simp]
theorem packetHandled_transport (timedOut cancel : Bool) :
    (worker.packetHandled timedOut cancel).transport = worker.transport := by
  unfold Worker.packetHandled
  dsimp only
  rw [setPhase_transport, applyActions_transport]

@[simp]
theorem popHandler_transport : (popHandler worker below).transport = worker.transport := by
  unfold popHandler
  dsimp only
  split
  · exact packetHandled_transport _ _ _
  · rfl

theorem moves_readPacket (timedOut cancel : Bool) (packet : Bytes) (surroundings : Surroundings)
    (path : HandlerPath)
    (hallowed : worker.stopRequested = false → allowed worker.onConnect.transport packet) :
    Moves allowed worker.transport
      (worker.readPacket timedOut cancel packet surroundings path).transport := by
  unfold Worker.readPacket
  split_ifs with hstop
  · rw [setPhase_transport]
    exact moves_requestCancel worker
  · rw [Bool.not_eq_true] at hstop
    refine (moves_onConnect worker).trans ?_
    have hpacket := Moves.event (.packet packet surroundings) (hallowed hstop)
    generalize worker.onConnect = connected at hpacket ⊢
    unfold transportStep sessionStep Session.handle at hpacket
    dsimp only at hpacket ⊢
    cases hcomplete : (handlePacket connected.transport packet surroundings).complete with
    | none =>
      rw [hcomplete] at hpacket
      dsimp only
      rw [packetHandled_transport]
      show Moves allowed _ (Worker.setTransport _ _ _).transport
      rw [setTransport_transport]
      exact hpacket
    | some message =>
      rw [hcomplete] at hpacket
      unfold Worker.dispatch Worker.record
      dsimp only
      rw [setPhase_transport]
      dsimp only
      rw [setTransport_transport]
      exact hpacket

theorem moves_drainPacket (packet : Bytes) (surroundings : Surroundings) :
    Moves allowed worker.transport (drainPacket worker top below packet surroundings).transport := by
  have hcanceled (worker : Worker) :
      Moves allowed worker.transport (pollCanceled worker top below).transport := moves_requestCancel worker
  unfold drainPacket
  by_cases hstop : worker.stopRequested = true
  · rw [if_pos hstop]
    exact hcanceled worker
  · rw [if_neg hstop]
    dsimp only
    generalize hhandled : (Worker.applyActions _ _ : Worker) = handled
    have htransport : handled.transport =
        (handleProcessingControl worker.transport packet surroundings).1.transport := by
      rw [← hhandled, applyActions_transport]
      exact setTransport_transport _ _ _
    have hmoves : Moves allowed worker.transport handled.transport := by
      rw [htransport]
      exact .event (.control packet surroundings) trivial
    split_ifs
    · exact hmoves
    · exact hmoves.trans (hcanceled handled)

theorem moves_drainNothing (now : UInt32) :
    Moves allowed worker.transport (drainNothing worker top below now).transport := by
  unfold drainNothing
  split_ifs
  · exact moves_requestCancel worker
  · exact moves_tick worker now

theorem moves_endWaitIteration (timedOut : Bool) (now : UInt32) :
    Moves allowed worker.transport (endWaitIteration worker top below timedOut now).transport := by
  unfold endWaitIteration
  by_cases hstop : (worker.stopRequested || worker.transport.processingCancelRequested) = true
  · rw [if_pos hstop]
    exact moves_requestCancel worker
  · rw [if_neg hstop]
    dsimp only
    generalize hkept : (if timedOut && top.sendKeepalive then
      worker.record [.keepalive top.number] else worker) = kept
    have htransport : kept.transport = worker.transport := by
      rw [← hkept]
      split_ifs <;> rfl
    rw [← htransport]
    exact moves_tick (withTop kept below { top with phase := .waking }) now

theorem moves_finishHandler (result : DispatchResult) :
    Moves allowed worker.transport (finishHandler worker top below result).transport := by
  unfold finishHandler
  by_cases hgeneration : top.generation ≠ worker.transport.processingGeneration
  · rw [if_pos hgeneration, popHandler_transport]
    exact .refl _
  · rw [if_neg hgeneration]
    dsimp only
    rw [popHandler_transport]
    exact .event .returned trivial

theorem moves_readNothing (timedOut : Bool) :
    Moves allowed worker.transport (worker.readNothing timedOut).transport := by
  unfold Worker.readNothing
  dsimp only
  rw [setPhase_transport]
  split_ifs
  · exact moves_requestCancel worker
  · exact .refl _

theorem moves_runHandler : Moves allowed worker.transport (runHandler worker top below).transport := by
  unfold runHandler
  split
  · exact .refl _
  · unfold beginPoll
    split_ifs
    · exact .refl _
    · exact moves_requestCancel worker
    · exact .refl _
  · exact .refl _
  · exact .refl _

theorem moves_wakeWait : Moves allowed worker.transport (wakeWait worker top below).transport := by
  unfold wakeWait
  split_ifs <;> exact .refl _

/-- A packet of the event is allowed if the phase is one in which the session handles it. -/
def AllowsEvent (allowed : TransportState → Bytes → Prop) (worker : Worker) (phase : Phase)
    (event : Event) : Prop :=
  ∀ packet surroundings path, event = .packet packet surroundings path → phase.isReading = true →
    worker.stopRequested = false → allowed worker.onConnect.transport packet

theorem moves_stepHandler {phase : Phase} {event : Event}
    (hallowed : AllowsEvent allowed worker phase event) :
    Moves allowed worker.transport (stepHandler worker top below phase event).transport := by
  unfold stepHandler
  split
  · exact moves_runHandler worker top below
  · unfold skipInteraction
    split
    · split_ifs <;> exact .refl _
    · exact .refl _
  · exact moves_finishHandler worker top below _
  · exact moves_drainPacket worker top below _ _
  · exact moves_drainNothing worker top below _
  · exact moves_wakeWait worker top below
  · split_ifs
    · exact .refl _
    · rw [setPhase_transport]
      exact moves_handleWorkerFlags worker _
  · rw [setPhase_transport]
    exact .refl _
  · exact .refl _
  · exact moves_readPacket worker _ _ _ _ _ (hallowed _ _ _ rfl rfl)
  · exact moves_readNothing worker _
  · exact moves_endWaitIteration worker top below _ _
  · exact .refl _
  · unfold endInteraction
    split_ifs <;> exact .refl _
  · exact .refl _

theorem moves_stepMain {phase : Phase} {event : Event}
    (hallowed : AllowsEvent allowed worker phase event) :
    Moves allowed worker.transport (stepMain worker phase event).transport := by
  unfold stepMain
  split
  · split_ifs
    · exact .refl _
    · rw [setPhase_transport]
      exact moves_handleWorkerFlags worker _
  · rw [setPhase_transport]
    exact .refl _
  · exact .refl _
  · exact moves_readPacket worker _ _ _ _ _ (hallowed _ _ _ rfl rfl)
  · exact moves_readNothing worker _
  · split_ifs
    · exact .refl _
    · rw [setPhase_transport]
      exact moves_tick worker _
  · exact .refl _

/-- The worker changes its transport by steps of the session. -/
theorem step_moves {event : Event} (hallowed : AllowsEvent allowed worker worker.phase event) :
    Moves allowed worker.transport (step worker event).transport := by
  unfold Worker.phase at hallowed
  unfold step
  split
  · rw [finishInteraction_transport]
    exact .refl _
  · exact .event .stop trivial
  · split
    · rename_i hactivations
      rw [hactivations] at hallowed
      exact moves_stepMain worker hallowed
    · rename_i top below hactivations
      rw [hactivations] at hallowed
      exact moves_stepHandler worker top below hallowed

end Worker

/-- The transport of a run of the worker is that of a run of the session. -/
theorem run_step_moves (events : List Event) :
    Moves (fun _ _ ↦ True) {} (run step {} events).transport := by
  refine @run_invariant_always _ _ step _
    (fun worker ↦ Moves (fun _ _ ↦ True) {} worker.transport) ?_ events (.refl _)
  intro worker event h
  exact h.trans (step_moves worker fun _ _ _ _ _ _ ↦ trivial)

/-- The channels, the lock and the lengths are in order in every run of the worker. -/
theorem run_step_wellFormed (events : List Event) :
    WellFormed (run step {} events).transport :=
  (run_step_moves events).wellFormed wellFormed_initial

end ZeroFido.Usb
