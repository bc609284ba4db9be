import ZeroFido.Usb.Requests

/-!
# The steps of the worker

Each function of the worker, from an orderly state, makes one of the changes of `Change`.
-/

set_option autoImplicit false
set_option relaxedAutoImplicit false

namespace ZeroFido.Usb

open Foundations

variable {worker : Worker} {event : Event} {top : Activation} {below : List Activation}

section Session

/-- The session is judged by four fields. -/
theorem SessionOrderly.of_same {worker' : Worker} (h : SessionOrderly worker)
    (hactive : worker'.transport.active = worker.transport.active)
    (hprocessing : worker'.transport.processing = worker.transport.processing)
    (hgeneration : worker'.transport.processingGeneration = worker.transport.processingGeneration)
    (hconnected : worker'.connected = worker.connected) : SessionOrderly worker' := by
  refine ⟨?_, ?_, ?_⟩
  · rw [hactive, hprocessing, hgeneration]
    exact h.assembling
  · rw [hprocessing, hgeneration]
    exact h.generation
  · rw [hprocessing, hconnected]
    exact h.linked

/-- A session in which nothing is processed is judged by its assembly. -/
theorem sessionOrderly_of_idle (hprocessing : worker.transport.processing = false)
    (hassembling : worker.transport.active = true → worker.transport.processingGeneration = 0) :
    SessionOrderly worker := by
  refine ⟨fun hactive ↦ ⟨hprocessing, hassembling hactive⟩, ?_, ?_⟩
  · simp [hprocessing]
  · simp [hprocessing]

theorem SessionOrderly.idleSession (h : SessionOrderly worker)
    (hprocessing : worker.transport.processing = false) : IdleSession worker.transport :=
  ⟨hprocessing, fun hactive ↦ (h.assembling hactive).2⟩

theorem SessionOrderly.not_active (h : SessionOrderly worker)
    (hprocessing : worker.transport.processing = true) : worker.transport.active = false := by
  by_contra hactive
  have hidle := (h.assembling (by simpa using hactive)).1
  rw [hprocessing] at hidle
  exact Bool.noConfusion hidle

/-- The tick resets an assembly that has timed out and touches no request. -/
theorem SessionOrderly.sessionOrderly_tick (h : SessionOrderly worker) (now : UInt32) :
    SessionOrderly (worker.tick now) ∧
      (worker.tick now).transport.processing = worker.transport.processing := by
  have htransport : (worker.tick now).transport = (sessionTick worker.transport now).transport := by
    unfold Worker.tick Worker.record
    dsimp only
    rw [setTransport_eq]
  have hconnected : (worker.tick now).connected = worker.connected := by
    unfold Worker.tick Worker.record
    dsimp only
    rw [setTransport_eq]
  rcases sessionTick_cases worker.transport now with hsame | ⟨hactive, hsame⟩
  · rw [← htransport] at hsame
    exact ⟨h.of_same hsame.active hsame.processing hsame.generation hconnected, hsame.processing⟩
  · rw [← htransport] at hsame
    have hidle : (worker.tick now).transport.processing = false := hsame.processing
    refine ⟨sessionOrderly_of_idle hidle fun _ ↦ hsame.generation, ?_⟩
    rw [hidle, (h.assembling hactive).1]

theorem SessionOrderly.tick_eq (h : SessionOrderly worker) (now : UInt32) :
    worker.tick now =
      { worker with
        transport := (worker.tick now).transport
        log := worker.log ++ (sessionTick worker.transport now).sent.map .sent } := by
  have hprocessing := (h.sessionOrderly_tick now).2
  unfold Worker.tick Worker.record at hprocessing ⊢
  dsimp only at hprocessing ⊢
  rw [setTransport_eq] at hprocessing ⊢
  dsimp only at hprocessing ⊢
  rw [setTransport_log_kept worker .connection (fun h ↦ hprocessing.trans h)]

end Session

section Handler

theorem asksOnce_of_remaining {top' : Activation} (hsublist : top'.remaining.Sublist top.remaining)
    (hphase : top'.phase = .running ∨ top'.phase = .draining) (h : top.AsksOnce) :
    top'.AsksOnce := by
  refine ⟨Nat.le_trans (hsublist.count_le _) h.1, fun hrunning hdraining ↦ ?_⟩
  rcases hphase with hphase | hphase
  · exact absurd hphase hrunning
  · exact absurd hphase hdraining

/-- The wait goes on. -/
theorem asksOnce_of_waiting {top' : Activation} (hremaining : top'.remaining = top.remaining)
    (hrunning : top.phase ≠ .running) (hdraining : top.phase ≠ .draining) (h : top.AsksOnce) :
    top'.AsksOnce := by
  refine ⟨?_, fun _ _ ↦ ?_⟩
  · rw [hremaining]
    exact h.1
  · rw [hremaining]
    exact h.2 hrunning hdraining

/-- The interaction of the request that is being processed, while its handler waits. -/
theorem Orderly.signalled (h : Orderly worker) (hbefore : worker.activations = top :: below)
    (hwaits : top.phase.waits = true) (hprocessing : worker.transport.processing = true) :
    worker.Signalled := by
  obtain ⟨_, _, hactivations, -, hsignalled⟩ := h.current hprocessing
  obtain ⟨rfl, -⟩ := List.cons_eq_cons.mp (hbefore.symm.trans hactivations)
  exact hsignalled hwaits

variable (h : Orderly worker) (hbefore : worker.activations = top :: below)
include h hbefore

theorem change_pollCanceled : Change worker event (pollCanceled worker top below) := by
  refine .advance (h.toSessionOrderly.of_same rfl rfl rfl rfl) rfl hbefore rfl ?_ rfl ?_ rfl ?_ ?_
  · refine ⟨rfl, rfl, ?_, ?_⟩
    · exact fun hwaits ↦ Bool.noConfusion hwaits
    · exact asksOnce_of_remaining (List.nil_sublist _) (Or.inl rfl)
  · intro occurrence hmem
    obtain rfl := List.mem_singleton.mp hmem
    rfl
  · exact fun hwaits ↦ Bool.noConfusion hwaits
  · exact fun hdraining ↦ Phase.noConfusion hdraining

/-- The handler goes on to a later control point and reports something about itself. -/
theorem change_continueHandler {remaining : List ControlPoint} {occurrences : List Occurrence}
    (hremaining : remaining.Sublist top.remaining)
    (hconcerns : ∀ occurrence ∈ occurrences, occurrence.Concerns top.number) :
    Change worker event ((continueHandler worker top below remaining).record occurrences) := by
  refine .advance (h.toSessionOrderly.of_same rfl rfl rfl rfl) rfl hbefore rfl ?_ rfl hconcerns rfl
    ?_ ?_
  · refine ⟨rfl, rfl, ?_, ?_⟩
    · exact fun hwaits ↦ Bool.noConfusion hwaits
    · exact asksOnce_of_remaining hremaining (Or.inl rfl)
  · exact fun hwaits ↦ Bool.noConfusion hwaits
  · exact fun hdraining ↦ Phase.noConfusion hdraining

theorem change_continueHandler_silent {remaining : List ControlPoint}
    (hremaining : remaining.Sublist top.remaining) :
    Change worker event (continueHandler worker top below remaining) := by
  have hchange : Change worker event ((continueHandler worker top below remaining).record []) :=
    change_continueHandler h hbefore hremaining fun occurrence hmem ↦ absurd hmem List.not_mem_nil
  simpa [Worker.record, continueHandler, withTop] using hchange

theorem change_pollSucceeded {remaining : List ControlPoint}
    (hremaining : remaining.Sublist top.remaining) :
    Change worker event (pollSucceeded worker top below remaining) := by
  refine change_continueHandler h hbefore hremaining fun occurrence hmem ↦ ?_
  obtain rfl := List.mem_singleton.mp hmem
  rfl

theorem change_waitFailed : Change worker event (waitFailed worker top below) := by
  refine change_continueHandler h hbefore (List.nil_sublist _) fun occurrence hmem ↦ ?_
  obtain rfl := List.mem_singleton.mp hmem
  rfl

theorem change_beginPoll {rest : List ControlPoint} (hremaining : top.remaining = .poll :: rest) :
    Change worker event (beginPoll worker top below rest) := by
  have hrest : rest.Sublist top.remaining := by
    rw [hremaining]
    exact List.sublist_cons_self _ _
  unfold beginPoll
  split_ifs with hother
  · exact change_pollSucceeded h hbefore hrest
  · exact change_pollCanceled h hbefore
  · simp only [Bool.or_eq_true, Bool.not_eq_true', not_or, Bool.not_eq_false] at hother
    refine .advance_silent (h.toSessionOrderly.of_same rfl rfl rfl rfl) rfl hbefore rfl ?_ rfl rfl
      ?_ ?_
    · refine ⟨rfl, rfl, ?_, ?_⟩
      · exact fun hwaits ↦ Bool.noConfusion hwaits
      · exact asksOnce_of_remaining hrest (Or.inr rfl)
    · exact fun hwaits ↦ Bool.noConfusion hwaits
    · exact fun _ ↦ hother.1.1

theorem change_beginInteraction {rest : List ControlPoint} (hphase : top.phase = .running)
    (hremaining : top.remaining = .interaction :: rest) :
    Change worker event (beginInteraction worker top below rest) := by
  refine .advance_silent (h.toSessionOrderly.of_same rfl rfl rfl rfl) rfl hbefore rfl ?_ rfl rfl
    (fun _ _ ↦ Or.inl rfl) fun hdraining ↦ Phase.noConfusion hdraining
  refine ⟨rfl, rfl, fun _ hwaits ↦ ?_, fun hasks ↦ ?_⟩
  · rw [hphase] at hwaits
    exact Bool.noConfusion hwaits
  · have hcount := hasks.1
    rw [hremaining, List.count_cons_self] at hcount
    have hnone : rest.count .interaction = 0 := by omega
    exact ⟨by dsimp only; omega, fun _ _ ↦ List.count_eq_zero.mp hnone⟩

/-- A step of the wait, which goes on. -/
theorem change_wait (phase : Phase) (sentKeepalive : Bool) (occurrences : List Occurrence)
    (hwaits : top.phase.waits = true) (hphase : phase.waits = true)
    (hconcerns : ∀ occurrence ∈ occurrences, occurrence.Concerns top.number) :
    Change worker event ((withTop worker below
      { top with phase := phase, sentKeepalive := sentKeepalive }).record occurrences) := by
  refine .advance (h.toSessionOrderly.of_same rfl rfl rfl rfl) rfl hbefore rfl ?_ rfl hconcerns rfl
    (fun _ hprocessing ↦ h.signalled hbefore hwaits hprocessing) ?_
  · refine ⟨rfl, rfl, fun _ _ ↦ rfl, ?_⟩
    refine asksOnce_of_waiting rfl ?_ ?_
    · intro hrunning
      simp [hrunning, Phase.waits] at hwaits
    · intro hdraining
      simp [hdraining, Phase.waits] at hwaits
  · rintro rfl
    exact Bool.noConfusion hphase

/-- A step of the wait that reports nothing. -/
theorem change_wait_silent (phase : Phase) (hwaits : top.phase.waits = true)
    (hphase : phase.waits = true) :
    Change worker event (withTop worker below { top with phase := phase }) := by
  have hchange : Change worker event ((withTop worker below { top with phase := phase }).record []) :=
    change_wait h hbefore phase top.sentKeepalive [] hwaits hphase
      fun occurrence hmem ↦ absurd hmem List.not_mem_nil
  simpa [Worker.record, withTop] using hchange

theorem change_wakeWait (hphase : top.phase = .waking) :
    Change worker event (wakeWait worker top below) := by
  have hwaits : top.phase.waits = true := by rw [hphase]; rfl
  unfold wakeWait
  split_ifs
  · refine .advance_silent (h.toSessionOrderly.of_same rfl rfl rfl rfl) rfl hbefore rfl ?_ rfl rfl
      (fun hwaits ↦ Bool.noConfusion hwaits) fun hdraining ↦ Phase.noConfusion hdraining
    refine ⟨rfl, rfl, fun hwaits ↦ Bool.noConfusion hwaits, asksOnce_of_waiting rfl ?_ ?_⟩
    · simp [hphase]
    · simp [hphase]
  · refine change_wait h hbefore .asleep true _ hwaits rfl fun occurrence hmem ↦ ?_
    obtain rfl := List.mem_singleton.mp hmem
    rfl
  · exact change_wait_silent h hbefore .asleep hwaits rfl

/-- The end of the interaction: the handler goes on, or has only its return before it. -/
theorem change_endInteraction : Change worker event (endInteraction worker top below) := by
  unfold endInteraction
  split_ifs
  · exact change_continueHandler_silent h hbefore (List.Sublist.refl _)
  · exact change_continueHandler_silent h hbefore (List.nil_sublist _)

theorem change_reportWait (hphase : top.phase = .signalled) :
    Change worker event (reportWait worker top below) := by
  refine .advance (h.toSessionOrderly.of_same rfl rfl rfl rfl) rfl hbefore rfl ?_ rfl ?_ rfl
    (fun hwaits ↦ Bool.noConfusion hwaits) fun hdraining ↦ Phase.noConfusion hdraining
  · refine ⟨rfl, rfl, fun hwaits ↦ Bool.noConfusion hwaits, asksOnce_of_waiting rfl ?_ ?_⟩
    · simp [hphase]
    · simp [hphase]
  · intro occurrence hmem
    obtain rfl := List.mem_singleton.mp hmem
    rfl

theorem change_skipInteraction (accepted : Bool) :
    Change worker event (skipInteraction worker top below accepted) := by
  unfold skipInteraction
  split
  · rename_i rest hremaining
    split_ifs
    · refine change_continueHandler_silent h hbefore ?_
      rw [hremaining]
      exact List.sublist_cons_self _ _
    · exact change_continueHandler_silent h hbefore (List.nil_sublist _)
  · exact .external h.toSessionOrderly rfl rfl rfl rfl id

theorem change_runHandler (hphase : top.phase = .running) :
    Change worker event (runHandler worker top below) := by
  unfold runHandler
  split
  · exact .external h.toSessionOrderly rfl rfl rfl rfl id
  · rename_i rest hremaining
    exact change_beginPoll h hbefore hremaining
  · rename_i rest hremaining
    exact change_beginInteraction h hbefore hphase hremaining
  · rename_i rest hremaining
    refine change_continueHandler h hbefore ?_ fun occurrence hmem ↦ ?_
    · rw [hremaining]
      exact List.sublist_cons_self _ _
    · obtain rfl := List.mem_singleton.mp hmem
      rfl

theorem change_endWaitIteration {timedOut : Bool} (hphase : top.phase = .checking timedOut)
    (now : UInt32) : Change worker event (endWaitIteration worker top below timedOut now) := by
  have hwaits : top.phase.waits = true := by rw [hphase]; rfl
  unfold endWaitIteration
  split_ifs with hstop hkeepalive
  · refine .advance (h.toSessionOrderly.of_same rfl rfl rfl rfl) rfl hbefore rfl ?_ rfl ?_ rfl
      (fun hwaits ↦ Bool.noConfusion hwaits) fun hdraining ↦ Phase.noConfusion hdraining
    · refine ⟨rfl, rfl, fun hwaits ↦ Bool.noConfusion hwaits, ?_⟩
      exact asksOnce_of_remaining (List.nil_sublist _) (Or.inl rfl)
    · intro occurrence hmem
      obtain rfl := List.mem_singleton.mp hmem
      rfl
  all_goals
    dsimp only
    have hcontinues : top.Continues { top with phase := .waking } := by
      refine ⟨rfl, rfl, fun _ _ ↦ rfl, asksOnce_of_waiting rfl ?_ ?_⟩
      · simp [hphase]
      · simp [hphase]
  · have hsession : SessionOrderly (withTop (worker.record [.keepalive top.number]) below
        { top with phase := .waking }) := h.toSessionOrderly.of_same rfl rfl rfl rfl
    have htick := hsession.sessionOrderly_tick now
    rw [hsession.tick_eq now] at htick ⊢
    refine .advance htick.1 htick.2 hbefore rfl hcontinues (List.append_assoc _ _ _) ?_ rfl
      (fun _ hprocessing ↦ h.signalled hbefore hwaits hprocessing)
      fun hdraining ↦ Phase.noConfusion hdraining
    intro occurrence hmem
    rcases List.mem_append.mp hmem with hmem | hmem
    · obtain rfl := List.mem_singleton.mp hmem
      rfl
    · obtain ⟨message, -, rfl⟩ := List.mem_map.mp hmem
      trivial
  · have hsession : SessionOrderly (withTop worker below { top with phase := .waking }) :=
      h.toSessionOrderly.of_same rfl rfl rfl rfl
    have htick := hsession.sessionOrderly_tick now
    rw [hsession.tick_eq now] at htick ⊢
    refine .advance htick.1 htick.2 hbefore rfl hcontinues rfl ?_ rfl
      (fun _ hprocessing ↦ h.signalled hbefore hwaits hprocessing)
      fun hdraining ↦ Phase.noConfusion hdraining
    intro occurrence hmem
    obtain ⟨message, -, rfl⟩ := List.mem_map.mp hmem
    trivial

theorem change_drainNothing (now : UInt32) :
    Change worker event (drainNothing worker top below now) := by
  unfold drainNothing
  split_ifs
  · exact change_pollCanceled h hbefore
  · have htick := h.toSessionOrderly.sessionOrderly_tick now
    rw [h.toSessionOrderly.tick_eq now] at htick ⊢
    refine .advance (htick.1.of_same rfl rfl rfl rfl) htick.2 hbefore rfl ?_
      (List.append_assoc _ _ _) ?_ rfl (fun hwaits ↦ Bool.noConfusion hwaits)
      fun hdraining ↦ Phase.noConfusion hdraining
    · refine ⟨rfl, rfl, fun hwaits ↦ Bool.noConfusion hwaits, ?_⟩
      exact asksOnce_of_remaining (List.Sublist.refl _) (Or.inl rfl)
    · intro occurrence hmem
      rcases List.mem_append.mp hmem with hmem | hmem
      · obtain ⟨message, -, rfl⟩ := List.mem_map.mp hmem
        trivial
      · obtain rfl := List.mem_singleton.mp hmem
        rfl

/-- No packet in the wait: the iteration comes to its end. -/
theorem change_readNothing {timedOut cancel : Bool}
    (hphase : top.phase = .reading timedOut cancel) :
    Change worker event (worker.readNothing timedOut) := by
  have hwaits : top.phase.waits = true := by rw [hphase]; rfl
  have hcontinues : top.Continues { top with phase := .checking timedOut } := by
    refine ⟨rfl, rfl, fun _ _ ↦ rfl, asksOnce_of_waiting rfl ?_ ?_⟩
    · simp [hphase]
    · simp [hphase]
  unfold Worker.readNothing
  dsimp only
  by_cases hstop : worker.stopRequested = true
  · rw [if_pos hstop, setPhase_cons worker.requestCancel hbefore]
    exact .advance_silent (h.toSessionOrderly.of_same rfl rfl rfl rfl) rfl hbefore rfl hcontinues rfl
      rfl (fun _ hprocessing ↦ h.signalled hbefore hwaits hprocessing)
      fun hdraining ↦ Phase.noConfusion hdraining
  · rw [if_neg hstop, setPhase_cons worker hbefore]
    exact change_wait_silent h hbefore _ hwaits rfl

end Handler

section Packets

/-- The rest of the loop after a packet that is no longer active, or still is. -/
theorem packetHandled_eq (worker : Worker) (timedOut cancel : Bool) :
    worker.packetHandled timedOut cancel =
      (worker.applyActions cancel).setPhase
        (if worker.transport.active then .reading timedOut cancel else .checking timedOut) := by
  unfold Worker.packetHandled Worker.applyActions
  cases cancel
  · rfl
  · simp only [if_true, finishInteraction_transport]

theorem applyActions_activations (worker : Worker) (cancel : Bool) :
    (worker.applyActions cancel).activations = worker.activations := by
  unfold Worker.applyActions
  split_ifs
  · exact finishInteraction_activations _ _
  · rfl

theorem applyActions_transport (worker : Worker) (cancel : Bool) :
    (worker.applyActions cancel).transport = worker.transport := by
  unfold Worker.applyActions
  split_ifs
  · exact finishInteraction_transport _ _
  · rfl

theorem applyActions_log (worker : Worker) (cancel : Bool) :
    (worker.applyActions cancel).log = worker.log := by
  unfold Worker.applyActions
  split_ifs
  · exact finishInteraction_log _ _
  · rfl

theorem applyActions_dispatched (worker : Worker) (cancel : Bool) :
    (worker.applyActions cancel).dispatched = worker.dispatched := by
  unfold Worker.applyActions
  split_ifs
  · exact finishInteraction_dispatched _ _
  · rfl

theorem applyActions_connected (worker : Worker) (cancel : Bool) :
    (worker.applyActions cancel).connected = worker.connected := by
  unfold Worker.applyActions
  split_ifs
  · exact finishInteraction_connected _ _
  · rfl

theorem signalled_applyActions (worker : Worker) (cancel : Bool) (h : worker.Signalled) :
    (worker.applyActions cancel).Signalled := by
  unfold Worker.applyActions
  split_ifs
  · exact signalled_finishInteraction _ _ h
  · exact h

end Packets

section Return

variable (h : Orderly worker) (hbefore : worker.activations = top :: below)
include h hbefore

omit h in
/-- The handler is off the stack, whatever it has recorded. -/
theorem change_popHandler (hphase : top.phase = .running) {worker' : Worker}
    {occurrences : List Occurrence} (hsession : SessionOrderly worker')
    (hprocessing : worker'.transport.processing = false)
    (hlog : worker'.log = worker.log ++ occurrences)
    (hresponse : occurrences = [] ∨ ∃ message, occurrences = [.response top.number message] ∧
      top.generation = worker.transport.processingGeneration)
    (hdispatched : worker'.dispatched = worker.dispatched) :
    Change worker event (popHandler worker' below) := by
  unfold popHandler
  dsimp only
  split
  · rename_i timedOut cancel hreading
    rw [packetHandled_eq]
    cases below with
    | nil =>
      rw [setPhase_nil _ (applyActions_activations _ _)]
      refine .pop (hsession.of_same ?_ ?_ ?_ ?_) ?_ hbefore hphase (Or.inl ?_) ?_ hresponse ?_
      all_goals simp only [applyActions_transport, applyActions_connected, applyActions_activations,
        applyActions_log, applyActions_dispatched, hprocessing, hlog, hdispatched]
    | cons next deeper =>
      rw [setPhase_cons _ (applyActions_activations _ _)]
      refine .pop (hsession.of_same ?_ ?_ ?_ ?_) ?_ hbefore hphase
        (Or.inr ⟨next, deeper, timedOut, cancel, _, rfl, hreading, rfl, ?_⟩) ?_ hresponse ?_
      case refine_6 => split_ifs <;> simp
      all_goals simp only [applyActions_transport, applyActions_connected, applyActions_log,
        applyActions_dispatched, hprocessing, hlog, hdispatched]
  · exact .pop (hsession.of_same rfl rfl rfl rfl) hprocessing hbefore hphase (Or.inl rfl) hlog
      hresponse hdispatched

theorem change_finishHandler (hphase : top.phase = .running) (result : DispatchResult) :
    Change worker event (finishHandler worker top below result) := by
  unfold finishHandler
  by_cases hgeneration : top.generation ≠ worker.transport.processingGeneration
  · rw [if_pos hgeneration]
    have hprocessing : worker.transport.processing = false := by
      by_contra hprocessing
      rw [Bool.not_eq_false] at hprocessing
      rw [h.generation hprocessing, (h.member top (by simp [hbefore])).1] at hgeneration
      exact hgeneration rfl
    exact change_popHandler hbefore hphase h.toSessionOrderly hprocessing
      (List.append_nil _).symm (Or.inl rfl) rfl
  · rw [if_neg hgeneration]
    rw [not_not] at hgeneration
    refine change_popHandler hbefore hphase ?_ rfl rfl (Or.inr ⟨_, rfl, hgeneration⟩) rfl
    refine sessionOrderly_of_idle rfl fun hactive ↦ (h.assembling hactive).2

end Return

section Reading

/-- Connecting before a packet is handled: nothing is being processed on a lost connection. -/
theorem Orderly.onConnect_eq (h : Orderly worker) :
    worker.onConnect =
        { worker with transport := worker.onConnect.transport, connected := true } ∧
      SessionOrderly worker.onConnect ∧
      worker.onConnect.transport.processing = worker.transport.processing ∧
      (worker.transport.processing = true → worker.onConnect.transport = worker.transport) := by
  unfold Worker.onConnect
  by_cases hconnected : worker.connected = true
  · rw [if_pos hconnected]
    refine ⟨?_, h.toSessionOrderly, rfl, fun _ ↦ rfl⟩
    rw [← hconnected]
  · rw [if_neg hconnected]
    have hprocessing : worker.transport.processing = false := by
      by_contra hprocessing
      exact hconnected (h.linked (by simpa using hprocessing))
    have hlog := setTransport_log_kept worker .connection
      (fun hprocessing' ↦ absurd hprocessing' (by simp [hprocessing]) :
        worker.transport.processing = true →
          (expireLock (sessionReset worker.transport)).processing = true)
    rw [setTransport_eq, hlog]
    refine ⟨rfl, sessionOrderly_of_idle rfl fun _ ↦ rfl, hprocessing.symm, ?_⟩
    simp [hprocessing]

theorem concerns_sent (number : ℕ) (messages : List Message) :
    ∀ occurrence ∈ messages.map Occurrence.sent, occurrence.Concerns number := by
  intro occurrence hmem
  obtain ⟨message, -, rfl⟩ := List.mem_map.mp hmem
  trivial

theorem exists_sent (messages : List Message) :
    ∀ occurrence ∈ messages.map Occurrence.sent, ∃ message, occurrence = .sent message := by
  intro occurrence hmem
  obtain ⟨message, -, rfl⟩ := List.mem_map.mp hmem
  exact ⟨message, rfl⟩

/-- The wait goes on to the next packet or to the end of its iteration. -/
theorem continues_reading {timedOut cancel : Bool} (active cancel' : Bool)
    (hphase : top.phase = .reading timedOut cancel) :
    top.Continues { top with
      phase := if active then .reading timedOut cancel' else .checking timedOut } := by
  refine ⟨rfl, rfl, fun _ _ ↦ rfl, asksOnce_of_waiting rfl ?_ ?_⟩
  · simp [hphase]
  · simp [hphase]

variable (h : Orderly worker) (hbefore : worker.activations = top :: below)
include h hbefore

/-- A packet that leaves the session as it is judged, handled in the wait. -/
theorem change_packetHandled {worker' : Worker} {timedOut cancel cancel' : Bool}
    {occurrences : List Occurrence} (hphase : top.phase = .reading timedOut cancel)
    (hsession : SessionOrderly worker')
    (hprocessing : worker'.transport.processing = worker.transport.processing)
    (hactivations : worker'.activations = worker.activations)
    (hlog : worker'.log = worker.log ++ occurrences)
    (hconcerns : ∀ occurrence ∈ occurrences, occurrence.Concerns top.number)
    (hdispatched : worker'.dispatched = worker.dispatched)
    (happroval : worker'.approval = worker.approval)
    (hdone : worker'.approvalDone = worker.approvalDone) :
    Change worker event (worker'.packetHandled timedOut cancel') := by
  have hwaits : top.phase.waits = true := by rw [hphase]; rfl
  rw [packetHandled_eq, setPhase_cons _ ((applyActions_activations _ _).trans
    (hactivations.trans hbefore))]
  refine .advance (hsession.of_same ?_ ?_ ?_ ?_) ?_ hbefore rfl
    (continues_reading worker'.transport.active cancel' hphase) ?_ hconcerns ?_ ?_ ?_
  case refine_8 =>
    intro _ hcurrent
    refine signalled_applyActions worker' cancel' ?_
    unfold Worker.Signalled
    rw [happroval, hdone]
    exact h.signalled hbefore hwaits hcurrent
  case refine_9 =>
    cases worker'.transport.active <;> exact fun hdraining ↦ Phase.noConfusion hdraining
  all_goals simp only [applyActions_transport, applyActions_connected, applyActions_log,
    applyActions_dispatched, hprocessing, hlog, hdispatched]

/-- A packet that ended the processing of the request, handled in the wait. -/
theorem change_packetHandled_aborted {worker' : Worker} {timedOut cancel : Bool}
    {cause : AbortCause} {messages : List Message} (hphase : top.phase = .reading timedOut cancel)
    (hprocessing : worker.transport.processing = true)
    (hidle : worker'.transport.processing = false) (hactive : worker'.transport.active = false)
    (hgeneration : worker'.transport.processingGeneration ≠ 1)
    (hactivations : worker'.activations = worker.activations)
    (hlog : worker'.log = worker.log ++ .aborted top.number top.protocol cause :: messages.map .sent)
    (hdispatched : worker'.dispatched = worker.dispatched)
    (happroval : worker'.approval = worker.approval)
    (hdone : worker'.approvalDone = worker.approvalDone)
    (hinit : worker'.transport.processingCancelRequested = true ∨ ChannelInit worker event) :
    Change worker event (worker'.packetHandled timedOut true) := by
  have hwaits : top.phase.waits = true := by rw [hphase]; rfl
  have hsignalled : worker'.Signalled := by
    unfold Worker.Signalled
    rw [happroval, hdone]
    exact h.signalled hbefore hwaits hprocessing
  obtain ⟨hdone', hpending, happroved⟩ := finishInteraction_canceled worker' hsignalled
  rw [happroval] at happroved
  rw [packetHandled_eq, setPhase_cons _ ((applyActions_activations _ _).trans
    (hactivations.trans hbefore))]
  have htransport := applyActions_transport worker' true
  refine .abort (sessionOrderly_of_idle ?_ ?_) hprocessing ?_ ?_ hbefore rfl
    (continues_reading worker'.transport.active true hphase) ((applyActions_log worker' true).trans hlog)
    (fun occurrence hmem ↦ Or.inl (exists_sent _ occurrence hmem)) ?_
    (.checking timedOut cancel hphase ?_ rfl rfl hdone' hpending happroved ?_)
  · rw [htransport, hidle]
  · rw [htransport, hactive]
    exact fun hactive' ↦ Bool.noConfusion hactive'
  · rw [htransport, hidle]
  · rw [htransport]
    exact hgeneration
  · rw [applyActions_dispatched, hdispatched]
  · rw [hactive]
    rfl
  · rw [htransport]
    exact hinit

/-- A packet in the wait of the request that is being processed. -/
theorem change_processingPacket {timedOut cancel : Bool} {packet : Bytes}
    {surroundings : Surroundings} {path : HandlerPath} {cause : AbortCause} {handling : Handling}
    (hevent : event = .packet packet surroundings path)
    (hphase : top.phase = .reading timedOut cancel) (hprocessing : worker.transport.processing = true)
    (heffect : ProcessingEffect worker.transport packet handling) :
    Change worker event (((worker.setTransport handling.transport cause).record
      (handling.sent.map .sent)).packetHandled timedOut (cancel || handling.cancelPending)) := by
  have hactive := h.not_active hprocessing
  cases heffect with
  | kept complete same =>
    have hlog := setTransport_log_kept worker cause (fun _ ↦ same.processing.trans hprocessing)
    rw [setTransport_eq, hlog]
    exact change_packetHandled h hbefore hphase
      (h.toSessionOrderly.of_same same.active same.processing same.generation rfl) same.processing rfl
      rfl (concerns_sent _ _) rfl rfl rfl
  | canceled complete cancelPending same =>
    have hlog := setTransport_log_kept worker cause (fun _ ↦ same.processing.trans hprocessing)
    rw [setTransport_eq, hlog]
    exact change_packetHandled h hbefore hphase
      (h.toSessionOrderly.of_same same.active same.processing same.generation rfl) same.processing rfl
      rfl (concerns_sent _ _) rfl rfl rfl
  | aborted cancelRequested complete cancelPending same channel =>
    have hidle : handling.transport.processing = false := same.processing
    have hlog := setTransport_log_aborted worker cause hbefore hprocessing hidle
    rw [setTransport_eq, hlog, cancelPending, Bool.or_true]
    refine change_packetHandled_aborted h hbefore hphase hprocessing hidle
      (same.active.trans hactive) ?_ rfl (List.append_assoc _ _ _) rfl rfl rfl ?_
    · show handling.transport.processingGeneration ≠ 1
      rw [same.generation, h.generation hprocessing]
      show (1 : UInt32) + 1 ≠ 1
      decide
    · rcases channel with ⟨hinit, hcid⟩ | hcancel
      · exact Or.inr ⟨packet, surroundings, path, hevent, hinit, hcid⟩
      · exact Or.inl (same.cancelRequested.trans hcancel)

omit h in
/-- A packet that completes a message, read inside a handler. -/
theorem change_dispatch {worker' : Worker} {timedOut cancel cancel' : Bool}
    {message : CompleteMessage} {occurrences : List Occurrence} {capabilities : Capabilities}
    {path : HandlerPath} (hphase : top.phase = .reading timedOut cancel)
    (hstop : worker.stopRequested = false) (hprocessing : worker.transport.processing = false)
    (hactive : worker'.transport.active = false)
    (hgeneration : worker'.transport.processingGeneration = 0)
    (hconnected : worker'.connected = true)
    (hactivations : worker'.activations = worker.activations)
    (hlog : worker'.log = worker.log ++ occurrences)
    (hsent : ∀ occurrence ∈ occurrences, ∃ message, occurrence = .sent message)
    (hdispatched : worker'.dispatched = worker.dispatched)
    (hcompletes : ∃ packet surroundings path, event = .packet packet surroundings path ∧
      (handlePacket worker.onConnect.transport packet surroundings).complete ≠ none) :
    Change worker event
      ((worker'.setPhase (.reading timedOut cancel')).dispatch message capabilities path) := by
  rw [setPhase_cons worker' (hactivations.trans hbefore)]
  refine .push ?_ hprocessing rfl
    (Or.inr ⟨top, below, timedOut, cancel, cancel', hbefore, hphase, rfl⟩) hdispatched ?_ rfl ?_ ?_
    hsent ?_ ?_ hcompletes hstop rfl
  · refine ⟨fun hactive' ↦ ?_, fun _ ↦ ?_, fun _ ↦ hconnected⟩
    · exact absurd (hactive.symm.trans hactive') Bool.false_ne_true
    · show worker'.transport.processingGeneration + 1 = 1
      rw [hgeneration]
      rfl
  · show worker'.transport.processingGeneration + 1 = 1
    rw [hgeneration]
    rfl
  · refine ⟨count_interaction_messageControlPoints _ _ _, fun hrunning ↦ absurd rfl hrunning⟩
  · show worker'.log ++ [.dispatched worker'.dispatched] = _
    rw [hlog, hdispatched]
  · show worker'.dispatched + 1 = _
    rw [hdispatched]
  · unfold Worker.phase
    rw [hbefore]
    simp [hphase, Phase.isReading]

/-- A packet in the wait of a request that is no longer processed. -/
theorem change_idlePacket {timedOut cancel : Bool} {packet : Bytes} {surroundings : Surroundings}
    {path : HandlerPath} {cause : AbortCause} (hevent : event = .packet packet surroundings path)
    (hphase : top.phase = .reading timedOut cancel) (hstop : worker.stopRequested = false)
    (hprocessing : worker.transport.processing = false) {worker' : Worker}
    (hworker' : worker' = (worker.onConnect.setTransport
      (handlePacket worker.onConnect.transport packet surroundings).transport cause).record
      ((handlePacket worker.onConnect.transport packet surroundings).sent.map .sent)) (cancel' : Bool) :
    ((handlePacket worker.onConnect.transport packet surroundings).complete = none →
      Change worker event (worker'.packetHandled timedOut cancel')) ∧
    ∀ message, (handlePacket worker.onConnect.transport packet surroundings).complete =
      some message → Change worker event
        ((worker'.setPhase (.reading timedOut cancel')).dispatch message surroundings.capabilities
          path) := by
  obtain ⟨hconnect, hsession, hsame, -⟩ := h.onConnect_eq
  rw [hprocessing] at hsame
  have heffect := (hsession.idleSession hsame).handlePacket_cases packet surroundings
  have hlog := setTransport_log_kept worker.onConnect cause
    (fun hprocessing' ↦ absurd hprocessing' (by simp [hsame]) : worker.onConnect.transport.processing =
      true → (handlePacket worker.onConnect.transport packet surroundings).transport.processing =
      true)
  have hlog' : worker.onConnect.log = worker.log := by rw [hconnect]
  have hactivations : worker.onConnect.activations = worker.activations := by rw [hconnect]
  have hdispatched : worker.onConnect.dispatched = worker.dispatched := by rw [hconnect]
  have hconnected : worker.onConnect.connected = true := by rw [hconnect]
  rw [setTransport_eq, hlog, hlog'] at hworker'
  subst hworker'
  constructor
  · intro hcomplete
    refine change_packetHandled h hbefore hphase (sessionOrderly_of_idle heffect.processing
      heffect.assembling) (heffect.processing.trans hprocessing.symm) hactivations rfl
      (concerns_sent _ _) hdispatched ?_ ?_
    · show worker.onConnect.approval = worker.approval
      rw [hconnect]
    · show worker.onConnect.approvalDone = worker.approvalDone
      rw [hconnect]
  · intro message hcomplete
    have hne : (handlePacket worker.onConnect.transport packet surroundings).complete ≠ none := by
      simp [hcomplete]
    exact change_dispatch hbefore hphase hstop hprocessing (heffect.complete hne).2
      (heffect.complete hne).1 hconnected hactivations rfl (exists_sent _) hdispatched
      ⟨packet, surroundings, path, hevent, hne⟩

theorem change_readPacket {timedOut cancel : Bool} {packet : Bytes} {surroundings : Surroundings}
    {path : HandlerPath} (hevent : event = .packet packet surroundings path)
    (hphase : top.phase = .reading timedOut cancel) :
    Change worker event (worker.readPacket timedOut cancel packet surroundings path) := by
  have hwaits : top.phase.waits = true := by rw [hphase]; rfl
  unfold Worker.readPacket
  by_cases hstop : worker.stopRequested = true
  · rw [if_pos hstop, setPhase_cons worker.requestCancel hbefore]
    refine .advance_silent (h.toSessionOrderly.of_same rfl rfl rfl rfl) rfl hbefore rfl ?_ rfl
      rfl (fun _ hprocessing ↦ h.signalled hbefore hwaits hprocessing)
      fun hdraining ↦ Phase.noConfusion hdraining
    exact continues_reading false false hphase
  · rw [if_neg hstop]
    dsimp only
    by_cases hprocessing : worker.transport.processing = true
    · obtain ⟨hconnect, -, -, hsame⟩ := h.onConnect_eq
      have hworker : worker.onConnect = worker := by
        rw [hconnect, hsame hprocessing, ← h.linked hprocessing]
      rw [hworker]
      have heffect := processing_handlePacket_cases hprocessing packet surroundings
      have hcomplete : (handlePacket worker.transport packet surroundings).complete = none := by
        cases heffect <;> assumption
      rw [hcomplete]
      exact change_processingPacket h hbefore hevent hphase hprocessing heffect
    · rw [Bool.not_eq_true] at hprocessing
      rw [Bool.not_eq_true] at hstop
      obtain ⟨hnone, hsome⟩ := change_idlePacket h hbefore hevent hphase hstop hprocessing
        (rfl : _ = (worker.onConnect.setTransport
          (handlePacket worker.onConnect.transport packet surroundings).transport
          (if packetCid packet = worker.onConnect.transport.cid then .channelInit
            else .broadcastInit)).record _)
        (cancel || (handlePacket worker.onConnect.transport packet surroundings).cancelPending)
      split
      · rename_i hcomplete
        exact hnone hcomplete
      · rename_i message hcomplete
        exact hsome message hcomplete

end Reading

section Flags

/-- The connection is lost while the request is being processed. -/
theorem change_disconnect (h : Orderly worker) (hbefore : worker.activations = top :: below)
    (hphase : top.phase = .asleep) (hprocessing : worker.transport.processing = true) :
    Change worker event (worker.onDisconnect.setPhase (.reading false false)) := by
  have hwaits : top.phase.waits = true := by rw [hphase]; rfl
  obtain ⟨hdone, -, -⟩ := finishInteraction_canceled worker (h.signalled hbefore hwaits hprocessing)
  have hactivations : (worker.finishInteraction .canceled).activations = top :: below := by
    rw [finishInteraction_activations, hbefore]
  have hlog := setTransport_log_aborted (worker.finishInteraction .canceled) .connection
    hactivations (by rw [finishInteraction_transport, hprocessing])
    (rfl : (expireLock (sessionReset (worker.finishInteraction .canceled).transport)).processing =
      false)
  rw [finishInteraction_log] at hlog
  unfold Worker.onDisconnect Worker.setPhase
  dsimp only
  rw [setTransport_eq, hlog]
  dsimp only
  rw [hactivations]
  refine .abort (sessionOrderly_of_idle rfl fun hactive ↦ Bool.noConfusion hactive) hprocessing rfl
    ?_ hbefore rfl ?_ rfl (fun occurrence hmem ↦ absurd hmem List.not_mem_nil)
    (finishInteraction_dispatched _ _) (.reading rfl rfl rfl hdone rfl)
  · show (0 : UInt32) ≠ 1
    decide
  · refine ⟨rfl, rfl, fun _ _ ↦ rfl, asksOnce_of_waiting rfl ?_ ?_⟩
    · simp [hphase]
    · simp [hphase]

/-- What the flags do to a worker that is processing nothing. -/
theorem Orderly.handleWorkerFlags_idle (h : Orderly worker)
    (hprocessing : worker.transport.processing = false) (flags : WorkerFlags) :
    SessionOrderly (worker.handleWorkerFlags flags) ∧
      (worker.handleWorkerFlags flags).transport.processing = false ∧
      (worker.handleWorkerFlags flags).activations = worker.activations ∧
      (worker.handleWorkerFlags flags).log = worker.log ∧
      (worker.handleWorkerFlags flags).dispatched = worker.dispatched := by
  obtain ⟨hconnect, hsession, hsame, -⟩ := h.onConnect_eq
  rw [hprocessing] at hsame
  have hconnected : SessionOrderly (if flags.connect then worker.onConnect else worker) ∧
      (if flags.connect then worker.onConnect else worker).transport.processing = false ∧
      (if flags.connect then worker.onConnect else worker).activations = worker.activations ∧
      (if flags.connect then worker.onConnect else worker).log = worker.log ∧
      (if flags.connect then worker.onConnect else worker).dispatched = worker.dispatched := by
    split_ifs
    · refine ⟨hsession, hsame, ?_, ?_, ?_⟩ <;> rw [hconnect]
    · exact ⟨h.toSessionOrderly, hprocessing, rfl, rfl, rfl⟩
  unfold Worker.handleWorkerFlags
  dsimp only
  generalize (if flags.connect then worker.onConnect else worker) = connected at hconnected ⊢
  obtain ⟨hsession, hidle, hactivations, hlog, hdispatched⟩ := hconnected
  split_ifs
  · unfold Worker.onDisconnect
    dsimp only
    have hkept := setTransport_log_kept (connected.finishInteraction .canceled) .connection
      (fun hprocessing' ↦ absurd hprocessing' (by simp [hidle]) :
        (connected.finishInteraction .canceled).transport.processing = true →
          (expireLock (sessionReset
            (connected.finishInteraction .canceled).transport)).processing = true)
    rw [setTransport_eq, hkept]
    refine ⟨sessionOrderly_of_idle rfl fun hactive ↦ Bool.noConfusion hactive, rfl, ?_, ?_, ?_⟩
    · exact (finishInteraction_activations _ _).trans hactivations
    · exact (finishInteraction_log _ _).trans hlog
    · exact (finishInteraction_dispatched _ _).trans hdispatched
  · exact ⟨hsession, hidle, hactivations, hlog, hdispatched⟩

theorem change_wake (h : Orderly worker) (hbefore : worker.activations = top :: below)
    (hphase : top.phase = .asleep) (flags : WorkerFlags) :
    Change worker event ((worker.handleWorkerFlags flags).setPhase (.reading false false)) := by
  have hwaits : top.phase.waits = true := by rw [hphase]; rfl
  by_cases hprocessing : worker.transport.processing = true
  · have hconnect : (if flags.connect then worker.onConnect else worker) = worker := by
      unfold Worker.onConnect
      rw [if_pos (h.linked hprocessing), ite_self]
    unfold Worker.handleWorkerFlags
    rw [hconnect]
    by_cases hdisconnect : flags.disconnect = true
    · rw [if_pos hdisconnect]
      exact change_disconnect h hbefore hphase hprocessing
    · rw [if_neg hdisconnect, setPhase_cons worker hbefore]
      exact change_wait_silent h hbefore _ hwaits rfl
  · rw [Bool.not_eq_true] at hprocessing
    obtain ⟨hsession, hidle, hactivations, hlog, hdispatched⟩ :=
      h.handleWorkerFlags_idle hprocessing flags
    rw [setPhase_cons _ (hactivations.trans hbefore)]
    refine .advance_silent (hsession.of_same rfl rfl rfl rfl) (hidle.trans hprocessing.symm) hbefore
      rfl ?_ hlog hdispatched (fun _ hcurrent ↦ ?_) fun hdraining ↦ Phase.noConfusion hdraining
    · refine ⟨rfl, rfl, fun _ _ ↦ rfl, asksOnce_of_waiting rfl ?_ ?_⟩
      · simp [hphase]
      · simp [hphase]
    · rw [hprocessing] at hcurrent
      exact Bool.noConfusion hcurrent

end Flags

section Poll

/-- A packet read in a poll, after which the poll goes on. -/
theorem change_drained (h : Orderly worker) (hbefore : worker.activations = top :: below)
    (hphase : top.phase = .draining) {handling : Handling} {cause : AbortCause}
    (hsame : SameRequest worker.transport handling.transport) :
    Change worker event (((worker.setTransport handling.transport cause).record
      (handling.sent.map .sent)).applyActions handling.cancelPending) := by
  have hprocessing := h.draining top below hbefore hphase
  have hlog := setTransport_log_kept worker cause (fun _ ↦ hsame.processing.trans hprocessing)
  rw [setTransport_eq, hlog]
  refine .advance ?_ ?_ hbefore ((applyActions_activations _ _).trans hbefore) ?_
    (applyActions_log _ _) (concerns_sent _ _) (applyActions_dispatched _ _) ?_ ?_
  · refine h.toSessionOrderly.of_same ?_ ?_ ?_ (applyActions_connected _ _)
    · rw [applyActions_transport]
      exact hsame.active
    · rw [applyActions_transport]
      exact hsame.processing
    · rw [applyActions_transport]
      exact hsame.generation
  · rw [applyActions_transport]
    exact hsame.processing
  · exact ⟨rfl, rfl, fun _ _ ↦ rfl, id⟩
  · rw [hphase]
    exact fun hwaits ↦ Bool.noConfusion hwaits
  · rw [applyActions_transport]
    exact fun _ ↦ hsame.processing.trans hprocessing

/-- A poll ends with KEEPALIVE_CANCEL after its last packet. The packet has aborted the request, or
has marked it as cancelled. -/
theorem change_drain_canceled (h : Orderly worker) (hbefore : worker.activations = top :: below)
    (hphase : top.phase = .draining) {packet : Bytes} {handling : Handling} {cause : AbortCause}
    (heffect : ProcessingEffect worker.transport packet handling) :
    Change worker event (pollCanceled (((worker.setTransport handling.transport cause).record
      (handling.sent.map .sent)).applyActions handling.cancelPending) top below) := by
  have hprocessing := h.draining top below hbefore hphase
  have hactive := h.not_active hprocessing
  have hcontinues : top.Continues { top with remaining := [], phase := .running } := by
    refine ⟨rfl, rfl, fun hwaits ↦ Bool.noConfusion hwaits, ?_⟩
    exact asksOnce_of_remaining (List.nil_sublist _) (Or.inl rfl)
  have hpolled (messages : List Message) : ∀ occurrence ∈ messages.map Occurrence.sent ++
      [.polled top.number .keepaliveCancel], (∃ message, occurrence = .sent message) ∨
        occurrence = .polled top.number .keepaliveCancel := by
    intro occurrence hmem
    rcases List.mem_append.mp hmem with hmem | hmem
    · exact Or.inl (exists_sent messages occurrence hmem)
    · exact Or.inr (List.mem_singleton.mp hmem)
  have hconcerns (messages : List Message) : ∀ occurrence ∈ messages.map Occurrence.sent ++
      [.polled top.number .keepaliveCancel], occurrence.Concerns top.number := by
    intro occurrence hmem
    rcases hpolled messages occurrence hmem with ⟨message, rfl⟩ | rfl
    · trivial
    · rfl
  have hkept (hsession : handling.transport.active = worker.transport.active)
      (hsame : handling.transport.processing = worker.transport.processing)
      (hgeneration : handling.transport.processingGeneration =
        worker.transport.processingGeneration) :
      Change worker event (pollCanceled (((worker.setTransport handling.transport cause).record
        (handling.sent.map .sent)).applyActions handling.cancelPending) top below) := by
    have hlog := setTransport_log_kept worker cause (fun _ ↦ hsame.trans hprocessing)
    rw [setTransport_eq, hlog]
    have htransport := applyActions_transport (({ worker with
      transport := handling.transport, log := worker.log } : Worker).record
        (handling.sent.map .sent)) handling.cancelPending
    refine .advance ?_ ?_ hbefore rfl hcontinues ?_ (hconcerns handling.sent)
      (applyActions_dispatched _ _) (fun hwaits ↦ Bool.noConfusion hwaits)
      fun hdraining ↦ Phase.noConfusion hdraining
    · refine h.toSessionOrderly.of_same ?_ ?_ ?_ (applyActions_connected _ _)
      · exact (congrArg TransportState.active htransport).trans hsession
      · exact (congrArg TransportState.processing htransport).trans hsame
      · exact (congrArg TransportState.processingGeneration htransport).trans hgeneration
    · exact (congrArg TransportState.processing htransport).trans hsame
    · show (Worker.applyActions _ _).log ++ _ = _
      rw [applyActions_log]
      exact List.append_assoc _ _ _
  cases heffect with
  | kept complete same => exact hkept same.active same.processing same.generation
  | canceled complete cancelPending same => exact hkept same.active same.processing same.generation
  | aborted cancelRequested complete cancelPending same channel =>
    have hidle : handling.transport.processing = false := same.processing
    have hlog := setTransport_log_aborted worker cause hbefore hprocessing hidle
    rw [setTransport_eq, hlog]
    have htransport := applyActions_transport (({ worker with
      transport := handling.transport
      log := worker.log ++ [.aborted top.number top.protocol cause] } : Worker).record
        (handling.sent.map .sent)) handling.cancelPending
    have hidle' := (congrArg TransportState.processing htransport).trans hidle
    have hlog' : (pollCanceled ((({ worker with
        transport := handling.transport
        log := worker.log ++ [.aborted top.number top.protocol cause] } : Worker).record
          (handling.sent.map .sent)).applyActions handling.cancelPending) top below).log =
        worker.log ++ .aborted top.number top.protocol cause ::
          (handling.sent.map .sent ++ [.polled top.number .keepaliveCancel]) := by
      show (Worker.applyActions _ _).log ++ _ = _
      rw [applyActions_log]
      simp [Worker.record]
    refine .abort (sessionOrderly_of_idle hidle' fun hactive' ↦ ?_) hprocessing hidle' ?_ hbefore rfl
      hcontinues hlog' (hpolled handling.sent) (applyActions_dispatched _ _) (.returning rfl rfl)
    · have hstill := (congrArg TransportState.active htransport).trans (same.active.trans hactive)
      exact absurd (hactive'.symm.trans hstill) (by decide)
    · have hgeneration := (congrArg TransportState.processingGeneration htransport).trans
        same.generation
      show (Worker.applyActions _ _).transport.processingGeneration ≠ 1
      rw [hgeneration, h.generation hprocessing]
      show (1 : UInt32) + 1 ≠ 1
      decide

theorem change_drainPacket (h : Orderly worker) (hbefore : worker.activations = top :: below)
    (hphase : top.phase = .draining) (packet : Bytes) (surroundings : Surroundings) :
    Change worker event (drainPacket worker top below packet surroundings) := by
  obtain ⟨heffect, hsame⟩ := handleProcessingControl_cases worker.transport packet surroundings
  unfold drainPacket
  by_cases hstop : worker.stopRequested = true
  · rw [if_pos hstop]
    exact change_pollCanceled h hbefore
  · rw [if_neg hstop]
    dsimp only
    by_cases hok : (handleProcessingControl worker.transport packet surroundings).2 = true
    · rw [if_pos hok]
      exact change_drained h hbefore hphase (hsame hok)
    · rw [if_neg hok]
      exact change_drain_canceled h hbefore hphase heffect

end Poll

section Main

/-- Without a handler nothing is being processed. -/
theorem Orderly.idle_of_nil (h : Orderly worker) (hbefore : worker.activations = []) :
    worker.transport.processing = false := by
  by_contra hprocessing
  obtain ⟨top, below, hactivations, -⟩ := h.current (by simpa using hprocessing)
  rw [hbefore] at hactivations
  exact absurd hactivations (by simp)

variable (h : Orderly worker) (hbefore : worker.activations = [])
include h hbefore

omit h in
/-- A step of the main loop that sends nothing and leaves the session as it is judged. -/
theorem change_main_silent {worker' : Worker} (hsession : SessionOrderly worker')
    (hprocessing : worker'.transport.processing = false)
    (hactivations : worker'.activations = worker.activations) (hlog : worker'.log = worker.log)
    (hdispatched : worker'.dispatched = worker.dispatched) : Change worker event worker' := by
  have hlog' : worker'.log = worker.log ++ [] := by rw [hlog, List.append_nil]
  exact .main hsession hprocessing hbefore (hactivations.trans hbefore) hlog'
    (fun occurrence hmem ↦ absurd hmem List.not_mem_nil) hdispatched

theorem change_main_phase (phase : Phase) :
    Change worker event { worker with mainPhase := phase } :=
  change_main_silent hbefore (h.toSessionOrderly.of_same rfl rfl rfl rfl) (h.idle_of_nil hbefore)
    rfl rfl rfl

omit h in
/-- A packet handled in the main loop. -/
theorem change_main_packetHandled {worker' : Worker} {timedOut cancel : Bool}
    {messages : List Message} (hsession : SessionOrderly worker')
    (hprocessing : worker'.transport.processing = false) (hactivations : worker'.activations = [])
    (hlog : worker'.log = worker.log ++ messages.map .sent)
    (hdispatched : worker'.dispatched = worker.dispatched) :
    Change worker event (worker'.packetHandled timedOut cancel) := by
  have htransport := applyActions_transport worker' cancel
  rw [packetHandled_eq, setPhase_nil _ ((applyActions_activations _ _).trans hactivations)]
  refine .main (hsession.of_same ?_ ?_ ?_ (applyActions_connected _ _)) ?_ hbefore
    ((applyActions_activations _ _).trans hactivations) ((applyActions_log _ _).trans hlog)
    (exists_sent _) ((applyActions_dispatched _ _).trans hdispatched)
  all_goals rw [htransport]
  exact hprocessing

omit h in
/-- A packet that completes a message, read in the main loop. -/
theorem change_main_dispatch {worker' : Worker} {timedOut cancel : Bool}
    {message : CompleteMessage} {messages : List Message} {capabilities : Capabilities}
    {path : HandlerPath} (hreading : worker.mainPhase.isReading = true)
    (hstop : worker.stopRequested = false) (hprocessing : worker.transport.processing = false)
    (hactive : worker'.transport.active = false)
    (hgeneration : worker'.transport.processingGeneration = 0)
    (hconnected : worker'.connected = true) (hactivations : worker'.activations = [])
    (hlog : worker'.log = worker.log ++ messages.map .sent)
    (hdispatched : worker'.dispatched = worker.dispatched)
    (hcompletes : ∃ packet surroundings path, event = .packet packet surroundings path ∧
      (handlePacket worker.onConnect.transport packet surroundings).complete ≠ none) :
    Change worker event
      ((worker'.setPhase (.reading timedOut cancel)).dispatch message capabilities path) := by
  rw [setPhase_nil worker' hactivations]
  refine .push ?_ hprocessing rfl (Or.inl ⟨hbefore, hactivations⟩) hdispatched ?_ rfl ?_ ?_
    (exists_sent messages) ?_ ?_ hcompletes hstop rfl
  · refine ⟨fun hactive' ↦ ?_, fun _ ↦ congrArg (· + 1) hgeneration, fun _ ↦ hconnected⟩
    exact absurd (hactive.symm.trans hactive') Bool.false_ne_true
  · exact congrArg (· + 1) hgeneration
  · exact ⟨count_interaction_messageControlPoints _ _ _, fun hrunning ↦ absurd rfl hrunning⟩
  · show worker'.log ++ [Occurrence.dispatched worker'.dispatched] = _
    rw [hlog, hdispatched]
  · show worker'.dispatched + 1 = _
    rw [hdispatched]
  · unfold Worker.phase
    rw [hbefore]
    exact hreading

theorem change_main_readPacket {timedOut cancel : Bool} {packet : Bytes}
    {surroundings : Surroundings} {path : HandlerPath} (hreading : worker.mainPhase.isReading = true)
    (hevent : event = .packet packet surroundings path) :
    Change worker event (worker.readPacket timedOut cancel packet surroundings path) := by
  have hprocessing := h.idle_of_nil hbefore
  obtain ⟨hconnect, hsession, hsame, -⟩ := h.onConnect_eq
  rw [hprocessing] at hsame
  have heffect := (hsession.idleSession hsame).handlePacket_cases packet surroundings
  have hlog (cause : AbortCause) := setTransport_log_kept worker.onConnect cause
    (fun hprocessing' ↦ absurd hprocessing' (by simp [hsame]) : worker.onConnect.transport.processing =
      true → (handlePacket worker.onConnect.transport packet surroundings).transport.processing =
      true)
  have hlog' : worker.onConnect.log = worker.log := by rw [hconnect]
  have hactivations : worker.onConnect.activations = [] := by rw [hconnect, hbefore]
  have hdispatched : worker.onConnect.dispatched = worker.dispatched := by rw [hconnect]
  have hconnected : worker.onConnect.connected = true := by rw [hconnect]
  unfold Worker.readPacket
  by_cases hstop : worker.stopRequested = true
  · rw [if_pos hstop, setPhase_nil worker.requestCancel hbefore]
    exact change_main_silent hbefore (h.toSessionOrderly.of_same rfl rfl rfl rfl) hprocessing rfl rfl
      rfl
  · rw [if_neg hstop]
    dsimp only
    rw [setTransport_eq, hlog, hlog']
    split
    · exact change_main_packetHandled hbefore
        (sessionOrderly_of_idle heffect.processing heffect.assembling) heffect.processing
        hactivations rfl hdispatched
    · rename_i message hcomplete
      have hne : (handlePacket worker.onConnect.transport packet surroundings).complete ≠ none := by
        simp [hcomplete]
      rw [Bool.not_eq_true] at hstop
      exact change_main_dispatch hbefore hreading hstop hprocessing (heffect.complete hne).2
        (heffect.complete hne).1 hconnected hactivations rfl hdispatched
        ⟨packet, surroundings, path, hevent, hne⟩

theorem change_stepMain : Change worker event (stepMain worker worker.mainPhase event) := by
  have hprocessing := h.idle_of_nil hbefore
  unfold stepMain
  split
  · rename_i flags _
    split_ifs
    · exact change_main_phase h hbefore _
    · obtain ⟨hsession, hidle, hactivations, hlog, hdispatched⟩ :=
        h.handleWorkerFlags_idle hprocessing flags
      rw [setPhase_nil _ (hactivations.trans hbefore)]
      exact change_main_silent hbefore (hsession.of_same rfl rfl rfl rfl) hidle hactivations hlog
        hdispatched
  · rw [setPhase_nil worker hbefore]
    exact change_main_phase h hbefore _
  · exact change_main_phase h hbefore _
  · rename_i hphase
    refine change_main_readPacket h hbefore ?_ rfl
    rw [hphase]
    rfl
  · unfold Worker.readNothing
    dsimp only
    split_ifs
    · rw [setPhase_nil worker.requestCancel hbefore]
      exact change_main_silent hbefore (h.toSessionOrderly.of_same rfl rfl rfl rfl) hprocessing rfl
        rfl rfl
    · rw [setPhase_nil worker hbefore]
      exact change_main_phase h hbefore _
  · rename_i now _
    split_ifs
    · exact change_main_phase h hbefore _
    · have htick := h.toSessionOrderly.sessionOrderly_tick now
      have heq := h.toSessionOrderly.tick_eq now
      have hactivations : (worker.tick now).activations = [] := by rw [heq, hbefore]
      have hdispatched : (worker.tick now).dispatched = worker.dispatched := by rw [heq]
      rw [setPhase_nil _ hactivations]
      exact .main (htick.1.of_same rfl rfl rfl rfl) (htick.2.trans hprocessing) hbefore hactivations
        (congrArg Worker.log heq) (exists_sent _) hdispatched
  · exact change_main_silent hbefore h.toSessionOrderly hprocessing rfl rfl rfl

end Main

section Step

theorem change_stepHandler (h : Orderly worker) (hbefore : worker.activations = top :: below) :
    Change worker event (stepHandler worker top below top.phase event) := by
  unfold stepHandler
  split
  · rename_i hphase
    exact change_runHandler h hbefore hphase
  · rename_i accepted hphase
    exact change_skipInteraction h hbefore accepted
  · rename_i result hphase
    exact change_finishHandler h hbefore hphase result
  · rename_i packet surroundings path hphase
    exact change_drainPacket h hbefore hphase packet surroundings
  · rename_i now hphase
    exact change_drainNothing h hbefore now
  · rename_i now hphase
    exact change_wakeWait h hbefore hphase
  · rename_i flags hphase
    split_ifs
    · refine .advance (h.toSessionOrderly.of_same rfl rfl rfl rfl) rfl hbefore rfl ?_ rfl ?_ rfl
        (fun hwaits ↦ Bool.noConfusion hwaits) fun hdraining ↦ Phase.noConfusion hdraining
      · refine ⟨rfl, rfl, fun hwaits ↦ Bool.noConfusion hwaits, ?_⟩
        exact asksOnce_of_remaining (List.nil_sublist _) (Or.inl rfl)
      · intro occurrence hmem
        obtain rfl := List.mem_singleton.mp hmem
        rfl
    · exact change_wake h hbefore hphase flags
  · rename_i hphase
    rw [setPhase_cons worker hbefore]
    exact change_wait_silent h hbefore _ (by rw [hphase]; rfl) rfl
  · exact change_waitFailed h hbefore
  · rename_i timedOut cancel packet surroundings path hphase
    exact change_readPacket h hbefore rfl hphase
  · rename_i timedOut cancel now hphase
    exact change_readNothing h hbefore hphase
  · rename_i timedOut now hphase
    exact change_endWaitIteration h hbefore hphase now
  · rename_i now hphase
    exact change_reportWait h hbefore hphase
  · exact change_endInteraction h hbefore
  · exact .external h.toSessionOrderly rfl rfl rfl rfl id

/-- The thread of the worker takes the step when no handler runs. -/
theorem step_eq_stepMain (hbefore : worker.activations = [])
    (hanswer : ∀ answer, event ≠ .answer answer) (hstop : event ≠ .stop) :
    step worker event = stepMain worker worker.mainPhase event := by
  cases event with
  | answer answer => exact absurd rfl (hanswer answer)
  | stop => exact absurd rfl hstop
  | _ => simp only [step, hbefore]

/-- A handler that runs takes the step. -/
theorem step_eq_stepHandler (hbefore : worker.activations = top :: below)
    (hanswer : ∀ answer, event ≠ .answer answer) (hstop : event ≠ .stop) :
    step worker event = stepHandler worker top below top.phase event := by
  cases event with
  | answer answer => exact absurd rfl (hanswer answer)
  | stop => exact absurd rfl hstop
  | _ => simp only [step, hbefore]

/-- A step of the system makes one of the changes. -/
theorem change_step (h : Orderly worker) (event : Event) :
    Change worker event (step worker event) := by
  have hworker (hanswer : ∀ answer, event ≠ .answer answer) (hstop : event ≠ .stop) :
      Change worker event (step worker event) := by
    cases hbefore : worker.activations with
    | nil =>
      rw [step_eq_stepMain hbefore hanswer hstop]
      exact change_stepMain h hbefore
    | cons top below =>
      rw [step_eq_stepHandler hbefore hanswer hstop]
      exact change_stepHandler h hbefore
  cases event with
  | answer answer =>
    refine .external (h.toSessionOrderly.of_same ?_ ?_ ?_ (finishInteraction_connected _ _)) ?_
      (finishInteraction_activations _ _) (finishInteraction_log _ _)
      (finishInteraction_dispatched _ _) (signalled_finishInteraction _ _)
    all_goals exact congrArg _ (finishInteraction_transport _ _)
  | stop =>
    exact .external (h.toSessionOrderly.of_same rfl rfl rfl rfl) rfl rfl rfl rfl fun _ ↦ Or.inr rfl
  | _ => exact hworker (by simp) (by simp)

/-- The order of the requests holds in every run. -/
theorem orderly_step (h : Orderly worker) (event : Event) : Orderly (step worker event) :=
  (change_step h event).orderly h

end Step

end ZeroFido.Usb
