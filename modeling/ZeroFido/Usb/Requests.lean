import ZeroFido.Usb.Worker

/-!
# Requests on the stack

What holds of the worker in every run (`Orderly`), and what one step can do (`Change`). While a
request is being processed its handler is the innermost one, its generation is one, and its wait
will find the semaphore as soon as the interaction is over. Handlers below the innermost one are
inside `zf_transport_handle_request`, and the request of such a handler was given up by the
transport before the next one was dispatched.

A step either belongs to another thread (`external`), or the main loop goes on (`main`), or the
innermost handler goes on (`advance`), its request is given up (`abort`), it returns (`pop`), or a
message is dispatched (`push`). `change_step` says that these are all.
-/

set_option autoImplicit false
set_option relaxedAutoImplicit false

namespace ZeroFido.Usb

open Foundations

section Orderly

/-- The loop of an approval wait, up to the semaphore. -/
def Phase.waits : Phase → Bool
  | .waking | .asleep | .reading _ _ | .checking _ => true
  | _ => false

/-- Inside `zf_transport_handle_request`. -/
def Phase.isReading : Phase → Bool
  | .reading _ _ => true
  | _ => false

/-- The handler asks the user at most once, and no more after it has begun to wait. -/
def Activation.AsksOnce (activation : Activation) : Prop :=
  activation.remaining.count .interaction ≤ 1 ∧
    (activation.phase ≠ .running → activation.phase ≠ .draining →
      .interaction ∉ activation.remaining)

/-- The processing of the request was ended from outside. -/
def WasAborted (log : List Occurrence) (number : ℕ) : Prop :=
  ∃ protocol cause, .aborted number protocol cause ∈ log

/-- The occurrence is an answer to a packet, or a step of the given request. -/
def Occurrence.Concerns (number : ℕ) : Occurrence → Prop
  | .sent _ => True
  | .keepalive other => other = number
  | .polled other _ => other = number
  | .waited other _ => other = number
  | .committed other => other = number
  | .dispatched _ => False
  | .response _ _ => False
  | .aborted _ _ _ => False

/-- The session of the worker: an assembly and a processed request exclude each other, an assembly
has generation zero, a processed request generation one and a connection. -/
structure SessionOrderly (worker : Worker) : Prop where
  assembling : worker.transport.active = true →
    worker.transport.processing = false ∧ worker.transport.processingGeneration = 0
  generation : worker.transport.processing = true → worker.transport.processingGeneration = 1
  linked : worker.transport.processing = true → worker.connected = true

/-- The interaction is open, or its end has been signalled. -/
def Worker.Signalled (worker : Worker) : Prop :=
  worker.approval = .pending ∨ worker.approvalDone = true

structure Orderly (worker : Worker) : Prop extends SessionOrderly worker where
  current : worker.transport.processing = true → ∃ top below, worker.activations = top :: below ∧
    ¬WasAborted worker.log top.number ∧ (top.phase.waits = true → worker.Signalled)
  draining : ∀ top below, worker.activations = top :: below → top.phase = .draining →
    worker.transport.processing = true
  suspended : ∀ top below, worker.activations = top :: below → ∀ activation ∈ below,
    ∃ timedOut cancel, activation.phase = .reading timedOut cancel
  member : ∀ activation ∈ worker.activations, activation.generation = 1 ∧
    activation.number < worker.dispatched ∧ activation.AsksOnce
  distinct : (worker.activations.map Activation.number).Nodup
  logged : ∀ number, WasAborted worker.log number → number < worker.dispatched

theorem orderly_initial : Orderly {} where
  assembling := by simp
  generation := by simp
  linked := by simp
  current := by simp
  draining := by simp
  suspended := by simp
  member := by simp
  distinct := by simp
  logged := by simp [WasAborted]

end Orderly

section Frames

variable (worker : Worker)

@[simp]
theorem finishInteraction_transport (state : ApprovalState) :
    (worker.finishInteraction state).transport = worker.transport := by
  unfold Worker.finishInteraction
  split_ifs <;> rfl

@[simp]
theorem finishInteraction_activations (state : ApprovalState) :
    (worker.finishInteraction state).activations = worker.activations := by
  unfold Worker.finishInteraction
  split_ifs <;> rfl

@[simp]
theorem finishInteraction_log (state : ApprovalState) :
    (worker.finishInteraction state).log = worker.log := by
  unfold Worker.finishInteraction
  split_ifs <;> rfl

@[simp]
theorem finishInteraction_dispatched (state : ApprovalState) :
    (worker.finishInteraction state).dispatched = worker.dispatched := by
  unfold Worker.finishInteraction
  split_ifs <;> rfl

@[simp]
theorem finishInteraction_connected (state : ApprovalState) :
    (worker.finishInteraction state).connected = worker.connected := by
  unfold Worker.finishInteraction
  split_ifs <;> rfl

/-- Ending the interaction signals its end. -/
theorem signalled_finishInteraction (state : ApprovalState) (h : worker.Signalled) :
    (worker.finishInteraction state).Signalled := by
  unfold Worker.finishInteraction
  split_ifs
  · exact Or.inr rfl
  · exact h

/-- An interaction that is ended by a cancellation has its end signalled, and it is approved only
if it was before. -/
theorem finishInteraction_canceled (h : worker.Signalled) :
    (worker.finishInteraction .canceled).approvalDone = true ∧
      (worker.finishInteraction .canceled).approval ≠ .pending ∧
      ((worker.finishInteraction .canceled).approval = .approved →
        worker.approval = .approved) := by
  unfold Worker.finishInteraction
  split_ifs with hpending
  · exact ⟨rfl, by simp, by simp⟩
  · exact ⟨h.resolve_left hpending, hpending, id⟩

theorem setPhase_cons {top : Activation} {below : List Activation}
    (h : worker.activations = top :: below) (phase : Phase) :
    worker.setPhase phase =
      { worker with activations := { top with phase := phase } :: below } := by
  unfold Worker.setPhase
  rw [h]

theorem setPhase_nil (h : worker.activations = []) (phase : Phase) :
    worker.setPhase phase = { worker with mainPhase := phase } := by
  unfold Worker.setPhase
  rw [h]

/-- Replacing the transport leaves everything else but the log. -/
theorem setTransport_eq (transport : TransportState) (cause : AbortCause) :
    worker.setTransport transport cause =
      { worker with
        transport := transport
        log := (worker.setTransport transport cause).log } := by
  unfold Worker.setTransport
  dsimp only
  split_ifs
  · split <;> rfl
  · rfl

theorem setTransport_log_kept {transport : TransportState} (cause : AbortCause)
    (h : worker.transport.processing = true → transport.processing = true) :
    (worker.setTransport transport cause).log = worker.log := by
  unfold Worker.setTransport
  dsimp only
  split_ifs with haborted
  · simp only [Bool.and_eq_true, Bool.not_eq_true'] at haborted
    rw [h haborted.1] at haborted
    exact absurd haborted.2 (by decide)
  · rfl

theorem setTransport_log_aborted {transport : TransportState} (cause : AbortCause)
    {top : Activation} {below : List Activation} (h : worker.activations = top :: below)
    (hprocessing : worker.transport.processing = true) (haborted : transport.processing = false) :
    (worker.setTransport transport cause).log =
      worker.log ++ [.aborted top.number top.protocol cause] := by
  unfold Worker.setTransport
  dsimp only
  rw [hprocessing, haborted]
  simp only [Bool.not_false, Bool.and_self, if_true, h]
  rfl

end Frames

section Change

/-- What the innermost handler keeps when it goes on. -/
structure Activation.Continues (top top' : Activation) : Prop where
  number : top'.number = top.number
  generation : top'.generation = top.generation
  sendKeepalive : top'.phase.waits = true → top.phase.waits = true →
    top'.sendKeepalive = top.sendKeepalive
  asksOnce : top.AsksOnce → top'.AsksOnce

/-- The packet of the event is a well-formed INIT on the current channel. -/
def ChannelInit (worker : Worker) (event : Event) : Prop :=
  ∃ packet surroundings path, event = .packet packet surroundings path ∧
    WellFormedInit packet ∧ packetCid packet = worker.transport.cid

instance (worker : Worker) (event : Event) : Decidable (ChannelInit worker event) :=
  match event with
  | .packet packet surroundings path =>
    decidable_of_iff (WellFormedInit packet ∧ packetCid packet = worker.transport.cid)
      ⟨fun h ↦ ⟨packet, surroundings, path, rfl, h⟩, by rintro ⟨_, _, _, ⟨⟩, h⟩; exact h⟩
  | .answer _ | .stop | .wake _ | .timeout | .waitError | .noPacket _ | .proceed _
  | .skipInteraction _ | .finish _ => isFalse (by rintro ⟨_, _, _, h, -⟩; exact Event.noConfusion h)

/-- Where an abort leaves the handler: with only its return before it; or at the end of the
iteration that read the INIT packet; or in `zf_transport_handle_request` after the connection was
lost. In the last two the end of the interaction is signalled. -/
inductive AbortPlace (worker worker' : Worker) (event : Event) (cause : AbortCause)
    (top top' : Activation) : Prop
  | returning (phase : top'.phase = .running) (remaining : top'.remaining = [])
  | checking (timedOut cancel : Bool) (phase : top.phase = .reading timedOut cancel)
      (phase' : top'.phase = .checking timedOut) (remaining : top'.remaining = top.remaining)
      (sendKeepalive : top'.sendKeepalive = top.sendKeepalive)
      (done : worker'.approvalDone = true) (approval : worker'.approval ≠ .pending)
      (approved : worker'.approval = .approved → worker.approval = .approved)
      (init : worker'.transport.processingCancelRequested = true ∨ ChannelInit worker event)
  | reading (cause_eq : cause = .connection) (phase' : top'.phase = .reading false false)
      (remaining : top'.remaining = top.remaining) (done : worker'.approvalDone = true)
      (disconnected : worker'.connected = false)

/-- One step of the worker. -/
inductive Change (worker : Worker) (event : Event) : Worker → Prop
  | external {worker' : Worker} (session : SessionOrderly worker')
      (processing : worker'.transport.processing = worker.transport.processing)
      (activations : worker'.activations = worker.activations) (log : worker'.log = worker.log)
      (dispatched : worker'.dispatched = worker.dispatched)
      (signalled : worker.Signalled → worker'.Signalled) : Change worker event worker'
  | main {worker' : Worker} {occurrences : List Occurrence} (session : SessionOrderly worker')
      (processing : worker'.transport.processing = false)
      (before : worker.activations = []) (after : worker'.activations = [])
      (log : worker'.log = worker.log ++ occurrences)
      (sent : ∀ occurrence ∈ occurrences, ∃ message, occurrence = .sent message)
      (dispatched : worker'.dispatched = worker.dispatched) : Change worker event worker'
  | advance {worker' : Worker} {top top' : Activation} {below : List Activation}
      {occurrences : List Occurrence} (session : SessionOrderly worker')
      (processing : worker'.transport.processing = worker.transport.processing)
      (before : worker.activations = top :: below) (after : worker'.activations = top' :: below)
      (continues : top.Continues top') (log : worker'.log = worker.log ++ occurrences)
      (concerns : ∀ occurrence ∈ occurrences, occurrence.Concerns top.number)
      (dispatched : worker'.dispatched = worker.dispatched)
      (signalled : top'.phase.waits = true → worker.transport.processing = true →
        worker'.Signalled)
      (draining : top'.phase = .draining → worker'.transport.processing = true) :
      Change worker event worker'
  | abort {worker' : Worker} {top top' : Activation} {below : List Activation}
      {cause : AbortCause} {occurrences : List Occurrence} (session : SessionOrderly worker')
      (processing : worker.transport.processing = true)
      (processing' : worker'.transport.processing = false)
      (generation : worker'.transport.processingGeneration ≠ 1)
      (before : worker.activations = top :: below) (after : worker'.activations = top' :: below)
      (continues : top.Continues top')
      (log : worker'.log = worker.log ++ .aborted top.number top.protocol cause :: occurrences)
      (concerns : ∀ occurrence ∈ occurrences, (∃ message, occurrence = .sent message) ∨
        occurrence = .polled top.number .keepaliveCancel)
      (dispatched : worker'.dispatched = worker.dispatched)
      (place : AbortPlace worker worker' event cause top top') : Change worker event worker'
  | push {worker' : Worker} {top' : Activation} {rest : List Activation}
      {occurrences : List Occurrence} (session : SessionOrderly worker')
      (processing : worker.transport.processing = false)
      (after : worker'.activations = top' :: rest)
      (rest_eq : worker.activations = [] ∧ rest = [] ∨
        ∃ top below timedOut cancel cancel', worker.activations = top :: below ∧
          top.phase = .reading timedOut cancel ∧
          rest = { top with phase := .reading timedOut cancel' } :: below)
      (number : top'.number = worker.dispatched) (generation : top'.generation = 1)
      (phase : top'.phase = .running) (asksOnce : top'.AsksOnce)
      (log : worker'.log = worker.log ++ occurrences ++ [.dispatched worker.dispatched])
      (sent : ∀ occurrence ∈ occurrences, ∃ message, occurrence = .sent message)
      (dispatched : worker'.dispatched = worker.dispatched + 1)
      (reading : worker.phase.isReading = true)
      (completes : ∃ packet surroundings path, event = .packet packet surroundings path ∧
        (handlePacket worker.onConnect.transport packet surroundings).complete ≠ none)
      (goesOn : worker.stopRequested = false) (serving : worker'.transport.processing = true) :
      Change worker event worker'
  | pop {worker' : Worker} {top : Activation} {below : List Activation}
      {occurrences : List Occurrence} (session : SessionOrderly worker')
      (processing : worker'.transport.processing = false)
      (before : worker.activations = top :: below) (phase : top.phase = .running)
      (after : worker'.activations = below ∨ ∃ next deeper timedOut cancel phase,
        below = next :: deeper ∧ next.phase = .reading timedOut cancel ∧
        worker'.activations = { next with phase := phase } :: deeper ∧
        (phase = .checking timedOut ∨ phase = .reading timedOut cancel))
      (log : worker'.log = worker.log ++ occurrences)
      (response : occurrences = [] ∨ ∃ message, occurrences = [.response top.number message] ∧
        top.generation = worker.transport.processingGeneration)
      (dispatched : worker'.dispatched = worker.dispatched) : Change worker event worker'

variable {worker worker' : Worker} {event : Event}

/-- A step of the innermost handler that reports nothing. -/
theorem Change.advance_silent {top top' : Activation} {below : List Activation}
    (session : SessionOrderly worker')
    (processing : worker'.transport.processing = worker.transport.processing)
    (before : worker.activations = top :: below) (after : worker'.activations = top' :: below)
    (continues : top.Continues top') (log : worker'.log = worker.log)
    (dispatched : worker'.dispatched = worker.dispatched)
    (signalled : top'.phase.waits = true → worker.transport.processing = true → worker'.Signalled)
    (draining : top'.phase = .draining → worker'.transport.processing = true) :
    Change worker event worker' := by
  have hlog : worker'.log = worker.log ++ [] := by rw [log, List.append_nil]
  refine .advance session processing before after continues hlog ?_ dispatched signalled draining
  exact fun occurrence hmem ↦ absurd hmem List.not_mem_nil

/-- An abort is recorded only by a step that says so. -/
theorem wasAborted_append {log occurrences : List Occurrence} {number : ℕ}
    (h : ∀ occurrence ∈ occurrences, ∀ protocol cause,
      occurrence ≠ .aborted number protocol cause) :
    WasAborted (log ++ occurrences) number ↔ WasAborted log number := by
  constructor
  · intro ⟨protocol, cause, hmem⟩
    rcases List.mem_append.mp hmem with hmem | hmem
    · exact ⟨protocol, cause, hmem⟩
    · exact absurd rfl (h _ hmem protocol cause)
  · intro ⟨protocol, cause, hmem⟩
    exact ⟨protocol, cause, List.mem_append_left _ hmem⟩

theorem Occurrence.Concerns.ne_aborted {number other : ℕ} {occurrence : Occurrence}
    (h : occurrence.Concerns number) (protocol : ProtocolKind) (cause : AbortCause) :
    occurrence ≠ .aborted other protocol cause := by
  rintro rfl
  exact h

/-- The invariants about the stack and the log after a step that keeps both. -/
theorem Orderly.of_external (h : Orderly worker) (session : SessionOrderly worker')
    (processing : worker'.transport.processing = worker.transport.processing)
    (activations : worker'.activations = worker.activations) (log : worker'.log = worker.log)
    (dispatched : worker'.dispatched = worker.dispatched)
    (signalled : worker.Signalled → worker'.Signalled) : Orderly worker' where
  toSessionOrderly := session
  current := by
    rw [processing, activations, log]
    intro hprocessing
    obtain ⟨top, below, hactivations, habort, hwaits⟩ := h.current hprocessing
    exact ⟨top, below, hactivations, habort, fun hphase ↦ signalled (hwaits hphase)⟩
  draining := by rw [processing, activations]; exact h.draining
  suspended := by rw [activations]; exact h.suspended
  member := by rw [activations, dispatched]; exact h.member
  distinct := by rw [activations]; exact h.distinct
  logged := by rw [log, dispatched]; exact h.logged

/-- The innermost handler goes on. -/
theorem Orderly.of_advance (h : Orderly worker) {top top' : Activation} {below : List Activation}
    {occurrences : List Occurrence} (session : SessionOrderly worker')
    (before : worker.activations = top :: below) (after : worker'.activations = top' :: below)
    (continues : top.Continues top') (log : worker'.log = worker.log ++ occurrences)
    (habort : ∀ occurrence ∈ occurrences, ∀ number protocol cause,
      occurrence = .aborted number protocol cause →
        number = top.number ∧ worker'.transport.processing = false)
    (dispatched : worker'.dispatched = worker.dispatched)
    (processing : worker'.transport.processing = true → worker.transport.processing = true)
    (signalled : top'.phase.waits = true → worker'.transport.processing = true →
      worker'.Signalled)
    (draining : top'.phase = .draining → worker'.transport.processing = true) :
    Orderly worker' where
  toSessionOrderly := session
  current := by
    intro hprocessing
    obtain ⟨_, _, hactivations, hclean, -⟩ := h.current (processing hprocessing)
    obtain ⟨rfl, rfl⟩ := List.cons_eq_cons.mp (before.symm.trans hactivations)
    refine ⟨top', below, after, ?_, fun hphase ↦ signalled hphase hprocessing⟩
    rw [log, continues.number, wasAborted_append]
    · exact hclean
    · intro occurrence hmem protocol cause hoccurrence
      rw [(habort occurrence hmem _ protocol cause hoccurrence).2] at hprocessing
      exact Bool.false_ne_true hprocessing
  draining := by
    intro first rest hactivations
    obtain ⟨rfl, -⟩ := List.cons_eq_cons.mp (after.symm.trans hactivations)
    exact draining
  suspended := by
    intro first rest hactivations
    obtain ⟨-, rfl⟩ := List.cons_eq_cons.mp (after.symm.trans hactivations)
    exact h.suspended top below before
  member := by
    intro activation hmem
    rw [after, List.mem_cons] at hmem
    rw [dispatched]
    rcases hmem with rfl | hmem
    · obtain ⟨hgeneration, hnumber, hasks⟩ := h.member top (by simp [before])
      exact ⟨continues.generation.trans hgeneration, continues.number ▸ hnumber,
        continues.asksOnce hasks⟩
    · exact h.member activation (by simp [before, hmem])
  distinct := by
    have hdistinct := h.distinct
    rw [before] at hdistinct
    rw [after]
    simpa only [List.map_cons, continues.number] using hdistinct
  logged := by
    intro number hnumber
    rw [dispatched]
    obtain ⟨protocol, cause, hmem⟩ := hnumber
    rw [log] at hmem
    rcases List.mem_append.mp hmem with hmem | hmem
    · exact h.logged number ⟨protocol, cause, hmem⟩
    · rw [(habort _ hmem number protocol cause rfl).1]
      exact (h.member top (by simp [before])).2.1

/-- Every step keeps the order of the requests. -/
theorem Change.orderly (h : Orderly worker) (hchange : Change worker event worker') :
    Orderly worker' := by
  cases hchange with
  | external session processing activations log dispatched signalled =>
    exact h.of_external session processing activations log dispatched signalled
  | main session processing before after log sent dispatched =>
    refine ⟨session, ?_, ?_, ?_, ?_, ?_, ?_⟩
    · simp [processing]
    · simp [after]
    · simp [after]
    · simp [after]
    · simp [after]
    · intro number hnumber
      rw [dispatched]
      rw [log, wasAborted_append] at hnumber
      · exact h.logged number hnumber
      · intro occurrence hmem protocol cause
        obtain ⟨message, rfl⟩ := sent occurrence hmem
        exact Occurrence.noConfusion
  | advance session processing before after continues log concerns dispatched signalled draining =>
    refine h.of_advance session before after continues log ?_ dispatched ?_ ?_ draining
    · intro occurrence hmem number protocol cause hoccurrence
      exact absurd hoccurrence ((concerns occurrence hmem).ne_aborted protocol cause)
    · rw [processing]
      exact id
    · intro hphase hprocessing
      exact signalled hphase (processing ▸ hprocessing)
  | @abort top top' below cause occurrences session processing processing' generation before after
      continues log concerns dispatched place =>
    refine h.of_advance session before after continues log ?_ dispatched ?_ ?_ ?_
    · intro occurrence hmem number protocol found hoccurrence
      rcases List.mem_cons.mp hmem with rfl | hmem
      · exact ⟨(Occurrence.aborted.inj hoccurrence).1.symm, processing'⟩
      · rcases concerns occurrence hmem with ⟨message, rfl⟩ | rfl
        · exact Occurrence.noConfusion hoccurrence
        · exact Occurrence.noConfusion hoccurrence
    · simp [processing']
    · simp [processing']
    · intro hdraining
      cases place with
      | returning phase => simp [phase] at hdraining
      | checking _ _ _ phase' => simp [phase'] at hdraining
      | reading _ phase' => simp [phase'] at hdraining
  | @push top' rest occurrences session processing after rest_eq number generation phase asksOnce
      log sent dispatched reading completes =>
    have hrest : ∀ activation ∈ rest, (∃ timedOut cancel,
        activation.phase = .reading timedOut cancel) ∧ activation.generation = 1 ∧
        activation.number < worker.dispatched ∧ activation.AsksOnce := by
      intro activation hmem
      rcases rest_eq with ⟨-, rfl⟩ | ⟨top, below, timedOut, cancel, cancel', before, htop, rfl⟩
      · exact absurd hmem List.not_mem_nil
      · rcases List.mem_cons.mp hmem with rfl | hmem
        · obtain ⟨hgeneration, hnumber, hasks⟩ := h.member top (by simp [before])
          refine ⟨⟨timedOut, cancel', rfl⟩, hgeneration, hnumber, hasks.1, fun _ _ ↦ hasks.2 ?_ ?_⟩
          · simp [htop]
          · simp [htop]
        · exact ⟨h.suspended top below before activation hmem,
            h.member activation (by simp [before, hmem])⟩
    have hnumbers : rest.map Activation.number = worker.activations.map Activation.number := by
      rcases rest_eq with ⟨before, rfl⟩ | ⟨top, below, timedOut, cancel, cancel', before, htop, rfl⟩
      · rw [before]
      · simp [before]
    have haborted (found : ℕ) : WasAborted worker'.log found ↔ WasAborted worker.log found := by
      rw [log, List.append_assoc, wasAborted_append]
      intro occurrence hmem protocol cause
      rcases List.mem_append.mp hmem with hmem | hmem
      · obtain ⟨message, rfl⟩ := sent occurrence hmem
        exact Occurrence.noConfusion
      · obtain rfl := List.mem_singleton.mp hmem
        exact Occurrence.noConfusion
    refine ⟨session, ?_, ?_, ?_, ?_, ?_, ?_⟩
    · intro _
      refine ⟨top', rest, after, ?_, by simp [phase, Phase.waits]⟩
      rw [haborted, number]
      intro hnumber
      exact absurd (h.logged _ hnumber) (lt_irrefl _)
    · intro first others hactivations
      obtain ⟨rfl, -⟩ := List.cons_eq_cons.mp (after.symm.trans hactivations)
      simp [phase]
    · intro first others hactivations activation hmem
      obtain ⟨-, rfl⟩ := List.cons_eq_cons.mp (after.symm.trans hactivations)
      exact (hrest activation hmem).1
    · intro activation hmem
      rw [after, List.mem_cons] at hmem
      rw [dispatched]
      rcases hmem with rfl | hmem
      · exact ⟨generation, by omega, asksOnce⟩
      · obtain ⟨-, hgeneration, hnumber, hasks⟩ := hrest activation hmem
        exact ⟨hgeneration, by omega, hasks⟩
    · rw [after, List.map_cons, List.nodup_cons, hnumbers]
      refine ⟨fun hmem ↦ ?_, h.distinct⟩
      obtain ⟨activation, hactivation, heq⟩ := List.mem_map.mp hmem
      have hlt := (h.member activation hactivation).2.1
      omega
    · intro found hfound
      rw [dispatched]
      exact Nat.lt_succ_of_lt (h.logged found ((haborted found).mp hfound))
  | @pop top below occurrences session processing before phase after log response dispatched =>
    have haborted (found : ℕ) : WasAborted worker'.log found ↔ WasAborted worker.log found := by
      rw [log, wasAborted_append]
      intro occurrence hmem protocol cause
      rcases response with rfl | ⟨message, rfl, -⟩
      · exact absurd hmem List.not_mem_nil
      · obtain rfl := List.mem_singleton.mp hmem
        exact Occurrence.noConfusion
    have hbelow := h.suspended top below before
    have hmember : ∀ activation ∈ below, activation.generation = 1 ∧
        activation.number < worker.dispatched ∧ activation.AsksOnce :=
      fun activation hmem ↦ h.member activation (by simp [before, hmem])
    have hdistinct : (below.map Activation.number).Nodup := by
      have hall := h.distinct
      rw [before, List.map_cons, List.nodup_cons] at hall
      exact hall.2
    have hlogged : ∀ found, WasAborted worker'.log found → found < worker'.dispatched := by
      intro found hfound
      rw [dispatched]
      exact h.logged found ((haborted found).mp hfound)
    rcases after with after | ⟨next, deeper, timedOut, cancel, phase', rfl, hnext, after, hphase'⟩
    · refine ⟨session, by simp [processing], ?_, ?_, ?_, ?_, hlogged⟩
      · intro first others hactivations hdraining
        obtain ⟨_, _, hreading⟩ := hbelow first (by rw [← after, hactivations]; simp)
        simp [hdraining] at hreading
      · intro first others hactivations activation hmem
        exact hbelow activation (by rw [← after, hactivations]; simp [hmem])
      · rw [after, dispatched]
        exact hmember
      · rw [after]
        exact hdistinct
    · have hplace : phase' ≠ .running ∧ phase' ≠ .draining := by
        rcases hphase' with rfl | rfl <;> exact ⟨Phase.noConfusion, Phase.noConfusion⟩
      refine ⟨session, by simp [processing], ?_, ?_, ?_, ?_, hlogged⟩
      · intro first others hactivations hdraining
        obtain ⟨rfl, -⟩ := List.cons_eq_cons.mp (after.symm.trans hactivations)
        exact absurd hdraining hplace.2
      · intro first others hactivations activation hmem
        obtain ⟨-, rfl⟩ := List.cons_eq_cons.mp (after.symm.trans hactivations)
        exact hbelow activation (List.mem_cons_of_mem _ hmem)
      · intro activation hmem
        rw [after, List.mem_cons] at hmem
        rw [dispatched]
        rcases hmem with rfl | hmem
        · obtain ⟨hgeneration, hnumber, hasks⟩ := hmember next List.mem_cons_self
          refine ⟨hgeneration, hnumber, hasks.1, fun _ _ ↦ hasks.2 ?_ ?_⟩
          · simp [hnext]
          · simp [hnext]
        · exact hmember activation (List.mem_cons_of_mem _ hmem)
      · rw [after]
        simpa using hdistinct

end Change

end ZeroFido.Usb
