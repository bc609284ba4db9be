import ZeroFido.Usb.Abort

/-!
# Late output of an aborted request

A request that is aborted, by INIT or by a lost connection, should send no further frame. Its
handler is still on the stack, and the dispatcher drops its response because the generation has
moved on (`finishHandler`). `Silent` says what is needed for that: the generation is not the
handler's, the end of its interaction is signalled so that its wait sends no keepalive, and it asks
the user no more.

Two things break it. Well-formed INIT on the request's own channel that is read after the keepalive
interval has elapsed is followed by the keepalive of that iteration (`keepalive_after_init`). And
every message is dispatched at generation one, so a message that is dispatched while an aborted
handler is still on the stack, which a lost connection makes possible, gives the generation back to
that handler (`pingAfterDisconnect`). In every run without these two, late output is discarded
(`late_output_discarded`).
-/

set_option autoImplicit false
set_option relaxedAutoImplicit false

namespace ZeroFido.Usb

open Foundations

section Statement

/-- After a request was aborted, none of its frames is sent. -/
def LateOutputDiscarded (before : List Occurrence) (occurrence : Occurrence) : Prop :=
  ∀ number, WasAborted before number →
    occurrence ≠ .keepalive number ∧ ∀ message, occurrence ≠ .response number message

/-- The packet of the event completes a message in `zf_transport_handle_request`. -/
def completesMessage (worker : Worker) : Event → Bool
  | .packet packet surroundings _ => worker.phase.isReading &&
      (handlePacket worker.onConnect.transport packet surroundings).complete.isSome
  | _ => false

/-- The innermost handler sends keepalives, and its wait has just timed out. -/
def keepaliveDue (worker : Worker) : Bool :=
  match worker.activations with
  | [] => false
  | top :: _ => top.sendKeepalive &&
      match top.phase with
      | .reading timedOut _ => timedOut
      | _ => false

/-- Well-formed INIT on the channel of the request that is being processed is not read when a
keepalive is due, and no message is completed while a handler is on the stack. -/
def CleanInterruption (worker : Worker) (event : Event) : Prop :=
  (ChannelInit worker event → worker.transport.processing = true → keepaliveDue worker = false) ∧
    (completesMessage worker event = true → worker.activations = [])

instance (worker : Worker) (event : Event) : Decidable (CleanInterruption worker event) :=
  inferInstanceAs (Decidable ((_ → _ → _) ∧ (_ → _)))

end Statement

section Silent

/-- The innermost handler sends no further frame. -/
structure Silent (worker : Worker) (top : Activation) : Prop where
  generation : worker.transport.processingGeneration ≠ 1
  processing : worker.transport.processing = false
  asksNoMore : .interaction ∉ top.remaining
  place : match top.phase with
    | .running => True
    | .waking => worker.approvalDone = true
    | .reading timedOut _ => timedOut = false ∧ worker.approvalDone = true
    | .checking timedOut => worker.transport.processingCancelRequested = true ∨
        worker.approvalDone = true ∧ (timedOut = false ∨ top.sendKeepalive = false)
    | .signalled => True
    | .answered => True
    | _ => False

/-- An occurrence that is no frame of a request and no abort. -/
def Occurrence.Unsent : Occurrence → Prop
  | .sent _ => True
  | .polled _ _ => True
  | .waited _ _ => True
  | .committed _ => True
  | _ => False

/-- What a step does to a silent handler: it stays silent, or it returns and its response is
dropped. -/
inductive SilentStep (worker : Worker) (top : Activation) : Worker → Prop
  | stays {worker' : Worker} {top' : Activation} {occurrences : List Occurrence}
      (after : worker'.activations = [top']) (number : top'.number = top.number)
      (silent : Silent worker' top') (log : worker'.log = worker.log ++ occurrences)
      (unsent : ∀ occurrence ∈ occurrences, occurrence.Unsent) : SilentStep worker top worker'
  | returns {worker' : Worker} (after : worker'.activations = [])
      (log : worker'.log = worker.log) : SilentStep worker top worker'

variable {worker : Worker} {top : Activation}

/-- A step of a silent handler that reports nothing. -/
theorem SilentStep.quiet {worker' : Worker} {top' : Activation}
    (after : worker'.activations = [top']) (number : top'.number = top.number)
    (silent : Silent worker' top') (log : worker'.log = worker.log) :
    SilentStep worker top worker' := by
  have hlog : worker'.log = worker.log ++ [] := by rw [log, List.append_nil]
  exact .stays after number silent hlog fun occurrence hmem ↦ absurd hmem List.not_mem_nil

theorem Silent.external {worker' : Worker} (h : Silent worker top)
    (hgeneration : worker'.transport.processingGeneration = worker.transport.processingGeneration)
    (hprocessing : worker'.transport.processing = worker.transport.processing)
    (hcancel : worker.transport.processingCancelRequested = true →
      worker'.transport.processingCancelRequested = true)
    (hdone : worker.approvalDone = true → worker'.approvalDone = true) : Silent worker' top where
  generation := hgeneration ▸ h.generation
  processing := hprocessing ▸ h.processing
  asksNoMore := h.asksNoMore
  place := by
    have hplace := h.place
    split at hplace
    · trivial
    · exact hdone hplace
    · exact ⟨hplace.1, hdone hplace.2⟩
    · rcases hplace with hplace | ⟨hplace, hkeepalive⟩
      · exact Or.inl (hcancel hplace)
      · exact Or.inr ⟨hdone hplace, hkeepalive⟩
    · trivial
    · trivial
    · exact hplace

/-- The handler goes on after a control point that is behind it. -/
theorem Silent.running (h : Silent worker top) {worker' : Worker} {remaining : List ControlPoint}
    (hgeneration : worker'.transport.processingGeneration = worker.transport.processingGeneration)
    (hprocessing : worker'.transport.processing = worker.transport.processing)
    (hremaining : remaining.Sublist top.remaining) :
    Silent worker' { top with remaining := remaining, phase := .running } where
  generation := hgeneration ▸ h.generation
  processing := hprocessing ▸ h.processing
  asksNoMore := fun hmem ↦ h.asksNoMore (hremaining.subset hmem)
  place := trivial

/-- The tick leaves the generation, or sets it to zero. -/
theorem tick_generation_ne (worker : Worker) (hgeneration : worker.transport.processingGeneration ≠ 1)
    (now : UInt32) : (worker.tick now).transport.processingGeneration ≠ 1 := by
  have htransport : (worker.tick now).transport = (sessionTick worker.transport now).transport := by
    unfold Worker.tick Worker.record
    dsimp only
    rw [setTransport_eq]
  rw [htransport]
  rcases sessionTick_cases worker.transport now with hsame | ⟨-, hsame⟩
  · rw [hsame.generation]
    exact hgeneration
  · rw [hsame.generation]
    show (0 : UInt32) ≠ 1
    decide

variable (h : Orderly worker) (hbefore : worker.activations = [top]) (hsilent : Silent worker top)
include h hbefore hsilent

omit h hbefore in
theorem silentStep_runHandler (hsame : SilentStep worker top worker) :
    SilentStep worker top (runHandler worker top []) := by
  unfold runHandler
  split
  · exact hsame
  · rename_i rest hremaining
    have hrest : rest.Sublist top.remaining := by
      rw [hremaining]
      exact List.sublist_cons_self _ _
    unfold beginPoll
    rw [hsilent.processing]
    refine .stays rfl rfl (hsilent.running rfl rfl hrest) rfl fun occurrence hmem ↦ ?_
    rw [List.mem_singleton.mp hmem]
    trivial
  · rename_i rest hremaining
    exact absurd (by simp [hremaining]) hsilent.asksNoMore
  · rename_i rest hremaining
    have hrest : rest.Sublist top.remaining := by
      rw [hremaining]
      exact List.sublist_cons_self _ _
    refine .stays rfl rfl (hsilent.running rfl rfl hrest) rfl fun occurrence hmem ↦ ?_
    rw [List.mem_singleton.mp hmem]
    trivial

omit hsilent in
/-- The response of a silent handler is dropped. -/
theorem silentStep_finishHandler (hsilent : Silent worker top) (result : DispatchResult) :
    SilentStep worker top (finishHandler worker top [] result) := by
  have hgeneration : top.generation ≠ worker.transport.processingGeneration := by
    rw [(h.member top (by simp [hbefore])).1]
    exact hsilent.generation.symm
  unfold finishHandler
  rw [if_pos hgeneration]
  unfold popHandler
  dsimp only
  split
  · rw [packetHandled_eq, setPhase_nil _ (applyActions_activations _ _)]
    exact .returns (applyActions_activations _ _) (applyActions_log _ _)
  · exact .returns rfl rfl

omit hbefore in
theorem silentStep_endWaitIteration {timedOut : Bool} (hphase : top.phase = .checking timedOut)
    (now : UInt32) : SilentStep worker top (endWaitIteration worker top [] timedOut now) := by
  have hplace := hsilent.place
  rw [hphase] at hplace
  unfold endWaitIteration
  by_cases hstop : (worker.stopRequested || worker.transport.processingCancelRequested) = true
  · rw [if_pos hstop]
    refine .stays rfl rfl (hsilent.running rfl rfl (List.nil_sublist _)) rfl fun occurrence hmem ↦ ?_
    rw [List.mem_singleton.mp hmem]
    trivial
  · rw [if_neg hstop]
    simp only [Bool.or_eq_true, not_or, Bool.not_eq_true] at hstop
    obtain ⟨hdone, hquiet⟩ := hplace.resolve_left (by simp [hstop.2])
    have hkeepalive : (timedOut && top.sendKeepalive) = false := by
      rcases hquiet with hquiet | hquiet
      · rw [hquiet, Bool.false_and]
      · rw [hquiet, Bool.and_false]
    dsimp only
    rw [hkeepalive, if_neg Bool.false_ne_true]
    have hsession : SessionOrderly (withTop worker [] { top with phase := .waking }) :=
      h.toSessionOrderly.of_same rfl rfl rfl rfl
    have hgeneration : ((withTop worker [] { top with
        phase := .waking }).tick now).transport.processingGeneration ≠ 1 := by
      refine tick_generation_ne _ ?_ now
      exact hsilent.generation
    have hprocessing := (hsession.sessionOrderly_tick now).2
    rw [hsession.tick_eq now] at hgeneration hprocessing ⊢
    refine .stays rfl rfl ⟨hgeneration, hprocessing.trans hsilent.processing, hsilent.asksNoMore,
      hdone⟩ rfl fun occurrence hmem ↦ ?_
    obtain ⟨message, rfl⟩ := exists_sent _ occurrence hmem
    trivial

/-- A packet read by a silent handler that does not complete a message. -/
theorem silentStep_readPacket {cancel : Bool} (hdone : worker.approvalDone = true) (packet : Bytes) (surroundings : Surroundings)
    (path : HandlerPath)
    (hcomplete : (handlePacket worker.onConnect.transport packet surroundings).complete = none) :
    SilentStep worker top (worker.readPacket false cancel packet surroundings path) := by
  have hdone' (worker' : Worker) (cancel : Bool) (hworker' : worker'.approvalDone = true) :
      (worker'.applyActions cancel).approvalDone = true := by
    unfold Worker.applyActions Worker.finishInteraction
    split_ifs
    · rfl
    · exact hworker'
    · exact hworker'
  unfold Worker.readPacket
  by_cases hstop : worker.stopRequested = true
  · rw [if_pos hstop, setPhase_cons worker.requestCancel hbefore]
    exact .quiet rfl rfl ⟨hsilent.generation, hsilent.processing, hsilent.asksNoMore, Or.inl rfl⟩ rfl
  · rw [if_neg hstop]
    dsimp only
    obtain ⟨hconnect, hsession, hsame, -⟩ := h.onConnect_eq
    rw [hsilent.processing] at hsame
    have heffect := (hsession.idleSession hsame).handlePacket_cases packet surroundings
    have hgeneration : worker.onConnect.transport.processingGeneration ≠ 1 := by
      unfold Worker.onConnect
      split_ifs
      · exact hsilent.generation
      · rw [setTransport_eq]
        show (0 : UInt32) ≠ 1
        decide
    have hlog (cause : AbortCause) := setTransport_log_kept worker.onConnect cause
      (fun hprocessing' ↦ absurd hprocessing' (by simp [hsame]) :
        worker.onConnect.transport.processing = true → (handlePacket worker.onConnect.transport
          packet surroundings).transport.processing = true)
    have hlog' : worker.onConnect.log = worker.log := by rw [hconnect]
    have hactivations : worker.onConnect.activations = [top] := by rw [hconnect, hbefore]
    have happroval : worker.onConnect.approvalDone = true := by rw [hconnect, hdone]
    rw [setTransport_eq, hlog, hlog', hcomplete]
    dsimp only
    generalize hhandled : (({ worker.onConnect with
      transport := (handlePacket worker.onConnect.transport packet surroundings).transport
      log := worker.log } : Worker).record _) = handled
    have htransport : handled.transport =
        (handlePacket worker.onConnect.transport packet surroundings).transport := by
      rw [← hhandled]
      rfl
    have hstack : handled.activations = [top] := by
      rw [← hhandled]
      exact hactivations
    have hover : handled.approvalDone = true := by
      rw [← hhandled]
      exact happroval
    rw [packetHandled_eq, setPhase_cons _ ((applyActions_activations _ _).trans hstack)]
    refine .stays rfl rfl ⟨?_, ?_, hsilent.asksNoMore, ?_⟩
      ((applyActions_log _ _).trans (congrArg Worker.log hhandled.symm)) ?_
    · rw [applyActions_transport, htransport]
      rcases heffect.generation with hsame | hzero
      · rw [hsame]
        exact hgeneration
      · rw [hzero]
        decide
    · rw [applyActions_transport, htransport]
      exact heffect.processing
    · dsimp only
      cases handled.transport.active
      · exact Or.inr ⟨hdone' _ _ hover, Or.inl rfl⟩
      · exact ⟨rfl, hdone' _ _ hover⟩
    · intro occurrence hmem
      obtain ⟨message, rfl⟩ := exists_sent _ occurrence hmem
      trivial

/-- A silent handler stays silent until its response is dropped. -/
theorem silent_step (event : Event) (hcondition : CleanInterruption worker event) :
    SilentStep worker top (step worker event) := by
  have hsame : SilentStep worker top worker := .quiet hbefore rfl hsilent rfl
  have hplace := hsilent.place
  have hhandler : SilentStep worker top (stepHandler worker top [] top.phase event) := by
    cases hphase : top.phase with
    | running =>
      cases event with
      | proceed now => exact silentStep_runHandler hsilent hsame
      | skipInteraction accepted =>
        show SilentStep worker top (skipInteraction worker top [] accepted)
        unfold skipInteraction
        split
        · rename_i rest hremaining
          exact absurd (by simp [hremaining]) hsilent.asksNoMore
        · exact hsame
      | finish result => exact silentStep_finishHandler h hbefore hsilent result
      | _ => exact hsame
    | waking =>
      rw [hphase] at hplace
      have hdone : worker.approvalDone = true := hplace
      cases event with
      | proceed now =>
        show SilentStep worker top (wakeWait worker top [])
        unfold wakeWait
        rw [if_pos hdone]
        exact .quiet rfl rfl ⟨hsilent.generation, hsilent.processing, hsilent.asksNoMore, trivial⟩ rfl
      | _ => exact hsame
    | reading timedOut cancel =>
      rw [hphase] at hplace
      obtain ⟨htimedOut, hdone⟩ : timedOut = false ∧ worker.approvalDone = true := hplace
      subst htimedOut
      cases event with
      | packet packet surroundings path =>
        refine silentStep_readPacket h hbefore hsilent hdone packet surroundings path ?_
        by_contra hcomplete
        have hreading : worker.phase.isReading = true := by
          unfold Worker.phase
          rw [hbefore]
          simp [hphase, Phase.isReading]
        have hnil := hcondition.2 (by
          simp [completesMessage, hreading, Option.isSome_iff_ne_none, hcomplete])
        rw [hbefore] at hnil
        exact absurd hnil (by simp)
      | noPacket now =>
        show SilentStep worker top (worker.readNothing false)
        unfold Worker.readNothing
        dsimp only
        by_cases hstop : worker.stopRequested = true
        · rw [if_pos hstop, setPhase_cons worker.requestCancel hbefore]
          exact .quiet rfl rfl ⟨hsilent.generation, hsilent.processing, hsilent.asksNoMore,
            Or.inl rfl⟩ rfl
        · rw [if_neg hstop, setPhase_cons worker hbefore]
          exact .quiet rfl rfl ⟨hsilent.generation, hsilent.processing, hsilent.asksNoMore,
            Or.inr ⟨hdone, Or.inl rfl⟩⟩ rfl
      | _ => exact hsame
    | checking timedOut =>
      cases event with
      | proceed now => exact silentStep_endWaitIteration h hsilent hphase now
      | _ => exact hsame
    | signalled =>
      cases event with
      | proceed now =>
        refine .stays rfl rfl ⟨hsilent.generation, hsilent.processing, hsilent.asksNoMore, trivial⟩
          rfl fun occurrence hmem ↦ ?_
        rw [List.mem_singleton.mp hmem]
        trivial
      | _ => exact hsame
    | answered =>
      cases event with
      | proceed now =>
        show SilentStep worker top (endInteraction worker top [])
        unfold endInteraction
        split_ifs
        · exact .quiet rfl rfl (hsilent.running rfl rfl (List.Sublist.refl _)) rfl
        · exact .quiet rfl rfl (hsilent.running rfl rfl (List.nil_sublist _)) rfl
      | _ => exact hsame
    | draining | asleep | stopped =>
      rw [hphase] at hplace
      exact hplace.elim
  have hworker (hanswer : ∀ answer, event ≠ .answer answer) (hstop : event ≠ .stop) :
      SilentStep worker top (step worker event) := by
    rw [step_eq_stepHandler hbefore hanswer hstop]
    exact hhandler
  cases event with
  | answer answer =>
    refine .quiet ((finishInteraction_activations _ _).trans hbefore) rfl ?_
      (finishInteraction_log _ _)
    refine hsilent.external ?_ ?_ ?_ ?_
    · exact congrArg _ (finishInteraction_transport _ _)
    · exact congrArg _ (finishInteraction_transport _ _)
    · rw [step, finishInteraction_transport]
      exact id
    · unfold step Worker.finishInteraction
      split_ifs
      · exact fun _ ↦ rfl
      · exact id
  | stop => exact .quiet hbefore rfl (hsilent.external rfl rfl (fun _ ↦ rfl) fun _ ↦ rfl) rfl
  | _ => exact hworker (by simp) (by simp)

end Silent

section Run

variable {worker worker' : Worker} {event : Event}

/-- The invariant of the run: at most one handler is on the stack, and an aborted one is silent. -/
structure SilentAborts (worker : Worker) : Prop where
  orderly : Orderly worker
  single : ∀ top below, worker.activations = top :: below → below = []
  silent : ∀ top below, worker.activations = top :: below → WasAborted worker.log top.number →
    Silent worker top
  discarded : EveryEvent LateOutputDiscarded worker.log

theorem silentAborts_initial : SilentAborts {} where
  orderly := orderly_initial
  single := by simp
  silent := by simp
  discarded := everyEvent_nil

theorem lateOutputDiscarded_of_unsent {before : List Occurrence} {occurrence : Occurrence}
    (h : occurrence.Unsent) : LateOutputDiscarded before occurrence := by
  refine fun number _ ↦ ⟨?_, fun message ↦ ?_⟩
  · rintro rfl
    exact h
  · rintro rfl
    exact h

theorem lateOutputDiscarded_sent {before : List Occurrence} {occurrence : Occurrence}
    (h : ∃ message, occurrence = .sent message) : LateOutputDiscarded before occurrence := by
  obtain ⟨message, rfl⟩ := h
  exact lateOutputDiscarded_of_unsent trivial

/-- A request that was not aborted may send its frames. -/
theorem lateOutputDiscarded_of_concerns {before : List Occurrence} {occurrence : Occurrence}
    {number : ℕ} (hconcerns : occurrence.Concerns number) (hclean : ¬WasAborted before number) :
    LateOutputDiscarded before occurrence := by
  refine fun other haborted ↦ ⟨?_, fun message ↦ ?_⟩
  · rintro rfl
    exact hclean (hconcerns ▸ haborted)
  · rintro rfl
    exact hconcerns

/-- A stack that holds at most one handler, of a request that was not aborted. -/
theorem SilentAborts.of_clean (horderly : Orderly worker')
    (hsingle : ∀ top below, worker'.activations = top :: below → below = [])
    (hclean : ∀ top below, worker'.activations = top :: below →
      ¬WasAborted worker'.log top.number)
    (hdiscarded : EveryEvent LateOutputDiscarded worker'.log) : SilentAborts worker' where
  orderly := horderly
  single := hsingle
  silent := fun top below hactivations haborted ↦
    absurd haborted (hclean top below hactivations)
  discarded := hdiscarded

theorem SilentAborts.silent_step (h : SilentAborts worker) {top : Activation}
    (hbefore : worker.activations = [top]) (haborted : WasAborted worker.log top.number)
    (event : Event) (hcondition : CleanInterruption worker event) :
    SilentAborts (step worker event) := by
  have horderly := orderly_step h.orderly event
  have hstep := Usb.silent_step h.orderly hbefore (h.silent top [] hbefore haborted) event hcondition
  generalize step worker event = worker' at horderly hstep ⊢
  cases hstep with
  | @stays top' occurrences after number silent log unsent =>
    refine ⟨horderly, ?_, ?_, ?_⟩
    · intro first others hactivations
      exact ((List.cons_eq_cons.mp (after.symm.trans hactivations)).2).symm
    · intro first others hactivations _
      obtain ⟨rfl, -⟩ := List.cons_eq_cons.mp (after.symm.trans hactivations)
      exact silent
    · rw [log]
      exact h.discarded.append fun before occurrence later hsplit ↦
        lateOutputDiscarded_of_unsent (unsent occurrence (by simp [hsplit]))
  | returns after log =>
    refine ⟨horderly, by simp [after], by simp [after], ?_⟩
    rw [log]
    exact h.discarded

/-- The request of the only handler is aborted: the handler is silent. -/
theorem silent_of_abort (horderly : Orderly worker')
    (hcondition : CleanInterruption worker event) {top top' : Activation} {cause : AbortCause}
    (hprocessing : worker.transport.processing = true)
    (hprocessing' : worker'.transport.processing = false)
    (hgeneration : worker'.transport.processingGeneration ≠ 1)
    (hbefore : worker.activations = [top]) (hafter : worker'.activations = [top'])
    (hplace : AbortPlace worker worker' event cause top top') : Silent worker' top' := by
  have hasks := (horderly.member top' (by simp [hafter])).2.2.2
  cases hplace with
  | returning phase remaining =>
    refine ⟨hgeneration, hprocessing', by simp [remaining], ?_⟩
    rw [phase]
    trivial
  | checking timedOut cancel phase phase' remaining sendKeepalive done approval approved init =>
    refine ⟨hgeneration, hprocessing', hasks (by simp [phase']) (by simp [phase']), ?_⟩
    rw [phase']
    rcases init with hcancel | hinit
    · exact Or.inl hcancel
    · refine Or.inr ⟨done, ?_⟩
      have hdue := hcondition.1 hinit hprocessing
      unfold keepaliveDue at hdue
      rw [hbefore] at hdue
      simp only [phase, Bool.and_eq_false_iff] at hdue
      rw [sendKeepalive]
      exact hdue.symm
  | reading cause_eq phase' remaining done =>
    refine ⟨hgeneration, hprocessing', hasks (by simp [phase']) (by simp [phase']), ?_⟩
    rw [phase']
    exact ⟨rfl, done⟩

/-- A step while the request of the stack is not aborted. -/
theorem SilentAborts.clean_step (h : SilentAborts worker)
    (hcondition : CleanInterruption worker event)
    (hclean : ∀ top below, worker.activations = top :: below → ¬WasAborted worker.log top.number)
    (hchange : Change worker event worker') : SilentAborts worker' := by
  have horderly := hchange.orderly h.orderly
  cases hchange with
  | external session processing activations log dispatched signalled =>
    refine .of_clean horderly ?_ ?_ ?_
    · rw [activations]
      exact h.single
    · rw [activations, log]
      exact hclean
    · rw [log]
      exact h.discarded
  | main session processing before after log sent dispatched =>
    refine .of_clean horderly (by simp [after]) (by simp [after]) ?_
    rw [log]
    exact h.discarded.append fun earlier occurrence later hsplit ↦
      lateOutputDiscarded_sent (sent occurrence (by simp [hsplit]))
  | @advance top top' below occurrences session processing before after continues log concerns =>
    obtain rfl := h.single top below before
    have hnew (earlier : List Occurrence) (hearlier : ∀ occurrence ∈ earlier,
        occurrence ∈ occurrences) :
        WasAborted (worker.log ++ earlier) top.number ↔ WasAborted worker.log top.number := by
      refine wasAborted_append fun occurrence hmem protocol cause ↦ ?_
      exact (concerns occurrence (hearlier occurrence hmem)).ne_aborted protocol cause
    refine .of_clean horderly ?_ ?_ ?_
    · intro first others hactivations
      exact ((List.cons_eq_cons.mp (after.symm.trans hactivations)).2).symm
    · intro first others hactivations
      obtain ⟨rfl, -⟩ := List.cons_eq_cons.mp (after.symm.trans hactivations)
      rw [log, continues.number, hnew _ fun _ ↦ id]
      exact hclean top [] before
    · rw [log]
      refine h.discarded.append fun earlier occurrence later hsplit ↦ ?_
      refine lateOutputDiscarded_of_concerns (concerns occurrence (by simp [hsplit])) ?_
      rw [hnew earlier fun other hmem ↦ by simp [hsplit, hmem]]
      exact hclean top [] before
  | @abort top top' below cause occurrences session processing processing' generation before after
      continues log concerns dispatched place =>
    obtain rfl := h.single top below before
    refine ⟨horderly, ?_, ?_, ?_⟩
    · intro first others hactivations
      exact ((List.cons_eq_cons.mp (after.symm.trans hactivations)).2).symm
    · intro first others hactivations _
      obtain ⟨rfl, -⟩ := List.cons_eq_cons.mp (after.symm.trans hactivations)
      exact silent_of_abort horderly hcondition processing processing' generation before after
        place
    · rw [log]
      refine h.discarded.append fun earlier occurrence later hsplit ↦ ?_
      have hmem : occurrence ∈ .aborted top.number top.protocol cause :: occurrences := by
        simp [hsplit]
      rcases List.mem_cons.mp hmem with rfl | hmem
      · exact fun number _ ↦ ⟨by simp, by simp⟩
      · rcases concerns occurrence hmem with hsent | rfl
        · exact lateOutputDiscarded_sent hsent
        · exact lateOutputDiscarded_of_unsent trivial
  | @push top' rest occurrences session processing after rest_eq number generation phase asksOnce log
      sent dispatched reading completes =>
    obtain ⟨packet, surroundings, path, rfl, hcomplete⟩ := completes
    have hnil := hcondition.2 (by
      simp [completesMessage, reading, Option.isSome_iff_ne_none, hcomplete])
    have hrest : rest = [] := by
      rcases rest_eq with ⟨-, hrest⟩ | ⟨top, below, _, _, _, before, -⟩
      · exact hrest
      · rw [hnil] at before
        exact absurd before (by simp)
    subst hrest
    refine .of_clean horderly ?_ ?_ ?_
    · intro first others hactivations
      exact ((List.cons_eq_cons.mp (after.symm.trans hactivations)).2).symm
    · intro first others hactivations haborted
      obtain ⟨rfl, -⟩ := List.cons_eq_cons.mp (after.symm.trans hactivations)
      rw [log, List.append_assoc, wasAborted_append, number] at haborted
      · exact absurd (h.orderly.logged _ haborted) (lt_irrefl _)
      · intro occurrence hmem protocol cause
        rcases List.mem_append.mp hmem with hmem | hmem
        · obtain ⟨message, rfl⟩ := sent occurrence hmem
          simp
        · rw [List.mem_singleton.mp hmem]
          simp
    · rw [log, everyEvent_concat]
      refine ⟨h.discarded.append fun earlier occurrence later hsplit ↦
        lateOutputDiscarded_sent (sent occurrence (by simp [hsplit])), ?_⟩
      exact fun number _ ↦ ⟨by simp, by simp⟩
  | @pop top below occurrences session processing before phase after log response dispatched =>
    obtain rfl := h.single top below before
    have hnil : worker'.activations = [] := by
      rcases after with after | ⟨next, deeper, _, _, _, hbelow, -⟩
      · exact after
      · exact absurd hbelow (by simp)
    refine .of_clean horderly (by simp [hnil]) (by simp [hnil]) ?_
    rw [log]
    refine h.discarded.append fun earlier occurrence later hsplit ↦ ?_
    rcases response with rfl | ⟨message, rfl, -⟩
    · exact absurd hsplit (by simp)
    · have hsingle : earlier = [] ∧ occurrence = .response top.number message := by
        rcases earlier with - | ⟨first, earlier⟩
        · exact ⟨rfl, (List.cons_eq_cons.mp hsplit).1.symm⟩
        · exact absurd (List.cons_eq_cons.mp hsplit).2 (by simp)
      obtain ⟨rfl, rfl⟩ := hsingle
      refine fun other haborted ↦ ⟨by simp, fun message' hmessage ↦ ?_⟩
      obtain ⟨rfl, -⟩ := Occurrence.response.inj hmessage
      rw [List.append_nil] at haborted
      exact hclean top [] before haborted

theorem SilentAborts.step (worker : Worker) (event : Event)
    (hcondition : CleanInterruption worker event) (h : SilentAborts worker) :
    SilentAborts (step worker event) := by
  have hchange := change_step h.orderly event
  cases hactivations : worker.activations with
  | nil => exact h.clean_step hcondition (by simp [hactivations]) hchange
  | cons top below =>
    obtain rfl := h.single top below hactivations
    by_cases haborted : WasAborted worker.log top.number
    · exact h.silent_step hactivations haborted event hcondition
    · refine h.clean_step hcondition (fun first others hfirst ↦ ?_) hchange
      obtain ⟨rfl, -⟩ := List.cons_eq_cons.mp (hactivations.symm.trans hfirst)
      exact haborted

/-- Late USB output is discarded. In every run in which well-formed INIT on the channel of the
request that is being processed is not read when a keepalive is due, and no message is completed
while a handler is still on the stack, a request that was aborted, by INIT on its own or on the
broadcast channel or by a lost connection, sends no further response, error or keepalive. -/
theorem late_output_discarded (events : List Event)
    (h : EveryStep step CleanInterruption {} events) :
    EveryEvent LateOutputDiscarded (run step {} events).log :=
  (run_invariant SilentAborts.step h silentAborts_initial).discarded

end Run

section Samples

/-- INIT on channel 7 is handled while the interaction is pending, and the handler returns. -/
def initThenReturn : List Event :=
  initWhilePending ++ [.finish keepaliveCancelResponse]

theorem late_output_discarded_initThenReturn :
    .aborted 0 .ctap2 .channelInit ∈ (run step {} initThenReturn).log ∧
      (run step {} initThenReturn).activations = [] ∧
      EveryEvent LateOutputDiscarded (run step {} initThenReturn).log :=
  ⟨by decide +kernel, by decide +kernel, late_output_discarded initThenReturn (by decide +kernel)⟩

/-- INIT on channel 7 is read after the keepalive interval has elapsed. -/
def initOnTimeout : List Event :=
  waitingForApproval ++ [.timeout, hostSends 7 cmdInit (List.replicate 8 2) .getInfo, .proceed 0]

theorem keepalive_after_init :
    ¬∀ events, EveryEvent LateOutputDiscarded (run step {} events).log := by
  intro hclaim
  have hlog : (run step {} initOnTimeout).log =
      (run step {} initOnTimeout).log.dropLast ++ [.keepalive 0] := by decide +kernel
  have haborted : .aborted 0 .ctap2 .channelInit ∈ (run step {} initOnTimeout).log.dropLast := by
    decide +kernel
  have hdiscarded := hclaim initOnTimeout _ _ [] hlog
  exact (hdiscarded 0 ⟨_, _, haborted⟩).1 rfl

/-- The connection is lost, and the packet read next completes a PING; then both handlers return. -/
def pingAfterDisconnect : List Event :=
  waitingForApproval ++ [.wake { disconnect := true }, hostSends 7 cmdPing [0x05] .getInfo,
    .finish (.response [0x05]), .proceed 0, .proceed 0, .proceed 0, .proceed 0,
    .finish keepaliveCancelResponse]

-- The response of the aborted request is sent after all: the PING was dispatched at its generation.
example : ¬EveryEvent LateOutputDiscarded (run step {} pingAfterDisconnect).log := by
  intro hclaim
  have hlog : (run step {} pingAfterDisconnect).log =
      (run step {} pingAfterDisconnect).log.dropLast ++ [.response 0 ⟨7, cmdCbor, [0x2D]⟩] := by
    decide +kernel
  have haborted : .aborted 0 .ctap2 .connection ∈ (run step {} pingAfterDisconnect).log.dropLast := by
    decide +kernel
  have hdiscarded := hclaim _ _ [] hlog
  exact (hdiscarded 0 ⟨_, _, haborted⟩).2 _ rfl

end Samples

end ZeroFido.Usb
