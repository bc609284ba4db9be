import ZeroFido.Usb.Step

/-!
# An aborted request never commits

INIT on the channel of the request that is being processed, or on the broadcast channel, ends its
processing. The handler is still on the stack. `Doomed` says where it can be: with only its return
before it, or on the way there through the end of a wait that was not approved. A doomed handler
stays doomed until it returns (`doomed_step`), and it reports no approval and commits nothing.

INIT on the request's own channel sets no cancel flag, and a poll of a request that is no longer
processed succeeds. So when the user had approved before that INIT was handled, the wait reports the
approval and the request commits (`channel_init_after_approval`). In every run in which INIT on the
own channel of a CBOR request is handled before the user has approved, an abort of such a request is
final (`usb_abort_final`).
-/

set_option autoImplicit false
set_option relaxedAutoImplicit false

namespace ZeroFido.Usb

open Foundations

section Statement

/-- The request is a CBOR request, and was aborted by INIT. -/
def AbortedByInit (log : List Occurrence) (number : ℕ) : Prop :=
  .aborted number .ctap2 .channelInit ∈ log ∨ .aborted number .ctap2 .broadcastInit ∈ log

/-- After a CBOR request was aborted by INIT, its polls are answered KEEPALIVE_CANCEL, its wait
reports no approval, and it does not commit. -/
def AbortIsFinal (before : List Occurrence) (occurrence : Occurrence) : Prop :=
  ∀ number, AbortedByInit before number →
    (∀ status, occurrence = .polled number status → status = .keepaliveCancel) ∧
      occurrence ≠ .waited number true ∧ occurrence ≠ .committed number

/-- The innermost handler is that of a CBOR request. -/
def Worker.servesCbor (worker : Worker) : Bool :=
  worker.activations.head?.any fun top ↦ top.protocol == .ctap2

/-- A well-formed INIT on the channel of a CBOR request that is being processed is handled in its
approval wait only before the user has approved. -/
def NotYetApproved (worker : Worker) (event : Event) : Prop :=
  ChannelInit worker event → worker.transport.processing = true → worker.servesCbor = true →
    worker.phase.isReading = true → worker.approval ≠ .approved

instance (worker : Worker) (event : Event) : Decidable (NotYetApproved worker event) :=
  inferInstanceAs (Decidable (_ → _ → _ → _ → _))

end Statement

section Doomed

/-- The interaction is over and was not approved. -/
def ApprovalState.refused : ApprovalState → Bool
  | .denied | .timedOut | .canceled | .idle => true
  | .pending | .approved => false

/-- The innermost handler has only its return before it, or will have. -/
def Doomed (worker : Worker) (top : Activation) : Prop :=
  match top.phase with
  | .running => top.remaining = []
  | .checking _ => worker.transport.processingCancelRequested = true ∨
      worker.approvalDone = true ∧ worker.approval.refused = true
  | .waking => worker.approvalDone = true ∧ worker.approval.refused = true
  | .signalled => worker.approval.refused = true
  | .answered => worker.approval.refused = true
  | _ => False

variable {worker : Worker} {top : Activation} {below : List Activation}

theorem refused_of_not_pending {state : ApprovalState} (hpending : state ≠ .pending)
    (happroved : state ≠ .approved) : state.refused = true := by
  cases state
  case pending => exact absurd rfl hpending
  case approved => exact absurd rfl happroved
  all_goals rfl

/-- What a step does to a doomed handler: nothing, one step on its way to its return, with an
occurrence that reports no approval, or the return itself. -/
inductive DoomedStep (worker : Worker) (top : Activation) (below : List Activation) :
    Worker → Prop
  | stays {worker' : Worker} {top' : Activation} {occurrences : List Occurrence}
      (after : worker'.activations = top' :: below) (number : top'.number = top.number)
      (doomed : Doomed worker' top') (log : worker'.log = worker.log ++ occurrences)
      (harmless : ∀ occurrence ∈ occurrences, (∃ message, occurrence = .sent message) ∨
        (∃ other, occurrence = .keepalive other) ∨ ∃ other, occurrence = .waited other false) :
      DoomedStep worker top below worker'
  | returns {worker' : Worker} (after : worker'.activations.map Activation.number =
        below.map Activation.number) (log : worker'.log = worker.log ∨
        ∃ message, worker'.log = worker.log ++ [.response top.number message]) :
      DoomedStep worker top below worker'

theorem DoomedStep.same (hbefore : worker.activations = top :: below) {worker' : Worker}
    (after : worker'.activations = worker.activations) (hdoomed : Doomed worker' top)
    (log : worker'.log = worker.log) : DoomedStep worker top below worker' := by
  have hlog : worker'.log = worker.log ++ [] := by rw [log, List.append_nil]
  exact .stays (after.trans hbefore) rfl hdoomed hlog
    fun occurrence hmem ↦ absurd hmem List.not_mem_nil

/-- Another thread cannot save a doomed handler. -/
theorem Doomed.mono {worker' : Worker} (h : Doomed worker top)
    (hcancel : worker.transport.processingCancelRequested = true →
      worker'.transport.processingCancelRequested = true)
    (hdone : worker.approvalDone = true → worker'.approvalDone = true)
    (hrefused : worker.approval.refused = true → worker'.approval.refused = true) :
    Doomed worker' top := by
  unfold Doomed at h ⊢
  split at h
  · exact h
  · rcases h with h | ⟨h, h'⟩
    · exact Or.inl (hcancel h)
    · exact Or.inr ⟨hdone h, hrefused h'⟩
  · exact ⟨hdone h.1, hrefused h.2⟩
  · exact hrefused h
  · exact hrefused h
  · exact h

theorem refused_finishInteraction (worker : Worker) (state : ApprovalState)
    (h : worker.approval.refused = true) :
    (worker.finishInteraction state).approval.refused = true ∧
      (worker.approvalDone = true → (worker.finishInteraction state).approvalDone = true) := by
  unfold Worker.finishInteraction
  split_ifs with hpending
  · rw [hpending] at h
    exact Bool.noConfusion h
  · exact ⟨h, id⟩

theorem ne_approved_of_refused {state : ApprovalState} (h : state.refused = true) :
    state ≠ .approved := by
  rintro rfl
  exact Bool.noConfusion h

theorem Doomed.answer (h : Doomed worker top) (hbefore : worker.activations = top :: below)
    (state : ApprovalState) :
    DoomedStep worker top below (worker.finishInteraction state) := by
  have hdone : worker.approvalDone = true → (worker.finishInteraction state).approvalDone = true := by
    unfold Worker.finishInteraction
    split_ifs
    · exact fun _ ↦ rfl
    · exact id
  refine .same hbefore (finishInteraction_activations _ _) ?_ (finishInteraction_log _ _)
  refine h.mono ?_ hdone fun hrefused ↦ (refused_finishInteraction worker state hrefused).1
  rw [finishInteraction_transport]
  exact id

theorem Doomed.endWaitIteration (h : Orderly worker) {timedOut : Bool}
    (hphase : top.phase = .checking timedOut) (hdoomed : Doomed worker top) (now : UInt32) :
    DoomedStep worker top below (endWaitIteration worker top below timedOut now) := by
  unfold Doomed at hdoomed
  rw [hphase] at hdoomed
  unfold Usb.endWaitIteration
  by_cases hstop : (worker.stopRequested || worker.transport.processingCancelRequested) = true
  · rw [if_pos hstop]
    refine .stays rfl rfl rfl rfl fun occurrence hmem ↦ ?_
    exact Or.inr (Or.inr ⟨top.number, List.mem_singleton.mp hmem⟩)
  · rw [if_neg hstop]
    simp only [Bool.or_eq_true, not_or, Bool.not_eq_true] at hstop
    have hover := hdoomed.resolve_left (by simp [hstop.2])
    dsimp only
    generalize hkept : (if timedOut && top.sendKeepalive then
      worker.record [.keepalive top.number] else worker) = kept
    have hfields : kept.transport = worker.transport ∧ kept.connected = worker.connected ∧
        kept.approval = worker.approval ∧ kept.approvalDone = worker.approvalDone ∧
        ∃ occurrences, kept.log = worker.log ++ occurrences ∧
          ∀ occurrence ∈ occurrences, ∃ other, occurrence = .keepalive other := by
      subst hkept
      split_ifs
      · refine ⟨rfl, rfl, rfl, rfl, _, rfl, fun occurrence hmem ↦ ?_⟩
        exact ⟨top.number, List.mem_singleton.mp hmem⟩
      · refine ⟨rfl, rfl, rfl, rfl, [], (List.append_nil _).symm, fun occurrence hmem ↦ ?_⟩
        exact absurd hmem List.not_mem_nil
    obtain ⟨htransport, hconnected, happroval, hdone, occurrences, hlog, hkeepalive⟩ := hfields
    have hsession : SessionOrderly (withTop kept below { top with phase := .waking }) :=
      h.toSessionOrderly.of_same (congrArg _ htransport) (congrArg _ htransport)
        (congrArg _ htransport) hconnected
    rw [hsession.tick_eq now]
    refine .stays rfl rfl ⟨hdone.trans hover.1, ?_⟩
      ((congrArg (· ++ _) hlog).trans (List.append_assoc _ _ _)) ?_
    · show kept.approval.refused = true
      rw [happroval]
      exact hover.2
    · intro occurrence hmem
      rcases List.mem_append.mp hmem with hmem | hmem
      · exact Or.inr (Or.inl (hkeepalive occurrence hmem))
      · exact Or.inl (exists_sent _ occurrence hmem)

/-- The return of the innermost handler. -/
theorem doomedStep_finishHandler (result : DispatchResult) :
    DoomedStep worker top below (finishHandler worker top below result) := by
  have hpop (worker : Worker) : (popHandler worker below).activations.map Activation.number =
      below.map Activation.number ∧ (popHandler worker below).log = worker.log := by
    unfold popHandler
    dsimp only
    split
    · rw [packetHandled_eq]
      cases below with
      | nil =>
        rw [setPhase_nil _ (applyActions_activations _ _)]
        exact ⟨by simp [applyActions_activations], applyActions_log _ _⟩
      | cons next deeper =>
        rw [setPhase_cons _ (applyActions_activations _ _)]
        exact ⟨by simp, applyActions_log _ _⟩
    · exact ⟨rfl, rfl⟩
  unfold finishHandler
  by_cases hgeneration : top.generation ≠ worker.transport.processingGeneration
  · rw [if_pos hgeneration]
    exact .returns (hpop _).1 (Or.inl (hpop _).2)
  · rw [if_neg hgeneration]
    exact .returns (hpop _).1 (Or.inr ⟨_, (hpop _).2⟩)

/-- A doomed handler stays doomed until it returns. -/
theorem doomed_step (h : Orderly worker) (hbefore : worker.activations = top :: below)
    (hdoomed : Doomed worker top) (event : Event) :
    DoomedStep worker top below (step worker event) := by
  have hsame : DoomedStep worker top below worker := .same hbefore rfl hdoomed rfl
  have hhandler : DoomedStep worker top below (stepHandler worker top below top.phase event) := by
    have hplace := hdoomed
    unfold Doomed at hplace
    cases hphase : top.phase with
    | running =>
      rw [hphase] at hplace
      have hremaining : top.remaining = [] := hplace
      cases event with
      | proceed now =>
        show DoomedStep worker top below (runHandler worker top below)
        unfold runHandler
        rw [hremaining]
        exact hsame
      | skipInteraction accepted =>
        show DoomedStep worker top below (skipInteraction worker top below accepted)
        unfold skipInteraction
        rw [hremaining]
        exact hsame
      | finish result => exact doomedStep_finishHandler result
      | _ => exact hsame
    | checking timedOut =>
      cases event with
      | proceed now => exact hdoomed.endWaitIteration h hphase now
      | _ => exact hsame
    | waking =>
      rw [hphase] at hplace
      have hover : worker.approvalDone = true ∧ worker.approval.refused = true := hplace
      cases event with
      | proceed now =>
        show DoomedStep worker top below (wakeWait worker top below)
        unfold wakeWait
        rw [if_pos hover.1]
        exact .stays rfl rfl hover.2 (List.append_nil _).symm
          fun occurrence hmem ↦ absurd hmem List.not_mem_nil
      | _ => exact hsame
    | signalled =>
      rw [hphase] at hplace
      have hrefused : worker.approval.refused = true := hplace
      cases event with
      | proceed now =>
        refine .stays rfl rfl hrefused rfl fun occurrence hmem ↦ ?_
        refine Or.inr (Or.inr ⟨top.number, ?_⟩)
        rw [List.mem_singleton.mp hmem, beq_eq_false_iff_ne.mpr (ne_approved_of_refused hrefused)]
      | _ => exact hsame
    | answered =>
      rw [hphase] at hplace
      have hrefused : worker.approval.refused = true := hplace
      cases event with
      | proceed now =>
        show DoomedStep worker top below (endInteraction worker top below)
        unfold endInteraction
        rw [if_neg (ne_approved_of_refused hrefused)]
        exact .stays rfl rfl rfl (List.append_nil _).symm
          fun occurrence hmem ↦ absurd hmem List.not_mem_nil
      | _ => exact hsame
    | draining | asleep | reading | stopped =>
      rw [hphase] at hplace
      exact hplace.elim
  have hworker (hanswer : ∀ answer, event ≠ .answer answer) (hstop : event ≠ .stop) :
      DoomedStep worker top below (step worker event) := by
    rw [step_eq_stepHandler hbefore hanswer hstop]
    exact hhandler
  cases event with
  | answer answer => exact hdoomed.answer hbefore answer.state
  | stop =>
    refine .same hbefore rfl ?_ rfl
    exact hdoomed.mono (fun _ ↦ rfl) (fun _ ↦ rfl) id
  | _ => exact hworker (by simp) (by simp)

end Doomed

section Run

variable {worker worker' : Worker} {event : Event}

theorem abortedByInit_append {log occurrences : List Occurrence} {number : ℕ}
    (h : ∀ occurrence ∈ occurrences, ∀ protocol cause,
      occurrence ≠ .aborted number protocol cause) :
    AbortedByInit (log ++ occurrences) number ↔ AbortedByInit log number := by
  have hnew (cause : AbortCause) : .aborted number .ctap2 cause ∉ occurrences :=
    fun hmem ↦ h _ hmem .ctap2 cause rfl
  simp [AbortedByInit, List.mem_append, hnew]

theorem AbortedByInit.wasAborted {log : List Occurrence} {number : ℕ}
    (h : AbortedByInit log number) : WasAborted log number := by
  rcases h with h | h
  · exact ⟨_, _, h⟩
  · exact ⟨_, _, h⟩

/-- Occurrences that report nothing a request may not report. -/
theorem abortIsFinal_of_harmless {before : List Occurrence} {occurrence : Occurrence}
    (hpolled : ∀ number status, occurrence = .polled number status → status = .keepaliveCancel)
    (hwaited : ∀ number, occurrence ≠ .waited number true)
    (hcommitted : ∀ number, occurrence ≠ .committed number) : AbortIsFinal before occurrence :=
  fun number _ ↦ ⟨hpolled number, hwaited number, hcommitted number⟩

theorem abortIsFinal_sent {before : List Occurrence} {occurrence : Occurrence}
    (h : ∃ message, occurrence = .sent message) : AbortIsFinal before occurrence := by
  obtain ⟨message, rfl⟩ := h
  exact abortIsFinal_of_harmless (by simp) (by simp) (by simp)

/-- A request that was not aborted may report everything. -/
theorem abortIsFinal_of_concerns {before : List Occurrence} {occurrence : Occurrence} {number : ℕ}
    (hconcerns : occurrence.Concerns number) (hclean : ¬AbortedByInit before number) :
    AbortIsFinal before occurrence := by
  intro other haborted
  have hne : number ≠ other := by
    rintro rfl
    exact hclean haborted
  refine ⟨?_, ?_, ?_⟩
  · rintro status rfl
    exact absurd hconcerns.symm hne
  · rintro rfl
    exact hne hconcerns.symm
  · rintro rfl
    exact hne hconcerns.symm

/-- The invariant of the run. -/
structure FinalAborts (worker : Worker) : Prop where
  orderly : Orderly worker
  doomed : ∀ top below, worker.activations = top :: below →
    AbortedByInit worker.log top.number → Doomed worker top
  clean : ∀ top below, worker.activations = top :: below → ∀ activation ∈ below,
    ¬AbortedByInit worker.log activation.number
  final : EveryEvent AbortIsFinal worker.log

theorem finalAborts_initial : FinalAborts {} where
  orderly := orderly_initial
  doomed := by simp
  clean := by simp
  final := everyEvent_nil

/-- A stack none of whose requests was aborted. -/
theorem FinalAborts.of_clean (horderly : Orderly worker')
    (hclean : ∀ activation ∈ worker'.activations, ¬AbortedByInit worker'.log activation.number)
    (hfinal : EveryEvent AbortIsFinal worker'.log) : FinalAborts worker' where
  orderly := horderly
  doomed := fun top below hactivations haborted ↦
    absurd haborted (hclean top (by simp [hactivations]))
  clean := fun top below hactivations activation hmem ↦
    hclean activation (by simp [hactivations, hmem])
  final := hfinal

/-- Membership in a stack by the numbers of the requests. -/
theorem exists_mem_of_map_number {activations below : List Activation} {activation : Activation}
    (h : activations.map Activation.number = below.map Activation.number)
    (hmem : activation ∈ activations) : ∃ other ∈ below, other.number = activation.number := by
  have hnumber : activation.number ∈ activations.map Activation.number :=
    List.mem_map_of_mem hmem
  rw [h] at hnumber
  exact List.mem_map.mp hnumber

/-- A step while the innermost handler is doomed. -/
theorem FinalAborts.doomed_step (h : FinalAborts worker) {top : Activation}
    {below : List Activation} (hbefore : worker.activations = top :: below)
    (haborted : AbortedByInit worker.log top.number) (event : Event) :
    FinalAborts (step worker event) := by
  have horderly := orderly_step h.orderly event
  have hbelow := h.clean top below hbefore
  have hstep := Usb.doomed_step h.orderly hbefore (h.doomed top below hbefore haborted) event
  generalize step worker event = worker' at horderly hstep ⊢
  cases hstep with
  | @stays top' occurrences after number doomed log harmless =>
    have hnew (found : ℕ) : AbortedByInit worker'.log found ↔ AbortedByInit worker.log found := by
      rw [log, abortedByInit_append]
      intro occurrence hmem protocol cause
      rcases harmless occurrence hmem with ⟨_, rfl⟩ | ⟨_, rfl⟩ | ⟨_, rfl⟩ <;> simp
    refine ⟨horderly, ?_, ?_, ?_⟩
    · intro first others hactivations _
      obtain ⟨rfl, -⟩ := List.cons_eq_cons.mp (after.symm.trans hactivations)
      exact doomed
    · intro first others hactivations activation hmem
      obtain ⟨-, rfl⟩ := List.cons_eq_cons.mp (after.symm.trans hactivations)
      rw [hnew]
      exact hbelow activation hmem
    · rw [log]
      refine h.final.append fun before occurrence later hsplit ↦ ?_
      rcases harmless occurrence (by simp [hsplit]) with ⟨_, rfl⟩ | ⟨_, rfl⟩ | ⟨_, rfl⟩
      all_goals exact abortIsFinal_of_harmless (by simp) (by simp) (by simp)
  | returns after log =>
    have hresponse : ∃ occurrences, worker'.log = worker.log ++ occurrences ∧
        ∀ occurrence ∈ occurrences, ∃ message, occurrence = .response top.number message := by
      rcases log with log | ⟨message, log⟩
      · exact ⟨[], by rw [log, List.append_nil], fun _ hmem ↦ absurd hmem List.not_mem_nil⟩
      · exact ⟨_, log, fun _ hmem ↦ ⟨message, List.mem_singleton.mp hmem⟩⟩
    obtain ⟨occurrences, log, hoccurrences⟩ := hresponse
    refine .of_clean horderly ?_ ?_
    · intro activation hmem
      obtain ⟨other, hother, hnumber⟩ := exists_mem_of_map_number after hmem
      rw [log, abortedByInit_append, ← hnumber]
      · exact hbelow other hother
      · intro occurrence hmem protocol cause
        obtain ⟨message, rfl⟩ := hoccurrences occurrence hmem
        simp
    · rw [log]
      refine h.final.append fun before occurrence later hsplit ↦ ?_
      obtain ⟨message, rfl⟩ := hoccurrences occurrence (by simp [hsplit])
      exact abortIsFinal_of_harmless (by simp) (by simp) (by simp)

/-- The innermost handler goes on without being aborted. -/
theorem FinalAborts.advance (h : FinalAborts worker) {top top' : Activation}
    {below : List Activation} {occurrences : List Occurrence} (horderly : Orderly worker')
    (hbefore : worker.activations = top :: below) (hafter : worker'.activations = top' :: below)
    (hnumber : top'.number = top.number) (hclean : ¬AbortedByInit worker.log top.number)
    (hlog : worker'.log = worker.log ++ occurrences)
    (hconcerns : ∀ occurrence ∈ occurrences, occurrence.Concerns top.number) :
    FinalAborts worker' := by
  have hnew (before : List Occurrence) (found : ℕ)
      (hbefore : ∀ occurrence ∈ before, occurrence ∈ occurrences) :
      AbortedByInit (worker.log ++ before) found ↔ AbortedByInit worker.log found := by
    refine abortedByInit_append fun occurrence hmem protocol cause ↦ ?_
    exact (hconcerns occurrence (hbefore occurrence hmem)).ne_aborted protocol cause
  refine .of_clean horderly ?_ ?_
  · intro activation hmem
    rw [hlog, hnew _ _ fun _ ↦ id]
    rw [hafter, List.mem_cons] at hmem
    rcases hmem with rfl | hmem
    · rwa [hnumber]
    · exact h.clean top below hbefore activation hmem
  · rw [hlog]
    refine h.final.append fun before occurrence later hsplit ↦ ?_
    refine abortIsFinal_of_concerns (hconcerns occurrence (by simp [hsplit])) ?_
    rwa [hnew before _ fun other hmem ↦ by simp [hsplit, hmem]]

/-- The request of the innermost handler is aborted: its handler is doomed. -/
theorem FinalAborts.abort (h : FinalAborts worker) (hcondition : NotYetApproved worker event)
    {top top' : Activation} {below : List Activation} {cause : AbortCause}
    {occurrences : List Occurrence} (horderly : Orderly worker')
    (hprocessing : worker.transport.processing = true)
    (hbefore : worker.activations = top :: below) (hafter : worker'.activations = top' :: below)
    (hnumber : top'.number = top.number) (hclean : ¬AbortedByInit worker.log top.number)
    (hlog : worker'.log = worker.log ++ .aborted top.number top.protocol cause :: occurrences)
    (hconcerns : ∀ occurrence ∈ occurrences, (∃ message, occurrence = .sent message) ∨
      occurrence = .polled top.number .keepaliveCancel)
    (hplace : AbortPlace worker worker' event cause top top') : FinalAborts worker' := by
  have hlater (found : ℕ) : ∀ occurrence ∈ occurrences, ∀ protocol cause,
      occurrence ≠ .aborted found protocol cause := by
    intro occurrence hmem protocol other
    rcases hconcerns occurrence hmem with ⟨message, rfl⟩ | rfl <;> simp
  have hnew (found : ℕ) (hfound : AbortedByInit worker'.log found) :
      AbortedByInit worker.log found ∨
        found = top.number ∧ top.protocol = .ctap2 ∧ cause ≠ .connection := by
    rw [hlog, List.append_cons, abortedByInit_append (hlater found)] at hfound
    rcases hfound with hfound | hfound
    all_goals
      rcases List.mem_append.mp hfound with hfound | hfound
      · exact Or.inl (by simp [AbortedByInit, hfound])
      · obtain ⟨rfl, hprotocol, rfl⟩ := Occurrence.aborted.inj (List.mem_singleton.mp hfound)
        exact Or.inr ⟨rfl, hprotocol.symm, by simp⟩
  refine ⟨horderly, ?_, ?_, ?_⟩
  · intro first others hactivations haborted
    obtain ⟨rfl, -⟩ := List.cons_eq_cons.mp (hafter.symm.trans hactivations)
    rw [hnumber] at haborted
    obtain ⟨-, hprotocol, hcause⟩ := (hnew _ haborted).resolve_left hclean
    unfold Doomed
    cases hplace with
    | returning phase remaining =>
      rw [phase]
      exact remaining
    | checking timedOut cancel phase phase' remaining sendKeepalive done approval approved init =>
      rw [phase']
      rcases init with hcancel | hinit
      · exact Or.inl hcancel
      · refine Or.inr ⟨done, refused_of_not_pending approval fun happroved ↦ ?_⟩
        refine hcondition hinit hprocessing ?_ ?_ (approved happroved)
        · simp [Worker.servesCbor, hbefore, hprotocol]
        · simp [Worker.phase, hbefore, phase, Phase.isReading]
    | reading cause_eq => exact absurd cause_eq hcause
  · intro first others hactivations activation hmem haborted
    obtain ⟨-, rfl⟩ := List.cons_eq_cons.mp (hafter.symm.trans hactivations)
    rcases hnew _ haborted with haborted | ⟨heq, -⟩
    · exact h.clean top below hbefore activation hmem haborted
    · have hdistinct := h.orderly.distinct
      rw [hbefore, List.map_cons, List.nodup_cons] at hdistinct
      exact hdistinct.1 (heq ▸ List.mem_map_of_mem hmem)
  · rw [hlog]
    refine h.final.append fun before occurrence later hsplit ↦ ?_
    have hmem : occurrence ∈ .aborted top.number top.protocol cause :: occurrences := by
      simp [hsplit]
    rcases List.mem_cons.mp hmem with rfl | hmem
    · exact abortIsFinal_of_harmless (by simp) (by simp) (by simp)
    · rcases hconcerns occurrence hmem with hsent | rfl
      · exact abortIsFinal_sent hsent
      · exact abortIsFinal_of_harmless (by simp) (by simp) (by simp)

/-- A step while no request of the stack is aborted. -/
theorem FinalAborts.clean_step (h : FinalAborts worker) (hcondition : NotYetApproved worker event)
    (hclean : ∀ activation ∈ worker.activations, ¬AbortedByInit worker.log activation.number)
    (hchange : Change worker event worker') : FinalAborts worker' := by
  have horderly := hchange.orderly h.orderly
  cases hchange with
  | external session processing activations log dispatched signalled =>
    refine .of_clean horderly ?_ ?_
    · rw [activations, log]
      exact hclean
    · rw [log]
      exact h.final
  | main session processing before after log sent dispatched =>
    refine .of_clean horderly (by simp [after]) ?_
    rw [log]
    exact h.final.append fun earlier occurrence later hsplit ↦
      abortIsFinal_sent (sent occurrence (by simp [hsplit]))
  | @advance top top' below occurrences session processing before after continues log concerns =>
    exact h.advance horderly before after continues.number (hclean top (by simp [before])) log concerns
  | @abort top top' below cause occurrences session processing processing' generation before after
      continues log concerns dispatched place =>
    exact h.abort hcondition horderly processing before after continues.number
      (hclean top (by simp [before])) log concerns place
  | @push top' rest occurrences session processing after rest_eq number generation phase asksOnce log
      sent dispatched reading completes =>
    have hnew (found : ℕ) : AbortedByInit worker'.log found ↔ AbortedByInit worker.log found := by
      rw [log, List.append_assoc, abortedByInit_append]
      intro occurrence hmem protocol cause
      rcases List.mem_append.mp hmem with hmem | hmem
      · obtain ⟨message, rfl⟩ := sent occurrence hmem
        simp
      · rw [List.mem_singleton.mp hmem]
        simp
    refine .of_clean horderly ?_ ?_
    · intro activation hmem
      rw [hnew]
      rw [after, List.mem_cons] at hmem
      rcases hmem with rfl | hmem
      · rw [number]
        intro haborted
        exact absurd (h.orderly.logged _ haborted.wasAborted) (lt_irrefl _)
      · rcases rest_eq with ⟨-, rfl⟩ | ⟨top, below, timedOut, cancel, cancel', before, -, rfl⟩
        · exact absurd hmem List.not_mem_nil
        · rcases List.mem_cons.mp hmem with rfl | hmem
          · exact hclean top (by simp [before])
          · exact hclean activation (by simp [before, hmem])
    · rw [log, everyEvent_concat]
      refine ⟨h.final.append fun earlier occurrence later hsplit ↦
        abortIsFinal_sent (sent occurrence (by simp [hsplit])), ?_⟩
      exact abortIsFinal_of_harmless (by simp) (by simp) (by simp)
  | @pop top below occurrences session processing before phase after log response dispatched =>
    have hoccurrences : ∀ occurrence ∈ occurrences, ∃ message,
        occurrence = .response top.number message := by
      intro occurrence hmem
      rcases response with rfl | ⟨message, rfl, -⟩
      · exact absurd hmem List.not_mem_nil
      · exact ⟨message, List.mem_singleton.mp hmem⟩
    have hnumbers : worker'.activations.map Activation.number = below.map Activation.number := by
      rcases after with after | ⟨next, deeper, timedOut, cancel, phase', rfl, hnext, after, -⟩
      · rw [after]
      · rw [after]
        rfl
    refine .of_clean horderly ?_ ?_
    · intro activation hmem
      obtain ⟨other, hother, hnumber⟩ := exists_mem_of_map_number hnumbers hmem
      rw [log, abortedByInit_append, ← hnumber]
      · exact hclean other (by simp [before, hother])
      · intro occurrence hmem protocol cause
        obtain ⟨message, rfl⟩ := hoccurrences occurrence hmem
        simp
    · rw [log]
      refine h.final.append fun earlier occurrence later hsplit ↦ ?_
      obtain ⟨message, rfl⟩ := hoccurrences occurrence (by simp [hsplit])
      exact abortIsFinal_of_harmless (by simp) (by simp) (by simp)

theorem FinalAborts.step (worker : Worker) (event : Event)
    (hcondition : NotYetApproved worker event) (h : FinalAborts worker) :
    FinalAborts (step worker event) := by
  have hchange := change_step h.orderly event
  cases hactivations : worker.activations with
  | nil => exact h.clean_step hcondition (by simp [hactivations]) hchange
  | cons top below =>
    by_cases haborted : AbortedByInit worker.log top.number
    · exact h.doomed_step hactivations haborted event
    · refine h.clean_step hcondition (fun activation hmem ↦ ?_) hchange
      rw [hactivations, List.mem_cons] at hmem
      rcases hmem with rfl | hmem
      · exact haborted
      · exact h.clean top below hactivations activation hmem

end Run

section Samples

/-- A profile with every protocol on, at tick zero, where the next channel to be allocated is 7. -/
def sampleSurroundings : Surroundings where
  now := 0
  random := fun _ ↦ 7
  capabilities := { u2fEnabled := true, fido2Enabled := true, transportWinkEnabled := true }

/-- The host sends a message of one frame on a channel. -/
def hostSends (cid : UInt32) (cmd : UInt8) (data : Bytes) (path : HandlerPath) : Event :=
  .packet (initFrame ⟨cid, cmd, data⟩) sampleSurroundings path

/-- The host gets channel 7 and sends makeCredential on it; the handler passes its first poll and
waits for the user. -/
def waitingForApproval : List Event :=
  [.wake { connect := true }, hostSends broadcastCid cmdInit (List.replicate 8 1) .getInfo,
    .proceed 0, .wake {}, hostSends 7 cmdCbor [0x01] .makeCredential, .proceed 0, .noPacket 0,
    .proceed 0, .proceed 0]

/-- INIT on channel 7 is handled while the interaction is pending. -/
def initWhilePending : List Event :=
  waitingForApproval ++ [.wake {}, hostSends 7 cmdInit (List.replicate 8 2) .getInfo, .proceed 0,
    .proceed 0, .answer .approve, .proceed 0, .proceed 0]

/-- The user approves, INIT on channel 7 is handled next, and the handler goes on to its commit. -/
def initAfterApproval : List Event :=
  waitingForApproval ++ [.answer .approve, .wake {},
    hostSends 7 cmdInit (List.replicate 8 2) .getInfo, .proceed 0, .proceed 0, .proceed 0,
    .proceed 0, .proceed 0, .proceed 0, .proceed 0]

end Samples

end ZeroFido.Usb
