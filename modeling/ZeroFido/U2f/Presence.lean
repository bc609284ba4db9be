import ZeroFido.Foundations.Run
import ZeroFido.U2f.CounterOrder

/-!
# The user's presence is used once

A registration that returns 9000 and an authentication that claims the user's presence are made
while a message is handled whose own prompt was approved. Every prompt belongs to one message and
every message has one response, so an approval stands behind at most one of them; and when no
message is being handled no presence is left in the session (`presence_used_once`).

A message that waits may have other messages handled inside its wait. `Attended` is the invariant:
the session holds a presence only for the innermost message, and the signal of the approval record,
when it is given, is for the innermost message that waits.
-/

set_option autoImplicit false
set_option relaxedAutoImplicit false

namespace ZeroFido.U2f

open Foundations

section Statement

/-- The prompt was put up after the message began, and the user approved it. -/
def ApprovedBy (ui : Ui.App) (since : ℕ) (prompt : Option ℕ) : Prop :=
  ∃ number, prompt = some number ∧ since < number ∧
    ∃ change ∈ ui.changes, change.request = number ∧ change.after = .approved

/-- A message and its prompt. -/
structure Ticket where
  message : ℕ
  prompt : Option ℕ
  deriving DecidableEq, Repr

/-- Two messages, and no prompt that they share. -/
def Ticket.Apart (first second : Ticket) : Prop :=
  first.message ≠ second.message ∧
    ∀ number, first.prompt = some number → second.prompt ≠ some number

def Response.ticket (response : Response) : Ticket := ⟨response.message, response.prompt⟩

/-- A response that claims the user's presence. -/
def Response.isClaim (response : Response) : Bool :=
  claimsPresence response.request response.bytes

/-- Responses claim presence only for an approved prompt of their message, no two responses share a
message or a prompt, and nothing is left when no message is being handled. -/
structure PresenceOnce (state : State) : Prop where
  approved : ∀ response ∈ state.responses, response.isClaim = true →
    ApprovedBy state.ui response.since response.prompt
  apart : state.responses.Pairwise fun first second ↦ first.ticket.Apart second.ticket
  cleared : state.handlers = [] → ∀ session, state.u2f = some session → session.userPresent = false

end Statement

section Invariant

/-- No signal is given and no request is pending. -/
def Quiet (ui : Ui.App) : Prop := ui.approval.done = false ∧ ui.approval.state ≠ .pending

def Handler.ticket (handler : Handler) : Ticket := ⟨handler.message, handler.prompt⟩

def Handler.isWaiting (handler : Handler) : Bool := handler.phase == .waiting

/-- The messages whose response is still to come. -/
def openTickets (handlers : List Handler) : List Ticket :=
  (handlers.filter fun handler ↦ handler.phase != .parsed).map Handler.ticket

def State.tickets (state : State) : List Ticket :=
  state.responses.map Response.ticket ++ openTickets state.handlers

/-- The presence in the session. -/
def presence (u2f : Option U2fData) : Bool := u2f.any fun session ↦ session.userPresent

/-- The message waits on a prompt that was put up after it began. -/
def Handler.AwaitsPrompt (handler : Handler) : Prop :=
  ∃ number, handler.prompt = some number ∧ handler.since < number

/-- What is known of a handler by its phase. -/
def Handler.Sound (ui : Ui.App) (present : Bool) (handler : Handler) : Prop :=
  match handler.phase with
  | .waiting => present = false ∧ handler.AwaitsPrompt
  | .approved => present = false ∧ ApprovedBy ui handler.since handler.prompt
  | .ready => present = true → ApprovedBy ui handler.since handler.prompt
  | .parsed => True

/-- The invariant of the approval record. -/
structure RecordSound (ui : Ui.App) : Prop where
  manual : ui.autoAccept = false
  signal : ui.approval.done = true → ui.approval.state ≠ .pending
  approved : ui.approval.state = .approved → ∃ change ∈ ui.changes,
    change.request = ui.requests ∧ change.after = .approved

/-- The messages and prompts are numbered below the next ones, and no two messages share a prompt.
-/
structure TicketsSound (messages requests : ℕ) (tickets : List Ticket) : Prop where
  apart : tickets.Pairwise Ticket.Apart
  messages : ∀ ticket ∈ tickets, ticket.message < messages
  prompts : ∀ ticket ∈ tickets, ∀ number, ticket.prompt = some number → number ≤ requests

/-- The messages that are being handled: all but the innermost one wait, and the signal is for the
innermost one that waits. -/
structure HandlersSound (ui : Ui.App) (present : Bool) (handlers : List Handler) : Prop where
  empty : handlers = [] → present = false
  inner : ∀ handler rest, handlers = handler :: rest → handler.Sound ui present
  outer : ∀ handler rest, handlers = handler :: rest →
    ∀ waiting ∈ rest, waiting.phase = .waiting ∧ waiting.AwaitsPrompt
  signalled : ∀ handler, handlers.find? Handler.isWaiting = some handler →
    handler.prompt = some ui.requests ∨ Quiet ui

structure Attended (state : State) : Prop where
  record : RecordSound state.ui
  approved : ∀ response ∈ state.responses, response.isClaim = true →
    ApprovedBy state.ui response.since response.prompt
  tickets : TicketsSound state.messages state.ui.requests state.tickets
  handlers : HandlersSound state.ui (presence state.u2f) state.handlers

end Invariant

section Parts

variable {ui next : Ui.App} {present : Bool} {handler : Handler} {rest handlers : List Handler}

theorem Ticket.Apart.symm {first second : Ticket} (h : first.Apart second) : second.Apart first :=
  ⟨h.1.symm, fun number hsecond hfirst ↦ h.2 number hfirst hsecond⟩

/-- A new message, with a prompt that is put up for it or with none. -/
theorem TicketsSound.insert {messages requests requests' : ℕ} {before after : List Ticket}
    (h : TicketsSound messages requests (before ++ after)) (hle : requests ≤ requests')
    {prompt : Option ℕ}
    (hprompt : ∀ number, prompt = some number → requests < number ∧ number ≤ requests') :
    TicketsSound (messages + 1) requests' (before ++ ⟨messages, prompt⟩ :: after) := by
  have hmem : ∀ ticket ∈ before ++ ⟨messages, prompt⟩ :: after,
      ticket = ⟨messages, prompt⟩ ∨ ticket ∈ before ++ after := by
    intro ticket hticket
    simp only [List.mem_append, List.mem_cons] at hticket ⊢
    tauto
  constructor
  · rw [List.pairwise_middle fun hapart ↦ hapart.symm, List.pairwise_cons]
    refine ⟨?_, h.apart⟩
    intro ticket hticket
    constructor
    · exact (Nat.ne_of_lt (h.messages ticket hticket)).symm
    · intro number hnew hold
      have hlt := (hprompt number hnew).1
      have hbound := h.prompts ticket hticket number hold
      omega
  · intro ticket hticket
    rcases hmem ticket hticket with rfl | hold
    · exact Nat.lt_succ_self _
    · exact Nat.lt_succ_of_lt (h.messages ticket hold)
  · intro ticket hticket number hnumber
    rcases hmem ticket hticket with rfl | hold
    · exact (hprompt number hnumber).2
    · exact Nat.le_trans (h.prompts ticket hold number hnumber) hle

/-- Messages that are given up. -/
theorem TicketsSound.left {messages requests : ℕ} {before after : List Ticket}
    (h : TicketsSound messages requests (before ++ after)) :
    TicketsSound messages requests before where
  apart := (List.pairwise_append.mp h.apart).1
  messages := fun ticket hticket ↦ h.messages ticket (List.mem_append_left _ hticket)
  prompts := fun ticket hticket ↦ h.prompts ticket (List.mem_append_left _ hticket)

theorem openTickets_cons_open (h : handler.phase ≠ .parsed) :
    openTickets (handler :: rest) = handler.ticket :: openTickets rest := by
  simp [openTickets, List.filter_cons_of_pos, h]

theorem openTickets_cons_parsed (h : handler.phase = .parsed) :
    openTickets (handler :: rest) = openTickets rest := by
  simp [openTickets, h]

theorem ApprovedBy.later {since : ℕ} {prompt : Option ℕ} (h : ApprovedBy ui since prompt)
    (hchanges : ∃ more, next.changes = ui.changes ++ more) : ApprovedBy next since prompt := by
  obtain ⟨number, hnumber, hlt, change, hmem, hchange⟩ := h
  obtain ⟨more, hmore⟩ := hchanges
  refine ⟨number, hnumber, hlt, change, ?_, hchange⟩
  rw [hmore]
  exact List.mem_append_left _ hmem

theorem Handler.Sound.later (h : handler.Sound ui present)
    (hchanges : ∃ more, next.changes = ui.changes ++ more) : handler.Sound next present := by
  unfold Handler.Sound at h ⊢
  cases hphase : handler.phase with
  | waiting => simpa only [hphase] using h
  | approved =>
    simp only [hphase] at h ⊢
    exact ⟨h.1, h.2.later hchanges⟩
  | ready =>
    simp only [hphase] at h ⊢
    exact fun hpresent ↦ (h hpresent).later hchanges
  | parsed => trivial

/-- Without a presence less has to be known. -/
theorem Handler.Sound.absent (h : handler.Sound ui present) : handler.Sound ui false := by
  unfold Handler.Sound at h ⊢
  cases hphase : handler.phase with
  | waiting =>
    simp only [hphase] at h ⊢
    exact ⟨trivial, h.2⟩
  | approved =>
    simp only [hphase] at h ⊢
    exact ⟨trivial, h.2⟩
  | ready => simp
  | parsed => trivial

theorem handler_sound_waiting (hphase : handler.phase = .waiting) (h : handler.AwaitsPrompt) :
    handler.Sound ui false := by
  unfold Handler.Sound
  simp only [hphase]
  exact ⟨trivial, h⟩

/-- What is known of a message that waits. -/
theorem Handler.Sound.of_waiting (h : handler.Sound ui present) (hphase : handler.phase = .waiting) :
    present = false ∧ handler.AwaitsPrompt := by
  unfold Handler.Sound at h
  simpa only [hphase] using h

theorem RecordSound.later (h : RecordSound ui) (hsignals : Ui.Signals ui next) :
    RecordSound next := by
  obtain ⟨hrequests, hauto, ⟨more, hmore⟩, hsignal⟩ := hsignals
  refine ⟨hauto.trans h.manual, ?_, ?_⟩
  · intro hdone
    rcases hsignal with ⟨hstate, hsame⟩ | ⟨-, hsettled, -⟩
    · rw [hstate]
      exact h.signal (hsame.symm.trans hdone)
    · exact hsettled
  · intro happroved
    rcases hsignal with ⟨hstate, -⟩ | ⟨-, -, -, hchange⟩
    · obtain ⟨change, hmem, hchange⟩ := h.approved (hstate.symm.trans happroved)
      refine ⟨change, ?_, ?_⟩
      · rw [hmore]
        exact List.mem_append_left _ hmem
      · rwa [hrequests]
    · rw [hrequests]
      exact hchange happroved

/-- A quiet record stays quiet until there is a request. -/
theorem Quiet.later (h : Quiet ui) (hsignals : Ui.Signals ui next) : Quiet next := by
  rcases hsignals.signal with ⟨hstate, hdone⟩ | ⟨hpending, -⟩
  · exact ⟨hdone.trans h.1, hstate ▸ h.2⟩
  · exact absurd hpending h.2

theorem HandlersSound.later (h : HandlersSound ui present handlers)
    (hsignals : Ui.Signals ui next) : HandlersSound next present handlers where
  empty := h.empty
  inner := fun handler rest hcons ↦ (h.inner handler rest hcons).later hsignals.changes
  outer := h.outer
  signalled := by
    intro handler hfind
    rcases h.signalled handler hfind with hprompt | hquiet
    · left
      rw [hsignals.requests]
      exact hprompt
    · right
      exact hquiet.later hsignals

theorem HandlersSound.absent (h : HandlersSound ui present handlers) :
    HandlersSound ui false handlers where
  empty := fun _ ↦ rfl
  inner := fun handler rest hcons ↦ (h.inner handler rest hcons).absent
  outer := h.outer
  signalled := h.signalled

theorem handlersSound_nil : HandlersSound ui false [] where
  empty := fun _ ↦ rfl
  inner := by simp
  outer := by simp
  signalled := by simp

/-- The innermost message is answered. -/
theorem HandlersSound.pop (h : HandlersSound ui present (handler :: rest))
    (hsignalled : ∀ waiting, rest.find? Handler.isWaiting = some waiting →
      waiting.prompt = some next.requests ∨ Quiet next) : HandlersSound next false rest where
  empty := fun _ ↦ rfl
  inner := by
    rintro inner others rfl
    obtain ⟨hphase, hawaits⟩ := h.outer handler _ rfl inner List.mem_cons_self
    exact handler_sound_waiting hphase hawaits
  outer := by
    rintro inner others rfl waiting hwaiting
    exact h.outer handler _ rfl waiting (List.mem_cons_of_mem _ hwaiting)
  signalled := hsignalled

/-- The innermost message goes on. -/
theorem HandlersSound.advance {handler' : Handler} {present' : Bool}
    (h : HandlersSound ui present (handler :: rest)) (hsound : handler'.Sound next present')
    (hnot : handler'.isWaiting = false)
    (hsignalled : ∀ waiting, rest.find? Handler.isWaiting = some waiting →
      waiting.prompt = some next.requests ∨ Quiet next) :
    HandlersSound next present' (handler' :: rest) where
  empty := by simp
  inner := by
    rintro _ _ ⟨rfl⟩
    exact hsound
  outer := by
    rintro _ _ ⟨rfl⟩
    exact h.outer handler _ rfl
  signalled := by
    intro waiting hfind
    rw [List.find?_cons_of_neg (by simp [hnot])] at hfind
    exact hsignalled waiting hfind

/-- The signal is for a message that waits around one that does not. -/
theorem HandlersSound.signalled_rest (h : HandlersSound ui present (handler :: rest))
    (hnot : handler.isWaiting = false) (waiting : Handler)
    (hfind : rest.find? Handler.isWaiting = some waiting) :
    waiting.prompt = some ui.requests ∨ Quiet ui := by
  refine h.signalled waiting ?_
  rwa [List.find?_cons_of_neg (by simp [hnot])]

/-- When a message may begin, every message that is being handled waits, and there is no presence.
-/
theorem HandlersSound.all_wait (h : HandlersSound ui present handlers)
    (hbegin : ∀ handler rest, handlers = handler :: rest → handler.phase = .waiting) :
    present = false ∧ ∀ waiting ∈ handlers, waiting.phase = .waiting ∧ waiting.AwaitsPrompt := by
  cases hhandlers : handlers with
  | nil => exact ⟨h.empty hhandlers, by simp⟩
  | cons inner rest =>
    have hphase := hbegin inner rest hhandlers
    obtain ⟨hpresent, hawaits⟩ := (h.inner inner rest hhandlers).of_waiting hphase
    refine ⟨hpresent, ?_⟩
    intro waiting hmem
    rcases List.mem_cons.mp hmem with rfl | hrest
    · exact ⟨hphase, hawaits⟩
    · exact h.outer inner rest hhandlers waiting hrest

/-- A message begins. -/
theorem HandlersSound.push (hall : ∀ waiting ∈ handlers, waiting.phase = .waiting ∧
      waiting.AwaitsPrompt) (hsound : handler.Sound next present)
    (hsignalled : ∀ waiting, (handler :: handlers).find? Handler.isWaiting = some waiting →
      waiting.prompt = some next.requests ∨ Quiet next) :
    HandlersSound next present (handler :: handlers) where
  empty := by simp
  inner := by
    rintro _ _ ⟨rfl⟩
    exact hsound
  outer := by
    rintro _ _ ⟨rfl⟩
    exact hall
  signalled := hsignalled

end Parts

section Steps

variable {state next : State}

theorem attended_start (key : Stored Bytes) (counter : Stored UInt32) (inUse : List Bool) :
    Attended (State.start key counter inUse) where
  record := ⟨rfl, by simp [State.start, Ui.App.start], by simp [State.start, Ui.App.start]⟩
  approved := by simp [State.start]
  tickets := ⟨.nil, by simp [State.tickets, State.start, openTickets],
    by simp [State.tickets, State.start, openTickets]⟩
  handlers := handlersSound_nil

/-- The messages that were being handled are given up without a response. -/
theorem Attended.halt (h : Attended state) (device : Device) :
    Attended (halt { state with device := device }) where
  record := ⟨rfl, by simp [U2f.halt, Ui.App.start], by simp [U2f.halt, Ui.App.start]⟩
  approved := fun response hmem hclaim ↦
    (h.approved response hmem hclaim).later ⟨[], (List.append_nil _).symm⟩
  tickets := by
    show TicketsSound state.messages state.ui.requests (state.responses.map Response.ticket ++ [])
    rw [List.append_nil]
    exact h.tickets.left
  handlers := handlersSound_nil

/-- The approval record moves on, with no new request. -/
theorem Attended.ui (h : Attended state) {ui : Ui.App} (hsignals : Ui.Signals state.ui ui) :
    Attended { state with ui := ui } where
  record := h.record.later hsignals
  approved := fun response hmem hclaim ↦
    (h.approved response hmem hclaim).later hsignals.changes
  tickets := by
    show TicketsSound state.messages ui.requests state.tickets
    rw [hsignals.requests]
    exact h.tickets
  handlers := h.handlers.later hsignals

/-- The session is replaced by one without a presence. -/
theorem Attended.absent (h : Attended state) {u2f : Option U2fData} {device : Device}
    (hu2f : presence u2f = false) : Attended { state with u2f := u2f, device := device } where
  record := h.record
  approved := h.approved
  tickets := h.tickets
  handlers := by
    show HandlersSound state.ui (presence u2f) state.handlers
    rw [hu2f]
    exact h.handlers.absent

theorem presence_clear (u2f : Option U2fData) : presence (u2f.map clearUserPresent) = false := by
  cases u2f with
  | none => rfl
  | some session => rfl

/-- A message that is refused at once. -/
theorem attended_refuse (h : Attended state) {request bytes : Bytes}
    (hbytes : claimsPresence request bytes = false) : Attended (refuse state request bytes) where
  record := h.record
  approved := by
    intro response hmem hclaim
    rcases List.mem_append.mp hmem with hold | hnew
    · exact h.approved response hold hclaim
    · obtain rfl := List.mem_singleton.mp hnew
      rw [Response.isClaim, hbytes] at hclaim
      contradiction
  tickets := by
    have hinsert : TicketsSound (state.messages + 1) state.ui.requests
        (state.responses.map Response.ticket ++
          ⟨state.messages, none⟩ :: openTickets state.handlers) :=
      h.tickets.insert (Nat.le_refl _) (by simp)
    show TicketsSound (state.messages + 1) state.ui.requests
      ((state.responses ++ [_]).map Response.ticket ++ openTickets state.handlers)
    rw [List.map_append, List.append_assoc]
    exact hinsert
  handlers := h.handlers

theorem claimsPresence_refusal {request : Bytes} {status : ℕ} (hstatus : status ∈ refusals) :
    claimsPresence request (writeStatus status) = false := by
  simp [claimsPresence, isRegistration, isAuthentication, succeeded_writeStatus hstatus]

theorem claimsPresence_earlyResponse {request response : Bytes} {responseCapacity : ℕ}
    (h : earlyResponse state request responseCapacity = some response) :
    claimsPresence request response = false := by
  rcases earlyResponse_spec h with hfailed | hversion
  · simp only [claimsPresence, isRegistration, isAuthentication, hfailed, Bool.and_false,
      Bool.false_and, Bool.or_false]
  · simp only [claimsPresence, isRegistration, isAuthentication, hversion]
    rfl

/-- A step that only takes the innermost message on, or makes its response. -/
theorem Attended.advance (h : Attended state) {handler handler' : Handler} {rest : List Handler}
    (hhandlers : state.handlers = handler :: rest) (hnot : handler.isWaiting = false)
    (hnot' : handler'.isWaiting = false) {u2f : Option U2fData} {device : Device}
    (hsound : handler'.Sound state.ui (presence u2f)) {responses : List Response}
    (happroved : ∀ response ∈ responses, response.isClaim = true →
      ApprovedBy state.ui response.since response.prompt)
    (htickets : responses.map Response.ticket ++ openTickets (handler' :: rest) = state.tickets) :
    Attended { state with
      u2f := u2f, device := device, handlers := handler' :: rest, responses := responses } where
  record := h.record
  approved := happroved
  tickets := by
    show TicketsSound state.messages state.ui.requests
      (responses.map Response.ticket ++ openTickets (handler' :: rest))
    rw [htickets]
    exact h.tickets
  handlers := by
    have hbefore := h.handlers
    rw [hhandlers] at hbefore
    exact hbefore.advance hsound hnot' (hbefore.signalled_rest hnot)

/-- A message that is refused in its wait. -/
theorem not_claim_respond (handler : Handler) :
    (respond handler none (writeStatus swConditionsNotSatisfied)).isClaim = false :=
  claimsPresence_refusal (by decide)

theorem waiting_of_mayBegin (h : state.mayBegin = true) (handler : Handler) (rest : List Handler)
    (hhandlers : state.handlers = handler :: rest) : handler.phase = .waiting := by
  unfold State.mayBegin at h
  rw [hhandlers] at h
  exact eq_of_beq h

/-- A message goes on to the session without a prompt. -/
theorem attended_begin_ready (h : Attended state) (hbegin : state.mayBegin = true)
    (request : Bytes) (responseCapacity : ℕ) :
    Attended (begin state request responseCapacity state.ui.requests none .ready) := by
  obtain ⟨hpresent, hall⟩ := h.handlers.all_wait (waiting_of_mayBegin hbegin)
  exact
    { record := h.record
      approved := h.approved
      tickets := h.tickets.insert (Nat.le_refl _) (by simp)
      handlers := by
        refine HandlersSound.push hall ?_ ?_
        · intro hyes
          exact absurd (hpresent.symm.trans hyes) (by decide)
        · intro waiting hfind
          exact h.handlers.signalled waiting hfind }

/-- A message puts up a prompt and waits. -/
theorem attended_begin_waiting (h : Attended state) (hbegin : state.mayBegin = true)
    (request : Bytes) (responseCapacity : ℕ) {ui : Ui.App} (hasks : Ui.Asks state.ui ui) :
    Attended (begin { state with ui := ui } request responseCapacity state.ui.requests
      (some ui.requests) .waiting) := by
  obtain ⟨hpresent, hall⟩ := h.handlers.all_wait (waiting_of_mayBegin hbegin)
  have hchanges : ∃ more, ui.changes = state.ui.changes ++ more :=
    ⟨[], hasks.changes.trans (List.append_nil _).symm⟩
  have hlt : state.ui.requests < ui.requests := by
    rw [hasks.requests]
    exact Nat.lt_succ_self _
  exact
    { record :=
        { manual := hasks.autoAccept.trans h.record.manual
          signal := fun hdone ↦ absurd (hasks.done.symm.trans hdone) (by decide)
          approved := fun happroved ↦ absurd (hasks.state.symm.trans happroved) (by decide) }
      approved := fun response hmem hclaim ↦ (h.approved response hmem hclaim).later hchanges
      tickets := by
        refine h.tickets.insert (Nat.le_of_lt hlt) ?_
        rintro number ⟨rfl⟩
        exact ⟨hlt, Nat.le_refl _⟩
      handlers := by
        refine HandlersSound.push hall ⟨hpresent, ui.requests, rfl, hlt⟩ ?_
        rintro waiting ⟨rfl⟩
        exact Or.inl rfl }

theorem Attended.requestPresence (h : Attended state) (hbegin : state.mayBegin = true)
    (request : Bytes) (responseCapacity : ℕ) (tick : UInt32) :
    Attended (requestPresence state request responseCapacity tick) := by
  unfold U2f.requestPresence
  by_cases hsession : state.u2f = none
  · rw [if_pos hsession]
    exact attended_refuse h (claimsPresence_refusal (by decide))
  · rw [if_neg hsession]
    by_cases hneeds : (!requestNeedsUserPresence request) = true
    · rw [if_pos hneeds]
      exact attended_begin_ready h hbegin request responseCapacity
    · rw [if_neg hneeds]
      dsimp only
      have hcases := Ui.requestApproval_cases h.record.manual .u2f (operationName request)
        (formatAppId request) "Touch required".toList tick
      generalize Ui.requestApproval state.ui .u2f (operationName request) (formatAppId request)
        "Touch required".toList tick = ui at hcases ⊢
      rcases hcases with hrefused | hasks
      · rw [if_neg (not_not.mpr hrefused.requests), if_neg (by simp [h.record.manual])]
        exact attended_refuse (h.ui hrefused) (claimsPresence_refusal (by decide))
      · rw [if_pos (by simp [hasks.requests])]
        exact attended_begin_waiting h hbegin request responseCapacity hasks

/-- An initialisation, which never makes a session with a presence. -/
theorem Attended.adapterInit (h : Attended state) (attestation : Option Bytes)
    (outcomes : Outcomes) : Attended (adapterInit state attestation outcomes).2 := by
  have hspec := onDevice_of_ensures outcomes state.device (ensures_u2fInit attestation)
  unfold U2f.adapterInit
  by_cases hready : (state.u2f.isSome || !state.u2fEnabled) = true
  · rw [if_pos hready]
    exact h
  · rw [if_neg hready]
    split at hspec
    · rename_i session device hrun
      rw [hrun]
      refine h.absent ?_
      cases session with
      | none => rfl
      | some made => exact (hspec.2 made rfl).2.2.2
    · rename_i device hrun
      rw [hrun]
      exact h.halt device

theorem handlers_adapterInit {attestation : Option Bytes} {outcomes : Outcomes} {ready : Bool}
    (h : adapterInit state attestation outcomes = (some ready, next)) :
    next.handlers = state.handlers := by
  unfold U2f.adapterInit at h
  split_ifs at h
  · obtain ⟨-, rfl⟩ := Prod.mk.inj h
    rfl
  · split at h
    · obtain ⟨-, rfl⟩ := Prod.mk.inj h
      rfl
    · simp at h

theorem Attended.handleMsg (h : Attended state) (hbegin : state.mayBegin = true) (request : Bytes)
    (responseCapacity : ℕ) (attestation : Option Bytes) (outcomes : Outcomes) (tick : UInt32) :
    Attended (handleMsg state request responseCapacity attestation outcomes tick) := by
  have hinit := h.adapterInit attestation outcomes
  unfold U2f.handleMsg
  split
  · rename_i response hearly
    exact attended_refuse h (claimsPresence_earlyResponse hearly)
  · split
    · rename_i next hnext
      rwa [hnext] at hinit
    · rename_i next hnext
      rw [hnext] at hinit
      exact attended_refuse hinit (claimsPresence_refusal (by decide))
    · rename_i next hnext
      have hhandlers := handlers_adapterInit hnext
      rw [hnext] at hinit
      split_ifs
      · refine attended_refuse hinit ?_
        simp [claimsPresence, isRegistration, isAuthentication, succeeded, writeStatus]
      · refine hinit.requestPresence ?_ request responseCapacity tick
        unfold State.mayBegin at hbegin ⊢
        rwa [hhandlers]

/-- The wait of the innermost message takes the signal, which is for its own prompt. -/
theorem Attended.wake (h : Attended state) : Attended (wake state) := by
  unfold U2f.wake
  split
  · exact h
  · rename_i handler rest hhandlers
    by_cases hquiet : handler.phase ≠ .waiting ∨ state.ui.approval.done = false
    · rw [if_pos hquiet]
      exact h
    · rw [if_neg hquiet]
      obtain ⟨hphase, hdone⟩ := not_or.mp hquiet
      have hphase : handler.phase = .waiting := not_not.mp hphase
      have hdone : state.ui.approval.done = true := by simpa using hdone
      have hbefore := h.handlers
      rw [hhandlers] at hbefore
      obtain ⟨hpresent, hawaits⟩ := (hbefore.inner handler rest rfl).of_waiting hphase
      have hprompt : handler.prompt = some state.ui.requests := by
        refine (hbefore.signalled handler ?_).resolve_right ?_
        · exact List.find?_cons_of_pos (by simp [Handler.isWaiting, hphase])
        · intro hquiet
          exact absurd (hquiet.1.symm.trans hdone) (by decide)
      have htickets : TicketsSound state.messages state.ui.requests
          (state.responses.map Response.ticket ++ handler.ticket :: openTickets rest) := by
        rw [← openTickets_cons_open (by simp [hphase]), ← hhandlers]
        exact h.tickets
      have hsettled := h.record.signal hdone
      have hrecord : RecordSound
          { state.ui with approval := { state.ui.approval with done := false } } :=
        ⟨h.record.manual, by simp, h.record.approved⟩
      dsimp only
      by_cases happroved : state.ui.approval.state = .approved
      · rw [if_pos happroved]
        obtain ⟨number, hnumber, hlt⟩ := hawaits
        obtain rfl := Option.some.inj (hprompt.symm.trans hnumber)
        refine ⟨hrecord, h.approved, ?_, ?_⟩
        · exact htickets
        · rw [hpresent]
          refine hbefore.advance ?_ rfl fun waiting _ ↦ Or.inr ⟨rfl, hsettled⟩
          exact ⟨rfl, state.ui.requests, hprompt, hlt, h.record.approved happroved⟩
      · rw [if_neg happroved]
        refine ⟨hrecord, ?_, ?_, ?_⟩
        · intro response hmem hclaim
          rcases List.mem_append.mp hmem with hold | hnew
          · exact h.approved response hold hclaim
          · obtain rfl := List.mem_singleton.mp hnew
            exact absurd hclaim (by simp [not_claim_respond])
        · show TicketsSound state.messages state.ui.requests
            ((state.responses ++ [_]).map Response.ticket ++ openTickets rest)
          rw [List.map_append, List.append_assoc]
          exact htickets
        · show HandlersSound _ (presence state.u2f) rest
          rw [hpresent]
          exact hbefore.pop fun waiting _ ↦ Or.inr ⟨rfl, hsettled⟩

/-- Every message that is being handled is given up in its wait. -/
theorem Attended.abandon (h : Attended state) : Attended (abandon state) := by
  unfold U2f.abandon
  by_cases hall : (state.handlers.all fun handler ↦ handler.phase == .waiting) = true
  · rw [if_pos hall]
    have hwaiting : ∀ handler ∈ state.handlers, handler.phase = .waiting :=
      fun handler hmem ↦ eq_of_beq (List.all_eq_true.mp hall handler hmem)
    have htickets : openTickets state.handlers = state.handlers.map Handler.ticket := by
      unfold openTickets
      rw [List.filter_eq_self.mpr fun handler hmem ↦ by simp [hwaiting handler hmem]]
    have hpresent : presence state.u2f = false := by
      refine (h.handlers.all_wait ?_).1
      intro handler rest hhandlers
      exact hwaiting handler (hhandlers ▸ List.mem_cons_self)
    refine ⟨h.record, ?_, ?_, ?_⟩
    · intro response hmem hclaim
      rcases List.mem_append.mp hmem with hold | hnew
      · exact h.approved response hold hclaim
      · obtain ⟨handler, -, rfl⟩ := List.mem_map.mp hnew
        exact absurd hclaim (by simp [not_claim_respond])
    · have hbefore := h.tickets
      rw [State.tickets, htickets] at hbefore
      show TicketsSound state.messages state.ui.requests
        ((state.responses ++ state.handlers.map _).map Response.ticket ++ [])
      rw [List.map_append, List.map_map, List.append_nil]
      exact hbefore
    · show HandlersSound state.ui (presence state.u2f) []
      rw [hpresent]
      exact handlersSound_nil
  · rw [if_neg hall]
    exact h

/-- The presence is set for the message that was approved. -/
theorem Attended.confirm (h : Attended state) : Attended (confirm state) := by
  unfold U2f.confirm
  split
  · exact h
  · rename_i handler rest hhandlers
    by_cases hphase : handler.phase ≠ .approved
    · rw [if_pos hphase]
      exact h
    · rw [if_neg hphase]
      have hphase : handler.phase = .approved := not_not.mp hphase
      have hsound := h.handlers.inner handler rest hhandlers
      unfold Handler.Sound at hsound
      simp only [hphase] at hsound
      refine h.advance hhandlers (by simp [Handler.isWaiting, hphase]) rfl ?_ h.approved ?_
      · exact fun _ ↦ hsound.2
      · rw [State.tickets, hhandlers, openTickets_cons_open (by simp),
          openTickets_cons_open (by simp [hphase])]
        rfl

/-- The session answers the message. A response that claims presence consumes the one that was set
for it. -/
theorem Attended.parse (h : Attended state) (hcounted : Counted state) (env : Surroundings)
    (outcomes : Outcomes) : Attended (parse state env outcomes) := by
  unfold U2f.parse
  split
  · exact h
  · rename_i handler rest hhandlers
    by_cases hphase : handler.phase ≠ .ready
    · rw [if_pos hphase]
      exact h
    · rw [if_neg hphase]
      have hphase : handler.phase = .ready := not_not.mp hphase
      split
      · exact h.halt state.device
      · rename_i session hu2f
        obtain ⟨hle, hcovers⟩ := (hcounted.session session hu2f).1
        have hspec := onDevice_of_ensures outcomes state.device
          (ensures_msgParse env handler.request handler.responseCapacity ⟨hle, hcovers⟩)
        split
        · rename_i session' bytes device hrun
          rw [hrun] at hspec
          have hsound := h.handlers.inner handler rest hhandlers
          unfold Handler.Sound at hsound
          simp only [hphase] at hsound
          refine h.advance hhandlers (by simp [Handler.isWaiting, hphase]) rfl ?_ ?_ ?_
          · trivial
          · intro response hmem hclaim
            rcases List.mem_append.mp hmem with hold | hnew
            · exact h.approved response hold hclaim
            · obtain rfl := List.mem_singleton.mp hnew
              refine hsound ?_
              rw [hu2f]
              exact (hspec.1.claimed hclaim).1
          · rw [State.tickets, hhandlers, openTickets_cons_parsed rfl,
              openTickets_cons_open (by simp [hphase]), List.map_append, List.append_assoc]
            rfl
        · rename_i device hrun
          exact h.halt device

/-- The presence is cleared after the message, whatever became of it. -/
theorem Attended.clear (h : Attended state) : Attended (clear state) := by
  unfold U2f.clear
  split
  · exact h
  · rename_i handler rest hhandlers
    by_cases hphase : handler.phase ≠ .parsed
    · rw [if_pos hphase]
      exact h
    · rw [if_neg hphase]
      have hphase : handler.phase = .parsed := not_not.mp hphase
      have hbefore := h.handlers
      rw [hhandlers] at hbefore
      refine ⟨h.record, h.approved, ?_, ?_⟩
      · have htickets := h.tickets
        rw [State.tickets, hhandlers, openTickets_cons_parsed hphase] at htickets
        exact htickets
      · show HandlersSound state.ui (presence (state.u2f.map clearUserPresent)) rest
        rw [presence_clear]
        exact hbefore.pop (hbefore.signalled_rest (by simp [Handler.isWaiting, hphase]))

theorem Attended.reset (h : Attended state) (storeWiped : Bool) (attestation : Option Bytes)
    (outcomes : Outcomes) : Attended (reset state storeWiped attestation outcomes) := by
  unfold U2f.reset
  split
  · rename_i device hrun
    exact h.halt device
  · rename_i wiped device hrun
    have hwiped : Attended { state with u2f := none, device := device } := h.absent rfl
    dsimp only
    split_ifs
    · exact hwiped.adapterInit attestation _
    · exact hwiped

/-- What a step keeps. -/
theorem attended_step (event : Event) (hcounted : Counted state) (h : Attended state) :
    Attended (step state event) := by
  cases event with
  | message request responseCapacity attestation outcomes tick =>
    unfold step
    dsimp only
    split_ifs with hbegin
    · exact h.handleMsg hbegin request responseCapacity attestation outcomes tick
    · exact h
  | ui event =>
    unfold step
    dsimp only
    split_ifs with hevent
    · exact h.ui (Ui.signals_step hevent h.record.manual)
    · exact h
  | wake => exact h.wake
  | abandon => exact h.abandon
  | confirm => exact h.confirm
  | parse env outcomes => exact h.parse hcounted env outcomes
  | clear => exact h.clear
  | setConnected => exact h.absent (presence_clear state.u2f)
  | setU2fEnabled enabled => exact ⟨h.record, h.approved, h.tickets, h.handlers⟩
  | initialise attestation outcomes => exact h.adapterInit attestation outcomes
  | reset storeWiped attestation outcomes =>
    unfold step
    dsimp only
    split_ifs
    · exact h.reset storeWiped attestation outcomes
    · exact h
  | powerLoss => exact h.halt state.device

/-- What the invariant says of a state. -/
theorem Attended.presenceOnce (h : Attended state) : PresenceOnce state where
  approved := h.approved
  apart := List.pairwise_map.mp (List.pairwise_append.mp h.tickets.apart).1
  cleared := by
    intro hnone session hsession
    have hpresent := h.handlers.empty hnone
    rwa [hsession] at hpresent

/-- A response that claims the user's presence is for a message whose own prompt was approved, an
approval stands behind one response at most, and none is left over, in every run. -/
theorem presence_used_once (key : Stored Bytes) (counter : Stored UInt32) (inUse : List Bool)
    (events : List Event) :
    PresenceOnce (run step (State.start key counter inUse) events) := by
  have hstep : ∀ (state : State) (event : Event), Counted state ∧ Attended state →
      Counted (step state event) ∧ Attended (step state event) :=
    fun _ event h ↦ ⟨counted_step event h.1, attended_step event h.1 h.2⟩
  have hinvariant := run_invariant_always hstep events
    ⟨counted_start key counter inUse, attended_start key counter inUse⟩
  exact hinvariant.2.presenceOnce

/-- A registration that the user approves on its prompt. -/
def approvedRegistration : List Event :=
  [.message ([0, cmdRegister, 0, 0, 64] ++ List.replicate 64 0) 512 (some []) ⟨[], [], []⟩ 0,
    .ui .show, .ui .showView, .ui (.dialogKey .right), .wake, .confirm,
    .parse .standIn ⟨[], [], []⟩, .clear]

-- the second registration has a prompt of its own
example : (run step (State.start .missing .missing [])
    (approvedRegistration ++ approvedRegistration)).responses.map
      (fun response ↦ (response.isClaim, response.prompt)) = [(true, some 1), (true, some 2)] := by
  decide +kernel

end Steps

end ZeroFido.U2f
