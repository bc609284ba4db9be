import Mathlib.Data.List.Basic
import ZeroFido.Types

/-!
# The approval record and its two threads

The worker asks for an approval or for a choice of credential, waits for the record to be signalled
and reads the outcome. Inside its wait the worker may take another message, which asks in its turn,
so that the waits form a stack. The UI thread shows the prompt, takes the user's keys, lets the
request expire and hides the prompt again. They meet in one record, which is read and written under
one mutex, so that a step below is what happens under one acquisition of it. Only the rows of the
credentials menu, which the source reads one by one, are read in one step here (`showView`).

A step also keeps two records that are not in the program: every change of the outcome of a request,
with the key that brought it about, and every answer of the worker's wait.
-/

set_option autoImplicit false
set_option relaxedAutoImplicit false

namespace ZeroFido.Ui

/-- The text of a C string. -/
abbrev Text := List Char

section Record

inductive ApprovalState where
  | idle
  | pending
  | approved
  | denied
  | canceled
  | timedOut
  deriving DecidableEq, Repr

inductive InteractionKind where
  | approval
  | assertionSelection
  deriving DecidableEq, Repr

inductive UiProtocol where
  | fido2
  | u2f
  deriving DecidableEq, Repr

structure ApprovalPrompt where
  protocol : UiProtocol
  operation : Text
  userText : Text
  deriving DecidableEq, Repr

/-- `UINT16_MAX` in the two selected indices means that nothing is selected. -/
structure AssertionSelectionPrompt where
  credentialIndices : List UInt16
  selectedMenuIndex : UInt16
  selectedRecordIndex : UInt16
  deriving DecidableEq, Repr

/-- The two members of the union in the record. -/
inductive Details where
  | approval (prompt : ApprovalPrompt)
  | selection (prompt : AssertionSelectionPrompt)
  deriving DecidableEq, Repr

def Details.kind : Details → InteractionKind
  | .approval _ => .approval
  | .selection _ => .assertionSelection

/-- `ZfApprovalRequest`; the semaphore has room for one signal. -/
structure ApprovalRequest where
  state : ApprovalState
  targetId : Text
  generation : UInt32
  pendingHideGeneration : UInt32
  deadline : UInt32
  done : Bool
  details : Details
  deriving DecidableEq, Repr

def nothingSelected : UInt16 := 0xffff

def maxCredentials : ℕ := 32

def maxRpIdLen : ℕ := 256

def approvalTimeoutMs : UInt32 := 30000

end Record

section Formatting

/-- What fits in a buffer of the given size, next to the terminating zero. -/
def fitting (size : ℕ) (text : Text) : Text := text.take (size - 1)

def formatApprovalHeader (size : ℕ) (protocol : UiProtocol) (operation : Text) : Text :=
  fitting size <|
    match protocol with
    | .fido2 =>
      if operation = "Register".toList then "Create passkey".toList
      else if operation = "Authenticate".toList then "Use passkey".toList
      else if operation = "Reset".toList then "Reset ZeroFIDO".toList
      else operation
    | .u2f => "U2F ".toList ++ operation

def formatApprovalBody (size : ℕ) (protocol : UiProtocol) (targetId userText : Text) : Text :=
  fitting size <|
    (if protocol = .u2f then "App".toList else "Website".toList) ++ ": ".toList ++
      (if targetId = [] then "(unknown)".toList else targetId).take 60 ++ ['\n'] ++
        (if userText = [] then "User: (not provided)".toList else userText).take 40

end Formatting

section Application

inductive View where
  | status
  | approval
  | credentials
  | other
  deriving DecidableEq, Repr

/-- The contents of the approval dialog, and the number of the request they were taken from. -/
structure Dialog where
  request : ℕ
  header : Text
  body : Text
  deriving DecidableEq, Repr

/-- The contents of the credentials menu: a row has its index in the list of the request, which is
what the callback of the row is given, and the record it was labelled from. -/
structure Menu where
  request : ℕ
  header : Text
  rows : List (ℕ × UInt16)
  deriving DecidableEq, Repr

/-- A key that accepts: on the dialog shown for a request, or on a row of the menu shown for it. -/
inductive Press where
  | approve (shownFor : ℕ)
  | choose (shownFor : ℕ) (record : UInt16)
  deriving DecidableEq, Repr

/-- The prompt that the key was pressed on. -/
def Press.shownFor : Press → ℕ
  | .approve request => request
  | .choose request _ => request

/-- A change of the outcome of a request. -/
structure OutcomeChange where
  request : ℕ
  before : ApprovalState
  after : ApprovalState
  press : Option Press
  deriving DecidableEq, Repr

/-- A wait of the worker: the request that it waits for, and what its caller asked. -/
structure Wait where
  request : ℕ
  kind : InteractionKind
  deriving DecidableEq, Repr

/-- What a caller is told: whether an outcome was reached, and whether it was an approval or which
record was selected. A request that puts up no prompt has no number; `source` is the request whose
outcome was read. -/
structure Answer where
  request : Option ℕ
  source : Option ℕ
  reached : Bool
  approved : Bool
  selected : Option UInt16
  deriving DecidableEq, Repr

/-- What the two threads share, with the waits of the worker, the innermost one first. The last three
fields are records that the program does not keep. -/
structure App where
  approval : ApprovalRequest
  uiEventsEnabled : Bool
  running : Bool
  maintenanceBusy : Bool
  autoAccept : Bool
  inUse : List Bool
  activeView : View
  approvalView : Option Dialog
  credentialsMenu : Option Menu
  showing : Bool
  waits : List Wait
  requests : ℕ
  changes : List OutcomeChange
  answers : List Answer
  deriving DecidableEq, Repr

/-- The record after `memset`, before the first request. -/
def App.start (inUse : List Bool) : App where
  approval :=
    { state := .idle, targetId := [], generation := 0, pendingHideGeneration := 0, deadline := 0
      done := false, details := .approval ⟨.fido2, [], []⟩ }
  uiEventsEnabled := true
  running := true
  maintenanceBusy := false
  autoAccept := false
  inUse := inUse
  activeView := .status
  approvalView := none
  credentialsMenu := none
  showing := false
  waits := []
  requests := 0
  changes := []
  answers := []

end Application

section Requests

/-- `zerofido_ui_finish_interaction_locked`. -/
def finishInteraction (app : App) (state : ApprovalState) : App :=
  if app.approval.state ≠ .pending then app
  else
    { app with
      approval :=
        { app.approval with
          state := state
          pendingHideGeneration := app.approval.generation
          done := true } }

/-- `zerofido_ui_prepare_interaction_locked`, together with the clearing of the signal, which is
done before the mutex is released. -/
def prepareInteraction (app : App) (details : Details) (targetId : Text) (tick : UInt32) : App :=
  { app with
    approval :=
      { state := .pending
        targetId := fitting maxRpIdLen targetId
        generation := app.approval.generation + 1
        pendingHideGeneration := 0
        deadline := tick + approvalTimeoutMs
        done := false
        details := details }
    waits := ⟨app.requests + 1, details.kind⟩ :: app.waits
    requests := app.requests + 1 }

def App.answer (app : App) (answer : Answer) : App :=
  { app with answers := app.answers ++ [answer] }

/-- `zerofido_ui_request_approval`, up to the wait. -/
def requestApproval (app : App) (protocol : UiProtocol) (operation targetId userText : Text)
    (tick : UInt32) : App :=
  if !app.uiEventsEnabled || !app.running || app.maintenanceBusy then
    app.answer ⟨none, none, false, false, none⟩
  else if app.autoAccept then app.answer ⟨none, none, true, true, none⟩
  else
    prepareInteraction app
      (.approval
        { protocol := protocol
          operation := formatApprovalHeader 24 protocol operation
          userText := fitting 138 userText })
      targetId tick

/-- `zerofido_ui_request_assertion_selection`, up to the wait. -/
def requestAssertionSelection (app : App) (rpId : Text) (matchIndices : List UInt16)
    (tick : UInt32) : App :=
  if matchIndices.length = 0 ∨ maxCredentials < matchIndices.length then
    app.answer ⟨none, none, false, false, none⟩
  else if !app.uiEventsEnabled || !app.running || app.maintenanceBusy then
    app.answer ⟨none, none, false, false, none⟩
  else
    prepareInteraction app (.selection ⟨matchIndices, nothingSelected, nothingSelected⟩) rpId tick

/-- The outcomes that end a request. -/
def ApprovalState.isTerminal : ApprovalState → Bool
  | .approved | .denied | .canceled | .timedOut => true
  | .idle | .pending => false

/-- What the caller of the wait is told once the signal is taken: the record has the outcome of the
newest request. A choice that finds the texts of an approval there would read its record from their
bytes, which the model has not got. -/
def interactionAnswer (app : App) (wait : Wait) : Answer where
  request := some wait.request
  source := some app.requests
  reached := app.approval.state.isTerminal
  approved := app.approval.state == .approved
  selected :=
    match wait.kind, app.approval.details with
    | .assertionSelection, .selection prompt =>
      if app.approval.state = .approved ∧ prompt.selectedRecordIndex ≠ nothingSelected then
        some prompt.selectedRecordIndex
      else none
    | _, _ => none

/-- The innermost wait takes the signal. A wait that finds its transport stopped or its request
cancelled answers no. -/
def wake (app : App) (abandoned : Bool) : App :=
  match app.waits with
  | [] => app
  | wait :: outer =>
    if !app.approval.done then app
    else
      let signalled := { app with approval := { app.approval with done := false }, waits := outer }
      signalled.answer <|
        if abandoned then ⟨some wait.request, none, false, false, none⟩
        else interactionAnswer app wait

/-- The innermost wait ends without the signal. -/
def giveUp (app : App) : App :=
  match app.waits with
  | [] => app
  | wait :: outer =>
    { app with waits := outer }.answer ⟨some wait.request, none, false, false, none⟩

end Requests

section Display

/-- Whether the index has an entry that is in use there. -/
def App.recordInUse (app : App) (record : UInt16) : Bool := app.inUse.getD record.toNat false

/-- The rows that `zerofido_refresh_credentials_menu` adds. -/
def menuRows (app : App) (prompt : AssertionSelectionPrompt) : List (ℕ × UInt16) :=
  prompt.credentialIndices.zipIdx.filterMap fun entry ↦
    if app.recordInUse entry.1 then some (entry.2, entry.1) else none

/-- The selected row, which becomes the first one when it is not among the rows. -/
def refreshedSelection (app : App) (prompt : AssertionSelectionPrompt) :
    AssertionSelectionPrompt :=
  match menuRows app prompt with
  | [] => prompt
  | (first, _) :: rest =>
    if ((first :: rest.map Prod.fst).any fun row ↦ row == prompt.selectedMenuIndex.toNat) then prompt
    else { prompt with selectedMenuIndex := UInt16.ofNat first }

/-- `zerofido_ui_show_interaction`. -/
def showInteraction (app : App) : App :=
  match app.approval.details with
  | .approval prompt =>
    { app with
      approvalView := some
        { request := app.requests
          header := prompt.operation
          body := formatApprovalBody 160 prompt.protocol app.approval.targetId prompt.userText }
      showing := true }
  | .selection _ => { app with showing := true }

/-- The rest of the show event: the view that is switched to is read from the record again, and so
are the rows of a menu. -/
def showView (app : App) : App :=
  if !app.showing then app
  else
    match app.approval.state, app.approval.details with
    | .pending, .selection prompt =>
      { app with
        approval := { app.approval with details := .selection (refreshedSelection app prompt) }
        credentialsMenu := some
          { request := app.requests
            header :=
              if app.approval.targetId = [] then "Select account".toList else app.approval.targetId
            rows := menuRows app prompt }
        activeView := .credentials
        showing := false }
    | _, _ => { app with activeView := .approval, showing := false }

/-- `zerofido_ui_hide_interaction`. -/
def hideInteraction (app : App) : App :=
  if app.approval.pendingHideGeneration = app.approval.generation ∧
      app.approval.state ≠ .pending then
    { app with
      approval := { app.approval with pendingHideGeneration := 0 }
      approvalView := if app.approval.details.kind = .approval then none else app.approvalView
      activeView := .status }
  else app

/-- `zerofido_ui_prune_rare_views`. -/
def pruneRareViews (app : App) : App :=
  if app.activeView = .status ∧ app.approval.state ≠ .pending then
    { app with approvalView := none, credentialsMenu := none }
  else app

end Display

section Keys

inductive DialogResult where
  | left
  | right
  deriving DecidableEq, Repr

/-- The dialog that the keys go to. -/
def App.dialogOnDisplay (app : App) : Option Dialog :=
  if app.activeView = .approval ∧ !app.showing then app.approvalView else none

/-- The row of the menu that the keys go to. -/
def App.rowOnDisplay (app : App) (position : ℕ) : Option (Menu × ℕ × UInt16) :=
  if app.activeView = .credentials ∧ !app.showing then
    app.credentialsMenu.bind fun menu ↦ menu.rows[position]?.map fun row ↦ (menu, row)
  else none

/-- `zerofido_dialog_result_callback`. -/
def dialogResultCallback (app : App) (result : DialogResult) : App :=
  finishInteraction app (if result = .right then .approved else .denied)

/-- `zerofido_finish_assertion_selection_locked`. -/
def finishAssertionSelection (app : App) (menuIndex : ℕ) : App :=
  match app.approval.state, app.approval.details with
  | .pending, .selection prompt =>
    if maxCredentials ≤ menuIndex then app
    else
      match prompt.credentialIndices[menuIndex]? with
      | none => app
      | some record =>
        if !app.recordInUse record then app
        else
          { app with
            approval :=
              { app.approval with
                state := .approved
                pendingHideGeneration := app.approval.generation
                done := true
                details := .selection
                  { prompt with
                    selectedMenuIndex := UInt16.ofNat menuIndex
                    selectedRecordIndex := record } } }
  | _, _ => app

/-- `zerofido_navigation_callback`. -/
def navigationCallback (app : App) : App :=
  if app.approval.state = .pending then finishInteraction app .denied
  else { app with running := false, uiEventsEnabled := false }

/-- `zerofido_ui_expire_pending_interaction`; the deadline has passed when the difference of the
ticks is not negative as a signed number. -/
def expirePendingInteraction (app : App) (now : UInt32) : App :=
  if app.approval.state = .pending ∧ (now - app.approval.deadline).toNat < 2 ^ 31 then
    finishInteraction app .timedOut
  else app

end Keys

section Steps

inductive Event where
  | requestApproval (protocol : UiProtocol) (operation targetId userText : Text) (tick : UInt32)
  | requestSelection (rpId : Text) (matchIndices : List UInt16) (tick : UInt32)
  | wake (abandoned : Bool)
  | giveUp
  | signal
  | cancel
  | environment (maintenanceBusy autoAccept : Bool) (inUse : List Bool)
  | show
  | showView
  | hide
  | tick (now : UInt32)
  | prune
  | leaveView (view : View)
  | dialogKey (result : DialogResult)
  | menuKey (position : ℕ)
  | back
  deriving DecidableEq, Repr

/-- One acquisition of the mutex. The UI thread takes no key and no other event inside a show
event. -/
def act (app : App) : Event → App
  | .requestApproval protocol operation targetId userText tick =>
    requestApproval app protocol operation targetId userText tick
  | .requestSelection rpId matchIndices tick =>
    requestAssertionSelection app rpId matchIndices tick
  | .wake abandoned => wake app abandoned
  | .giveUp => giveUp app
  | .signal => { app with approval := { app.approval with done := true } }
  | .cancel => finishInteraction app .canceled
  | .environment maintenanceBusy autoAccept inUse =>
    { app with maintenanceBusy := maintenanceBusy, autoAccept := autoAccept, inUse := inUse }
  | .show => if app.showing then app else showInteraction app
  | .showView => showView app
  | .hide => if app.showing then app else hideInteraction app
  | .tick now => if app.showing then app else expirePendingInteraction app now
  | .prune => if app.showing then app else pruneRareViews app
  | .leaveView view =>
    if app.showing ∨ view = .approval ∨ view = .credentials then app
    else { app with activeView := view }
  | .dialogKey result =>
    match app.dialogOnDisplay with
    | none => app
    | some _ => dialogResultCallback app result
  | .menuKey position =>
    match app.rowOnDisplay position with
    | none => app
    | some (_, menuIndex, _) => finishAssertionSelection app menuIndex
  | .back => if app.showing then app else navigationCallback app

/-- The key that an event is, when it is one that accepts and a prompt is there to take it. -/
def App.press (app : App) : Event → Option Press
  | .dialogKey .right => app.dialogOnDisplay.map fun dialog ↦ .approve dialog.request
  | .menuKey position =>
    (app.rowOnDisplay position).map fun row ↦ .choose row.1.request row.2.2
  | _ => none

/-- A step, which records a change of the outcome of the request. -/
def step (app : App) (event : Event) : App :=
  let next := act app event
  if next.requests = app.requests ∧ next.approval.state ≠ app.approval.state then
    { next with
      changes := next.changes ++
        [⟨app.requests, app.approval.state, next.approval.state, app.press event⟩] }
  else next

end Steps

section Signals

variable {app next : App}

/-- The number of requests, the setting for automatic approvals and the changes are the same, and
the outcome and its signal are the same or the pending request has ended and is signalled. -/
structure Settles (app next : App) : Prop where
  requests : next.requests = app.requests
  autoAccept : next.autoAccept = app.autoAccept
  changes : next.changes = app.changes
  signal : (next.approval.state = app.approval.state ∧ next.approval.done = app.approval.done) ∨
    (app.approval.state = .pending ∧ next.approval.state ≠ .pending ∧ next.approval.done = true)

theorem Settles.refl (app : App) : Settles app app := ⟨rfl, rfl, rfl, Or.inl ⟨rfl, rfl⟩⟩

theorem settles_finishInteraction {state : ApprovalState} (hstate : state ≠ .pending) :
    Settles app (finishInteraction app state) := by
  unfold finishInteraction
  by_cases hpending : app.approval.state = .pending
  · rw [if_neg (not_not.mpr hpending)]
    exact ⟨rfl, rfl, rfl, Or.inr ⟨hpending, hstate, rfl⟩⟩
  · rw [if_pos hpending]
    exact .refl app

theorem settles_finishAssertionSelection (menuIndex : ℕ) :
    Settles app (finishAssertionSelection app menuIndex) := by
  unfold finishAssertionSelection
  split
  · rename_i prompt hpending hdetails
    by_cases hlarge : maxCredentials ≤ menuIndex
    · rw [if_pos hlarge]
      exact .refl app
    · rw [if_neg hlarge]
      split
      · exact .refl app
      · split_ifs
        · exact .refl app
        · exact ⟨rfl, rfl, rfl, Or.inr ⟨hpending, by simp, rfl⟩⟩
  · exact .refl app

theorem settles_showView : Settles app (showView app) := by
  unfold showView
  by_cases hshowing : (!app.showing) = true
  · rw [if_pos hshowing]
    exact .refl app
  · rw [if_neg hshowing]
    split
    · exact ⟨rfl, rfl, rfl, Or.inl ⟨rfl, rfl⟩⟩
    · exact ⟨rfl, rfl, rfl, Or.inl ⟨rfl, rfl⟩⟩

/-- The events of the UI thread and of the threads that cancel a prompt; what they leave alone are
the requests and the waits, and no event here lets requests be approved automatically. -/
def isUserInterface : Event → Bool
  | .requestApproval _ _ _ _ _ | .requestSelection _ _ _ | .wake _ | .giveUp | .signal => false
  | .environment _ autoAccept _ => !autoAccept
  | _ => true

theorem settles_ite {closed : Prop} [Decidable closed] (h : Settles app next) :
    Settles app (if closed then app else next) := by
  split_ifs
  · exact .refl app
  · exact h

theorem settles_act {event : Event} (hevent : isUserInterface event = true)
    (hauto : app.autoAccept = false) : Settles app (act app event) := by
  cases event with
  | requestApproval => simp [isUserInterface] at hevent
  | requestSelection => simp [isUserInterface] at hevent
  | wake => simp [isUserInterface] at hevent
  | giveUp => simp [isUserInterface] at hevent
  | signal => simp [isUserInterface] at hevent
  | cancel => exact settles_finishInteraction (by decide)
  | environment maintenanceBusy autoAccept inUse =>
    have hoff : autoAccept = false := by simpa [isUserInterface] using hevent
    exact ⟨rfl, hoff.trans hauto.symm, rfl, Or.inl ⟨rfl, rfl⟩⟩
  | «show» =>
    refine settles_ite ?_
    unfold showInteraction
    split
    · exact ⟨rfl, rfl, rfl, Or.inl ⟨rfl, rfl⟩⟩
    · exact ⟨rfl, rfl, rfl, Or.inl ⟨rfl, rfl⟩⟩
  | showView => exact settles_showView
  | hide =>
    refine settles_ite ?_
    unfold hideInteraction
    by_cases hide : app.approval.pendingHideGeneration = app.approval.generation ∧
        app.approval.state ≠ .pending
    · rw [if_pos hide]
      exact ⟨rfl, rfl, rfl, Or.inl ⟨rfl, rfl⟩⟩
    · rw [if_neg hide]
      exact .refl app
  | tick now =>
    refine settles_ite ?_
    unfold expirePendingInteraction
    split_ifs
    · exact settles_finishInteraction (by decide)
    · exact .refl app
  | prune =>
    refine settles_ite ?_
    unfold pruneRareViews
    split_ifs
    · exact ⟨rfl, rfl, rfl, Or.inl ⟨rfl, rfl⟩⟩
    · exact .refl app
  | leaveView view => exact settles_ite ⟨rfl, rfl, rfl, Or.inl ⟨rfl, rfl⟩⟩
  | dialogKey result =>
    unfold act
    dsimp only
    split
    · exact .refl app
    · unfold dialogResultCallback
      cases result
      · exact settles_finishInteraction (by decide)
      · exact settles_finishInteraction (by decide)
  | menuKey position =>
    unfold act
    dsimp only
    split
    · exact .refl app
    · exact settles_finishAssertionSelection _
  | back =>
    refine settles_ite ?_
    unfold navigationCallback
    split_ifs
    · exact settles_finishInteraction (by decide)
    · exact ⟨rfl, rfl, rfl, Or.inl ⟨rfl, rfl⟩⟩

/-- What such an event does to the record of the changes: an approval is put on it under the number
of the newest request. -/
structure Signals (app next : App) : Prop where
  requests : next.requests = app.requests
  autoAccept : next.autoAccept = app.autoAccept
  changes : ∃ more, next.changes = app.changes ++ more
  signal : (next.approval.state = app.approval.state ∧ next.approval.done = app.approval.done) ∨
    (app.approval.state = .pending ∧ next.approval.state ≠ .pending ∧ next.approval.done = true ∧
      (next.approval.state = .approved → ∃ change ∈ next.changes,
        change.request = app.requests ∧ change.after = .approved))

theorem signals_step {event : Event} (hevent : isUserInterface event = true)
    (hauto : app.autoAccept = false) : Signals app (step app event) := by
  obtain ⟨hrequests, hautoAccept, hchanges, hsignal⟩ := settles_act hevent hauto
  unfold step
  dsimp only
  rcases hsignal with ⟨hstate, hdone⟩ | ⟨hpending, hsettled, hdone⟩
  · rw [if_neg (fun hchanged ↦ hchanged.2 hstate)]
    exact ⟨hrequests, hautoAccept, ⟨[], by rw [hchanges, List.append_nil]⟩,
      Or.inl ⟨hstate, hdone⟩⟩
  · rw [if_pos ⟨hrequests, fun hstate ↦ hsettled (hstate.trans hpending)⟩]
    refine ⟨hrequests, hautoAccept, ⟨_, by rw [hchanges]⟩, Or.inr ⟨hpending, hsettled, hdone, ?_⟩⟩
    intro happroved
    exact ⟨_, List.mem_append_right _ (List.mem_singleton_self _), rfl, happroved⟩

/-- A request that puts up a prompt. -/
structure Asks (app next : App) : Prop where
  requests : next.requests = app.requests + 1
  autoAccept : next.autoAccept = app.autoAccept
  changes : next.changes = app.changes
  state : next.approval.state = .pending
  done : next.approval.done = false

/-- A request for an approval is refused or puts up a prompt, when it is not approved
automatically. -/
theorem requestApproval_cases (hauto : app.autoAccept = false) (protocol : UiProtocol)
    (operation targetId userText : Text) (tick : UInt32) :
    Signals app (requestApproval app protocol operation targetId userText tick) ∨
      Asks app (requestApproval app protocol operation targetId userText tick) := by
  unfold requestApproval
  by_cases hclosed : (!app.uiEventsEnabled || !app.running || app.maintenanceBusy) = true
  · rw [if_pos hclosed]
    exact Or.inl ⟨rfl, rfl, ⟨[], (List.append_nil _).symm⟩, Or.inl ⟨rfl, rfl⟩⟩
  · rw [if_neg hclosed, if_neg (by simp [hauto])]
    exact Or.inr ⟨rfl, rfl, rfl, rfl, rfl⟩

end Signals

end ZeroFido.Ui
