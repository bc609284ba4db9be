import ZeroFido.Foundations.Run
import ZeroFido.Ui.Approval

/-!
# Whose prompt was accepted

A request should end as approved only by a key on the prompt that was put up for it. The record
knows the generation of the newest request and the hide event compares it, but the callbacks of the
dialog and of the menu do not: a key on a prompt that was put up for an earlier request accepts the
request that is pending when the key arrives (`stale_prompt_approves`). Nor does a wait look whose
outcome the record has: when the signal is given once more after a request inside the wait was
approved, which a stop of the transport does, the wait reports that approval as its own
(`stoppedTransport`).

`prompts_own_iff` says of every run that these are the only ways: the record is as it should be
exactly when no accepted key was pressed on the prompt of an earlier request and no wait took the
approval of a later one.
-/

set_option autoImplicit false
set_option relaxedAutoImplicit false

namespace ZeroFido.Ui

open Foundations

section Statement

/-- A request ends at most once and only while it is pending; an approval is brought about by a key
on the prompt of its own request; and an answer that approves or selects reports the outcome of its
own request and is backed by such a change. -/
structure PromptsOwn (app : App) : Prop where
  once : app.changes.Pairwise fun first second ↦ first.request ≠ second.request
  pending : ∀ change ∈ app.changes, change.before = .pending
  owned : ∀ change ∈ app.changes, change.after = .approved →
    ∃ press, change.press = some press ∧ press.shownFor = change.request
  answered : ∀ answer ∈ app.answers, ∀ request, answer.request = some request →
    answer.approved = true → answer.source = some request ∧ ∃ change ∈ app.changes,
      change.request = request ∧ change.after = .approved
  selected : ∀ answer ∈ app.answers, ∀ record, answer.selected = some record →
    ∃ change ∈ app.changes, answer.request = some change.request ∧ change.after = .approved ∧
      change.press = some (.choose change.request record)

/-- A selection is pending, and the index has a record in it that is in use. -/
def acceptsIndex (app : App) (menuIndex : ℕ) : Bool :=
  match app.approval.state, app.approval.details with
  | .pending, .selection prompt =>
    decide (menuIndex < maxCredentials) &&
      match prompt.credentialIndices[menuIndex]? with
      | some record => app.recordInUse record
      | none => false
  | _, _ => false

/-- The pending request takes the key as an approval or as a choice. -/
def acceptsKey (app : App) : Event → Bool
  | .dialogKey .right => decide (app.approval.state = .pending) && app.dialogOnDisplay.isSome
  | .menuKey position =>
    match app.rowOnDisplay position with
    | some (_, menuIndex, _) => acceptsIndex app menuIndex
    | none => false
  | _ => false

/-- A key that the pending request takes is pressed on its own prompt. -/
def OnOwnPrompt (app : App) (event : Event) : Prop :=
  acceptsKey app event = true → ∀ press ∈ app.press event, press.shownFor = app.requests

instance (app : App) (event : Event) : Decidable (OnOwnPrompt app event) :=
  inferInstanceAs (Decidable (_ → ∀ press ∈ app.press event, _))

/-- A wait that takes the signal of an approval was begun by the newest request. -/
def OnOwnSignal (app : App) (event : Event) : Prop :=
  event = .wake false → app.approval.done = true → app.approval.state = .approved →
    ∀ wait ∈ app.waits.head?, wait.request = app.requests

instance (app : App) (event : Event) : Decidable (OnOwnSignal app event) :=
  inferInstanceAs (Decidable (_ → _ → _ → ∀ wait ∈ app.waits.head?, _))

/-- Keys and signals go to the request that they were given for. -/
def OnOwnRequest (app : App) (event : Event) : Prop :=
  OnOwnPrompt app event ∧ OnOwnSignal app event

instance (app : App) (event : Event) : Decidable (OnOwnRequest app event) :=
  inferInstanceAs (Decidable (_ ∧ _))

end Statement

section Effects

/-- The indices that a selection offers, and the one that is selected. -/
def Details.choice : Details → Option (List UInt16 × UInt16)
  | .approval _ => none
  | .selection prompt => some (prompt.credentialIndices, prompt.selectedRecordIndex)

/-- The rows of the menu show the records that the request offers at their places. -/
def Menu.Shows (menu : Menu) (choice : Option (List UInt16 × UInt16)) : Prop :=
  ∀ row ∈ menu.rows, ∃ indices, choice.map Prod.fst = some indices ∧
    indices[row.1]? = some row.2

/-- What no step but the beginning of a request changes, and what a menu may become. -/
structure Same (app next : App) : Prop where
  requests : next.requests = app.requests
  changes : next.changes = app.changes
  menu : ∀ menu, next.credentialsMenu = some menu → app.credentialsMenu = some menu ∨
    menu.request = app.requests ∧ menu.Shows app.approval.details.choice

/-- The innermost wait takes the signal, and the answer is what it reads. -/
def TakesSignal (app : App) (event : Event) (answer : Answer) : Prop :=
  event = .wake false ∧ app.approval.done = true ∧
    ∃ wait ∈ app.waits.head?, answer = interactionAnswer app wait

/-- The answers that one step may give. -/
def Answers (app : App) (event : Event) (next : App) : Prop :=
  next.answers = app.answers ∨ ∃ answer, next.answers = app.answers ++ [answer] ∧
    (TakesSignal app event answer ∨
      (answer.request = none ∨ answer.approved = false) ∧ answer.selected = none)

/-- What a step can do. -/
inductive Effect (app : App) (event : Event) (next : App) : Prop where
  | quiet (same : Same app next) (state : next.approval.state = app.approval.state)
      (choice : next.approval.details.choice = app.approval.details.choice)
      (answers : Answers app event next) (refused : acceptsKey app event = false)
  | begun (requests : next.requests = app.requests + 1) (changes : next.changes = app.changes)
      (menu : next.credentialsMenu = app.credentialsMenu) (answers : next.answers = app.answers)
      (state : next.approval.state = .pending)
      (choice : ∀ indices selected, next.approval.details.choice = some (indices, selected) →
        selected = nothingSelected)
      (refused : acceptsKey app event = false)
  | ended (same : Same app next) (pending : app.approval.state = .pending)
      (settled : next.approval.state ≠ .pending) (refused : next.approval.state ≠ .approved)
      (choice : next.approval.details.choice = app.approval.details.choice)
      (answers : next.answers = app.answers) (key : acceptsKey app event = false)
  | approved (dialog : Dialog) (same : Same app next) (pending : app.approval.state = .pending)
      (state : next.approval.state = .approved)
      (choice : next.approval.details.choice = app.approval.details.choice)
      (answers : next.answers = app.answers) (press : app.press event = some (.approve dialog.request))
      (key : acceptsKey app event = true)
  | chosen (menu : Menu) (menuIndex : ℕ) (shown record : UInt16) (indices : List UInt16)
      (before : UInt16) (same : Same app next) (pending : app.approval.state = .pending)
      (state : next.approval.state = .approved)
      (offered : app.approval.details.choice = some (indices, before))
      (choice : next.approval.details.choice = some (indices, record))
      (row : indices[menuIndex]? = some record) (onMenu : app.credentialsMenu = some menu)
      (mem : (menuIndex, shown) ∈ menu.rows) (answers : next.answers = app.answers)
      (press : app.press event = some (.choose menu.request shown))
      (key : acceptsKey app event = true)

variable {app next : App} {event : Event}

theorem Same.refl (app : App) : Same app app := ⟨rfl, rfl, fun _ ↦ Or.inl⟩

/-- A step that touches none of it. -/
theorem Effect.of_untouched (hrequests : next.requests = app.requests)
    (hchanges : next.changes = app.changes)
    (hmenu : next.credentialsMenu = app.credentialsMenu ∨ next.credentialsMenu = none)
    (hanswers : Answers app event next) (hstate : next.approval.state = app.approval.state)
    (hdetails : next.approval.details = app.approval.details)
    (hkey : acceptsKey app event = false) : Effect app event next := by
  refine .quiet ⟨hrequests, hchanges, fun menu hnext ↦ ?_⟩ hstate (by rw [hdetails]) hanswers hkey
  rcases hmenu with hmenu | hmenu
  · exact Or.inl (hmenu ▸ hnext)
  · simp [hmenu] at hnext

theorem effect_self (hkey : acceptsKey app event = false) : Effect app event app :=
  .of_untouched rfl rfl (Or.inl rfl) (Or.inl rfl) rfl rfl hkey

/-- A step that is not taken in some states. -/
theorem effect_unless {closed : Prop} [Decidable closed] (h : Effect app event next)
    (hkey : acceptsKey app event = false) : Effect app event (if closed then app else next) := by
  by_cases hclosed : closed
  · rw [if_pos hclosed]
    exact effect_self hkey
  · rw [if_neg hclosed]
    exact h

theorem effect_finishInteraction {state : ApprovalState} (hpending : state ≠ .pending)
    (happroved : state ≠ .approved) (hkey : acceptsKey app event = false) :
    Effect app event (finishInteraction app state) := by
  unfold finishInteraction
  by_cases h : app.approval.state = .pending
  · rw [if_neg (not_not.mpr h)]
    exact .ended ⟨rfl, rfl, fun _ ↦ Or.inl⟩ h hpending happroved rfl rfl hkey
  · rw [if_pos h]
    exact effect_self hkey

theorem effect_answer {answer : Answer}
    (hanswer : (answer.request = none ∨ answer.approved = false) ∧ answer.selected = none)
    (hkey : acceptsKey app event = false) : Effect app event (app.answer answer) :=
  .of_untouched rfl rfl (Or.inl rfl) (Or.inr ⟨answer, rfl, Or.inr hanswer⟩) rfl rfl hkey

theorem effect_prepareInteraction {details : Details} {targetId : Text} {tick : UInt32}
    (hchoice : ∀ indices selected, details.choice = some (indices, selected) →
      selected = nothingSelected) (hkey : acceptsKey app event = false) :
    Effect app event (prepareInteraction app details targetId tick) :=
  .begun rfl rfl rfl rfl rfl hchoice hkey

theorem effect_requestApproval {protocol : UiProtocol} {operation targetId userText : Text}
    {tick : UInt32} (hkey : acceptsKey app event = false) :
    Effect app event (requestApproval app protocol operation targetId userText tick) := by
  unfold requestApproval
  split_ifs
  · exact effect_answer ⟨Or.inl rfl, rfl⟩ hkey
  · exact effect_answer ⟨Or.inl rfl, rfl⟩ hkey
  · exact effect_prepareInteraction (fun _ _ h ↦ absurd h (by simp [Details.choice])) hkey

theorem effect_requestAssertionSelection {rpId : Text} {matchIndices : List UInt16} {tick : UInt32}
    (hkey : acceptsKey app event = false) :
    Effect app event (requestAssertionSelection app rpId matchIndices tick) := by
  unfold requestAssertionSelection
  split_ifs
  · exact effect_answer ⟨Or.inl rfl, rfl⟩ hkey
  · exact effect_answer ⟨Or.inl rfl, rfl⟩ hkey
  · refine effect_prepareInteraction (fun indices selected h ↦ ?_) hkey
    simp only [Details.choice, Option.some.injEq, Prod.mk.injEq] at h
    exact h.2.symm

theorem effect_wake (abandoned : Bool) : Effect app (.wake abandoned) (wake app abandoned) := by
  unfold wake
  split
  · exact effect_self rfl
  · rename_i wait outer hwaits
    dsimp only
    by_cases hasleep : (!app.approval.done) = true
    · rw [if_pos hasleep]
      exact effect_self rfl
    · rw [if_neg hasleep]
      cases abandoned with
      | true =>
        exact .of_untouched rfl rfl (Or.inl rfl) (Or.inr ⟨_, rfl, Or.inr ⟨Or.inr rfl, rfl⟩⟩) rfl rfl
          rfl
      | false =>
        have htakes : TakesSignal app (.wake false) (interactionAnswer app wait) :=
          ⟨rfl, by simpa using hasleep, wait, by rw [hwaits]; rfl, rfl⟩
        exact .of_untouched rfl rfl (Or.inl rfl) (Or.inr ⟨_, rfl, Or.inl htakes⟩) rfl rfl rfl

theorem effect_giveUp (hkey : acceptsKey app event = false) : Effect app event (giveUp app) := by
  unfold giveUp
  split
  · exact effect_self hkey
  · exact .of_untouched rfl rfl (Or.inl rfl) (Or.inr ⟨_, rfl, Or.inr ⟨Or.inr rfl, rfl⟩⟩) rfl rfl hkey

theorem effect_showInteraction (hkey : acceptsKey app event = false) :
    Effect app event (showInteraction app) := by
  unfold showInteraction
  split <;> exact .of_untouched rfl rfl (Or.inl rfl) (Or.inl rfl) rfl rfl hkey

theorem choice_refreshedSelection (prompt : AssertionSelectionPrompt) :
    (Details.selection (refreshedSelection app prompt)).choice =
      (Details.selection prompt).choice := by
  unfold refreshedSelection
  split
  · rfl
  · split_ifs <;> rfl

/-- The menu shows what its request offers. -/
theorem shows_menuRows (prompt : AssertionSelectionPrompt) (request : ℕ) (header : Text) :
    (Menu.mk request header (menuRows app prompt)).Shows (Details.selection prompt).choice := by
  intro row hrow
  refine ⟨prompt.credentialIndices, rfl, ?_⟩
  obtain ⟨entry, hentry, hadded⟩ := List.mem_filterMap.mp hrow
  split_ifs at hadded
  obtain rfl := Option.some.inj hadded
  exact List.mem_zipIdx_iff_getElem?.mp hentry

theorem effect_showView (hkey : acceptsKey app event = false) :
    Effect app event (showView app) := by
  unfold showView
  by_cases hshowing : (!app.showing) = true
  · rw [if_pos hshowing]
    exact effect_self hkey
  · rw [if_neg hshowing]
    split
    · rename_i prompt hpending hdetails
      refine .quiet ⟨rfl, rfl, fun menu hmenu ↦ Or.inr ?_⟩ rfl ?_ (Or.inl rfl) hkey
      · obtain rfl := Option.some.inj hmenu
        rw [hdetails]
        exact ⟨rfl, shows_menuRows prompt _ _⟩
      · rw [hdetails]
        exact choice_refreshedSelection prompt
    · exact .of_untouched rfl rfl (Or.inl rfl) (Or.inl rfl) rfl rfl hkey

theorem effect_hideInteraction (hkey : acceptsKey app event = false) :
    Effect app event (hideInteraction app) := by
  unfold hideInteraction
  split_ifs
  · exact .of_untouched rfl rfl (Or.inl rfl) (Or.inl rfl) rfl rfl hkey
  · exact .of_untouched rfl rfl (Or.inl rfl) (Or.inl rfl) rfl rfl hkey
  · exact effect_self hkey

theorem effect_pruneRareViews (hkey : acceptsKey app event = false) :
    Effect app event (pruneRareViews app) := by
  unfold pruneRareViews
  split_ifs
  · exact .of_untouched rfl rfl (Or.inr rfl) (Or.inl rfl) rfl rfl hkey
  · exact effect_self hkey

theorem effect_navigationCallback (hkey : acceptsKey app event = false) :
    Effect app event (navigationCallback app) := by
  unfold navigationCallback
  split_ifs
  · exact effect_finishInteraction (by decide) (by decide) hkey
  · exact .of_untouched rfl rfl (Or.inl rfl) (Or.inl rfl) rfl rfl hkey

theorem effect_expirePendingInteraction {now : UInt32} (hkey : acceptsKey app event = false) :
    Effect app event (expirePendingInteraction app now) := by
  unfold expirePendingInteraction
  split_ifs
  · exact effect_finishInteraction (by decide) (by decide) hkey
  · exact effect_self hkey

/-- A key on the dialog. The one that accepts is taken by whatever request is pending. -/
theorem effect_dialogKey (result : DialogResult) :
    Effect app (.dialogKey result) (act app (.dialogKey result)) := by
  cases hdialog : app.dialogOnDisplay with
  | none =>
    have hact : act app (.dialogKey result) = app := by simp only [act, hdialog]
    rw [hact]
    apply effect_self
    cases result <;> simp [acceptsKey, hdialog]
  | some dialog =>
    have hact : act app (.dialogKey result) = dialogResultCallback app result := by
      simp only [act, hdialog]
    rw [hact]
    unfold dialogResultCallback
    cases result with
    | left => exact effect_finishInteraction (by decide) (by decide) rfl
    | right =>
      rw [if_pos rfl]
      by_cases hpending : app.approval.state = .pending
      · have hnext : finishInteraction app .approved = { app with approval := { app.approval with
            state := .approved, pendingHideGeneration := app.approval.generation, done := true } } :=
          if_neg (not_not.mpr hpending)
        rw [hnext]
        exact .approved dialog ⟨rfl, rfl, fun _ ↦ Or.inl⟩ hpending rfl rfl rfl
          (by simp [App.press, hdialog]) (by simp [acceptsKey, hpending, hdialog])
      · have hnext : finishInteraction app .approved = app := if_pos hpending
        rw [hnext]
        exact effect_self (by simp [acceptsKey, hpending])

theorem rowOnDisplay_eq_some {position menuIndex : ℕ} {menu : Menu} {shown : UInt16}
    (h : app.rowOnDisplay position = some (menu, menuIndex, shown)) :
    app.credentialsMenu = some menu ∧ (menuIndex, shown) ∈ menu.rows := by
  unfold App.rowOnDisplay at h
  split_ifs at h
  obtain ⟨found, hfound, hrow⟩ := Option.bind_eq_some_iff.mp h
  obtain ⟨row, hmem, hpair⟩ := Option.map_eq_some_iff.mp hrow
  simp only [Prod.mk.injEq] at hpair
  obtain ⟨rfl, rfl⟩ := hpair
  exact ⟨hfound, List.mem_of_getElem? hmem⟩

/-- A key on a row of the menu. -/
theorem effect_menuKey (position : ℕ) :
    Effect app (.menuKey position) (act app (.menuKey position)) := by
  cases hrow : app.rowOnDisplay position with
  | none =>
    have hact : act app (.menuKey position) = app := by simp only [act, hrow]
    rw [hact]
    exact effect_self (by simp only [acceptsKey, hrow])
  | some row =>
    obtain ⟨menu, menuIndex, shown⟩ := row
    have hact : act app (.menuKey position) = finishAssertionSelection app menuIndex := by
      simp only [act, hrow]
    rw [hact]
    obtain ⟨honMenu, hmem⟩ := rowOnDisplay_eq_some hrow
    have hkey : acceptsKey app (.menuKey position) = acceptsIndex app menuIndex := by
      simp only [acceptsKey, hrow]
    unfold finishAssertionSelection
    split
    · rename_i prompt hpending hdetails
      split_ifs with hindex
      · exact effect_self (by simp [hkey, acceptsIndex, hpending, hdetails, hindex])
      · split
        · rename_i hnone
          exact effect_self (by simp [hkey, acceptsIndex, hpending, hdetails, hnone])
        · rename_i record hrecord
          split_ifs with huse
          · exact effect_self
              (by simpa [hkey, acceptsIndex, hpending, hdetails, hrecord] using fun _ ↦ huse)
          · refine .chosen menu menuIndex shown record prompt.credentialIndices
              prompt.selectedRecordIndex ⟨rfl, rfl, fun _ ↦ Or.inl⟩ hpending rfl (by rw [hdetails]; rfl)
              rfl hrecord honMenu hmem rfl (by simp [App.press, hrow]) ?_
            simp only [Bool.not_eq_true', Bool.not_eq_false] at huse
            simp [hkey, acceptsIndex, hpending, hdetails, hrecord, huse, Nat.lt_of_not_le hindex]
    · rename_i hother
      apply effect_self
      rw [hkey]
      unfold acceptsIndex
      split
      · rename_i hpending hdetails
        exact absurd hdetails (hother _ hpending)
      · rfl

/-- What one step can do. -/
theorem effect_act (app : App) (event : Event) : Effect app event (act app event) := by
  cases event with
  | requestApproval protocol operation targetId userText tick =>
    exact effect_requestApproval rfl
  | requestSelection rpId matchIndices tick => exact effect_requestAssertionSelection rfl
  | wake abandoned => exact effect_wake abandoned
  | giveUp => exact effect_giveUp rfl
  | signal => exact .of_untouched rfl rfl (Or.inl rfl) (Or.inl rfl) rfl rfl rfl
  | cancel => exact effect_finishInteraction (by decide) (by decide) rfl
  | environment => exact .of_untouched rfl rfl (Or.inl rfl) (Or.inl rfl) rfl rfl rfl
  | «show» =>
    exact effect_unless (effect_showInteraction rfl) rfl
  | showView => exact effect_showView rfl
  | hide =>
    exact effect_unless (effect_hideInteraction rfl) rfl
  | tick now =>
    exact effect_unless (effect_expirePendingInteraction rfl) rfl
  | prune =>
    exact effect_unless (effect_pruneRareViews rfl) rfl
  | leaveView view =>
    exact effect_unless (.of_untouched rfl rfl (Or.inl rfl) (Or.inl rfl) rfl rfl rfl) rfl
  | dialogKey result => exact effect_dialogKey result
  | menuKey position => exact effect_menuKey position
  | back =>
    exact effect_unless (effect_navigationCallback rfl) rfl

end Effects

section Invariant

/-- What holds after every run in which keys and signals went to their own requests. -/
structure Consistent (app : App) : Prop where
  own : PromptsOwn app
  past : ∀ change ∈ app.changes, change.request ≤ app.requests
  unsettled : app.approval.state = .pending → ∀ change ∈ app.changes, change.request ≠ app.requests
  approved : app.approval.state = .approved → ∃ change ∈ app.changes,
    change.request = app.requests ∧ change.after = .approved
  chosen : ∀ indices selected, app.approval.details.choice = some (indices, selected) →
    selected ≠ nothingSelected → ∃ change ∈ app.changes, change.request = app.requests ∧
      change.after = .approved ∧ change.press = some (.choose app.requests selected)
  menu : ∀ menu, app.credentialsMenu = some menu → menu.request ≤ app.requests ∧
    (menu.request = app.requests → menu.Shows app.approval.details.choice)

variable {app next : App} {event : Event}

theorem consistent_start (inUse : List Bool) : Consistent (App.start inUse) where
  own :=
    { once := .nil
      pending := by simp [App.start]
      owned := by simp [App.start]
      answered := by simp [App.start]
      selected := by simp [App.start] }
  past := by simp [App.start]
  unsettled := by simp [App.start]
  approved := by simp [App.start]
  chosen := by simp [App.start, Details.choice]
  menu := by simp [App.start]

/-- What the record must have for an answer. -/
structure Backed (app : App) (answer : Answer) : Prop where
  answered : ∀ request, answer.request = some request → answer.approved = true →
    answer.source = some request ∧
      ∃ change ∈ app.changes, change.request = request ∧ change.after = .approved
  selected : ∀ record, answer.selected = some record → ∃ change ∈ app.changes,
    answer.request = some change.request ∧ change.after = .approved ∧
      change.press = some (.choose change.request record)

/-- The answer of a wait that was begun by the newest request. -/
theorem Consistent.interactionAnswer (h : Consistent app) {wait : Wait}
    (hown : app.approval.state = .approved → wait.request = app.requests) :
    Backed app (interactionAnswer app wait) := by
  constructor
  · intro request hof hyes
    obtain rfl := Option.some.inj hof
    have happroved : app.approval.state = .approved := eq_of_beq hyes
    rw [hown happroved]
    exact ⟨rfl, h.approved happroved⟩
  · intro record hselected
    unfold Ui.interactionAnswer at hselected ⊢
    dsimp only at hselected ⊢
    split at hselected
    · rename_i prompt _ hdetails
      split_ifs at hselected with hchosen
      obtain rfl := Option.some.inj hselected
      obtain ⟨change, hmem, hof, hafter, hpress⟩ :=
        h.chosen prompt.credentialIndices prompt.selectedRecordIndex (by rw [hdetails]; rfl) hchosen.2
      refine ⟨change, hmem, ?_, hafter, hof ▸ hpress⟩
      rw [hown hchosen.1, hof]
    · exact absurd hselected (by simp)

/-- An answer that neither approves nor selects. -/
theorem backed_of_refusal {answer : Answer}
    (hrefused : answer.request = none ∨ answer.approved = false) (hnone : answer.selected = none) :
    Backed app answer := by
  constructor
  · intro request hof hyes
    rcases hrefused with hnumber | hno
    · simp [hnumber] at hof
    · simp [hno] at hyes
  · intro record hselected
    simp [hnone] at hselected

/-- A step that changes no outcome keeps what was promised of the changes and the answers. -/
theorem Consistent.promptsOwn_answers (h : Consistent app) (hsignal : OnOwnSignal app event)
    (hchanges : next.changes = app.changes) (hanswers : Answers app event next) :
    PromptsOwn next := by
  have hbacked : ∀ answer ∈ next.answers, Backed app answer := by
    intro answer hanswer
    rcases hanswers with hsame | ⟨added, hadded, hkind⟩
    · rw [hsame] at hanswer
      exact ⟨h.own.answered answer hanswer, h.own.selected answer hanswer⟩
    · rw [hadded, List.mem_append, List.mem_singleton] at hanswer
      rcases hanswer with hold | rfl
      · exact ⟨h.own.answered answer hold, h.own.selected answer hold⟩
      · rcases hkind with ⟨hwake, hdone, wait, hwait, rfl⟩ | ⟨hrefused, hnone⟩
        · exact h.interactionAnswer fun happroved ↦ hsignal hwake hdone happroved wait hwait
        · exact backed_of_refusal hrefused hnone
  constructor
  · rw [hchanges]
    exact h.own.once
  · rw [hchanges]
    exact h.own.pending
  · rw [hchanges]
    exact h.own.owned
  · rw [hchanges]
    exact fun answer hanswer ↦ (hbacked answer hanswer).answered
  · rw [hchanges]
    exact fun answer hanswer ↦ (hbacked answer hanswer).selected

/-- The pending request ends. -/
theorem Consistent.promptsOwn_change (h : Consistent app) {change : OutcomeChange}
    (hpending : app.approval.state = .pending) (hrequest : change.request = app.requests)
    (hbefore : change.before = .pending) (howned : change.after = .approved →
      ∃ press, change.press = some press ∧ press.shownFor = change.request)
    (hchanges : next.changes = app.changes ++ [change]) (hanswers : next.answers = app.answers) :
    PromptsOwn next := by
  have hkept : ∀ found ∈ app.changes, found ∈ next.changes := by
    intro found hfound
    rw [hchanges]
    exact List.mem_append_left _ hfound
  constructor
  · rw [hchanges, List.pairwise_append]
    refine ⟨h.own.once, List.pairwise_singleton _ _, ?_⟩
    intro found hfound last hlast
    obtain rfl := List.mem_singleton.mp hlast
    rw [hrequest]
    exact h.unsettled hpending found hfound
  · intro found hfound
    rw [hchanges, List.mem_append, List.mem_singleton] at hfound
    rcases hfound with hold | rfl
    · exact h.own.pending found hold
    · exact hbefore
  · intro found hfound hafter
    rw [hchanges, List.mem_append, List.mem_singleton] at hfound
    rcases hfound with hold | rfl
    · exact h.own.owned found hold hafter
    · exact howned hafter
  · rw [hanswers]
    intro answer hanswer request hof hyes
    obtain ⟨hsource, found, hfound, hrest⟩ := h.own.answered answer hanswer request hof hyes
    exact ⟨hsource, found, hkept found hfound, hrest⟩
  · rw [hanswers]
    intro answer hanswer record hselected
    obtain ⟨found, hfound, hrest⟩ := h.own.selected answer hanswer record hselected
    exact ⟨found, hkept found hfound, hrest⟩

/-- The menu after a step that begins no request. -/
theorem Same.menu_consistent (same : Same app next) (h : Consistent app)
    (hoffered : next.approval.details.choice.map Prod.fst =
      app.approval.details.choice.map Prod.fst) :
    ∀ menu, next.credentialsMenu = some menu → menu.request ≤ next.requests ∧
      (menu.request = next.requests → menu.Shows next.approval.details.choice) := by
  intro menu hmenu
  rw [same.requests]
  have hshows : menu.Shows app.approval.details.choice → menu.Shows next.approval.details.choice := by
    intro hshows row hrow
    rw [hoffered]
    exact hshows row hrow
  rcases same.menu menu hmenu with hold | ⟨hrequest, hnew⟩
  · obtain ⟨hle, hold⟩ := h.menu menu hold
    exact ⟨hle, fun hnow ↦ hshows (hold hnow)⟩
  · exact ⟨Nat.le_of_eq hrequest, fun _ ↦ hshows hnew⟩

theorem step_of_state_eq (h : (act app event).requests = app.requests →
    (act app event).approval.state = app.approval.state) : step app event = act app event := by
  unfold step
  exact if_neg fun hchanged ↦ hchanged.2 (h hchanged.1)

theorem step_of_state_ne (hrequests : (act app event).requests = app.requests)
    (hstate : (act app event).approval.state ≠ app.approval.state) :
    step app event = { act app event with
      changes := (act app event).changes ++
        [⟨app.requests, app.approval.state, (act app event).approval.state, app.press event⟩] } := by
  unfold step
  exact if_pos ⟨hrequests, hstate⟩

/-- The ending of the pending request, by whatever key. -/
theorem Consistent.ended (h : Consistent app) (hown : ∀ press ∈ app.press event,
      (act app event).approval.state = .approved → press.shownFor = app.requests)
    (same : Same app (act app event)) (hpending : app.approval.state = .pending)
    (hsettled : (act app event).approval.state ≠ .pending)
    (hpressed : (act app event).approval.state = .approved → (app.press event).isSome)
    (hanswers : (act app event).answers = app.answers)
    (hoffered : (act app event).approval.details.choice.map Prod.fst =
      app.approval.details.choice.map Prod.fst)
    (hchosen : ∀ indices selected,
      (act app event).approval.details.choice = some (indices, selected) →
        selected ≠ nothingSelected → app.approval.details.choice = some (indices, selected) ∨
          (act app event).approval.state = .approved ∧
            app.press event = some (.choose app.requests selected)) :
    Consistent (step app event) := by
  have hstep := step_of_state_ne same.requests (fun heq ↦ hsettled (heq.trans hpending))
  have hchanges : (step app event).changes = app.changes ++
      [⟨app.requests, app.approval.state, (act app event).approval.state, app.press event⟩] := by
    rw [hstep, same.changes]
  have hrequests : (step app event).requests = app.requests := by rw [hstep, same.requests]
  have hlast : ⟨app.requests, app.approval.state, (act app event).approval.state,
      app.press event⟩ ∈ (step app event).changes := by simp [hchanges]
  constructor
  · refine h.promptsOwn_change hpending rfl hpending (fun happroved ↦ ?_) hchanges
      (by rw [hstep, hanswers])
    obtain ⟨press, hpress⟩ := Option.isSome_iff_exists.mp (hpressed happroved)
    exact ⟨press, hpress, hown press hpress happroved⟩
  · intro change hchange
    rw [hrequests]
    rw [hchanges, List.mem_append, List.mem_singleton] at hchange
    rcases hchange with hold | rfl
    · exact h.past change hold
    · exact Nat.le_refl _
  · intro hstate
    rw [hstep] at hstate
    exact absurd hstate hsettled
  · intro hstate
    rw [hstep] at hstate
    exact ⟨_, hlast, hrequests.symm, hstate⟩
  · intro indices selected hchoice hselected
    rw [hstep] at hchoice
    rcases hchosen indices selected hchoice hselected with hold | ⟨happroved, hpress⟩
    · obtain ⟨change, hmem, hof, -⟩ := h.chosen indices selected hold hselected
      exact absurd hof (h.unsettled hpending change hmem)
    · rw [hrequests]
      exact ⟨_, hlast, rfl, happroved, hpress⟩
  · rw [hstep]
    exact same.menu_consistent h hoffered

theorem consistent_step (hrequest : OnOwnRequest app event) (h : Consistent app) :
    Consistent (step app event) := by
  obtain ⟨hown, hsignal⟩ := hrequest
  rcases effect_act app event with ⟨same, hstate, hchoice, hanswers, -⟩ |
    ⟨hrequests, hchanges, hmenu, hanswers, hpending, hnothing, -⟩ |
    ⟨same, hpending, hsettled, hrefused, hchoice, hanswers, -⟩ |
    ⟨dialog, same, hpending, hstate, hchoice, hanswers, hpress, hkey⟩ |
    ⟨menu, menuIndex, shown, record, indices, before, same, hpending, hstate, hoffered, hchoice, hrow,
      honMenu, hmem, hanswers, hpress, hkey⟩
  · -- no request begins or ends
    rw [step_of_state_eq fun _ ↦ hstate]
    constructor
    · exact h.promptsOwn_answers hsignal same.changes hanswers
    · rw [same.changes, same.requests]
      exact h.past
    · rw [same.changes, same.requests, hstate]
      exact h.unsettled
    · rw [same.changes, same.requests, hstate]
      exact h.approved
    · rw [same.changes, same.requests, hchoice]
      exact h.chosen
    · exact same.menu_consistent h (by rw [hchoice])
  · -- a new request: everything on record is of earlier ones
    rw [step_of_state_eq fun heq ↦ absurd (hrequests.symm.trans heq) (Nat.succ_ne_self _)]
    constructor
    · exact h.promptsOwn_answers hsignal hchanges (Or.inl hanswers)
    · rw [hchanges, hrequests]
      exact fun change hchange ↦ Nat.le_succ_of_le (h.past change hchange)
    · rw [hchanges, hrequests]
      exact fun _ change hchange ↦ Nat.ne_of_lt (Nat.lt_succ_of_le (h.past change hchange))
    · intro happroved
      rw [hpending] at happroved
      contradiction
    · intro indices selected hchoice hselected
      exact absurd (hnothing indices selected hchoice) hselected
    · rw [hmenu, hrequests]
      intro menu honMenu
      have hle := (h.menu menu honMenu).1
      exact ⟨Nat.le_succ_of_le hle, fun heq ↦ by omega⟩
  · -- the pending request is denied, cancelled or expires
    exact h.ended (fun _ _ happroved ↦ absurd happroved hrefused) same hpending hsettled
      (fun happroved ↦ absurd happroved hrefused) hanswers (by rw [hchoice])
      (fun indices selected hnow _ ↦ Or.inl (hchoice ▸ hnow))
  · -- the pending request is approved on a dialog
    exact h.ended (fun press hmem _ ↦ hown hkey press hmem) same hpending (by simp [hstate])
      (fun _ ↦ by simp [hpress]) hanswers (by rw [hchoice])
      (fun indices selected hnow _ ↦ Or.inl (hchoice ▸ hnow))
  · -- a record is chosen on a menu, which shows what the pending request offers
    have hmenu : menu.request = app.requests :=
      hown hkey (.choose menu.request shown) (by rw [hpress]; rfl)
    obtain ⟨shownIndices, hsame, hshown⟩ := (h.menu menu honMenu).2 hmenu _ hmem
    obtain rfl : indices = shownIndices := by
      rw [hoffered] at hsame
      exact Option.some.inj hsame
    obtain rfl : record = shown := Option.some.inj (hrow.symm.trans hshown)
    refine h.ended (fun press hmem _ ↦ hown hkey press hmem) same hpending (by simp [hstate])
      (fun _ ↦ by simp [hpress]) hanswers (by rw [hchoice, hoffered]; rfl) ?_
    intro found selected hnow _
    rw [hchoice, Option.some.injEq, Prod.mk.injEq] at hnow
    obtain ⟨-, rfl⟩ := hnow
    exact Or.inr ⟨hstate, hmenu ▸ hpress⟩

end Invariant

section Runs

variable {app : App} {event : Event}

/-- Nothing is taken off the record. -/
structure Recorded (app next : App) : Prop where
  changes : ∃ more, next.changes = app.changes ++ more
  answers : ∃ more, next.answers = app.answers ++ more

theorem Recorded.trans {last next : App} (h : Recorded app next) (h' : Recorded next last) :
    Recorded app last := by
  obtain ⟨⟨changes, hchanges⟩, answers, hanswers⟩ := h
  obtain ⟨⟨changes', hchanges'⟩, answers', hanswers'⟩ := h'
  constructor
  · exact ⟨changes ++ changes', by rw [hchanges', hchanges, List.append_assoc]⟩
  · exact ⟨answers ++ answers', by rw [hanswers', hanswers, List.append_assoc]⟩

theorem recorded_of_eq {next : App} (hchanges : next.changes = app.changes)
    (hanswers : next.answers = app.answers) : Recorded app next :=
  ⟨⟨[], by rw [hchanges, List.append_nil]⟩, [], by rw [hanswers, List.append_nil]⟩

theorem recorded_act (app : App) (event : Event) : Recorded app (act app event) := by
  rcases effect_act app event with ⟨same, -, -, hanswers⟩ | ⟨-, hchanges, -, hanswers⟩ |
    ⟨same, -, -, -, -, hanswers⟩ | ⟨-, same, -, -, -, hanswers⟩ |
    ⟨-, -, -, -, -, -, same, -, -, -, -, -, -, -, hanswers⟩
  · rcases hanswers with hnone | ⟨answer, hanswer, -⟩
    · exact recorded_of_eq same.changes hnone
    · exact ⟨⟨[], by rw [same.changes, List.append_nil]⟩, [answer], hanswer⟩
  · exact recorded_of_eq hchanges hanswers
  · exact recorded_of_eq same.changes hanswers
  · exact recorded_of_eq same.changes hanswers
  · exact recorded_of_eq same.changes hanswers

theorem recorded_step (app : App) (event : Event) : Recorded app (step app event) := by
  refine (recorded_act app event).trans ?_
  unfold step
  dsimp only
  split_ifs
  · exact ⟨⟨_, rfl⟩, [], (List.append_nil _).symm⟩
  · exact recorded_of_eq rfl rfl

theorem recorded_run (app : App) (events : List Event) : Recorded app (run step app events) := by
  induction events generalizing app with
  | nil => exact recorded_of_eq rfl rfl
  | cons event events ih => exact (recorded_step app event).trans (ih (step app event))

/-- An accepted key is on record with the prompt that it was pressed on. -/
theorem change_of_acceptsKey (hkey : acceptsKey app event = true) :
    ∃ change ∈ (step app event).changes, change.after = .approved ∧
      change.request = app.requests ∧ change.press = app.press event := by
  have hrecorded : Same app (act app event) → app.approval.state = .pending →
      (act app event).approval.state = .approved → ∃ change ∈ (step app event).changes,
        change.after = .approved ∧ change.request = app.requests ∧
          change.press = app.press event := by
    intro same hpending hstate
    rw [step_of_state_ne same.requests (by simp [hpending, hstate])]
    exact ⟨_, List.mem_append_right _ (List.mem_singleton_self _), hstate, rfl, rfl⟩
  rcases effect_act app event with ⟨-, -, -, -, hno⟩ | ⟨-, -, -, -, -, -, hno⟩ |
    ⟨-, -, -, -, -, -, hno⟩ | ⟨-, same, hpending, hstate⟩ |
    ⟨-, -, -, -, -, -, same, hpending, hstate⟩
  · simp [hno] at hkey
  · simp [hno] at hkey
  · simp [hno] at hkey
  · exact hrecorded same hpending hstate
  · exact hrecorded same hpending hstate

/-- An approval that a wait takes is on record with the request whose outcome it was. -/
theorem answer_of_wake {wait : Wait} (hwait : app.waits.head? = some wait)
    (hdone : app.approval.done = true) (happroved : app.approval.state = .approved) :
    ∃ answer ∈ (step app (.wake false)).answers, answer.request = some wait.request ∧
      answer.approved = true ∧ answer.source = some app.requests := by
  obtain ⟨outer, hwaits⟩ := List.head?_eq_some_iff.mp hwait
  have hact : act app (.wake false) =
      { app with approval := { app.approval with done := false }, waits := outer }.answer
        (interactionAnswer { app with
          approval := { app.approval with done := false }, waits := outer } wait) := by
    simp [act, wake, hwaits, hdone, interactionAnswer]
  rw [step_of_state_eq fun _ ↦ by rw [hact]; rfl, hact]
  refine ⟨_, List.mem_append_right _ (List.mem_singleton_self _), rfl, ?_, rfl⟩
  simp [interactionAnswer, happroved]

/-- A record on which all is owned was made by keys and signals that went to their own requests. -/
theorem onOwnRequest_of_promptsOwn {events : List Event} (h : PromptsOwn (run step app events)) :
    EveryStep step OnOwnRequest app events := by
  induction events generalizing app with
  | nil => trivial
  | cons event events ih =>
    obtain ⟨⟨moreChanges, hchanges⟩, moreAnswers, hanswers⟩ := recorded_run (step app event) events
    refine ⟨⟨?_, ?_⟩, ih h⟩
    · intro hkey press hpress
      obtain ⟨change, hmem, hafter, hrequest, hchange⟩ := change_of_acceptsKey hkey
      obtain ⟨found, hfound, hown⟩ := h.owned change
        (by rw [run_cons, hchanges]; exact List.mem_append_left _ hmem) hafter
      obtain rfl := Option.some.inj ((hchange.symm.trans hfound).symm.trans hpress)
      exact hown.trans hrequest
    · rintro rfl hdone happroved wait hwait
      obtain ⟨answer, hmem, hrequest, hyes, hsource⟩ := answer_of_wake hwait hdone happroved
      have hown := (h.answered answer
        (by rw [run_cons, hanswers]; exact List.mem_append_left _ hmem) _ hrequest hyes).1
      exact (Option.some.inj (hsource.symm.trans hown)).symm

/-- The outcomes of a run belong to the prompts that the user saw exactly when no key that a pending
request took was pressed on the prompt of an earlier request, and no wait took the approval of a
later request. -/
theorem prompts_own_iff (inUse : List Bool) (events : List Event) :
    PromptsOwn (run step (App.start inUse) events) ↔
      EveryStep step OnOwnRequest (App.start inUse) events := by
  constructor
  · exact onOwnRequest_of_promptsOwn
  · intro h
    exact (run_invariant (fun _ _ ↦ consistent_step) h (consistent_start inUse)).own

/-- The prompt of a first request is on display when its connection is lost. The worker begins the
next request, and the user's key arrives before the UI thread has taken the two events that hide the
first prompt and show the second. -/
def lateKey : List Event :=
  [.requestApproval .u2f "Register".toList "example.org".toList [] 0, .show, .showView, .cancel,
    .wake false,
    .requestApproval .fido2 "Authenticate".toList "bank.example".toList "alice".toList 5,
    .dialogKey .right, .wake false]

/-- The second request is approved, and its prompt was never shown. -/
theorem stale_prompt_approves :
    (run step (App.start []) lateKey).answers =
        [⟨some 1, some 1, true, false, none⟩, ⟨some 2, some 2, true, true, none⟩] ∧
      ¬ PromptsOwn (run step (App.start []) lateKey) := by
  constructor
  · decide +kernel
  · intro h
    have hchange : ⟨2, .pending, .approved, some (.approve 1)⟩ ∈
        (run step (App.start []) lateKey).changes := by decide +kernel
    obtain ⟨press, hpress, hown⟩ := h.owned _ hchange rfl
    obtain rfl := Option.some.inj hpress
    exact absurd hown (by decide)

/-- A request is cancelled while it waits, one that begins inside its wait is approved on its own
prompt, and the transport is stopped while the first one still waits. -/
def stoppedTransport : List Event :=
  [.requestApproval .u2f "Register".toList "example.org".toList [] 0, .show, .showView, .cancel,
    .requestApproval .fido2 "Authenticate".toList "bank.example".toList "alice".toList 5, .hide,
    .show, .showView, .dialogKey .right, .wake false, .signal, .wake false]

-- The first request, which was cancelled, is answered with the approval of the second.
example : (run step (App.start []) stoppedTransport).answers =
    [⟨some 2, some 2, true, true, none⟩, ⟨some 1, some 2, true, true, none⟩] := by decide +kernel

end Runs

end ZeroFido.Ui
