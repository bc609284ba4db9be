import ZeroFido.Foundations.Run
import ZeroFido.Pin.ClientPin
import Mathlib.Data.List.Induction

/-!
# The maintenance gate around the consent wait

`maintenance_busy` is the gate that serialises everything that changes the application's state. A
clientPIN command takes it in `zf_ctap_dispatch_command`, gives it up in
`zf_client_pin_request_permission_token_consent` while the user is asked, takes it back afterwards,
publishes its snapshot of the PIN state and clears the gate.

The model is an interleaving of the command with any number of other parties, one step for each
section under `ui_mutex`. Other parties follow the protocol: they set the flag when it is clear,
write the PIN state while they hold it, and clear it. What the command computes on its snapshot is
arbitrary. The observer's fields are not in the code: who set the flag, how many writes the other
parties have made, and what was cleared and published.

When the wait ends while another party holds the gate, the command returns without taking it and
without reading the state back, and its callers go on as if it held the gate
(`consent_ends_in_foreign_gate`). In every run in which the gate is free when the wait ends, it is
exclusive and no write is lost, and in no other (`gate_exclusive_iff`).
-/

set_option autoImplicit false
set_option relaxedAutoImplicit false

namespace ZeroFido.Pin.Gate

open Foundations

section Model

/-- The parties that use the gate. -/
inductive Party where
  | command
  | other (index : ℕ)
  deriving DecidableEq, Repr

/-- Where the command is. `seen` counts the writes of other parties that its snapshot includes. -/
inductive Phase where
  /-- No clientPIN command is running. -/
  | idle
  /-- The gate has been taken, the state not yet read. -/
  | begun
  /-- Working on the snapshot; consent has been obtained or not. -/
  | working (state : ClientPinState) (seen : ℕ) (consented : Bool)
  /-- Inside `zerofido_ui_request_approval`. -/
  | waiting (heldMaintenance : Bool) (state : ClientPinState) (seen : ℕ)
  /-- The handler has returned, the snapshot is to be published. -/
  | finishing (state : ClientPinState) (seen : ℕ)
  /-- `zf_ctap_end_maintenance` is to be called. -/
  | ending
  deriving DecidableEq, Repr

/-- What the observer is told. -/
inductive GateEvent where
  /-- The flag was cleared by a party, when it had been set by `owner`. -/
  | cleared (party : Party) (owner : Option Party)
  /-- The command published a snapshot that includes `seen` of the `written` writes. -/
  | published (seen written : ℕ)
  deriving DecidableEq, Repr

structure GateSystem where
  maintenanceBusy : Bool := false
  pinState : ClientPinState := {}
  command : Phase := .idle
  /-- Whether another party is between its begin and its end. -/
  others : ℕ → Bool := fun _ ↦ false
  owner : Option Party := none
  written : ℕ := 0
  record : List GateEvent := []

/-- The sections under `ui_mutex`, and the work between them. -/
inductive GateStep where
  | beginMaintenance
  | snapshotState
  | work (next : ClientPinState)
  | releaseForConsent
  | consentEnds (pinHashPlain : Bytes) (consent : ConsentOutcome)
  | handlerReturns
  | publishState
  | abandon
  | endMaintenance
  | otherBegins (index : ℕ)
  | otherWrites (index : ℕ) (next : ClientPinState)
  | otherEnds (index : ℕ)
  deriving DecidableEq, Repr

/-- Setting the flag. -/
def GateSystem.setBusy (system : GateSystem) (party : Party) : GateSystem :=
  { system with maintenanceBusy := true, owner := some party }

/-- Clearing the flag. -/
def GateSystem.clearBusy (system : GateSystem) (party : Party) : GateSystem :=
  { system with
    maintenanceBusy := false
    owner := none
    record := system.record ++ [.cleared party system.owner] }

/-- The command's section before the wait: the snapshot is published, and the gate is given up if it
is held. -/
def releaseForConsent (system : GateSystem) (state : ClientPinState) (seen : ℕ) : GateSystem :=
  let heldMaintenance := system.maintenanceBusy
  let system := { system with
    pinState := state
    record := system.record ++ [GateEvent.published seen system.written] }
  let system := if heldMaintenance then system.clearBusy .command else system
  { system with command := .waiting heldMaintenance state seen }

/-- The end of `zf_client_pin_request_permission_token_consent` once the state has been read back:
where the command goes on. -/
def afterConsent (state : ClientPinState) (seen : ℕ) (pinHashPlain : Bytes)
    (consent : ConsentOutcome) : Phase :=
  if consentStatus consent ≠ .success then
    .finishing state seen
  else if !state.pinSet || !constantTimeEqual pinHashPlain state.pinHash pinHashLen then
    .finishing state seen
  else
    .working state seen true

/-- The command's section after the wait. A gate that someone else holds is left alone, and so is
the old snapshot. -/
def consentEnds (system : GateSystem) (heldMaintenance : Bool) (state : ClientPinState) (seen : ℕ)
    (pinHashPlain : Bytes) (consent : ConsentOutcome) : GateSystem :=
  if heldMaintenance && system.maintenanceBusy then
    { system with command := .finishing state seen }
  else
    let system := if heldMaintenance then system.setBusy .command else system
    { system with command := afterConsent system.pinState system.written pinHashPlain consent }

/-- One step. A step whose party is somewhere else does nothing. -/
def gateStep (system : GateSystem) (step : GateStep) : GateSystem :=
  match step, system.command with
  | .beginMaintenance, .idle =>
    if system.maintenanceBusy then system
    else { system.setBusy .command with command := .begun }
  | .snapshotState, .begun =>
    { system with command := .working system.pinState system.written false }
  | .work next, .working _ seen consented =>
    { system with command := .working next seen consented }
  | .releaseForConsent, .working state seen false => releaseForConsent system state seen
  | .consentEnds pinHashPlain consent, .waiting heldMaintenance state seen =>
    consentEnds system heldMaintenance state seen pinHashPlain consent
  | .handlerReturns, .working state seen _ =>
    { system with command := .finishing state seen }
  | .publishState, .finishing state seen =>
    { system with
      pinState := state
      command := .ending
      record := system.record ++ [.published seen system.written] }
  | .abandon, .begun => { system with command := .ending }
  | .abandon, .working _ _ false => { system with command := .ending }
  | .endMaintenance, .ending => { system.clearBusy .command with command := .idle }
  | .otherBegins index, _ =>
    if system.others index || system.maintenanceBusy then system
    else { system.setBusy (.other index) with others := Function.update system.others index true }
  | .otherWrites index next, _ =>
    if system.others index then
      { system with pinState := next, written := system.written + 1 }
    else system
  | .otherEnds index, _ =>
    if system.others index then
      { system.clearBusy (.other index) with
        others := Function.update system.others index false }
    else system
  | _, _ => system

/-- The command is in a part of the code that relies on the gate. -/
def Phase.usesGate : Phase → Bool
  | .idle => false
  | .waiting _ _ _ => false
  | _ => true

/-- The party believes that it holds the gate. -/
def GateSystem.Holds (system : GateSystem) : Party → Prop
  | .command => system.command.usesGate = true
  | .other index => system.others index = true

/-- The flag was cleared by the party that had set it; the snapshot that was published includes
every write of another party. -/
def GateEvent.Orderly : GateEvent → Prop
  | .cleared party owner => owner = some party
  | .published seen written => seen = written

/-- At most one party believes that it holds the gate, and so far the flag was cleared only by the
party that had set it and no write was overwritten by an older snapshot. -/
structure GateSystem.Exclusive (system : GateSystem) : Prop where
  unique : ∀ party party', system.Holds party → system.Holds party' → party = party'
  orderly : ∀ event ∈ system.record, event.Orderly

end Model

section Invariant

/-- The writes of other parties that the snapshot in use includes. -/
def Phase.seen : Phase → Option ℕ
  | .working _ seen _ => some seen
  | .finishing _ seen => some seen
  | _ => none

/-- The party that believes it holds the gate is the one that set the flag, and the snapshot in use
is up to date. -/
structure GateInvariant (system : GateSystem) : Prop where
  busy : system.maintenanceBusy = system.owner.isSome
  holds : ∀ party, system.Holds party ↔ system.owner = some party
  seen : ∀ seen, system.command.seen = some seen → seen = system.written
  held : ∀ held state seen, system.command = .waiting held state seen → held = true
  orderly : ∀ event ∈ system.record, event.Orderly

variable {system : GateSystem}

theorem GateInvariant.exclusive (h : GateInvariant system) : system.Exclusive := by
  refine ⟨fun party party' hparty hparty' ↦ ?_, h.orderly⟩
  rw [h.holds] at hparty hparty'
  exact Option.some.inj (hparty.symm.trans hparty')

/-- While the flag is clear nobody holds the gate. -/
theorem GateInvariant.not_holds (h : GateInvariant system)
    (hfree : system.maintenanceBusy = false) (party : Party) : ¬system.Holds party := by
  intro hholds
  rw [h.holds] at hholds
  have hbusy := h.busy
  rw [hfree, hholds] at hbusy
  exact absurd hbusy (by simp)

theorem orderly_concat {record : List GateEvent} {event : GateEvent}
    (hrecord : ∀ found ∈ record, found.Orderly) (hevent : event.Orderly) :
    ∀ found ∈ record ++ [event], found.Orderly := by
  intro found hfound
  obtain hfound | hfound := List.mem_append.mp hfound
  · exact hrecord found hfound
  · rw [List.mem_singleton.mp hfound]
    exact hevent

/-- A step of the command that stays in the gate, or stays out of it, with an up-to-date snapshot.
-/
theorem GateInvariant.moved (h : GateInvariant system) {next : Phase}
    (huses : next.usesGate = system.command.usesGate)
    (hseen : ∀ seen, next.seen = some seen → seen = system.written)
    (hheld : ∀ held state seen, next = .waiting held state seen → held = true) :
    GateInvariant { system with command := next } := by
  refine ⟨h.busy, fun party ↦ ?_, hseen, hheld, h.orderly⟩
  rw [← h.holds party]
  cases party with
  | command => simp only [GateSystem.Holds, huses]
  | other index => rfl

/-- The command takes a free gate. -/
theorem GateInvariant.commandTakes (h : GateInvariant system)
    (hfree : system.maintenanceBusy = false) {next : Phase} (huses : next.usesGate = true)
    (hseen : ∀ seen, next.seen = some seen → seen = system.written)
    (hheld : ∀ held state seen, next = .waiting held state seen → held = true) :
    GateInvariant { system.setBusy .command with command := next } := by
  refine ⟨rfl, fun party ↦ ?_, hseen, hheld, h.orderly⟩
  cases party with
  | command => simp [GateSystem.Holds, GateSystem.setBusy, huses]
  | other index => simpa [GateSystem.Holds, GateSystem.setBusy] using h.not_holds hfree (.other index)

/-- The command gives up the gate it holds. -/
theorem GateInvariant.commandClears (h : GateInvariant system)
    (hholds : system.command.usesGate = true) {next : Phase} (huses : next.usesGate = false)
    (hseen : ∀ seen, next.seen = some seen → seen = system.written)
    (hheld : ∀ held state seen, next = .waiting held state seen → held = true) :
    GateInvariant { system.clearBusy .command with command := next } := by
  have howner : system.owner = some .command := (h.holds .command).mp hholds
  have horderly : (GateEvent.cleared .command system.owner).Orderly := howner
  refine ⟨rfl, fun party ↦ ?_, hseen, hheld, orderly_concat h.orderly horderly⟩
  cases party with
  | command => simp [GateSystem.Holds, GateSystem.clearBusy, huses]
  | other index =>
    have hother : ¬system.Holds (.other index) := by
      rw [h.holds, howner]
      simp
    simpa [GateSystem.Holds, GateSystem.clearBusy] using hother

theorem GateInvariant.published (h : GateInvariant system) {seen : ℕ} (state : ClientPinState)
    (hseen : seen = system.written) :
    GateInvariant { system with
      pinState := state
      record := system.record ++ [.published seen system.written] } := by
  have horderly : (GateEvent.published seen system.written).Orderly := hseen
  exact ⟨h.busy, h.holds, h.seen, h.held, orderly_concat h.orderly horderly⟩

/-- Another party takes a free gate. -/
theorem GateInvariant.otherTakes (h : GateInvariant system)
    (hfree : system.maintenanceBusy = false) (index : ℕ) :
    GateInvariant { system.setBusy (.other index) with
      others := Function.update system.others index true } := by
  refine ⟨rfl, fun party ↦ ?_, h.seen, h.held, h.orderly⟩
  have hnone := h.not_holds hfree party
  cases party with
  | command => simpa [GateSystem.Holds, GateSystem.setBusy] using hnone
  | other index' =>
    by_cases hindex : index' = index
    · simp [GateSystem.Holds, GateSystem.setBusy, hindex]
    · simpa [GateSystem.Holds, GateSystem.setBusy, hindex, Ne.symm hindex] using hnone

/-- Another party that holds the gate writes the PIN state; no snapshot is in use then. -/
theorem GateInvariant.otherWrites (h : GateInvariant system) {index : ℕ}
    (hholds : system.Holds (.other index)) (next : ClientPinState) :
    GateInvariant { system with pinState := next, written := system.written + 1 } := by
  refine ⟨h.busy, h.holds, fun seen hseen ↦ ?_, h.held, h.orderly⟩
  have huses : system.Holds .command := by
    unfold GateSystem.Holds
    cases hphase : system.command <;> simp_all [Phase.seen, Phase.usesGate]
  exact absurd (h.exclusive.unique _ _ huses hholds) (by simp)

/-- Another party gives up the gate it holds. -/
theorem GateInvariant.otherClears (h : GateInvariant system) {index : ℕ}
    (hholds : system.Holds (.other index)) :
    GateInvariant { system.clearBusy (.other index) with
      others := Function.update system.others index false } := by
  have howner : system.owner = some (.other index) := (h.holds _).mp hholds
  have horderly : (GateEvent.cleared (.other index) system.owner).Orderly := howner
  refine ⟨rfl, fun party ↦ ?_, h.seen, h.held, orderly_concat h.orderly horderly⟩
  cases party with
  | command =>
    have hcommand : ¬system.Holds .command := by
      rw [h.holds, howner]
      simp
    simpa [GateSystem.Holds, GateSystem.clearBusy] using hcommand
  | other index' =>
    by_cases hindex : index' = index
    · simp [GateSystem.Holds, GateSystem.clearBusy, hindex]
    · have hother : ¬system.Holds (.other index') := by
        rw [h.holds, howner]
        simpa using Ne.symm hindex
      simpa [GateSystem.Holds, GateSystem.clearBusy, hindex] using hother

end Invariant

section Runs

variable {system : GateSystem}

/-- The gate is free when a consent wait ends. -/
def FreeAfterWait (system : GateSystem) (step : GateStep) : Prop :=
  ∀ pinHashPlain consent held state seen, step = .consentEnds pinHashPlain consent →
    system.command = .waiting held state seen → system.maintenanceBusy = false

theorem afterConsent_usesGate (state : ClientPinState) (seen : ℕ) (pinHashPlain : Bytes)
    (consent : ConsentOutcome) : (afterConsent state seen pinHashPlain consent).usesGate = true := by
  unfold afterConsent
  split_ifs <;> rfl

theorem afterConsent_seen (state : ClientPinState) (seen : ℕ) (pinHashPlain : Bytes)
    (consent : ConsentOutcome) : (afterConsent state seen pinHashPlain consent).seen = some seen := by
  unfold afterConsent
  split_ifs <;> rfl

/-- The section before the wait. The command holds the gate, so it is given up. -/
theorem GateInvariant.releaseForConsent (h : GateInvariant system) {state : ClientPinState}
    {seen : ℕ} {consented : Bool} (hphase : system.command = .working state seen consented) :
    GateInvariant (releaseForConsent system state seen) := by
  have huses : system.command.usesGate = true := by rw [hphase]; rfl
  have hbusy : system.maintenanceBusy = true := by
    rw [h.busy, (h.holds .command).mp huses]
    rfl
  have hseen : seen = system.written := h.seen seen (by rw [hphase]; rfl)
  have hpublished := h.published state hseen
  simp only [Gate.releaseForConsent, hbusy, if_true]
  refine hpublished.commandClears huses rfl (fun _ hnone ↦ absurd hnone (by simp [Phase.seen])) ?_
  intro held state' seen' hwaiting
  exact (Phase.waiting.inj hwaiting).1.symm

/-- The section after the wait, with the gate free. -/
theorem GateInvariant.consentEnds (h : GateInvariant system) {held : Bool}
    {state : ClientPinState} {seen : ℕ} (hphase : system.command = .waiting held state seen)
    (hfree : system.maintenanceBusy = false) (pinHashPlain : Bytes) (consent : ConsentOutcome) :
    GateInvariant (consentEnds system held state seen pinHashPlain consent) := by
  have hheld : held = true := h.held held state seen hphase
  simp only [Gate.consentEnds, hheld, hfree, Bool.and_false, Bool.false_eq_true, if_false, if_true]
  refine h.commandTakes hfree (afterConsent_usesGate _ _ _ _) (fun found hfound ↦ ?_) ?_
  · rw [afterConsent_seen] at hfound
    exact (Option.some.inj hfound).symm
  · intro held' state' seen' hwaiting
    have huses := afterConsent_usesGate system.pinState system.written pinHashPlain consent
    change afterConsent system.pinState system.written pinHashPlain consent = _ at hwaiting
    rw [hwaiting] at huses
    exact absurd huses Bool.false_ne_true

/-- Every step that meets the condition keeps the invariant. -/
theorem gateStep_invariant (system : GateSystem) (step : GateStep)
    (hwait : FreeAfterWait system step) (h : GateInvariant system) :
    GateInvariant (gateStep system step) := by
  unfold gateStep
  split
  next hphase =>
    split_ifs with hbusy
    · exact h
    · exact h.commandTakes (by simpa using hbusy) rfl (by simp [Phase.seen]) (by simp)
  next hphase =>
    exact h.moved (by rw [hphase]; rfl) (fun _ hseen ↦ (Option.some.inj hseen).symm) (by simp)
  next hphase =>
    refine h.moved (by rw [hphase]; rfl) (fun _ hseen ↦ ?_) (by simp)
    exact h.seen _ (by rw [hphase]; exact hseen)
  next hphase => exact h.releaseForConsent hphase
  next hphase =>
    exact h.consentEnds hphase (hwait _ _ _ _ _ rfl hphase) _ _
  next hphase =>
    refine h.moved (by rw [hphase]; rfl) (fun _ hseen ↦ ?_) (by simp)
    exact h.seen _ (by rw [hphase]; exact hseen)
  next hphase =>
    refine (h.published _ (h.seen _ (by rw [hphase]; rfl))).moved ?_ (by simp [Phase.seen]) (by simp)
    change true = system.command.usesGate
    rw [hphase]
    rfl
  next hphase => exact h.moved (by rw [hphase]; rfl) (by simp [Phase.seen]) (by simp)
  next hphase => exact h.moved (by rw [hphase]; rfl) (by simp [Phase.seen]) (by simp)
  next hphase => exact h.commandClears (by rw [hphase]; rfl) rfl (by simp [Phase.seen]) (by simp)
  next =>
    split_ifs with hbusy
    · exact h
    · simp only [Bool.or_eq_true, not_or, Bool.not_eq_true] at hbusy
      exact h.otherTakes hbusy.2 _
  next =>
    split_ifs with hholds
    · exact h.otherWrites hholds _
    · exact h
  next =>
    split_ifs with hholds
    · exact h.otherClears hholds
    · exact h
  next => exact h

/-- A wait that ends while the gate is taken leaves two parties in it. -/
theorem not_exclusive_of_busy (h : GateInvariant system) {step : GateStep}
    (hwait : ¬FreeAfterWait system step) : ¬(gateStep system step).Exclusive := by
  unfold FreeAfterWait at hwait
  push Not at hwait
  obtain ⟨pinHashPlain, consent, held, state, seen, rfl, hphase, hbusy⟩ := hwait
  have hheld : held = true := h.held held state seen hphase
  have htaken : system.maintenanceBusy = true := by simpa using hbusy
  have howned : system.owner.isSome = true := by rw [← h.busy, htaken]
  obtain ⟨owner, howner⟩ := Option.isSome_iff_exists.mp howned
  have hholds : system.Holds owner := (h.holds owner).mpr howner
  have hstep : gateStep system (.consentEnds pinHashPlain consent) =
      { system with command := .finishing state seen } := by
    simp only [gateStep, hphase, consentEnds, hheld, htaken, Bool.and_true, if_true]
  rw [hstep]
  intro hexclusive
  cases owner with
  | command =>
    unfold GateSystem.Holds at hholds
    rw [hphase] at hholds
    exact absurd hholds Bool.false_ne_true
  | other index =>
    have hsame := hexclusive.unique .command (.other index) rfl hholds
    exact absurd hsame (by simp)

theorem gateInvariant_start (pinState : ClientPinState) : GateInvariant { pinState } := by
  refine ⟨rfl, fun party ↦ ?_, by simp [Phase.seen], by simp, by simp⟩
  cases party with
  | command => simp [GateSystem.Holds, Phase.usesGate]
  | other index => simp [GateSystem.Holds]

/-- In every state of a run at most one party holds the gate, and it has been cleared only by the
party that had set it, and no write of another party was overwritten by an older snapshot, exactly
when the gate is free whenever a consent wait of the run ends. -/
theorem gate_exclusive_iff (pinState : ClientPinState) (steps : List GateStep) :
    (∀ before after, steps = before ++ after → (run gateStep { pinState } before).Exclusive) ↔
      EveryStep gateStep FreeAfterWait { pinState } steps := by
  constructor
  · intro hexclusive
    induction steps using List.reverseRecOn with
    | nil => trivial
    | append_singleton steps step ih =>
      have hearlier : EveryStep gateStep FreeAfterWait { pinState } steps :=
        ih fun before after hsplit ↦ hexclusive before (after ++ [step]) (by simp [hsplit])
      refine (everyStep_append steps [step]).mpr ⟨hearlier, ?_, trivial⟩
      have hinvariant := run_invariant gateStep_invariant hearlier (gateInvariant_start pinState)
      have hlast := hexclusive (steps ++ [step]) [] (by simp)
      rw [run_append] at hlast
      by_contra hbusy
      exact not_exclusive_of_busy hinvariant hbusy hlast
  · intro hwait before after hsplit
    rw [hsplit] at hwait
    obtain ⟨hbefore, -⟩ := (everyStep_append before after).mp hwait
    exact (run_invariant gateStep_invariant hbefore (gateInvariant_start pinState)).exclusive

/-- While the command waits, another party takes the gate and writes; the wait ends, the command
publishes its old snapshot and clears the gate. -/
def foreignGate : List GateStep :=
  [.beginMaintenance, .snapshotState, .releaseForConsent, .otherBegins 0,
    .otherWrites 0 { pinRetries := 1 }, .consentEnds [] (.answered true .approved), .publishState,
    .endMaintenance]

theorem consent_ends_in_foreign_gate :
    ¬∀ (pinState : ClientPinState) (steps : List GateStep),
      (run gateStep { pinState } steps).Exclusive := by
  intro hclaim
  have hrecord : (run gateStep { pinState := {} } foreignGate).record =
      [.published 0 0, .cleared .command (some .command), .published 0 1,
        .cleared .command (some (.other 0))] := by decide
  have horderly := (hclaim {} foreignGate).orderly (.published 0 1) (by rw [hrecord]; simp)
  exact absurd horderly (by simp [GateEvent.Orderly])

end Runs

end ZeroFido.Pin.Gate
