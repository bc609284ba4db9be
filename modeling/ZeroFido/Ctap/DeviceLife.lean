import ZeroFido.Ctap.CountedCommands
import ZeroFido.Ctap.CountedRegistration
import ZeroFido.Ctap.InterruptedReset

/-!
# The sign counts of a credential over the lives of a device

A device is switched on, works on commands and loses power, any number of times. The commands come
in any order and from any session, the user deletes credentials meanwhile, and the calls of the
device fail or stop it at any point. `sign_counts_never_repeat`: among the answers that the device
has given for a credential, every sign count is higher than all before it.

Left out are the reset, which may stop between a record and its backup, and a startup that cannot
read or decrypt a file, which takes that file for a broken one.
-/

set_option autoImplicit false
set_option relaxedAutoImplicit false

namespace ZeroFido.Ctap

open Foundations Storage Store Process

section Commands

variable {crypto : Crypto} {credentialId : Bytes} {least : ℕ}

/-- The sign count that a command answers for a credential. -/
def commandCount (credentialId : Bytes) : CommandReply → Option ℕ
  | .ok (some response) => countOf credentialId (.ok response)
  | _ => none

/-- A command that `dispatchCommand` may be given: not a reset, and with what the parser may make of
a request. -/
def Command.Counted : Command → Prop
  | .makeCredential createdAt parsed =>
    createdAt ≤ uint32Max ∧ ∀ request, parsed = .ok request → request.WithinLimits
  | .reset _ _ => False
  | _ => True

theorem commandCount_map (reply : Reply AssertionResponse) :
    commandCount credentialId (Except.map some reply) = countOf credentialId reply := by
  cases reply <;> rfl

theorem commandCount_commandReply (status : CtapStatus) :
    commandCount credentialId (commandReply status) = none := by
  unfold commandReply
  split_ifs <;> rfl

variable (hlaws : SealLaws crypto) (hopen : OpenKeepsLength crypto) (hkeys : KeyLaws crypto)
  (hlength : credentialId.length = credentialIdLen)

include hlaws hopen hkeys hlength

theorem emits_handleCommand (capabilities : Capabilities) (sessionId : ℕ) {command : Command}
    (hcommand : command.Counted) :
    Emits crypto credentialId least App.GateKept (commandCount credentialId)
      (handleCommand crypto capabilities sessionId command) := by
  cases command with
  | getAssertion parsed =>
    exact (emits_handleGetAssertion hlaws hopen hlength capabilities sessionId parsed).map
      commandCount_map
  | getNextAssertion requestBodyLen =>
    exact emits_ite (emits_pure rfl)
      ((emits_assertionQueueHandleNext hlaws hopen hlength sessionId).map commandCount_map)
  | makeCredential createdAt parsed =>
    have horderly := @orderly_handleMakeCredential crypto credentialId least hlength hlaws hkeys
      capabilities createdAt parsed hcommand.2 hcommand.1
    exact (horderly.emits fun _ ↦ rfl).map commandCount_commandReply
  | reset requestBodyLen listing => exact hcommand.elim
  | selection requestBodyLen =>
    have horderly : Orderly crypto credentialId least App.GateKept
        (handleSelection (requestBodyLen + 1)) :=
      orderly_ite (orderly_pure _) (orderly_requestApproval hlength gateProperty_gateKept)
    exact (horderly.emits fun _ ↦ rfl).map commandCount_commandReply

/-- Whatever the command, the counts stay in order, and one that is emitted is new. -/
theorem emits_dispatchCommand (sessionId : ℕ) {command : Command} (hcommand : command.Counted) :
    Emits crypto credentialId least App.GateKept (commandCount credentialId)
      (dispatchCommand crypto sessionId command) := by
  refine (orderly_read hlength gateProperty_gateKept _).bindEmits fun status ↦
    emits_ite (emits_pure rfl) ?_
  exact (orderly_read hlength gateProperty_gateKept _).bindEmits fun capabilities ↦
    emits_handleCommand hlaws hopen hkeys hlength capabilities sessionId hcommand

end Commands

section Startup

variable {crypto : Crypto} {credentialId : Bytes} {least : ℕ} {device : Pin.Device}
  {listings : StartupListings}

/-- The startup of the PIN does nothing to a credential. -/
theorem fading_pinInitWithResult (hlength : credentialId.length = credentialIdLen) :
    Fading crypto credentialId (Pin.pinInitWithResult crypto) :=
  fading_of_besidesPin hlength fun _ ↦ Pin.besidesPin_pinInitWithResult

/-- A startup that can read takes up the counts where they are, and wherever it loses power they
are in order. -/
theorem ensures_lifecycleInitStorage_counts (hlaws : SealLaws crypto)
    (hopen : OpenKeepsLength crypto) (hlength : credentialId.length = credentialIdLen)
    (hcounts : CountsFrom crypto device.files credentialId least) (hreads : device.reads = [])
    (henclave : device.enclave = []) :
    Ensures (lifecycleInitStorage crypto listings)
      (fun result device' ↦ AtCount crypto credentialId least device'.files result.2.1)
      (fun device' ↦ CountsFrom crypto device'.files credentialId least) device := by
  rw [lifecycleInitStorage, ensures_bind]
  refine (ensures_bootstrapInit_counts hlaws hopen hlength hcounts hreads henclave).mono ?_
    fun _ hcut ↦ hcounts.fades hcut.fades
  rintro ⟨ready, store⟩ first ⟨hfirst, hindexed⟩
  have hatCount : AtCount crypto credentialId least first.files store :=
    ⟨hcounts.fades hfirst.fades, fun entry hentry ↦ (hindexed entry hentry).fades hfirst.fades⟩
  dsimp only
  rw [ensures_ite]
  refine ⟨fun _ ↦ hatCount, fun _ ↦ ?_⟩
  rw [ensures_bind]
  refine (fading_pinInitWithResult hlength least first hatCount.counts).mono ?_
    fun _ hfades ↦ hatCount.counts.fades hfades
  rintro ⟨pinInit, pinState⟩ final hfades
  have hfinal := hatCount.fades hfades (List.Sublist.refl _)
  cases pinInit <;> exact hfinal

end Startup

section Lives

/-- What the coming calls of the device and of the code that is not modelled come to. -/
structure Outcomes where
  writes : List WriteOutcome := []
  reads : List Bool := []
  enclave : List Bool := []
  keyGenerations : List Bool := []
  statuses : List CtapStatus := []
  waits : List Bool := []

/-- The device with these outcomes to come. -/
def Outcomes.device (outcomes : Outcomes) (device : Pin.Device) : Pin.Device :=
  { device with
    writes := outcomes.writes
    reads := outcomes.reads
    enclave := outcomes.enclave
    keyGenerations := outcomes.keyGenerations }

/-- A device over its lives. -/
structure Life where
  system : System
  /-- Whether the transport runs, which it does after a startup without failure. -/
  transport : Bool := false
  /-- Observer: the replies of the commands, newest last. -/
  replies : List CommandReply := []

/-- The power is off. -/
def Life.off (device : Pin.Device) : Life := { system := { app := { device, stopped := true } } }

/-- Whether the process was interrupted. -/
def isStopped {Value : Type} : Process App Value → Bool
  | .stopped => true
  | _ => false

/-- Whether the power was lost, in a startup, a command or the user interface. -/
def Life.isOff (life : Life) : Bool :=
  life.system.app.stopped || (life.system.running.map fun running ↦ isStopped running.process).getD
    false

inductive LifeEvent where
  | receive (sessionId : ℕ) (command : Command)
  | proceed
  | ui (event : UiEvent)
  /-- Between two commands: what is to come, and the settings. -/
  | prepare (outcomes : Outcomes) (capabilities : Capabilities)
  /-- The power goes, if it is not lost already, and comes back. -/
  | restart (listings : StartupListings) (outcomes : Outcomes) (capabilities : Capabilities)

/-- The shared state after a startup. -/
def startedApp (device : Pin.Device) (store : CredentialStore) (pinState : Pin.ClientPinState)
    (outcomes : Outcomes) (capabilities : Capabilities) : App where
  store := store
  pinState := pinState
  capabilities := capabilities
  statuses := outcomes.statuses
  waits := outcomes.waits
  device := device

/-- `zf_app_lifecycle_startup`, as far as it decides what the commands work on. -/
def Life.restart (crypto : Crypto) (life : Life) (listings : StartupListings) (outcomes : Outcomes)
    (capabilities : Capabilities) : Life :=
  match (lifecycleInitStorage crypto listings).run (outcomes.device life.system.app.device) with
  | .ok (status, store, pinState) device =>
    { life with
      system := { app := startedApp device store pinState outcomes capabilities }
      transport := status = .ok }
  | .error _ device => { Life.off device with replies := life.replies }

/-- What a command returns in its next section. -/
def System.reply? (system : System) : Option CommandReply :=
  system.running.bind fun running ↦ (running.process.step system.app).1.result?

/-- The state between two commands, with other outcomes to come and other settings. -/
def App.prepared (app : App) (outcomes : Outcomes) (capabilities : Capabilities) : App :=
  { app with
    capabilities
    statuses := outcomes.statuses
    waits := outcomes.waits
    device := outcomes.device app.device }

def lifeStep (crypto : Crypto) (life : Life) : LifeEvent → Life
  | .receive sessionId command =>
    if life.isOff || !life.transport then life
    else { life with system := systemStep crypto life.system (.receive sessionId command) }
  | .proceed =>
    if life.isOff then life
    else { life with
      system := systemStep crypto life.system .proceed
      replies := life.replies ++ life.system.reply?.toList }
  | .ui event =>
    if life.isOff then life
    else { life with system := systemStep crypto life.system (.ui event) }
  | .prepare outcomes capabilities =>
    if life.isOff || life.system.running.isSome then life
    else { life with
      system := { life.system with app := life.system.app.prepared outcomes capabilities } }
  | .restart listings outcomes capabilities => life.restart crypto listings outcomes capabilities

/-- The sign counts that were answered for a credential, newest last. -/
def Life.signCounts (credentialId : Bytes) (life : Life) : List ℕ :=
  life.replies.filterMap (commandCount credentialId)

/-- The last of them. -/
def Life.lastCount (credentialId : Bytes) (life : Life) : ℕ :=
  (life.signCounts credentialId).getLastD 0

/-- The commands are not resets, the generator gives the id of the credential only where nothing is
there of it and no count was answered, and startups can read. -/
def Allowed (credentialId : Bytes) (life : Life) : LifeEvent → Prop
  | .receive _ command => command.Counted
  | .proceed => Ready credentialId (life.lastCount credentialId) life.system.app
  | .restart _ outcomes _ => outcomes.reads = [] ∧ outcomes.enclave = []
  | _ => True

end Lives

section Order

variable {crypto : Crypto} {credentialId : Bytes} {least : ℕ} {life : Life}

/-- The judgment about what is left of a running command. -/
def Proceeds (crypto : Crypto) (credentialId : Bytes) (least : ℕ)
    (process : Process App CommandReply) (app : App) : Prop :=
  Maintains (Between credentialId least) (Kept crypto credentialId least)
    (fun reply ↦ Emission crypto credentialId least App.GateKept (commandCount credentialId reply))
    (Kept crypto credentialId least) process app

/-- The counts that were answered increase, and the device is past them. -/
structure Life.Ordered (crypto : Crypto) (credentialId : Bytes) (life : Life) : Prop where
  increasing : (life.signCounts credentialId).Pairwise (· < ·)
  kept : Kept crypto credentialId (life.lastCount credentialId) life.system.app
  running : ∀ running, life.system.running = some running →
    Proceeds crypto credentialId (life.lastCount credentialId) running.process life.system.app

theorem le_getLastD {counts : List ℕ} (h : counts.Pairwise (· < ·)) {count : ℕ}
    (hcount : count ∈ counts) : count ≤ counts.getLastD 0 := by
  rcases List.eq_nil_or_concat counts with rfl | ⟨before, last, rfl⟩
  · exact absurd hcount (List.not_mem_nil)
  · rw [List.concat_eq_append] at h hcount ⊢
    rw [List.getLastD_concat]
    rcases List.mem_append.mp hcount with hbefore | hlast
    · exact Nat.le_of_lt ((List.pairwise_append.mp h).2.2 count hbefore last
        (List.mem_singleton_self last))
    · exact (List.mem_singleton.mp hlast).le

/-- What a command returns: its count, if it has one, comes after all before it. -/
theorem signCounts_replied (reply? : Option CommandReply) :
    (life.replies ++ reply?.toList).filterMap (commandCount credentialId) =
      life.signCounts credentialId ++ (reply?.bind (commandCount credentialId)).toList := by
  rw [List.filterMap_append]
  cases reply? with
  | none => rfl
  | some reply =>
    cases hcount : commandCount credentialId reply with
    | none => simp [Life.signCounts, hcount]
    | some count => simp [Life.signCounts, hcount]

theorem between_refl {app : App} (hready : Ready credentialId least app) :
    Between credentialId least app app := ⟨⟨[], rfl⟩, hready⟩

theorem Kept.uiStep {app : App} (hlength : credentialId.length = credentialIdLen)
    (h : Kept crypto credentialId least app) (event : UiEvent) :
    Kept crypto credentialId least (Ctap.uiStep app event) :=
  ⟨h.1.uiStep hlength event,
    (@gateProperty_gateKept credentialId).ui app event (Ctap.AtCount.lengths h.1) h.2⟩

/-- A process that keeps the counts in order leaves them in order. -/
theorem Proceeds.kept {process : Process App CommandReply} {app : App}
    (h : Proceeds crypto credentialId least process app) : Kept crypto credentialId least app := by
  cases process with
  | done reply => exact ⟨h.atCount, h.gate⟩
  | stopped => exact h
  | more advance rest => exact h.1

theorem Life.Ordered.ui (hlength : credentialId.length = credentialIdLen)
    (h : life.Ordered crypto credentialId) (event : UiEvent) :
    Life.Ordered crypto credentialId
      { life with system := systemStep crypto life.system (.ui event) } := by
  refine ⟨h.increasing, h.kept.uiStep hlength event, fun running hrunning ↦ ?_⟩
  refine (h.running running hrunning).later (fun state hstate ↦ ⟨hstate.1.after, hstate.2⟩)
    (fun hkept ↦ hkept.uiStep hlength event) (fun reply hreply ↦ ?_)
    fun hkept ↦ hkept.uiStep hlength event
  exact hreply.uiStep hlength gateProperty_gateKept event

/-- A command that has returned. -/
theorem Life.Ordered.answered {reply : CommandReply} {system : System}
    (h : life.Ordered crypto credentialId)
    (hreply : Emission crypto credentialId (life.lastCount credentialId) App.GateKept
      (commandCount credentialId reply) system.app) (hidle : system.running = none) :
    Life.Ordered crypto credentialId
      { life with system, replies := life.replies ++ [reply] } := by
  have hcounts : Life.signCounts credentialId
      { life with system, replies := life.replies ++ [reply] } =
      life.signCounts credentialId ++ (commandCount credentialId reply).toList :=
    signCounts_replied (some reply)
  have hnone : ∀ running, system.running = some running →
      Proceeds crypto credentialId (Life.lastCount credentialId
        { life with system, replies := life.replies ++ [reply] }) running.process system.app :=
    fun running hrunning ↦ absurd (hidle.symm.trans hrunning) (by simp)
  cases hcount : commandCount credentialId reply with
  | none =>
    rw [hcount, Option.toList_none, List.append_nil] at hcounts
    refine ⟨?_, ?_, hnone⟩
    · rw [hcounts]
      exact h.increasing
    · rw [Life.lastCount, hcounts]
      exact ⟨hreply.atCount, hreply.gate⟩
  | some new =>
    rw [hcount, Option.toList_some] at hcounts
    obtain ⟨hnew, hatCount⟩ := hreply.emitted new hcount
    refine ⟨?_, ?_, hnone⟩
    · rw [hcounts, List.pairwise_append]
      refine ⟨h.increasing, List.pairwise_singleton _ _, fun count hbefore last hlast ↦ ?_⟩
      rw [List.mem_singleton.mp hlast]
      exact (le_getLastD h.increasing hbefore).trans_lt hnew
    · rw [Life.lastCount, hcounts, List.getLastD_concat]
      exact ⟨hatCount, hreply.gate⟩

/-- One more section of the running command. -/
theorem Life.Ordered.proceed (h : life.Ordered crypto credentialId)
    (hready : Ready credentialId (life.lastCount credentialId) life.system.app) :
    Life.Ordered crypto credentialId
      { life with
        system := systemStep crypto life.system .proceed
        replies := life.replies ++ life.system.reply?.toList } := by
  cases hrunning : life.system.running with
  | none =>
    have hreply : life.system.reply? = none := by rw [System.reply?, hrunning, Option.bind_none]
    have hsystem : systemStep crypto life.system .proceed = life.system := by
      simp only [systemStep, hrunning]
    rw [hreply, hsystem, Option.toList_none, List.append_nil]
    exact h
  | some running =>
    have hstep := (h.running running hrunning).step (between_refl hready)
    have hreply : life.system.reply? =
        (running.process.step life.system.app).1.result? := by
      rw [System.reply?, hrunning, Option.bind_some]
    have hsystem : systemStep crypto life.system .proceed = life.system.proceed running := by
      simp only [systemStep, hrunning]
    rw [hreply, hsystem]
    generalize hnext : running.process.step life.system.app = next at hstep ⊢
    obtain ⟨process, app⟩ := next
    cases hresult : process.result? with
    | none =>
      simp only [System.proceed, hnext, hresult, Option.toList_none, List.append_nil]
      refine ⟨h.increasing, Proceeds.kept hstep, ?_⟩
      rintro _ ⟨⟩
      exact hstep
    | some reply =>
      obtain rfl := eq_done_of_result? hresult
      simp only [System.proceed, hnext, hresult, Option.toList_some]
      exact h.answered hstep rfl

variable (hlaws : SealLaws crypto) (hopen : OpenKeepsLength crypto)
  (hlength : credentialId.length = credentialIdLen)

include hlaws hopen hlength

/-- A command comes in. -/
theorem Life.Ordered.receive (hkeys : KeyLaws crypto) (h : life.Ordered crypto credentialId)
    (sessionId : ℕ) {command : Command} (hcommand : command.Counted) :
    Life.Ordered crypto credentialId
      { life with system := systemStep crypto life.system (.receive sessionId command) } := by
  cases hrunning : life.system.running with
  | some running =>
    have hsystem : systemStep crypto life.system (.receive sessionId command) = life.system := by
      simp only [systemStep, hrunning]
    rw [hsystem]
    exact h
  | none =>
    simp only [systemStep, hrunning]
    refine ⟨h.increasing, h.kept, ?_⟩
    rintro _ ⟨⟩
    exact emits_dispatchCommand hlaws hopen hkeys hlength sessionId hcommand _ h.kept.1 h.kept.2

/-- The power goes and comes back. -/
theorem Life.Ordered.restart (h : life.Ordered crypto credentialId) (listings : StartupListings)
    {outcomes : Outcomes} (capabilities : Capabilities) (hreads : outcomes.reads = [])
    (henclave : outcomes.enclave = []) :
    (life.restart crypto listings outcomes capabilities).Ordered crypto credentialId := by
  have hstartup := @ensures_lifecycleInitStorage_counts crypto credentialId
    (life.lastCount credentialId) (outcomes.device life.system.app.device) listings hlaws hopen
    hlength h.kept.1.counts hreads henclave
  unfold Ensures at hstartup
  have hidle : ∀ app : App, app.ui = .idle → app.GateKept := fun app hui hne ↦ absurd hui hne
  cases hrun : (lifecycleInitStorage crypto listings).run
      (outcomes.device life.system.app.device) with
  | ok result device =>
    obtain ⟨status, store, pinState⟩ := result
    rw [hrun] at hstartup
    simp only [Life.restart, hrun]
    exact ⟨h.increasing, ⟨hstartup, hidle _ rfl⟩, by simp⟩
  | error reason device =>
    rw [hrun] at hstartup
    simp only [Life.restart, hrun]
    exact ⟨h.increasing, ⟨⟨hstartup, by simp [Life.off]⟩, hidle _ rfl⟩, by simp [Life.off]⟩

theorem Life.Ordered.step (hkeys : KeyLaws crypto) (event : LifeEvent)
    (hallowed : Allowed credentialId life event) (h : life.Ordered crypto credentialId) :
    (lifeStep crypto life event).Ordered crypto credentialId := by
  cases event with
  | receive sessionId command =>
    simp only [lifeStep]
    split_ifs
    · exact h
    · exact h.receive hlaws hopen hlength hkeys sessionId hallowed
  | proceed =>
    simp only [lifeStep]
    split_ifs
    · exact h
    · exact h.proceed hallowed
  | ui event =>
    simp only [lifeStep]
    split_ifs
    · exact h
    · exact h.ui hlength event
  | prepare outcomes capabilities =>
    simp only [lifeStep]
    split_ifs with hbusy
    · exact h
    · refine ⟨h.increasing, ⟨h.kept.1.of_eq rfl rfl, h.kept.2⟩, fun running hrunning ↦ ?_⟩
      exact absurd (show (life.isOff || life.system.running.isSome) = true by
        simp [show life.system.running = some running from hrunning]) hbusy
  | restart listings outcomes capabilities =>
    exact h.restart hlaws hopen hlength listings capabilities hallowed.1 hallowed.2

end Order

section Result

variable {crypto : Crypto} {credentialId : Bytes} {device : Pin.Device} {events : List LifeEvent}

/-- The counts are in order over all that happens to a device after a credential id was not in
use. -/
theorem ordered_run (hlaws : SealLaws crypto) (hopen : OpenKeepsLength crypto)
    (hkeys : KeyLaws crypto) (hlength : credentialId.length = credentialIdLen)
    (hnew : heldRecord device.files credentialId = none)
    (hallowed : EveryStep (lifeStep crypto) (Allowed credentialId) (Life.off device) events) :
    (run (lifeStep crypto) (Life.off device) events).Ordered crypto credentialId := by
  have hstart : (Life.off device).Ordered crypto credentialId := by
    have hcounts : CountsFrom crypto device.files credentialId 0 :=
      fun data hdata ↦ absurd (hdata.symm.trans hnew) (by simp)
    refine ⟨List.Pairwise.nil, ⟨⟨hcounts, by simp [Life.off]⟩, fun hne ↦ absurd rfl hne⟩, ?_⟩
    simp [Life.off]
  exact run_invariant (fun life event ↦ Life.Ordered.step hlaws hopen hlength hkeys event)
    hallowed hstart

/-- Over all that happens to a device after a credential id was not in use, the sign counts answered
for that credential increase strictly. -/
theorem sign_counts_never_repeat (hlaws : SealLaws crypto) (hopen : OpenKeepsLength crypto)
    (hkeys : KeyLaws crypto) (hlength : credentialId.length = credentialIdLen)
    (hnew : heldRecord device.files credentialId = none)
    (hallowed : EveryStep (lifeStep crypto) (Allowed credentialId) (Life.off device) events) :
    ((run (lifeStep crypto) (Life.off device) events).signCounts credentialId).Pairwise
      (· < ·) :=
  (ordered_run hlaws hopen hkeys hlength hnew hallowed).increasing

end Result

section Samples

instance decidableTextField (text : Bytes) (bufferSize : ℕ) :
    Decidable (TextField text bufferSize) :=
  decidable_of_iff (text.length < bufferSize ∧ 0 ∉ text ∧ Cbor.utf8IsValid text = true)
    ⟨fun h ↦ ⟨h.1, h.2.1, h.2.2⟩, fun h ↦ ⟨h.fits, h.zeroFree, h.utf8⟩⟩

instance decidableWithinLimits (request : MakeCredentialRequest) :
    Decidable request.WithinLimits :=
  decidable_of_iff (TextField request.rpId maxRpIdLen ∧ request.userId.length ≤ maxUserIdLen ∧
      TextField request.userName maxUserNameLen ∧
      TextField request.userDisplayName maxDisplayNameLen ∧
      (request.hasCredProtect = true → credProtectValueIsValid request.credProtect = true) ∧
      request.rpId ≠ [])
    ⟨fun h ↦ ⟨⟨h.1, h.2.1, h.2.2.1, h.2.2.2.1, h.2.2.2.2.1⟩, h.2.2.2.2.2⟩, fun h ↦
      ⟨h.rpId, h.userId, h.userName, h.userDisplayName, h.credProtect, h.rpId_ne⟩⟩

instance decidableCounted (command : Command) : Decidable command.Counted :=
  match command with
  | .makeCredential createdAt (.ok request) =>
    decidable_of_iff (createdAt ≤ uint32Max ∧ request.WithinLimits)
      ⟨fun h ↦ ⟨h.1, fun _ hrequest ↦ Except.ok.inj hrequest ▸ h.2⟩,
        fun h ↦ ⟨h.1, h.2 request rfl⟩⟩
  | .makeCredential createdAt (.error _) =>
    decidable_of_iff (createdAt ≤ uint32Max) ⟨fun h ↦ ⟨h, by simp⟩, fun h ↦ h.1⟩
  | .reset _ _ => isFalse id
  | .getAssertion _ | .getNextAssertion _ | .selection _ => isTrue trivial

instance decidableUnissued (credentialId : Bytes) (files : Path → Option Bytes)
    (store : CredentialStore) : Decidable (Unissued credentialId files store) :=
  decidable_of_iff (heldRecord files credentialId = none ∧ heldFloor files credentialId = none ∧
      ∀ entry ∈ store, entry.credentialId ≠ credentialId)
    ⟨fun h ↦ ⟨h.1, h.2.1, h.2.2⟩, fun h ↦ ⟨h.record, h.floor, h.index⟩⟩

instance decidableAllowed (credentialId : Bytes) (life : Life) (event : LifeEvent) :
    Decidable (Allowed credentialId life event) :=
  match event with
  | .receive _ command => inferInstanceAs (Decidable command.Counted)
  | .proceed => inferInstanceAs (Decidable (_ → _))
  | .restart _ outcomes _ =>
    inferInstanceAs (Decidable (outcomes.reads = [] ∧ outcomes.enclave = []))
  | .ui _ | .prepare _ _ => isTrue trivial

/-- A new device, whose generator counts. -/
def countingDevice : Pin.Device :=
  { World.blank _ with entropy := fun position ↦ UInt8.ofNat position }

/-- The id that the first credential gets, after the token and the key of the PIN. -/
def firstCredentialId : Bytes :=
  (List.range credentialIdLen).map fun position ↦ UInt8.ofNat (position + 64)

def assertionForAccount : Command :=
  .getAssertion (.ok
    { assertion := { rpId := accountRequest.rpId, clientDataHash := zeroBytes clientDataHashLen } })

/-- A registration and an assertion; then the power goes after the second assertion has reserved its
count, and a third one is made. -/
def powerLossEvents : List LifeEvent :=
  [.restart ⟨some [], some [], some []⟩ {} { autoAcceptRequests := true },
    .receive 1 (.makeCredential 1 (.ok accountRequest))] ++ List.replicate 24 .proceed ++
  [.receive 1 assertionForAccount] ++ List.replicate 21 .proceed ++
  [.receive 1 assertionForAccount] ++ List.replicate 19 .proceed ++
  [.restart ⟨some [], some [], some [{ name := hexEncode firstCredentialId }]⟩ {}
      { autoAcceptRequests := true },
    .receive 1 assertionForAccount] ++ List.replicate 21 .proceed

/-- The device after these events. -/
def afterPowerLoss : Life := run (lifeStep Crypto.standIn) (Life.off countingDevice) powerLossEvents

theorem sign_counts_never_repeat_powerLoss :
    afterPowerLoss.signCounts firstCredentialId = [1, 67] ∧
      (afterPowerLoss.signCounts firstCredentialId).Pairwise (· < ·) :=
  ⟨by decide +kernel, sign_counts_never_repeat sealLaws_standIn (fun _ _ ↦ rfl) keyLaws_standIn rfl
    rfl (by decide +kernel)⟩

end Samples

end ZeroFido.Ctap
