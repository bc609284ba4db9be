import ZeroFido.Ui.Approval
import ZeroFido.U2f.Session

/-!
# The U2F adapter

`u2f/adapter.c`: a message is checked, the session is initialised when it is not there yet, the
user is asked when the message needs presence, the request is handed to the session and the
presence is cleared. The user acts while the message waits, the connection may change at any time,
and a worker that waits may start to handle another message, so that the messages that are being
handled form a stack. A step is what happens between two points at which another thread may act.

The adapter runs over the approval record of the UI. Every response is recorded, with the number of
the prompt that its message put up, the number of prompts before the message, and the device secret.

A stop of the transport is no step here. It gives the signal of the approval record without an
outcome, so that a message that waits around an approved one would take the approval of that one.
-/

set_option autoImplicit false
set_option relaxedAutoImplicit false

namespace ZeroFido.U2f

open Foundations

section State

/-- The outcomes of the file operations in a step. -/
structure Outcomes where
  changes : List ChangeOutcome
  reads : List Bool
  entropy : List Bytes
  deriving DecidableEq, Repr

/-- How far the handling of a message has come. -/
inductive Phase where
  /-- In the wait for the user. -/
  | waiting
  /-- The wait has returned an approval. -/
  | approved
  /-- The request is about to be handed to the session. -/
  | ready
  /-- The response is made, the presence is about to be cleared. -/
  | parsed
  deriving DecidableEq, Repr

/-- A message that is being handled. -/
structure Handler where
  message : ℕ
  request : Bytes
  responseCapacity : ℕ
  since : ℕ
  prompt : Option ℕ
  phase : Phase
  deriving DecidableEq, Repr

/-- A response, with what is known of its message. -/
structure Response where
  message : ℕ
  request : Bytes
  since : ℕ
  prompt : Option ℕ
  key : Option DeviceKey
  bytes : Bytes
  deriving DecidableEq, Repr

structure State where
  ui : Ui.App
  u2f : Option U2fData
  device : Device
  u2fEnabled : Bool
  handlers : List Handler
  messages : ℕ
  responses : List Response
  deriving DecidableEq, Repr

/-- The application is started over the given files. -/
def State.start (key : Stored Bytes) (counter : Stored UInt32) (inUse : List Bool) : State where
  ui := Ui.App.start inUse
  u2f := none
  device := Device.start key counter
  u2fEnabled := true
  handlers := []
  messages := 0
  responses := []

/-- The power is lost, or the application ends: the session and the messages are gone. -/
def halt (state : State) : State :=
  { state with
    ui :=
      { Ui.App.start state.ui.inUse with
        requests := state.ui.requests
        changes := state.ui.changes
        answers := state.ui.answers }
    u2f := none
    handlers := [] }

/-- Runs a program on the files. There is no result when the power was lost. -/
def onDevice {Value : Type} (program : Program Device Value) (outcomes : Outcomes)
    (device : Device) : Option Value × Device :=
  match program.run { device with
      changes := outcomes.changes, reads := outcomes.reads, entropy := outcomes.entropy } with
  | .ok value final => (some value, final)
  | .error _ final => (none, final)

end State

section Messages

variable (state : State)

/-- The response of a message that is refused before it is handed to the session. -/
def refuse (request bytes : Bytes) : State :=
  { state with
    messages := state.messages + 1
    responses := state.responses ++
      [{ message := state.messages, request := request, since := state.ui.requests, prompt := none
         key := none, bytes := bytes }] }

/-- The message goes on, after its prompt or without one. -/
def begin (request : Bytes) (responseCapacity since : ℕ) (prompt : Option ℕ) (phase : Phase) :
    State :=
  { state with
    messages := state.messages + 1
    handlers :=
      { message := state.messages, request := request, responseCapacity := responseCapacity
        since := since, prompt := prompt, phase := phase } :: state.handlers }

/-- `zf_u2f_adapter_reply_version`. -/
def replyVersion (responseCapacity : ℕ) : Bytes :=
  if responseCapacity < 8 then writeStatus swWrongLength
  else [0x55, 0x32, 0x46, 0x5F, 0x56, 0x32] ++ writeStatus swNoError

/-- The digits of `%02x`. -/
def hexDigit (digit : ℕ) : Char := "0123456789abcdef".toList.getD digit '0'

/-- `zf_u2f_format_app_id`, in a buffer of 48 bytes. -/
def formatAppId (request : Bytes) : Ui.Text :=
  match parseApduHeader request false with
  | none => "U2F".toList
  | some apdu =>
    match apdu.data with
    | none => "U2F".toList
    | some data =>
      if apdu.lc < challengeSize + appIdSize then "U2F".toList
      else
        "app ".toList ++ ((data.drop challengeSize).take 8).flatMap
          (fun byte ↦ [hexDigit (byte.toNat / 16), hexDigit (byte.toNat % 16)]) ++ "...".toList

/-- The operation that `u2f_request_needs_user_presence` names. -/
def operationName (request : Bytes) : Ui.Text :=
  if request.getD 1 0 = cmdRegister then "Register".toList else "Authenticate".toList

/-- `zf_u2f_request_approval`, up to the wait. -/
def requestPresence (request : Bytes) (responseCapacity : ℕ) (tick : UInt32) : State :=
  if state.u2f = none then refuse state request (writeStatus swConditionsNotSatisfied)
  else if !requestNeedsUserPresence request then
    begin state request responseCapacity state.ui.requests none .ready
  else
    let ui := Ui.requestApproval state.ui .u2f (operationName request) (formatAppId request)
      "Touch required".toList tick
    let asked := { state with ui := ui }
    if ui.requests ≠ state.ui.requests then
      begin asked request responseCapacity state.ui.requests (some ui.requests) .waiting
    else if state.ui.autoAccept && state.ui.uiEventsEnabled && state.ui.running &&
        !state.ui.maintenanceBusy then
      begin asked request responseCapacity state.ui.requests none .approved
    else refuse asked request (writeStatus swConditionsNotSatisfied)

/-- `zf_u2f_adapter_init`: whether the adapter can go on. There is no answer when the power was
lost. -/
def adapterInit (attestation : Option Bytes) (outcomes : Outcomes) : Option Bool × State :=
  if state.u2f.isSome || !state.u2fEnabled then (some true, state)
  else
    match onDevice (u2fInit attestation) outcomes state.device with
    | (some session, device) =>
      (some session.isSome, { state with u2f := session, device := device })
    | (none, device) => (none, halt { state with device := device })

/-- The checks of `zf_u2f_adapter_handle_msg` before the initialisation; nothing when it goes on. -/
def earlyResponse (request : Bytes) (responseCapacity : ℕ) : Option Bytes :=
  if !state.u2fEnabled || request.length = 0 || responseCapacity < 2 then some []
  else if 0xffff < request.length then some (writeStatus swWrongLength)
  else
    match validateRequestIntoResponse request with
    | some status => some status
    | none =>
      if responseCapacity < request.length then some (writeStatus swWrongLength)
      else if request.getD 1 0 = cmdVersion ∧ state.u2f = none then
        some (replyVersion responseCapacity)
      else none

/-- `zf_u2f_adapter_handle_msg`, up to the wait for the user. -/
def handleMsg (request : Bytes) (responseCapacity : ℕ) (attestation : Option Bytes)
    (outcomes : Outcomes) (tick : UInt32) : State :=
  match earlyResponse state request responseCapacity with
  | some response => refuse state request response
  | none =>
    match adapterInit state attestation outcomes with
    | (none, state) => state
    | (some false, state) => refuse state request (writeStatus swInsNotSupported)
    | (some true, state) =>
      if responseCapacity < 8 then refuse state request []
      else requestPresence state request responseCapacity tick

end Messages

section Steps

variable (state : State)

/-- The response of a handler, without taking it off the stack. -/
def respond (handler : Handler) (key : Option DeviceKey) (bytes : Bytes) : Response where
  message := handler.message
  request := handler.request
  since := handler.since
  prompt := handler.prompt
  key := key
  bytes := bytes

/-- The wait of the innermost message takes the signal of the approval record. -/
def wake : State :=
  match state.handlers with
  | [] => state
  | handler :: rest =>
    if handler.phase ≠ .waiting ∨ state.ui.approval.done = false then state
    else
      let ui := { state.ui with approval := { state.ui.approval with done := false } }
      if state.ui.approval.state = .approved then
        { state with ui := ui, handlers := { handler with phase := .approved } :: rest }
      else
        { state with
          ui := ui
          handlers := rest
          responses := state.responses ++
            [respond handler none (writeStatus swConditionsNotSatisfied)] }

/-- The wait of the innermost message is given up, and with it the waits that it is inside of: each
finds the same mark of a cancelled request. -/
def abandon : State :=
  if state.handlers.all fun handler ↦ handler.phase == .waiting then
    { state with
      handlers := []
      responses := state.responses ++
        state.handlers.map fun handler ↦
          respond handler none (writeStatus swConditionsNotSatisfied) }
  else state

/-- `u2f_confirm_user_present` on the approved message. -/
def confirm : State :=
  match state.handlers with
  | [] => state
  | handler :: rest =>
    if handler.phase ≠ .approved then state
    else
      { state with
        u2f := state.u2f.map confirmUserPresent
        handlers := { handler with phase := .ready } :: rest }

/-- `u2f_msg_parse` on the innermost message. Without a session the assertion in it stops the
device. -/
def parse (env : Surroundings) (outcomes : Outcomes) : State :=
  match state.handlers with
  | [] => state
  | handler :: rest =>
    if handler.phase ≠ .ready then state
    else
      match state.u2f with
      | none => halt state
      | some session =>
        match onDevice (msgParse env session handler.request handler.responseCapacity) outcomes
            state.device with
        | (some (session', bytes), device) =>
          { state with
            u2f := some session'
            device := device
            handlers := { handler with phase := .parsed } :: rest
            responses := state.responses ++ [respond handler (some session.deviceKey) bytes] }
        | (none, device) => halt { state with device := device }

/-- `u2f_clear_user_present` after the innermost message. -/
def clear : State :=
  match state.handlers with
  | [] => state
  | handler :: rest =>
    if handler.phase ≠ .parsed then state
    else { state with u2f := state.u2f.map clearUserPresent, handlers := rest }

/-- No message is being handled but those that wait. -/
def State.mayBegin : Bool :=
  match state.handlers with
  | [] => true
  | handler :: _ => handler.phase == .waiting

/-- What a CTAP reset does to the U2F files and the session. The rest of the reset may fail before
the session is made anew. -/
def reset (storeWiped : Bool) (attestation : Option Bytes) (outcomes : Outcomes) : State :=
  match onDevice dataWipe outcomes state.device with
  | (none, device) => halt { state with device := device }
  | (some wiped, device) =>
    let state := { state with u2f := none, device := device }
    if wiped && storeWiped then
      (adapterInit state attestation
        { outcomes with changes := device.changes, reads := device.reads }).2
    else state

inductive Event where
  | message (request : Bytes) (responseCapacity : ℕ) (attestation : Option Bytes)
      (outcomes : Outcomes) (tick : UInt32)
  | ui (event : Ui.Event)
  | wake
  | abandon
  | confirm
  | parse (env : Surroundings) (outcomes : Outcomes)
  | clear
  | setConnected
  | setU2fEnabled (enabled : Bool)
  | initialise (attestation : Option Bytes) (outcomes : Outcomes)
  | reset (storeWiped : Bool) (attestation : Option Bytes) (outcomes : Outcomes)
  | powerLoss

/-- A step. Of the events of the approval record only those of the UI thread and of the threads
that cancel a prompt are steps of their own. A message or a reset begins when no other message is
between its approval and its end. -/
def step : Event → State
  | .message request responseCapacity attestation outcomes tick =>
    if state.mayBegin then handleMsg state request responseCapacity attestation outcomes tick
    else state
  | .ui event => if Ui.isUserInterface event then { state with ui := Ui.step state.ui event } else state
  | .wake => wake state
  | .abandon => abandon state
  | .confirm => confirm state
  | .parse env outcomes => parse state env outcomes
  | .clear => clear state
  | .setConnected => { state with u2f := state.u2f.map clearUserPresent }
  | .setU2fEnabled enabled => { state with u2fEnabled := enabled }
  | .initialise attestation outcomes => (adapterInit state attestation outcomes).2
  | .reset storeWiped attestation outcomes =>
    if state.mayBegin then reset state storeWiped attestation outcomes else state
  | .powerLoss => halt state

end Steps

end ZeroFido.U2f
