import ZeroFido.Ctap.GetAssertion
import ZeroFido.Ctap.MakeCredential

/-!
# The command dispatcher

`ctap/dispatch.c` for the commands that work on credentials, and the system it is part of. The
transport hands over one command at a time, from any session; the command runs section by section,
and the user interface acts between two sections.
-/

set_option autoImplicit false
set_option relaxedAutoImplicit false

namespace ZeroFido.Ctap

open Foundations Storage Store

/-- A request as the dispatcher routes it, with what its parser makes of it. The real-time clock and
the listing of the data directory are read while the command runs. -/
inductive Command where
  | getAssertion (parsed : Reply GetAssertionRequest)
  | getNextAssertion (requestBodyLen : ℕ)
  | makeCredential (createdAt : ℕ) (parsed : Reply MakeCredentialRequest)
  | reset (requestBodyLen : ℕ) (listing : Listing)
  | selection (requestBodyLen : ℕ)

/-- The answer to a command: a status other than success, or success with the assertion that the
response carries, if it carries one. -/
abbrev CommandReply := Reply (Option AssertionResponse)

def commandReply (status : CtapStatus) : CommandReply :=
  if status = .success then .ok none else .error status

/-- `zf_ctap_dispatch_require_idle`. -/
def dispatchRequireIdle : Process App CtapStatus :=
  Process.atomically (return if (← get).maintenanceBusy then .notAllowed else .success)

/-- `zf_handle_selection`. -/
def handleSelection (requestLen : ℕ) : Process App CtapStatus := do
  let status := requireEmptyPayload requestLen
  if status ≠ .success then
    return status
  requestApproval

/-- The handlers that `zf_ctap_dispatch_command` calls. -/
def handleCommand (crypto : Crypto) (capabilities : Capabilities) (sessionId : ℕ) :
    Command → Process App CommandReply
  | .getAssertion parsed =>
    Except.map some <$> handleGetAssertion crypto capabilities sessionId parsed
  | .getNextAssertion requestBodyLen => do
    let status := requireEmptyPayload (requestBodyLen + 1)
    if status ≠ .success then
      return .error status
    Except.map some <$> assertionQueueHandleNext crypto sessionId
  | .makeCredential createdAt parsed =>
    commandReply <$> handleMakeCredential crypto capabilities createdAt parsed
  | .reset requestBodyLen listing =>
    commandReply <$> handleReset crypto (requestBodyLen + 1) listing
  | .selection requestBodyLen => commandReply <$> handleSelection (requestBodyLen + 1)

/-- `zf_ctap_dispatch_command`. -/
def dispatchCommand (crypto : Crypto) (sessionId : ℕ) (command : Command) :
    Process App CommandReply := do
  let status ← dispatchRequireIdle
  if status ≠ .success then
    return .error status
  let capabilities ← Process.atomically (return (← get).capabilities)
  handleCommand crypto capabilities sessionId command

section System

/-- A command in progress. -/
structure Running where
  sessionId : ℕ
  command : Command
  process : Process App CommandReply

/-- The authenticator with the command it is working on. -/
structure System where
  app : App
  running : Option Running := none
  /-- Observer: the getNextAssertion commands that returned success, with their sessions. -/
  answers : List (ℕ × AssertionResponse) := []

inductive SystemEvent where
  | receive (sessionId : ℕ) (command : Command)
  | proceed
  | ui (event : UiEvent)

/-- What the observer notes of a command that has returned. -/
def answersOf (sessionId : ℕ) (command : Command) (reply : CommandReply) :
    List (ℕ × AssertionResponse) :=
  match command, reply with
  | .getNextAssertion _, .ok (some response) => [(sessionId, response)]
  | _, _ => []

/-- The running command after one more section. -/
def System.proceed (system : System) (running : Running) : System :=
  let (process, app) := running.process.step system.app
  match process.result? with
  | some reply =>
    { app
      answers := system.answers ++ answersOf running.sessionId running.command reply }
  | none => { system with app, running := some { running with process } }

/-- One step of the system. -/
def systemStep (crypto : Crypto) (system : System) : SystemEvent → System
  | .receive sessionId command =>
    match system.running with
    | some _ => system
    | none =>
      let process := dispatchCommand crypto sessionId command
      { system with running := some { sessionId, command, process } }
  | .proceed =>
    match system.running with
    | some running => system.proceed running
    | none => system
  | .ui event => { system with app := uiStep system.app event }

end System

end ZeroFido.Ctap
