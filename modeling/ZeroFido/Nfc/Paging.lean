import ZeroFido.Nfc.Blocks

/-!
# Reading a large response in pages

A response that does not fit in one frame is read with GET RESPONSE. When the command advertised
GET RESPONSE the worker runs it, and the pages that the reader gets are the response, each byte
once (`Paging`, `readPages_of_paging`). A command that did not is run by the callback, which sends
the first page itself; the listener then takes the next block, whatever it is, as a request for the
deferred response and starts to send all of the response as an ISO-DEP chain (`Restarting`). So the
pages are right exactly for the first kind (`paged_once_iff`).
-/

set_option autoImplicit false
set_option relaxedAutoImplicit false

namespace ZeroFido.Nfc

open Foundations

section Statement

/-- A frame that is sent to the reader. A chained frame is a part of a reply. -/
structure Reply where
  inf : Bytes
  chained : Bool
  deriving DecidableEq, Repr

/-- The reader has all of the response: the status word is neither one of more bytes to come nor a
status update. -/
def Reply.isFinal (reply : Reply) : Bool :=
  let first := reply.inf.getD (reply.inf.length - 2) 0
  !reply.chained && first != 0x61 && first != 0x91

/-- The second byte of the status word that announces more bytes: their number, or zero when it does
not fit. -/
def bytesToCome (count : ℕ) : UInt8 := if 256 ≤ count then 0 else UInt8.ofNat count

/-- The replies that carry a body in pages: all but the last one announce the bytes to come. -/
def pageReplies (statusWord : Bytes) : List Bytes → List Reply
  | [] => []
  | [last] => [⟨last ++ statusWord, false⟩]
  | page :: next :: rest =>
    ⟨page ++ [0x61, bytesToCome (next :: rest).flatten.length], false⟩ ::
      pageReplies statusWord (next :: rest)

/-- The replies carry the body, each byte once. -/
def Delivered (body statusWord : Bytes) (replies : List Reply) : Prop :=
  ∃ pages : List Bytes, pages ≠ [] ∧ pages.flatten = body ∧ replies = pageReplies statusWord pages

/-- The exchange is free for a command of the selected applet. -/
structure ReadyForCommand (app : NfcApp) : Prop where
  callback : app.callback = .idle
  running : app.stopping = false
  selected : app.appletSelected = true
  notBusy : exchangeBusy app = false
  noError : app.responseIsError = false
  noChain : app.commandChainActive = false
  nothingReceived : app.requestLen = 0

variable (handlers : Handlers)

/-- The frames that a step sends. -/
def repliesTo (app : NfcApp) (event : NfcEvent) : List Reply :=
  let next := nfcStep handlers app event
  (next.transmitted.drop app.transmitted.length).map fun inf ↦ ⟨inf, next.txChainActive⟩

/-- The frames that a run sends. -/
def repliesIn : NfcApp → List NfcEvent → List Reply
  | _, [] => []
  | app, event :: events =>
    repliesTo handlers app event ++ repliesIn (nfcStep handlers app event) events

/-- The reader asks for one page after the other until it has all of the response. -/
def readPages : NfcApp → List NfcEvent → List Reply × NfcApp
  | app, [] => ([], app)
  | app, ask :: asks =>
    let replies := repliesTo handlers app ask
    let next := nfcStep handlers app ask
    if replies.any Reply.isFinal then (replies, next)
    else
      let rest := readPages next asks
      (replies ++ rest.1, rest.2)

/-- A GET RESPONSE command. -/
def isGetResponse (apdu : NfcApdu) : Bool :=
  (apdu.cla == 0x80 && apdu.ins == insCtapGetResponse && apdu.p1 == 0 && apdu.p2 == 0) ||
    ((apdu.cla == 0x80 || apdu.cla == 0x00) && apdu.ins == insIsoGetResponse)

/-- The reader asks with the command in a block of its own, and receives what the listener sends. -/
def Asks (event : NfcEvent) : Prop :=
  ∃ pcb payload capabilities pendingApproval apdu,
    event = .iBlock pcb payload false capabilities ⟨pendingApproval, true⟩ ∧
      parseApdu payload = some apdu ∧ isGetResponse apdu = true

/-- The block carries a short APDU, and it makes the callback run a command or queues one for the
worker. -/
structure CommandRuns (app : NfcApp) (block : CommandBlock) (apdu : NfcApdu) : Prop where
  callback : app.callback = .idle
  worker : app.worker = .idle
  noChain : app.commandChainActive = false
  parsed : parseApdu block.payload = some apdu
  short : apdu.extended = false
  runs : (nfcStep handlers app block.event).callback ≠ .idle ∨
    (nfcStep handlers app block.event).queued ≠ app.queued

/-- The command returns its response, on whichever thread it runs. -/
def commandReturns (response : Bytes) (surroundings : Surroundings) : List NfcEvent :=
  [.callbackReturns response surroundings, .workerTakes, .workerStores (some response),
    .workerReturns]

/-- The data of a response; a U2F response ends in its own status word. -/
def responseBody (apdu : NfcApdu) (response : Bytes) : Bytes :=
  if apdu.cla = 0x00 then response.take (response.length - 2) else response

def responseStatus (apdu : NfcApdu) (response : Bytes) : Bytes :=
  if apdu.cla = 0x00 then response.drop (response.length - 2) else statusWordBytes swSuccess

/-- The pages that the reader gets are the response, and the next command is a new one. -/
def PagedOnce (app : NfcApp) (block : CommandBlock) (apdu : NfcApdu) (response : Bytes)
    (surroundings : Surroundings) (asks : List NfcEvent) : Prop :=
  let started := nfcStep handlers app block.event
  let events := commandReturns response surroundings
  let read := readPages handlers (run (nfcStep handlers) started events) asks
  Delivered (responseBody apdu response) (responseStatus apdu response)
      (repliesIn handlers started events ++ read.1) ∧ ReadyForCommand read.2

end Statement

section Pages

/-- A response of the worker, of which the bytes before `offset` have been read. -/
structure Paging (app : NfcApp) (response : Bytes) (offset : ℕ) : Prop where
  callback : app.callback = .idle
  running : app.stopping = false
  selected : app.appletSelected = true
  processing : app.processing = false
  pending : app.requestPending = false
  noChain : app.commandChainActive = false
  noTxChain : app.txChainActive = false
  supported : app.ctapGetResponseSupported = true
  ready : app.responseReady = true
  ctap2 : app.responseIsU2f = false
  noError : app.responseIsError = false
  responseLen : app.responseLen = response.length
  responseOffset : app.responseOffset = offset
  arena : app.transportArena.take response.length = response
  fits : response.length ≤ transportArenaSize
  more : offset < response.length

variable {handlers : Handlers} {app : NfcApp} {response : Bytes} {offset : ℕ}

/-- GET RESPONSE on the selected applet. -/
theorem handleApdu_getResponse {payload : Bytes} {apdu : NfcApdu} {capabilities : NfcCapabilities}
    {surroundings : Surroundings} (hselected : app.appletSelected = true)
    (hparsed : parseApdu payload = some apdu) (hget : isGetResponse apdu = true) :
    handleApdu handlers app payload capabilities surroundings =
      sendGetResponse { app with arenaAttached := true } apdu surroundings.pendingApproval := by
  have hins : apdu.ins = insCtapGetResponse ∨ apdu.ins = insIsoGetResponse := by
    simp only [isGetResponse, Bool.or_eq_true, Bool.and_eq_true, beq_iff_eq] at hget
    tauto
  have hother : ∀ ins : UInt8, ins ≠ insCtapGetResponse → ins ≠ insIsoGetResponse →
      (apdu.ins == ins) = false := by
    intro ins hctap hiso
    rcases hins with hins | hins <;> rw [hins]
    · exact beq_eq_false_iff_ne.mpr (Ne.symm hctap)
    · exact beq_eq_false_iff_ne.mpr (Ne.symm hiso)
  have hselect := hother 0xA4 (by decide) (by decide)
  have hdesfire := hother 0x60 (by decide) (by decide)
  have hversion := hother u2fCmdVersion (by decide) (by decide)
  have hcontrol := hother insCtapControl (by decide) (by decide)
  have hmessage := hother insCtapMsg (by decide) (by decide)
  unfold handleApdu
  dsimp only
  rw [hparsed]
  dsimp only
  rw [if_neg (by simp [isNdefSelectApdu, hselect]), if_neg (by simp [hselect]),
    if_neg (by simp [hselected]), if_neg (by simp [hdesfire]), if_neg (by simp [hselected])]
  unfold handleAppletApdu
  rw [if_neg (by simp [hcontrol]), if_neg (by simp [hmessage])]
  simp only [isGetResponse, Bool.or_eq_true, Bool.and_eq_true, beq_iff_eq] at hget
  rw [if_pos (by simp only [Bool.or_eq_true, Bool.and_eq_true, beq_iff_eq]; tauto)]
  rcases hget with ⟨⟨⟨-, -⟩, hp1⟩, hp2⟩ | ⟨-, hiso⟩
  · rw [if_neg (by simp [hp1, hp2])]
  · rw [if_neg (by simp [hiso, insIsoGetResponse, insCtapGetResponse])]

/-- How much of the response one page has at most. -/
def pageSize (apdu : NfcApdu) : ℕ := min (normalizeLe apdu) getResponseChunkSize

theorem pageSize_pos (apdu : NfcApdu) : 0 < pageSize apdu := by
  unfold pageSize normalizeLe
  refine Nat.lt_min.mpr ⟨?_, by decide⟩
  split_ifs with habsent
  · decide
  · decide
  · simp only [Bool.or_eq_true, not_or, beq_iff_eq] at habsent
    exact Nat.pos_of_ne_zero habsent.2

theorem pageSize_le (apdu : NfcApdu) : pageSize apdu ≤ getResponseChunkSize := Nat.min_le_right _ _

theorem statusWordBytes_statusUpdateSw (count : ℕ) :
    statusWordBytes (statusUpdateSw count) = [0x61, bytesToCome count] := by
  have hsmall : ∀ count : Fin 256,
      statusWordBytes (swBytesRemaining ||| UInt16.ofNat count) = [0x61, UInt8.ofNat count] := by
    decide +kernel
  unfold statusUpdateSw bytesToCome
  by_cases hlarge : 256 ≤ count
  · rw [if_pos (by omega), if_pos hlarge]
    decide
  · rw [if_neg (by omega), if_neg hlarge]
    exact hsmall ⟨count, by omega⟩

/-- What the reader is sent: the rest of the response, or the next page of it. -/
theorem sendGetResponse_paging (h : Paging app response offset) (hattached : app.arenaAttached = true)
    (apdu : NfcApdu) (pendingApproval : Bool) :
    sendGetResponse app apdu pendingApproval =
      if response.length - offset ≤ pageSize apdu then
        resetExchange (sendApduPayload app (response.drop offset) swSuccess)
      else
        sendApduPayload { app with responseOffset := offset + pageSize apdu }
          ((response.drop offset).take (pageSize apdu))
          (statusUpdateSw (response.length - (offset + pageSize apdu))) := by
  have hrest : (response.drop offset).take (response.length - offset) = response.drop offset :=
    List.take_of_length_le (by simp)
  have hfits := h.fits
  have hmore := h.more
  unfold sendGetResponse
  dsimp only
  rw [if_neg (by simp [h.processing]), if_neg (by simp [h.noError]), if_neg (by simp [h.ready])]
  rw [if_neg (by
    simp [hattached, h.ctap2, h.responseLen, h.responseOffset]
    omega)]
  rw [if_neg (by simp [h.ctap2]), h.responseLen, h.responseOffset, h.arena, hrest]
  rfl

/-- One page. -/
theorem ask_paging (h : Paging app response offset) {ask : NfcEvent} (hask : Asks ask) :
    (repliesTo handlers app ask = [⟨response.drop offset ++ statusWordBytes swSuccess, false⟩] ∧
        ReadyForCommand (nfcStep handlers app ask)) ∨
      ∃ size, 0 < size ∧ size < response.length - offset ∧
        repliesTo handlers app ask = [⟨(response.drop offset).take size ++
          [0x61, bytesToCome (response.length - (offset + size))], false⟩] ∧
        Paging (nfcStep handlers app ask) response (offset + size) := by
  obtain ⟨pcb, payload, capabilities, pendingApproval, apdu, rfl, hparsed, hget⟩ := hask
  have hactive : requestWorkerActive app = false := by
    simp [requestWorkerActive, h.processing, h.pending]
  have hstep : nfcStep handlers app (.iBlock pcb payload false capabilities ⟨pendingApproval, true⟩) =
      sendGetResponse { blockReceived app with arenaAttached := true } apdu pendingApproval := by
    rw [nfcStep_command h.callback h.running h.noChain hactive
      (four_le_length_of_parseApdu hparsed) (by simp [defers, h.supported])]
    exact handleApdu_getResponse h.selected hparsed hget
  have hattached : Paging { blockReceived app with arenaAttached := true } response offset :=
    ⟨h.callback, h.running, h.selected, h.processing, h.pending, h.noChain, h.noTxChain,
    h.supported, h.ready, h.ctap2, h.noError, h.responseLen, h.responseOffset, h.arena, h.fits, h.more⟩
  rw [sendGetResponse_paging hattached rfl] at hstep
  by_cases hlast : response.length - offset ≤ pageSize apdu
  · left
    rw [if_pos hlast, sendApduPayload_small (by
      rw [List.length_drop]
      exact Nat.le_trans hlast (pageSize_le apdu))] at hstep
    unfold repliesTo
    rw [hstep]
    constructor
    · simp [resetExchange, clearTxChain, transmit, blockReceived]
    · exact ⟨h.callback, h.running, h.selected, rfl, rfl, rfl, rfl⟩
  · right
    rw [if_neg hlast, sendApduPayload_small (by
      rw [List.length_take]
      exact Nat.le_trans (Nat.min_le_left _ _) (pageSize_le apdu))] at hstep
    refine ⟨pageSize apdu, pageSize_pos apdu, Nat.lt_of_not_le hlast, ?_, ?_⟩
    · unfold repliesTo
      rw [hstep]
      simp [clearTxChain, transmit, blockReceived, statusWordBytes_statusUpdateSw]
    · rw [hstep]
      exact ⟨h.callback, h.running, h.selected, h.processing, h.pending, h.noChain, rfl,
        h.supported, h.ready, h.ctap2, h.noError, h.responseLen, rfl, h.arena, h.fits, by omega⟩

/-- The reader gets the rest of the response, and the exchange is free afterwards. -/
theorem readPages_of_paging (asks : List NfcEvent) (hasks : ∀ ask ∈ asks, Asks ask)
    (h : Paging app response offset) (henough : response.length - offset ≤ asks.length) :
    Delivered (response.drop offset) (statusWordBytes swSuccess) (readPages handlers app asks).1 ∧
      ReadyForCommand (readPages handlers app asks).2 := by
  induction asks generalizing app offset with
  | nil =>
    have hmore := h.more
    simp only [List.length_nil] at henough
    omega
  | cons ask asks ih =>
    rcases ask_paging h (hasks ask List.mem_cons_self) with
      ⟨hreply, hfree⟩ | ⟨size, hpos, hlt, hreply, hnext⟩
    · have hfinal : (repliesTo handlers app ask).any Reply.isFinal = true := by
        have hstatus : statusWordBytes swSuccess = [0x90, 0x00] := by decide
        rw [hreply, hstatus]
        simp [Reply.isFinal]
      simp only [readPages, hfinal, if_true]
      exact ⟨⟨[response.drop offset], by simp, by simp, hreply⟩, hfree⟩
    · have hnotFinal : (repliesTo handlers app ask).any Reply.isFinal = false := by
        rw [hreply]
        simp [Reply.isFinal]
      simp only [List.length_cons] at henough
      obtain ⟨⟨pages, hne, hflatten, hpages⟩, hfree⟩ :=
        ih (fun later hmem ↦ hasks later (List.mem_cons_of_mem _ hmem)) hnext (by omega)
      simp only [readPages, hnotFinal, Bool.false_eq_true, if_false]
      refine ⟨⟨(response.drop offset).take size :: pages, by simp, ?_, ?_⟩, hfree⟩
      · rw [List.flatten_cons, hflatten, ← List.drop_drop, List.take_append_drop]
      · obtain ⟨next, rest, rfl⟩ := List.exists_cons_of_ne_nil hne
        rw [hreply, hpages, pageReplies, hflatten, List.length_drop]
        rfl

end Pages

section Commands

variable {handlers : Handlers} {app : NfcApp} {apdu : NfcApdu}

/-- What a block that starts a command has done. -/
inductive Started (apdu : NfcApdu) : NfcApp → Prop where
  /-- The callback runs a CTAP2 command. -/
  | direct {app : NfcApp} (hcla : apdu.cla = 0x80)
    (hunsupported : ctapMsgGetResponseSupported apdu = false) (hrunning : app.stopping = false)
    (hworker : app.worker = .idle) (hfield : app.ctapGetResponseSupported = false) (hpos : 0 < app.requestLen)
    (hlength : app.requestLen ≤ maxMsgSize) : Started apdu (startCtap2Direct app false)
  /-- The worker is to run it. -/
  | queue {app next : NfcApp} {request : Bytes} (hcla : apdu.cla = 0x80)
    (hsupported : ctapMsgGetResponseSupported apdu = true) (hselected : app.appletSelected = true)
    (hcallback : app.callback = .idle) (hworker : app.worker = .idle)
    (hchain : app.commandChainActive = false)
    (hqueue : queueRequest app .ctap2 request = (true, next)) :
    Started apdu (sendBusyStatus { next with ctapGetResponseSupported := true })
  /-- The callback runs a U2F command. -/
  | u2f {app : NfcApp} (hcla : apdu.cla = 0x00) (hrunning : app.stopping = false)
    (hworker : app.worker = .idle) (hattached : app.arenaAttached = true) : Started apdu (startU2fImmediate app apdu)

/-- A CTAP2 message that has been taken is run by the callback, or queued if it advertises GET
RESPONSE. -/
theorem finishCtap2Msg_started (hmessage : IsMessage false apdu) (hshort : apdu.extended = false)
    (hselected : app.appletSelected = true) (hrunning : app.stopping = false)
    (hcallback : app.callback = .idle) (hworker : app.worker = .idle)
    (hpos : 0 < apdu.data.length) (hlength : apdu.data.length ≤ maxMsgSize) :
    Unstarted app (finishCtap2Msg (messageTaken app apdu) apdu.extended) ∨
      Started apdu (finishCtap2Msg (messageTaken app apdu) apdu.extended) := by
  unfold finishCtap2Msg
  dsimp only
  cases hsupported : ctapMsgGetResponseSupported apdu with
  | false =>
    right
    rw [if_pos (by simp [messageTaken, hsupported]), hshort]
    exact .direct hmessage.cla hsupported hrunning hworker hsupported hpos hlength
  | true =>
    rw [if_neg (by simp [messageTaken, hsupported])]
    split
    · rename_i next hqueue
      have hrefused := adjusts_of_refused hqueue
      exact Or.inl ⟨hrefused.callback, hrefused.queued⟩
    · rename_i next hqueue
      have hfield : (messageTaken app apdu).ctapGetResponseSupported = true := hsupported
      rw [hfield]
      refine Or.inr (.queue hmessage.cla hsupported ?_ ?_ ?_ rfl hqueue)
      · exact hselected
      · exact hcallback
      · exact hworker

theorem handleApdu_started {payload : Bytes} {capabilities : NfcCapabilities}
    {surroundings : Surroundings} (hparsed : parseApdu payload = some apdu)
    (hshort : apdu.extended = false) (hrunning : app.stopping = false)
    (hcallback : app.callback = .idle) (hworker : app.worker = .idle)
    (hchain : app.commandChainActive = false) :
    Unstarted app (handleApdu handlers app payload capabilities surroundings) ∨
      Started apdu (handleApdu handlers app payload capabilities surroundings) := by
  have hhandled := @handleApdu_handled handlers app apdu payload capabilities surroundings hparsed
    hchain
  generalize handleApdu handlers app payload capabilities surroundings = next at hhandled
  cases hhandled with
  | quiet h => exact Or.inl h.unstarted
  | informed _ _ h => exact Or.inl ⟨h.callback, h.queued⟩
  | collected _ hcallback hqueued _ => exact Or.inl ⟨hcallback, hqueued⟩
  | message hmessage hselected hpos hlength =>
    exact finishCtap2Msg_started hmessage hshort hselected hrunning hcallback hworker hpos hlength
  | u2f hcla => exact Or.inr (.u2f hcla hrunning hworker rfl)

/-- A block that starts a command has started it in one of the three ways. -/
theorem CommandRuns.started {block : CommandBlock} {apdu : NfcApdu}
    (h : CommandRuns handlers app block apdu) : Started apdu (nfcStep handlers app block.event) := by
  have hnot : ¬Unstarted app (nfcStep handlers app block.event) := by
    rintro ⟨hcallback, hqueued⟩
    rcases h.runs with hruns | hruns
    · exact hruns (hcallback.trans h.callback)
    · exact hruns hqueued
  have hrunning : app.stopping = false := by
    cases hstopping : app.stopping with
    | false => rfl
    | true =>
      refine absurd ?_ hnot
      show Unstarted app (if app.stopping || app.callback != .idle then app
        else handleReaderEvent handlers app block.event)
      rw [if_pos (by simp [hstopping])]
      exact (Quiet.refl app).unstarted
  have hlength := four_le_length_of_parseApdu h.parsed
  have hactive : requestWorkerActive app = false := by
    cases hactive : requestWorkerActive app with
    | false => rfl
    | true =>
      refine absurd ?_ hnot
      rw [CommandBlock.event, nfcStep_busy h.callback hrunning hactive hlength]
      exact Quiet.unstarted ((quiet_sendApduPayload _ _ _).after ⟨rfl, rfl, rfl, id⟩)
  cases hdefers : defers app with
  | true =>
    refine absurd ?_ hnot
    rw [CommandBlock.event, nfcStep_deferred h.callback hrunning h.noChain hactive hlength hdefers]
    exact Quiet.unstarted ((quiet_sendDeferredResponseOrWtx _ _).after ⟨rfl, rfl, rfl, id⟩)
  | false =>
    rw [CommandBlock.event] at hnot ⊢
    rw [nfcStep_command h.callback hrunning h.noChain hactive hlength hdefers] at hnot ⊢
    rcases @handleApdu_started handlers (blockReceived app) apdu block.payload block.capabilities
      block.surroundings h.parsed h.short hrunning h.callback h.worker h.noChain with hnone | hstarted
    · exact absurd ⟨hnone.callback, hnone.queued⟩ hnot
    · exact hstarted

end Commands

section Deferred

/-- A response that the listener starts to send anew on every block. -/
structure Restarting (app : NfcApp) : Prop where
  callback : app.callback = .idle
  worker : app.worker = .idle
  running : app.stopping = false
  processing : app.processing = false
  pending : app.requestPending = false
  noChain : app.commandChainActive = false
  unsupported : app.ctapGetResponseSupported = false
  ready : app.responseReady = true
  noError : app.responseIsError = false
  attached : app.arenaAttached = true
  fits : app.responseLen ≤ transportArenaSize
  large : maxTxFrameInfSize < app.responseLen + 2

variable {handlers : Handlers} {app : NfcApp}

theorem Restarting.beginChained (h : Restarting app) (data : Bytes) (statusWord : UInt16)
    (sent : Bool) : Restarting (beginChainedApduPayload app data statusWord sent) := by
  unfold beginChainedApduPayload
  split_ifs
  · exact h
  · unfold sendNextTxChainBlock
    dsimp only
    split_ifs
    all_goals
      exact ⟨h.callback, h.worker, h.running, h.processing, h.pending, h.noChain, h.unsupported,
        h.ready, h.noError, h.attached, h.fits, h.large⟩

/-- The question for the next page is answered with the beginning of the response. -/
theorem Restarting.ask (h : Restarting app) {ask : NfcEvent} (hask : Asks ask) :
    Restarting (nfcStep handlers app ask) := by
  obtain ⟨pcb, payload, capabilities, pendingApproval, apdu, rfl, hparsed, -⟩ := hask
  have hactive : requestWorkerActive app = false := by
    simp [requestWorkerActive, h.processing, h.pending]
  have hreceived : Restarting (blockReceived app) := ⟨h.callback, h.worker, h.running,
    h.processing, h.pending, h.noChain, h.unsupported, h.ready, h.noError, h.attached, h.fits, h.large⟩
  have hfits := hreceived.fits
  have hlarge := hreceived.large
  rw [nfcStep_deferred h.callback h.running h.noChain hactive
    (four_le_length_of_parseApdu hparsed) (by simp [defers, h.unsupported, h.ready])]
  unfold sendDeferredResponseOrWtx
  rw [if_neg (by simp [hreceived.processing]), if_neg (by simp [hreceived.noError]),
    if_neg (by simp [hreceived.ready]), if_neg (by simp [hreceived.attached, Nat.not_lt.mpr hfits]),
    if_neg (by omega)]
  exact hreceived.beginChained _ _ _

/-- The reader never gets to the end of such a response. -/
theorem readPages_restarting (asks : List NfcEvent) (hasks : ∀ ask ∈ asks, Asks ask)
    (h : Restarting app) : Restarting (readPages handlers app asks).2 := by
  induction asks generalizing app with
  | nil => exact h
  | cons ask asks ih =>
    have hnext : Restarting (nfcStep handlers app ask) := h.ask (hasks ask List.mem_cons_self)
    unfold readPages
    dsimp only
    split_ifs
    · exact hnext
    · exact ih (fun later hmem ↦ hasks later (List.mem_cons_of_mem _ hmem)) hnext

theorem Restarting.not_readyForCommand (h : Restarting app) : ¬ReadyForCommand app := by
  intro hfree
  have hbusy : exchangeBusy app = true := by simp [exchangeBusy, h.ready]
  rw [hfree.notBusy] at hbusy
  contradiction

/-- The first page of a response of the callback. -/
theorem Restarting.firstPage (h : Restarting app) (hoffset : app.responseOffset = 0)
    (apdu : NfcApdu) (pendingApproval : Bool) :
    Restarting (sendGetResponse app apdu pendingApproval) := by
  have hfits := h.fits
  have hlarge := h.large
  have hchunk : getResponseChunkSize + 4 < maxTxFrameInfSize := by decide
  have hsize := pageSize_le apdu
  have hsend : ∀ statusWord, Restarting (sendApduPayload
      { app with responseOffset := app.responseOffset + pageSize apdu }
      (((app.transportArena.take app.responseLen).drop app.responseOffset).take (pageSize apdu))
      statusWord) := by
    intro statusWord
    rw [sendApduPayload_small (by
      rw [List.length_take]
      exact Nat.le_trans (Nat.min_le_left _ _) hsize)]
    exact ⟨h.callback, h.worker, h.running, h.processing, h.pending, h.noChain, h.unsupported,
      h.ready, h.noError, h.attached, h.fits, h.large⟩
  unfold sendGetResponse
  dsimp only
  rw [if_neg (by simp [h.processing]), if_neg (by simp [h.noError]), if_neg (by simp [h.ready])]
  rw [if_neg (by
    simp only [h.attached, hoffset, Bool.not_true, Bool.false_or, Bool.or_eq_true,
      decide_eq_true_eq, Bool.and_eq_true, not_or, not_and]
    omega)]
  by_cases hu2f : app.responseIsU2f = true
  · rw [if_pos hu2f, if_neg (by omega), if_neg (by
      show ¬_ ≤ pageSize apdu
      omega)]
    exact hsend _
  · rw [if_neg hu2f, if_neg (by
      show ¬_ ≤ pageSize apdu
      omega)]
    exact hsend _

/-- The worker has nothing to do with such a response. -/
theorem Restarting.commandReturns (response : Bytes) (surroundings : Surroundings)
    (h : Restarting (nfcStep handlers app (.callbackReturns response surroundings))) :
    Restarting (run (nfcStep handlers) app (commandReturns response surroundings)) := by
  unfold ZeroFido.Nfc.commandReturns
  simp only [run_cons, run_nil]
  generalize nfcStep handlers app (.callbackReturns response surroundings) = next at h
  have htakes : nfcStep handlers next .workerTakes = next := by
    simp only [nfcStep, h.worker, workerTakes, h.pending]
    rfl
  have hstores : nfcStep handlers next (.workerStores (some response)) = next := by
    simp only [nfcStep, h.worker]
  have hreturns : nfcStep handlers next .workerReturns = next := by
    simp only [nfcStep, h.worker]
  rw [htakes, hstores, hreturns]
  exact h

/-- The callback has run a CTAP2 command. -/
theorem restarting_direct {response : Bytes} (surroundings : Surroundings)
    (hrunning : app.stopping = false) (hworker : app.worker = .idle)
    (hunsupported : app.ctapGetResponseSupported = false) (hpos : 0 < app.requestLen)
    (hlength : app.requestLen ≤ maxMsgSize) (hlarge : maxTxFrameInfSize < response.length + 2)
    (hfits : response.length ≤ transportArenaSize) :
    Restarting (nfcStep handlers (startCtap2Direct app false)
      (.callbackReturns response surroundings)) := by
  have hframe : 2 < maxTxFrameInfSize := by decide
  unfold startCtap2Direct
  rw [if_neg (by omega)]
  show Restarting (finishCtap2Direct _ _ false response surroundings)
  unfold finishCtap2Direct
  dsimp only
  rw [if_neg (by omega), if_neg (by omega), if_neg (by simp)]
  refine Restarting.firstPage ?_ rfl _ _
  exact ⟨rfl, hworker, hrunning, rfl, rfl, rfl, hunsupported, rfl, rfl, rfl, hfits, hlarge⟩

/-- The callback has run a U2F command. -/
theorem restarting_u2f {response : Bytes} (apdu : NfcApdu) (surroundings : Surroundings)
    (hrunning : app.stopping = false) (hworker : app.worker = .idle)
    (hattached : app.arenaAttached = true) (hlarge : maxTxFrameInfSize < response.length)
    (hfits : response.length ≤ transportArenaSize) :
    Restarting (nfcStep handlers (startU2fImmediate app apdu)
      (.callbackReturns response surroundings)) := by
  have hframe : 2 < maxTxFrameInfSize := by decide
  show Restarting (finishU2fImmediate _ _ apdu response surroundings)
  unfold finishU2fImmediate sendU2fResponse
  dsimp only
  rw [if_neg (by omega), if_neg (by omega), if_neg (by
    simp only [startU2fImmediate, hattached, Bool.not_true, Bool.false_or, decide_eq_true_eq]
    omega)]
  refine Restarting.firstPage ?_ rfl _ _
  exact ⟨rfl, hworker, hrunning, rfl, rfl, rfl, rfl, rfl, rfl, hattached, hfits, by
    show _ < response.length + 2
    omega⟩

end Deferred

section Theorem

variable {handlers : Handlers} {app : NfcApp} {apdu : NfcApdu}

/-- The response of the current request is stored. -/
theorem workerStores_current {request : RunningRequest} {response : Bytes}
    (hkind : request.requestKind = .ctap2) (hsession : app.processingSessionId = request.sessionId)
    (hgeneration : app.processingGeneration = request.requestGeneration)
    (hcancel : app.processingCancelRequested = false) (hne : response ≠ [])
    (hfits : response.length ≤ transportArenaSize) :
    workerStores app request (some response) = { app with
      arenaAttached := true
      processing := false
      requestPending := false
      processingSessionId := 0
      responseOffset := 0
      transportArena := writeArena (zeroBytes transportArenaSize) 0 response
      responseLen := response.length
      responseReady := true
      responseIsU2f := false
      responseIsError := false
      errorStatusWord := swSuccess } := by
  have hresponse : workerResponse request (some response) = some response := by
    simp [workerResponse, hkind, hne]
  have hctap2 : (request.requestKind == .u2f) = false := by
    rw [hkind]
    rfl
  unfold workerStores storeResponse
  rw [hresponse, hctap2, if_neg (by simp [hsession, hgeneration, hcancel])]
  dsimp only
  rw [if_neg (by
    simp only [Bool.false_eq_true, false_and, or_false]
    exact Nat.not_lt.mpr hfits)]

/-- A step that transmits nothing. -/
theorem repliesTo_of_quiet {event : NfcEvent}
    (h : (nfcStep handlers app event).transmitted = app.transmitted) :
    repliesTo handlers app event = [] := by
  simp [repliesTo, h]

/-- What the worker has taken from a request that was queued. -/
def takenRequest (app : NfcApp) (request : Bytes) : RunningRequest where
  sessionId := app.sessionId
  requestGeneration := nextGeneration app.requestGeneration
  requestKind := .ctap2
  requestCopy := (writeArena app.transportArena 0 request).take request.length
  oldAutoAccept := app.transportAutoAcceptTransaction
  origin := some { number := app.queued + 1, kind := .ctap2, request }

/-- The worker has run a CTAP2 command: the response is there to be read, and nothing was sent
meanwhile. -/
theorem paging_queue {next : NfcApp} {request response : Bytes} (surroundings : Surroundings)
    (hselected : app.appletSelected = true) (hcallback : app.callback = .idle)
    (hworker : app.worker = .idle) (hchain : app.commandChainActive = false)
    (hqueue : queueRequest app .ctap2 request = (true, next)) (hne : response ≠ [])
    (hfits : response.length ≤ transportArenaSize) :
    let started := sendBusyStatus { next with ctapGetResponseSupported := true }
    repliesIn handlers started (commandReturns response surroundings) = [] ∧
      Paging (run (nfcStep handlers) started (commandReturns response surroundings)) response 0 := by
  obtain ⟨hrunning, -, hlength, rfl⟩ := queueRequest_queued hqueue
  intro started
  have hsent : started = transmit (clearTxChain _) _ := sendApduPayload_small (by decide) _
  have hcallback' : started.callback = .idle := hcallback
  have hworker' : started.worker = .idle := hworker
  have hreturns : nfcStep handlers started (.callbackReturns response surroundings) = started := by
    simp only [nfcStep, callbackReturns, hcallback']
  have htakes : nfcStep handlers started .workerTakes = { started with
      requestPending := false
      transportAutoAcceptTransaction := true
      arenaAttached := false
      transportArena := zeroBytes transportArenaSize
      worker := .running (takenRequest app request) } := by
    simp only [nfcStep, hworker']
    unfold workerTakes
    rw [hsent, if_neg (by
      simp only [transmit, clearTxChain, Bool.not_true, Bool.false_or]
      exact fun hlong ↦ Nat.not_lt.mpr hlength (of_decide_eq_true hlong))]
    rfl
  generalize htaken : ({ started with
      requestPending := false
      transportAutoAcceptTransaction := true
      arenaAttached := false
      transportArena := zeroBytes transportArenaSize
      worker := .running (takenRequest app request) } : NfcApp) = taken at htakes
  have hstores : nfcStep handlers taken (.workerStores (some response)) =
      { workerStores taken (takenRequest app request) (some response) with
        worker := .stored (takenRequest app request) } := by
    rw [← htaken]
    rfl
  rw [workerStores_current rfl (by rw [← htaken, hsent]; rfl) (by rw [← htaken, hsent]; rfl)
    (by rw [← htaken, hsent]; rfl) hne hfits] at hstores
  have harena : (writeArena (zeroBytes transportArenaSize) 0 response).take response.length =
      response := by
    simp [writeArena]
  have hselected' : started.appletSelected = true := hselected
  have hrunning' : started.stopping = false := hrunning
  constructor
  · have hquietReturn : repliesTo handlers started (.callbackReturns response surroundings) = [] :=
      repliesTo_of_quiet (by rw [hreturns])
    have hquietTake : repliesTo handlers started .workerTakes = [] :=
      repliesTo_of_quiet (by rw [htakes, ← htaken])
    have hquietStore : repliesTo handlers taken (.workerStores (some response)) = [] :=
      repliesTo_of_quiet (by rw [hstores])
    simp only [repliesIn, commandReturns, hquietReturn, hreturns, hquietTake, htakes, hquietStore,
      hstores, List.nil_append, List.append_nil]
    exact repliesTo_of_quiet rfl
  · simp only [run_cons, run_nil, commandReturns, hreturns, htakes, hstores]
    refine ⟨?_, ?_, ?_, rfl, rfl, ?_, ?_, ?_, rfl, rfl, rfl, rfl, rfl, harena, hfits,
      List.length_pos_of_ne_nil hne⟩
    · rw [← htaken]
      exact hcallback'
    · rw [← htaken]
      exact hrunning'
    · rw [← htaken]
      exact hselected'
    · rw [← htaken, hsent]
      exact hchain
    · rw [← htaken, hsent]
      rfl
    · rw [← htaken, hsent]
      rfl

/-- A response that is read in pages is delivered once, and the next command is a new one, exactly
when the command advertised GET RESPONSE. -/
theorem paged_once_iff {block : CommandBlock} {response : Bytes} {surroundings : Surroundings}
    {asks : List NfcEvent} (hruns : CommandRuns handlers app block apdu)
    (hlarge : maxTxFrameInfSize < (responseBody apdu response).length + 2)
    (hfits : response.length ≤ transportArenaSize) (hasks : ∀ ask ∈ asks, Asks ask)
    (henough : response.length ≤ asks.length) :
    PagedOnce handlers app block apdu response surroundings asks ↔
      apdu.cla = 0x80 ∧ ctapMsgGetResponseSupported apdu = true := by
  have hdeferred : Restarting (nfcStep handlers (nfcStep handlers app block.event)
      (.callbackReturns response surroundings)) →
      ¬PagedOnce handlers app block apdu response surroundings asks := by
    intro hrestarting hpaged
    have hread := @readPages_restarting handlers _ asks hasks
      (hrestarting.commandReturns response surroundings)
    exact hread.not_readyForCommand hpaged.2
  have hstarted := hruns.started
  generalize hnext : nfcStep handlers app block.event = started at hstarted hdeferred
  cases hstarted with
  | direct hcla hunsupported hrunning hworker hfield hpos hlength =>
    have hbody : responseBody apdu response = response := if_neg (by simp [hcla])
    rw [hbody] at hlarge
    refine iff_of_false ?_ (by simp [hunsupported])
    exact hdeferred (restarting_direct surroundings hrunning hworker hfield hpos hlength hlarge hfits)
  | queue hcla hsupported hselected hcallback hworker hchain hqueue =>
    have hbody : responseBody apdu response = response := if_neg (by simp [hcla])
    have hstatus : responseStatus apdu response = statusWordBytes swSuccess :=
      if_neg (by simp [hcla])
    have hne : response ≠ [] := by
      rintro rfl
      simp [hbody, maxTxFrameInfSize] at hlarge
    refine iff_of_true ?_ ⟨hcla, hsupported⟩
    obtain ⟨hnone, hpaging⟩ := @paging_queue handlers _ _ _ _ surroundings hselected hcallback
      hworker hchain hqueue hne hfits
    unfold PagedOnce
    dsimp only
    rw [hnext, hnone, hbody, hstatus, List.nil_append]
    exact readPages_of_paging asks hasks hpaging henough
  | u2f hcla hrunning hworker hattached =>
    have hbody : responseBody apdu response = response.take (response.length - 2) := if_pos hcla
    rw [hbody, List.length_take] at hlarge
    have hlong : maxTxFrameInfSize < response.length := by
      have hframe : 2 < maxTxFrameInfSize := by decide
      omega
    refine iff_of_false ?_ (by simp [hcla])
    exact hdeferred (restarting_u2f apdu surroundings hrunning hworker hattached hlong hfits)

/-- A getAssertion in a block of its own, from a reader with or without GET RESPONSE. -/
def getAssertionBlock (getResponse : Bool) : CommandBlock where
  pcb := 0x03
  payload := [0x80, 0x10, if getResponse then 0x80 else 0x00, 0x00, 0x02, 0x02, 0xA0]
  capabilities := { fido2Enabled := true, u2fEnabled := false }
  surroundings := {}

/-- GET RESPONSE for all that is left. -/
def getResponseBlock (pcb : UInt8) : NfcEvent :=
  .iBlock pcb [0x80, 0xC0, 0x00, 0x00, 0x00] false { fido2Enabled := true, u2fEnabled := false } {}

/-- GET RESPONSE with alternating block numbers, as often as the response could need. -/
def getResponseBlocks (count : ℕ) : List NfcEvent :=
  (List.range count).map fun number ↦ getResponseBlock (if number % 2 = 0 then 0x02 else 0x03)

theorem asks_getResponseBlocks (count : ℕ) : ∀ ask ∈ getResponseBlocks count, Asks ask := by
  intro ask hmem
  obtain ⟨number, -, rfl⟩ := List.mem_map.mp hmem
  exact ⟨_, _, _, _, _, rfl, rfl, rfl⟩

/-- A response of 300 bytes. -/
def longResponse : Bytes := (List.range 300).map UInt8.ofNat

theorem paged_once_iff_getResponse :
    PagedOnce .withoutU2f (nfcStep .withoutU2f {} selectFido) (getAssertionBlock true)
        { cla := 0x80, ins := 0x10, p1 := 0x80, p2 := 0x00, data := [0x02, 0xA0] } longResponse {}
        (getResponseBlocks 300) ↔
      (0x80 : UInt8) = 0x80 ∧ ctapMsgGetResponseSupported
        { cla := 0x80, ins := 0x10, p1 := 0x80, p2 := 0x00, data := [0x02, 0xA0] } = true := by
  refine paged_once_iff ?_ (by decide +kernel) (by decide +kernel) (asks_getResponseBlocks 300)
    (by decide +kernel)
  refine ⟨?_, ?_, ?_, rfl, rfl, Or.inr ?_⟩
  all_goals decide +kernel

/-- To a reader that did not advertise GET RESPONSE the second page is the beginning of the
response. -/
theorem pages_restart :
    let app := nfcStep .withoutU2f {} selectFido
    let started := nfcStep .withoutU2f app (getAssertionBlock false).event
    let events := commandReturns longResponse {}
    let read := readPages .withoutU2f (run (nfcStep .withoutU2f) started events)
      (getResponseBlocks 300)
    repliesIn .withoutU2f started events = [⟨longResponse.take 94 ++ [0x61, 206], false⟩] ∧
      read.1.head? = some ⟨longResponse.take 96, true⟩ ∧
      ¬PagedOnce .withoutU2f app (getAssertionBlock false)
        { cla := 0x80, ins := 0x10, p1 := 0x00, p2 := 0x00, data := [0x02, 0xA0] } longResponse {}
        (getResponseBlocks 300) := by
  refine ⟨by decide +kernel, by decide +kernel, ?_⟩
  rintro ⟨-, hready⟩
  have hrestarting : Restarting (run (nfcStep .withoutU2f)
      (nfcStep .withoutU2f (nfcStep .withoutU2f {} selectFido) (getAssertionBlock false).event)
      (commandReturns longResponse {})) := by
    constructor <;> decide +kernel
  exact (readPages_restarting _ (asks_getResponseBlocks 300) hrestarting).not_readyForCommand hready

end Theorem

end ZeroFido.Nfc
