import ZeroFido.Nfc.BlockLayer

/-!
# Retransmitted blocks

A block whose answer has been sent is remembered (`Remembered`), and when it is received again, the
exchange does not see it and its answer is repeated. What is not remembered is handled anew: a
block whose answer was not sent, one byte too long for the filter, appended to a chain that it does
not fit, or collected as a chained APDU. A block that announces a CID is not answered at all.
-/

set_option autoImplicit false
set_option relaxedAutoImplicit false

namespace ZeroFido.Nfc

open Foundations

section Statement

/-- The block is new and carries an APDU, and none of what keeps a block from being remembered
holds of it, but for an answer that is not sent. -/
structure Retransmittable (layer : BlockLayer) (block : IBlock) : Prop where
  callback : layer.exchange.callback = .idle
  running : layer.exchange.stopping = false
  carries : block.body ≠ []
  fresh : layer.exchange.commandChainActive = true ∨
    isDuplicateCompleteIBlock (syncIBlockHeader layer block).1 block = false
  short : block.payload.length ≤ maxRxFrameInfSize
  fits : layer.exchange.commandChainActive = true →
    requestWorkerActive layer.exchange = false ∧ overflows layer.exchange block.payload = false
  notCollected : ∀ apdu, apduOf layer.exchange block.payload = some apdu → ¬IsMessage true apdu

/-- A step of the worker, or the stop of the transport. -/
inductive BlockEvent.Background : BlockEvent → Prop where
  | workerTakes : Background .workerTakes
  | workerStores (response : Option Bytes) : Background (.workerStores response)
  | workerReturns : Background .workerReturns
  | stop : Background .stop

/-- The block again, or a step in the background. -/
inductive BlockEvent.Again (block : IBlock) : BlockEvent → Prop where
  | block (capabilities : NfcCapabilities) (surroundings : Surroundings) :
    Again block (.iBlock block capabilities surroundings)
  | background {event : BlockEvent} (h : event.Background) : Again block event

variable (handlers : Handlers)

/-- From the reception of a block to its answer, which is sent: at once, or when the callback has
run the command of the block. -/
inductive AnswerSent (layer : BlockLayer) (block : IBlock) : List BlockEvent → Prop where
  | atOnce (capabilities : NfcCapabilities) (surroundings : Surroundings)
    (hidle : (blockStep handlers layer (.iBlock block capabilities surroundings)).exchange.callback =
      .idle)
    (hsent : (blockStep handlers layer (.iBlock block capabilities surroundings)).sentFrames ≠
      layer.sentFrames) :
    AnswerSent layer block [.iBlock block capabilities surroundings]
  | later (capabilities : NfcCapabilities) (surroundings : Surroundings) (during : List BlockEvent)
    (response : Bytes) (outcome : Surroundings)
    (hruns : (blockStep handlers layer (.iBlock block capabilities surroundings)).exchange.callback ≠
      .idle)
    (hduring : ∀ event ∈ during, event.Background)
    (hsent : (run (blockStep handlers) layer (.iBlock block capabilities surroundings :: during ++
        [.callbackReturns response outcome])).sentFrames ≠
      (run (blockStep handlers) layer
        (.iBlock block capabilities surroundings :: during)).sentFrames) :
    AnswerSent layer block
      (.iBlock block capabilities surroundings :: during ++ [.callbackReturns response outcome])

end Statement

section Send

variable {layer next : BlockLayer}

/-- A response is an I-block. -/
theorem isIBlockPcb_isoResponse (layer : BlockLayer) (inf : Bytes) (chaining : Bool) :
    isIBlockPcb ((isoResponse layer inf chaining).getD 0 0) = true := by
  have hbits : ∀ cid chaining : Bool,
      isIBlockPcb (0x02 ||| 0 ||| (if cid then 0x08 else 0x00) |||
        (if chaining then 0x10 else 0x00)) = true ∧
      isIBlockPcb (0x02 ||| 1 ||| (if cid then 0x08 else 0x00) |||
        (if chaining then 0x10 else 0x00)) = true := by
    decide
  unfold isoResponse cidBit
  rw [List.getD_cons_zero]
  rcases and_one_cases layer.isoPcb with hzero | hone
  · rw [hzero]
    exact (hbits layer.isoCid.isSome chaining).1
  · rw [hone]
    exact (hbits layer.isoCid.isSome chaining).2

/-- The frame that was sent last, as the answer to a block. -/
structure LastSent (layer : BlockLayer) (frame : Bytes) : Prop where
  txFrame : layer.iso4TxFrame = frame
  sent : layer.sentFrames.getLast? = some frame
  nonempty : frame ≠ []
  iBlock : isIBlockPcb (frame.getD 0 0) = true

theorem sendIsoResponse_sent (layer : BlockLayer) (inf : Bytes) (chaining : Bool) :
    LastSent (sendIsoResponse layer inf chaining true) (isoResponse layer inf chaining) where
  txFrame := rfl
  sent := by simp [sendIsoResponse, sendFrame]
  nonempty := by simp [isoResponse]
  iBlock := isIBlockPcb_isoResponse layer inf chaining

/-- Nothing but the header toggle and the caches of the last frame changes. -/
structure Framed (layer next : BlockLayer) : Prop where
  exchange : next.exchange = layer.exchange
  isoCid : next.isoCid = layer.isoCid
  answering : next.answering = layer.answering
  executed : next.executed = layer.executed
  rxCompleteLast : next.rxCompleteLast = layer.rxCompleteLast

theorem framed_sendFrame (layer : BlockLayer) (frame : Bytes) (sent : Bool) :
    Framed layer (sendFrame layer frame sent) := by
  cases sent <;> exact ⟨rfl, rfl, rfl, rfl, rfl⟩

/-- The replies that are not sent leave no trace but the frame that was tried. -/
theorem sendReplies_unsent (layer : BlockLayer) (infs : List Bytes) (chaining preserving : Bool) :
    (sendReplies layer infs chaining preserving false).sentFrames = layer.sentFrames := by
  induction infs generalizing layer with
  | nil => rfl
  | cons inf rest ih =>
    have hrest := ih (if preserving then sendIsoResponsePreservingReplay layer inf chaining false
      else sendIsoResponse layer inf chaining false)
    refine hrest.trans ?_
    cases preserving <;> rfl

theorem framed_sendReplies (layer : BlockLayer) (infs : List Bytes)
    (chaining preserving sent : Bool) :
    Framed layer (sendReplies layer infs chaining preserving sent) := by
  induction infs generalizing layer with
  | nil => exact ⟨rfl, rfl, rfl, rfl, rfl⟩
  | cons inf rest ih =>
    have hrest := ih (if preserving then sendIsoResponsePreservingReplay layer inf chaining sent
      else sendIsoResponse layer inf chaining sent)
    have hfirst : Framed layer (if preserving then
        sendIsoResponsePreservingReplay layer inf chaining sent
        else sendIsoResponse layer inf chaining sent) := by
      cases preserving <;> cases sent <;> exact ⟨rfl, rfl, rfl, rfl, rfl⟩
    exact ⟨hrest.exchange.trans hfirst.exchange, hrest.isoCid.trans hfirst.isoCid,
      hrest.answering.trans hfirst.answering, hrest.executed.trans hfirst.executed,
      hrest.rxCompleteLast.trans hfirst.rxCompleteLast⟩

/-- The last reply is what was sent last. -/
theorem sendReplies_sent (layer : BlockLayer) {infs : List Bytes} (hne : infs ≠ [])
    (chaining preserving : Bool) :
    ∃ frame, LastSent (sendReplies layer infs chaining preserving true) frame := by
  obtain ⟨first, last, rfl⟩ : ∃ first last, infs = first ++ [last] :=
    ⟨infs.dropLast, infs.getLast hne, (List.dropLast_append_getLast hne).symm⟩
  have hsplit : sendReplies layer (first ++ [last]) chaining preserving true =
      (if preserving then
        sendIsoResponsePreservingReplay (sendReplies layer first chaining preserving true) last
          chaining true
      else sendIsoResponse (sendReplies layer first chaining preserving true) last chaining true) := by
    simp [sendReplies]
  generalize sendReplies layer first chaining preserving true = before at hsplit
  rw [hsplit]
  have hlast := sendIsoResponse_sent before last chaining
  refine ⟨isoResponse before last chaining, ?_⟩
  cases preserving with
  | false => exact hlast
  | true => exact ⟨hlast.txFrame, hlast.sent, hlast.nonempty, hlast.iBlock⟩

end Send

section Remembered

variable {handlers : Handlers} {layer next : BlockLayer} {block : IBlock} {frame : Bytes}

/-- The block has been answered with the frame, and will be again. -/
structure Remembered (layer : BlockLayer) (block : IBlock) (frame : Bytes) : Prop where
  noChain : layer.exchange.commandChainActive = false
  bare : announcesCid block.pcb = false
  carries : block.body ≠ []
  short : block.payload.length ≤ maxRxFrameInfSize
  complete : ∃ complete, layer.rxCompleteLast = some complete ∧ complete.pcb = block.pcb ∧
    complete.cid = none ∧ complete.payload = block.payload ∧ complete.response = frame
  nonempty : frame ≠ []

/-- What the end of the handling does to the rest. -/
theorem answer_rest (app : NfcApp) (preserving overflowed sent : Bool) :
    (answer layer block app preserving overflowed sent).exchange = app ∧
      (answer layer block app preserving overflowed sent).isoCid = layer.isoCid ∧
      (answer layer block app preserving overflowed sent).answering = layer.answering ∧
      (answer layer block app preserving overflowed sent).executed = layer.executed := by
  unfold answer
  dsimp only
  have hframed := framed_sendReplies (forgetAfterReset layer app)
    (app.transmitted.drop layer.exchange.transmitted.length) app.txChainActive preserving sent
  split_ifs
  · exact ⟨hframed.exchange, hframed.isoCid, hframed.answering, hframed.executed⟩
  · exact ⟨hframed.exchange, hframed.isoCid, hframed.answering, hframed.executed⟩

/-- The end of the handling of a block that is remembered. -/
theorem answer_remembered {app : NfcApp} {preserving overflowed sent : Bool}
    (hchain : app.commandChainActive = false) (hcid : layer.isoCid = none)
    (hbare : announcesCid block.pcb = false) (hcarries : block.body ≠ [])
    (hshort : block.payload.length ≤ maxRxFrameInfSize) (hfits : overflowed = false)
    (hsent : (answer layer block app preserving overflowed sent).sentFrames ≠ layer.sentFrames) :
    ∃ frame, Remembered (answer layer block app preserving overflowed sent) block frame ∧
      (answer layer block app preserving overflowed sent).sentFrames.getLast? = some frame := by
  unfold answer at hsent ⊢
  dsimp only at hsent ⊢
  generalize app.transmitted.drop layer.exchange.transmitted.length = infs at hsent ⊢
  have hframed := framed_sendReplies (forgetAfterReset layer app) infs app.txChainActive preserving
    sent
  have hne : infs ≠ [] := by
    rintro rfl
    exact hsent rfl
  have htrue : sent = true := by
    by_contra hunsent
    rw [Bool.not_eq_true] at hunsent
    subst hunsent
    rw [if_neg (by simp)] at hsent
    exact hsent (sendReplies_unsent _ _ _ _)
  subst htrue
  rw [if_pos ⟨hne, rfl, hfits⟩] at hsent ⊢
  obtain ⟨frame, hlast⟩ := sendReplies_sent (forgetAfterReset layer app) hne app.txChainActive
    preserving
  generalize sendReplies (forgetAfterReset layer app) infs app.txChainActive preserving true =
    answered at hframed hlast hsent ⊢
  have hanswered : answered.isoCid = none := hframed.isoCid.trans hcid
  have hexchange : answered.exchange = app := hframed.exchange
  refine ⟨frame, ⟨?_, hbare, hcarries, hshort, ?_, hlast.nonempty⟩, hlast.sent⟩
  · show answered.exchange.commandChainActive = false
    rw [hexchange]
    exact hchain
  · unfold rememberCompleteIBlock
    rw [if_neg (by
      rintro (hlong | hnone | hother)
      · omega
      · exact hlast.nonempty (hlast.txFrame.symm.trans hnone)
      · rw [hlast.txFrame, hlast.iBlock] at hother
        contradiction)]
    exact ⟨_, rfl, rfl, hanswered, rfl, hlast.txFrame⟩

/-- A step in the background does not touch the blocks. -/
theorem background_step {event : BlockEvent} (h : event.Background) :
    ∃ app : NfcApp, blockStep handlers layer event = { layer with exchange := app } ∧
      app.commandChainActive = layer.exchange.commandChainActive := by
  cases h with
  | workerTakes =>
    refine ⟨nfcStep handlers layer.exchange .workerTakes, rfl, ?_⟩
    simp only [nfcStep]
    split
    · unfold workerTakes
      split_ifs <;> rfl
    · rfl
  | workerStores response =>
    refine ⟨nfcStep handlers layer.exchange (.workerStores response), rfl, ?_⟩
    simp only [nfcStep]
    split
    · unfold workerStores storeResponse
      dsimp only
      split_ifs
      · rfl
      · split
        · rfl
        · split_ifs <;> rfl
    · rfl
  | workerReturns =>
    refine ⟨nfcStep handlers layer.exchange .workerReturns, rfl, ?_⟩
    simp only [nfcStep]
    split <;> rfl
  | stop =>
    refine ⟨nfcStep handlers layer.exchange .stop, rfl, ?_⟩
    simp only [nfcStep]
    unfold cancelCurrentRequest
    split_ifs <;> rfl

/-- A frame that is sent again. -/
theorem sentFrames_sendFrame (layer : BlockLayer) (frame : Bytes) (sent : Bool) :
    (sendFrame layer frame sent).sentFrames = layer.sentFrames ++
      List.replicate (if sent then 1 else 0) frame := by
  cases sent <;> simp [sendFrame]

/-- A block that is recognised. -/
theorem replayCompleteIBlockResponse_again (h : Remembered layer block frame) (sent : Bool) :
    Remembered (replayCompleteIBlockResponse layer sent) block frame ∧
      (replayCompleteIBlockResponse layer sent).executed = layer.executed ∧
      ∃ count, (replayCompleteIBlockResponse layer sent).sentFrames =
        layer.sentFrames ++ List.replicate count frame := by
  obtain ⟨complete, hcomplete, hpcb, hcid, hpayload, rfl⟩ := h.complete
  have hframed := framed_sendFrame layer complete.response sent
  unfold replayCompleteIBlockResponse
  rw [hcomplete]
  dsimp only
  refine ⟨⟨?_, h.bare, h.carries, h.short, ⟨complete, ?_, hpcb, hcid, hpayload, rfl⟩, h.nonempty⟩,
    hframed.executed, _, sentFrames_sendFrame _ _ _⟩
  · show (sendFrame layer complete.response sent).exchange.commandChainActive = false
    rw [hframed.exchange]
    exact h.noChain
  · show (sendFrame layer complete.response sent).rxCompleteLast = some complete
    rw [hframed.rxCompleteLast]
    exact hcomplete

/-- The block again: the exchange does not see it, and the answer is the same. -/
theorem receiveIBlock_again (h : Remembered layer block frame) (capabilities : NfcCapabilities)
    (surroundings : Surroundings) :
    Remembered (receiveIBlock handlers layer block capabilities surroundings) block frame ∧
      (receiveIBlock handlers layer block capabilities surroundings).executed = layer.executed ∧
      ∃ count, (receiveIBlock handlers layer block capabilities surroundings).sentFrames =
        layer.sentFrames ++ List.replicate count frame := by
  have hsynced : Remembered (synced layer block.pcb) block frame :=
    ⟨h.noChain, h.bare, h.carries, h.short, h.complete, h.nonempty⟩
  have hduplicate : isDuplicateCompleteIBlock (synced layer block.pcb) block = true := by
    obtain ⟨complete, hcomplete, hpcb, hcid, hpayload, hresponse⟩ := hsynced.complete
    unfold isDuplicateCompleteIBlock
    rw [hcomplete]
    simp [h.short, hpcb, hcid, hpayload, hresponse, h.nonempty, synced]
  rw [receiveIBlock_bare _ _ (IBlock.received_of_short h.short) h.carries h.bare,
    if_pos ⟨h.noChain, hduplicate⟩]
  exact replayCompleteIBlockResponse_again hsynced _

/-- One step after the answer. -/
theorem blockStep_again (h : Remembered layer block frame) {event : BlockEvent}
    (hevent : event.Again block) :
    Remembered (blockStep handlers layer event) block frame ∧
      (blockStep handlers layer event).executed = layer.executed ∧
      ∃ count, (blockStep handlers layer event).sentFrames =
        layer.sentFrames ++ List.replicate count frame := by
  cases hevent with
  | block capabilities surroundings =>
    show _ ∧ _ ∧ _
    unfold blockStep
    dsimp only
    split_ifs
    · exact ⟨h, rfl, 0, by simp⟩
    · exact receiveIBlock_again h capabilities surroundings
  | background hbackground =>
    obtain ⟨app, heq, hchain⟩ := @background_step handlers layer event hbackground
    rw [heq]
    exact ⟨⟨hchain.trans h.noChain, h.bare, h.carries, h.short, h.complete, h.nonempty⟩, rfl, 0,
      by simp⟩

/-- Any number of retransmissions. -/
theorem run_again (h : Remembered layer block frame) {events : List BlockEvent}
    (hevents : ∀ event ∈ events, event.Again block) :
    (run (blockStep handlers) layer events).executed = layer.executed ∧
      ∃ count, (run (blockStep handlers) layer events).sentFrames =
        layer.sentFrames ++ List.replicate count frame := by
  induction events generalizing layer with
  | nil => exact ⟨rfl, 0, by simp [run_nil]⟩
  | cons event rest ih =>
    obtain ⟨hnext, hexecuted, first, hfirst⟩ :=
      @blockStep_again handlers layer block frame h event (hevents event List.mem_cons_self)
    obtain ⟨hsame, later, hlater⟩ := ih hnext fun after hmem ↦
      hevents after (List.mem_cons_of_mem _ hmem)
    rw [run_cons]
    refine ⟨hsame.trans hexecuted, first + later, ?_⟩
    rw [hlater, hfirst, List.append_assoc, List.replicate_append_replicate]

end Remembered

section Handling

variable {handlers : Handlers} {app : NfcApp} {layer : BlockLayer} {block : IBlock}

/-- Of what an APDU does, only a chained message begins a chain. -/
theorem noChain_handleApdu {frame : Bytes} (hchain : app.commandChainActive = false)
    (hnot : ∀ apdu, parseApdu frame = some apdu → ¬IsMessage true apdu)
    (capabilities : NfcCapabilities) (surroundings : Surroundings) :
    (handleApdu handlers app frame capabilities surroundings).commandChainActive = false := by
  cases hparsed : parseApdu frame with
  | none =>
    unfold handleApdu
    rw [hparsed]
    exact hchain
  | some apdu =>
    have hhandled := @handleApdu_handled handlers app apdu frame capabilities surroundings hparsed
      hchain
    generalize handleApdu handlers app frame capabilities surroundings = next at hhandled
    cases hhandled with
    | quiet h => exact h.chain hchain
    | informed _ _ h => exact h.chain hchain
    | collected hmessage => exact absurd hmessage (hnot apdu hparsed)
    | u2f _ => exact hchain
    | message _ _ _ _ =>
      unfold finishCtap2Msg
      dsimp only
      split_ifs
      · unfold startCtap2Direct
        split_ifs <;> rfl
      · split
        · rename_i hqueue
          unfold queueRequest at hqueue
          split_ifs at hqueue
          · rw [← (Prod.mk.inj hqueue).2]
            rfl
          · simp at hqueue
        · rename_i hqueue
          obtain ⟨-, -, -, rfl⟩ := queueRequest_queued hqueue
          exact (quiet_sendApduPayload _ _ _).chain rfl

/-- After a block no chain is active, unless the block is collected as a chained message. -/
theorem noChain_handleIso4Payload {pcb : UInt8} {payload : Bytes}
    (hfits : app.commandChainActive = true →
      requestWorkerActive app = false ∧ overflows app payload = false)
    (hnot : ∀ apdu, apduOf app payload = some apdu → ¬IsMessage true apdu)
    (capabilities : NfcCapabilities) (surroundings : Surroundings) :
    (handleIso4Payload handlers app pcb payload false capabilities
      surroundings).commandChainActive = false := by
  unfold apduOf at hnot
  unfold handleIso4Payload
  cases hchain : app.commandChainActive with
  | true =>
    obtain ⟨hinactive, hoverflow⟩ := hfits hchain
    have hsmall : ¬(maxMsgSize < app.requestLen ∨ maxMsgSize - app.requestLen < payload.length) := by
      simpa [overflows, hchain] using hoverflow
    rw [if_neg (by simp), if_neg (by simp), if_neg (by simp [hinactive]), if_neg (by simp),
      if_pos rfl, handleAssembledPayload_fits hsmall]
    refine noChain_handleApdu rfl ?_ _ _
    intro apdu hparsed
    refine hnot apdu ?_
    rw [if_neg (by simp [hinactive, hoverflow, hchain]), assembledFrame, if_pos hchain]
    exact hparsed
  | false =>
    have hoverflow : overflows app payload = false := by simp [overflows, hchain]
    by_cases hempty : payload = []
    · rw [if_pos (by simp [hempty])]
      exact hchain
    · rw [if_neg (by simp [hempty])]
      by_cases hnative : (payload == [0x60] || payload == [0xAF]) = true
      · rw [if_pos (by rw [hnative]; rfl)]
        unfold handleNativeDesfire
        split_ifs <;> exact hchain
      · rw [if_neg (by rw [Bool.not_eq_true] at hnative; rw [hnative]; simp)]
        by_cases hactive : requestWorkerActive app = true
        · rw [if_pos hactive]
          exact (quiet_sendApduPayload _ _ _).chain hchain
        · rw [if_neg hactive, if_neg (by simp), if_neg (by simp)]
          show (if defers app then _ else _ : NfcApp).commandChainActive = false
          by_cases hdefers : defers app = true
          · rw [if_pos hdefers]
            exact (quiet_sendDeferredResponseOrWtx _ _).chain hchain
          · rw [if_neg hdefers]
            refine noChain_handleApdu hchain ?_ _ _
            intro apdu hparsed
            refine hnot apdu ?_
            rw [if_neg (by simp [hactive, hoverflow, hdefers]), assembledFrame,
              if_neg (by simp [hchain])]
            exact hparsed

/-- What the callback's command has returned begins no chain. -/
theorem noChain_callbackReturns (hchain : app.commandChainActive = false) (response : Bytes)
    (surroundings : Surroundings) :
    (callbackReturns app response surroundings).commandChainActive = false := by
  unfold callbackReturns
  split
  · exact hchain
  · unfold finishCtap2Direct
    dsimp only
    split_ifs
    · exact hchain
    · exact (quiet_sendApduPayload _ _ _).chain hchain
    · exact (quiet_beginChainedApduPayload _ _ _ _).chain hchain
    · exact (quiet_sendGetResponse _ _ _).chain rfl
  · exact (quiet_sendU2fResponse _ _ _ _).chain hchain

/-- The steps in the background touch neither the blocks nor the chain. -/
theorem background_run {events : List BlockEvent} (hevents : ∀ event ∈ events, event.Background) :
    ∃ app : NfcApp, run (blockStep handlers) layer events = { layer with exchange := app } ∧
      app.commandChainActive = layer.exchange.commandChainActive := by
  induction events generalizing layer with
  | nil => exact ⟨layer.exchange, rfl, rfl⟩
  | cons event rest ih =>
    obtain ⟨middle, hmiddle, hsame⟩ :=
      @background_step handlers layer event (hevents event List.mem_cons_self)
    obtain ⟨app, happ, hchain⟩ := @ih { layer with exchange := middle } fun later hmem ↦
      hevents later (List.mem_cons_of_mem _ hmem)
    rw [run_cons, hmiddle]
    exact ⟨app, happ, hchain.trans hsame⟩

/-- The block is looked at. -/
theorem blockStep_received (h : Retransmittable layer block) (capabilities : NfcCapabilities)
    (surroundings : Surroundings) :
    blockStep handlers layer (.iBlock block capabilities surroundings) =
      receiveIBlock handlers layer block capabilities surroundings := by
  show (if layer.exchange.stopping || layer.exchange.callback != .idle then layer
    else receiveIBlock handlers layer block capabilities surroundings) = _
  rw [if_neg (by simp [h.callback, h.running])]

/-- A new block is given to the exchange. -/
theorem blockStep_new (h : Retransmittable layer block) (hbare : announcesCid block.pcb = false)
    (capabilities : NfcCapabilities) (surroundings : Surroundings) :
    blockStep handlers layer (.iBlock block capabilities surroundings) =
      passOn handlers (synced layer block.pcb) block capabilities surroundings := by
  have hfresh : ¬(layer.exchange.commandChainActive = false ∧
      isDuplicateCompleteIBlock (synced layer block.pcb) block = true) := by
    rintro ⟨hchain, hduplicate⟩
    rcases h.fresh with hactive | hnew
    · rw [hchain] at hactive
      contradiction
    · rw [syncIBlockHeader_eq, hduplicate] at hnew
      contradiction
  rw [blockStep_received h, receiveIBlock_bare _ _ (IBlock.received_of_short h.short) h.carries
    hbare, if_neg hfresh]

/-- A block that is answered announces no CID. -/
theorem AnswerSent.bare {events : List BlockEvent} (hevents : AnswerSent handlers layer block events)
    (h : Retransmittable layer block) : announcesCid block.pcb = false := by
  by_contra hcid
  rw [Bool.not_eq_false] at hcid
  have hdropped (capabilities : NfcCapabilities) (surroundings : Surroundings) :
      blockStep handlers layer (.iBlock block capabilities surroundings) =
        synced layer block.pcb :=
    (blockStep_received h _ _).trans (receiveIBlock_announcesCid _ _
      (IBlock.received_of_short h.short) h.carries hcid _ _)
  cases hevents with
  | atOnce capabilities surroundings hidle hsent =>
    rw [hdropped] at hsent
    exact hsent rfl
  | later capabilities surroundings during response outcome hruns hduring hsent =>
    rw [hdropped] at hruns
    exact hruns h.callback

end Handling

section Theorem

variable {handlers : Handlers} {layer : BlockLayer} {block : IBlock}

/-- A block whose answer is sent is executed once and remembered. -/
theorem AnswerSent.remembered {events : List BlockEvent} (hevents : AnswerSent handlers layer block events)
    (h : Retransmittable layer block) :
    ∃ frame, Remembered (run (blockStep handlers) layer events) block frame ∧
      (run (blockStep handlers) layer events).sentFrames.getLast? = some frame ∧
      (run (blockStep handlers) layer events).executed = layer.executed + 1 := by
  have hbare := hevents.bare h
  have hchain := @noChain_handleIso4Payload handlers (synced layer block.pcb).exchange block.pcb
    block.payload h.fits h.notCollected
  cases hevents with
  | atOnce capabilities surroundings hidle hsent =>
    rw [run_cons, run_nil]
    rw [blockStep_new h hbare] at hsent ⊢
    unfold passOn at hsent ⊢
    dsimp only at hsent ⊢
    have hoverflow : (overflows (synced layer block.pcb).exchange block.payload &&
        !requestWorkerActive (synced layer block.pcb).exchange) = false := by
      show (overflows layer.exchange block.payload && !requestWorkerActive layer.exchange) = false
      cases hactive : layer.exchange.commandChainActive with
      | true => rw [(h.fits hactive).2, Bool.false_and]
      | false => simp [overflows, hactive]
    obtain ⟨frame, hremembered, hlast⟩ := answer_remembered (hchain capabilities surroundings) rfl
      hbare h.carries h.short hoverflow hsent
    exact ⟨frame, hremembered, hlast, (answer_rest _ _ _ _).2.2.2⟩
  | later capabilities surroundings during response outcome hruns hduring hsent =>
    rw [List.cons_append, run_cons, run_append, run_cons, run_nil] at hsent ⊢
    rw [run_cons] at hsent
    rw [blockStep_new h hbare] at hsent hruns ⊢
    generalize hpassed : passOn handlers (synced layer block.pcb) block capabilities
      surroundings = passed at hsent hruns ⊢
    have hrest : passed.exchange.commandChainActive = false ∧ passed.isoCid = none ∧
        passed.answering = some block ∧ passed.executed = layer.executed + 1 := by
      rw [← hpassed] at hruns ⊢
      unfold passOn at hruns ⊢
      dsimp only at hruns ⊢
      rw [(answer_rest _ _ _ _).1] at hruns ⊢
      rw [(answer_rest _ _ _ _).2.1, (answer_rest _ _ _ _).2.2.1, (answer_rest _ _ _ _).2.2.2]
      exact ⟨hchain capabilities surroundings, rfl, if_neg hruns, rfl⟩
    obtain ⟨hnoChain, hcid, hanswering, hexecuted⟩ := hrest
    obtain ⟨app, hbackground, happ⟩ := @background_run handlers passed during hduring
    rw [hbackground] at hsent ⊢
    have hreturns : blockStep handlers { passed with exchange := app }
        (.callbackReturns response outcome) =
        answer { passed with exchange := app, answering := none } block
          (callbackReturns app response outcome) false false outcome.sent := by
      unfold blockStep
      dsimp only
      rw [hanswering]
    rw [hreturns] at hsent ⊢
    have hcid' : ({ passed with exchange := app, answering := none } : BlockLayer).isoCid = none :=
      hcid
    obtain ⟨frame, hremembered, hlast⟩ := answer_remembered
      (noChain_callbackReturns (happ.trans hnoChain) response outcome) hcid' hbare h.carries h.short
      rfl hsent
    exact ⟨frame, hremembered, hlast, (answer_rest _ _ _ _).2.2.2.trans hexecuted⟩

/-- A block whose answer has been sent, and that is then received again any number of times, is
executed once, and whatever is sent to the retransmissions is the frame of the answer. -/
theorem retransmission_idempotent {events later : List BlockEvent} (h : Retransmittable layer block)
    (hanswered : AnswerSent handlers layer block events) (hlater : ∀ event ∈ later, event.Again block) :
    let answered := run (blockStep handlers) layer events
    let final := run (blockStep handlers) answered later
    final.executed = layer.executed + 1 ∧ ∃ frame count,
      answered.sentFrames.getLast? = some frame ∧
        final.sentFrames = answered.sentFrames ++ List.replicate count frame := by
  intro answered final
  obtain ⟨frame, hremembered, hlast, hexecuted⟩ := hanswered.remembered h
  obtain ⟨hsame, count, hsent⟩ := @run_again handlers answered block frame hremembered later hlater
  exact ⟨hsame.trans hexecuted, frame, count, hlast, hsent⟩

/-- The applet is selected, and no block has been remembered. -/
def selectedLayer : BlockLayer := { exchange := nfcStep .withoutU2f {} selectFido }

/-- A getAssertion that the callback runs. -/
def directBlock : IBlock where
  pcb := 0x03
  body := [0x80, 0x10, 0x00, 0x00, 0x02, 0x02, 0xA0]

/-- The block is received; the listener sends it or not. -/
def directReceived (sent : Bool) : BlockEvent :=
  .iBlock directBlock { fido2Enabled := true, u2fEnabled := false } { sent }

theorem retransmission_idempotent_direct :
    let answered := run (blockStep .withoutU2f) selectedLayer
      [directReceived true, .callbackReturns [0x00] {}]
    let final := run (blockStep .withoutU2f) answered [directReceived false, directReceived true]
    final.executed = 0 + 1 ∧ ∃ frame count, answered.sentFrames.getLast? = some frame ∧
      final.sentFrames = answered.sentFrames ++ List.replicate count frame := by
  refine @retransmission_idempotent .withoutU2f selectedLayer directBlock _ _ ?_ ?_ ?_
  · refine ⟨by decide +kernel, by decide +kernel, by decide, Or.inr rfl, by decide, ?_, ?_⟩
    · intro hchain
      exact absurd hchain (by decide +kernel)
    · have hapdu : apduOf selectedLayer.exchange directBlock.payload =
          some { cla := 0x80, ins := 0x10, p1 := 0x00, p2 := 0x00, data := [0x02, 0xA0] } := by
        decide +kernel
      intro apdu hsome hmessage
      rw [hapdu] at hsome
      obtain rfl := Option.some.inj hsome
      exact absurd hmessage.chained (by decide)
  · refine AnswerSent.later { fido2Enabled := true, u2fEnabled := false } {} [] [0x00] {} ?_ ?_ ?_
    · decide +kernel
    · simp
    · decide +kernel
  · intro event hmem
    simp only [List.mem_cons, List.not_mem_nil, or_false] at hmem
    rcases hmem with rfl | rfl
    · exact .block _ _
    · exact .block _ _

/-- When the answer is not sent, the command runs again. -/
theorem unsent_answer_repeats_command :
    let once := run (blockStep .withoutU2f) selectedLayer
      [directReceived true, .callbackReturns [0x00] { sent := false }]
    let twice := run (blockStep .withoutU2f) once
      [directReceived true, .callbackReturns [0x00] {}]
    once.exchange.handed = [[0x02, 0xA0]] ∧ twice.exchange.handed = [[0x02, 0xA0], [0x02, 0xA0]] ∧
      twice.executed = selectedLayer.executed + 2 := by
  decide +kernel

/-- A block of 251 bytes is executed twice although its answer is sent. -/
example :
    let block : IBlock := { pcb := 0x03, body := List.replicate 251 0x80 }
    let received : BlockEvent := .iBlock block { fido2Enabled := true, u2fEnabled := false } {}
    (run (blockStep .withoutU2f) selectedLayer [received, received]).executed = 2 := by
  decide +kernel

/-- So is a chained APDU, whose second answer is another one. -/
example :
    let block : IBlock := { pcb := 0x03, body := [0x90, 0x10, 0x00, 0x00, 0x01, 0x02] }
    let received : BlockEvent := .iBlock block { fido2Enabled := true, u2fEnabled := false } {}
    (run (blockStep .withoutU2f) selectedLayer [received, received]).sentFrames =
      [[0x03, 0x90, 0x00], [0x03, 0x6D, 0x00]] := by
  decide +kernel

end Theorem

end ZeroFido.Nfc
