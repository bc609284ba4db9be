import ZeroFido.Nfc.Retransmission

/-!
# The receive chain

An APDU that arrives in chained I-blocks: `zf_transport_nfc_append_rx_chain_payload_locked` and the
chain branches of `zf_transport_nfc_handle_iso4_payload_locked`, with the acknowledgements. A reader
that misses an acknowledgement repeats the block. The repeat is recognised by its number, its place
and its contents, but only after the test whether it would fit behind itself.

`chain_received_exactly_iff` says when every block and every repeat is acknowledged: when the
listener takes the frames, which have no CID and are not too long, and every repeated block would
fit once more. Then the dispatcher gets the blocks' payloads one after the other, or the exchange is
reset when they are too long.
-/

set_option autoImplicit false
set_option relaxedAutoImplicit false

namespace ZeroFido.Nfc

open Foundations

section Operations

/-- An R(ACK) frame. -/
def rAckFrame (cid : Option UInt8) (pcb : UInt8) : Bytes :=
  (0xA2 ||| (pcb &&& 0x01) ||| cidBit cid) :: cid.toList

/-- `zf_transport_nfc_handle_iso4_payload_locked` for a chained I-block, and the part of
`zf_transport_nfc_event_callback` before it, which takes a frame of one byte for a question about
the last response. -/
def receiveChainedBlock (layer : BlockLayer) (block : IBlock) (sent : Bool) : BlockLayer :=
  if ¬block.Received then layer
  else if block.body = [] then handleEmptyIBlock layer block.pcb sent
  else
    match syncIBlockHeader layer block with
    | (layer, false) => layer
    | (layer, true) =>
      if requestWorkerActive layer.exchange then
        answer layer block (sendBusyStatus layer.exchange) false false sent
      else
        match appendRxChainPayload layer.exchange block.pcb block.payload with
        | (.ok, next) => sendRAck { layer with exchange := next } block.pcb sent
        | (.duplicate, next) => sendRAck { layer with exchange := next } block.pcb sent
        | (.stalled, next) =>
          { forgetAfterReset layer (clearTxChain (resetExchange next)) with iso4LastTx := none }
        | (.overflow, next) =>
          answer layer block (sendStatusWord (resetExchange next) swWrongLength) false true sent

/-- A chained block as it is received once, with what the listener reports about the answer. -/
structure ChainFrame where
  block : IBlock
  sent : Bool
  deriving DecidableEq, Repr

def receiveFrame (layer : BlockLayer) (frame : ChainFrame) : BlockLayer :=
  receiveChainedBlock layer frame.block frame.sent

/-- A chained block of an APDU: it is received once and then once more for every entry of
`repeats`. -/
structure ChainBlock where
  payload : Bytes
  sent : Bool := true
  repeats : List Bool := []
  deriving DecidableEq, Repr

/-- The frames of a chain whose first block has the given PCB. The block numbers alternate. -/
def chainFrames (cid : Option UInt8) : UInt8 → List ChainBlock → List ChainFrame
  | _, [] => []
  | pcb, block :: rest =>
    (block.sent :: block.repeats).map (fun sent ↦ ⟨⟨pcb, cid.toList ++ block.payload⟩, sent⟩) ++
      chainFrames cid (pcb ^^^ 0x01) rest

/-- The bytes that the blocks of a chain carry. -/
def chainPayload (blocks : List ChainBlock) : Bytes := blocks.flatMap ChainBlock.payload

end Operations

section Append

variable {app : NfcApp} {collected payload : Bytes} {pcb : UInt8} {count : ℕ}

/-- The exchange has collected these bytes of an APDU. -/
structure Collecting (collected : Bytes) (app : NfcApp) : Prop where
  inactive : requestWorkerActive app = false
  attached : app.arenaAttached = true
  arena : app.transportArena.length = transportArenaSize
  requestLen : app.requestLen = collected.length
  holds : app.transportArena.take collected.length = collected
  fits : collected.length ≤ maxMsgSize

/-- The block whose payload was appended last, and how often it has been repeated. -/
structure LastAppended (collected payload : Bytes) (pcb : UInt8) (count : ℕ) (app : NfcApp) :
    Prop where
  chain : app.commandChainActive = true
  valid : app.rxChainLastValid = true
  pcb : app.rxChainLastPcb = pcb
  len : app.rxChainLastLen = payload.length
  offset : app.rxChainLastOffset + payload.length = collected.length
  contents : collected.drop app.rxChainLastOffset = payload
  count : app.rxChainDuplicateCount = count

/-- The next block cannot be taken for a repeat of the last one. -/
def FreshNumber (pcb : UInt8) (app : NfcApp) : Prop :=
  app.rxChainLastValid = true → app.rxChainLastPcb ≠ pcb

/-- The exchange after a block has been appended. -/
def appended (app : NfcApp) (pcb : UInt8) (payload : Bytes) : NfcApp :=
  { app with
    transportArena := writeArena app.transportArena app.requestLen payload
    requestLen := app.requestLen + payload.length
    commandChainActive := true
    rxChainLastValid := true
    rxChainLastPcb := pcb
    rxChainDuplicateCount := 0
    rxChainLastOffset := app.requestLen
    rxChainLastLen := payload.length }

theorem Collecting.within (h : Collecting collected app)
    (hfits : collected.length + payload.length ≤ maxMsgSize) :
    (!app.arenaAttached || decide (maxMsgSize < app.requestLen) ||
      decide (maxMsgSize - app.requestLen < payload.length)) = false := by
  have hlen := h.requestLen
  have hbound := h.fits
  simp only [h.attached, Bool.not_true, Bool.false_or, Bool.or_eq_false_iff,
    decide_eq_false_iff_not]
  omega

theorem length_writeArena {arena data : Bytes} {offset : ℕ}
    (hfits : offset + data.length ≤ arena.length) :
    (writeArena arena offset data).length = arena.length := by
  simp only [writeArena, List.length_append, List.length_take, List.length_drop]
  omega

/-- A new block that fits is appended. -/
theorem appendRxChainPayload_fresh (h : Collecting collected app) (hfresh : FreshNumber pcb app)
    (hfits : collected.length + payload.length ≤ maxMsgSize) :
    appendRxChainPayload app pcb payload = (.ok, appended app pcb payload) := by
  have hnew : isRxChainDuplicate app pcb payload = false := by
    unfold isRxChainDuplicate
    cases hvalid : app.rxChainLastValid with
    | false => rfl
    | true =>
      have hpcb : (app.rxChainLastPcb == pcb) = false := by simpa using hfresh hvalid
      rw [hpcb]
      rfl
  rw [appendRxChainPayload, h.within hfits, if_neg (by decide), hnew, if_neg (by decide)]
  rfl

theorem Collecting.appended (h : Collecting collected app) (pcb : UInt8)
    (hfits : collected.length + payload.length ≤ maxMsgSize) :
    Collecting (collected ++ payload) (appended app pcb payload) := by
  have hsize : transportArenaSize = 1026 := rfl
  have hmax : maxMsgSize = 1024 := rfl
  have harena := h.arena
  have hlen := h.requestLen
  constructor
  · exact h.inactive
  · exact h.attached
  · show (writeArena app.transportArena app.requestLen payload).length = transportArenaSize
    rw [length_writeArena (by omega), harena]
  · rw [List.length_append, ← hlen]
    rfl
  · show (writeArena app.transportArena app.requestLen payload).take _ = _
    rw [List.length_append, ← hlen, take_writeArena_append, hlen, h.holds]
  · rw [List.length_append]
    exact hfits

theorem Collecting.lastAppended (h : Collecting collected app) (pcb : UInt8) (payload : Bytes) :
    LastAppended (collected ++ payload) payload pcb 0 (Nfc.appended app pcb payload) := by
  refine ⟨rfl, rfl, rfl, rfl, ?_, ?_, rfl⟩
  · show app.requestLen + payload.length = (collected ++ payload).length
    rw [List.length_append, h.requestLen]
  · show (collected ++ payload).drop app.requestLen = payload
    rw [h.requestLen, List.drop_left]

/-- A repeat of the last block is recognised. -/
theorem isRxChainDuplicate_of_last (h : Collecting collected app)
    (hlast : LastAppended collected payload pcb count app) :
    isRxChainDuplicate app pcb payload = true := by
  have hcontents : (app.transportArena.drop app.rxChainLastOffset).take payload.length =
      payload := by
    rw [List.take_drop, hlast.offset, h.holds, hlast.contents]
  simp [isRxChainDuplicate, hlast.valid, hlast.pcb, hlast.len, hlast.offset, h.requestLen,
    hcontents]

/-- The exchange after a repeat has been recognised. -/
def repeated (app : NfcApp) : NfcApp :=
  { app with rxChainDuplicateCount := app.rxChainDuplicateCount + 1 }

/-- A repeat that fits behind its original is counted, and changes nothing else. -/
theorem appendRxChainPayload_repeated (h : Collecting collected app)
    (hlast : LastAppended collected payload pcb count app) (hcount : count < rxChainDuplicateLimit)
    (hfits : collected.length + payload.length ≤ maxMsgSize) :
    appendRxChainPayload app pcb payload = (.duplicate, repeated app) := by
  rw [appendRxChainPayload, h.within hfits, if_neg (by decide), isRxChainDuplicate_of_last h hlast,
    if_pos rfl, if_neg (by rw [hlast.count]; omega)]
  rfl

theorem Collecting.repeated (h : Collecting collected app) : Collecting collected (repeated app) :=
  ⟨h.inactive, h.attached, h.arena, h.requestLen, h.holds, h.fits⟩

theorem LastAppended.repeated (h : LastAppended collected payload pcb count app) :
    LastAppended collected payload pcb (count + 1) (Nfc.repeated app) :=
  ⟨h.chain, h.valid, h.pcb, h.len, h.offset, h.contents, congrArg (· + 1) h.count⟩

/-- What does not fit is refused, a repeat as well as a new block. -/
theorem appendRxChainPayload_overflow (h : Collecting collected app)
    (hlong : maxMsgSize < collected.length + payload.length) :
    appendRxChainPayload app pcb payload = (.overflow, app) := by
  have hlen := h.requestLen
  have hbound := h.fits
  rw [appendRxChainPayload, if_pos]
  simp only [Bool.or_eq_true, decide_eq_true_eq]
  omega

end Append

section Frames

variable {layer : BlockLayer} {block : IBlock} {collected payload : Bytes} {pcb : UInt8} {count : ℕ}

/-- The listener takes the frame for a block of a chain: it is not too long, it has more than one
byte, and its header is accepted. -/
structure IBlock.Taken (block : IBlock) : Prop where
  received : block.Received
  several : block.body ≠ []
  bare : announcesCid block.pcb = false

theorem Collecting.received {app : NfcApp} (h : Collecting collected app) :
    Collecting collected (blockReceived app) :=
  ⟨h.inactive, h.attached, h.arena, h.requestLen, h.holds, h.fits⟩

theorem LastAppended.received {app : NfcApp} (h : LastAppended collected payload pcb count app) :
    LastAppended collected payload pcb count (blockReceived app) :=
  ⟨h.chain, h.valid, h.pcb, h.len, h.offset, h.contents, h.count⟩

/-- A frame that is taken. -/
theorem receiveChainedBlock_taken (h : block.Taken) (sent : Bool) :
    receiveChainedBlock layer block sent =
      if requestWorkerActive (blockReceived layer.exchange) then
        answer (synced layer block.pcb) block (sendBusyStatus (blockReceived layer.exchange)) false
          false sent
      else
        match appendRxChainPayload (blockReceived layer.exchange) block.pcb block.body with
        | (.ok, next) => sendRAck { synced layer block.pcb with exchange := next } block.pcb sent
        | (.duplicate, next) =>
          sendRAck { synced layer block.pcb with exchange := next } block.pcb sent
        | (.stalled, next) =>
          { forgetAfterReset (synced layer block.pcb) (clearTxChain (resetExchange next)) with
            iso4LastTx := none }
        | (.overflow, next) =>
          answer (synced layer block.pcb) block
            (sendStatusWord (resetExchange next) swWrongLength) false true sent := by
  unfold receiveChainedBlock
  rw [if_neg (not_not.mpr h.received), if_neg h.several, syncIBlockHeader_eq, h.bare,
    IBlock.payload_bare h.bare]
  rfl

/-- To the exchange a frame that is taken is a chained block. -/
theorem exchange_receiveChainedBlock (handlers : Handlers) (h : block.Taken) (sent : Bool)
    (capabilities : NfcCapabilities) (surroundings : Surroundings) :
    (receiveChainedBlock layer block sent).exchange = handleIso4Payload handlers
      (blockReceived layer.exchange) block.pcb block.payload true capabilities surroundings := by
  rw [receiveChainedBlock_taken h, IBlock.payload_bare h.bare]
  by_cases hactive : requestWorkerActive (blockReceived layer.exchange) = true
  · rw [if_pos hactive, (answer_rest _ _ _ _).1]
    unfold handleIso4Payload
    rw [if_neg (by simp), if_neg (by simp), if_pos hactive]
  · rw [if_neg hactive]
    unfold handleIso4Payload
    rw [if_neg (by simp), if_neg (by simp), if_neg hactive, if_pos rfl]
    generalize appendRxChainPayload (blockReceived layer.exchange) block.pcb block.body = outcome
    obtain ⟨result, next⟩ := outcome
    cases result with
    | ok => exact (framed_sendFrame _ _ _).exchange
    | duplicate => exact (framed_sendFrame _ _ _).exchange
    | stalled => rfl
    | overflow => exact (answer_rest _ _ _ _).1

/-- The frame is answered with the acknowledgement of its block, which arrives when the listener
can send it. -/
structure Acknowledged (layer : BlockLayer) (frame : ChainFrame) : Prop where
  triedFrames : (receiveFrame layer frame).triedFrames = layer.triedFrames ++
    [rAckFrame frame.block.cid frame.block.pcb]
  sentFrames : (receiveFrame layer frame).sentFrames = layer.sentFrames ++
    if frame.sent then [rAckFrame frame.block.cid frame.block.pcb] else []

theorem isIBlockPcb_rAckFrame (cid : Option UInt8) (pcb : UInt8) :
    isIBlockPcb ((rAckFrame cid pcb).getD 0 0) = false := by
  have hbits : ∀ odd cid : Bool, isIBlockPcb (0xA2 ||| (if odd then 1 else 0) |||
      (if cid then 0x08 else 0x00)) = false := by
    decide
  unfold rAckFrame cidBit
  rw [List.getD_cons_zero]
  rcases and_one_cases pcb with hzero | hone
  · rw [hzero]
    exact hbits false cid.isSome
  · rw [hone]
    exact hbits true cid.isSome

/-- A frame to which another I-block is tried is not acknowledged. -/
theorem not_acknowledged_of_iBlock {frame : ChainFrame} {reply : Bytes}
    (htried : (receiveFrame layer frame).triedFrames = layer.triedFrames ++ [reply])
    (hreply : isIBlockPcb (reply.getD 0 0) = true) : ¬Acknowledged layer frame := by
  intro hacknowledged
  have hsame : reply = rAckFrame frame.block.cid frame.block.pcb := by
    have hboth := htried.symm.trans hacknowledged.triedFrames
    exact List.singleton_inj.mp (List.append_cancel_left hboth)
  rw [hsame, isIBlockPcb_rAckFrame] at hreply
  exact absurd hreply (by decide)

/-- Of several bytes, only a frame that is taken is acknowledged. -/
theorem taken_of_acknowledged {frame : ChainFrame} (hseveral : frame.block.body ≠ [])
    (h : Acknowledged layer frame) : frame.block.Taken := by
  by_contra hnot
  have hsilent : (receiveFrame layer frame).triedFrames = layer.triedFrames := by
    unfold receiveFrame receiveChainedBlock
    by_cases hreceived : frame.block.Received
    · have hcid : announcesCid frame.block.pcb = true := by
        by_contra hbare
        exact hnot ⟨hreceived, hseveral, by simpa using hbare⟩
      rw [if_neg (not_not.mpr hreceived), if_neg hseveral, syncIBlockHeader_eq, hcid]
      rfl
    · rw [if_pos hreceived]
  have htried := h.triedFrames
  rw [hsilent] at htried
  exact absurd htried.symm (by simp)

/-- A block that is appended or recognised as a repeat is acknowledged, and the response that is
kept stays. -/
theorem receiveFrame_acknowledged (h : Collecting collected layer.exchange)
    (htaken : IBlock.Taken ⟨pcb, payload⟩) (sent : Bool) {result : RxChainAppendResult}
    {next : NfcApp}
    (happend : appendRxChainPayload (blockReceived layer.exchange) pcb payload = (result, next))
    (hresult : result = .ok ∨ result = .duplicate) :
    (receiveFrame layer ⟨⟨pcb, payload⟩, sent⟩).exchange = next ∧
      Acknowledged layer ⟨⟨pcb, payload⟩, sent⟩ ∧
      (receiveFrame layer ⟨⟨pcb, payload⟩, sent⟩).iso4LastTx = layer.iso4LastTx := by
  have hinactive : requestWorkerActive (blockReceived layer.exchange) = false := h.inactive
  have heq : receiveFrame layer ⟨⟨pcb, payload⟩, sent⟩ =
      sendFrame { synced layer pcb with exchange := next } (rAckFrame none pcb) sent := by
    unfold receiveFrame
    rw [receiveChainedBlock_taken htaken, hinactive, if_neg (by decide), happend]
    rcases hresult with rfl | rfl <;> rfl
  have hcid : (IBlock.mk pcb payload).cid = none := IBlock.cid_bare htaken.bare
  have hkept : isReplayableIsoIResponse (rAckFrame none pcb) = false := by
    rw [isReplayableIsoIResponse, isIBlockPcb_rAckFrame, Bool.and_false]
  refine ⟨?_, ⟨?_, ?_⟩, ?_⟩
  · rw [heq]
    exact (framed_sendFrame _ _ _).exchange
  · rw [heq, hcid]
    cases sent <;> rfl
  · rw [heq, hcid]
    cases sent
    · exact (List.append_nil _).symm
    · rfl
  · rw [heq]
    cases sent
    · rfl
    · simp [sendFrame, hkept, synced]

/-- A block that does not fit is answered with the status word of a wrong length, and the exchange
is reset. -/
theorem receiveFrame_overflow (h : Collecting collected layer.exchange)
    (htaken : IBlock.Taken ⟨pcb, payload⟩) (sent : Bool)
    (hlong : maxMsgSize < collected.length + payload.length) :
    (receiveFrame layer ⟨⟨pcb, payload⟩, sent⟩).exchange =
        sendStatusWord (resetExchange (blockReceived layer.exchange)) swWrongLength ∧
      ¬Acknowledged layer ⟨⟨pcb, payload⟩, sent⟩ := by
  have hinactive : requestWorkerActive (blockReceived layer.exchange) = false := h.inactive
  have happend := @appendRxChainPayload_overflow _ _ payload pcb h.received hlong
  have hanswer : receiveFrame layer ⟨⟨pcb, payload⟩, sent⟩ =
      answer (synced layer pcb) ⟨pcb, payload⟩
        (sendStatusWord (resetExchange (blockReceived layer.exchange)) swWrongLength) false true
        sent := by
    unfold receiveFrame
    rw [receiveChainedBlock_taken htaken, hinactive, if_neg (by decide), happend]
  have hreply : (sendStatusWord (resetExchange (blockReceived layer.exchange))
      swWrongLength).transmitted.drop (synced layer pcb).exchange.transmitted.length =
      [statusWordBytes swWrongLength] :=
    List.drop_left
  constructor
  · rw [hanswer]
    exact (answer_rest _ false true sent).1
  · refine not_acknowledged_of_iBlock ?_ (isIBlockPcb_isoResponse (synced layer pcb)
      (statusWordBytes swWrongLength) false)
    rw [hanswer]
    unfold answer
    dsimp only
    rw [hreply, if_neg (by simp)]
    cases sent <;> rfl

/-- A new block that fits. -/
theorem receiveFrame_fresh (h : Collecting collected layer.exchange)
    (htaken : IBlock.Taken ⟨pcb, payload⟩) (hfresh : FreshNumber pcb layer.exchange) (sent : Bool)
    (hfits : collected.length + payload.length ≤ maxMsgSize) :
    Collecting (collected ++ payload) (receiveFrame layer ⟨⟨pcb, payload⟩, sent⟩).exchange ∧
      LastAppended (collected ++ payload) payload pcb 0
        (receiveFrame layer ⟨⟨pcb, payload⟩, sent⟩).exchange ∧
      Acknowledged layer ⟨⟨pcb, payload⟩, sent⟩ ∧
      (receiveFrame layer ⟨⟨pcb, payload⟩, sent⟩).iso4LastTx = layer.iso4LastTx := by
  have happend := @appendRxChainPayload_fresh _ _ payload pcb h.received hfresh hfits
  obtain ⟨hexchange, hrest⟩ := receiveFrame_acknowledged h htaken sent happend (Or.inl rfl)
  rw [hexchange]
  exact ⟨h.received.appended pcb hfits, h.received.lastAppended pcb payload, hrest⟩

/-- A repeat that fits once more. -/
theorem receiveFrame_repeated (h : Collecting collected layer.exchange)
    (htaken : IBlock.Taken ⟨pcb, payload⟩)
    (hlast : LastAppended collected payload pcb count layer.exchange)
    (hcount : count < rxChainDuplicateLimit) (sent : Bool)
    (hfits : collected.length + payload.length ≤ maxMsgSize) :
    Collecting collected (receiveFrame layer ⟨⟨pcb, payload⟩, sent⟩).exchange ∧
      LastAppended collected payload pcb (count + 1)
        (receiveFrame layer ⟨⟨pcb, payload⟩, sent⟩).exchange ∧
      Acknowledged layer ⟨⟨pcb, payload⟩, sent⟩ ∧
      (receiveFrame layer ⟨⟨pcb, payload⟩, sent⟩).iso4LastTx = layer.iso4LastTx := by
  have happend := appendRxChainPayload_repeated h.received hlast.received hcount hfits
  obtain ⟨hexchange, hrest⟩ := receiveFrame_acknowledged h htaken sent happend (Or.inr rfl)
  rw [hexchange]
  exact ⟨h.received.repeated, hlast.received.repeated, hrest⟩

end Frames

section Chains

variable {layer : BlockLayer} {collected payload : Bytes} {pcb : UInt8} {count : ℕ}
  {blocks : List ChainBlock}

/-- Every block that is repeated would fit once more behind what has been collected with it. -/
def RepeatsFit : ℕ → List ChainBlock → Prop
  | _, [] => True
  | collected, block :: rest =>
    (block.repeats ≠ [] → collected + 2 * block.payload.length ≤ maxMsgSize) ∧
      RepeatsFit (collected + block.payload.length) rest

instance decidableRepeatsFit : ∀ (collected : ℕ) (blocks : List ChainBlock),
    Decidable (RepeatsFit collected blocks)
  | _, [] => isTrue trivial
  | collected, block :: rest =>
    haveI := decidableRepeatsFit (collected + block.payload.length) rest
    inferInstanceAs (Decidable
      ((block.repeats ≠ [] → collected + 2 * block.payload.length ≤ maxMsgSize) ∧
        RepeatsFit (collected + block.payload.length) rest))

/-- The repeats of a block. -/
theorem run_repeats (h : Collecting collected layer.exchange)
    (htaken : IBlock.Taken ⟨pcb, payload⟩)
    (hlast : LastAppended collected payload pcb count layer.exchange) (repeats : List Bool)
    (hcount : count + repeats.length ≤ rxChainDuplicateLimit)
    (hfits : repeats ≠ [] → collected.length + payload.length ≤ maxMsgSize) :
    let frames : List ChainFrame := repeats.map fun sent ↦ ⟨⟨pcb, payload⟩, sent⟩
    EveryStep receiveFrame Acknowledged layer frames ∧
      Collecting collected (run receiveFrame layer frames).exchange ∧
      LastAppended collected payload pcb (count + repeats.length)
        (run receiveFrame layer frames).exchange ∧
      (run receiveFrame layer frames).iso4LastTx = layer.iso4LastTx := by
  induction repeats generalizing layer count with
  | nil => exact ⟨trivial, h, hlast, rfl⟩
  | cons sent rest ih =>
    rw [List.length_cons] at hcount
    have hroom := hfits (List.cons_ne_nil sent rest)
    obtain ⟨hcollecting, hlast', hacknowledged, hkept⟩ :=
      receiveFrame_repeated h htaken hlast (by omega) sent hroom
    obtain ⟨hrest, hfinal, hfinalLast, hfinalKept⟩ :=
      ih hcollecting hlast' (by omega) fun _ ↦ hroom
    refine ⟨⟨hacknowledged, hrest⟩, hfinal, ?_, hfinalKept.trans hkept⟩
    rw [List.length_cons, Nat.add_comm rest.length 1, ← Nat.add_assoc]
    exact hfinalLast

/-- The frames in which one block of a chain is received. -/
def blockFrames (cid : Option UInt8) (pcb : UInt8) (block : ChainBlock) : List ChainFrame :=
  (block.sent :: block.repeats).map fun sent ↦ ⟨⟨pcb, cid.toList ++ block.payload⟩, sent⟩

/-- A new block and its repeats. -/
theorem run_blockFrames {block : ChainBlock} (h : Collecting collected layer.exchange)
    (hfresh : FreshNumber pcb layer.exchange) (htaken : IBlock.Taken ⟨pcb, block.payload⟩)
    (hcount : block.repeats.length ≤ rxChainDuplicateLimit)
    (hfits : collected.length + block.payload.length ≤ maxMsgSize)
    (hroom : block.repeats ≠ [] → collected.length + 2 * block.payload.length ≤ maxMsgSize) :
    EveryStep receiveFrame Acknowledged layer (blockFrames none pcb block) ∧
      Collecting (collected ++ block.payload)
        (run receiveFrame layer (blockFrames none pcb block)).exchange ∧
      LastAppended (collected ++ block.payload) block.payload pcb block.repeats.length
        (run receiveFrame layer (blockFrames none pcb block)).exchange ∧
      (run receiveFrame layer (blockFrames none pcb block)).iso4LastTx = layer.iso4LastTx := by
  obtain ⟨hcollecting, hlast, hacknowledged, hkept⟩ :=
    receiveFrame_fresh h htaken hfresh block.sent hfits
  obtain ⟨hrest, hfinal, hfinalLast, hfinalKept⟩ := run_repeats hcollecting htaken hlast
    block.repeats (by omega) fun hne ↦ by
      have := hroom hne
      rw [List.length_append]
      omega
  refine ⟨⟨hacknowledged, hrest⟩, hfinal, ?_, hfinalKept.trans hkept⟩
  rw [Nat.zero_add] at hfinalLast
  exact hfinalLast

theorem xor_one_ne (number : UInt8) : number ≠ number ^^^ 0x01 := by
  intro h
  have hzero := congrArg (number ^^^ ·) h
  simp only [← UInt8.xor_assoc, UInt8.xor_self, UInt8.zero_xor] at hzero
  exact absurd hzero (by decide)

/-- After a block and its repeats the other number is new. -/
theorem LastAppended.freshNumber {app : NfcApp}
    (h : LastAppended collected payload pcb count app) : FreshNumber (pcb ^^^ 0x01) app :=
  fun _ hsame ↦ xor_one_ne pcb (h.pcb.symm.trans hsame)

theorem chainPayload_cons (block : ChainBlock) (rest : List ChainBlock) :
    chainPayload (block :: rest) = block.payload ++ chainPayload rest := rfl

theorem chainFrames_cons (cid : Option UInt8) (pcb : UInt8) (block : ChainBlock)
    (rest : List ChainBlock) :
    chainFrames cid pcb (block :: rest) =
      blockFrames cid pcb block ++ chainFrames cid (pcb ^^^ 0x01) rest := rfl

/-- The block number is no part of the bit. -/
theorem announcesCid_xor_one (pcb : UInt8) : announcesCid (pcb ^^^ 0x01) = announcesCid pcb := by
  have hbit : (pcb ^^^ 0x01) &&& 0x08 = pcb &&& 0x08 := by
    rw [← UInt8.toNat_inj, UInt8.toNat_and, UInt8.toNat_xor, Nat.and_xor_distrib_right]
    simp
  unfold announcesCid
  rw [hbit]

/-- The frame of a block without a CID fits the listener's buffer. -/
def ChainBlock.Short (block : ChainBlock) : Prop := block.payload.length ≤ maxRxFrameInfSize + 1

instance (block : ChainBlock) : Decidable block.Short := inferInstanceAs (Decidable (_ ≤ _))

theorem ChainBlock.taken {block : ChainBlock} (hne : block.payload ≠ []) (hshort : block.Short)
    (hbare : announcesCid pcb = false) : IBlock.Taken ⟨pcb, block.payload⟩ := by
  refine ⟨?_, hne, hbare⟩
  unfold ChainBlock.Short at hshort
  show block.payload.length + 1 ≤ 2 + maxRxFrameInfSize
  omega

/-- Blocks in frames of more than one byte, repeated no more often than the listener allows. -/
def Receivable (blocks : List ChainBlock) : Prop :=
  ∀ block ∈ blocks, block.payload ≠ [] ∧ block.repeats.length ≤ rxChainDuplicateLimit

theorem Receivable.tail {block : ChainBlock} {rest : List ChainBlock}
    (h : Receivable (block :: rest)) : Receivable rest :=
  fun other hmem ↦ h other (List.mem_cons_of_mem _ hmem)

/-- A chain whose frames are short and whose repeats fit is acknowledged block by block and
collected. -/
theorem run_chainFrames (h : Collecting collected layer.exchange)
    (hfresh : FreshNumber pcb layer.exchange) (hbare : announcesCid pcb = false)
    (hblocks : Receivable blocks) (hshort : ∀ block ∈ blocks, block.Short)
    (hfits : collected.length + (chainPayload blocks).length ≤ maxMsgSize)
    (hrepeats : RepeatsFit collected.length blocks) :
    EveryStep receiveFrame Acknowledged layer (chainFrames none pcb blocks) ∧
      Collecting (collected ++ chainPayload blocks)
        (run receiveFrame layer (chainFrames none pcb blocks)).exchange ∧
      (run receiveFrame layer (chainFrames none pcb blocks)).iso4LastTx = layer.iso4LastTx ∧
      (blocks ≠ [] ∨ layer.exchange.commandChainActive = true →
        (run receiveFrame layer (chainFrames none pcb blocks)).exchange.commandChainActive =
          true) := by
  induction blocks generalizing layer collected pcb with
  | nil =>
    refine ⟨trivial, ?_, rfl, fun h ↦ h.resolve_left (fun h ↦ h rfl)⟩
    rw [chainPayload, List.flatMap_nil, List.append_nil]
    exact h
  | cons block rest ih =>
    obtain ⟨hne, hcount⟩ := hblocks block List.mem_cons_self
    have htaken := ChainBlock.taken hne (hshort block List.mem_cons_self) hbare
    rw [chainPayload_cons, List.length_append] at hfits
    obtain ⟨hacknowledged, hcollecting, hlast, hkept⟩ :=
      run_blockFrames h hfresh htaken hcount (by omega) hrepeats.1
    have hrest := ih hcollecting hlast.freshNumber ((announcesCid_xor_one pcb).trans hbare)
      hblocks.tail (fun other hmem ↦ hshort other (List.mem_cons_of_mem _ hmem))
      (by rw [List.length_append]; omega) (by rw [List.length_append]; exact hrepeats.2)
    rw [List.append_assoc, ← chainPayload_cons] at hrest
    rw [chainFrames_cons, everyStep_append, run_append]
    exact ⟨⟨hacknowledged, hrest.1⟩, hrest.2.1, hrest.2.2.1.trans hkept,
      fun _ ↦ hrest.2.2.2 (Or.inr hlast.chain)⟩

/-- A block that is acknowledged with its repeats is short, and would fit once more if it is
repeated. -/
theorem room_of_acknowledged {block : ChainBlock} (h : Collecting collected layer.exchange)
    (hfresh : FreshNumber pcb layer.exchange) (hne : block.payload ≠ [])
    (hfits : collected.length + block.payload.length ≤ maxMsgSize)
    (hacknowledged : EveryStep receiveFrame Acknowledged layer (blockFrames none pcb block)) :
    block.Short ∧
      (block.repeats ≠ [] → collected.length + 2 * block.payload.length ≤ maxMsgSize) := by
  have htaken : IBlock.Taken ⟨pcb, block.payload⟩ :=
    @taken_of_acknowledged _ ⟨⟨pcb, block.payload⟩, block.sent⟩ hne hacknowledged.1
  constructor
  · have hreceived : block.payload.length + 1 ≤ 2 + maxRxFrameInfSize := htaken.received
    unfold ChainBlock.Short
    omega
  · intro hrepeated
    by_contra hlong
    obtain ⟨hcollecting, -⟩ := receiveFrame_fresh h htaken hfresh block.sent hfits
    obtain ⟨again, others, hagain⟩ := List.exists_cons_of_ne_nil hrepeated
    rw [blockFrames, hagain] at hacknowledged
    exact (receiveFrame_overflow hcollecting htaken again
      (by rw [List.length_append]; omega)).2 hacknowledged.2.1

/-- While a response is kept, a frame of one byte is answered with it and not acknowledged. -/
theorem not_acknowledged_of_kept {response : Bytes} (hkept : layer.iso4LastTx = some response)
    (hresponse : isReplayableIsoIResponse response = true) (pcb : UInt8) (sent : Bool) :
    ¬Acknowledged layer ⟨⟨pcb, []⟩, sent⟩ := by
  have heq : receiveFrame layer ⟨⟨pcb, []⟩, sent⟩ = sendFrame layer response sent := by
    unfold receiveFrame receiveChainedBlock handleEmptyIBlock
    rw [if_neg (not_not.mpr (by simp [IBlock.Received, Nat.add_comm])), if_pos rfl, hkept]
  refine not_acknowledged_of_iBlock ?_ (Bool.and_eq_true_iff.mp hresponse).2
  rw [heq]
  cases sent <;> rfl

/-- A chain that is acknowledged is in short frames, and its repeats fit. While a response is kept,
it has no frames of one byte either. -/
theorem repeatsFit_of_acknowledged (h : Collecting collected layer.exchange)
    (hfresh : FreshNumber pcb layer.exchange) (hbare : announcesCid pcb = false)
    (hseveral : (∀ block ∈ blocks, block.payload ≠ []) ∨
      ∃ response, layer.iso4LastTx = some response ∧ isReplayableIsoIResponse response = true)
    (hrepeats : ∀ block ∈ blocks, block.repeats.length ≤ rxChainDuplicateLimit)
    (hfits : collected.length + (chainPayload blocks).length ≤ maxMsgSize)
    (hacknowledged : EveryStep receiveFrame Acknowledged layer (chainFrames none pcb blocks)) :
    (∀ block ∈ blocks, block.payload ≠ [] ∧ block.Short) ∧ RepeatsFit collected.length blocks := by
  induction blocks generalizing layer collected pcb with
  | nil => exact ⟨fun block hmem ↦ absurd hmem List.not_mem_nil, trivial⟩
  | cons block rest ih =>
    rw [chainPayload_cons, List.length_append] at hfits
    rw [chainFrames_cons, everyStep_append] at hacknowledged
    have hne : block.payload ≠ [] := by
      intro hempty
      rcases hseveral with hnonempty | ⟨response, hkept, hresponse⟩
      · exact hnonempty block List.mem_cons_self hempty
      · have hfirst := hacknowledged.1
        rw [blockFrames, hempty] at hfirst
        exact not_acknowledged_of_kept hkept hresponse pcb block.sent hfirst.1
    obtain ⟨hshort, hroom⟩ := room_of_acknowledged h hfresh hne (by omega) hacknowledged.1
    obtain ⟨-, hcollecting, hlast, hsame⟩ := run_blockFrames h hfresh
      (ChainBlock.taken hne hshort hbare) (hrepeats block List.mem_cons_self) (by omega) hroom
    have hlater : (∀ other ∈ rest, other.payload ≠ []) ∨ ∃ response,
        (run receiveFrame layer (blockFrames none pcb block)).iso4LastTx = some response ∧
          isReplayableIsoIResponse response = true := by
      rw [hsame]
      exact hseveral.imp_left fun hnonempty other hmem ↦
        hnonempty other (List.mem_cons_of_mem _ hmem)
    obtain ⟨hothers, hfit⟩ := ih hcollecting hlast.freshNumber
      ((announcesCid_xor_one pcb).trans hbare) hlater
      (fun other hmem ↦ hrepeats other (List.mem_cons_of_mem _ hmem))
      (by rw [List.length_append]; omega) hacknowledged.2
    rw [List.length_append] at hfit
    refine ⟨fun other hmem ↦ ?_, hroom, hfit⟩
    rcases List.mem_cons.mp hmem with rfl | hmem
    · exact ⟨hne, hshort⟩
    · exact hothers other hmem

end Chains

section Theorem

variable (handlers : Handlers)

/-- No APDU is being received, and the worker is not active. -/
structure IdleExchange (app : NfcApp) : Prop where
  inactive : requestWorkerActive app = false
  attached : app.arenaAttached = true
  arena : app.transportArena.length = transportArenaSize
  requestLen : app.requestLen = 0
  noChain : app.rxChainLastValid = false

/-- A reset leaves the exchange idle. -/
theorem idle_resetExchange {app : NfcApp} (hattached : app.arenaAttached = true) :
    IdleExchange (resetExchange app) := by
  refine ⟨rfl, hattached, ?_, rfl, rfl⟩
  simp [resetExchange, clearTxChain, hattached, zeroBytes]

theorem IdleExchange.collecting {app : NfcApp} (h : IdleExchange app) : Collecting [] app :=
  ⟨h.inactive, h.attached, h.arena, h.requestLen, rfl, Nat.zero_le _⟩

/-- An APDU in chained blocks and a last one that is not chained, all with the same CID or all
without one. -/
structure ChainedApdu where
  cid : Option UInt8
  pcb : UInt8
  announced : announcesCid pcb = cid.isSome
  blocks : List ChainBlock
  finalPcb : UInt8
  finalAnnounced : announcesCid finalPcb = cid.isSome
  final : Bytes
  capabilities : NfcCapabilities
  surroundings : Surroundings

/-- The state before the last block. -/
def ChainedApdu.collect (apdu : ChainedApdu) (start : BlockLayer) : BlockLayer :=
  run receiveFrame start (chainFrames apdu.cid apdu.pcb apdu.blocks)

/-- The last block. -/
def ChainedApdu.finalBlock (apdu : ChainedApdu) : IBlock :=
  ⟨apdu.finalPcb, apdu.cid.toList ++ apdu.final⟩

/-- The state after the last block. -/
def ChainedApdu.finish (apdu : ChainedApdu) (start : BlockLayer) : BlockLayer :=
  receiveIBlock handlers (apdu.collect start) apdu.finalBlock apdu.capabilities apdu.surroundings

/-- No block is a frame of one byte, which is what an empty block without a CID is. -/
def ChainedApdu.MultiByte (apdu : ChainedApdu) : Prop :=
  (∀ block ∈ apdu.blocks, apdu.cid.toList ++ block.payload ≠ []) ∧
    apdu.cid.toList ++ apdu.final ≠ []

/-- The listener takes the frames: they have no CID, and none is too long for it. -/
structure ChainedApdu.FramesTaken (apdu : ChainedApdu) : Prop where
  cid : apdu.cid = none
  short : ∀ block ∈ apdu.blocks, block.Short
  final : apdu.final.length ≤ maxRxFrameInfSize + 1

/-- What the reception should be. Every block and every repeat is acknowledged. The last block
hands over the payloads of the blocks with its own, or if they are too long, resets the exchange and
hands nothing over, and so does another chained block that makes them too long. -/
structure ChainedApdu.ReceivedExactly (apdu : ChainedApdu) (start : BlockLayer) : Prop where
  acknowledged : EveryStep receiveFrame Acknowledged start
    (chainFrames apdu.cid apdu.pcb apdu.blocks)
  taken : (apdu.finish handlers start).executed = (apdu.collect start).executed + 1
  handed : (apdu.finish handlers start).exchange =
    if (chainPayload apdu.blocks ++ apdu.final).length ≤ maxMsgSize then
      handleApdu handlers (chainTaken (blockReceived (apdu.collect start).exchange) apdu.final)
        (chainPayload apdu.blocks ++ apdu.final) apdu.capabilities apdu.surroundings
    else
      sendStatusWord (resetExchange (blockReceived (apdu.collect start).exchange)) swWrongLength
  refused : ∀ (block : IBlock) (sent : Bool), block.Taken →
    maxMsgSize < (chainPayload apdu.blocks ++ block.payload).length →
    (receiveChainedBlock (apdu.collect start) block sent).exchange =
      sendStatusWord (resetExchange (blockReceived (apdu.collect start).exchange)) swWrongLength

variable {handlers}

/-- The last block of a chain. -/
theorem receiveIBlock_final {layer : BlockLayer} {collected : Bytes}
    (h : Collecting collected layer.exchange)
    (hchain : layer.exchange.commandChainActive = true) {final : IBlock} (htaken : final.Taken)
    (capabilities : NfcCapabilities) (surroundings : Surroundings) :
    (receiveIBlock handlers layer final capabilities surroundings).executed = layer.executed + 1 ∧
    (receiveIBlock handlers layer final capabilities surroundings).exchange =
      if (collected ++ final.body).length ≤ maxMsgSize then
        handleApdu handlers (chainTaken (blockReceived layer.exchange) final.body)
          (collected ++ final.body) capabilities surroundings
      else sendStatusWord (resetExchange (blockReceived layer.exchange)) swWrongLength := by
  have hchain' : (blockReceived layer.exchange).commandChainActive = true := hchain
  have hinactive : requestWorkerActive (blockReceived layer.exchange) = false := h.inactive
  have hlen : (blockReceived layer.exchange).requestLen = collected.length := h.requestLen
  have hholds : (blockReceived layer.exchange).transportArena.take collected.length = collected :=
    h.holds
  have hpassed : receiveIBlock handlers layer final capabilities surroundings =
      passOn handlers (synced layer final.pcb) final capabilities surroundings := by
    rw [receiveIBlock_bare _ _ htaken.received htaken.several htaken.bare,
      if_neg (by simp [hchain])]
  have hnext : handleIso4Payload handlers (blockReceived layer.exchange) final.pcb final.body
      false capabilities surroundings = handleAssembledPayload handlers
        (blockReceived layer.exchange) final.body capabilities surroundings := by
    unfold handleIso4Payload
    rw [if_neg (by simp [hchain']), if_neg (by simp [hchain']), if_neg (by simp [hinactive]),
      if_neg (by simp), if_pos hchain']
  rw [hpassed]
  unfold passOn
  dsimp only
  constructor
  · exact (answer_rest _ _ _ _).2.2.2
  · rw [(answer_rest _ _ _ _).1, IBlock.payload_bare htaken.bare]
    refine hnext.trans ?_
    by_cases hfits : (collected ++ final.body).length ≤ maxMsgSize
    · rw [List.length_append] at hfits
      rw [handleAssembledPayload_fits (by omega), if_pos (by rwa [List.length_append]), hlen,
        hholds]
    · rw [List.length_append] at hfits
      have hbound := h.fits
      rw [handleAssembledPayload, if_pos (by omega), if_neg (by rwa [List.length_append])]

/-- A last block in a frame that is not taken is not part of the chain. -/
theorem executed_receiveIBlock_untaken (layer : BlockLayer) {final : IBlock} (h : ¬final.Taken)
    (capabilities : NfcCapabilities) (surroundings : Surroundings) :
    (receiveIBlock handlers layer final capabilities surroundings).executed = layer.executed := by
  by_cases hreceived : final.Received
  · by_cases hempty : final.body = []
    · unfold receiveIBlock handleEmptyIBlock
      rw [if_neg (not_not.mpr hreceived), if_pos hempty]
      cases layer.iso4LastTx with
      | none => exact (framed_sendFrame _ _ _).executed
      | some frame => exact (framed_sendFrame _ _ _).executed
    · have hcid : announcesCid final.pcb = true := by
        by_contra hbare
        exact h ⟨hreceived, hempty, by simpa using hbare⟩
      rw [receiveIBlock_announcesCid _ _ hreceived hempty hcid]
      rfl
  · unfold receiveIBlock
    rw [if_pos hreceived]

section Exact

variable {apdu : ChainedApdu} {start : BlockLayer}

/-- What is received exactly ends with a frame that is taken. -/
theorem ChainedApdu.ReceivedExactly.finalTaken (h : apdu.ReceivedExactly handlers start) :
    apdu.finalBlock.Taken := by
  by_contra huntaken
  have htaken := h.taken
  rw [ChainedApdu.finish, executed_receiveIBlock_untaken _ huntaken] at htaken
  omega

/-- So it has no CID. -/
theorem ChainedApdu.ReceivedExactly.bare (h : apdu.ReceivedExactly handlers start) :
    apdu.cid = none := by
  have hbare : announcesCid apdu.finalPcb = false := h.finalTaken.bare
  rw [apdu.finalAnnounced] at hbare
  exact Option.isNone_iff_eq_none.mp (by rw [← Option.not_isSome, hbare]; rfl)

theorem ChainedApdu.multiByte_iff (hcid : apdu.cid = none) :
    apdu.MultiByte ↔ (∀ block ∈ apdu.blocks, block.payload ≠ []) ∧ apdu.final ≠ [] := by
  unfold ChainedApdu.MultiByte
  rw [hcid]
  rfl

theorem ChainedApdu.finalTaken_iff (hcid : apdu.cid = none) :
    apdu.finalBlock.Taken ↔ apdu.final.length ≤ maxRxFrameInfSize + 1 ∧ apdu.final ≠ [] := by
  have hbare : announcesCid apdu.finalPcb = false := by
    rw [apdu.finalAnnounced, hcid]
    rfl
  have hblock : apdu.finalBlock = ⟨apdu.finalPcb, apdu.final⟩ := by
    unfold ChainedApdu.finalBlock
    rw [hcid]
    rfl
  rw [hblock]
  constructor
  · intro h
    have hreceived : apdu.final.length + 1 ≤ 2 + maxRxFrameInfSize := h.received
    exact ⟨by omega, h.several⟩
  · rintro ⟨hshort, hne⟩
    refine ⟨?_, hne, hbare⟩
    show apdu.final.length + 1 ≤ 2 + maxRxFrameInfSize
    omega

theorem IdleExchange.fresh {app : NfcApp} (h : IdleExchange app) (pcb : UInt8) :
    FreshNumber pcb app :=
  fun hvalid ↦ absurd (hvalid.symm.trans h.noChain) (by decide)

/-- What is received exactly has come in frames that the listener takes, and its repeats fit. -/
theorem ChainedApdu.ReceivedExactly.taken_and_fit (h : apdu.ReceivedExactly handlers start)
    (hidle : IdleExchange start.exchange)
    (hrepeats : ∀ block ∈ apdu.blocks, block.repeats.length ≤ rxChainDuplicateLimit)
    (hfits : (chainPayload apdu.blocks).length ≤ maxMsgSize)
    (hseveral : apdu.MultiByte ∨ ∃ response, start.iso4LastTx = some response ∧
      isReplayableIsoIResponse response = true) :
    apdu.FramesTaken ∧ RepeatsFit 0 apdu.blocks ∧ apdu.MultiByte := by
  have hbare : announcesCid apdu.pcb = false := by
    rw [apdu.announced, h.bare]
    rfl
  have hacknowledged := h.acknowledged
  rw [h.bare] at hacknowledged
  obtain ⟨hblocks, hfit⟩ := repeatsFit_of_acknowledged hidle.collecting (hidle.fresh apdu.pcb) hbare
    (hseveral.imp_left fun hmulti ↦ ((ChainedApdu.multiByte_iff h.bare).mp hmulti).1) hrepeats
    (by rwa [List.length_nil, Nat.zero_add]) hacknowledged
  obtain ⟨hshort, hfinal⟩ := (ChainedApdu.finalTaken_iff h.bare).mp h.finalTaken
  refine ⟨⟨h.bare, fun block hmem ↦ (hblocks block hmem).2, hshort⟩, hfit, ?_⟩
  exact (ChainedApdu.multiByte_iff h.bare).mpr ⟨fun block hmem ↦ (hblocks block hmem).1, hfinal⟩

/-- And what comes so is received exactly. -/
theorem ChainedApdu.FramesTaken.receivedExactly (h : apdu.FramesTaken)
    (hidle : IdleExchange start.exchange) (hne : apdu.blocks ≠ [])
    (hrepeats : ∀ block ∈ apdu.blocks, block.repeats.length ≤ rxChainDuplicateLimit)
    (hfits : (chainPayload apdu.blocks).length ≤ maxMsgSize)
    (hfit : RepeatsFit 0 apdu.blocks) (hmulti : apdu.MultiByte) :
    apdu.ReceivedExactly handlers start := by
  have hbare : announcesCid apdu.pcb = false := by
    rw [apdu.announced, h.cid]
    rfl
  obtain ⟨hseveral, hfinal⟩ := (ChainedApdu.multiByte_iff h.cid).mp hmulti
  have htaken := (ChainedApdu.finalTaken_iff h.cid).mpr ⟨h.final, hfinal⟩
  have hblocks : Receivable apdu.blocks := fun block hmem ↦
    ⟨hseveral block hmem, hrepeats block hmem⟩
  obtain ⟨hacknowledged, hcollected, -, hchain⟩ := run_chainFrames hidle.collecting
    (hidle.fresh apdu.pcb) hbare hblocks h.short (by rwa [List.length_nil, Nat.zero_add]) hfit
  rw [List.nil_append, ← h.cid] at hcollected
  rw [← h.cid] at hacknowledged hchain
  obtain ⟨hexecuted, hhanded⟩ := @receiveIBlock_final handlers _ _ hcollected
    (hchain (Or.inl hne)) _ htaken apdu.capabilities apdu.surroundings
  have hbody : apdu.finalBlock.body = apdu.final := by
    unfold ChainedApdu.finalBlock
    rw [h.cid]
    rfl
  rw [hbody] at hhanded
  refine ⟨hacknowledged, hexecuted, hhanded, ?_⟩
  intro block sent hblock hlong
  rw [List.length_append, IBlock.payload_bare hblock.bare] at hlong
  exact (receiveFrame_overflow hcollected hblock sent hlong).1

end Exact

theorem idle_blank : IdleExchange ({} : NfcApp) := by
  refine ⟨rfl, rfl, ?_, rfl, rfl⟩
  simp [zeroBytes]

/-- An APDU of 801 bytes in five blocks, two of which are equal neighbours, and two of which are
repeated, one as often as the listener allows. -/
def repeatedBlocks : ChainedApdu where
  cid := none
  pcb := 0x12
  announced := rfl
  blocks := [{ payload := List.replicate 200 0 }, { payload := List.replicate 200 0 },
    { payload := [1], repeats := List.replicate 8 true }, { payload := List.replicate 199 2 },
    { payload := List.replicate 200 0, repeats := [false, true] }]
  finalPcb := 0x03
  finalAnnounced := rfl
  final := [0]
  capabilities := { fido2Enabled := true, u2fEnabled := false }
  surroundings := {}

/-- An APDU of 1001 bytes in six blocks, of which the fifth one is repeated because its
acknowledgement is lost. -/
def repeatedNearTheEnd : ChainedApdu where
  cid := none
  pcb := 0x12
  announced := rfl
  blocks := [{ payload := List.replicate 200 0 }, { payload := List.replicate 200 0 },
    { payload := List.replicate 200 0 }, { payload := List.replicate 200 0 },
    { payload := List.replicate 200 0, sent := false, repeats := [true] }]
  finalPcb := 0x03
  finalAnnounced := rfl
  final := [0]
  capabilities := { fido2Enabled := true, u2fEnabled := false }
  surroundings := {}

end Theorem

end ZeroFido.Nfc
