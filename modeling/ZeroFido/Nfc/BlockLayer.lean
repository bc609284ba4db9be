import ZeroFido.Nfc.Blocks

/-!
# ISO-DEP blocks

The part of `transport/nfc_engine.c` and `transport/nfc_iso_dep.c` around the exchange: the frames
that its replies are sent in, the last one of which is kept for R(NAK) and empty blocks, and the
filter for a complete I-block that is received again.

The ATS announces no CID, so a block that carries one is dropped without an answer
(`syncIBlockHeader_eq`). R-blocks and S-blocks are events of the exchange alone. What is put to
sleep as a late discovery probe is not received.
-/

set_option autoImplicit false
set_option relaxedAutoImplicit false

namespace ZeroFido.Nfc

open Foundations

section State

/-- The bit of a PCB that announces a CID (`ZF_NFC_PCB_CID`). -/
def announcesCid (pcb : UInt8) : Bool := pcb &&& 0x08 != 0

/-- The frame of an I-block: the PCB and what follows it. -/
structure IBlock where
  pcb : UInt8
  body : Bytes
  deriving DecidableEq, Repr

def IBlock.cid (block : IBlock) : Option UInt8 :=
  if announcesCid block.pcb then block.body.head? else none

/-- The information field. -/
def IBlock.payload (block : IBlock) : Bytes :=
  if announcesCid block.pcb then block.body.tail else block.body

theorem IBlock.cid_bare {block : IBlock} (h : announcesCid block.pcb = false) :
    block.cid = none := by
  unfold IBlock.cid
  rw [h, if_neg (by decide)]

theorem IBlock.payload_bare {block : IBlock} (h : announcesCid block.pcb = false) :
    block.payload = block.body := by
  unfold IBlock.payload
  rw [h, if_neg (by decide)]

/-- The frames that the listener copies; it ignores longer ones. -/
def IBlock.Received (block : IBlock) : Prop := block.body.length + 1 ≤ 2 + maxRxFrameInfSize

instance (block : IBlock) : Decidable block.Received := inferInstanceAs (Decidable (_ ≤ _))

theorem IBlock.received_of_short {block : IBlock} (h : block.payload.length ≤ maxRxFrameInfSize) :
    block.Received := by
  unfold IBlock.payload at h
  unfold IBlock.Received
  by_cases hcid : announcesCid block.pcb = true
  · rw [if_pos hcid, List.length_tail] at h
    omega
  · rw [if_neg hcid] at h
    omega

/-- `zf_transport_nfc_default_reader_profile`: the ATS, the same for every kind of reader. -/
def readerProfileAts : Bytes := [0x05, 0x78, 0x91, 0xE8, 0x00]

/-- The TC1 byte of the ATS, which `zf_transport_nfc_prepare_listener` takes from the profile. -/
def atsTc1 : UInt8 := readerProfileAts.getD 4 0x00

/-- The `rx_complete_last_*` fields: a complete I-block and what it was answered with. -/
structure RxComplete where
  pcb : UInt8
  cid : Option UInt8
  payload : Bytes
  response : Bytes
  isoPcb : UInt8
  preservesReplay : Bool
  deriving DecidableEq, Repr

/-- The exchange and the fields of `ZfNfcTransportState` that belong to the blocks. `answering` is
the block whose command the callback is running. The last three fields are the observer's: the frames
that the listener was given and those that it has sent, and how many blocks the exchange has been
given. -/
structure BlockLayer where
  exchange : NfcApp := {}
  isoPcb : UInt8 := 0x02
  isoCid : Option UInt8 := none
  iso4LastTx : Option Bytes := none
  iso4TxFrame : Bytes := []
  lastTxPreservedReplay : Bool := false
  rxCompleteLast : Option RxComplete := none
  answering : Option IBlock := none
  triedFrames : List Bytes := []
  sentFrames : List Bytes := []
  executed : ℕ := 0
  deriving DecidableEq, Repr

end State

section Send

/-- `zf_transport_nfc_is_i_block`. -/
def isIBlockPcb (pcb : UInt8) : Bool := pcb &&& 0xC2 == 0x02

/-- `zf_transport_nfc_is_replayable_iso_i_response`. -/
def isReplayableIsoIResponse (frame : Bytes) : Bool :=
  decide (2 ≤ frame.length) && isIBlockPcb (frame.getD 0 0)

/-- `zf_transport_nfc_send_frame`; `sent` is what the listener reports. -/
def sendFrame (layer : BlockLayer) (frame : Bytes) (sent : Bool) : BlockLayer :=
  if !sent then { layer with iso4TxFrame := frame, triedFrames := layer.triedFrames ++ [frame] }
  else
    { layer with
      iso4TxFrame := frame
      triedFrames := layer.triedFrames ++ [frame]
      lastTxPreservedReplay := false
      iso4LastTx := if isReplayableIsoIResponse frame then some frame else layer.iso4LastTx
      sentFrames := layer.sentFrames ++ [frame] }

/-- The CID bit of a PCB. -/
def cidBit (cid : Option UInt8) : UInt8 := if cid.isSome then 0x08 else 0x00

/-- The block number in a PCB. -/
theorem and_one_cases (byte : UInt8) : byte &&& 0x01 = 0 ∨ byte &&& 0x01 = 1 := by
  rcases Nat.mod_two_eq_zero_or_one byte.toNat with heven | hodd
  · left
    rw [← UInt8.toNat_inj, UInt8.toNat_and]
    simpa [Nat.and_one_is_mod] using heven
  · right
    rw [← UInt8.toNat_inj, UInt8.toNat_and]
    simpa [Nat.and_one_is_mod] using hodd

/-- The block that carries an information field. -/
def isoResponse (layer : BlockLayer) (inf : Bytes) (chaining : Bool) : Bytes :=
  (0x02 ||| (layer.isoPcb &&& 0x01) ||| cidBit layer.isoCid |||
    (if chaining then 0x10 else 0x00)) :: (layer.isoCid.toList ++ inf)

/-- `zf_transport_nfc_send_iso_response`. -/
def sendIsoResponse (layer : BlockLayer) (inf : Bytes) (chaining sent : Bool) : BlockLayer :=
  let next := sendFrame layer (isoResponse layer inf chaining) sent
  if sent then { next with isoPcb := next.isoPcb ^^^ 0x01 } else next

/-- `zf_transport_nfc_send_iso_response_preserving_replay`. -/
def sendIsoResponsePreservingReplay (layer : BlockLayer) (inf : Bytes) (chaining sent : Bool) :
    BlockLayer :=
  let next := sendIsoResponse layer inf chaining sent
  { next with
    iso4LastTx := if layer.iso4LastTx.isSome then layer.iso4LastTx else next.iso4LastTx
    lastTxPreservedReplay := next.lastTxPreservedReplay || sent }

/-- `zf_transport_nfc_send_r_ack`. -/
def sendRAck (layer : BlockLayer) (pcb : UInt8) (sent : Bool) : BlockLayer :=
  sendFrame layer ((0xA2 ||| (pcb &&& 0x01) ||| cidBit layer.isoCid) :: layer.isoCid.toList) sent

end Send

section Receive

/-- `zf_transport_nfc_handle_empty_i_block_locked`. -/
def handleEmptyIBlock (layer : BlockLayer) (pcb : UInt8) (sent : Bool) : BlockLayer :=
  match layer.iso4LastTx with
  | some frame => sendFrame layer frame sent
  | none => sendRAck layer pcb sent

/-- `zf_transport_nfc_sync_i_block_header`, and whether it accepts the header. -/
def syncIBlockHeader (layer : BlockLayer) (block : IBlock) : BlockLayer × Bool :=
  let synced := { layer with
    exchange := blockReceived layer.exchange
    isoPcb := 0x02 ||| (block.pcb &&& 0x01)
    isoCid := none }
  if !announcesCid block.pcb then (synced, true)
  -- ZF_NFC_ATS_TC1_CID
  else if atsTc1 &&& 0x02 = 0 then (synced, false)
  else
    match block.body with
    | [] => (synced, false)
    | cid :: _ => ({ synced with isoCid := some cid }, true)

/-- The state after a header has been looked at. -/
def synced (layer : BlockLayer) (pcb : UInt8) : BlockLayer :=
  { layer with
    exchange := blockReceived layer.exchange
    isoPcb := 0x02 ||| (pcb &&& 0x01)
    isoCid := none }

/-- A header is accepted if and only if it announces no CID. -/
theorem syncIBlockHeader_eq (layer : BlockLayer) (block : IBlock) :
    syncIBlockHeader layer block = (synced layer block.pcb, !announcesCid block.pcb) := by
  have hats : atsTc1 &&& 0x02 = 0 := by decide
  unfold syncIBlockHeader synced
  dsimp only
  by_cases hcid : announcesCid block.pcb = true
  · rw [hcid, if_neg (by decide), if_pos hats]
    rfl
  · rw [Bool.not_eq_true] at hcid
    rw [hcid, if_pos (by decide)]
    rfl

/-- `zf_transport_nfc_remember_complete_i_block_locked`. -/
def rememberCompleteIBlock (layer : BlockLayer) (block : IBlock) : BlockLayer :=
  { layer with
    rxCompleteLast :=
      if maxRxFrameInfSize < block.payload.length ∨ layer.iso4TxFrame = [] ∨
          isIBlockPcb (layer.iso4TxFrame.getD 0 0) = false then
        none
      else
        some {
          pcb := block.pcb
          cid := layer.isoCid
          payload := block.payload
          response := layer.iso4TxFrame
          isoPcb := layer.isoPcb
          preservesReplay := layer.lastTxPreservedReplay } }

/-- `zf_transport_nfc_is_duplicate_complete_i_block_locked`. -/
def isDuplicateCompleteIBlock (layer : BlockLayer) (block : IBlock) : Bool :=
  match layer.rxCompleteLast with
  | none => false
  | some complete =>
    decide (block.payload.length ≤ maxRxFrameInfSize) && complete.response != [] &&
      block.pcb == complete.pcb && layer.isoCid == complete.cid && block.payload == complete.payload

/-- `zf_transport_nfc_replay_complete_i_block_response_locked`. -/
def replayCompleteIBlockResponse (layer : BlockLayer) (sent : Bool) : BlockLayer :=
  match layer.rxCompleteLast with
  | none => layer
  | some complete =>
    let next := sendFrame layer complete.response sent
    { next with
      isoPcb := if sent then complete.isoPcb else next.isoPcb
      iso4LastTx := if complete.preservesReplay then layer.iso4LastTx else next.iso4LastTx }

/-- A final block that does not fit behind what has been collected. -/
def overflows (app : NfcApp) (payload : Bytes) : Bool :=
  app.commandChainActive &&
    (decide (maxMsgSize < app.requestLen) || decide (maxMsgSize - app.requestLen < payload.length))

/-- The APDU that the dispatcher is given with a complete block, if it is given one. -/
def apduOf (app : NfcApp) (payload : Bytes) : Option NfcApdu :=
  if requestWorkerActive app || overflows app payload ||
      (!app.commandChainActive && defers app) then none
  else parseApdu (assembledFrame app payload)

/-- The replies to discovery commands, which leave the frame for R(NAK) alone. -/
def preservesReplay (app : NfcApp) (payload : Bytes) : Bool :=
  if !app.commandChainActive && (payload == [0x60] || payload == [0xAF]) then true
  else
    match apduOf app payload with
    | none => false
    | some apdu =>
      (assembledFrame app payload).getD 0 0 == 0x90 &&
        ((apdu.ins == 0x60 && apdu.p1 == 0x00 && apdu.p2 == 0x00) ||
          (apdu.ins == 0xAF && !app.appletSelected))

/-- A SELECT of the FIDO application and the CTAP control END forget the frame for R(NAK). -/
def clearsLastIsoResponse (app : NfcApp) (payload : Bytes) : Bool :=
  match apduOf app payload with
  | none => false
  | some apdu =>
    isFidoSelectApdu apdu || (app.appletSelected && apdu.cla == 0x80 &&
      apdu.ins == insCtapControl && apdu.p1 == 0x01 && apdu.p2 == 0x00)

/-- The exchange has been reset since, which also forgets the last complete block. -/
def forgetAfterReset (layer : BlockLayer) (next : NfcApp) : BlockLayer :=
  { layer with
    exchange := next
    rxCompleteLast := if next.resets = layer.exchange.resets then layer.rxCompleteLast else none }

/-- The replies that the exchange has made, in blocks. -/
def sendReplies (layer : BlockLayer) (infs : List Bytes) (chaining preserving sent : Bool) :
    BlockLayer :=
  infs.foldl (fun layer inf ↦
    if preserving then sendIsoResponsePreservingReplay layer inf chaining sent
    else sendIsoResponse layer inf chaining sent) layer

/-- The end of the handling of a block: its reply is sent, and when it has been sent, the block is
remembered, unless it has overflowed its chain. -/
def answer (layer : BlockLayer) (block : IBlock) (next : NfcApp)
    (preserving overflowed sent : Bool) : BlockLayer :=
  let infs := next.transmitted.drop layer.exchange.transmitted.length
  let answered := sendReplies (forgetAfterReset layer next) infs next.txChainActive preserving sent
  if infs ≠ [] ∧ sent = true ∧ overflowed = false then rememberCompleteIBlock answered block
  else answered

variable (handlers : Handlers)

/-- A block that is new goes to the exchange. When the callback runs its command, the answer comes
later. -/
def passOn (layer : BlockLayer) (block : IBlock) (capabilities : NfcCapabilities)
    (surroundings : Surroundings) : BlockLayer :=
  let app := layer.exchange
  let next := handleIso4Payload handlers app block.pcb block.payload false capabilities surroundings
  let cleared := { layer with
    iso4LastTx := if clearsLastIsoResponse app block.payload then none else layer.iso4LastTx
    answering := if next.callback = .idle then none else some block
    executed := layer.executed + 1 }
  answer cleared block next (preservesReplay app block.payload)
    (overflows app block.payload && !requestWorkerActive app) surroundings.sent

/-- The I-blocks of `zf_transport_nfc_event_callback` that are not chained, and
`zf_transport_nfc_handle_iso4_payload_locked` for them. A frame of one byte asks for the last
response. -/
def receiveIBlock (layer : BlockLayer) (block : IBlock) (capabilities : NfcCapabilities)
    (surroundings : Surroundings) : BlockLayer :=
  if ¬block.Received then layer
  else if block.body = [] then handleEmptyIBlock layer block.pcb surroundings.sent
  else
    match syncIBlockHeader layer block with
    -- Only headers with a CID are refused, and R(NAK) is for those without.
    | (layer, false) => layer
    | (layer, true) =>
      if layer.exchange.commandChainActive = false ∧ block.payload = [] then
        handleEmptyIBlock layer block.pcb surroundings.sent
      else if layer.exchange.commandChainActive = false ∧
          isDuplicateCompleteIBlock layer block = true then
        replayCompleteIBlockResponse layer surroundings.sent
      else passOn handlers layer block capabilities surroundings

/-- A block that announces a CID is dropped. -/
theorem receiveIBlock_announcesCid (layer : BlockLayer) {block : IBlock} (hreceived : block.Received)
    (hbody : block.body ≠ []) (hcid : announcesCid block.pcb = true)
    (capabilities : NfcCapabilities) (surroundings : Surroundings) :
    receiveIBlock handlers layer block capabilities surroundings = synced layer block.pcb := by
  unfold receiveIBlock
  rw [if_neg (not_not.mpr hreceived), if_neg hbody, syncIBlockHeader_eq, hcid]
  rfl

/-- A block of several bytes without a CID. -/
theorem receiveIBlock_bare (layer : BlockLayer) {block : IBlock} (hreceived : block.Received)
    (hbody : block.body ≠ []) (hcid : announcesCid block.pcb = false)
    (capabilities : NfcCapabilities) (surroundings : Surroundings) :
    receiveIBlock handlers layer block capabilities surroundings =
      if layer.exchange.commandChainActive = false ∧
          isDuplicateCompleteIBlock (synced layer block.pcb) block = true then
        replayCompleteIBlockResponse (synced layer block.pcb) surroundings.sent
      else passOn handlers (synced layer block.pcb) block capabilities surroundings := by
  have hpayload : block.payload ≠ [] := by
    rw [IBlock.payload_bare hcid]
    exact hbody
  unfold receiveIBlock
  rw [if_neg (not_not.mpr hreceived), if_neg hbody, syncIBlockHeader_eq, hcid]
  exact if_neg fun h ↦ hpayload h.2

end Receive

section Step

/-- What happens between the reception of a block and its last retransmission. -/
inductive BlockEvent where
  | iBlock (block : IBlock) (capabilities : NfcCapabilities) (surroundings : Surroundings)
  | callbackReturns (response : Bytes) (surroundings : Surroundings)
  | workerTakes
  | workerStores (response : Option Bytes)
  | workerReturns
  | stop
  deriving DecidableEq, Repr

variable (handlers : Handlers)

/-- One step of the exchange that sends no frame. -/
def exchangeStep (layer : BlockLayer) (event : NfcEvent) : BlockLayer :=
  { layer with exchange := nfcStep handlers layer.exchange event }

/-- One step. While the callback is inside a command, and once the transport stops, no block is
received. -/
def blockStep (layer : BlockLayer) : BlockEvent → BlockLayer
  | .iBlock block capabilities surroundings =>
    if layer.exchange.stopping || layer.exchange.callback != .idle then layer
    else receiveIBlock handlers layer block capabilities surroundings
  | .callbackReturns response surroundings =>
    match layer.answering with
    | none => layer
    | some block =>
      let next := callbackReturns layer.exchange response surroundings
      answer { layer with answering := none } block next false false surroundings.sent
  | .workerTakes => exchangeStep handlers layer .workerTakes
  | .workerStores response => exchangeStep handlers layer (.workerStores response)
  | .workerReturns => exchangeStep handlers layer .workerReturns
  | .stop => exchangeStep handlers layer .stop

end Step

end ZeroFido.Nfc
