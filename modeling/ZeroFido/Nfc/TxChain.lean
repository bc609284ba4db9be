import ZeroFido.Nfc.BlockLayer

/-!
# The transmit chain

The response that `transport/nfc_iso_dep.c` sends in several I-blocks:
`zf_transport_nfc_begin_chained_apdu_payload` sends the first block and
`zf_transport_nfc_send_next_tx_chain_block` one more block for each call. The payload and the status
word stay apart; a block that reaches past the payload takes the bytes of the status word.

A block that could not be sent leaves the chain where it was, so the next call builds the same block
again. `tx_chain_lossless` is the result for any sequence of failed and successful sends.
-/

set_option autoImplicit false
set_option relaxedAutoImplicit false

namespace ZeroFido.Nfc

section Operations

/-- The `iso4_tx_chain_*` fields of `ZfNfcTransportState` over the state of the blocks. A NULL
pointer and an empty buffer are the same list. -/
structure TxChain where
  layer : BlockLayer := {}
  active : Bool := false
  completed : Bool := false
  data : Bytes := []
  len : ℕ := 0
  offset : ℕ := 0
  statusWord : UInt16 := 0
  deriving DecidableEq, Repr

namespace TxChain

/-- `zf_transport_nfc_clear_tx_chain`. -/
def clear (chain : TxChain) : TxChain :=
  { chain with active := false, completed := false, data := [], len := 0, offset := 0,
               statusWord := 0 }

/-- `zf_transport_nfc_build_tx_chain_chunk`. -/
def buildChunk (chain : TxChain) (chunkLen : ℕ) : Bytes :=
  (List.range chunkLen).map fun i ↦
    let payloadLen := chain.len - 2
    let absoluteOffset := chain.offset + i
    if absoluteOffset < payloadLen then chain.data.getD absoluteOffset 0
    else if absoluteOffset - payloadLen = 0 then (chain.statusWord >>> 8).toUInt8
    else chain.statusWord.toUInt8

/-- `zf_transport_nfc_send_iso_response` with its length check; `sent` is what the listener
reports. -/
def sendIso (chain : TxChain) (inf : Bytes) (chaining sent : Bool) : TxChain × Bool :=
  if maxTxFrameInfSize < inf.length then (chain, false)
  else ({ chain with layer := sendIsoResponse chain.layer inf chaining sent }, sent)

/-- `zf_transport_nfc_send_next_tx_chain_block`. -/
def sendNextBlock (chain : TxChain) (sent : Bool) : TxChain × Bool :=
  if chain.active = false ∨ chain.len < 2 ∨ transportArenaSize < chain.len ∨
      chain.len ≤ chain.offset ∨ (chain.data = [] ∧ 2 < chain.len) then
    (chain, false)
  else
    let remaining := chain.len - chain.offset
    let chunkLen := if txChainChunkSize < remaining then txChainChunkSize else remaining
    let chaining := decide (chunkLen < remaining)
    let (chain, sent) := chain.sendIso (chain.buildChunk chunkLen) chaining sent
    if !sent then (chain, false)
    else if chain.len ≤ chain.offset + chunkLen then
      ({ chain with active := false, completed := true, data := [], len := 0, offset := 0,
                    statusWord := 0 }, true)
    else ({ chain with offset := chain.offset + chunkLen }, true)

/-- `zf_transport_nfc_begin_chained_apdu_payload`. -/
def beginChainedApduPayload (chain : TxChain) (data : Bytes) (statusWord : UInt16) (sent : Bool) :
    TxChain × Bool :=
  if transportArenaSize - 2 < data.length then (chain, false)
  else
    sendNextBlock { chain.clear with
      data := data
      len := data.length + 2
      offset := 0
      statusWord := statusWord
      active := true } sent

/-- Further calls of `zf_transport_nfc_send_next_tx_chain_block`, with what the listener reports at
each of them. -/
def sendBlocks (chain : TxChain) (outcomes : List Bool) : TxChain :=
  outcomes.foldl (fun chain sent ↦ (chain.sendNextBlock sent).1) chain

end TxChain

end Operations

section Reading

/-- The number of a block, as its receiver reads it. -/
def blockNumber (frame : Bytes) : UInt8 := frame.getD 0 0 &&& 0x01

/-- The chaining bit of a block. -/
def chainingBit (frame : Bytes) : Bool := frame.getD 0 0 &&& 0x10 != 0

/-- The information field of a block, behind the PCB and the CID that the exchange uses. -/
def infField (cid : Option UInt8) (frame : Bytes) : Bytes := frame.drop (1 + cid.toList.length)

theorem isoResponse_bits (layer : BlockLayer) (inf : Bytes) (chaining : Bool) :
    blockNumber (isoResponse layer inf chaining) = layer.isoPcb &&& 0x01 ∧
      chainingBit (isoResponse layer inf chaining) = chaining := by
  have hbits : ∀ odd cid chaining : Bool,
      let number : UInt8 := if odd then 1 else 0
      let pcb := 0x02 ||| number ||| (if cid then 0x08 else 0x00) |||
        (if chaining then 0x10 else 0x00)
      pcb &&& 0x01 = number ∧ (pcb &&& 0x10 != 0) = chaining := by
    decide
  unfold blockNumber chainingBit isoResponse cidBit
  rw [List.getD_cons_zero]
  rcases and_one_cases layer.isoPcb with hzero | hone
  · rw [hzero]
    exact hbits false layer.isoCid.isSome chaining
  · rw [hone]
    exact hbits true layer.isoCid.isSome chaining

theorem infField_isoResponse (layer : BlockLayer) (inf : Bytes) (chaining : Bool) :
    infField layer.isoCid (isoResponse layer inf chaining) = inf := by
  rw [infField, isoResponse, Nat.add_comm, List.drop_succ_cons, List.drop_left']
  rfl

end Reading

section Lossless

/-- The number of the block that is sent after `count` others. -/
def numberAt (isoPcb : UInt8) (count : ℕ) : UInt8 :=
  if count % 2 = 0 then isoPcb &&& 0x01 else (isoPcb &&& 0x01) ^^^ 0x01

/-- How many blocks a message takes. -/
def blockCount (message : Bytes) : ℕ := (message.length + (txChainChunkSize - 1)) / txChainChunkSize

/-- The part of a message that its block number `count` carries, counted from zero. -/
def chunkAt (message : Bytes) (count : ℕ) : Bytes :=
  (message.drop (count * txChainChunkSize)).take txChainChunkSize

theorem numberAt_succ {isoPcb current : UInt8} {count : ℕ}
    (h : current &&& 0x01 = numberAt isoPcb count) :
    (current ^^^ 0x01) &&& 0x01 = numberAt isoPcb (count + 1) := by
  have hflip : (current ^^^ 0x01) &&& 0x01 = (current &&& 0x01) ^^^ 0x01 := by
    rw [← UInt8.toBitVec_inj]
    ext i hi
    simp only [UInt8.toBitVec_and, UInt8.toBitVec_xor, BitVec.getElem_and, BitVec.getElem_xor]
    cases current.toBitVec[i] <;> cases (0x01 : UInt8).toBitVec[i] <;> rfl
  have htwice : ∀ number : UInt8, (number ^^^ 0x01) ^^^ 0x01 = number := fun number ↦ by
    rw [UInt8.xor_assoc, UInt8.xor_self, UInt8.xor_zero]
  rw [hflip, h]
  unfold numberAt
  by_cases heven : count % 2 = 0
  · rw [if_pos heven, if_neg (by omega)]
  · rw [if_neg heven, if_pos (by omega), htwice]

/-- What has been sent since `start`: blocks of the right size with alternating numbers. -/
structure SentBlocks (start layer : BlockLayer) (frames : List Bytes) : Prop where
  sentFrames : layer.sentFrames = start.sentFrames ++ frames
  isoCid : layer.isoCid = start.isoCid
  isoPcb : layer.isoPcb &&& 0x01 = numberAt start.isoPcb frames.length
  numbers : ∀ i (h : i < frames.length), blockNumber frames[i] = numberAt start.isoPcb i
  sizes : ∀ frame ∈ frames, infField start.isoCid frame ≠ [] ∧
    (infField start.isoCid frame).length ≤ txChainChunkSize

theorem SentBlocks.nil (start : BlockLayer) : SentBlocks start start [] :=
  ⟨(List.append_nil _).symm, rfl, rfl, fun _ h ↦ absurd h (Nat.not_lt_zero _),
    fun _ h ↦ absurd h List.not_mem_nil⟩

/-- One more block that has been sent. -/
theorem SentBlocks.snoc {start layer : BlockLayer} {frames : List Bytes}
    (h : SentBlocks start layer frames) {inf : Bytes} (chaining : Bool) (hne : inf ≠ [])
    (hsize : inf.length ≤ txChainChunkSize) :
    SentBlocks start (sendIsoResponse layer inf chaining true)
      (frames ++ [isoResponse layer inf chaining]) := by
  have hinf : infField start.isoCid (isoResponse layer inf chaining) = inf :=
    h.isoCid ▸ infField_isoResponse layer inf chaining
  constructor
  · simp [sendIsoResponse, sendFrame, h.sentFrames]
  · simp [sendIsoResponse, sendFrame, h.isoCid]
  · rw [List.length_append, List.length_singleton]
    exact numberAt_succ h.isoPcb
  · intro i hi
    by_cases hlast : i < frames.length
    · rw [List.getElem_append_left hlast]
      exact h.numbers i hlast
    · obtain rfl : i = frames.length := by
        rw [List.length_append, List.length_singleton] at hi
        omega
      rw [List.getElem_concat_length rfl, (isoResponse_bits layer inf chaining).1]
      exact h.isoPcb
  · intro frame hframe
    rcases List.mem_append.mp hframe with hframe | hframe
    · exact h.sizes frame hframe
    · rw [List.mem_singleton.mp hframe, hinf]
      exact ⟨hne, hsize⟩

/-- A block that could not be sent changes neither the block number nor what has been sent. -/
theorem SentBlocks.of_failed {start layer : BlockLayer} {frames : List Bytes}
    (h : SentBlocks start layer frames) (inf : Bytes) (chaining : Bool) :
    SentBlocks start (sendIsoResponse layer inf chaining false) frames :=
  ⟨h.sentFrames, h.isoCid, h.isoPcb, h.numbers, h.sizes⟩

/-- A chain that is about to send the block after the first `count`. -/
structure TxChain.Ready (message : Bytes) (count : ℕ) (chain : TxChain) : Prop where
  message : chain.data ++ statusWordBytes chain.statusWord = message
  len : chain.len = chain.data.length + 2
  offset : chain.offset = count * txChainChunkSize

/-- The chain after a number of successful sends. -/
structure TxChain.Progress (start : BlockLayer) (message : Bytes) (successes : ℕ)
    (frames : List Bytes) (chain : TxChain) : Prop where
  blocks : SentBlocks start chain.layer frames
  count : frames.length = min successes (blockCount message)
  chained : ∀ i (h : i < frames.length),
    chainingBit frames[i] = decide (i + 1 < blockCount message)
  joined : (frames.map (infField start.isoCid)).flatten =
    message.take (frames.length * txChainChunkSize)
  active : chain.active = decide (frames.length < blockCount message)
  ready : frames.length < blockCount message → chain.Ready message frames.length

variable {chain : TxChain} {message : Bytes} {count : ℕ}

/-- The chunk is the next part of the message, wherever the status word begins in it. -/
theorem TxChain.Ready.buildChunk_eq (h : chain.Ready message count) {chunkLen : ℕ}
    (hfits : chain.offset + chunkLen ≤ message.length) :
    chain.buildChunk chunkLen = (message.drop (count * txChainChunkSize)).take chunkLen := by
  have hlength : message.length = chain.data.length + 2 := by
    rw [← h.message, List.length_append]
    rfl
  apply List.ext_getElem
  · rw [buildChunk, List.length_map, List.length_range, List.length_take, List.length_drop,
      ← h.offset]
    omega
  · intro i hi hi'
    have hlen := h.len
    rw [buildChunk, List.length_map, List.length_range] at hi
    simp only [buildChunk, List.getElem_map, List.getElem_range, List.getElem_take,
      List.getElem_drop, ← h.offset, ← h.message, hlen, Nat.add_sub_cancel]
    by_cases hpayload : chain.offset + i < chain.data.length
    · rw [if_pos hpayload, List.getElem_append_left hpayload]
      exact (List.getElem_eq_getD 0).symm
    · rw [if_neg hpayload, List.getElem_append_right (Nat.le_of_not_lt hpayload)]
      by_cases hfirst : chain.offset + i - chain.data.length = 0
      · rw [if_pos hfirst]
        simp only [hfirst]
        rfl
      · obtain hsecond : chain.offset + i - chain.data.length = 1 := by omega
        rw [if_neg hfirst]
        simp only [hsecond]
        rfl

/-- Sending the next block of a chain that is not finished. -/
theorem TxChain.Ready.sendNextBlock_eq (h : chain.Ready message count)
    (hactive : chain.active = true) (hfits : message.length ≤ transportArenaSize)
    (hmore : count < blockCount message) (sent : Bool) :
    let layer := sendIsoResponse chain.layer (chunkAt message count)
      (decide (count + 1 < blockCount message)) sent
    (chain.sendNextBlock sent).1 =
      if sent = false then { chain with layer := layer }
      else if count + 1 < blockCount message then
        { chain with layer := layer, offset := (count + 1) * txChainChunkSize }
      else
        { chain with
          layer := layer, active := false, completed := true, data := [], len := 0, offset := 0,
          statusWord := 0 } := by
  have hlength : message.length = chain.data.length + 2 := by
    rw [← h.message, List.length_append]
    rfl
  have hlen := h.len
  have hoffset : chain.offset = count * 96 := h.offset
  have hsize : txChainChunkSize = 96 := rfl
  have hframe : maxTxFrameInfSize = 250 := rfl
  have hcount : blockCount message = (message.length + 95) / 96 := rfl
  have hguard : ¬(chain.active = false ∨ chain.len < 2 ∨ transportArenaSize < chain.len ∨
      chain.len ≤ chain.offset ∨ (chain.data = [] ∧ 2 < chain.len)) := by
    rintro (h | h | h | h | ⟨hnil, h⟩)
    · rw [hactive] at h
      exact absurd h (by decide)
    · omega
    · omega
    · omega
    · rw [hnil, List.length_nil] at hlen
      omega
  unfold sendNextBlock
  rw [if_neg hguard]
  dsimp only
  generalize hchunkLen : (if txChainChunkSize < chain.len - chain.offset then txChainChunkSize
    else chain.len - chain.offset) = chunkLen
  have hchunk : chunkLen = min 96 (message.length - count * 96) := by
    rw [← hchunkLen, hlen, hoffset, hlength, hsize]
    split_ifs <;> omega
  have hbuilt : chain.buildChunk chunkLen = chunkAt message count := by
    rw [h.buildChunk_eq (by omega), hchunk, chunkAt, hsize, ← List.length_drop,
      ← List.take_eq_take_min]
  have hinf : (chain.buildChunk chunkLen).length ≤ maxTxFrameInfSize := by
    rw [hbuilt, chunkAt, List.length_take]
    omega
  have hchaining : decide (chunkLen < chain.len - chain.offset) =
      decide (count + 1 < blockCount message) := by
    apply decide_eq_decide.mpr
    omega
  simp only [hchaining, hbuilt] at hinf ⊢
  rw [sendIso, if_neg (Nat.not_lt.mpr hinf)]
  cases sent with
  | false => rfl
  | true =>
    simp only [Bool.not_true, Bool.false_eq_true, if_false, Bool.true_eq_false]
    by_cases hlast : count + 1 < blockCount message
    · have hnext : chain.offset + chunkLen = (count + 1) * txChainChunkSize := by
        rw [hsize]
        omega
      rw [if_neg (by omega), if_pos hlast, hnext]
    · rw [if_pos (by omega), if_neg hlast]

/-- A block that there is carries something. -/
theorem length_chunkAt (hmore : count < blockCount message) :
    chunkAt message count ≠ [] ∧ (chunkAt message count).length ≤ txChainChunkSize := by
  have hsize : txChainChunkSize = 96 := rfl
  have hcount : blockCount message = (message.length + 95) / 96 := rfl
  have hlength : (chunkAt message count).length = min 96 (message.length - count * 96) := by
    rw [chunkAt, List.length_take, List.length_drop, hsize]
  constructor
  · apply List.ne_nil_of_length_pos
    omega
  · omega

/-- The chain after the next block has been sent. -/
theorem TxChain.Progress.snoc {start : BlockLayer} {successes : ℕ} {frames : List Bytes}
    (h : chain.Progress start message successes frames)
    (hmore : frames.length < blockCount message) {next : TxChain}
    (hlayer : next.layer = sendIsoResponse chain.layer (chunkAt message frames.length)
      (decide (frames.length + 1 < blockCount message)) true)
    (hactive : next.active = decide (frames.length + 1 < blockCount message))
    (hready : frames.length + 1 < blockCount message → next.Ready message (frames.length + 1)) :
    next.Progress start message (successes + 1) (frames ++ [isoResponse chain.layer
      (chunkAt message frames.length) (decide (frames.length + 1 < blockCount message))]) := by
  obtain ⟨hne, hsize⟩ := length_chunkAt hmore
  have hcount := h.count
  have hinf := infField_isoResponse chain.layer (chunkAt message frames.length)
    (decide (frames.length + 1 < blockCount message))
  have hbits := isoResponse_bits chain.layer (chunkAt message frames.length)
    (decide (frames.length + 1 < blockCount message))
  rw [h.blocks.isoCid] at hinf
  constructor
  · rw [hlayer]
    exact h.blocks.snoc _ hne hsize
  · rw [List.length_append, List.length_singleton]
    omega
  · intro i hi
    by_cases hlast : i < frames.length
    · rw [List.getElem_append_left hlast]
      exact h.chained i hlast
    · obtain rfl : i = frames.length := by
        rw [List.length_append, List.length_singleton] at hi
        omega
      rw [List.getElem_concat_length rfl, hbits.2]
  · rw [List.map_append, List.flatten_append, h.joined, List.map_singleton,
      List.flatten_singleton, hinf, List.length_append, List.length_singleton, Nat.succ_mul,
      List.take_add, chunkAt]
  · rw [hactive, List.length_append, List.length_singleton]
  · rw [List.length_append, List.length_singleton]
    exact hready

/-- One call moves the chain on by one block if the block is sent, and not at all otherwise. -/
theorem TxChain.Progress.sendNextBlock {start : BlockLayer} {successes : ℕ} {frames : List Bytes}
    (h : chain.Progress start message successes frames)
    (hfits : message.length ≤ transportArenaSize) (sent : Bool) :
    ∃ frames', (chain.sendNextBlock sent).1.Progress start message
      (successes + if sent then 1 else 0) frames' := by
  by_cases hmore : frames.length < blockCount message
  · have hactive : chain.active = true := by rw [h.active, decide_eq_true hmore]
    have hnext := (h.ready hmore).sendNextBlock_eq hactive hfits hmore sent
    have hcount : frames.length = successes := by
      have := h.count
      omega
    cases sent with
    | false =>
      refine ⟨frames, ?_⟩
      rw [hnext]
      exact ⟨h.blocks.of_failed _ _, h.count, h.chained, h.joined, h.active,
        fun hmore ↦ ⟨(h.ready hmore).message, (h.ready hmore).len, (h.ready hmore).offset⟩⟩
    | true =>
      dsimp only at hnext
      rw [if_neg (by decide)] at hnext
      refine ⟨_, h.snoc hmore ?_ ?_ ?_⟩
      · rw [hnext]
        split_ifs <;> rfl
      · rw [hnext]
        split_ifs with hlast
        · rw [hactive, decide_eq_true hlast]
        · exact (decide_eq_false hlast).symm
      · intro hlast
        rw [hnext, if_pos hlast]
        exact ⟨(h.ready hmore).message, (h.ready hmore).len, rfl⟩
  · have hinactive : chain.active = false := by rw [h.active, decide_eq_false hmore]
    have hsame : (chain.sendNextBlock sent).1 = chain := by
      rw [TxChain.sendNextBlock, if_pos (Or.inl hinactive)]
    refine ⟨frames, ?_⟩
    rw [hsame]
    refine ⟨h.blocks, ?_, h.chained, h.joined, h.active, h.ready⟩
    have := h.count
    split_ifs <;> omega

/-- The chain after several calls. -/
theorem TxChain.Progress.sendBlocks {start : BlockLayer} {successes : ℕ} {frames : List Bytes}
    (h : chain.Progress start message successes frames)
    (hfits : message.length ≤ transportArenaSize) (outcomes : List Bool) :
    ∃ frames', (chain.sendBlocks outcomes).Progress start message
      (successes + outcomes.count true) frames' := by
  induction outcomes generalizing chain successes frames with
  | nil => exact ⟨frames, h⟩
  | cons sent outcomes ih =>
    obtain ⟨frames', hnext⟩ := h.sendNextBlock hfits sent
    obtain ⟨final, hfinal⟩ := ih hnext
    refine ⟨final, ?_⟩
    have hcount : successes + (sent :: outcomes).count true =
        successes + (if sent then 1 else 0) + outcomes.count true := by
      cases sent <;> simp [Nat.add_assoc, Nat.add_comm 1]
    rw [hcount]
    exact hfinal

/-- A response sent in blocks. Whatever the outcome of each send, the blocks that were sent carry
the beginning of the payload and the status word. Each of them has between one byte and the size of
a chunk, their numbers alternate, and all but the last one have the chaining bit. The chain is
active until the last block has been sent, and then the blocks carry the whole response. -/
theorem tx_chain_lossless (start : TxChain) (data : Bytes) (statusWord : UInt16) (first : Bool)
    (outcomes : List Bool) (hdata : data.length ≤ transportArenaSize - 2) :
    let message := data ++ statusWordBytes statusWord
    let final := (start.beginChainedApduPayload data statusWord first).1.sendBlocks outcomes
    let cid := start.layer.isoCid
    ∃ frames, final.layer.sentFrames = start.layer.sentFrames ++ frames ∧
      (∀ frame ∈ frames, infField cid frame ≠ [] ∧
        (infField cid frame).length ≤ txChainChunkSize) ∧
      (∀ i (h : i < frames.length),
        blockNumber frames[i] = numberAt start.layer.isoPcb i ∧
        chainingBit frames[i] = decide (i + 1 < blockCount message)) ∧
      frames.length = min ((first :: outcomes).count true) (blockCount message) ∧
      (frames.map (infField cid)).flatten = message.take (frames.length * txChainChunkSize) ∧
      (final.active = true ↔ frames.length < blockCount message) ∧
      (final.active = false → (frames.map (infField cid)).flatten = message) := by
  have hsize : txChainChunkSize = 96 := rfl
  have harena : transportArenaSize = 1026 := rfl
  have hlength : (data ++ statusWordBytes statusWord).length = data.length + 2 :=
    List.length_append
  have hfits : (data ++ statusWordBytes statusWord).length ≤ transportArenaSize := by omega
  have hcount : blockCount (data ++ statusWordBytes statusWord) = (data.length + 2 + 95) / 96 := by
    rw [blockCount, hlength, hsize]
  have hbegun : TxChain.Progress start.layer (data ++ statusWordBytes statusWord) 0 []
      { start.clear with
        data := data, len := data.length + 2, offset := 0, statusWord := statusWord,
        active := true } := by
    refine ⟨.nil start.layer, (Nat.zero_min _).symm, fun _ h ↦ absurd h (Nat.not_lt_zero _), ?_, ?_,
      fun _ ↦ ⟨rfl, rfl, ?_⟩⟩
    · simp
    · rw [List.length_nil, decide_eq_true (by omega)]
    · rw [List.length_nil, Nat.zero_mul]
  obtain ⟨frames', hfirst⟩ := hbegun.sendNextBlock hfits first
  obtain ⟨frames, hfinal⟩ := hfirst.sendBlocks hfits outcomes
  have hbegin : (start.beginChainedApduPayload data statusWord first).1 =
      (TxChain.sendNextBlock { start.clear with
        data := data, len := data.length + 2, offset := 0, statusWord := statusWord,
        active := true } first).1 := by
    rw [TxChain.beginChainedApduPayload, if_neg (Nat.not_lt.mpr hdata)]
  have hsuccesses : 0 + (if first then 1 else 0) + outcomes.count true =
      (first :: outcomes).count true := by
    cases first <;> simp [Nat.add_comm 1]
  rw [hsuccesses, ← hbegin] at hfinal
  refine ⟨frames, hfinal.blocks.sentFrames, hfinal.blocks.sizes, fun i h ↦
    ⟨hfinal.blocks.numbers i h, hfinal.chained i h⟩, hfinal.count, hfinal.joined, ?_, ?_⟩
  · rw [hfinal.active, decide_eq_true_iff]
  · intro hinactive
    rw [hfinal.active, decide_eq_false_iff_not] at hinactive
    rw [hfinal.joined, List.take_of_length_le]
    rw [hsize]
    omega

/-- A payload that leaves one byte of the status word for a second block, of which three sends
fail. -/
theorem tx_chain_lossless_split_status :
    ∃ frames, ((({} : TxChain).beginChainedApduPayload (List.replicate 95 7) 0x9000
        false).1.sendBlocks [true, false, false, true]).layer.sentFrames = frames ∧
      frames.length = 2 ∧
      (frames.map (infField none)).flatten = List.replicate 95 7 ++ [0x90, 0x00] := by
  obtain ⟨frames, hsent, -, -, hcount, -, -, hall⟩ :=
    tx_chain_lossless {} (List.replicate 95 7) 0x9000 false [true, false, false, true] (by decide)
  exact ⟨frames, hsent, hcount, hall (by decide +kernel)⟩

end Lossless

section Exchange

/-- The chain as the exchange sees it: one buffer that holds the payload and the status word. -/
structure TxChain.Models (chain : TxChain) (app : NfcApp) : Prop where
  active : app.txChainActive = chain.active
  completed : app.txChainCompleted = chain.completed
  ready : chain.active = true → app.txChainData.length ≤ transportArenaSize ∧
    ∃ count, count < blockCount app.txChainData ∧ chain.Ready app.txChainData count ∧
      app.txChainOffset = count * txChainChunkSize

/-- The exchange's step at the beginning of a block. -/
theorem sendNextTxChainBlock_eq {app : NfcApp} {count : ℕ} (hactive : app.txChainActive = true)
    (hoffset : app.txChainOffset = count * txChainChunkSize)
    (hmore : count < blockCount app.txChainData) (sent : Bool) :
    sendNextTxChainBlock app sent =
      if sent = false then transmit app (chunkAt app.txChainData count)
      else if count + 1 < blockCount app.txChainData then
        { transmit app (chunkAt app.txChainData count) with
          txChainOffset := (count + 1) * txChainChunkSize }
      else
        { clearTxChain (transmit app (chunkAt app.txChainData count)) with
          txChainCompleted := true } := by
  have hsize : txChainChunkSize = 96 := rfl
  have hcount : blockCount app.txChainData = (app.txChainData.length + 95) / 96 := rfl
  have hchunk : (app.txChainData.drop app.txChainOffset).take txChainChunkSize =
      chunkAt app.txChainData count := by rw [chunkAt, hoffset]
  have hlength : (chunkAt app.txChainData count).length =
      min 96 (app.txChainData.length - count * 96) := by
    rw [chunkAt, List.length_take, List.length_drop, hsize]
  have hmissing : ¬app.txChainData.length ≤ app.txChainOffset := by
    rw [hoffset, hsize]
    omega
  unfold sendNextTxChainBlock
  rw [hactive, decide_eq_false hmissing, if_neg (by decide)]
  dsimp only
  rw [hchunk]
  cases sent with
  | false => rfl
  | true =>
    simp only [Bool.not_true, Bool.false_eq_true, if_false, Bool.true_eq_false]
    by_cases hlast : count + 1 < blockCount app.txChainData
    · have hnext : app.txChainOffset + (chunkAt app.txChainData count).length =
          (count + 1) * txChainChunkSize := by
        rw [hoffset, hsize]
        omega
      have hwithin : ¬app.txChainData.length ≤ (count + 1) * txChainChunkSize := by
        rw [hsize]
        omega
      rw [if_pos hlast, ← hnext]
      exact if_neg (hnext ▸ hwithin)
    · have hend : app.txChainData.length ≤
          app.txChainOffset + (chunkAt app.txChainData count).length := by
        rw [hoffset, hsize]
        omega
      rw [if_neg hlast]
      exact if_pos hend

/-- Sending a block is the exchange's step on that buffer. -/
theorem TxChain.Models.sendNextBlock {chain : TxChain} {app : NfcApp} (h : chain.Models app)
    (sent : Bool) : (chain.sendNextBlock sent).1.Models (sendNextTxChainBlock app sent) := by
  cases hactive : chain.active with
  | false =>
    have hsame : (chain.sendNextBlock sent).1 = chain := by
      rw [TxChain.sendNextBlock, if_pos (Or.inl hactive)]
    have hsame' : sendNextTxChainBlock app sent = app := by
      rw [sendNextTxChainBlock, h.active, hactive]
      rfl
    rw [hsame, hsame']
    exact h
  | true =>
    obtain ⟨hfits, count, hmore, hready, hoffset⟩ := h.ready hactive
    have hnext := hready.sendNextBlock_eq hactive hfits hmore sent
    have hnext' := sendNextTxChainBlock_eq (h.active.trans hactive) hoffset hmore sent
    cases sent with
    | false =>
      rw [hnext, hnext']
      exact ⟨h.active, h.completed, fun _ ↦ ⟨hfits, count, hmore,
        ⟨hready.message, hready.len, hready.offset⟩, hoffset⟩⟩
    | true =>
      dsimp only at hnext
      rw [if_neg (by decide)] at hnext hnext'
      rw [hnext, hnext']
      by_cases hlast : count + 1 < blockCount app.txChainData
      · rw [if_pos hlast, if_pos hlast]
        exact ⟨h.active, h.completed, fun _ ↦ ⟨hfits, count + 1, hlast,
          ⟨hready.message, hready.len, rfl⟩, rfl⟩⟩
      · rw [if_neg hlast, if_neg hlast]
        exact ⟨rfl, rfl, fun h ↦ absurd h Bool.false_ne_true⟩

/-- Beginning a response that fits is the exchange's step on a buffer that holds all of it. -/
theorem TxChain.Models.begin {chain : TxChain} {app : NfcApp} {data : Bytes}
    (hdata : data.length ≤ transportArenaSize - 2) (statusWord : UInt16) (sent : Bool) :
    (chain.beginChainedApduPayload data statusWord sent).1.Models
      (Nfc.beginChainedApduPayload app data statusWord sent) := by
  have hlength : (data ++ statusWordBytes statusWord).length = data.length + 2 :=
    List.length_append
  have harena : transportArenaSize = 1026 := rfl
  have hcount : 0 < blockCount (data ++ statusWordBytes statusWord) := by
    rw [blockCount, hlength]
    exact Nat.div_pos (by simp [txChainChunkSize]) (by decide)
  rw [TxChain.beginChainedApduPayload, Nfc.beginChainedApduPayload,
    if_neg (Nat.not_lt.mpr hdata), if_neg (Nat.not_lt.mpr hdata)]
  refine TxChain.Models.sendNextBlock ⟨rfl, rfl, fun _ ↦ ⟨?_, 0, hcount, ⟨rfl, rfl, ?_⟩, ?_⟩⟩ sent
  · show (data ++ statusWordBytes statusWord).length ≤ transportArenaSize
    omega
  · exact (Nat.zero_mul _).symm
  · exact (Nat.zero_mul _).symm

end Exchange

end ZeroFido.Nfc
