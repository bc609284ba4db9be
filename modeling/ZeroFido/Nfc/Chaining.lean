import ZeroFido.Nfc.Blocks

/-!
# Requests that are split over chained APDUs

A reader may split a CTAP2 request over APDUs with the chaining bit. The dispatcher collects their
data in the arena and raises the flag that also says that an ISO-DEP chain is being received, so
the listener appends the next block to the collected data, header and all, and takes the whole for
an APDU. What the CTAP2 command gets is the request for every last APDU exactly when the chained
ones carry no data (`chained_request_reassembled_iff`).
-/

set_option autoImplicit false
set_option relaxedAutoImplicit false

namespace ZeroFido.Nfc

open Foundations

section Statement

/-- A block of its own that carries a CTAP2 message. A frame has at most two bytes more than
`maxRxFrameInfSize`, the first of which is the PCB. -/
structure CarriesMessage (chained : Bool) (block : CommandBlock) (apdu : NfcApdu) : Prop where
  fits : block.payload.length ≤ maxRxFrameInfSize + 1
  parsed : parseApdu block.payload = some apdu
  message : IsMessage chained apdu

/-- The data field of the APDU in a block. -/
def messageData (block : CommandBlock) : Bytes :=
  match parseApdu block.payload with
  | some apdu => apdu.data
  | none => []

/-- The request that the blocks carry. -/
def splitRequest (blocks : List CommandBlock) : Bytes := blocks.flatMap messageData

/-- A request of 1 to 1024 bytes is split into chained APDUs and a last one that is not chained. -/
structure IsSplit (chained : List CommandBlock) (final : CommandBlock) : Prop where
  nonempty : chained ≠ []
  enabled : final.capabilities.fido2Enabled = true
  allChained : ∀ block ∈ chained, ∃ apdu, CarriesMessage true block apdu
  lastUnchained : ∃ apdu, CarriesMessage false final apdu
  pos : 0 < (splitRequest (chained ++ [final])).length
  length : (splitRequest (chained ++ [final])).length ≤ maxMsgSize

/-- The applet is selected, the exchange is not busy, and nothing has been collected. -/
structure NothingCollected (app : NfcApp) : Prop where
  callback : app.callback = .idle
  running : app.stopping = false
  selected : app.appletSelected = true
  notBusy : exchangeBusy app = false
  noError : app.responseIsError = false
  requestLen : app.requestLen = 0

variable (handlers : Handlers)

/-- The state after the blocks. -/
def received (app : NfcApp) (blocks : List CommandBlock) : NfcApp :=
  run (nfcStep handlers) app (blocks.map CommandBlock.event)

/-- The one request that is passed on to the CTAP2 commands is the one that was split, and if it
waits for the worker, the worker will find it. -/
structure Reassembled (app : NfcApp) (chained : List CommandBlock) (final : CommandBlock) : Prop where
  handed : (received handlers app (chained ++ [final])).handed =
    app.handed ++ [splitRequest (chained ++ [final])]
  pending : (received handlers app (chained ++ [final])).requestPending = true →
    (received handlers app (chained ++ [final])).transportArena.take
      (received handlers app (chained ++ [final])).requestLen = splitRequest (chained ++ [final])

end Statement

section Apdus

variable {payload : Bytes} {apdu : NfcApdu}

theorem parseShortBody_some {start : NfcApdu} {lc : ℕ} {rest : Bytes}
    (h : parseShortBody start lc rest = some apdu) :
    apdu.data.length = lc ∧ (rest.length = lc ∨ rest.length = lc + 1) ∧
      apdu.ins = start.ins ∧ apdu.p2 = start.p2 := by
  unfold parseShortBody at h
  split_ifs at h with hshort
  have hdrop : (rest.drop lc).length = rest.length - lc := List.length_drop
  split at h
  · rename_i hnone
    rw [hnone] at hdrop
    obtain rfl := Option.some.inj h
    exact ⟨List.length_take_of_le (by omega), Or.inl (by simp at hdrop; omega), rfl, rfl⟩
  · rename_i hone
    rw [hone] at hdrop
    obtain rfl := Option.some.inj h
    exact ⟨List.length_take_of_le (by omega), Or.inr (by simp at hdrop; omega), rfl, rfl⟩
  · contradiction

theorem parseExtendedBody_some {start : NfcApdu} {lc : ℕ} {rest : Bytes}
    (h : parseExtendedBody start lc rest = some apdu) :
    apdu.data.length = lc ∧ (rest.length = lc ∨ rest.length = lc + 2) ∧
      apdu.ins = start.ins ∧ apdu.p2 = start.p2 := by
  unfold parseExtendedBody at h
  split_ifs at h with hshort
  have hdrop : (rest.drop lc).length = rest.length - lc := List.length_drop
  split at h
  · rename_i hnone
    rw [hnone] at hdrop
    obtain rfl := Option.some.inj h
    exact ⟨List.length_take_of_le (by omega), Or.inl (by simp at hdrop; omega), rfl, rfl⟩
  · rename_i htwo
    rw [htwo] at hdrop
    obtain rfl := Option.some.inj h
    exact ⟨List.length_take_of_le (by omega), Or.inr (by simp at hdrop; omega), rfl, rfl⟩
  · contradiction

/-- What is left of an APDU after the byte that says how its length is written. -/
inductive BodyLength (lc : UInt8) (tail : Bytes) (count : ℕ) : Prop where
  | short (hlc : lc ≠ 0) (hcount : count = lc.toNat)
    (htail : tail.length = count ∨ tail.length = count + 1)
  | extended {high low : UInt8} {rest : Bytes} (hlc : lc = 0) (hrest : tail = high :: low :: rest)
    (hcount : count = length16 high low) (htail : rest.length = count ∨ rest.length = count + 2)

theorem parseApdu_some {cla ins p1 p2 : UInt8} {body : Bytes}
    (h : parseApdu (cla :: ins :: p1 :: p2 :: body) = some apdu) :
    apdu.ins = ins ∧ apdu.p2 = p2 ∧
      (apdu.data = [] ∨ ∃ lc tail, body = lc :: tail ∧ BodyLength lc tail apdu.data.length) := by
  unfold parseApdu at h
  dsimp only at h
  split at h
  · obtain rfl := Option.some.inj h
    exact ⟨rfl, rfl, Or.inl rfl⟩
  · obtain rfl := Option.some.inj h
    exact ⟨rfl, rfl, Or.inl rfl⟩
  · split at h
    · obtain rfl := Option.some.inj h
      exact ⟨rfl, rfl, Or.inl rfl⟩
    · obtain ⟨hcount, htail, hins, hp2⟩ := parseExtendedBody_some h
      exact ⟨hins, hp2, Or.inr ⟨_, _, rfl, .extended rfl rfl hcount (by rwa [hcount])⟩⟩
    · contradiction
  · rename_i lc rest hnotOne hnotZero
    obtain ⟨hcount, htail, hins, hp2⟩ := parseShortBody_some h
    refine ⟨hins, hp2, Or.inr ⟨_, _, rfl, .short ?_ hcount (by rwa [hcount])⟩⟩
    rintro rfl
    exact hnotZero rfl

end Apdus

section Steps

variable {handlers : Handlers} {app base next : NfcApp} {apdu : NfcApdu}

theorem take_writeArena (arena data : Bytes) : (writeArena arena 0 data).take data.length = data := by
  simp [writeArena]

/-- What an APDU that is not part of a chain passes on. -/
theorem Handled.handed (h : Handled apdu base next) :
    next.handed = base.handed ∨
      (IsMessage false apdu ∧ apdu.data ≠ [] ∧ next.handed = base.handed ++ [apdu.data]) := by
  cases h with
  | quiet h => exact Or.inl h.handed
  | informed hmessage hdata h =>
    refine Or.inr ⟨hmessage, by simp [hdata], ?_⟩
    rw [hdata]
    exact h.handed
  | u2f hcla => exact Or.inl rfl
  | collected _ _ _ hhanded => exact Or.inl hhanded
  | message hmessage hselected hpos hlength =>
    have hne : apdu.data ≠ [] := List.ne_nil_of_length_pos hpos
    unfold finishCtap2Msg
    dsimp only
    split_ifs
    · right
      refine ⟨hmessage, hne, ?_⟩
      unfold startCtap2Direct
      rw [if_neg (by simp only [messageTaken]; omega)]
      simp only [messageTaken, take_writeArena]
    · split
      · rename_i hqueue
        left
        unfold queueRequest at hqueue
        split_ifs at hqueue
        · rw [← (Prod.mk.inj hqueue).2]
          rfl
        · simp at hqueue
      · rename_i hqueue
        right
        refine ⟨hmessage, hne, ?_⟩
        obtain ⟨-, -, -, rfl⟩ := queueRequest_queued hqueue
        rw [sendBusyStatus, (quiet_sendApduPayload _ _ _).handed]
        simp only [messageTaken, take_writeArena]

/-- What a block does when it carries an APDU and the listener looks at it. -/
theorem nfcStep_block (block : CommandBlock) (hlength : 4 ≤ block.payload.length) :
    Quiet app (nfcStep handlers app block.event) ∨
      ∃ base : NfcApp, base.handed = app.handed ∧ base.commandChainActive = false ∧
        nfcStep handlers app block.event = handleApdu handlers base
          (assembledFrame app block.payload) block.capabilities block.surroundings ∧
        (app.commandChainActive = true →
          (assembledFrame app block.payload).length ≤ maxMsgSize) := by
  by_cases hcallback : app.callback = .idle
  · by_cases hrunning : app.stopping = false
    · obtain ⟨hempty, hversion, hadditional⟩ := ne_native_of_four_le hlength
      rw [CommandBlock.event, nfcStep_iBlock hcallback hrunning]
      unfold handleIso4Payload
      rw [if_neg (by simp [hempty]), if_neg (by simp [hversion, hadditional])]
      split_ifs with hactive hchained hchain hdefers
      · exact Or.inl ((quiet_sendApduPayload _ _ _).after ⟨rfl, rfl, rfl, id⟩)
      · contradiction
      · unfold handleAssembledPayload
        split_ifs with hoverflow
        · exact Or.inl ((quiet_sendStatusWord _ _).after ⟨rfl, rfl, rfl, fun _ ↦ rfl⟩)
        · right
          have hactive' : app.commandChainActive = true := hchain
          have hlen : (blockReceived app).requestLen = app.requestLen := rfl
          refine ⟨chainTaken (blockReceived app) block.payload, rfl, rfl, ?_, ?_⟩
          · dsimp only
            rw [take_writeArena_append, assembledFrame, if_pos hactive']
            rfl
          · intro _
            rw [assembledFrame, if_pos hactive', List.length_append, List.length_take]
            omega
      · exact Or.inl ((quiet_sendDeferredResponseOrWtx _ _).after ⟨rfl, rfl, rfl, id⟩)
      · right
        have hreceived : (blockReceived app).commandChainActive = false := by simpa using hchain
        have hinactive : app.commandChainActive = false := hreceived
        refine ⟨blockReceived app, rfl, hreceived, ?_, ?_⟩
        · rw [assembledFrame, if_neg (by simp [hinactive])]
          rfl
        · simp [hinactive]
    · left
      show Quiet app (if app.stopping || app.callback != .idle then app else handleReaderEvent handlers app _)
      rw [if_pos (by simp [hrunning])]
      exact .refl app
  · left
    show Quiet app (if app.stopping || app.callback != .idle then app else handleReaderEvent handlers app _)
    rw [if_pos (by simp [hcallback])]
    exact .refl app

/-- What a block passes on. -/
theorem handed_nfcStep (block : CommandBlock) (hlength : 4 ≤ block.payload.length) :
    (nfcStep handlers app block.event).handed = app.handed ∨
      ∃ apdu, parseApdu (assembledFrame app block.payload) = some apdu ∧ IsMessage false apdu ∧
        apdu.data ≠ [] ∧ (nfcStep handlers app block.event).handed = app.handed ++ [apdu.data] ∧
        (app.commandChainActive = true →
          (assembledFrame app block.payload).length ≤ maxMsgSize) := by
  rcases @nfcStep_block handlers app block hlength with hquiet | ⟨base, hhanded, hchain, heq, hfits⟩
  · exact Or.inl hquiet.handed
  · rw [heq]
    cases hparsed : parseApdu (assembledFrame app block.payload) with
    | none =>
      left
      unfold handleApdu
      rw [hparsed]
      exact hhanded
    | some apdu =>
      have hhandled := @handleApdu_handled handlers base apdu _ block.capabilities
        block.surroundings hparsed hchain
      rw [← hhanded]
      rcases hhandled.handed with hsame | ⟨hmessage, hne, hnext⟩
      · exact Or.inl hsame
      · exact Or.inr ⟨apdu, rfl, hmessage, hne, hnext, hfits⟩

end Steps

section Spoiled

variable {handlers : Handlers} {app : NfcApp}

theorem data_length_of_parseApdu {payload : Bytes} {apdu : NfcApdu}
    (h : parseApdu payload = some apdu) : apdu.data.length + 4 ≤ payload.length := by
  have hlength := four_le_length_of_parseApdu h
  rcases payload with _ | ⟨cla, _ | ⟨ins, _ | ⟨p1, _ | ⟨p2, body⟩⟩⟩⟩
  · simp at hlength
  · simp at hlength
  · simp at hlength
  · simp at hlength
  · obtain ⟨-, -, hnone | ⟨lc, tail, rfl, hbody⟩⟩ := parseApdu_some h
    · rw [hnone]
      simp
    · simp only [List.length_cons]
      cases hbody with
      | short _ _ htail => omega
      | extended _ hrest _ htail =>
        rw [hrest]
        simp only [List.length_cons]
        omega

/-- The requests that the chained APDUs already pass on are short: they lie in the collected data.
-/
theorem handed_chained {chained : List CommandBlock}
    (hchained : ∀ block ∈ chained, ∃ apdu, CarriesMessage true block apdu) :
    ∃ requests : List Bytes, (received handlers app chained).handed = app.handed ++ requests ∧
      ∀ request ∈ requests, request.length < maxMsgSize := by
  induction chained generalizing app with
  | nil => exact ⟨[], by simp [received, run_nil], by simp⟩
  | cons block rest ih =>
    obtain ⟨carried, hcarries⟩ := hchained block List.mem_cons_self
    have hlength := four_le_length_of_parseApdu hcarries.parsed
    obtain ⟨requests, hhanded, hshort⟩ := @ih (nfcStep handlers app block.event)
      fun later hmem ↦ hchained later (List.mem_cons_of_mem _ hmem)
    have hreceived : received handlers app (block :: rest) =
        received handlers (nfcStep handlers app block.event) rest := by
      simp [received, run_cons]
    rw [hreceived, hhanded]
    rcases @handed_nfcStep handlers app block hlength with
      hsame | ⟨apdu, hparsed, hmessage, -, hnext, hfits⟩
    · exact ⟨requests, by rw [hsame], hshort⟩
    · refine ⟨apdu.data :: requests, by simp [hnext], ?_⟩
      intro request hmem
      rcases List.mem_cons.mp hmem with rfl | hlater
      · cases hchain : app.commandChainActive with
        | true =>
          have hdata := data_length_of_parseApdu hparsed
          have hframe := hfits hchain
          omega
        | false =>
          -- the block is taken for what it is, a chained APDU
          rw [assembledFrame, if_neg (by simp [hchain]), List.nil_append, hcarries.parsed] at hparsed
          have hunchained := hmessage.chained
          rw [← Option.some.inj hparsed, hcarries.message.chained] at hunchained
          contradiction
      · exact hshort request hlater

/-- A last APDU without data. -/
def lastBlock (body : Bytes) : CommandBlock where
  pcb := 0x02
  payload := [0x80, 0x10, 0x00, 0x00] ++ body
  capabilities := { fido2Enabled := true, u2fEnabled := false }
  surroundings := {}

/-- The bytes before the last APDU do not make the same request of both last APDUs. -/
theorem request_ne_of_lastBlocks {collected : Bytes} {apdu other : NfcApdu}
    (hparsed : parseApdu (collected ++ (lastBlock []).payload) = some apdu)
    (hother : parseApdu (collected ++ (lastBlock [0x00, 0x00, 0x00]).payload) = some other)
    (hmessage : IsMessage false apdu) (hne : apdu.data ≠ []) : other.data ≠ apdu.data := by
  intro hsame
  have hp2 : apdu.p2 = 0 := by
    have hvalid := hmessage.parameters
    simp only [ctapMsgP1P2Valid, Bool.and_eq_true, beq_iff_eq] at hvalid
    exact hvalid.2
  have hins := hmessage.ins
  simp only [lastBlock, List.append_nil] at hparsed hother
  rcases collected with _ | ⟨cla, _ | ⟨ins, _ | ⟨p1, _ | ⟨p2, _ | ⟨lc, rest⟩⟩⟩⟩⟩
  · obtain ⟨-, -, hnone | ⟨lc, tail, hbody, -⟩⟩ := parseApdu_some hparsed
    · exact hne hnone
    · simp at hbody
  · obtain ⟨hins', -⟩ := parseApdu_some hparsed
    rw [hins] at hins'
    simp [insCtapMsg] at hins'
  · obtain ⟨-, hp2', -⟩ := parseApdu_some hparsed
    rw [hp2] at hp2'
    simp at hp2'
  · obtain ⟨-, hp2', -⟩ := parseApdu_some hparsed
    rw [hp2] at hp2'
    simp at hp2'
  · obtain ⟨-, -, hnone | ⟨lc, tail, hbody, hlength⟩⟩ := parseApdu_some hparsed
    · exact hne hnone
    · obtain ⟨rfl, rfl⟩ := List.cons.inj hbody
      cases hlength with
      | short _ hcount htail =>
        simp at hcount htail
        omega
      | extended hlc => simp at hlc
  · obtain ⟨-, -, hnone | ⟨lc', tail, hbody, hlength⟩⟩ := parseApdu_some hparsed
    · exact hne hnone
    · obtain ⟨-, -, hnone | ⟨lc'', tail', hbody', hlength'⟩⟩ := parseApdu_some hother
      · exact hne (hsame.symm.trans hnone)
      · obtain ⟨rfl, rfl⟩ := List.cons.inj hbody
        obtain ⟨rfl, rfl⟩ := List.cons.inj hbody'
        rw [hsame] at hlength'
        cases hlength with
        | short hlc _ htail =>
          cases hlength' with
          | short _ _ htail' =>
            simp only [List.append_eq, List.length_append, List.length_cons] at htail htail'
            omega
          | extended hlc' => exact absurd hlc' hlc
        | extended hlc hrest _ htail =>
          cases hlength' with
          | short hlc' => exact absurd hlc hlc'
          | extended _ hrest' _ htail' =>
            have hcount := congrArg List.length hrest
            have hcount' := congrArg List.length hrest'
            simp only [List.append_eq, List.length_append, List.length_cons] at hcount hcount'
            omega

theorem splitRequest_append (blocks later : List CommandBlock) :
    splitRequest (blocks ++ later) = splitRequest blocks ++ splitRequest later := by
  simp [splitRequest]

theorem received_append_one (blocks : List CommandBlock) (block : CommandBlock) :
    received handlers app (blocks ++ [block]) =
      nfcStep handlers (received handlers app blocks) block.event := by
  simp [received, run_append, run_cons, run_nil]

/-- A last APDU completes a split. -/
theorem isSplit_lastBlock {chained : List CommandBlock} {body data : Bytes} {apdu : NfcApdu}
    (hne : chained ≠ [])
    (hchained : ∀ block ∈ chained, ∃ apdu, CarriesMessage true block apdu)
    (hcarries : CarriesMessage false (lastBlock body) apdu)
    (hdata : splitRequest [lastBlock body] = data) (hpos : splitRequest chained ≠ [])
    (hlength : (splitRequest chained).length + data.length ≤ maxMsgSize) :
    IsSplit chained (lastBlock body) where
  nonempty := hne
  enabled := rfl
  allChained := hchained
  lastUnchained := ⟨apdu, hcarries⟩
  pos := by
    rw [splitRequest_append, List.length_append]
    have := List.length_pos_of_ne_nil hpos
    omega
  length := by
    rw [splitRequest_append, List.length_append, hdata]
    exact hlength

/-- When chained APDUs carry data, what is passed on is not the request for every last APDU. -/
theorem spoiled {chained : List CommandBlock} (hne : chained ≠ [])
    (hchained : ∀ block ∈ chained, ∃ apdu, CarriesMessage true block apdu)
    (hlength : (splitRequest chained).length ≤ maxMsgSize) (hdata : splitRequest chained ≠ []) :
    ∃ final, IsSplit chained final ∧ ¬Reassembled handlers app chained final := by
  by_contra hnone
  have hall : ∀ final, IsSplit chained final → Reassembled handlers app chained final :=
    fun final hsplit ↦ by_contra fun hspoiled ↦ hnone ⟨final, hsplit, hspoiled⟩
  have hempty : IsSplit chained (lastBlock []) :=
    @isSplit_lastBlock chained [] [] _ hne hchained ⟨by decide, rfl, rfl, rfl, rfl, rfl⟩ rfl hdata
      (by simpa using hlength)
  have hlong : IsSplit chained (lastBlock [0x00, 0x00, 0x00]) :=
    @isSplit_lastBlock chained [0x00, 0x00, 0x00] [] _ hne hchained
      ⟨by decide, rfl, rfl, rfl, rfl, rfl⟩ rfl hdata (by simpa using hlength)
  obtain ⟨requests, hhanded, hshort⟩ := @handed_chained handlers app chained hchained
  have hrequest : ∀ body, IsSplit chained (lastBlock body) →
      (nfcStep handlers (received handlers app chained) (lastBlock body).event).handed =
        app.handed ++ [splitRequest chained ++ splitRequest [lastBlock body]] := by
    intro body hsplit
    have h := (hall _ hsplit).handed
    rwa [received_append_one, splitRequest_append] at h
  have hfirst := hrequest [] hempty
  have hsecond := hrequest _ hlong
  have hnothing : splitRequest [lastBlock []] = [] := rfl
  have hnothing' : splitRequest [lastBlock [0x00, 0x00, 0x00]] = [] := rfl
  rw [hnothing, List.append_nil] at hfirst
  rw [hnothing', List.append_nil] at hsecond
  rcases @handed_nfcStep handlers (received handlers app chained) (lastBlock []) (by decide) with
    hsame | ⟨apdu, hparsed, hmessage, hapdu, hnext, -⟩
  · -- the request has been passed on before the last APDU, whose data can only spoil it
    rw [hsame, hhanded, List.append_cancel_left_eq] at hfirst
    have hless : (splitRequest chained).length < maxMsgSize := hshort _ (by rw [hfirst]; simp)
    have hthird := hrequest [0x01, 0x00]
      (@isSplit_lastBlock chained [0x01, 0x00] [0x00] _ hne hchained
        ⟨by decide, rfl, rfl, rfl, rfl, rfl⟩ rfl hdata hless)
    rcases @handed_nfcStep handlers (received handlers app chained) (lastBlock [0x01, 0x00])
      (by decide) with hsame' | ⟨apdu, -, -, -, hnext, -⟩
    · rw [hsame', hhanded, hfirst] at hthird
      simp [splitRequest, messageData, lastBlock, parseApdu, parseShortBody] at hthird
    · rw [hnext, hhanded, hfirst] at hthird
      simp at hthird
  · rw [hnext, hhanded, List.append_assoc, List.append_cancel_left_eq] at hfirst
    obtain ⟨rfl, hapdu'⟩ : requests = [] ∧ apdu.data = splitRequest chained := by
      rcases requests with _ | ⟨first, rest⟩
      · simpa using hfirst
      · simp at hfirst
    rcases @handed_nfcStep handlers (received handlers app chained) (lastBlock [0x00, 0x00, 0x00])
      (by decide) with hsame' | ⟨other, hother, -, -, hnext', -⟩
    · rw [hsame', hhanded] at hsecond
      simp at hsecond
    · rw [hnext', hhanded, List.append_nil, List.append_cancel_left_eq] at hsecond
      refine request_ne_of_lastBlocks hparsed hother hmessage hapdu ?_
      rw [hapdu']
      exact (List.cons.inj hsecond).1

end Spoiled

section Kept

variable {handlers : Handlers} {app : NfcApp} {apdu : NfcApdu}

theorem NothingCollected.inactive (h : NothingCollected app) : requestWorkerActive app = false := by
  have hbusy := h.notBusy
  simp only [exchangeBusy, Bool.or_eq_false_iff] at hbusy
  exact hbusy.2

/-- While nothing is collected a block is looked at as it is, whether or not a chain is active. -/
theorem nfcStep_nothingCollected (h : NothingCollected app) {block : CommandBlock}
    (hlength : 4 ≤ block.payload.length) (hfits : block.payload.length ≤ maxMsgSize) :
    ∃ base : NfcApp, NothingCollected base ∧ base.handed = app.handed ∧
      base.commandChainActive = false ∧ nfcStep handlers app block.event =
        handleApdu handlers base block.payload block.capabilities block.surroundings := by
  have hlen : (blockReceived app).requestLen = 0 := h.requestLen
  have hnotBusy := h.notBusy
  simp only [exchangeBusy, Bool.or_eq_false_iff] at hnotBusy
  obtain ⟨⟨⟨⟨hprocessing, hpending⟩, hready⟩, htx⟩, hactive⟩ := hnotBusy
  cases hchain : app.commandChainActive with
  | false =>
    refine ⟨blockReceived app, ?_, rfl, hchain, ?_⟩
    · exact ⟨h.callback, h.running, h.selected, h.notBusy, h.noError, h.requestLen⟩
    · exact nfcStep_command h.callback h.running hchain hactive hlength
        (by simp [defers, hprocessing, hready, h.noError])
  | true =>
    refine ⟨chainTaken (blockReceived app) block.payload, ?_, rfl, rfl, ?_⟩
    · exact ⟨h.callback, h.running, h.selected, h.notBusy, h.noError, rfl⟩
    · obtain ⟨hempty, hversion, hadditional⟩ := ne_native_of_four_le hlength
      have hchain' : (blockReceived app).commandChainActive = true := hchain
      have hinactive : requestWorkerActive (blockReceived app) = false := hactive
      rw [CommandBlock.event, nfcStep_iBlock h.callback h.running]
      unfold handleIso4Payload
      rw [if_neg (by simp [hempty]), if_neg (by simp [hversion, hadditional]),
        if_neg (by simp [hinactive]), if_neg (by simp), if_pos hchain']
      unfold handleAssembledPayload
      rw [if_neg (by rw [hlen]; omega)]
      dsimp only
      rw [take_writeArena_append, hlen, List.take_zero, List.nil_append]
      simp only [chainTaken, hlen]

/-- A CTAP2 message on the selected applet. -/
theorem handleApdu_message {payload : Bytes} {capabilities : NfcCapabilities}
    {surroundings : Surroundings} {chained : Bool} (hselected : app.appletSelected = true)
    (hparsed : parseApdu payload = some apdu) (hmessage : IsMessage chained apdu) :
    handleApdu handlers app payload capabilities surroundings =
      handleAppletApdu handlers { app with arenaAttached := true } apdu capabilities
        surroundings := by
  unfold handleApdu
  dsimp only
  rw [hparsed]
  dsimp only
  rw [if_neg (by simp [isNdefSelectApdu, hmessage.cla]), if_neg (by simp [hmessage.cla]),
    if_neg (by simp [hselected]), if_neg (by simp [hmessage.ins, insCtapMsg]),
    if_neg (by simp [hselected])]

/-- A chained APDU without data leaves nothing behind. -/
theorem NothingCollected.chained (h : NothingCollected app) {block : CommandBlock}
    (hcarries : CarriesMessage true block apdu) (hdata : apdu.data = []) :
    NothingCollected (nfcStep handlers app block.event) ∧
      (nfcStep handlers app block.event).handed = app.handed := by
  have hmessage := hcarries.message
  have hsize : maxRxFrameInfSize + 1 ≤ maxMsgSize := by decide
  obtain ⟨base, hbase, hhanded, -, heq⟩ := @nfcStep_nothingCollected handlers app h block
    (four_le_length_of_parseApdu hcarries.parsed) (Nat.le_trans hcarries.fits hsize)
  rw [heq, ← hhanded, handleApdu_message hbase.selected hcarries.parsed hmessage]
  unfold handleAppletApdu
  rw [if_neg (by simp [hmessage.ins, insCtapMsg, insCtapControl]),
    if_neg (by simp [hmessage.chained]),
    if_neg (by simp [hmessage.ins, insCtapMsg, insCtapGetResponse, insIsoGetResponse]),
    if_pos (by simp [hmessage.cla, hmessage.ins, hmessage.chained])]
  have hnotBusy : exchangeBusy { base with arenaAttached := true } = false := hbase.notBusy
  unfold handleChainedCtapMsg appendCtapChainedFragment
  rw [if_neg (by simp [hmessage.parameters]), if_neg (by simp [hnotBusy]),
    if_neg (by simp [hbase.requestLen, hdata])]
  have hfree := hbase.notBusy
  simp only [exchangeBusy, Bool.or_eq_false_iff] at hfree
  obtain ⟨⟨⟨⟨hprocessing, hpending⟩, hready⟩, -⟩, hactive⟩ := hfree
  refine ⟨⟨hbase.callback, hbase.running, hbase.selected, ?_, hbase.noError, ?_⟩, rfl⟩
  · simp [exchangeBusy, sendStatusWord, transmit, clearTxChain, requestWorkerActive, hprocessing,
      hpending, hready]
  · simp [sendStatusWord, transmit, clearTxChain, hbase.requestLen, hdata]

/-- The message is passed on, and if it waits for the worker, it is in the arena. -/
theorem finishCtap2Msg_taken (h : NothingCollected app) (hpos : 0 < apdu.data.length)
    (hlength : apdu.data.length ≤ maxMsgSize) :
    (finishCtap2Msg (messageTaken app apdu) apdu.extended).handed = app.handed ++ [apdu.data] ∧
      ((finishCtap2Msg (messageTaken app apdu) apdu.extended).requestPending = true →
        (finishCtap2Msg (messageTaken app apdu) apdu.extended).transportArena.take
          (finishCtap2Msg (messageTaken app apdu) apdu.extended).requestLen = apdu.data) := by
  have hfree := h.notBusy
  simp only [exchangeBusy, Bool.or_eq_false_iff] at hfree
  obtain ⟨⟨⟨⟨hprocessing, hpending⟩, -⟩, -⟩, -⟩ := hfree
  unfold finishCtap2Msg
  dsimp only
  split_ifs
  · unfold startCtap2Direct
    rw [if_neg (by simp only [messageTaken]; omega)]
    constructor
    · simp only [messageTaken, take_writeArena]
    · intro hwaits
      have hpending' : app.requestPending = true := hwaits
      rw [hpending] at hpending'
      contradiction
  · split
    · rename_i hqueue
      unfold queueRequest at hqueue
      rw [if_neg (by
        simp only [messageTaken, take_writeArena, requestWorkerActive, h.running, hprocessing,
          hpending, Bool.false_or, Bool.or_false, Bool.or_eq_true, decide_eq_true_eq, not_or]
        exact ⟨Nat.ne_of_gt hpos, Nat.not_lt.mpr hlength⟩)] at hqueue
      simp at hqueue
    · rename_i hqueue
      obtain ⟨-, -, -, rfl⟩ := queueRequest_queued hqueue
      have hsent (busy : NfcApp) : sendBusyStatus busy = transmit (clearTxChain busy) _ :=
        sendApduPayload_small (by decide) _
      rw [hsent]
      constructor
      · simp only [transmit, clearTxChain, messageTaken, take_writeArena]
      · intro _
        simp only [transmit, clearTxChain, messageTaken, take_writeArena]

/-- A message in one APDU is passed on as it is. -/
theorem NothingCollected.final (h : NothingCollected app) {block : CommandBlock}
    (hcarries : CarriesMessage false block apdu) (henabled : block.capabilities.fido2Enabled = true)
    (hpos : 0 < apdu.data.length) (hlength : apdu.data.length ≤ maxMsgSize) :
    (nfcStep handlers app block.event).handed = app.handed ++ [apdu.data] ∧
      ((nfcStep handlers app block.event).requestPending = true →
        (nfcStep handlers app block.event).transportArena.take
          (nfcStep handlers app block.event).requestLen = apdu.data) := by
  have hmessage := hcarries.message
  have hsize : maxRxFrameInfSize + 1 ≤ maxMsgSize := by decide
  obtain ⟨base, hbase, hhanded, hchain, heq⟩ := @nfcStep_nothingCollected handlers app h block
    (four_le_length_of_parseApdu hcarries.parsed) (Nat.le_trans hcarries.fits hsize)
  rw [heq, ← hhanded, handleApdu_message hbase.selected hcarries.parsed hmessage]
  have hattached : NothingCollected { base with arenaAttached := true } :=
    ⟨hbase.callback, hbase.running, hbase.selected, hbase.notBusy, hbase.noError, hbase.requestLen⟩
  have hfree := hbase.notBusy
  simp only [exchangeBusy, Bool.or_eq_false_iff] at hfree
  obtain ⟨⟨⟨⟨-, hpending⟩, hready⟩, -⟩, -⟩ := hfree
  unfold handleAppletApdu
  rw [if_neg (by simp [hmessage.ins, insCtapMsg, insCtapControl])]
  by_cases hinfo : apdu.data = [ctapCmdGetInfo]
  · rw [if_pos (by simp [hmessage.cla, hmessage.ins, hmessage.chained, hinfo]),
      if_neg (by simp [hmessage.parameters]), if_neg (by simp [henabled]),
      if_neg (by simp [hattached.notBusy])]
    constructor
    · rw [(quiet_sendGetInfoResponse _ _).handed, hinfo]
    · intro hwaits
      unfold sendGetInfoResponse at hwaits
      have hpending' : base.requestPending = true := by
        dsimp only at hwaits
        split_ifs at hwaits
        · exact ((adjusts_sendApduPayload _ _ _).pending hwaits).1
        · exact ((adjusts_beginChainedApduPayload _ _ _ _).pending hwaits).1
      rw [hpending] at hpending'
      contradiction
  · rw [if_neg (by simp [hinfo]),
      if_neg (by simp [hmessage.ins, insCtapMsg, insCtapGetResponse, insIsoGetResponse]),
      if_neg (by simp [hmessage.chained]), if_pos (by simp [hmessage.cla, hmessage.ins])]
    unfold handleCtapMsg takeCtapMsg beginCtapMsg
    rw [if_neg (by simp [hmessage.parameters]), if_neg (by simp [henabled]),
      if_neg (by simp [hready, hbase.noError]), if_neg (by simp [hattached.notBusy]),
      if_neg (by simp [hchain]), if_neg (by omega)]
    exact finishCtap2Msg_taken hattached hpos hlength

end Kept

section Theorem

variable {handlers : Handlers} {app : NfcApp}

/-- Chained APDUs without data leave nothing behind. -/
theorem NothingCollected.received (h : NothingCollected app) {chained : List CommandBlock}
    (hchained : ∀ block ∈ chained, ∃ apdu, CarriesMessage true block apdu)
    (hempty : ∀ block ∈ chained, messageData block = []) :
    NothingCollected (received handlers app chained) ∧
      (received handlers app chained).handed = app.handed := by
  induction chained generalizing app with
  | nil => exact ⟨h, rfl⟩
  | cons block rest ih =>
    obtain ⟨apdu, hcarries⟩ := hchained block List.mem_cons_self
    have hdata : apdu.data = [] := by
      have hnone := hempty block List.mem_cons_self
      unfold messageData at hnone
      rwa [hcarries.parsed] at hnone
    obtain ⟨hnext, hhanded⟩ := @NothingCollected.chained handlers app apdu h block hcarries hdata
    obtain ⟨hrest, hsame⟩ := ih hnext
      (fun later hmem ↦ hchained later (List.mem_cons_of_mem _ hmem))
      (fun later hmem ↦ hempty later (List.mem_cons_of_mem _ hmem))
    exact ⟨hrest, hsame.trans hhanded⟩

/-- SELECT leaves nothing collected, whatever was before. -/
theorem nothingCollected_handleSelect (hcallback : app.callback = .idle)
    (hrunning : app.stopping = false) {apdu : NfcApdu} (hfido : isFidoSelectApdu apdu = true)
    (fido2Enabled u2fEnabled : Bool) :
    NothingCollected (handleSelect app apdu fido2Enabled u2fEnabled) := by
  unfold handleSelect
  rw [if_neg (by simp [hfido])]
  dsimp only
  rw [sendApduPayload_small (by split_ifs <;> decide)]
  exact ⟨hcallback, hrunning, rfl, rfl, rfl, rfl⟩

/-- Split over APDUs the request is what the CTAP2 command gets, whatever the last APDU, exactly
when the chained APDUs carry no data. -/
theorem chained_request_reassembled_iff {chained : List CommandBlock} (h : NothingCollected app)
    (hne : chained ≠ []) (hchained : ∀ block ∈ chained, ∃ apdu, CarriesMessage true block apdu)
    (hlength : (splitRequest chained).length ≤ maxMsgSize) :
    (∀ final, IsSplit chained final → Reassembled handlers app chained final) ↔
      ∀ block ∈ chained, messageData block = [] := by
  constructor
  · intro hall
    by_contra hdata
    have hcollected : splitRequest chained ≠ [] := by
      intro hnone
      exact hdata fun block hmem ↦ List.flatMap_eq_nil_iff.mp hnone block hmem
    obtain ⟨final, hsplit, hspoiled⟩ := @spoiled handlers app chained hne hchained hlength hcollected
    exact hspoiled (hall final hsplit)
  · intro hempty final hsplit
    obtain ⟨apdu, hcarries⟩ := hsplit.lastUnchained
    have hnone : splitRequest chained = [] := List.flatMap_eq_nil_iff.mpr hempty
    have hfinal : splitRequest (chained ++ [final]) = apdu.data := by
      rw [splitRequest_append, hnone]
      simp [splitRequest, messageData, hcarries.parsed]
    have hpos := hsplit.pos
    have hmost := hsplit.length
    rw [hfinal] at hpos hmost
    obtain ⟨hkept, hhanded⟩ := @NothingCollected.received handlers app h chained hchained hempty
    obtain ⟨hpassed, hwaits⟩ := @NothingCollected.final handlers _ apdu hkept final hcarries
      hsplit.enabled hpos hmost
    constructor
    · rw [received_append_one, hpassed, hhanded, hfinal]
    · rw [received_append_one, hfinal]
      exact hwaits

/-- A chained APDU with this data. -/
def chainedBlock (data : Bytes) : CommandBlock where
  pcb := 0x03
  payload := [0x90, 0x10, 0x80, 0x00] ++ data
  capabilities := { fido2Enabled := true, u2fEnabled := false }
  surroundings := {}

theorem chained_request_reassembled_iff_noData :
    Reassembled .withoutU2f (nfcStep .withoutU2f {} selectFido) [chainedBlock []]
      (lastBlock [0x02, 0x02, 0xA0]) := by
  refine (chained_request_reassembled_iff ?_ ?_ ?_ ?_).mpr ?_ _ ?_
  · constructor <;> decide +kernel
  · simp
  · intro block hmem
    obtain rfl := List.mem_singleton.mp hmem
    exact ⟨_, by decide, rfl, rfl, rfl, rfl, rfl⟩
  · decide
  · intro block hmem
    obtain rfl := List.mem_singleton.mp hmem
    rfl
  · refine ⟨by simp, rfl, ?_, ⟨_, by decide, rfl, rfl, rfl, rfl, rfl⟩, by decide, by decide⟩
    intro block hmem
    obtain rfl := List.mem_singleton.mp hmem
    exact ⟨_, by decide, rfl, rfl, rfl, rfl, rfl⟩

/-- A request of two bytes, one in the chained APDU and one in the last: nothing is passed on. -/
theorem split_request_lost :
    let app := nfcStep .withoutU2f {} selectFido
    let chained := [chainedBlock [0x01, 0x02]]
    let final := lastBlock [0x01, 0xA0]
    IsSplit chained final ∧ splitRequest (chained ++ [final]) = [0x02, 0xA0] ∧
      (received .withoutU2f app (chained ++ [final])).handed = app.handed ∧
      ¬Reassembled .withoutU2f app chained final := by
  refine ⟨?_, by decide, by decide +kernel, ?_⟩
  · refine ⟨by simp, rfl, ?_, ⟨_, by decide, rfl, rfl, rfl, rfl, rfl⟩, by decide, by decide⟩
    intro block hmem
    obtain rfl := List.mem_singleton.mp hmem
    exact ⟨_, by decide, rfl, rfl, rfl, rfl, rfl⟩
  · intro hreassembled
    exact absurd hreassembled.handed (by decide +kernel)

/-- Data that look like the last APDU survive by accident. -/
example :
    let app := nfcStep .withoutU2f {} selectFido
    let chained := [chainedBlock [0x05, 0x80, 0x10, 0x00, 0x00, 0x05]]
    (received .withoutU2f app (chained ++ [lastBlock [0x05]])).handed =
      [splitRequest (chained ++ [lastBlock [0x05]])] := by
  decide +kernel

end Theorem

end ZeroFido.Nfc
