import ZeroFido.Usb.Abort
import ZeroFido.Usb.SessionRuns

/-!
# The channel lock

A locked channel should be the only one that can act on the session. `handlePacket` checks the lock
before anything else, so a packet of another channel is ignored there (`ignored_handlePacket`). A
poll reads its packets with `handleProcessingControl`, which has no such check. There the lock
holds by accident for almost all packets, because the request that polls is on the locked channel
(`Occupied`) and the packets of other channels are refused. The exception is INIT on the broadcast
channel: when it draws a channel that is free it allocates it, ends the processing and cancels the
request of the locked channel (`broadcast_init_breaks_lock`). `lock_exclusive_iff` says that there
is no other exception.
-/

set_option autoImplicit false
set_option relaxedAutoImplicit false

namespace ZeroFido.Usb

open Foundations

section Statement

/-- The packet changes nothing, and it neither cancels nor completes anything. -/
structure Ignored (transport : TransportState) (handling : Handling) : Prop where
  transport : handling.transport = transport
  cancelPending : handling.cancelPending = false
  complete : handling.complete = none

/-- The packet is ignored by whichever handler reads it: the one of the main loop and the approval
wait, or the one of the poll of a CBOR request. -/
structure LockExclusive (transport : TransportState) (packet : Bytes) (surroundings : Surroundings) :
    Prop where
  handled : Ignored transport (handlePacket transport packet surroundings)
  polled : transport.processing = true → transport.cmd = cmdCbor →
    Ignored transport (handleProcessingControl transport packet surroundings).1

/-- INIT on the broadcast channel, with its nonce. -/
def isBroadcastInit (packet : Bytes) : Bool :=
  packetCmd packet == cmdInit && packetCid packet == broadcastCid && packetMsgLen packet == 8 &&
    decide (15 ≤ packet.length)

/-- One of the draws for a new channel is neither reserved nor allocated. -/
def drawsFreeChannel (transport : TransportState) (surroundings : Surroundings) : Bool :=
  ((List.range 32).map surroundings.random).any fun cid ↦
    !(cidIsReserved cid || cidIsAllocated transport cid)

end Statement

section Allocation

variable {transport : TransportState} {now : UInt32}

/-- An unexpired lock stays as it is. -/
theorem refreshLock_of_unexpired (hunexpired : reached now transport.lockExpiresAt = false) :
    refreshLock transport now = transport := by
  unfold refreshLock
  rw [hunexpired, if_neg Bool.false_ne_true, ite_self]

theorem foldl_oldest_ne_none {candidates : List (AllocatedCid × ℕ)}
    {start : Option (AllocatedCid × ℕ)} (h : start ≠ none ∨ candidates ≠ []) :
    candidates.foldl (fun best candidate ↦
      match best with
      | none => some candidate
      | some chosen =>
        if candidate.1.lastUsed < chosen.1.lastUsed then some candidate else some chosen)
      start ≠ none := by
  induction candidates generalizing start with
  | nil => exact h.resolve_right (not_not.mpr rfl)
  | cons candidate candidates ih =>
    refine ih (Or.inl ?_)
    cases start with
    | none => exact Option.some_ne_none _
    | some chosen =>
      dsimp only
      split_ifs <;> exact Option.some_ne_none _

/-- A full table has a channel to give up while the current channel is the locked one. -/
theorem WellFormed.findLruReclaimIndex_ne_none (h : WellFormed transport)
    (howner : transport.lockCid = transport.cid)
    (hfull : maxAllocatedCids ≤ transport.allocatedCids.length) :
    findLruReclaimIndex transport ≠ none := by
  have hfree : ∃ entry ∈ transport.allocatedCids, entry.cid ≠ transport.cid := by
    by_contra hall
    push Not at hall
    have hcount : (transport.allocatedCids.map AllocatedCid.cid).count transport.cid =
        transport.allocatedCids.length := by
      rw [← List.length_map (f := AllocatedCid.cid), List.count_eq_length]
      intro cid hcid
      obtain ⟨entry, hentry, rfl⟩ := List.mem_map.mp hcid
      exact (hall entry hentry).symm
    have honce := List.nodup_iff_count_le_one.mp h.distinct transport.cid
    rw [hcount] at honce
    exact absurd (le_trans hfull honce) (by decide)
  obtain ⟨entry, hentry, hcid⟩ := hfree
  obtain ⟨index, hindex⟩ := List.mem_iff_getElem?.mp hentry
  unfold findLruReclaimIndex
  rw [Ne, Option.map_eq_none_iff]
  refine foldl_oldest_ne_none (Or.inr (List.ne_nil_of_mem (a := (entry, index)) ?_))
  rw [List.mem_filter, List.mem_zipIdx_iff_getElem?]
  refine ⟨hindex, ?_⟩
  rw [howner, Bool.or_self, Bool.not_eq_true', beq_eq_false_iff_ne]
  exact hcid

/-- A free channel is remembered while the current channel is the locked one. -/
theorem rememberCid_free (h : WellFormed transport)
    (howner : transport.lockCid = transport.cid)
    (hunexpired : reached now transport.lockExpiresAt = false) {cid : UInt32}
    (hreserved : cidIsReserved cid = false) : (rememberCid transport cid now).2 = true := by
  unfold rememberCid
  rw [hreserved, if_neg Bool.false_ne_true]
  split_ifs with hpresent hroom
  · rfl
  · rfl
  · dsimp only
    rw [refreshLock_of_unexpired hunexpired]
    have hreclaim := h.findLruReclaimIndex_ne_none howner (Nat.le_of_not_lt hroom)
    split
    · rename_i hnone
      exact absurd hnone hreclaim
    · rfl

/-- A channel is allocated exactly if one of the draws is free, and otherwise nothing changes. -/
theorem allocateCid_locked (h : WellFormed transport)
    (howner : transport.lockCid = transport.cid) (surroundings : Surroundings)
    (hunexpired : reached surroundings.now transport.lockExpiresAt = false) :
    (drawsFreeChannel transport surroundings = false ∧
        allocateCid transport surroundings = (transport, none)) ∨
      (drawsFreeChannel transport surroundings = true ∧
        ∃ cid, (allocateCid transport surroundings).2 = some cid) := by
  unfold allocateCid drawsFreeChannel
  generalize (List.range 32).map surroundings.random = draws
  induction draws with
  | nil => exact Or.inl ⟨rfl, rfl⟩
  | cons cid draws ih =>
    unfold allocateCidFrom
    rw [List.any_cons]
    by_cases htaken : (cidIsReserved cid || cidIsAllocated transport cid) = true
    · rw [if_pos htaken, htaken, Bool.not_true, Bool.false_or]
      exact ih
    · rw [if_neg htaken]
      rw [Bool.not_eq_true] at htaken
      have hreserved := (Bool.or_eq_false_iff.mp htaken).1
      refine Or.inr ⟨by rw [htaken, Bool.not_false, Bool.true_or], cid, ?_⟩
      dsimp only
      rw [if_pos (rememberCid_free h howner hunexpired hreserved)]

end Allocation

section Exclusive

variable {transport : TransportState} {packet : Bytes} {surroundings : Surroundings}

theorem ignored_unchanged : Ignored transport { transport := transport } := ⟨rfl, rfl, rfl⟩

theorem ignored_refuse (cid : UInt32) (code : UInt8) : Ignored transport (refuse transport cid code) :=
  ⟨rfl, rfl, rfl⟩

/-- The main loop and the approval wait respect the lock. -/
theorem ignored_handlePacket (hlocked : transport.lockCid ≠ 0)
    (hunexpired : reached surroundings.now transport.lockExpiresAt = false)
    (hcid : packetCid packet ≠ transport.lockCid) :
    Ignored transport (handlePacket transport packet surroundings) := by
  have hblocked : lockBlocksCid transport (packetCid packet) = true := by
    rw [lockBlocksCid, bne_iff_ne.mpr hlocked, bne_iff_ne.mpr hcid]
    rfl
  unfold handlePacket
  rw [refreshLock_of_unexpired hunexpired]
  dsimp only
  rw [hblocked, if_pos rfl]
  split_ifs
  · exact ignored_unchanged
  · exact ignored_refuse _ _

/-- INIT on the broadcast channel, as a poll handles it. -/
theorem handleProcessingControl_broadcastInit (hinit : isBroadcastInit packet = true)
    (hcid : packetCid packet ≠ transport.cid) :
    handleProcessingControl transport packet surroundings =
      recoverProcessingWithBroadcastInit transport packet surroundings := by
  unfold isBroadcastInit at hinit
  simp only [Bool.and_eq_true, beq_iff_eq, decide_eq_true_eq] at hinit
  obtain ⟨⟨⟨hcmd, hbroadcast⟩, -⟩, hlength⟩ := hinit
  have hfirst : ¬(!isInitPacket packet) = true := by
    rw [isInitPacket, hcmd]
    decide
  have hcancel : packetCmd packet ≠ cmdCancel := by
    rw [hcmd]
    decide
  unfold handleProcessingControl
  dsimp only
  rw [if_neg (by omega), if_neg hfirst, if_neg (by omega), if_neg hcancel,
    if_neg (fun hown ↦ hcid hown.2), if_pos ⟨hcmd, hbroadcast⟩]

/-- A poll ignores all packets of other channels but an INIT on the broadcast channel that draws a
free channel. -/
theorem WellFormed.ignored_handleProcessingControl (h : WellFormed transport)
    (hprocessing : transport.processing = true) (hlocked : transport.lockCid ≠ 0)
    (hunexpired : reached surroundings.now transport.lockExpiresAt = false)
    (hcid : packetCid packet ≠ transport.lockCid) :
    Ignored transport (handleProcessingControl transport packet surroundings).1 ↔
      ¬(isBroadcastInit packet = true ∧ drawsFreeChannel transport surroundings = true) := by
  have howner := (h.occupied (Or.inr hprocessing)).unlocked.resolve_left hlocked
  rw [howner] at hcid
  by_cases hinit : isBroadcastInit packet = true
  · have hlength : ¬(packetMsgLen packet ≠ 8 ∨ packet.length - 7 < packetMsgLen packet) := by
      unfold isBroadcastInit at hinit
      simp only [Bool.and_eq_true, beq_iff_eq, decide_eq_true_eq] at hinit
      omega
    rw [handleProcessingControl_broadcastInit hinit hcid]
    unfold recoverProcessingWithBroadcastInit
    rw [if_neg hlength]
    rcases allocateCid_locked h howner surroundings hunexpired with ⟨hdraws, hnone⟩ | ⟨hdraws, cid, hsome⟩
    · rw [hnone, hdraws]
      exact ⟨fun _ hfree ↦ absurd hfree.2 Bool.false_ne_true, fun _ ↦ ignored_refuse _ _⟩
    · -- The channel is allocated, and the request of the locked channel is cancelled.
      refine ⟨fun hignored ↦ ?_, fun hfree ↦ absurd ⟨hinit, hdraws⟩ hfree⟩
      have hcancel := hignored.cancelPending
      generalize Usb.allocateCid transport surroundings = allocation at hsome hcancel
      obtain ⟨allocated, assigned⟩ := allocation
      obtain rfl : assigned = some cid := hsome
      exact absurd hcancel (by simp)
  · refine ⟨fun _ hfree ↦ hinit hfree.1, fun _ ↦ ?_⟩
    unfold handleProcessingControl
    dsimp only
    split_ifs with _ _ _ _ hlength hown hresync hbroadcast
    · exact ignored_unchanged
    · exact ignored_unchanged
    · exact ignored_refuse _ _
    · exact ignored_refuse _ _
    · rw [Bool.and_eq_true, beq_iff_eq] at hown
      exact absurd hown.2 hcid
    · exact ignored_unchanged
    · exact absurd hresync.2 hcid
    · -- An INIT on the broadcast channel that lacks its nonce.
      unfold recoverProcessingWithBroadcastInit
      rw [if_pos ?_]
      · exact ignored_refuse _ _
      · unfold isBroadcastInit at hinit
        simp only [hbroadcast.1, hbroadcast.2, Bool.and_eq_true, beq_iff_eq, decide_eq_true_eq,
          true_and] at hinit
        omega
    · exact ignored_refuse _ _

end Exclusive

section Run

/-- LOCK is exclusive except for a poll that reads INIT on the broadcast channel and draws a free
channel. -/
theorem lock_exclusive_iff (events : List Event) (packet : Bytes) (surroundings : Surroundings)
    (hlocked : (run step {} events).transport.lockCid ≠ 0)
    (hunexpired : reached surroundings.now (run step {} events).transport.lockExpiresAt = false)
    (hcid : packetCid packet ≠ (run step {} events).transport.lockCid) :
    LockExclusive (run step {} events).transport packet surroundings ↔
      ¬((run step {} events).transport.processing = true ∧
        (run step {} events).transport.cmd = cmdCbor ∧ isBroadcastInit packet = true ∧
        drawsFreeChannel (run step {} events).transport surroundings = true) := by
  have hwellFormed := run_step_wellFormed events
  generalize (run step {} events).transport = transport at hlocked hunexpired hcid hwellFormed ⊢
  have hpolled (hprocessing : transport.processing = true) :=
    hwellFormed.ignored_handleProcessingControl hprocessing hlocked hunexpired hcid
  constructor
  · rintro hexclusive ⟨hprocessing, hcmd, hinit, hdraws⟩
    exact (hpolled hprocessing).mp (hexclusive.polled hprocessing hcmd) ⟨hinit, hdraws⟩
  · intro hsafe
    refine ⟨ignored_handlePacket hlocked hunexpired hcid, fun hprocessing hcmd ↦ ?_⟩
    exact (hpolled hprocessing).mpr fun hfree ↦ hsafe ⟨hprocessing, hcmd, hfree⟩

/-- The host gets channel 7, locks it for ten seconds and sends makeCredential on it, which polls.
-/
def lockedAndPolling : List Event :=
  [.wake { connect := true }, hostSends broadcastCid cmdInit (List.replicate 8 1) .getInfo,
    .proceed 0, .wake {}, hostSends 7 cmdLock [10] .getInfo, .proceed 0, .wake {},
    hostSends 7 cmdCbor [0x01] .makeCredential, .proceed 0]

/-- A PING on channel 9 is refused in the poll. -/
theorem lock_exclusive_iff_ping :
    LockExclusive (run step {} lockedAndPolling).transport (initFrame ⟨9, cmdPing, [1]⟩)
      sampleSurroundings :=
  (lock_exclusive_iff lockedAndPolling (initFrame ⟨9, cmdPing, [1]⟩) sampleSurroundings
    (by decide +kernel) (by decide +kernel) (by decide +kernel)).mpr (by decide +kernel)

/-- INIT on the broadcast channel, read in the poll, with channel 8 to be drawn. -/
theorem broadcast_init_breaks_lock :
    ¬∀ events packet surroundings, (run step {} events).transport.lockCid ≠ 0 →
      reached surroundings.now (run step {} events).transport.lockExpiresAt = false →
      packetCid packet ≠ (run step {} events).transport.lockCid →
      LockExclusive (run step {} events).transport packet surroundings := by
  intro hclaim
  have hexclusive := hclaim lockedAndPolling (initFrame ⟨broadcastCid, cmdInit, List.replicate 8 2⟩)
    { sampleSurroundings with random := fun _ ↦ 8 } (by decide +kernel) (by decide +kernel)
    (by decide +kernel)
  have hcancel := (hexclusive.polled (by decide +kernel) (by decide +kernel)).cancelPending
  exact absurd hcancel (by decide +kernel)

end Run

end ZeroFido.Usb
