import Mathlib.Data.List.Nodup
import ZeroFido.Usb.Session

/-!
# Channels and the lock

`WellFormed` is what holds of the session in every reachable state: the lengths of the message and
the table of channels are in bounds, the channels are distinct and none is reserved, and the
channel of a message and that of the lock are in the table. While a channel is locked no other one
has a message (`Occupied`), which is what makes the lock exclusive.

A new channel may take the place of one that is neither the current nor the locked one
(`rememberCid`), and that is the only way a channel leaves the table.
-/

set_option autoImplicit false
set_option relaxedAutoImplicit false

namespace ZeroFido.Usb

section WellFormed

/-- The current channel is in the table, and no other one is locked. -/
structure Occupied (transport : TransportState) : Prop where
  allocated : cidIsAllocated transport transport.cid = true
  unlocked : transport.lockCid = 0 ∨ transport.lockCid = transport.cid

structure WellFormed (transport : TransportState) : Prop where
  received : transport.receivedLen ≤ transport.totalLen
  total : transport.totalLen ≤ maxMsgSize
  distinct : (transport.allocatedCids.map AllocatedCid.cid).Nodup
  unreserved : ∀ entry ∈ transport.allocatedCids, cidIsReserved entry.cid = false
  bounded : transport.allocatedCids.length ≤ maxAllocatedCids
  locked : transport.lockCid ≠ 0 → cidIsAllocated transport transport.lockCid = true
  occupied : transport.active = true ∨ transport.processing = true → Occupied transport

theorem wellFormed_initial : WellFormed {} where
  received := Nat.le_refl _
  total := Nat.zero_le _
  distinct := List.nodup_nil
  unreserved := by simp
  bounded := Nat.zero_le _
  locked := by simp
  occupied := by simp

variable {transport transport' : TransportState}

theorem cidIsAllocated_eq_true {cid : UInt32} :
    cidIsAllocated transport cid = true ↔
      cidIsReserved cid = false ∧ cid ∈ transport.allocatedCids.map AllocatedCid.cid := by
  simp [cidIsAllocated]

/-- Whether a channel is allocated depends on the channels of the table. -/
theorem cidIsAllocated_congr (h : transport'.allocatedCids.map AllocatedCid.cid =
      transport.allocatedCids.map AllocatedCid.cid) (cid : UInt32) :
    cidIsAllocated transport' cid = cidIsAllocated transport cid := by
  rw [Bool.eq_iff_iff, cidIsAllocated_eq_true, cidIsAllocated_eq_true, h]

/-- The table has the same channels, and the lock is as it was or open. -/
structure SameChannels (transport transport' : TransportState) : Prop where
  channels : transport'.allocatedCids.map AllocatedCid.cid =
    transport.allocatedCids.map AllocatedCid.cid
  lock : transport'.lockCid = transport.lockCid ∨ transport'.lockCid = 0

theorem SameChannels.refl (transport : TransportState) : SameChannels transport transport :=
  ⟨rfl, Or.inl rfl⟩

theorem SameChannels.trans {transport'' : TransportState} (h : SameChannels transport transport')
    (h' : SameChannels transport' transport'') : SameChannels transport transport'' := by
  refine ⟨h'.channels.trans h.channels, ?_⟩
  rcases h'.lock with hlock | hlock
  · rw [hlock]
    exact h.lock
  · exact Or.inr hlock

theorem SameChannels.occupied (h : SameChannels transport transport')
    (hcid : transport'.cid = transport.cid) (hoccupied : Occupied transport) :
    Occupied transport' := by
  constructor
  · rw [hcid, cidIsAllocated_congr h.channels]
    exact hoccupied.allocated
  · rcases h.lock with hlock | hlock
    · rw [hlock, hcid]
      exact hoccupied.unlocked
    · exact Or.inl hlock

/-- The rule for a change that leaves the channels alone. -/
theorem SameChannels.wellFormed (h : SameChannels transport transport')
    (hwellFormed : WellFormed transport) (hreceived : transport'.receivedLen ≤ transport'.totalLen)
    (htotal : transport'.totalLen ≤ maxMsgSize)
    (hoccupied : transport'.active = true ∨ transport'.processing = true → Occupied transport') :
    WellFormed transport' := by
  have hmem : ∀ entry ∈ transport'.allocatedCids, ∃ other ∈ transport.allocatedCids,
      other.cid = entry.cid := by
    intro entry hentry
    have hcid := List.mem_map_of_mem (f := AllocatedCid.cid) hentry
    rw [h.channels, List.mem_map] at hcid
    exact hcid
  refine ⟨hreceived, htotal, ?_, ?_, ?_, ?_, hoccupied⟩
  · rw [h.channels]
    exact hwellFormed.distinct
  · intro entry hentry
    obtain ⟨other, hother, hcid⟩ := hmem entry hentry
    rw [← hcid]
    exact hwellFormed.unreserved other hother
  · have hlength := congrArg List.length h.channels
    rw [List.length_map, List.length_map] at hlength
    rw [hlength]
    exact hwellFormed.bounded
  · intro hlocked
    rcases h.lock with hlock | hlock
    · rw [hlock] at hlocked ⊢
      rw [cidIsAllocated_congr h.channels]
      exact hwellFormed.locked hlocked
    · exact absurd hlock hlocked

/-- The fields of the message that is assembled are the same. -/
structure SameMessage (transport transport' : TransportState) : Prop where
  active : transport'.active = transport.active
  cid : transport'.cid = transport.cid
  cmd : transport'.cmd = transport.cmd
  totalLen : transport'.totalLen = transport.totalLen
  receivedLen : transport'.receivedLen = transport.receivedLen
  nextSeq : transport'.nextSeq = transport.nextSeq
  payload : transport'.payload = transport.payload

theorem SameMessage.refl (transport : TransportState) : SameMessage transport transport :=
  ⟨rfl, rfl, rfl, rfl, rfl, rfl, rfl⟩

theorem SameMessage.trans {transport'' : TransportState} (h : SameMessage transport transport')
    (h' : SameMessage transport' transport'') : SameMessage transport transport'' :=
  ⟨h'.active.trans h.active, h'.cid.trans h.cid, h'.cmd.trans h.cmd, h'.totalLen.trans h.totalLen,
    h'.receivedLen.trans h.receivedLen, h'.nextSeq.trans h.nextSeq, h'.payload.trans h.payload⟩

/-- A change of neither the message nor the channels, after which no more is going on than before.
-/
theorem WellFormed.of_same (hwellFormed : WellFormed transport)
    (hmessage : SameMessage transport transport') (hchannels : SameChannels transport transport')
    (hprocessing : transport'.processing = true → transport.processing = true) :
    WellFormed transport' := by
  refine hchannels.wellFormed hwellFormed ?_ ?_ fun hbusy ↦ ?_
  · rw [hmessage.receivedLen, hmessage.totalLen]
    exact hwellFormed.received
  · rw [hmessage.totalLen]
    exact hwellFormed.total
  · refine hchannels.occupied hmessage.cid (hwellFormed.occupied ?_)
    rw [hmessage.active] at hbusy
    exact hbusy.imp id hprocessing

end WellFormed

section Table

variable {transport : TransportState}

theorem map_cid_touchEntries (cid now : UInt32) (entries : List AllocatedCid) :
    (touchEntries cid now entries).map AllocatedCid.cid = entries.map AllocatedCid.cid := by
  induction entries with
  | nil => rfl
  | cons entry rest ih =>
    rw [touchEntries]
    split_ifs
    · rfl
    · rw [List.map_cons, List.map_cons, ih]

theorem sameChannels_touchCid (cid now : UInt32) :
    SameChannels transport (touchCid transport cid now) ∧
      SameMessage transport (touchCid transport cid now) := by
  unfold touchCid
  split_ifs
  · exact ⟨.refl _, .refl _⟩
  · exact ⟨⟨map_cid_touchEntries cid now _, Or.inl rfl⟩, ⟨rfl, rfl, rfl, rfl, rfl, rfl, rfl⟩⟩

theorem sameChannels_refreshLock (now : UInt32) :
    SameChannels transport (refreshLock transport now) ∧
      SameMessage transport (refreshLock transport now) := by
  unfold refreshLock
  split_ifs
  · exact ⟨.refl _, .refl _⟩
  · exact ⟨⟨rfl, Or.inr rfl⟩, ⟨rfl, rfl, rfl, rfl, rfl, rfl, rfl⟩⟩
  · exact ⟨.refl _, .refl _⟩

theorem WellFormed.refreshLock (h : WellFormed transport) (now : UInt32) :
    WellFormed (refreshLock transport now) := by
  obtain ⟨hchannels, hmessage⟩ := @sameChannels_refreshLock transport now
  refine h.of_same hmessage hchannels ?_
  rw [(sameRequest_refreshLock transport now).processing]
  exact id

/-- The oldest of some entries is one of them. -/
theorem mem_of_foldl_oldest {candidates : List (AllocatedCid × ℕ)}
    {start chosen : Option (AllocatedCid × ℕ)} {candidate : AllocatedCid × ℕ}
    (hchosen : candidates.foldl (fun best candidate ↦
      match best with
      | none => some candidate
      | some chosen =>
        if candidate.1.lastUsed < chosen.1.lastUsed then some candidate else some chosen)
      start = chosen) (h : chosen = some candidate) :
    candidate ∈ candidates ∨ start = some candidate := by
  induction candidates generalizing start with
  | nil => exact Or.inr (hchosen.trans h)
  | cons first rest ih =>
    rcases ih hchosen with hmem | hstart
    · exact Or.inl (List.mem_cons_of_mem _ hmem)
    · cases start with
      | none =>
        rw [← Option.some.inj hstart]
        exact Or.inl List.mem_cons_self
      | some best =>
        dsimp only at hstart
        split_ifs at hstart
        · rw [← Option.some.inj hstart]
          exact Or.inl List.mem_cons_self
        · exact Or.inr hstart

/-- The channel that gives up its place is neither the current nor the locked one. -/
theorem findLruReclaimIndex_spec {index : ℕ} (h : findLruReclaimIndex transport = some index) :
    ∃ entry, transport.allocatedCids[index]? = some entry ∧ entry.cid ≠ transport.cid ∧
      entry.cid ≠ transport.lockCid := by
  unfold findLruReclaimIndex at h
  obtain ⟨⟨entry, found⟩, hfound, hindex⟩ := Option.map_eq_some_iff.mp h
  rcases mem_of_foldl_oldest hfound rfl with hmem | habsurd
  · obtain ⟨hmem, hfree⟩ := List.mem_filter.mp hmem
    rw [List.mem_zipIdx_iff_getElem?] at hmem
    rw [Bool.not_eq_true', Bool.or_eq_false_iff, beq_eq_false_iff_ne, beq_eq_false_iff_ne] at hfree
    rw [← hindex]
    exact ⟨entry, hmem, hfree⟩
  · exact absurd habsurd (by simp)

/-- The rule for another table that still has the current and the locked channel. -/
theorem WellFormed.of_table (h : WellFormed transport) {entries : List AllocatedCid}
    (hdistinct : (entries.map AllocatedCid.cid).Nodup)
    (hunreserved : ∀ entry ∈ entries, cidIsReserved entry.cid = false)
    (hbounded : entries.length ≤ maxAllocatedCids)
    (hkept : ∀ cid ∈ transport.allocatedCids.map AllocatedCid.cid,
      cid = transport.cid ∨ cid = transport.lockCid → cid ∈ entries.map AllocatedCid.cid) :
    WellFormed { transport with allocatedCids := entries } ∧
      (Occupied transport → Occupied { transport with allocatedCids := entries }) := by
  have hallocated : ∀ cid, cid = transport.cid ∨ cid = transport.lockCid →
      cidIsAllocated transport cid = true →
      cidIsAllocated { transport with allocatedCids := entries } cid = true := by
    intro cid hcid hallocated
    rw [cidIsAllocated_eq_true] at hallocated ⊢
    exact ⟨hallocated.1, hkept cid hallocated.2 hcid⟩
  have hoccupied : Occupied transport → Occupied { transport with allocatedCids := entries } :=
    fun hoccupied ↦ ⟨hallocated _ (Or.inl rfl) hoccupied.allocated, hoccupied.unlocked⟩
  refine ⟨⟨h.received, h.total, hdistinct, hunreserved, hbounded, ?_, ?_⟩, hoccupied⟩
  · exact fun hlocked ↦ hallocated _ (Or.inr rfl) (h.locked hlocked)
  · exact fun hbusy ↦ hoccupied (h.occupied hbusy)

theorem cid_not_mem_of_fresh {cid : UInt32} (hreserved : cidIsReserved cid = false)
    (hfresh : cidIsAllocated transport cid = false) :
    cid ∉ transport.allocatedCids.map AllocatedCid.cid := by
  intro hmem
  have hallocated := cidIsAllocated_eq_true.mpr ⟨hreserved, hmem⟩
  rw [hfresh] at hallocated
  exact absurd hallocated (by simp)

/-- A channel that was not there gets a new place in the table. -/
theorem WellFormed.append_cid (h : WellFormed transport) {cid now : UInt32}
    (hreserved : cidIsReserved cid = false) (hfresh : cidIsAllocated transport cid = false)
    (hroom : transport.allocatedCids.length < maxAllocatedCids) :
    WellFormed { transport with allocatedCids := transport.allocatedCids ++ [⟨cid, now⟩] } ∧
      (Occupied transport →
        Occupied { transport with allocatedCids := transport.allocatedCids ++ [⟨cid, now⟩] }) := by
  refine h.of_table ?_ ?_ ?_ fun other hmem _ ↦ ?_
  · rw [List.map_append, List.nodup_append]
    refine ⟨h.distinct, List.nodup_cons.mpr ⟨List.not_mem_nil, List.nodup_nil⟩, ?_⟩
    intro first hfirst second hsecond heq
    rw [List.map_singleton, List.mem_singleton] at hsecond
    rw [heq, hsecond] at hfirst
    exact cid_not_mem_of_fresh hreserved hfresh hfirst
  · intro entry hentry
    rcases List.mem_append.mp hentry with hentry | hentry
    · exact h.unreserved entry hentry
    · rw [List.mem_singleton.mp hentry]
      exact hreserved
  · rw [List.length_append, List.length_singleton]
    exact hroom
  · rw [List.map_append]
    exact List.mem_append_left _ hmem

/-- It takes the place of a channel that is neither current nor locked. -/
theorem WellFormed.set_cid (h : WellFormed transport) {cid now : UInt32} {index : ℕ}
    {entry : AllocatedCid} (hreserved : cidIsReserved cid = false)
    (hfresh : cidIsAllocated transport cid = false)
    (hentry : transport.allocatedCids[index]? = some entry) (hcid : entry.cid ≠ transport.cid)
    (hlock : entry.cid ≠ transport.lockCid) :
    WellFormed { transport with allocatedCids := transport.allocatedCids.set index ⟨cid, now⟩ } ∧
      (Occupied transport → Occupied
        { transport with allocatedCids := transport.allocatedCids.set index ⟨cid, now⟩ }) := by
  have hnew := cid_not_mem_of_fresh hreserved hfresh
  refine h.of_table ?_ ?_ ?_ ?_
  · rw [List.map_set]
    exact List.Nodup.set h.distinct hnew
  · intro other hother
    rcases List.mem_or_eq_of_mem_set hother with hother | rfl
    · exact h.unreserved other hother
    · exact hreserved
  · rw [List.length_set]
    exact h.bounded
  · intro other hmem hother
    rw [List.map_set]
    obtain ⟨position, hposition⟩ := List.mem_iff_getElem?.mp hmem
    refine List.mem_iff_getElem?.mpr ⟨position, ?_⟩
    rw [List.getElem?_set_ne ?_, hposition]
    rintro rfl
    rw [List.getElem?_map, hentry, Option.map_some] at hposition
    have hsame := Option.some.inj hposition
    rcases hother with hother | hother
    · exact hcid (hsame.trans hother)
    · exact hlock (hsame.trans hother)

/-- What becomes of the session when a channel is remembered that was not there. -/
theorem WellFormed.rememberCid (h : WellFormed transport) {cid now : UInt32}
    (hfresh : cidIsAllocated transport cid = false) :
    WellFormed (rememberCid transport cid now).1 ∧
      SameMessage transport (rememberCid transport cid now).1 ∧
      (Occupied transport → Occupied (rememberCid transport cid now).1) := by
  unfold Usb.rememberCid
  split_ifs with hreserved hpresent hroom
  · exact ⟨h, .refl _, id⟩
  · rw [cidIsAllocated, hpresent, Bool.and_true, Bool.not_eq_false'] at hfresh
    exact absurd hfresh hreserved
  · rw [Bool.not_eq_true] at hreserved
    obtain ⟨hwellFormed, hoccupied⟩ := h.append_cid hreserved hfresh hroom
    exact ⟨hwellFormed, ⟨rfl, rfl, rfl, rfl, rfl, rfl, rfl⟩, hoccupied⟩
  · rw [Bool.not_eq_true] at hreserved
    obtain ⟨hchannels, hmessage⟩ := @sameChannels_refreshLock transport now
    have hrefreshed := h.refreshLock now
    have hfresh' : cidIsAllocated (Usb.refreshLock transport now) cid = false := by
      rw [cidIsAllocated_congr hchannels.channels]
      exact hfresh
    dsimp only
    split
    · exact ⟨hrefreshed, hmessage, hchannels.occupied hmessage.cid⟩
    · rename_i index hindex
      obtain ⟨entry, hentry, hcid, hlock⟩ := findLruReclaimIndex_spec hindex
      obtain ⟨hwellFormed, hoccupied⟩ := hrefreshed.set_cid hreserved hfresh' hentry hcid hlock
      exact ⟨hwellFormed, hmessage.trans ⟨rfl, rfl, rfl, rfl, rfl, rfl, rfl⟩,
        fun hbefore ↦ hoccupied (hchannels.occupied hmessage.cid hbefore)⟩

/-- A new channel is allocated without disturbing the message. -/
theorem WellFormed.allocateCid (h : WellFormed transport) (surroundings : Surroundings) :
    WellFormed (allocateCid transport surroundings).1 ∧
      SameMessage transport (allocateCid transport surroundings).1 ∧
      (Occupied transport → Occupied (allocateCid transport surroundings).1) := by
  unfold Usb.allocateCid
  generalize (List.range 32).map surroundings.random = draws
  induction draws with
  | nil => exact ⟨h, .refl _, id⟩
  | cons cid draws ih =>
    unfold allocateCidFrom
    split_ifs with htaken
    · exact ih
    · rw [Bool.or_eq_true, not_or, Bool.not_eq_true, Bool.not_eq_true] at htaken
      exact h.rememberCid htaken.2

end Table

end ZeroFido.Usb
