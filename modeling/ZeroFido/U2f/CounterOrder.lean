import ZeroFido.Foundations.Run
import ZeroFido.U2f.Adapter

/-!
# The U2F counter never goes back

The counts in the authentications that succeed with one device secret increase, over any messages,
failures of the files, power losses, initialisations and resets (`counts_increase`).

`Counted` is the invariant. As long as the files hold a secret, the counter file covers every count
that was issued with it; a session goes on from what it has issued itself, and its counts are
reserved in the counter file. A secret that was generated later is a different one, and a wipe
removes the counter only after the secret.
-/

set_option autoImplicit false
set_option relaxedAutoImplicit false

namespace ZeroFido.U2f

open Foundations

section Invariant

/-- An authentication that succeeded. -/
def Response.isIssued (response : Response) : Bool :=
  isAuthentication response.request response.bytes

/-- The count that an authentication carries. -/
def Response.count (response : Response) : ℕ := responseCounter response.bytes

/-- The counts that were issued with one secret increase. -/
def CountsIncrease (responses : List Response) : Prop :=
  responses.Pairwise fun first second ↦ first.isIssued = true → second.isIssued = true →
    first.key = second.key → first.count < second.count

/-- A count is at most what the counter file holds. -/
def CoversCount (count : ℕ) (device : Device) : Prop :=
  ∃ stored, device.counter = .holds stored ∧ count ≤ stored.toNat

/-- What is known of a count that was issued: the secret is one of those that were generated, the
counter file covers the count while the secret is stored, and a session with the secret is at the
count or above. -/
structure IssuedBefore (device : Device) (u2f : Option U2fData) (response : Response)
    (key : DeviceKey) : Prop where
  signedWith : response.key = some key
  generated : key.serial < device.generated
  stored : device.key = .holds key → CoversCount response.count device
  session : ∀ session, u2f = some session → session.deviceKey = key →
    response.count ≤ session.counter.toNat

structure Counted (state : State) : Prop where
  generated : ∀ key, state.device.key = .holds key → key.serial < state.device.generated
  session : ∀ session, state.u2f = some session →
    Reserved session state.device ∧ state.device.key = .holds session.deviceKey
  issued : ∀ response ∈ state.responses, response.isIssued = true →
    ∃ key, IssuedBefore state.device state.u2f response key
  increase : CountsIncrease state.responses

variable {state next : State} {more : List Response}

/-- Responses that are no authentications do not matter. -/
theorem CountsIncrease.append_others (h : CountsIncrease state.responses)
    (hmore : ∀ response ∈ more, response.isIssued = false) :
    CountsIncrease (state.responses ++ more) := by
  refine List.pairwise_append.mpr ⟨h, ?_, ?_⟩
  · refine List.pairwise_iff_forall_sublist.mpr fun hsublist hfirst ↦ ?_
    rw [hmore _ (hsublist.subset (List.mem_cons_self))] at hfirst
    contradiction
  · intro first _ second hsecond _ hissued
    rw [hmore second hsecond] at hissued
    contradiction

/-- A step that issues no count, over files that still cover what was issued. -/
theorem Counted.of_others (h : Counted state) (hresponses : next.responses = state.responses ++ more)
    (hmore : ∀ response ∈ more, response.isIssued = false)
    (hgenerated : ∀ key, next.device.key = .holds key → key.serial < next.device.generated)
    (hsession : ∀ session, next.u2f = some session →
      Reserved session next.device ∧ next.device.key = .holds session.deviceKey)
    (hissued : ∀ response key, IssuedBefore state.device state.u2f response key →
      IssuedBefore next.device next.u2f response key) : Counted next := by
  refine ⟨hgenerated, hsession, ?_, ?_⟩
  · intro response hmem hyes
    rw [hresponses, List.mem_append] at hmem
    rcases hmem with hold | hnew
    · obtain ⟨key, hkey⟩ := h.issued response hold hyes
      exact ⟨key, hissued response key hkey⟩
    · rw [hmore response hnew] at hyes
      contradiction
  · rw [hresponses]
    exact h.increase.append_others hmore

/-- The session is gone, or has the same secret and the same counts as before. -/
def SameCounts (u2f u2f' : Option U2fData) : Prop :=
  ∀ session', u2f' = some session' → ∃ session, u2f = some session ∧
    session'.deviceKey = session.deviceKey ∧ session'.counter = session.counter ∧
      session'.counterHighWater = session.counterHighWater

theorem sameCounts_none (u2f : Option U2fData) : SameCounts u2f none := by simp [SameCounts]

theorem SameCounts.refl (u2f : Option U2fData) : SameCounts u2f u2f :=
  fun session' h ↦ ⟨session', h, rfl, rfl, rfl⟩

theorem sameCounts_clear (u2f : Option U2fData) : SameCounts u2f (u2f.map clearUserPresent) := by
  intro session' h
  obtain ⟨session, hsession, rfl⟩ := Option.map_eq_some_iff.mp h
  exact ⟨session, hsession, rfl, rfl, rfl⟩

theorem sameCounts_confirm (u2f : Option U2fData) :
    SameCounts u2f (u2f.map confirmUserPresent) := by
  intro session' h
  obtain ⟨session, hsession, rfl⟩ := Option.map_eq_some_iff.mp h
  exact ⟨session, hsession, rfl, rfl, rfl⟩

/-- A step that leaves the files alone. -/
theorem Counted.of_sameDevice (h : Counted state) (hdevice : next.device = state.device)
    (hu2f : SameCounts state.u2f next.u2f) (hresponses : next.responses = state.responses ++ more)
    (hmore : ∀ response ∈ more, response.isIssued = false) : Counted next := by
  refine h.of_others hresponses hmore ?_ ?_ ?_
  · rw [hdevice]
    exact h.generated
  · intro session' hsession'
    obtain ⟨session, hsession, hdeviceKey, hcounter, hhighWater⟩ := hu2f session' hsession'
    obtain ⟨⟨hle, hcovers⟩, hkey⟩ := h.session session hsession
    rw [hdevice, hdeviceKey]
    refine ⟨⟨?_, ?_⟩, hkey⟩
    · rwa [hcounter, hhighWater]
    · rwa [hhighWater]
  · intro response key hissued
    rw [hdevice]
    refine ⟨hissued.signedWith, hissued.generated, hissued.stored, ?_⟩
    intro session' hsession' hkey
    obtain ⟨session, hsession, hdeviceKey, hcounter, -⟩ := hu2f session' hsession'
    rw [hcounter]
    exact hissued.session session hsession (hdeviceKey.symm.trans hkey)

/-- The files after an initialisation or a wipe: a stored secret is the old one or newer than every
secret before, and with the old one the counter file is as it was. -/
structure Later (device device' : Device) : Prop where
  generated : device.generated ≤ device'.generated
  key : ∀ key, device'.key = .holds key → device.key = .holds key ∨
    device.generated ≤ key.serial ∧ key.serial < device'.generated
  counter : ∀ key, device'.key = .holds key → device.key = .holds key →
    ∀ stored, device.counter = .holds stored → device'.counter = .holds stored

variable {device device' : Device}

theorem Initialised.later (h : Initialised device device') : Later device device' := by
  refine ⟨h.generated, ?_, ?_⟩
  · intro key hkey
    rcases h.key with hsame | ⟨-, hlt, bytes, hnew⟩
    · exact Or.inl (hsame.symm.trans hkey)
    · obtain rfl := Stored.holds.inj (hnew.symm.trans hkey)
      exact Or.inr ⟨Nat.le_refl _, hlt⟩
  · intro key _ _ stored hstored
    rcases h.counter with hsame | hmissing
    · exact hsame.trans hstored
    · rw [hmissing] at hstored
      contradiction

theorem Wiped.later (h : Wiped device device') : Later device device' := by
  refine ⟨Nat.le_of_eq h.generated.symm, ?_, ?_⟩
  · intro key hkey
    rcases h.key with hsame | hmissing
    · exact Or.inl (hsame.symm.trans hkey)
    · rw [hmissing] at hkey
      contradiction
  · intro key hkey _ stored hstored
    rcases h.counter with hsame | hmissing
    · exact hsame.trans hstored
    · rw [hmissing] at hkey
      contradiction

/-- What was issued stays covered by later files. -/
theorem IssuedBefore.later {u2f u2f' : Option U2fData} {response : Response} {key : DeviceKey}
    (h : IssuedBefore device u2f response key) (hlater : Later device device')
    (hsession : ∀ session, u2f' = some session → device'.key = .holds session.deviceKey ∧
      device'.counter = .holds session.counter) : IssuedBefore device' u2f' response key := by
  have hstored : device'.key = .holds key → CoversCount response.count device' := by
    intro hkey
    rcases hlater.key key hkey with hold | ⟨hnew, -⟩
    · obtain ⟨stored, hcounter, hle⟩ := h.stored hold
      exact ⟨stored, hlater.counter key hkey hold stored hcounter, hle⟩
    · have := h.generated
      omega
  refine ⟨h.signedWith, Nat.lt_of_lt_of_le h.generated hlater.generated, hstored, ?_⟩
  intro session hu2f hkey
  obtain ⟨hholds, hcounter⟩ := hsession session hu2f
  obtain ⟨stored, hfound, hle⟩ := hstored (hkey ▸ hholds)
  obtain rfl := Stored.holds.inj (hcounter.symm.trans hfound)
  exact hle

/-- A step to later files, with no session or one that was made from them. -/
theorem Counted.of_later (h : Counted state) (hlater : Later state.device next.device)
    (hresponses : next.responses = state.responses)
    (hsession : ∀ session, next.u2f = some session →
      next.device.key = .holds session.deviceKey ∧ next.device.counter = .holds session.counter ∧
        session.counterHighWater = session.counter) : Counted next := by
  refine h.of_others (hresponses.trans (List.append_nil _).symm) (by simp) ?_ ?_ ?_
  · intro key hkey
    rcases hlater.key key hkey with hold | ⟨-, hnew⟩
    · exact Nat.lt_of_lt_of_le (h.generated key hold) hlater.generated
    · exact hnew
  · intro session hu2f
    obtain ⟨hkey, hcounter, hhighWater⟩ := hsession session hu2f
    refine ⟨⟨hhighWater ▸ UInt32.le_refl _, session.counter, hcounter, ?_⟩, hkey⟩
    rw [hhighWater]
    exact UInt32.le_refl _
  · intro response key hissued
    exact hissued.later hlater fun session hu2f ↦
      ⟨(hsession session hu2f).1, (hsession session hu2f).2.1⟩

end Invariant

section Steps

variable {state : State}

/-- What a specification says of a program that is run on the files. -/
theorem onDevice_of_ensures {Value : Type} {program : Program Device Value}
    {post : Value → Device → Prop} {crash : Device → Prop} (outcomes : Outcomes) (device : Device)
    (h : Ensures program post crash { device with
      changes := outcomes.changes, reads := outcomes.reads, entropy := outcomes.entropy }) :
    match onDevice program outcomes device with
    | (some value, device') => post value device'
    | (none, device') => crash device' := by
  unfold Ensures at h
  unfold onDevice
  split at h
  · rename_i value final hrun
    rw [hrun]
    exact h
  · rename_i reason final hrun
    rw [hrun]
    exact h

theorem counted_start (key : Stored Bytes) (counter : Stored UInt32) (inUse : List Bool) :
    Counted (State.start key counter inUse) := by
  refine ⟨?_, by simp [State.start], by simp [State.start], .nil⟩
  intro found hfound
  cases key with
  | missing => simp [State.start, Device.start] at hfound
  | damaged => simp [State.start, Device.start] at hfound
  | holds bytes =>
    simp only [State.start, Device.start, Stored.holds.injEq] at hfound
    rw [← hfound]
    exact Nat.zero_lt_one

/-- Without a session nothing depends on it. -/
theorem Counted.halt (h : Counted state) : Counted (halt state) :=
  h.of_sameDevice rfl (sameCounts_none _) (List.append_nil _).symm (by simp)

theorem counted_refuse (h : Counted state) {request bytes : Bytes}
    (hbytes : isAuthentication request bytes = false) : Counted (refuse state request bytes) := by
  refine h.of_sameDevice rfl (SameCounts.refl _) rfl ?_
  intro response hmem
  obtain rfl := List.mem_singleton.mp hmem
  exact hbytes

theorem counted_begin (h : Counted state) {request : Bytes} {responseCapacity since : ℕ}
    {prompt : Option ℕ} {phase : Phase} :
    Counted (begin state request responseCapacity since prompt phase) :=
  h.of_sameDevice rfl (SameCounts.refl _) (List.append_nil _).symm (by simp)

theorem isAuthentication_refusal {request : Bytes} {status : ℕ} (hstatus : status ∈ refusals) :
    isAuthentication request (writeStatus status) = false := by
  simp [isAuthentication, succeeded_writeStatus hstatus]

/-- A message that is not handed to the session is refused, or is answered with the version. -/
theorem earlyResponse_spec {request response : Bytes} {responseCapacity : ℕ}
    (h : earlyResponse state request responseCapacity = some response) :
    succeeded response = false ∨ request.getD 1 0 = cmdVersion := by
  unfold earlyResponse at h
  by_cases hempty : (!state.u2fEnabled || request.length = 0 || responseCapacity < 2) = true
  · rw [if_pos hempty] at h
    obtain rfl := Option.some.inj h
    exact Or.inl (by decide)
  · rw [if_neg hempty] at h
    by_cases hlong : 0xffff < request.length
    · rw [if_pos hlong] at h
      obtain rfl := Option.some.inj h
      exact Or.inl (by decide)
    · rw [if_neg hlong] at h
      split at h
      · rename_i status hstatus
        obtain rfl := Option.some.inj h
        obtain ⟨word, hword, rfl⟩ := Option.map_eq_some_iff.mp hstatus
        left
        exact succeeded_writeStatus (mem_refusals_of_validateRequestStatus hword)
      · split_ifs at h with hlength hversion
        · obtain rfl := Option.some.inj h
          exact Or.inl (by decide)
        · exact Or.inr hversion.1

theorem isAuthentication_earlyResponse {request response : Bytes} {responseCapacity : ℕ}
    (h : earlyResponse state request responseCapacity = some response) :
    isAuthentication request response = false := by
  rcases earlyResponse_spec h with hfailed | hversion
  · simp only [isAuthentication, hfailed, Bool.and_false]
  · simp only [isAuthentication, hversion]
    rfl

/-- An initialisation. -/
theorem Counted.adapterInit (h : Counted state) (attestation : Option Bytes) (outcomes : Outcomes) :
    Counted (adapterInit state attestation outcomes).2 := by
  have hspec := onDevice_of_ensures outcomes state.device (ensures_u2fInit attestation)
  unfold U2f.adapterInit
  by_cases hready : (state.u2f.isSome || !state.u2fEnabled) = true
  · rw [if_pos hready]
    exact h
  · rw [if_neg hready]
    split at hspec
    · rename_i session device hrun
      obtain ⟨hinit, hsession⟩ := hspec
      rw [hrun]
      have hlater := hinit.later
      refine h.of_later ⟨hlater.generated, hlater.key, hlater.counter⟩ rfl ?_
      intro found hfound
      obtain ⟨hkey, hcounter, hhighWater, -⟩ := hsession found hfound
      exact ⟨hkey, hcounter, hhighWater⟩
    · rename_i device hrun
      rw [hrun]
      have hlater := hspec.later
      exact h.of_later ⟨hlater.generated, hlater.key, hlater.counter⟩ rfl (by simp [U2f.halt])

theorem Counted.requestPresence (h : Counted state) (request : Bytes) (responseCapacity : ℕ)
    (tick : UInt32) : Counted (requestPresence state request responseCapacity tick) := by
  have hasked : ∀ ui, Counted { state with ui := ui } := fun ui ↦
    h.of_sameDevice rfl (SameCounts.refl _) (List.append_nil _).symm (by simp)
  unfold U2f.requestPresence
  dsimp only
  split_ifs
  · exact counted_refuse h (isAuthentication_refusal (by decide))
  · exact counted_begin h
  · exact counted_begin (hasked _)
  · exact counted_begin (hasked _)
  · exact counted_refuse (hasked _) (isAuthentication_refusal (by decide))

theorem Counted.handleMsg (h : Counted state) (request : Bytes) (responseCapacity : ℕ)
    (attestation : Option Bytes) (outcomes : Outcomes) (tick : UInt32) :
    Counted (handleMsg state request responseCapacity attestation outcomes tick) := by
  have hinit := h.adapterInit attestation outcomes
  unfold U2f.handleMsg
  split
  · rename_i response hearly
    exact counted_refuse h (isAuthentication_earlyResponse hearly)
  · split
    · rename_i next hnext
      rwa [hnext] at hinit
    · rename_i next hnext
      rw [hnext] at hinit
      exact counted_refuse hinit (isAuthentication_refusal (by decide))
    · rename_i next hnext
      rw [hnext] at hinit
      split_ifs
      · exact counted_refuse hinit (by simp [isAuthentication, succeeded, writeStatus])
      · exact hinit.requestPresence request responseCapacity tick

theorem isIssued_respond_refusal (handler : Handler) :
    (respond handler none (writeStatus swConditionsNotSatisfied)).isIssued = false :=
  isAuthentication_refusal (by decide)

theorem Counted.wake (h : Counted state) : Counted (wake state) := by
  unfold U2f.wake
  split
  · exact h
  · rename_i handler rest _
    dsimp only
    split_ifs
    · exact h
    · exact h.of_sameDevice rfl (SameCounts.refl _) (List.append_nil _).symm (by simp)
    · refine h.of_sameDevice rfl (SameCounts.refl _) rfl ?_
      intro response hmem
      obtain rfl := List.mem_singleton.mp hmem
      exact isIssued_respond_refusal handler

theorem Counted.abandon (h : Counted state) : Counted (abandon state) := by
  unfold U2f.abandon
  split_ifs
  · refine h.of_sameDevice rfl (SameCounts.refl _) rfl ?_
    intro response hmem
    obtain ⟨handler, -, rfl⟩ := List.mem_map.mp hmem
    exact isIssued_respond_refusal handler
  · exact h

theorem Counted.confirm (h : Counted state) : Counted (confirm state) := by
  unfold U2f.confirm
  split
  · exact h
  · split_ifs
    · exact h
    · exact h.of_sameDevice rfl (sameCounts_confirm _) (List.append_nil _).symm (by simp)

theorem Counted.clear (h : Counted state) : Counted (clear state) := by
  unfold U2f.clear
  split
  · exact h
  · split_ifs
    · exact h
    · exact h.of_sameDevice rfl (sameCounts_clear _) (List.append_nil _).symm (by simp)

/-- The session answers a request. Its count is above every count that was issued with its secret.
-/
theorem Counted.parsed (h : Counted state) {session session' : U2fData} {handler : Handler}
    {handlers : List Handler} {bytes : Bytes} {device : Device} (hu2f : state.u2f = some session)
    (hparsed : Parsed session handler.request (session', bytes))
    (hreserved : Reserved session' device) (hkey : SameKey state.device device) :
    Counted { state with
      u2f := some session'
      device := device
      handlers := handlers
      responses := state.responses ++ [respond handler (some session.deviceKey) bytes] } := by
  obtain ⟨hreservedBefore, hholds⟩ := h.session session hu2f
  have hle : session.counter ≤ session'.counter := by
    cases hissued : isAuthentication handler.request bytes with
    | false => exact UInt32.le_of_eq (hparsed.kept hissued).symm
    | true => exact UInt32.le_of_lt (hparsed.counted hissued).1
  have hcovers : ∀ count : ℕ, count ≤ session'.counter.toNat → CoversCount count device := by
    intro count hcount
    obtain ⟨stored, hstored, hhighWater⟩ := hreserved.covers
    have habove := UInt32.le_iff_toNat_le.mp (UInt32.le_trans hreserved.counter_le hhighWater)
    exact ⟨stored, hstored, Nat.le_trans hcount habove⟩
  have hold : ∀ response key, IssuedBefore state.device state.u2f response key →
      IssuedBefore device (some session') response key := by
    intro response key hissued
    have hbelow : session.deviceKey = key → response.count ≤ session'.counter.toNat := by
      intro hsame
      exact Nat.le_trans (hissued.session session hu2f hsame) (UInt32.le_iff_toNat_le.mp hle)
    refine ⟨hissued.signedWith, hkey.generated ▸ hissued.generated, ?_, ?_⟩
    · intro hstored
      rw [hkey.key, hholds, Stored.holds.injEq] at hstored
      exact hcovers _ (hbelow hstored)
    · rintro _ ⟨rfl⟩ hsame
      exact hbelow (hparsed.deviceKey.symm.trans hsame)
  constructor
  · intro key hstored
    rw [hkey.generated]
    exact h.generated key (hkey.key.symm.trans hstored)
  · rintro _ ⟨rfl⟩
    refine ⟨hreserved, ?_⟩
    rw [hparsed.deviceKey]
    exact hkey.key.trans hholds
  · intro response hmem hyes
    rcases List.mem_append.mp hmem with hbefore | hnew
    · obtain ⟨key, hissued⟩ := h.issued response hbefore hyes
      exact ⟨key, hold response key hissued⟩
    · obtain rfl := List.mem_singleton.mp hnew
      have hcount : responseCounter bytes = session'.counter.toNat := (hparsed.counted hyes).2
      refine ⟨session.deviceKey, rfl, ?_, fun _ ↦ hcovers _ (Nat.le_of_eq hcount), ?_⟩
      · rw [hkey.generated]
        exact h.generated _ hholds
      · rintro _ ⟨rfl⟩ -
        exact Nat.le_of_eq hcount
  · refine List.pairwise_append.mpr ⟨h.increase, List.pairwise_singleton _ _, ?_⟩
    intro first hfirst second hsecond hissued hyes hsame
    obtain rfl := List.mem_singleton.mp hsecond
    obtain ⟨hlt, hcount⟩ := hparsed.counted hyes
    obtain ⟨key, hbefore⟩ := h.issued first hfirst hissued
    have hdeviceKey : session.deviceKey = key :=
      (Option.some.inj (hbefore.signedWith.symm.trans hsame)).symm
    calc first.count ≤ session.counter.toNat := hbefore.session session hu2f hdeviceKey
      _ < session'.counter.toNat := UInt32.lt_iff_toNat_lt.mp hlt
      _ = responseCounter bytes := hcount.symm

/-- The power is lost while the session answers a request. -/
theorem Counted.lost (h : Counted state) {session : U2fData} {device : Device}
    (hu2f : state.u2f = some session) (hkey : SameKey state.device device)
    (hcovers : Covers session.counter device) : Counted (U2f.halt { state with device := device }) := by
  obtain ⟨-, hholds⟩ := h.session session hu2f
  refine h.of_others (List.append_nil _).symm (by simp) ?_ (by simp [U2f.halt]) ?_
  · intro key hstored
    exact hkey.generated ▸ h.generated key (hkey.key.symm.trans hstored)
  · intro response key hissued
    refine ⟨hissued.signedWith, hkey.generated ▸ hissued.generated, ?_, by simp [U2f.halt]⟩
    intro hstored
    have hsame : session.deviceKey = key := by
      have hfound := hkey.key.symm.trans hstored
      rw [hholds, Stored.holds.injEq] at hfound
      exact hfound
    obtain ⟨stored, hcounter, hle⟩ := hcovers
    exact ⟨stored, hcounter,
      Nat.le_trans (hissued.session session hu2f hsame) (UInt32.le_iff_toNat_le.mp hle)⟩

theorem Counted.parse (h : Counted state) (env : Surroundings) (outcomes : Outcomes) :
    Counted (parse state env outcomes) := by
  unfold U2f.parse
  split
  · exact h
  · rename_i handler rest _
    by_cases hready : handler.phase ≠ .ready
    · rw [if_pos hready]
      exact h
    · rw [if_neg hready]
      split
      · exact h.halt
      · rename_i session hu2f
        obtain ⟨hle, hcovers⟩ := (h.session session hu2f).1
        have hspec := onDevice_of_ensures outcomes state.device
          (ensures_msgParse env handler.request handler.responseCapacity ⟨hle, hcovers⟩)
        split
        · rename_i session' bytes device hrun
          rw [hrun] at hspec
          obtain ⟨hparsed, hreserved, hkey⟩ := hspec
          exact h.parsed hu2f hparsed hreserved ⟨hkey.key, hkey.generated⟩
        · rename_i device hrun
          rw [hrun] at hspec
          exact h.lost hu2f ⟨hspec.1.key, hspec.1.generated⟩ hspec.2

theorem Counted.reset (h : Counted state) (storeWiped : Bool) (attestation : Option Bytes)
    (outcomes : Outcomes) : Counted (reset state storeWiped attestation outcomes) := by
  have hspec := onDevice_of_ensures outcomes state.device ensures_dataWipe
  unfold U2f.reset
  split
  · rename_i device hrun
    rw [hrun] at hspec
    have hlater := hspec.later
    exact h.of_later ⟨hlater.generated, hlater.key, hlater.counter⟩ rfl (by simp [U2f.halt])
  · rename_i wiped device hrun
    rw [hrun] at hspec
    have hlater := hspec.later
    have hwiped : Counted { state with u2f := none, device := device } :=
      h.of_later ⟨hlater.generated, hlater.key, hlater.counter⟩ rfl (by simp)
    dsimp only
    split_ifs
    · exact hwiped.adapterInit attestation _
    · exact hwiped

/-- A step that is only taken in some states. -/
theorem Counted.ite {allowed : Prop} [Decidable allowed] {next : State} (hnext : Counted next)
    (h : Counted state) : Counted (if allowed then next else state) := by
  split_ifs
  · exact hnext
  · exact h

theorem counted_step (event : Event) (h : Counted state) : Counted (step state event) := by
  have hsame : ∀ ui u2fEnabled, Counted { state with ui := ui, u2fEnabled := u2fEnabled } :=
    fun ui u2fEnabled ↦ h.of_sameDevice rfl (SameCounts.refl _) (List.append_nil _).symm (by simp)
  cases event with
  | message request responseCapacity attestation outcomes tick =>
    exact (h.handleMsg request responseCapacity attestation outcomes tick).ite h
  | ui event =>
    exact (hsame _ _).ite h
  | wake => exact h.wake
  | abandon => exact h.abandon
  | confirm => exact h.confirm
  | parse env outcomes => exact h.parse env outcomes
  | clear => exact h.clear
  | setConnected =>
    exact h.of_sameDevice rfl (sameCounts_clear _) (List.append_nil _).symm (by simp)
  | setU2fEnabled enabled => exact hsame _ _
  | initialise attestation outcomes => exact h.adapterInit attestation outcomes
  | reset storeWiped attestation outcomes =>
    exact (h.reset storeWiped attestation outcomes).ite h
  | powerLoss => exact h.halt

/-- The counts in the authentications that succeed with one device secret increase, in every run. -/
theorem counts_increase (key : Stored Bytes) (counter : Stored UInt32) (inUse : List Bool)
    (events : List Event) :
    CountsIncrease (run step (State.start key counter inUse) events).responses :=
  (run_invariant_always (fun _ event h ↦ counted_step event h) events
    (counted_start key counter inUse)).increase

/-- An authentication with the key handle of 64 zero bytes, without asking the user. -/
def quietAuthentication : List Event :=
  [.message ([0, cmdAuthenticate, dontEnforce, 0, 129] ++ List.replicate 64 0 ++ 64 ::
      List.replicate 64 0) 256 (some []) ⟨[], [], []⟩ 0,
    .parse .standIn ⟨[], [], []⟩, .clear]

-- after a loss of power the count goes on above the counts that were reserved
example : (run step (State.start .missing .missing [])
    (quietAuthentication ++ quietAuthentication ++ [.powerLoss] ++ quietAuthentication)).responses.map
      (fun response ↦ (response.isIssued, response.count)) = [(true, 1), (true, 2), (true, 34)] := by
  decide +kernel

end Steps

end ZeroFido.U2f
