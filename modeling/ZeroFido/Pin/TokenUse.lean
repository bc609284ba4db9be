import ZeroFido.Pin.Accounting
import ZeroFido.Pin.RequireAuth

/-!
# Using a token

`zerofido_pin_require_auth` keeps both invariants (`ensures_pinRequireAuth`). A request it
authorises is one the last issued token allows: the permission check rules out a spent token, so a
token issued with consent has not been used before and still carries its RP binding; consuming its
permissions leaves it spent.
-/

set_option autoImplicit false
set_option relaxedAutoImplicit false

namespace ZeroFido.Pin

open Foundations Storage

section Sound

variable (crypto : Crypto) (admitted : List PinEvent → ℕ → Prop)

/-- A step that keeps the token's history and, with reliable writes and key generation, the retry
budget. -/
structure Sound (state : ClientPinState) (world : Device) (state' : ClientPinState)
    (world' : Device) : Prop where
  token : TokenHistory crypto admitted state world → TokenHistory crypto admitted state' world'
  retry : world.writes = [] → world.keyGenerations = [] → RetryBound state world →
    RetryBound state' world'
  writes : world'.writes <:+ world.writes
  keyGenerations : world'.keyGenerations <:+ world.keyGenerations

variable {crypto admitted} {state state' state'' : ClientPinState} {world world' world'' : Device}

theorem Sound.writes_nil (h : Sound crypto admitted state world state' world') (hnil : world.writes = []) :
    world'.writes = [] := by
  have := h.writes
  rwa [hnil, List.suffix_nil] at this

theorem Sound.keyGenerations_nil (h : Sound crypto admitted state world state' world')
    (hnil : world.keyGenerations = []) : world'.keyGenerations = [] := by
  have := h.keyGenerations
  rwa [hnil, List.suffix_nil] at this

theorem Accounted.sound (h : Accounted state world state' world') :
    Sound crypto admitted state world state' world' :=
  ⟨fun htoken ↦ htoken.bookkeeping h.book, h.retry, h.book.records.writes,
    h.book.records.keyGenerations⟩

theorem Sound.refl (state : ClientPinState) (world : Device) :
    Sound crypto admitted state world state world :=
  (Accounted.refl state world).sound

theorem Sound.trans (h : Sound crypto admitted state world state' world')
    (h' : Sound crypto admitted state' world' state'' world'') : Sound crypto admitted state world state'' world'' :=
  ⟨fun htoken ↦ h'.token (h.token htoken), fun hwrites hkeys hbound ↦
    h'.retry (h.writes_nil hwrites) (h.keyGenerations_nil hkeys) (h.retry hwrites hkeys hbound),
    h'.writes.trans h.writes, h'.keyGenerations.trans h.keyGenerations⟩

end Sound

section Permissions

variable {state : ClientPinState} {required : UInt64}

/-- The permissions makeCredential and getAssertion ask for. -/
def UpTested (required : UInt64) : Prop := required = permissionMc ∨ required = permissionGa

/-- A token that has a permission is not spent. -/
theorem not_spent_of_granted (hrequired : UpTested required)
    (hgranted : state.pinTokenPermissions &&& required = required) : ¬state.Spent := by
  intro hspent
  have hsplit : required = (permissionMc ||| permissionGa) &&& required := by
    obtain rfl | rfl := hrequired <;> decide
  have hzero : state.pinTokenPermissions &&& required = 0 := by
    rw [hsplit, ← UInt64.and_assoc]
    unfold ClientPinState.Spent at hspent
    rw [hspent]
    simp
  rw [hzero] at hgranted
  obtain rfl | rfl := hrequired <;> exact absurd hgranted (by decide)

/-- Consuming leaves the token spent. -/
theorem spent_consumeUpTestedPermissions (hrequired : UpTested required) :
    (consumeUpTestedPermissions state required).Spent := by
  have hasked : required &&& (permissionMc ||| permissionGa) ≠ 0 := by
    obtain rfl | rfl := hrequired <;> decide
  have hcleared : state.pinTokenPermissions &&& ~~~(permissionMc ||| permissionGa) &&&
      (permissionMc ||| permissionGa) = 0 := by
    rw [UInt64.and_assoc]
    have : ~~~(permissionMc ||| permissionGa) &&& (permissionMc ||| permissionGa) = 0 := by decide
    rw [this]
    simp
  unfold consumeUpTestedPermissions ClientPinState.Spent
  simp only [hasked, if_false, hcleared, if_true]

/-- Consuming changes neither when the token was issued nor whether it is active. -/
theorem consumeUpTestedPermissions_issuedAt (state : ClientPinState) (required : UInt64) :
    (consumeUpTestedPermissions state required).pinTokenIssuedAt = state.pinTokenIssuedAt := by
  simp only [consumeUpTestedPermissions]
  split_ifs <;> rfl

theorem consumeUpTestedPermissions_pinRetries (state : ClientPinState) (required : UInt64) :
    (consumeUpTestedPermissions state required).pinRetries = state.pinRetries := by
  simp only [consumeUpTestedPermissions]
  split_ifs <;> rfl

end Permissions

section Expiry

/-- The wrapped difference of the two ticks is the elapsed time modulo `2 ^ 32`. -/
theorem tick_difference {issued clock : ℕ} (hpast : issued ≤ clock) :
    (clock % 2 ^ 32 + 2 ^ 32 - issued % 2 ^ 32) % 2 ^ 32 = (clock - issued) % 2 ^ 32 := by
  omega

end Expiry

section Authorise

variable {crypto : Crypto} {admitted : List PinEvent → ℕ → Prop} {world : Device}
  {state : ClientPinState} {request : AuthRequest}

/-- Binding a scoped token that was not bound. A token issued for an RP ID was bound when it was
issued, so one that is not bound any more is spent. -/
theorem sound_bindRpId (hunbound : state.pinTokenPermissionsRpIdSet = false)
    (rpId : Option Bytes) :
    Sound crypto admitted state world (setTokenPermissions crypto state state.pinTokenPermissions
      state.pinTokenPermissionsScoped state.pinTokenPermissionsManaged rpId) world := by
  refine ⟨fun htoken ↦ ⟨htoken.history, fun hactive ↦ ?_⟩, fun _ _ hbound ↦
    ⟨hbound.history, hbound.memory, hbound.file⟩, List.suffix_refl _, List.suffix_refl _⟩
  obtain ⟨issued, grant, hterms⟩ := htoken.token hactive
  refine ⟨issued, grant, hterms.last, hterms.past, hterms.tick, hterms.managed, ?_⟩
  intro bound hmode hrpId hne
  obtain ⟨-, hset, -⟩ | hspent := hterms.bound bound hmode hrpId hne
  · exact absurd (hset.symm.trans hunbound) (by simp)
  · exact Or.inr hspent

/-- Committing an authorisation the token allows. -/
theorem ensures_pinCommitAuthorization (hrequired : UpTested request.requiredPermissions)
    (hset : state.pinSet = true) (hactive : state.pinTokenActive = true)
    (hgranted : ¬state.Spent)
    (hallowed : TokenHistory crypto admitted state world → AuthorizationAllowed crypto admitted world.trace
      (.authorized world.clock request.requiredPermissions request.rpId)) :
    Ensures (pinCommitAuthorization crypto state request)
      (fun result world' ↦ Sound crypto admitted state world result.2 world')
      (fun world' ↦ LostDuring world world') world := by
  simp only [pinCommitAuthorization, ensures_bind]
  refine (ensures_pinStateStorePersist _).mono ?_ fun _ hcrash ↦ .of_powerLost hcrash
  rintro persisted middle ⟨hquiet, -, hdone, hfailed⟩
  have hretry (after : ClientPinState) (hafter : after.pinRetries = state.pinRetries) :
      world.writes = [] → RetryBound state world → RetryBound after middle :=
    fun hwrites hbound ↦ hbound.persistedSame hwrites hquiet hset rfl (fun hok ↦ hdone hok hset)
      (fun hok ↦ (hfailed hok).2) hafter
  cases persisted with
  | false =>
    refine Accounted.sound ⟨⟨Or.inl rfl, .of_quiet hquiet⟩, fun hwrites _ ↦ ?_⟩
    exact hretry _ rfl hwrites
  | true =>
    simp only [Bool.not_true, Bool.false_eq_true, if_false, note, ensures_bind, ensures_get,
      ensures_modify, ensures_pure]
    rw [hquiet.trace_eq, hquiet.clock_eq]
    refine ⟨fun htoken ↦ ⟨everyEvent_concat.mpr ⟨htoken.history, hallowed htoken⟩, fun _ ↦ ?_⟩,
      fun hwrites _ hbound ↦ ?_, hquiet.writes, hquiet.keyGenerations⟩
    · obtain ⟨issued, grant, hterms⟩ := htoken.token hactive
      refine ⟨issued, grant, ?_, ?_, ?_, ?_, ?_⟩
      · simpa using hterms.last
      · simpa [hquiet.clock_eq] using hterms.past
      · split_ifs
        · rw [consumeUpTestedPermissions_issuedAt]
          exact hterms.tick
        · exact hterms.tick
      · intro hmanaged
        obtain ⟨hstate, -⟩ | hspent := hterms.managed hmanaged
        · refine Or.inr ?_
          have hkept : state.clearAuthBlockState.pinTokenPermissionsManaged = true := hstate
          rw [if_pos hkept]
          exact spent_consumeUpTestedPermissions hrequired
        · exact absurd hspent hgranted
      · intro bound hmode hrpId hne
        split_ifs
        · exact Or.inr (spent_consumeUpTestedPermissions hrequired)
        · exact hterms.bound bound hmode hrpId hne
    · have hafter := hretry (if state.pinTokenPermissionsManaged = true then
        consumeUpTestedPermissions state.clearAuthBlockState request.requiredPermissions
        else state.clearAuthBlockState) ?_ hwrites hbound
      · refine ⟨?_, ?_, ?_⟩
        · rw [everyEvent_concat]
          exact ⟨hbound.history, fun hevent ↦ absurd hevent (by simp)⟩
        · rw [wrongSinceReset_concat, ← hquiet.trace_eq]
          exact hafter.memory
        · rw [wrongSinceReset_concat, ← hquiet.trace_eq]
          exact hafter.file
      · split_ifs
        · exact consumeUpTestedPermissions_pinRetries _ _
        · rfl

/-- What an unexpired token that grants the permission allows. -/
theorem authorizationAllowed (hadmitted : admitted world.trace world.clock)
    (hgranted : ¬state.Spent) (hactive : state.pinTokenActive = true)
    (hfresh : ∀ issued, issued ≤ world.clock → state.pinTokenIssuedAt = issued % 2 ^ 32 →
      asInt32 ((world.clock - issued) % 2 ^ 32) < pinTokenTimeoutMs)
    (hrpId : state.pinTokenPermissionsScoped = true → state.pinTokenPermissionsRpIdSet = true →
      ∃ used, request.rpId = some used ∧
        state.pinTokenPermissionsRpIdHash.take 32 = (crypto.sha256 used).take 32)
    (htoken : TokenHistory crypto admitted state world) :
    AuthorizationAllowed crypto admitted world.trace
      (.authorized world.clock request.requiredPermissions request.rpId) := by
  obtain ⟨issued, grant, hterms⟩ := htoken.token hactive
  refine ⟨hadmitted, issued, grant, hterms.last, hterms.past,
    hfresh issued hterms.past hterms.tick, ?_, ?_⟩
  · intro hmanaged
    obtain ⟨-, hfirst⟩ | hspent := hterms.managed hmanaged
    · exact hfirst
    · exact absurd hspent hgranted
  · intro bound hmode hbound hne
    obtain ⟨hscoped, hset, hhash⟩ | hspent := hterms.bound bound hmode hbound hne
    · obtain ⟨used, hused, hdigest⟩ := hrpId hscoped hset
      exact ⟨used, hused, by rw [← hdigest, hhash]⟩
    · exact absurd hspent hgranted

/-- A bound token that matches an RP ID has its digest. -/
theorem digest_of_tokenRpIdMatches {rpId : Option Bytes}
    (hset : state.pinTokenPermissionsRpIdSet = true)
    (hmatches : tokenRpIdMatches crypto state rpId = true) :
    ∃ used, rpId = some used ∧
      state.pinTokenPermissionsRpIdHash.take 32 = (crypto.sha256 used).take 32 := by
  unfold tokenRpIdMatches at hmatches
  cases rpId with
  | none => simp [hashRpId] at hmatches
  | some used =>
    cases used with
    | nil => simp [hashRpId] at hmatches
    | cons first rest =>
      refine ⟨first :: rest, rfl, ?_⟩
      simpa [hashRpId, hset, constantTimeEqual] using hmatches

/-- The permission and binding checks. -/
theorem ensures_pinAuthorize (hadmitted : admitted world.trace world.clock)
    (hrequired : UpTested request.requiredPermissions)
    (hset : state.pinSet = true) (hactive : state.pinTokenActive = true)
    (hfresh : ∀ issued, issued ≤ world.clock → state.pinTokenIssuedAt = issued % 2 ^ 32 →
      asInt32 ((world.clock - issued) % 2 ^ 32) < pinTokenTimeoutMs) :
    Ensures (pinAuthorize crypto state request)
      (fun result world' ↦ Sound crypto admitted state world result.2 world')
      (fun world' ↦ LostDuring world world') world := by
  have hasked : request.requiredPermissions &&& (permissionMc ||| permissionGa) ≠ 0 := by
    obtain hrequired | hrequired := hrequired <;> rw [hrequired] <;> decide
  simp only [pinAuthorize, ensures_ite, ensures_pure]
  refine ⟨fun _ ↦ Sound.refl _ _, fun hpermitted ↦ ?_⟩
  have hgranted : ¬state.Spent := not_spent_of_granted hrequired (not_not.mp hpermitted)
  refine ⟨fun hscoped ↦ ⟨fun _ ↦ Sound.refl _ _, fun _ ↦ ⟨fun _ ↦ Sound.refl _ _,
    fun hmatches ↦ ⟨fun hunbound ↦ ?_, fun hbound ↦ ?_⟩⟩⟩, fun hunscoped ↦ ?_⟩
  · -- The token is bound now; a history in which it had been bound at issue would be spent.
    replace hunbound : state.pinTokenPermissionsRpIdSet = false := by simpa using hunbound
    generalize hbound : setTokenPermissions crypto state state.pinTokenPermissions
      state.pinTokenPermissionsScoped state.pinTokenPermissionsManaged request.rpId = bound
    have hbind : Sound crypto admitted state world bound world :=
      hbound ▸ sound_bindRpId hunbound request.rpId
    have hgranted' : ¬bound.Spent := hbound ▸ hgranted
    have hactive' : bound.pinTokenActive = true := hbound ▸ hactive
    refine (ensures_pinCommitAuthorization hrequired (hbound ▸ hset) hactive' hgranted'
      fun htoken ↦ ?_).mono (fun result final hfinal ↦ hbind.trans hfinal) fun _ hcrash ↦ hcrash
    refine authorizationAllowed hadmitted hgranted' hactive' (hbound ▸ hfresh) (fun _ hset' ↦ ?_) htoken
    cases hrp : request.rpId with
    | none => simp [← hbound, setTokenPermissions, hashRpId, hrp] at hset'
    | some used =>
      refine ⟨used, rfl, ?_⟩
      cases used with
      | nil => simp [← hbound, setTokenPermissions, hashRpId, hrp] at hset'
      | cons first rest => simp [← hbound, setTokenPermissions, hashRpId, hrp]
  · refine ensures_pinCommitAuthorization hrequired hset hactive hgranted fun htoken ↦ ?_
    refine authorizationAllowed hadmitted hgranted hactive hfresh (fun _ hbound ↦ ?_) htoken
    exact digest_of_tokenRpIdMatches hbound (by simpa using hmatches)
  · refine ensures_pinCommitAuthorization hrequired hset hactive hgranted fun htoken ↦ ?_
    refine authorizationAllowed hadmitted hgranted hactive hfresh (fun hscoped _ ↦ ?_) htoken
    exact absurd ⟨hscoped, hasked⟩ hunscoped

/-- Authorising a makeCredential or getAssertion request keeps both invariants. It depends on the
moment only where the token's age is checked. -/
theorem ensures_pinRequireAuth (state : ClientPinState) (request : AuthRequest)
    (hrequired : UpTested request.requiredPermissions)
    (hadmitted : ReachesExpiryCheck state request → admitted world.trace world.clock) :
    Ensures (pinRequireAuth crypto state request)
      (fun result world' ↦ Sound crypto admitted state world result.2 world')
      (fun world' ↦ LostDuring world world') world := by
  simp only [pinRequireAuth, ensures_ite, ensures_pure]
  refine ⟨fun hasked ↦ ?_, fun _ ↦ ⟨fun _ ↦ Sound.refl _ _, fun _ ↦ ⟨fun _ ↦ Sound.refl _ _,
    fun _ ↦ Sound.refl _ _⟩⟩⟩
  refine ⟨fun _ ↦ Sound.refl _ _, fun hnamed ↦ ⟨fun _ ↦ Sound.refl _ _, fun hprotocol ↦
    ⟨fun _ ↦ Sound.refl _ _, fun hlength ↦ ⟨fun _ ↦ Sound.refl _ _, fun hblocked ↦
      ⟨fun _ ↦ Sound.refl _ _, fun hunset ↦ ⟨fun _ ↦ Sound.refl _ _, fun hinactive ↦ ?_⟩⟩⟩⟩⟩⟩
  have hset : state.pinSet = true := by simpa using hunset
  have hactive : state.pinTokenActive = true := by simpa using hinactive
  have hmoment : admitted world.trace world.clock := by
    apply hadmitted
    constructor
    · exact hasked
    · simpa using hnamed
    · by_contra hneither
      exact hprotocol (not_or.mp hneither)
    · exact not_not.mp hlength
    · simpa using hblocked
    · exact hset
    · exact hactive
  simp only [pinTokenIsExpired, getTick, ensures_bind, ensures_get, ensures_pure, ensures_ite]
  refine ⟨fun _ ↦ Accounted.sound ⟨⟨Or.inr rfl, RecordsRetries.refl world⟩, fun _ _ hbound ↦
    ⟨hbound.history, hbound.memory, hbound.file⟩⟩, fun hexpired ↦ ?_⟩
  cases crypto.hmacSha256 state.pinToken request.clientDataHash with
  | none => exact Sound.refl _ _
  | some expected =>
    simp only [ensures_ite, ensures_bind, ensures_pure]
    refine ⟨fun _ ↦ (ensures_pinNotePinAuthMismatch state).mono
      (fun result final hfinal ↦ hfinal.sound) fun _ hcrash ↦ hcrash, fun _ ↦ ?_⟩
    apply ensures_pinAuthorize hmoment hrequired hset hactive
    intro issued hpast htick
    rw [htick, tick_difference hpast] at hexpired
    simpa using hexpired

end Authorise

end ZeroFido.Pin
