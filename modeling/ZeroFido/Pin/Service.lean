import ZeroFido.Pin.ClientPin

/-!
# What the clientPIN component is for

A service that holds one PIN, counts wrong guesses and hands out one token at a time. It knows PINs
and relying parties by their digests, and there are no messages, keys, files or ticks in it.
-/

set_option autoImplicit false
set_option relaxedAutoImplicit false

namespace ZeroFido.Pin

section Service

variable {Pin Rp Tag : Type}

/-- A token that was handed out. `managed` tokens were approved by the user and serve once. -/
structure ServiceToken (Tag : Type) where
  permissions : UInt64
  limited : Bool
  managed : Bool
  rpId : Option Tag
  /-- Milliseconds since it was handed out. -/
  age : ℕ
  deriving DecidableEq, Repr

/-- The state of the service. -/
structure Service (Tag : Type) where
  pin : Option Tag := none
  retries : ℕ := pinRetriesMax
  mismatches : ℕ := 0
  blocked : Bool := false
  token : Option (ServiceToken Tag) := none
  deriving DecidableEq, Repr

/-- What the service is asked, or what happens to it. -/
inductive ServiceRequest (Pin Rp : Type) where
  | getRetries
  | setPin (pin : Pin)
  | changePin (current next : Pin)
  | getPinToken (pin : Pin) (scope : Option (UInt64 × Rp)) (consent : ConsentOutcome) (delay : ℕ)
  | useToken (required : UInt64) (rpId : Rp)
  | wait (delay : ℕ)
  | powerCycle
  | reset
  deriving DecidableEq, Repr

/-- What is answered: a status, the retries that are left when that was the question, and whether
the user counts as verified. -/
structure ServiceAnswer where
  status : CtapStatus
  retries : ℕ := 0
  verified : Bool := false
  deriving DecidableEq, Repr

/-- How the service tells PINs and relying parties apart, which PINs it allows, and whether the user
is asked before a token without a scope is handed out. A relying party without a digest is none that
a token can be bound to. -/
structure ServicePolicy (Pin Rp Tag : Type) where
  digest : Pin → Tag
  rpDigest : Rp → Option Tag
  allowed : Pin → Bool
  consentForTokens : Bool

/-- A token lasts for 30 seconds. The age is measured with a clock of 32 bits, of which the upper
half counts as negative. -/
def ServiceToken.expired (token : ServiceToken Tag) : Bool :=
  decide (pinTokenTimeoutMs ≤ token.age % 2 ^ 32) && decide (token.age % 2 ^ 32 < 2 ^ 31)

/-- Whether a token serves for a permission and a relying party. One that is limited, and not bound
yet, serves for any relying party that it can be bound to. -/
def ServiceToken.permits [DecidableEq Tag] (token : ServiceToken Tag) (required : UInt64)
    (rpId : Option Tag) : Bool :=
  token.permissions &&& required == required &&
    (!token.limited || rpId.any fun named ↦ token.rpId.all fun bound ↦ decide (bound = named))

/-- The token after its use: bound to the relying party if it is limited, and spent if the user had
approved it. -/
def ServiceToken.use (token : ServiceToken Tag) (rpId : Option Tag) : ServiceToken Tag :=
  if token.managed then
    { token with
      permissions := token.permissions &&& ~~~(permissionMc ||| permissionGa)
      limited := false
      managed := false
      rpId := none }
  else if token.limited then
    { token with rpId := token.rpId.or rpId }
  else
    token

namespace Service

/-- Why no PIN is looked at. -/
def refusal (service : Service Tag) : CtapStatus :=
  match service.pin with
  | none => .pinNotSet
  | some _ =>
    if service.blocked then .pinAuthBlocked
    else if service.retries = 0 then .pinBlocked
    else .success

/-- The right PIN gives back all the retries. A wrong one costs a retry, and the third in a row
blocks until a restart. -/
def guess [DecidableEq Tag] (service : Service Tag) (tag : Tag) : CtapStatus × Service Tag :=
  if service.pin = some tag then
    (.success, { service with retries := pinRetriesMax, mismatches := 0, blocked := false })
  else
    let blocked := decide (3 ≤ service.mismatches + 1)
    (if service.retries - 1 = 0 then .pinBlocked
      else if blocked then .pinAuthBlocked
      else .pinInvalid,
      { service with
        retries := service.retries - 1
        mismatches := service.mismatches + 1
        blocked })

/-- A new PIN drops the token. -/
def install (tag : Tag) : Service Tag := { pin := some tag }

def elapse (service : Service Tag) (delay : ℕ) : Service Tag :=
  { service with token := service.token.map fun token ↦ { token with age := token.age + delay } }

def setPin (policy : ServicePolicy Pin Rp Tag) (service : Service Tag) (pin : Pin) :
    CtapStatus × Service Tag :=
  if service.pin.isSome then (.pinAuthInvalid, service)
  else if policy.allowed pin then (.success, install (policy.digest pin))
  else (.pinPolicyViolation, service)

/-- Which permissions can be asked for. -/
def scopeStatus (permissions : UInt64) : CtapStatus :=
  let supported := permissionMc ||| permissionGa
  let recognized := supported ||| permissionCm ||| permissionBe ||| permissionLbw ||| permissionAcfg
  if permissions = 0 ∨ permissions &&& ~~~recognized ≠ 0 then .invalidParameter
  else if permissions &&& ~~~supported ≠ 0 then .unauthorizedPermission
  else .success

/-- The token that is handed out for a scope. -/
def grant (policy : ServicePolicy Pin Rp Tag) (scope : Option (UInt64 × Rp)) :
    ServiceToken Tag where
  permissions := scope.elim (permissionMc ||| permissionGa) Prod.fst
  limited := scope.isSome
  managed := scope.isSome || policy.consentForTokens
  rpId := scope.bind fun (_, rpId) ↦ policy.rpDigest rpId
  age := 0

variable [DecidableEq Tag]

def changePin (policy : ServicePolicy Pin Rp Tag) (service : Service Tag) (current next : Pin) :
    CtapStatus × Service Tag :=
  if service.refusal ≠ .success then (service.refusal, service)
  else
    let (status, service) := service.guess (policy.digest current)
    if status ≠ .success then (status, service)
    else if policy.allowed next then (.success, install (policy.digest next))
    else (.pinPolicyViolation, service)

def getPinToken (policy : ServicePolicy Pin Rp Tag) (service : Service Tag) (pin : Pin)
    (scope : Option (UInt64 × Rp)) (consent : ConsentOutcome) (delay : ℕ) :
    CtapStatus × Service Tag :=
  let asked := scope.elim .success fun (permissions, _) ↦ scopeStatus permissions
  if service.refusal ≠ .success then (service.refusal, service)
  else if asked ≠ .success then (asked, service)
  else
    let (status, service) := service.guess (policy.digest pin)
    if status ≠ .success then (status, service)
    else if (grant policy scope).managed then
      if consentStatus consent ≠ .success then (consentStatus consent, service.elapse delay)
      else (.success, { service with token := some (grant policy scope) })
    else (.success, { service with token := some (grant policy scope) })

/-- A use of the token that was handed out last. It ends the row of wrong guesses. -/
def useToken (policy : ServicePolicy Pin Rp Tag) (service : Service Tag) (required : UInt64)
    (rpId : Rp) : CtapStatus × Service Tag :=
  if service.blocked then (.pinAuthBlocked, service)
  else if service.pin.isNone then (.pinNotSet, service)
  else
    match service.token with
    | none => (.pinAuthInvalid, service)
    | some token =>
      if token.expired then (.pinTokenExpired, { service with token := none })
      else if !token.permits required (policy.rpDigest rpId) then (.pinAuthInvalid, service)
      else (.success, { service with
        mismatches := 0
        blocked := false
        token := some (token.use (policy.rpDigest rpId)) })

/-- One request. -/
def step (policy : ServicePolicy Pin Rp Tag) (service : Service Tag) :
    ServiceRequest Pin Rp → ServiceAnswer × Service Tag
  | .getRetries => ({ status := .success, retries := service.retries }, service)
  | .setPin pin =>
    let (status, service) := service.setPin policy pin
    ({ status }, service)
  | .changePin current next =>
    let (status, service) := service.changePin policy current next
    ({ status }, service)
  | .getPinToken pin scope consent delay =>
    let (status, service) := service.getPinToken policy pin scope consent delay
    ({ status }, service)
  | .useToken required rpId =>
    let (status, service) := service.useToken policy required rpId
    ({ status, verified := decide (status = .success) }, service)
  | .wait delay => ({ status := .success }, service.elapse delay)
  | .powerCycle => ({ status := .success },
      { service with mismatches := 0, blocked := false, token := none })
  | .reset => ({ status := .success }, {})

/-- A sequence of requests. -/
def run (policy : ServicePolicy Pin Rp Tag) (service : Service Tag) :
    List (ServiceRequest Pin Rp) → List ServiceAnswer × Service Tag
  | [] => ([], service)
  | request :: requests =>
    let (answer, service) := service.step policy request
    let (answers, service) := service.run policy requests
    (answer :: answers, service)

end Service

end Service

section Bounds

variable {Pin Rp Tag : Type} {policy : ServicePolicy Pin Rp Tag} {service : Service Tag}

/-- The counters keep their bounds, and a service without a PIN has nothing else. -/
structure Service.WellFormed (service : Service Tag) : Prop where
  retries : service.retries ≤ pinRetriesMax
  mismatches : service.mismatches ≤ 3
  unblocked : service.blocked = false → service.mismatches < 3
  unset : service.pin = none → service = {}

theorem Service.wellFormed_empty : Service.WellFormed ({} : Service Tag) :=
  ⟨Nat.le_refl _, Nat.zero_le 3, fun _ ↦ Nat.zero_lt_succ 2, fun _ ↦ rfl⟩

theorem Service.wellFormed_install (tag : Tag) : (Service.install tag).WellFormed :=
  ⟨Nat.le_refl _, Nat.zero_le 3, fun _ ↦ Nat.zero_lt_succ 2, fun h ↦ absurd h (by simp [install])⟩

theorem Service.refusal_eq_success : service.refusal = .success ↔
    (∃ tag, service.pin = some tag) ∧ service.blocked = false ∧ service.retries ≠ 0 := by
  unfold refusal
  cases service.pin with
  | none => simp
  | some tag =>
    cases service.blocked
    · by_cases hretries : service.retries = 0 <;> simp [hretries]
    · simp

theorem Service.WellFormed.elapse (h : service.WellFormed) (delay : ℕ) :
    (service.elapse delay).WellFormed := by
  refine ⟨h.retries, h.mismatches, h.unblocked, fun hnone ↦ ?_⟩
  have hempty := h.unset hnone
  rw [hempty]
  rfl

variable [DecidableEq Tag]

theorem Service.guess_success {tag : Tag} (h : (service.guess tag).1 = .success) :
    service.pin = some tag := by
  by_contra hwrong
  unfold guess at h
  rw [if_neg hwrong] at h
  dsimp only at h
  split_ifs at h

theorem Service.WellFormed.guess (h : service.WellFormed) (hopen : service.refusal = .success)
    (tag : Tag) : (service.guess tag).2.WellFormed := by
  obtain ⟨⟨stored, hstored⟩, hunblocked, -⟩ := refusal_eq_success.mp hopen
  have hfew := h.unblocked hunblocked
  have hset : service.pin ≠ none := by
    rw [hstored]
    exact Option.some_ne_none stored
  unfold Service.guess
  by_cases hright : service.pin = some tag
  · rw [if_pos hright]
    exact ⟨Nat.le_refl _, Nat.zero_le 3, fun _ ↦ Nat.zero_lt_succ 2, fun hnone ↦ absurd hnone hset⟩
  · rw [if_neg hright]
    refine ⟨le_trans (Nat.sub_le _ 1) h.retries, hfew, fun hbelow ↦ ?_,
      fun hnone ↦ absurd hnone hset⟩
    have hsum : ¬3 ≤ service.mismatches + 1 := by simpa using hbelow
    exact Nat.lt_of_not_le hsum

/-- Every request keeps the bounds. -/
theorem Service.WellFormed.step (h : service.WellFormed) (request : ServiceRequest Pin Rp) :
    (service.step policy request).2.WellFormed := by
  have hissued : ∀ (service : Service Tag) (token : ServiceToken Tag), service.WellFormed →
      service.pin ≠ none → Service.WellFormed { service with token := some token } :=
    fun _ _ hbounds hset ↦ ⟨hbounds.retries, hbounds.mismatches, hbounds.unblocked,
      fun hnone ↦ absurd hnone hset⟩
  cases request with
  | getRetries => exact h
  | setPin pin =>
    simp only [Service.step, Service.setPin]
    split_ifs
    · exact h
    · exact wellFormed_install _
    · exact h
  | changePin current next =>
    simp only [Service.step, Service.changePin]
    split_ifs with hrefused hwrong hallowed
    · exact h
    · exact h.guess (not_not.mp hrefused) _
    · exact wellFormed_install _
    · exact h.guess (not_not.mp hrefused) _
  | getPinToken pin scope consent delay =>
    simp only [Service.step, Service.getPinToken]
    split_ifs with hrefused hasked hwrong
    · exact h
    · exact h
    · exact h.guess (not_not.mp hrefused) _
    all_goals
      have hguessed := h.guess (not_not.mp hrefused) (policy.digest pin)
      have hset : (service.guess (policy.digest pin)).2.pin ≠ none := by
        obtain ⟨⟨stored, hstored⟩, -⟩ := refusal_eq_success.mp (not_not.mp hrefused)
        unfold Service.guess
        split_ifs <;> simp [hstored]
    · exact hguessed.elapse delay
    · exact hissued _ _ hguessed hset
    · exact hissued _ _ hguessed hset
  | useToken required rpId =>
    simp only [Service.step, Service.useToken]
    split_ifs with hblocked hunset
    · exact h
    · exact h
    · have hset : service.pin ≠ none := by
        intro hnone
        rw [hnone] at hunset
        exact hunset rfl
      cases service.token with
      | none => exact h
      | some token =>
        dsimp only
        split_ifs
        · exact ⟨h.retries, h.mismatches, h.unblocked, fun hnone ↦ absurd hnone hset⟩
        · exact h
        · exact ⟨h.retries, Nat.zero_le 3, fun _ ↦ Nat.zero_lt_succ 2,
            fun hnone ↦ absurd hnone hset⟩
  | wait delay => exact h.elapse delay
  | powerCycle =>
    refine ⟨h.retries, Nat.zero_le 3, fun _ ↦ Nat.zero_lt_succ 2, fun hnone ↦ ?_⟩
    have hempty := h.unset hnone
    simp only [Service.step, hempty]
  | reset => exact wellFormed_empty

end Bounds

end ZeroFido.Pin
