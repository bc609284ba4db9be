import ZeroFido.Foundations.Trace
import ZeroFido.Pin.StateStore
import Mathlib.Data.List.Induction

/-!
# Invariants of the clientPIN state

Two invariants relate the state and the PIN file to what the observer has been told.

`RetryBound` is the retry budget: the retries left, in memory and in whatever a restart would load,
are at most the maximum less the wrong guesses since the last reset. `TokenHistory` is the token: an
active token is the last one issued, its permissions and RP binding are those it was issued with or
have been spent, and every authorisation recorded so far was one the last issued token allowed.

The operations are measured by `Bookkeeping`, a step that issues and uses no token and leaves the
current one alone or drops it. It preserves `TokenHistory` (`TokenHistory.bookkeeping`), so only
issuing and authorising need an argument of their own.
-/

set_option autoImplicit false
set_option relaxedAutoImplicit false

namespace ZeroFido.Pin

open Foundations Storage

section Queries

/-- The wrong guesses after a record, given those before its last event. -/
def countWrong (wrong : ℕ) : PinEvent → ℕ
  | .hashCompared false => wrong + 1
  | .retriesReset => 0
  | _ => wrong

/-- The number of comparisons with a wrong PIN hash since the retry counter was last reset. -/
def wrongSinceReset (trace : List PinEvent) : ℕ := trace.foldl countWrong 0

/-- The time and the terms of the last token issued. -/
def lastIssue (trace : List PinEvent) : Option (ℕ × TokenGrant) :=
  trace.foldl (fun last event ↦ match event with
    | .tokenIssued time grant => some (time, grant)
    | _ => last) none

/-- The number of authorisations since the last token was issued. -/
def authorizedSinceIssue (trace : List PinEvent) : ℕ :=
  trace.foldl (fun count event ↦ match event with
    | .tokenIssued _ _ => 0
    | .authorized _ _ _ => count + 1
    | _ => count) 0

/-- An event that concerns the retry counter and no token. -/
def PinEvent.isRetry : PinEvent → Bool
  | .hashCompared _ => true
  | .retriesReset => true
  | _ => false

variable (trace : List PinEvent)

@[simp]
theorem wrongSinceReset_concat (event : PinEvent) :
    wrongSinceReset (trace ++ [event]) = countWrong (wrongSinceReset trace) event := by
  simp [wrongSinceReset]

@[simp]
theorem lastIssue_tokenIssued (time : ℕ) (grant : TokenGrant) :
    lastIssue (trace ++ [.tokenIssued time grant]) = some (time, grant) := by
  simp [lastIssue]

@[simp]
theorem lastIssue_authorized (time : ℕ) (permissions : UInt64) (rpId : Option Bytes) :
    lastIssue (trace ++ [.authorized time permissions rpId]) = lastIssue trace := by
  simp [lastIssue]

@[simp]
theorem authorizedSinceIssue_tokenIssued (time : ℕ) (grant : TokenGrant) :
    authorizedSinceIssue (trace ++ [.tokenIssued time grant]) = 0 := by
  simp [authorizedSinceIssue]

theorem lastIssue_append_retry {extra : List PinEvent} (hextra : ∀ event ∈ extra, event.isRetry) :
    lastIssue (trace ++ extra) = lastIssue trace := by
  induction extra using List.reverseRecOn with
  | nil => simp
  | append_singleton extra event ih =>
    have hevent := hextra event (by simp)
    rw [← ih fun other hother ↦ hextra other (by simp [hother]), ← List.append_assoc]
    cases event <;> simp_all [lastIssue, PinEvent.isRetry]

theorem authorizedSinceIssue_append_retry {extra : List PinEvent}
    (hextra : ∀ event ∈ extra, event.isRetry) :
    authorizedSinceIssue (trace ++ extra) = authorizedSinceIssue trace := by
  induction extra using List.reverseRecOn with
  | nil => simp
  | append_singleton extra event ih =>
    have hevent := hextra event (by simp)
    rw [← ih fun other hother ↦ hextra other (by simp [hother]), ← List.append_assoc]
    cases event <;> simp_all [authorizedSinceIssue, PinEvent.isRetry]

/-- An authorisation. -/
def PinEvent.isAuthorized : PinEvent → Bool
  | .authorized _ _ _ => true
  | _ => false

/-- The issue of a token. -/
def PinEvent.isIssue : PinEvent → Bool
  | .tokenIssued _ _ => true
  | _ => false

variable (before between : List PinEvent) (time : ℕ) (grant : TokenGrant)

/-- Until the next token is issued, the last one issued stays the same. -/
theorem lastIssue_between (hissue : ∀ event ∈ between, event.isIssue = false) :
    lastIssue (before ++ .tokenIssued time grant :: between) = some (time, grant) := by
  induction between using List.reverseRecOn with
  | nil => exact lastIssue_tokenIssued before time grant
  | append_singleton between event ih =>
    have hevent := hissue event (by simp)
    rw [← ih fun other hother ↦ hissue other (by simp [hother])]
    cases event <;> simp_all [lastIssue, PinEvent.isIssue]

/-- Until the next token is issued, the authorisations since the issue are those recorded. -/
theorem authorizedSinceIssue_between (hissue : ∀ event ∈ between, event.isIssue = false) :
    authorizedSinceIssue (before ++ .tokenIssued time grant :: between) =
      between.countP PinEvent.isAuthorized := by
  induction between using List.reverseRecOn with
  | nil => exact authorizedSinceIssue_tokenIssued before time grant
  | append_singleton between event ih =>
    have hevent := hissue event (by simp)
    rw [List.countP_append, ← ih fun other hother ↦ hissue other (by simp [hother])]
    cases event <;> simp_all [authorizedSinceIssue, PinEvent.isIssue, PinEvent.isAuthorized]

end Queries

section Retry

/-- A wrong guess is recorded only while fewer than the maximum have been since the last reset. -/
def GuessAllowed (before : List PinEvent) (event : PinEvent) : Prop :=
  event = .hashCompared false → wrongSinceReset before < pinRetriesMax

variable {trace : List PinEvent}

theorem wrongSinceReset_le (htrace : EveryEvent GuessAllowed trace) :
    wrongSinceReset trace ≤ pinRetriesMax := by
  induction trace using List.reverseRecOn with
  | nil => exact Nat.zero_le _
  | append_singleton before event ih =>
    obtain ⟨hbefore, hevent⟩ := everyEvent_concat.mp htrace
    have hle := ih hbefore
    rw [wrongSinceReset_concat]
    cases event with
    | hashCompared equal =>
      cases equal with
      | true => exact hle
      | false => exact hevent rfl
    | retriesReset => exact Nat.zero_le _
    | tokenIssued time grant => exact hle
    | authorized time permissions rpId => exact hle

/-- Without a reset in between, the wrong guesses of a stretch of the record are still counted at
its end. -/
theorem count_le_wrongSinceReset (before between : List PinEvent)
    (hreset : PinEvent.retriesReset ∉ between) :
    between.count (.hashCompared false) ≤ wrongSinceReset (before ++ between) := by
  induction between using List.reverseRecOn with
  | nil => simp
  | append_singleton between event ih =>
    have hbetween := ih fun hmem ↦ hreset (by simp [hmem])
    rw [← List.append_assoc, wrongSinceReset_concat, List.count_append]
    cases event with
    | hashCompared equal => cases equal <;> simp [countWrong] <;> omega
    | retriesReset => simp at hreset
    | tokenIssued time grant => simpa [countWrong] using hbetween
    | authorized time permissions rpId => simpa [countWrong] using hbetween

/-- The retry budget. -/
structure RetryBound (state : ClientPinState) (world : Device) : Prop where
  history : EveryEvent GuessAllowed world.trace
  memory : state.pinSet = true → state.pinRetries + wrongSinceReset world.trace ≤ pinRetriesMax
  file : ∀ raw, logical world.files pinFilePath = some raw →
    AtMostRetries (pinRetriesMax - wrongSinceReset world.trace) raw

end Retry

section Token

variable (crypto : Crypto) (admitted : List PinEvent → ℕ → Prop)

/-- Neither makeCredential nor getAssertion is among the token's permissions any more. -/
def ClientPinState.Spent (state : ClientPinState) : Prop :=
  state.pinTokenPermissions &&& (permissionMc ||| permissionGa) = 0

/-- An authorisation is recorded only at an admitted moment, for the last token issued, before it
expired by its own tick, for the first time if it was issued with consent, and for the RP ID it was
issued for. -/
def AuthorizationAllowed (before : List PinEvent) (event : PinEvent) : Prop :=
  match event with
  | .authorized time _ rpId => admitted before time ∧ ∃ issued grant,
      lastIssue before = some (issued, grant) ∧ issued ≤ time ∧
      asInt32 ((time - issued) % 2 ^ 32) < pinTokenTimeoutMs ∧
      (grant.managed = true → authorizedSinceIssue before = 0) ∧
      ∀ bound, grant.permissionsMode = true → grant.rpId = some bound → bound ≠ [] →
        ∃ used, rpId = some used ∧ (crypto.sha256 used).take 32 = (crypto.sha256 bound).take 32
  | _ => True

/-- What an active token still carries of the terms it was issued on. -/
structure TokenTerms (state : ClientPinState) (trace : List PinEvent) (clock issued : ℕ)
    (grant : TokenGrant) : Prop where
  last : lastIssue trace = some (issued, grant)
  past : issued ≤ clock
  tick : state.pinTokenIssuedAt = issued % 2 ^ 32
  managed : grant.managed = true →
    state.pinTokenPermissionsManaged = true ∧ authorizedSinceIssue trace = 0 ∨ state.Spent
  bound : ∀ bound, grant.permissionsMode = true → grant.rpId = some bound → bound ≠ [] →
    (state.pinTokenPermissionsScoped = true ∧ state.pinTokenPermissionsRpIdSet = true ∧
      state.pinTokenPermissionsRpIdHash = crypto.sha256 bound) ∨ state.Spent

/-- The token and its history. -/
structure TokenHistory (state : ClientPinState) (world : Device) : Prop where
  history : EveryEvent (AuthorizationAllowed crypto admitted) world.trace
  token : state.pinTokenActive = true →
    ∃ issued grant, TokenTerms crypto state world.trace world.clock issued grant

/-- A token issued with consent is used at most once before the next token is issued. -/
theorem authorized_le_one {crypto : Crypto} {admitted : List PinEvent → ℕ → Prop}
    {before between : List PinEvent} {time : ℕ} {grant : TokenGrant}
    (hmanaged : grant.managed = true) (hissue : ∀ event ∈ between, event.isIssue = false)
    (htrace : EveryEvent (AuthorizationAllowed crypto admitted)
      (before ++ .tokenIssued time grant :: between)) :
    between.countP PinEvent.isAuthorized ≤ 1 := by
  induction between using List.reverseRecOn with
  | nil => simp
  | append_singleton between event ih =>
    have hearlier : ∀ event ∈ between, event.isIssue = false :=
      fun other hother ↦ hissue other (by simp [hother])
    rw [← List.cons_append, ← List.append_assoc, everyEvent_concat] at htrace
    obtain ⟨hhistory, hallowed⟩ := htrace
    have hle := ih hearlier hhistory
    rw [List.countP_append]
    cases event with
    | hashCompared equal => simpa [PinEvent.isAuthorized] using hle
    | retriesReset => simpa [PinEvent.isAuthorized] using hle
    | tokenIssued time' grant' =>
      have hnot := hissue (.tokenIssued time' grant') (by simp)
      exact absurd hnot (by simp [PinEvent.isIssue])
    | authorized time' permissions rpId =>
      obtain ⟨-, issued, found, hlast, -, -, hfirst, -⟩ := hallowed
      rw [lastIssue_between before between time grant hearlier, Option.some.injEq,
        Prod.mk.injEq] at hlast
      have hnone := hfirst (hlast.2 ▸ hmanaged)
      rw [authorizedSinceIssue_between before between time grant hearlier] at hnone
      rw [hnone]
      simp [PinEvent.isAuthorized]

end Token

section Bookkeeping

/-- The two states hold the same token. -/
def SameToken (state state' : ClientPinState) : Prop :=
  state' = { state with
    pinSet := state'.pinSet
    pinHash := state'.pinHash
    pinRetries := state'.pinRetries
    pinConsecutiveMismatches := state'.pinConsecutiveMismatches
    pinAuthBlocked := state'.pinAuthBlocked
    keyAgreement := state'.keyAgreement }

/-- The record grew by retry events, no time passed, and outcomes were taken from the front of the
lists. -/
structure RecordsRetries (world world' : Device) : Prop where
  clock_eq : world'.clock = world.clock
  trace : ∃ extra, world'.trace = world.trace ++ extra ∧ ∀ event ∈ extra, event.isRetry
  writes : world'.writes <:+ world.writes
  keyGenerations : world'.keyGenerations <:+ world.keyGenerations

/-- A step that issues and uses no token: it keeps the token or drops it. -/
structure Bookkeeping (state : ClientPinState) (world : Device) (state' : ClientPinState)
    (world' : Device) : Prop where
  token : SameToken state state' ∨ state'.pinTokenActive = false
  records : RecordsRetries world world'

variable {state state' state'' : ClientPinState} {world world' world'' : Device}

theorem SameToken.refl (state : ClientPinState) : SameToken state state := rfl

theorem SameToken.trans (h : SameToken state state') (h' : SameToken state' state'') :
    SameToken state state'' := by
  unfold SameToken at h h' ⊢
  rw [h', h]

theorem SameToken.pinTokenActive_eq (h : SameToken state state') :
    state'.pinTokenActive = state.pinTokenActive := by
  rw [h]

theorem RecordsRetries.of_quiet (h : Quiet world world') : RecordsRetries world world' :=
  ⟨h.clock_eq, ⟨[], by simp [h.trace_eq]⟩, h.writes, h.keyGenerations⟩

theorem RecordsRetries.refl (world : Device) : RecordsRetries world world :=
  .of_quiet (Quiet.refl world)

theorem RecordsRetries.trans (h : RecordsRetries world world')
    (h' : RecordsRetries world' world'') : RecordsRetries world world'' := by
  obtain ⟨extra, htrace, hextra⟩ := h.trace
  obtain ⟨extra', htrace', hextra'⟩ := h'.trace
  refine ⟨h'.clock_eq.trans h.clock_eq, ⟨extra ++ extra', by rw [htrace', htrace]; simp, ?_⟩,
    h'.writes.trans h.writes, h'.keyGenerations.trans h.keyGenerations⟩
  intro event hevent
  obtain hevent | hevent := List.mem_append.mp hevent
  · exact hextra event hevent
  · exact hextra' event hevent

/-- Recording one retry event. -/
theorem RecordsRetries.noted (event : PinEvent) (hevent : event.isRetry = true) :
    RecordsRetries world { world with trace := world.trace ++ [event] } :=
  ⟨rfl, ⟨[event], rfl, by simpa using hevent⟩, List.suffix_refl _, List.suffix_refl _⟩

theorem Bookkeeping.refl (state : ClientPinState) (world : Device) :
    Bookkeeping state world state world :=
  ⟨Or.inl (SameToken.refl state), RecordsRetries.refl world⟩

theorem Bookkeeping.trans (h : Bookkeeping state world state' world')
    (h' : Bookkeeping state' world' state'' world'') :
    Bookkeeping state world state'' world'' := by
  refine ⟨?_, h.records.trans h'.records⟩
  obtain hsame' | hdropped' := h'.token
  · obtain hsame | hdropped := h.token
    · exact Or.inl (hsame.trans hsame')
    · exact Or.inr (hsame'.pinTokenActive_eq.trans hdropped)
  · exact Or.inr hdropped'

/-- Retry events are always allowed by the token's rule. -/
theorem everyEvent_append_retry {crypto : Crypto} {admitted : List PinEvent → ℕ → Prop} {trace extra : List PinEvent}
    (htrace : EveryEvent (AuthorizationAllowed crypto admitted) trace)
    (hextra : ∀ event ∈ extra, event.isRetry) :
    EveryEvent (AuthorizationAllowed crypto admitted) (trace ++ extra) := by
  induction extra using List.reverseRecOn with
  | nil => simpa using htrace
  | append_singleton extra event ih =>
    rw [← List.append_assoc, everyEvent_concat]
    refine ⟨ih fun other hother ↦ hextra other (by simp [hother]), ?_⟩
    have hevent := hextra event (by simp)
    cases event <;> simp_all [AuthorizationAllowed, PinEvent.isRetry]

/-- Recording retries and keeping or dropping the token keeps its history. -/
theorem TokenHistory.bookkeeping {crypto : Crypto} {admitted : List PinEvent → ℕ → Prop}
    (h : TokenHistory crypto admitted state world)
    (hstep : Bookkeeping state world state' world') :
    TokenHistory crypto admitted state' world' := by
  obtain ⟨extra, htrace, hextra⟩ := hstep.records.trace
  refine ⟨?_, fun hactive ↦ ?_⟩
  · rw [htrace]
    exact everyEvent_append_retry h.history hextra
  · obtain hsame | hdropped := hstep.token
    · rw [hsame.pinTokenActive_eq] at hactive
      obtain ⟨issued, grant, hterms⟩ := h.token hactive
      refine ⟨issued, grant, ?_, ?_, ?_, ?_, ?_⟩
      · rw [htrace, lastIssue_append_retry _ hextra, hterms.last]
      · rw [hstep.records.clock_eq]
        exact hterms.past
      · rw [hsame]
        exact hterms.tick
      · rw [htrace, authorizedSinceIssue_append_retry _ hextra, hsame]
        exact hterms.managed
      · rw [hsame]
        exact hterms.bound
    · exact absurd hactive (by simp [hdropped])

end Bookkeeping

end ZeroFido.Pin
