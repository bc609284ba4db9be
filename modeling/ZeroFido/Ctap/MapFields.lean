import Mathlib.Data.List.Pairwise
import Mathlib.Data.List.Perm.Basic
import ZeroFido.Cbor.Items
import ZeroFido.Ctap.ParseShared

/-!
# Request maps

The parsers of the requests read a map with numeric keys, one field a key, and refuse to see a key
below 16 twice (`parseFields`).

When every value is one item and a field reads and writes a part of the request of its own
(`Keyed`), the request does not depend on the order of the pairs: `Keyed.orderFree`.
-/

set_option autoImplicit false
set_option relaxedAutoImplicit false

namespace ZeroFido.Ctap

open Cbor

section Parsers

/-- A parser of the bytes at a cursor. -/
abbrev Parser (Value : Type) : Type := StateT Bytes (Except CtapStatus) Value

variable {Value Next State : Type}

/-- A reader whose failure is answered with `ZF_CTAP_ERR_INVALID_CBOR`. -/
def cborRead (read : Bytes → Option (Value × Bytes)) : Parser Value := fun cursor ↦
  match read cursor with
  | some result => .ok result
  | none => .error .invalidCbor

theorem run_cborRead_of_some {read : Bytes → Option (Value × Bytes)} {cursor : Bytes}
    {result : Value × Bytes} (h : read cursor = some result) :
    (cborRead read).run cursor = .ok result := by
  show cborRead read cursor = _
  simp only [cborRead, h]

theorem run_cborRead_of_none {read : Bytes → Option (Value × Bytes)} {cursor : Bytes}
    (h : read cursor = none) : (cborRead read).run cursor = .error .invalidCbor := by
  show cborRead read cursor = _
  simp only [cborRead, h]

theorem toOption_cborRead (read : Bytes → Option (Value × Bytes)) (cursor : Bytes) :
    ((cborRead read).run cursor).toOption = read cursor := by
  cases h : read cursor with
  | none => rw [run_cborRead_of_none h, Except.toOption]
  | some result => rw [run_cborRead_of_some h, Except.toOption]

/-- `zf_cbor_skip`. -/
def cborSkip : Parser Unit := cborRead (skipping skip)

/-- The turns of a loop. -/
def repeated (turn : State → Parser State) : ℕ → State → Parser State
  | 0, state => return state
  | count + 1, state => do
    let state ← turn state
    repeated turn count state

/-- The parser takes `count` whole items, and the same ones whatever comes after them. -/
def Consumes (count : ℕ) (parser : Parser Value) : Prop :=
  Exact count fun cursor ↦ (parser.run cursor).toOption

variable {m n : ℕ} {parser : Parser Value}

theorem consumes_pure (value : Value) : Consumes 0 (pure value) := exact_some value

theorem consumes_throw (status : CtapStatus) : Consumes n (throw status : Parser Value) :=
  exact_none

theorem toOption_bind (parser : Parser Value) (next : Value → Parser Next) (cursor : Bytes) :
    ((parser >>= next).run cursor).toOption =
      (parser.run cursor).toOption.bind fun result ↦ ((next result.1).run result.2).toOption := by
  rw [StateT.run_bind]
  cases parser.run cursor <;> rfl

theorem Consumes.bind {next : Value → Parser Next} (h : Consumes m parser)
    (hnext : ∀ value, Consumes n (next value)) : Consumes (m + n) (parser >>= next) := by
  unfold Consumes
  simp only [toOption_bind]
  exact Exact.bind h hnext

/-- What follows takes nothing. -/
theorem Consumes.andThen {next : Value → Parser Next} (h : Consumes n parser)
    (hnext : ∀ value, Consumes 0 (next value)) : Consumes n (parser >>= next) := h.bind hnext

theorem consumes_ite {condition : Prop} [Decidable condition] {yes no : Parser Value}
    (hyes : Consumes n yes) (hno : Consumes n no) : Consumes n (if condition then yes else no) := by
  by_cases h : condition
  · rwa [if_pos h]
  · rwa [if_neg h]

theorem consumes_cborRead {read : Bytes → Option (Value × Bytes)} (h : Exact n read) :
    Consumes n (cborRead read) := by
  unfold Consumes
  simp only [toOption_cborRead]
  exact h

theorem consumes_repeated {turn : State → Parser State} (h : ∀ state, Consumes n (turn state))
    (count : ℕ) (state : State) : Consumes (n * count) (repeated turn count state) := by
  induction count generalizing state with
  | zero => exact consumes_pure state
  | succ count ih =>
    rw [Nat.mul_succ, Nat.add_comm]
    exact (h state).bind ih

/-- A container whose items the rest of the parser takes. -/
theorem consumes_container {major : ℕ} (hmajor : IsContainer major) {body : ℕ → Parser Value}
    (h : ∀ raw, Consumes (itemCount major raw) (body raw)) :
    Consumes 1 (cborRead (readStart major) >>= body) := by
  unfold Consumes
  simp only [toOption_bind, toOption_cborRead]
  exact exact_container hmajor h

theorem consumes_map {body : ℕ → Parser Value} (h : ∀ pairs, Consumes (2 * pairs) (body pairs)) :
    Consumes 1 (cborRead readMapStart >>= body) :=
  consumes_container (Or.inr rfl) h

theorem consumes_array {body : ℕ → Parser Value} (h : ∀ items, Consumes (1 * items) (body items)) :
    Consumes 1 (cborRead readArrayStart >>= body) :=
  consumes_container (Or.inl rfl) fun raw ↦ by
    simpa [itemCount, majorArray, majorMap] using h raw

end Parsers

section Pairs

variable {Value Request : Type}

/-- The loop over the pairs of a request map, whose fields `field` parses. -/
def parseFields (field : ℕ → Request → Parser Request) : ℕ → List ℕ → Request → Parser Request
  | 0, _, request => return request
  | pairs + 1, seenKeys, request => do
    let key ← cborRead readUint
    match markSeenKey seenKeys key with
    | none => throw .invalidCbor
    | some seenKeys =>
      let request ← field key request
      parseFields field pairs seenKeys request

/-- A parser of requests: the map, and the checks at the end, which see what is left. -/
def parseRequest (field : ℕ → Request → Parser Request) (initial : Request)
    (validate : Bytes → Request → CtapStatus) (data : Bytes) : Except CtapStatus Request := do
  let (pairs, cursor) ← (cborRead readMapStart).run data
  let (request, cursor) ← (parseFields field pairs [] initial).run cursor
  match validate cursor request with
  | .success => return request
  | status => throw status

/-- The key and the value are an item each. -/
structure IsPair (pair : Bytes × Bytes) : Prop where
  key : Items 1 pair.1
  value : Items 1 pair.2

/-- The bytes of pairs in a row. -/
def pairsBytes (pairs : List (Bytes × Bytes)) : Bytes := pairs.flatMap fun pair ↦ pair.1 ++ pair.2

theorem pairsBytes_cons (pair : Bytes × Bytes) (pairs : List (Bytes × Bytes)) (rest : Bytes) :
    pairsBytes (pair :: pairs) ++ rest = pair.1 ++ (pair.2 ++ (pairsBytes pairs ++ rest)) := by
  simp [pairsBytes]

/-- What a reader makes of bytes, when it takes them all. -/
def readWhole (read : Bytes → Option (Value × Bytes)) (bytes : Bytes) : Option Value :=
  match read bytes with
  | some (value, []) => some value
  | _ => none

theorem readWhole_eq_some {read : Bytes → Option (Value × Bytes)} {bytes : Bytes} {value : Value} :
    readWhole read bytes = some value ↔ read bytes = some (value, []) := by
  unfold readWhole
  split <;> simp_all

/-- An exact reader takes the items and nothing of what comes after them. -/
theorem run_items {read : Bytes → Option (Value × Bytes)} {n : ℕ} {bytes : Bytes} (h : Exact n read)
    (hitems : Items n bytes) (rest : Bytes) :
    read (bytes ++ rest) = (readWhole read bytes).map fun value ↦ (value, rest) := by
  cases hwhole : readWhole read bytes with
  | some value =>
    obtain ⟨consumed, -, hconsumed, hagain⟩ := h _ _ _ (readWhole_eq_some.mp hwhole)
    rw [List.append_nil] at hconsumed
    rw [hconsumed, hagain, Option.map_some]
  | none =>
    rw [Option.map_none, Option.eq_none_iff_forall_ne_some]
    rintro ⟨value, left⟩ hread
    obtain ⟨consumed, hconsumed, hsame, hagain⟩ := h _ _ _ hread
    obtain ⟨rfl, -⟩ := hitems.cancel hconsumed hsame
    have hempty := hagain []
    rw [List.append_nil, ← readWhole_eq_some, hwhole] at hempty
    exact absurd hempty (by simp)

/-- The key of a pair. -/
def pairKey (pair : Bytes × Bytes) : Option ℕ := readWhole readUint pair.1

/-- What a pair with the key makes of a request. -/
def fieldValue (field : ℕ → Request → Parser Request) (key : ℕ) (request : Request)
    (value : Bytes) : Option Request :=
  readWhole (fun cursor ↦ ((field key request).run cursor).toOption) value

/-- What a pair makes of a request. -/
def pairField (field : ℕ → Request → Parser Request) (request : Request) (pair : Bytes × Bytes) :
    Option Request :=
  (pairKey pair).bind fun key ↦ fieldValue field key request pair.2

/-- The keys that may occur once only. -/
def trackedKeys (pairs : List (Bytes × Bytes)) : List ℕ :=
  (pairs.filterMap pairKey).filter fun key ↦ decide (key < 16)

/-- No tracked key occurs twice, nor has it been seen before. -/
structure Unseen (seenKeys : List ℕ) (pairs : List (Bytes × Bytes)) : Prop where
  distinct : (trackedKeys pairs).Nodup
  fresh : ∀ key ∈ trackedKeys pairs, key ∉ seenKeys

variable {field : ℕ → Request → Parser Request}

/-- A pair at the cursor. -/
theorem run_parseFields_cons (hfield : ∀ key request, Consumes 1 (field key request))
    {pair : Bytes × Bytes} (hpair : IsPair pair) (pairs : ℕ) (seenKeys : List ℕ)
    (request : Request) (rest : Bytes) :
    ((parseFields field (pairs + 1) seenKeys request).run (pair.1 ++ (pair.2 ++ rest))).toOption =
      (pairKey pair).bind fun key ↦ (markSeenKey seenKeys key).bind fun seenKeys ↦
        (fieldValue field key request pair.2).bind fun request ↦
          ((parseFields field pairs seenKeys request).run rest).toOption := by
  rw [parseFields, toOption_bind, toOption_cborRead, run_items exact_readUint hpair.key,
    Option.bind_map]
  refine congrArg _ (funext fun key ↦ ?_)
  dsimp only [Function.comp]
  cases markSeenKey seenKeys key with
  | none => rfl
  | some seenKeys =>
    dsimp only [Option.bind_some]
    rw [toOption_bind, run_items (hfield key request) hpair.value, Option.bind_map]
    rfl

/-- The tracked keys of pairs are the first one's, when it is tracked, and those of the others. -/
theorem trackedKeys_cons {pair : Bytes × Bytes} {key : ℕ} (hkey : pairKey pair = some key)
    (pairs : List (Bytes × Bytes)) :
    trackedKeys (pair :: pairs) =
      if key < 16 then key :: trackedKeys pairs else trackedKeys pairs := by
  rw [trackedKeys, List.filterMap_cons_some hkey, List.filter_cons]
  by_cases hsmall : key < 16 <;> simp [hsmall, trackedKeys]

theorem unseen_cons {pair : Bytes × Bytes} {key : ℕ} (hkey : pairKey pair = some key)
    (seenKeys : List ℕ) (pairs : List (Bytes × Bytes)) :
    Unseen seenKeys (pair :: pairs) ↔
      ∃ seenKeys', markSeenKey seenKeys key = some seenKeys' ∧ Unseen seenKeys' pairs := by
  have htracked := trackedKeys_cons hkey pairs
  by_cases hlarge : 16 ≤ key
  · rw [if_neg (by omega)] at htracked
    simp only [markSeenKey, if_pos hlarge, Option.some.injEq, exists_eq_left']
    exact ⟨fun h ↦ ⟨htracked ▸ h.distinct, fun k hk ↦ h.fresh k (htracked ▸ hk)⟩,
      fun h ↦ ⟨htracked ▸ h.distinct, fun k hk ↦ h.fresh k (htracked ▸ hk)⟩⟩
  · rw [if_pos (by omega)] at htracked
    by_cases hseen : key ∈ seenKeys
    · simp only [markSeenKey, if_neg hlarge, if_pos hseen, reduceCtorEq, false_and, exists_false,
        iff_false]
      exact fun h ↦ h.fresh key (htracked ▸ List.mem_cons_self) hseen
    · simp only [markSeenKey, if_neg hlarge, if_neg hseen, Option.some.injEq, exists_eq_left']
      constructor
      · rintro ⟨hdistinct, hfresh⟩
        rw [htracked] at hdistinct hfresh
        obtain ⟨hnew, hdistinct⟩ := List.nodup_cons.mp hdistinct
        refine ⟨hdistinct, fun k hk hmem ↦ ?_⟩
        rcases List.mem_cons.mp hmem with rfl | hmem
        · exact hnew hk
        · exact hfresh k (List.mem_cons_of_mem _ hk) hmem
      · rintro ⟨hdistinct, hfresh⟩
        refine ⟨?_, ?_⟩ <;> rw [htracked]
        · exact List.nodup_cons.mpr ⟨fun hk ↦ hfresh key hk List.mem_cons_self, hdistinct⟩
        · intro k hk
          rcases List.mem_cons.mp hk with rfl | hk
          · exact hseen
          · exact fun hmem ↦ hfresh k hk (List.mem_cons_of_mem _ hmem)

/-- The loop accepts pairs when no tracked key comes again and each makes something of the request.
-/
theorem run_parseFields (hfield : ∀ key request, Consumes 1 (field key request))
    {pairs : List (Bytes × Bytes)} (hpairs : ∀ pair ∈ pairs, IsPair pair) (seenKeys : List ℕ)
    (request final : Request) (rest left : Bytes) :
    ((parseFields field pairs.length seenKeys request).run (pairsBytes pairs ++ rest)).toOption =
        some (final, left) ↔
      left = rest ∧ Unseen seenKeys pairs ∧
        pairs.foldlM (pairField field) request = some final := by
  induction pairs generalizing seenKeys request with
  | nil =>
    show some (request, rest) = some (final, left) ↔ left = rest ∧ _ ∧ some request = some final
    simp only [Option.some.injEq, Prod.mk.injEq]
    constructor
    · rintro ⟨rfl, rfl⟩
      exact ⟨rfl, ⟨List.nodup_nil, by simp [trackedKeys]⟩, rfl⟩
    · rintro ⟨rfl, -, rfl⟩
      exact ⟨rfl, rfl⟩
  | cons pair pairs ih =>
    rw [List.length_cons, pairsBytes_cons, run_parseFields_cons hfield
      (hpairs pair List.mem_cons_self), List.foldlM_cons, pairField]
    cases hkey : pairKey pair with
    | none => simp
    | some key =>
      have hnext := fun seenKeys request ↦
        ih (fun pair hpair ↦ hpairs pair (List.mem_cons_of_mem _ hpair)) seenKeys request
      simp only [Option.bind_some, Option.bind_eq_bind, Option.bind_eq_some_iff, hnext,
        unseen_cons hkey]
      constructor
      · rintro ⟨seenKeys', hseen, request', hvalue, rfl, hunseen, hfinal⟩
        exact ⟨rfl, ⟨seenKeys', hseen, hunseen⟩, request', hvalue, hfinal⟩
      · rintro ⟨rfl, ⟨seenKeys', hseen, hunseen⟩, request', hvalue, hfinal⟩
        exact ⟨seenKeys', hseen, request', hvalue, rfl, hunseen, hfinal⟩

/-- What the loop accepts are pairs. -/
theorem exists_pairs (hfield : ∀ key request, Consumes 1 (field key request)) {count : ℕ}
    {seenKeys : List ℕ} {request final : Request} {cursor rest : Bytes}
    (h : ((parseFields field count seenKeys request).run cursor).toOption = some (final, rest)) :
    ∃ pairs, pairs.length = count ∧ (∀ pair ∈ pairs, IsPair pair) ∧
      cursor = pairsBytes pairs ++ rest := by
  induction count generalizing seenKeys request cursor with
  | zero =>
    obtain ⟨rfl, rfl⟩ := Prod.mk.inj (Option.some.inj (show some (request, cursor) = _ from h))
    exact ⟨[], rfl, by simp, rfl⟩
  | succ count ih =>
    rw [parseFields, toOption_bind, toOption_cborRead] at h
    obtain ⟨⟨key, after⟩, hkey, hafter⟩ := Option.bind_eq_some_iff.mp h
    obtain ⟨keyBytes, hkeyItem, rfl, -⟩ := exact_readUint _ _ _ hkey
    dsimp only at hafter
    cases hseen : markSeenKey seenKeys key with
    | none =>
      rw [hseen] at hafter
      exact absurd (show (none : Option (Request × Bytes)) = _ from hafter) (by simp)
    | some seenKeys =>
      rw [hseen] at hafter
      dsimp only at hafter
      rw [toOption_bind] at hafter
      obtain ⟨⟨request', after'⟩, hvalue, hrest⟩ := Option.bind_eq_some_iff.mp hafter
      obtain ⟨valueBytes, hvalueItem, rfl, -⟩ := hfield key request _ _ _ hvalue
      obtain ⟨pairs, rfl, hpairs, rfl⟩ := ih hrest
      refine ⟨(keyBytes, valueBytes) :: pairs, rfl, fun pair hpair ↦ ?_,
        (pairsBytes_cons (keyBytes, valueBytes) pairs rest).symm⟩
      rcases List.mem_cons.mp hpair with rfl | hpair
      · exact ⟨hkeyItem, hvalueItem⟩
      · exact hpairs pair hpair

end Pairs

section Order

variable {Request : Type} {field : ℕ → Request → Parser Request}
  {put : ℕ → Request → Request → Request} {initial : Request}

/-- Each key has a part of the request of its own, which its field alone reads and writes. The
request `put key new old` is `old` with that part from `new`. -/
structure Keyed (field : ℕ → Request → Parser Request) (put : ℕ → Request → Request → Request)
    (initial : Request) : Prop where
  consumes : ∀ key request, Consumes 1 (field key request)
  field_eq : ∀ key request, field key request =
    (fun value ↦ put key value request) <$> field key (put key request initial)
  put_comm : ∀ {key other : ℕ}, key ≠ other → ∀ new new' old,
    put key new (put other new' old) = put other new' (put key new old)
  put_other : ∀ {key other : ℕ}, key ≠ other → ∀ new old,
    put key (put other new old) initial = put key old initial
  put_untracked : ∀ {key : ℕ}, 16 ≤ key → ∀ new old, put key new old = old

theorem Keyed.fieldValue_eq (h : Keyed field put initial) (key : ℕ) (request : Request)
    (value : Bytes) :
    fieldValue field key request value =
      (fieldValue field key (put key request initial) value).map fun new ↦ put key new request := by
  have hrun : ((field key request).run value).toOption =
      (((field key (put key request initial)).run value).toOption).map fun result ↦
        (put key result.1 request, result.2) := by
    rw [h.field_eq key request]
    show ((field key (put key request initial) >>= fun new ↦
      pure (put key new request)).run value).toOption = _
    rw [toOption_bind]
    cases ((field key (put key request initial)).run value).toOption <;> rfl
  unfold fieldValue readWhole
  dsimp only
  rw [hrun]
  cases ((field key (put key request initial)).run value).toOption with
  | none => rfl
  | some result =>
    obtain ⟨new, rest⟩ := result
    cases rest <;> rfl

/-- Two pairs whose keys may be in one map can change places. -/
theorem Keyed.pairField_comm (h : Keyed field put initial) {first second : Bytes × Bytes}
    (hkeys : ∀ key, pairKey first = some key → pairKey second = some key → 16 ≤ key)
    (request : Request) :
    (pairField field request first).bind (pairField field · second) =
      (pairField field request second).bind (pairField field · first) := by
  unfold pairField
  cases hfirst : pairKey first with
  | none => simp
  | some key =>
    cases hsecond : pairKey second with
    | none => simp
    | some other =>
      simp only [Option.bind_some, h.fieldValue_eq key request, h.fieldValue_eq other request]
      by_cases hsame : key = other
      · obtain rfl := hsame
        have huntracked := h.put_untracked (hkeys key hfirst hsecond)
        simp only [huntracked]
        cases hvalue : fieldValue field key initial first.2 <;>
          cases hvalue' : fieldValue field key initial second.2 <;>
            simp [h.fieldValue_eq key request, huntracked, hvalue, hvalue']
      · have hother := Ne.symm hsame
        cases hvalue : fieldValue field key (put key request initial) first.2 <;>
          cases hvalue' : fieldValue field other (put other request initial) second.2 <;>
            simp [h.fieldValue_eq key (put other _ _), h.fieldValue_eq other (put key _ _),
              h.put_other hsame, h.put_other hother, hvalue, hvalue', h.put_comm hother]

/-- Of two pairs of a map with the same key, the key is not tracked. -/
theorem Unseen.untracked {seenKeys : List ℕ} {pairs : List (Bytes × Bytes)}
    (h : Unseen seenKeys pairs) {first second : Bytes × Bytes} (hfirst : first ∈ pairs)
    (hsecond : second ∈ pairs) (hne : first ≠ second) {key : ℕ} (hkey : pairKey first = some key)
    (hkey' : pairKey second = some key) : 16 ≤ key := by
  have hdistinct := h.distinct
  unfold trackedKeys List.Nodup at hdistinct
  rw [List.pairwise_filter, List.pairwise_filterMap] at hdistinct
  have hpairs : pairs.Pairwise fun left right ↦
      ∀ key, pairKey left = some key → pairKey right = some key → 16 ≤ key := by
    refine hdistinct.imp fun hpair key hleft hright ↦ ?_
    by_contra hsmall
    have htracked : decide (key < 16) = true := decide_eq_true (by omega)
    exact hpair key hleft key hright htracked htracked rfl
  have hsymm : Std.Symm fun left right ↦
      ∀ key, pairKey left = some key → pairKey right = some key → 16 ≤ key :=
    ⟨fun _ _ hpair key hleft hright ↦ hpair key hright hleft⟩
  exact hpairs.forall hfirst hsecond hne key hkey hkey'

/-- The order of the pairs makes no difference to what they make of a request. -/
theorem Keyed.foldlM_perm (h : Keyed field put initial) {seenKeys : List ℕ}
    {pairs pairs' : List (Bytes × Bytes)} (hperm : pairs.Perm pairs')
    (hunseen : Unseen seenKeys pairs) (request : Request) :
    pairs.foldlM (pairField field) request = pairs'.foldlM (pairField field) request := by
  rw [List.foldlM_eq_foldl, List.foldlM_eq_foldl]
  refine hperm.foldl_eq' (fun first hfirst second hsecond request? ↦ ?_) _
  by_cases hsame : first = second
  · rw [hsame]
  · cases request? with
    | none => rfl
    | some request =>
      exact (h.pairField_comm (fun key hkey hkey' ↦
        hunseen.untracked hfirst hsecond hsame hkey hkey') request)

theorem Unseen.perm {seenKeys : List ℕ} {pairs pairs' : List (Bytes × Bytes)}
    (h : Unseen seenKeys pairs) (hperm : pairs.Perm pairs') : Unseen seenKeys pairs' := by
  have htracked : (trackedKeys pairs).Perm (trackedKeys pairs') :=
    (hperm.filterMap pairKey).filter _
  exact ⟨htracked.nodup_iff.mp h.distinct, fun key hkey ↦ h.fresh key (htracked.mem_iff.mpr hkey)⟩

/-- A map: its head and its pairs, each of a key and a value. -/
structure IsMap (header : Bytes) (pairs : List (Bytes × Bytes)) : Prop where
  header : HeadForm (fun _ ↦ 0) majorMap pairs.length header
  pairs : ∀ pair ∈ pairs, IsPair pair

/-- Two of the pairs have the key. -/
def Repeats (key : ℕ) (pairs : List (Bytes × Bytes)) : Prop :=
  ∃ first second : Bytes × Bytes, [first, second].Sublist pairs ∧
    HeadForm (fun _ ↦ 0) majorUint key first.1 ∧ HeadForm (fun _ ↦ 0) majorUint key second.1

/-- The parser accepts maps only, to the last byte, with no key below 16 twice, and their pairs in
any order with the same result. -/
structure OrderFree (parse : Bytes → Except CtapStatus Request) : Prop where
  accepts_map : ∀ data request, parse data = .ok request →
    ∃ header pairs, IsMap header pairs ∧ data = header ++ pairsBytes pairs
  perm : ∀ header pairs pairs' request, IsMap header pairs → pairs.Perm pairs' →
    parse (header ++ pairsBytes pairs) = .ok request →
    parse (header ++ pairsBytes pairs') = .ok request
  distinct : ∀ header pairs extra key request, IsMap header pairs → key < 16 → Repeats key pairs →
    parse (header ++ (pairsBytes pairs ++ extra)) ≠ .ok request
  exact : ∀ header pairs extra request, IsMap header pairs → extra ≠ [] →
    parse (header ++ (pairsBytes pairs ++ extra)) ≠ .ok request

/-- The parser reads the pairs of a map and accepts requests with some property, when nothing is
left. -/
def ParsesMap (field : ℕ → Request → Parser Request) (initial : Request) (valid : Request → Prop)
    (parse : Bytes → Except CtapStatus Request) : Prop :=
  ∀ data request, parse data = .ok request ↔ ∃ count cursor,
    readMapStart data = some (count, cursor) ∧
    ((parseFields field count [] initial).run cursor).toOption = some (request, []) ∧ valid request

variable {valid : Request → Prop} {parse : Bytes → Except CtapStatus Request}

/-- The parser on the bytes of a map. -/
theorem Keyed.parse_map_iff (h : Keyed field put initial)
    (hparse : ParsesMap field initial valid parse) {header extra : Bytes}
    {pairs : List (Bytes × Bytes)} (hmap : IsMap header pairs) (request : Request) :
    parse (header ++ (pairsBytes pairs ++ extra)) = .ok request ↔
      (∃ rest, readMapStart (header ++ rest) = some (pairs.length, rest)) ∧ extra = [] ∧
        Unseen [] pairs ∧ pairs.foldlM (pairField field) initial = some request ∧ valid request := by
  rw [hparse]
  constructor
  · rintro ⟨count, cursor, hstart, hrun, hvalid⟩
    obtain ⟨head, hform, hsame, -⟩ := readStart_exact hstart
    obtain ⟨-, rfl, rfl, rfl⟩ := hmap.header.cancel (by decide) (by decide) hform hsame
    obtain ⟨hextra, hunseen, hfold⟩ := (run_parseFields h.consumes hmap.pairs [] initial request
      extra []).mp hrun
    exact ⟨⟨_, hstart⟩, hextra.symm, hunseen, hfold, hvalid⟩
  · rintro ⟨⟨rest, hstart⟩, rfl, hunseen, hfold, hvalid⟩
    obtain ⟨head, hform, hsame, hagain⟩ := readStart_exact hstart
    obtain rfl := List.append_cancel_right hsame
    exact ⟨pairs.length, _, hagain _, (run_parseFields h.consumes hmap.pairs [] initial request
      [] []).mpr ⟨rfl, hunseen, hfold⟩, hvalid⟩

/-- A parser whose checks refuse trailing bytes. -/
theorem parsesMap_parseRequest {validate : Bytes → Request → CtapStatus}
    (hvalidate : ∀ cursor request, validate cursor request = .success → cursor = []) :
    ParsesMap field initial (fun request ↦ validate [] request = .success)
      (parseRequest field initial validate) := by
  intro data request
  unfold parseRequest
  cases hread : readMapStart data with
  | none =>
    rw [run_cborRead_of_none hread]
    simp [bind, Except.bind]
  | some start =>
    obtain ⟨count, cursor⟩ := start
    rw [run_cborRead_of_some hread]
    have hsome : (∃ count' cursor', some (count, cursor) = some (count', cursor') ∧
        ((parseFields field count' [] initial).run cursor').toOption = some (request, []) ∧
          validate [] request = .success) ↔
        ((parseFields field count [] initial).run cursor).toOption = some (request, []) ∧
          validate [] request = .success := by
      constructor
      · rintro ⟨count', cursor', hsame, hrest⟩
        obtain ⟨rfl, rfl⟩ := Prod.mk.inj (Option.some.inj hsame)
        exact hrest
      · exact fun hrest ↦ ⟨count, cursor, rfl, hrest⟩
    rw [hsome]
    show (((parseFields field count [] initial).run cursor).bind fun result ↦ _) = _ ↔ _
    cases hfields : (parseFields field count [] initial).run cursor with
    | error status => simp [Except.bind, Except.toOption]
    | ok result =>
      obtain ⟨final, left⟩ := result
      show (match validate left final with
        | .success => Except.ok final
        | status => Except.error status) = _ ↔ some (final, left) = _ ∧ _
      by_cases hsuccess : validate left final = .success
      · obtain rfl := hvalidate left final hsuccess
        rw [hsuccess]
        constructor
        · intro h
          obtain rfl := Except.ok.inj h
          exact ⟨rfl, hsuccess⟩
        · rintro ⟨h, -⟩
          rw [(Prod.mk.inj (Option.some.inj h)).1]
      · constructor
        · intro h
          split at h
          · exact absurd ‹_› hsuccess
          · exact absurd h (by simp)
        · rintro ⟨h, hvalid⟩
          obtain ⟨rfl, rfl⟩ := Prod.mk.inj (Option.some.inj h)
          exact absurd hvalid hsuccess

/-- When pairs make something of a request, each has a key. -/
theorem exists_pairKey {pairs : List (Bytes × Bytes)} {request final : Request}
    (h : pairs.foldlM (pairField field) request = some final) {pair : Bytes × Bytes}
    (hpair : pair ∈ pairs) : ∃ key, pairKey pair = some key := by
  induction pairs generalizing request with
  | nil => exact absurd hpair (by simp)
  | cons first pairs ih =>
    rw [List.foldlM_cons] at h
    obtain ⟨request', hfirst, hrest⟩ := Option.bind_eq_some_iff.mp h
    rcases List.mem_cons.mp hpair with rfl | hpair
    · obtain ⟨key, hkey, -⟩ := Option.bind_eq_some_iff.mp hfirst
      exact ⟨key, hkey⟩
    · exact ih hrest hpair

/-- The key that is read is the one that stands there. -/
theorem pairKey_eq {pair : Bytes × Bytes} {key key' : ℕ} (h : pairKey pair = some key)
    (hform : HeadForm (fun _ ↦ 0) majorUint key' pair.1) : pairKey pair = some key' := by
  have hread := readWhole_eq_some.mp h
  unfold readUint readHead at hread
  cases hhead : readHeadWith minimalArgument pair.1 with
  | none => simp [hhead] at hread
  | some found =>
    obtain ⟨major, raw, rest⟩ := found
    simp only [hhead] at hread
    split_ifs at hread with hmajor
    obtain ⟨rfl, rfl⟩ := Prod.mk.inj (Option.some.inj hread)
    obtain ⟨head, hform', hsame, -⟩ := readHeadWith_exact hhead
    obtain ⟨-, rfl, -⟩ := hform'.cancel (by rw [hmajor]; decide) (by decide) hform
      (hsame.symm.trans (List.append_nil _).symm)
    exact h

/-- A parser of keyed fields does not depend on the order of the pairs. -/
theorem Keyed.orderFree (h : Keyed field put initial)
    (hparse : ParsesMap field initial valid parse) : OrderFree parse := by
  constructor
  · intro data request hok
    obtain ⟨count, cursor, hstart, hrun, -⟩ := (hparse data request).mp hok
    obtain ⟨header, hform, rfl, -⟩ := readStart_exact hstart
    obtain ⟨pairs, rfl, hpairs, rfl⟩ := exists_pairs h.consumes hrun
    exact ⟨header, pairs, ⟨hform, hpairs⟩, by rw [List.append_nil]⟩
  · intro header pairs pairs' request hmap hperm hok
    have hmap' : IsMap header pairs' :=
      ⟨hperm.length_eq ▸ hmap.header, fun pair hpair ↦ hmap.pairs pair (hperm.mem_iff.mpr hpair)⟩
    have hok' : parse (header ++ (pairsBytes pairs ++ [])) = .ok request := by
      rwa [List.append_nil]
    obtain ⟨hstart, -, hunseen, hfold, hvalid⟩ := (h.parse_map_iff hparse hmap request).mp hok'
    have hfinal := (h.parse_map_iff hparse hmap' request).mpr ⟨hperm.length_eq ▸ hstart, rfl,
      hunseen.perm hperm, (h.foldlM_perm hperm hunseen initial) ▸ hfold, hvalid⟩
    rwa [List.append_nil] at hfinal
  · rintro header pairs extra key request hmap hsmall ⟨first, second, hsublist, hfirst, hsecond⟩ hok
    obtain ⟨-, -, hunseen, hfold, -⟩ := (h.parse_map_iff hparse hmap request).mp hok
    have hkey (pair : Bytes × Bytes) (hpair : pair ∈ [first, second])
        (hform : HeadForm (fun _ ↦ 0) majorUint key pair.1) : pairKey pair = some key := by
      obtain ⟨key', hkey'⟩ := exists_pairKey hfold (hsublist.subset hpair)
      exact pairKey_eq hkey' hform
    have htracked : (trackedKeys [first, second]).Sublist (trackedKeys pairs) :=
      (hsublist.filterMap pairKey).filter _
    rw [trackedKeys_cons (hkey first (by simp) hfirst), if_pos hsmall,
      trackedKeys_cons (hkey second (by simp) hsecond), if_pos hsmall] at htracked
    exact absurd (hunseen.distinct.sublist htracked) (by simp)
  · intro header pairs extra request hmap hextra hok
    exact hextra ((h.parse_map_iff hparse hmap request).mp hok).2.1

end Order

end ZeroFido.Ctap
