import ZeroFido.Cbor.Items

/-!
# Chains of encoder calls

The encoder calls that the source joins by `&&`. Such a chain writes pieces, a head and the bytes
of a string each being one, until a piece finds no room; the bytes of the pieces before it stay in
the buffer (`Call.Emits`). A chain that succeeds has written all its bytes (`Call.Yields`).

`not_items_cut` is what the leftovers of a failed chain of texts come to: with whole items written
behind them they are never as many items as the texts and these together.
-/

set_option autoImplicit false
set_option relaxedAutoImplicit false

namespace ZeroFido.Cbor

/-- Members that are there on a condition. -/
def onlyIf {Member : Type} (condition : Bool) (members : List Member) : List Member :=
  if condition then members else []

section Conditional

variable {Member Other : Type} (condition : Bool) (members : List Member)

theorem length_onlyIf :
    (onlyIf condition members).length = if condition then members.length else 0 := by
  cases condition <;> rfl

theorem mem_of_mem_onlyIf {member : Member} (h : member ∈ onlyIf condition members) :
    member ∈ members := by
  cases condition with
  | false => exact absurd h List.not_mem_nil
  | true => exact h

theorem map_onlyIf (f : Member → Other) :
    (onlyIf condition members).map f = onlyIf condition (members.map f) := by
  cases condition <;> rfl

theorem flatMap_onlyIf (f : Member → Bytes) :
    (onlyIf condition members).flatMap f = onlyIf condition (members.flatMap f) := by
  cases condition <;> rfl

theorem encodings_append (first second : List Tree) :
    encodings (first ++ second) = encodings first ++ encodings second := by
  induction first with
  | nil => rfl
  | cons tree trees ih => simp only [List.cons_append, encodings, ih, List.append_assoc]

theorem encodings_onlyIf (trees : List Tree) :
    encodings (onlyIf condition trees) = onlyIf condition (encodings trees) := by
  cases condition <;> rfl

theorem pairEncodings_append (first second : List (Tree × Tree)) :
    pairEncodings (first ++ second) = pairEncodings first ++ pairEncodings second := by
  induction first with
  | nil => rfl
  | cons pair pairs ih =>
    obtain ⟨key, value⟩ := pair
    simp only [List.cons_append, pairEncodings, ih, List.append_assoc]

theorem pairEncodings_onlyIf (pairs : List (Tree × Tree)) :
    pairEncodings (onlyIf condition pairs) = onlyIf condition (pairEncodings pairs) := by
  cases condition <;> rfl

end Conditional

section Calls

/-- `zf_cbor_encoder_init`, for memory that holds `memory`. -/
def EncoderBuffer.init (memory : ℕ → UInt8) (capacity : UInt32) : Option EncoderBuffer :=
  if capacity = 0 then none
  else
    some
      { buf := memory
        capacity := capacity.toNat
        offset := 0
        capacity_le := Nat.le_pred_of_lt capacity.toNat_lt }

/-- The calls for some primitives, joined by `&&`. -/
def encodeAll (members : List Primitive) : Call :=
  members.foldr (fun member rest ↦ (encode member).andThen rest) done

/-- `zf_cbor_reserve_bytes` followed by the call that fills the reserved bytes in. `build` is given
their number, and answers with what it writes there; it has to fill them. -/
def encodeBuilt (size : ℕ) (build : ℕ → Option Bytes) : Call :=
  (reserveBytes size).andThen fun enc ↦
    match build size with
    | none => (false, enc)
    | some data =>
      (data.length == size, { enc with buf := memcpy enc.buf (enc.offset - size) data })

/-- `if (condition) ok = next;`, whatever `ok` was. -/
def Call.reassign (first : Call) (condition : Bool) (next : Call) : Call := fun enc ↦
  if condition then next (first enc).2 else first enc

/-- A fresh encoder, the calls, and what is in the buffer when they have succeeded. -/
def encodeInto (memory : ℕ → UInt8) (capacity : UInt32) (call : Call) : Option Bytes :=
  (EncoderBuffer.init memory capacity).bind fun enc ↦
    if (call enc).1 then some (call enc).2.written else none

/-- The members of `zf_cbor_encode_p256_cose_key`. -/
def p256CoseKeyMembers (alg : ℤ) (x y : Bytes) : List Primitive :=
  [.map 5, .int 1, .int 2, .int 3, .int alg, .int (-1), .int 1, .int (-2), .bytes x, .int (-3),
    .bytes y]

end Calls

section Emission

/-- The pieces from the first on that find room one after the other. -/
def fitting (room : ℕ) : List Bytes → List Bytes
  | [] => []
  | piece :: pieces =>
    if piece.length ≤ room then piece :: fitting (room - piece.length) pieces else []

theorem fitting_of_le {room : ℕ} {pieces : List Bytes} (h : pieces.flatten.length ≤ room) :
    fitting room pieces = pieces := by
  induction pieces generalizing room with
  | nil => rfl
  | cons piece pieces ih =>
    rw [List.flatten_cons, List.length_append] at h
    rw [fitting, if_pos (by omega), ih (by omega)]

theorem length_fitting_le (room : ℕ) (pieces : List Bytes) :
    (fitting room pieces).flatten.length ≤ room := by
  induction pieces generalizing room with
  | nil => exact Nat.zero_le room
  | cons piece pieces ih =>
    rw [fitting]
    split_ifs with hfits
    · have := ih (room - piece.length)
      rw [List.flatten_cons, List.length_append]
      omega
    · exact Nat.zero_le room

theorem fitting_append_of_le {room : ℕ} {first : List Bytes} (second : List Bytes)
    (h : first.flatten.length ≤ room) :
    fitting room (first ++ second) = first ++ fitting (room - first.flatten.length) second := by
  induction first generalizing room with
  | nil => rfl
  | cons piece pieces ih =>
    rw [List.flatten_cons, List.length_append] at h ⊢
    rw [List.cons_append, fitting, if_pos (by omega), ih (by omega), List.cons_append,
      Nat.sub_sub]

theorem fitting_append_of_lt {room : ℕ} {first : List Bytes} (second : List Bytes)
    (h : room < first.flatten.length) : fitting room (first ++ second) = fitting room first := by
  induction first generalizing room with
  | nil => exact absurd h (Nat.not_lt_zero room)
  | cons piece pieces ih =>
    rw [List.flatten_cons, List.length_append] at h
    rw [List.cons_append, fitting, fitting]
    by_cases hpiece : piece.length ≤ room
    · rw [if_pos hpiece, if_pos hpiece, ih (by omega)]
    · rw [if_neg hpiece, if_neg hpiece]

/-- The pieces of a primitive: a string is written in two. -/
def Primitive.pieces : Primitive → List Bytes
  | .bytes data => [headBytes majorBytes data.length, data]
  | .text data => [headBytes majorText data.length, data]
  | .uint value => [headBytes majorUint value]
  | .int value => [intBytes value]
  | .bool value => [[if value then 0xF5 else 0xF4]]
  | .array items => [headBytes majorArray items]
  | .map pairs => [headBytes majorMap pairs]

theorem Primitive.flatten_pieces (value : Primitive) : value.pieces.flatten = value.encoding := by
  cases value <;> simp [Primitive.pieces, Primitive.encoding, stringBytes]

/-- The bytes of a row of primitives. -/
def membersBytes (members : List Primitive) : Bytes := members.flatMap Primitive.encoding

theorem flatten_pieces (members : List Primitive) :
    (members.flatMap Primitive.pieces).flatten = membersBytes members := by
  induction members with
  | nil => rfl
  | cons member members ih =>
    rw [List.flatMap_cons, List.flatten_append, ih, member.flatten_pieces]
    rfl

/-- What a call does that writes these pieces until one finds no room. -/
structure Call.EmitsAt (call : Call) (pieces : List Bytes) (enc : EncoderBuffer) : Prop where
  success : (call enc).1 = true ↔ enc.offset + pieces.flatten.length ≤ enc.capacity
  written : (call enc).2.written =
    enc.written ++ (fitting (enc.capacity - enc.offset) pieces).flatten
  capacity : (call enc).2.capacity = enc.capacity

def Call.Emits (call : Call) (pieces : List Bytes) : Prop :=
  ∀ enc : EncoderBuffer, enc.offset ≤ enc.capacity → call.EmitsAt pieces enc

/-- A call that has written these bytes when it succeeds. -/
def Call.Yields (call : Call) (bytes : Bytes) : Prop :=
  ∀ enc : EncoderBuffer, enc.offset ≤ enc.capacity → (call enc).1 = true →
    (call enc).2.written = enc.written ++ bytes ∧ (call enc).2.capacity = enc.capacity ∧
      (call enc).2.offset ≤ (call enc).2.capacity

variable {first second call : Call} {left right pieces : List Bytes} {bytes bytes' : Bytes}
  {enc : EncoderBuffer}

theorem Call.EmitsAt.offset (h : call.EmitsAt pieces enc) :
    (call enc).2.offset =
      enc.offset + (fitting (enc.capacity - enc.offset) pieces).flatten.length := by
  have hlength := congrArg List.length h.written
  rwa [EncoderBuffer.length_written, List.length_append, EncoderBuffer.length_written] at hlength

/-- The offset stays inside the capacity. -/
theorem Call.EmitsAt.inside (h : call.EmitsAt pieces enc) (hinside : enc.offset ≤ enc.capacity) :
    (call enc).2.offset ≤ (call enc).2.capacity := by
  have hle := length_fitting_le (enc.capacity - enc.offset) pieces
  rw [h.offset, h.capacity]
  omega

theorem Call.Emits.yields (h : call.Emits pieces) : call.Yields pieces.flatten := by
  intro enc hinside hsuccess
  have hemits := h enc hinside
  have hroom := hemits.success.mp hsuccess
  refine ⟨?_, hemits.capacity, hemits.inside hinside⟩
  rw [hemits.written, fitting_of_le (by omega)]

theorem append_emits (data : Bytes) : (append data).Emits [data] := by
  intro enc hinside
  by_cases hroom : enc.offset + data.length ≤ enc.capacity
  · have hfits : ¬(enc.capacity < enc.offset ∨ enc.capacity - enc.offset < data.length) := by omega
    have hpiece : data.length ≤ enc.capacity - enc.offset := by omega
    constructor
    · simp [append, hfits, hroom]
    · simp [append, hfits, fitting, hpiece, EncoderBuffer.written, map_memcpy]
    · simp [append, hfits]
  · have hfull : enc.capacity < enc.offset ∨ enc.capacity - enc.offset < data.length := by omega
    have hpiece : ¬data.length ≤ enc.capacity - enc.offset := by omega
    constructor
    · simp [append, hfull, hroom]
    · simp [append, hfull, fitting, hpiece]
    · simp [append, hfull]

theorem done_emits : done.Emits [] := by
  intro enc hinside
  constructor
  · simpa [done] using hinside
  · simp [done, fitting]
  · rfl

theorem Call.Yields.congr (h : call.Yields bytes) (hsame : bytes = bytes') : call.Yields bytes' :=
  hsame ▸ h

theorem Call.andThen_of_success (h : (first enc).1 = true) :
    first.andThen second enc = second (first enc).2 := by
  cases hrun : first enc with
  | mk success after =>
    obtain rfl : success = true := by simpa [hrun] using h
    simp only [Call.andThen, hrun]

theorem Call.andThen_of_failure (h : ¬(first enc).1 = true) :
    first.andThen second enc = first enc := by
  cases hrun : first enc with
  | mk success after =>
    obtain rfl : success = false := by simpa [hrun] using h
    simp only [Call.andThen, hrun]

theorem Call.andThen_success (h : (first.andThen second enc).1 = true) :
    (first enc).1 = true ∧ (second (first enc).2).1 = true := by
  by_cases hfirst : (first enc).1 = true
  · rw [Call.andThen_of_success hfirst] at h
    exact ⟨hfirst, h⟩
  · rw [Call.andThen_of_failure hfirst] at h
    exact absurd h hfirst

theorem Call.andThen_congr {second' : Call} (h : second (first enc).2 = second' (first enc).2) :
    first.andThen second enc = first.andThen second' enc := by
  cases hrun : first enc with
  | mk success after =>
    rw [hrun] at h
    cases success with
    | false => simp only [Call.andThen, hrun]
    | true => simpa only [Call.andThen, hrun] using h

theorem Call.andThen_congr_left {first' : Call} (h : first enc = first' enc) :
    first.andThen second enc = first'.andThen second enc := by
  rw [Call.andThen, Call.andThen, h]

/-- After a success, what the flag is set to is what it would be after `&&`. -/
theorem Call.reassign_of_success {condition : Bool} {next : Call} (h : (first enc).1 = true) :
    first.reassign condition next enc =
      first.andThen (if condition then next else done) enc := by
  rw [Call.andThen_of_success h]
  cases condition with
  | false => exact Prod.ext h rfl
  | true => rfl

/-- Two calls joined by `&&`: when the first has no room for its pieces, the second is not made. -/
theorem Call.Emits.andThen (hfirst : first.Emits left) (hsecond : second.Emits right) :
    (first.andThen second).Emits (left ++ right) := by
  intro enc hinside
  have hleft := hfirst enc hinside
  have hlength : (left ++ right).flatten.length = left.flatten.length + right.flatten.length := by
    rw [List.flatten_append, List.length_append]
  by_cases hroom : enc.offset + left.flatten.length ≤ enc.capacity
  · have hsuccess := hleft.success.mpr hroom
    have hall : fitting (enc.capacity - enc.offset) left = left := fitting_of_le (by omega)
    have hright := hsecond (first enc).2 (hleft.inside hinside)
    have hoffset : (first enc).2.offset = enc.offset + left.flatten.length := by
      rw [hleft.offset, hall]
    constructor
    · rw [Call.andThen_of_success hsuccess, hright.success, hoffset, hleft.capacity]
      omega
    · rw [Call.andThen_of_success hsuccess, hright.written, hleft.written, hall, hoffset,
        hleft.capacity, fitting_append_of_le right (by omega), List.flatten_append,
        List.append_assoc, Nat.sub_sub]
    · rw [Call.andThen_of_success hsuccess, hright.capacity, hleft.capacity]
  · have hfailure : ¬(first enc).1 = true := fun hsuccess ↦ hroom (hleft.success.mp hsuccess)
    constructor
    · rw [Call.andThen_of_failure hfailure]
      exact ⟨fun hsuccess ↦ absurd hsuccess hfailure, fun hboth ↦ by omega⟩
    · rw [Call.andThen_of_failure hfailure, hleft.written,
        fitting_append_of_lt right (by omega)]
    · rw [Call.andThen_of_failure hfailure, hleft.capacity]

theorem Call.Yields.andThen (hfirst : first.Yields bytes) (hsecond : second.Yields bytes') :
    (first.andThen second).Yields (bytes ++ bytes') := by
  intro enc hinside hsuccess
  by_cases hleft : (first enc).1 = true
  · rw [Call.andThen_of_success hleft] at hsuccess ⊢
    obtain ⟨hwritten, hcapacity, hinside'⟩ := hfirst enc hinside hleft
    obtain ⟨hwritten', hcapacity', hinside''⟩ := hsecond _ hinside' hsuccess
    exact ⟨by rw [hwritten', hwritten, List.append_assoc], hcapacity'.trans hcapacity, hinside''⟩
  · rw [Call.andThen_of_failure hleft] at hsuccess
    exact absurd hsuccess hleft

theorem encodeString_emits (major : ℕ) (data : Bytes) :
    (encodeString major data).Emits [headBytes major data.length, data] := by
  refine Call.Emits.andThen (append_emits _) ?_
  by_cases hempty : data.length = 0
  · obtain rfl := List.length_eq_zero_iff.mp hempty
    rw [if_pos List.length_nil]
    intro enc hinside
    constructor
    · simpa using hinside
    · simp [fitting]
    · rfl
  · rw [if_neg hempty]
    exact append_emits data

theorem encode_emits (value : Primitive) : (encode value).Emits value.pieces := by
  cases value with
  | uint value => exact append_emits _
  | int value =>
    by_cases hsign : 0 ≤ value
    · simpa [encode, encodeInt, encodeHead, Primitive.pieces, intBytes, hsign] using
        append_emits _
    · simpa [encode, encodeInt, encodeHead, Primitive.pieces, intBytes, hsign] using
        append_emits _
  | bool value => exact append_emits _
  | bytes data => exact encodeString_emits majorBytes data
  | text data => exact encodeString_emits majorText data
  | array items => exact append_emits _
  | map pairs => exact append_emits _

theorem encodeAll_emits (members : List Primitive) :
    (encodeAll members).Emits (members.flatMap Primitive.pieces) := by
  induction members with
  | nil => exact done_emits
  | cons member members ih => exact (encode_emits member).andThen ih

theorem encodeAll_yields (members : List Primitive) :
    (encodeAll members).Yields (membersBytes members) := by
  rw [← flatten_pieces]
  exact (encodeAll_emits members).yields

/-- A fresh encoder is empty. -/
theorem EncoderBuffer.init_eq_some {memory : ℕ → UInt8} {capacity : UInt32}
    (h : EncoderBuffer.init memory capacity = some enc) :
    enc.offset = 0 ∧ enc.written = [] ∧ enc.capacity = capacity.toNat := by
  unfold EncoderBuffer.init at h
  split_ifs at h
  obtain rfl := Option.some.inj h
  exact ⟨rfl, rfl, rfl⟩

/-- What a chain that has succeeded on a fresh encoder leaves in the buffer. -/
theorem Call.Yields.fresh {memory : ℕ → UInt8} {capacity : UInt32} {after : EncoderBuffer}
    (h : call.Yields bytes) (hinit : EncoderBuffer.init memory capacity = some enc)
    (hrun : call enc = (true, after)) :
    after.written = bytes ∧ bytes.length ≤ capacity.toNat := by
  obtain ⟨hoffset, hempty, hcapacity⟩ := EncoderBuffer.init_eq_some hinit
  obtain ⟨hwritten, hsame, hinside⟩ := h enc (by omega) (congrArg Prod.fst hrun)
  rw [hrun, hempty, List.nil_append] at hwritten
  rw [hrun] at hsame hinside
  refine ⟨hwritten, ?_⟩
  rw [← hwritten, EncoderBuffer.length_written, ← hcapacity, ← hsame]
  exact hinside

theorem Call.Yields.encodeInto {memory : ℕ → UInt8} {capacity : UInt32} {out : Bytes}
    (h : call.Yields bytes) (hout : encodeInto memory capacity call = some out) :
    out = bytes ∧ bytes.length ≤ capacity.toNat := by
  obtain ⟨enc, hinit, hcall⟩ := Option.bind_eq_some_iff.mp hout
  split_ifs at hcall with hsuccess
  obtain rfl := Option.some.inj hcall
  exact h.fresh hinit (Prod.ext hsuccess rfl)

/-- Reserving writes the head and takes the bytes after it. -/
theorem reserveBytes_of_success {size : ℕ} (h : (reserveBytes size enc).1 = true) :
    ∃ headed : EncoderBuffer, encodeHead majorBytes size enc = (true, headed) ∧
      headed.offset + size ≤ headed.capacity ∧
      (reserveBytes size enc).2 = { headed with offset := headed.offset + size } := by
  unfold reserveBytes at h ⊢
  cases hhead : encodeHead majorBytes size enc with
  | mk success headed =>
    cases success with
    | false => simp [hhead] at h
    | true =>
      simp only [hhead] at h ⊢
      split_ifs at h ⊢ with hfull
      exact ⟨headed, rfl, by omega, rfl⟩

/-- Reserved bytes that are filled in are a byte string. -/
theorem encodeBuilt_yields {size : ℕ} {build : ℕ → Option Bytes} {data : Bytes}
    (hbuild : build size = some data) :
    (encodeBuilt size build).Yields (stringBytes majorBytes data) := by
  intro enc hinside hsuccess
  by_cases hreserve : (reserveBytes size enc).1 = true
  · obtain ⟨headed, hhead, hroom, hreserved⟩ := reserveBytes_of_success hreserve
    rw [encodeBuilt, Call.andThen_of_success hreserve, hreserved] at hsuccess ⊢
    simp only [hbuild, beq_iff_eq] at hsuccess ⊢
    subst hsuccess
    obtain ⟨hwritten, hcapacity, -⟩ := (append_emits (headBytes majorBytes data.length)).yields enc
      hinside (congrArg Prod.fst hhead)
    have hsame : append (headBytes majorBytes data.length) enc = (true, headed) := hhead
    rw [hsame] at hwritten hcapacity
    rw [List.flatten_singleton] at hwritten
    refine ⟨?_, hcapacity, hroom⟩
    rw [stringBytes, ← List.append_assoc, ← hwritten]
    simp only [EncoderBuffer.written, Nat.add_sub_cancel]
    exact map_memcpy data headed.buf headed.offset
  · rw [encodeBuilt, Call.andThen_of_failure hreserve] at hsuccess
    exact absurd hsuccess hreserve

/-- When there is nothing to fill them in with, the call fails. -/
theorem encodeBuilt_of_none {size : ℕ} {build : ℕ → Option Bytes} (hbuild : build size = none)
    (enc : EncoderBuffer) : (encodeBuilt size build enc).1 = false := by
  by_cases hreserve : (reserveBytes size enc).1 = true
  · rw [encodeBuilt, Call.andThen_of_success hreserve]
    simp only [hbuild]
  · rw [encodeBuilt, Call.andThen_of_failure hreserve]
    simpa using hreserve

end Emission

section Leftovers

variable {texts : List Bytes} {tail : Bytes} {room k : ℕ}

/-- The pieces of some texts. -/
def textPieces (texts : List Bytes) : List Bytes :=
  (texts.map Primitive.text).flatMap Primitive.pieces

theorem textPieces_cons (text : Bytes) (texts : List Bytes) :
    textPieces (text :: texts) = headBytes majorText text.length :: text :: textPieces texts :=
  rfl

theorem isPlain_majorText : IsPlain majorText := Or.inr (Or.inr (Or.inr (Or.inl rfl)))

theorem items_text {text : Bytes} (hshort : text.length < 2 ^ 64) :
    Items 1 (headBytes majorText text.length ++ text) := by
  have hlength : text.length = dataLength majorText text.length := rfl
  have hitem := Items.plain isPlain_majorText (headForm_headBytes (by decide) hshort) hlength .nil
  rwa [List.append_nil] at hitem

/-- Texts are cut off where one finds no room, and whole items are written behind them: that is not
as many items as all the texts and these. Either a text is missing, or the head of one asks for more
bytes than are left. -/
theorem not_items_cut (hshort : ∀ text ∈ texts, text.length < 2 ^ 64)
    (hcut : room < (textPieces texts).flatten.length) (htail : Items k tail)
    (hroom : (fitting room (textPieces texts)).flatten.length + tail.length ≤ room) :
    ¬Items (texts.length + k) ((fitting room (textPieces texts)).flatten ++ tail) := by
  induction texts generalizing room with
  | nil => exact absurd hcut (Nat.not_lt_zero room)
  | cons text texts ih =>
    have htext := hshort text (List.mem_cons_self ..)
    rw [textPieces_cons] at hcut hroom ⊢
    rw [List.length_cons]
    by_cases hhead : (headBytes majorText text.length).length ≤ room
    · rw [fitting, if_pos hhead] at hroom ⊢
      rw [List.flatten_cons, List.length_append] at hroom
      rw [List.flatten_cons, List.append_assoc]
      by_cases hdata : text.length ≤ room - (headBytes majorText text.length).length
      · rw [fitting, if_pos hdata] at hroom ⊢
        rw [List.flatten_cons, List.length_append] at hroom
        rw [List.flatten_cons, List.append_assoc, ← List.append_assoc]
        simp only [List.flatten_cons, List.length_append] at hcut
        intro hitems
        have hitem := items_text htext
        have hcount : texts.length + 1 + k = 1 + (texts.length + k) := by omega
        rw [hcount] at hitems
        exact ih (fun text hmem ↦ hshort text (List.mem_cons_of_mem _ hmem)) (by omega) (by omega)
          (hitems.strip hitem)
      · -- the head stands there without its text
        rw [fitting, if_neg hdata] at hroom ⊢
        intro hitems
        rw [Nat.add_right_comm] at hitems
        obtain ⟨body, more, -, hsame, -, hlength⟩ := hitems.head_inv (by decide) htext
        have hbody : body.length = text.length := hlength isPlain_majorText
        have htail := congrArg List.length hsame
        simp only [List.flatten_nil, List.nil_append, List.length_append, List.length_nil]
          at htail hroom
        omega
    · -- not even the head is there
      rw [fitting, if_neg hhead]
      intro hitems
      have := hitems.count_unique htail
      omega

end Leftovers

end ZeroFido.Cbor
