import ZeroFido.Cbor.Primitives

/-!
# Skipping an item

`zf_cbor_skip` as the machine runs it: a cursor that keeps its place when a step fails, and loops
whose counter is a `size_t` compared with a count of up to 64 bits. `skipRun_settles` shows that
these loops end before the counter comes around, because each turn consumes a byte, and that the
outcome is that of `skip`.

`skip_total_exact` is that together with the exactness on whatever the encoder has built.
-/

set_option autoImplicit false
set_option relaxedAutoImplicit false

namespace ZeroFido.Cbor

section Machine

/-- `zf_cbor_skip_read_head` with the cursor it leaves. Every failure but the one at the end of the
buffer comes after the lead byte has been taken. -/
def skipReadHeadRun (cursor : Bytes) : Option (ℕ × ℕ) × Bytes :=
  match skipReadHead cursor with
  | some (major, raw, rest) => (some (major, raw), rest)
  | none => (none, cursor.tail)

/-- `for (size_t i = 0; i < raw; ++i)` over a turn that can fail. The counter has the width of a
`size_t`; `none` when the turns allowed have not been enough. -/
def skipLoop (turn : Bytes → Option (Bool × Bytes)) (raw : ℕ) :
    ℕ → UInt32 → Bytes → Option (Bool × Bytes)
  | 0, _, _ => none
  | fuel + 1, i, cursor =>
    if i.toNat < raw then
      match turn cursor with
      | none => none
      | some (false, cursor) => some (false, cursor)
      | some (true, cursor) => skipLoop turn raw fuel (i + 1) cursor
    else some (true, cursor)

/-- A turn of the loop over a map: a key and then its value. -/
def skipPair (turn : Bytes → Option (Bool × Bytes)) (cursor : Bytes) : Option (Bool × Bytes) :=
  match turn cursor with
  | none => none
  | some (false, cursor) => some (false, cursor)
  | some (true, cursor) => turn cursor

/-- `zf_cbor_skip_inner`, with the nesting levels still allowed in place of the depth, and with at
most `fuel` turns for each loop. -/
def skipInnerRun (fuel : ℕ) : ℕ → Bytes → Option (Bool × Bytes)
  | 0, cursor => some (false, cursor)
  | levels + 1, cursor =>
    match skipReadHeadRun cursor with
    | (none, cursor) => some (false, cursor)
    | (some (major, raw), cursor) =>
      if major = majorUint ∨ major = majorNegint then some (true, cursor)
      else if major = majorSimple then some (decide (raw ≠ 31), cursor)
      else if major = majorBytes ∨ major = majorText then
        if cursor.length < raw then some (false, cursor) else some (true, cursor.drop raw)
      else if major = majorArray then skipLoop (skipInnerRun fuel levels) raw fuel 0 cursor
      else if major = majorMap then
        skipLoop (skipPair (skipInnerRun fuel levels)) raw fuel 0 cursor
      else some (false, cursor)

/-- `zf_cbor_skip`. -/
def skipRun (fuel : ℕ) (cursor : Bytes) : Option (Bool × Bytes) :=
  skipInnerRun fuel (skipDepthLimit + 1) cursor

end Machine

section Termination

/-- A step of the machine ends, with a cursor in the buffer, and does what `item` says. A successful
one has consumed a byte. -/
def Settles (turn : Bytes → Option (Bool × Bytes)) (item : Bytes → Option Bytes)
    (cursor : Bytes) : Prop :=
  ∃ success after, turn cursor = some (success, after) ∧ after <:+ cursor ∧
    item cursor = (if success then some after else none) ∧
    (success = true → after.length < cursor.length)

variable {turn : Bytes → Option (Bool × Bytes)} {item : Bytes → Option Bytes} {bound : ℕ}

/-- A head that was read is at least one byte long. -/
theorem skipReadHead_suffix {cursor rest : Bytes} {major raw : ℕ}
    (h : skipReadHead cursor = some (major, raw, rest)) :
    rest <:+ cursor ∧ rest.length < cursor.length := by
  obtain ⟨-, head, hform, rfl⟩ := readHeadWith_form h
  have hhead : 0 < head.length := by cases hform <;> simp
  exact ⟨List.suffix_append head rest, by simp only [List.length_append]; omega⟩

theorem skipPair_settles (hturn : ∀ cursor : Bytes, cursor.length ≤ bound →
      Settles turn item cursor) {cursor : Bytes} (hcursor : cursor.length ≤ bound) :
    Settles (skipPair turn) (fun cursor ↦ (item cursor).bind item) cursor := by
  obtain ⟨success, after, hrun, hsuffix, hitem, hshorter⟩ := hturn cursor hcursor
  cases success with
  | false =>
    exact ⟨false, after, by simp [skipPair, hrun], hsuffix, by simp [hitem], by simp⟩
  | true =>
    have hlength := hshorter rfl
    obtain ⟨success', after', hrun', hsuffix', hitem', hshorter'⟩ := hturn after (by omega)
    refine ⟨success', after', by simp [skipPair, hrun, hrun'], hsuffix'.trans hsuffix,
      by simp [hitem, hitem'], fun hsuccess ↦ lt_trans (hshorter' hsuccess) hlength⟩

/-- The items of a map, two at a time. -/
theorem skipItems_two_mul (item : Bytes → Option Bytes) (count : ℕ) (cursor : Bytes) :
    skipItems item (2 * count) cursor =
      skipItems (fun cursor ↦ (item cursor).bind item) count cursor := by
  induction count generalizing cursor with
  | zero => rfl
  | succ count ih =>
    rw [Nat.mul_succ, skipItems, skipItems]
    cases hkey : item cursor with
    | none => simp
    | some rest =>
      cases hvalue : item rest with
      | none => simp [skipItems, hvalue]
      | some rest' => simp [skipItems, hvalue, ih rest']

/-- The loop ends before its counter comes around: each turn that succeeds consumes a byte, and
there are fewer bytes than values of the counter. -/
theorem skipLoop_settles (hturn : ∀ cursor : Bytes, cursor.length ≤ bound →
      Settles turn item cursor) {raw fuel : ℕ} {i : UInt32} {cursor : Bytes}
    (hfuel : cursor.length < fuel) (hcursor : cursor.length ≤ bound)
    (hcounter : i.toNat + cursor.length < 2 ^ 32) :
    ∃ success after, skipLoop turn raw fuel i cursor = some (success, after) ∧ after <:+ cursor ∧
      skipItems item (raw - i.toNat) cursor = if success then some after else none := by
  induction fuel generalizing i cursor with
  | zero => omega
  | succ fuel ih =>
    by_cases hmore : i.toNat < raw
    · obtain ⟨success, after, hrun, hsuffix, hitem, hshorter⟩ := hturn cursor hcursor
      obtain ⟨left, hleft⟩ : ∃ left, raw - i.toNat = left + 1 := ⟨raw - i.toNat - 1, by omega⟩
      cases success with
      | false =>
        exact ⟨false, after, by simp [skipLoop, hmore, hrun], hsuffix,
          by simp [hleft, skipItems, hitem]⟩
      | true =>
        have hlength := hshorter rfl
        have hnext : (i + 1).toNat = i.toNat + 1 := by
          rw [UInt32.toNat_add]
          exact Nat.mod_eq_of_lt (by simp; omega)
        obtain ⟨success', after', hrun', hsuffix', hitems'⟩ :=
          ih (show after.length < fuel by omega) (by omega)
            (show (i + 1).toNat + after.length < 2 ^ 32 by omega)
        have hcount : raw - (i + 1).toNat = left := by omega
        rw [hcount] at hitems'
        exact ⟨success', after', by simp [skipLoop, hmore, hrun, hrun'],
          hsuffix'.trans hsuffix, by simp [hleft, skipItems, hitem, hitems']⟩
    · have hnone : raw - i.toNat = 0 := by omega
      exact ⟨true, cursor, by simp [skipLoop, hmore], List.suffix_refl cursor,
        by simp [hnone, skipItems]⟩

theorem skipInnerRun_settles {fuel : ℕ} (hfuel : bound < fuel) (hbound : bound < 2 ^ 32)
    (levels : ℕ) {cursor : Bytes} (hcursor : cursor.length ≤ bound) :
    Settles (skipInnerRun fuel levels) (skipInner levels) cursor := by
  induction levels generalizing cursor with
  | zero => exact ⟨false, cursor, rfl, List.suffix_refl cursor, rfl, by simp⟩
  | succ levels ih =>
    have hinner : ∀ cursor : Bytes, cursor.length ≤ bound →
        Settles (skipInnerRun fuel levels) (skipInner levels) cursor := fun _ h ↦ ih h
    unfold Settles
    simp only [skipInnerRun, skipReadHeadRun, skipInner]
    cases hhead : skipReadHead cursor with
    | none => exact ⟨false, cursor.tail, rfl, List.tail_suffix cursor, rfl, by simp⟩
    | some head =>
      obtain ⟨major, raw, rest⟩ := head
      obtain ⟨hsuffix, hlength⟩ := skipReadHead_suffix hhead
      have hbehind : rest.length ≤ bound := by omega
      -- what the two container loops have in common
      have hloop (turn : Bytes → Option (Bool × Bytes)) (item : Bytes → Option Bytes)
          (hturn : ∀ cursor : Bytes, cursor.length ≤ bound → Settles turn item cursor) :
          ∃ success after, skipLoop turn raw fuel 0 rest = some (success, after) ∧
            after <:+ cursor ∧
            skipItems item raw rest = (if success then some after else none) ∧
            (success = true → after.length < cursor.length) := by
        obtain ⟨success, after, hrun, hafter, hitems⟩ : ∃ success after,
            skipLoop turn raw fuel 0 rest = some (success, after) ∧ after <:+ rest ∧
              skipItems item raw rest = if success then some after else none :=
          skipLoop_settles hturn (by omega) hbehind (by simp; omega)
        exact ⟨success, after, hrun, hafter.trans hsuffix, hitems, fun _ ↦
          lt_of_le_of_lt hafter.length_le hlength⟩
      dsimp only
      by_cases hinteger : major = majorUint ∨ major = majorNegint
      · simp only [if_pos hinteger]
        exact ⟨true, rest, rfl, hsuffix, rfl, fun _ ↦ hlength⟩
      by_cases hsimple : major = majorSimple
      · simp only [if_neg hinteger, if_pos hsimple]
        exact ⟨decide (raw ≠ 31), rest, rfl, hsuffix, by simp, fun _ ↦ hlength⟩
      by_cases hstring : major = majorBytes ∨ major = majorText
      · simp only [if_neg hinteger, if_neg hsimple, if_pos hstring]
        by_cases hshort : rest.length < raw
        · simp only [if_pos hshort]
          exact ⟨false, rest, rfl, hsuffix, rfl, by simp⟩
        · simp only [if_neg hshort]
          refine ⟨true, rest.drop raw, rfl, (List.drop_suffix raw rest).trans hsuffix, rfl,
            fun _ ↦ ?_⟩
          rw [List.length_drop]
          omega
      by_cases harray : major = majorArray
      · simp only [if_neg hinteger, if_neg hsimple, if_neg hstring, if_pos harray]
        exact hloop _ _ hinner
      by_cases hmap : major = majorMap
      · simp only [if_neg hinteger, if_neg hsimple, if_neg hstring, if_neg harray, if_pos hmap,
          skipItems_two_mul]
        exact hloop _ _ fun _ h ↦ skipPair_settles hinner h
      · simp only [if_neg hinteger, if_neg hsimple, if_neg hstring, if_neg harray, if_neg hmap]
        exact ⟨false, rest, rfl, hsuffix, rfl, by simp⟩

/-- More turns allowed change nothing for a loop that has ended. -/
theorem skipLoop_mono {turn turn' : Bytes → Option (Bool × Bytes)}
    (hturn : ∀ cursor outcome, turn cursor = some outcome → turn' cursor = some outcome)
    {raw fuel fuel' : ℕ} (hfuel : fuel ≤ fuel') {i : UInt32} {cursor : Bytes}
    {outcome : Bool × Bytes} (h : skipLoop turn raw fuel i cursor = some outcome) :
    skipLoop turn' raw fuel' i cursor = some outcome := by
  induction fuel generalizing fuel' i cursor with
  | zero => cases h
  | succ fuel ih =>
    obtain ⟨fuel', rfl⟩ : ∃ more, fuel' = more + 1 := ⟨fuel' - 1, by omega⟩
    rw [skipLoop] at h ⊢
    split_ifs at h ⊢ with hmore
    · cases hrun : turn cursor with
      | none => simp [hrun] at h
      | some step =>
        obtain ⟨success, after⟩ := step
        rw [hturn cursor _ hrun]
        rw [hrun] at h
        cases success with
        | false => exact h
        | true => exact ih (by omega) h
    · exact h

theorem skipPair_mono {turn turn' : Bytes → Option (Bool × Bytes)}
    (hturn : ∀ cursor outcome, turn cursor = some outcome → turn' cursor = some outcome)
    {cursor : Bytes} {outcome : Bool × Bytes} (h : skipPair turn cursor = some outcome) :
    skipPair turn' cursor = some outcome := by
  unfold skipPair at h ⊢
  cases hkey : turn cursor with
  | none => simp [hkey] at h
  | some step =>
    obtain ⟨success, after⟩ := step
    rw [hturn cursor _ hkey]
    rw [hkey] at h
    cases success with
    | false => exact h
    | true => exact hturn after _ h

theorem skipInnerRun_mono {fuel fuel' : ℕ} (hfuel : fuel ≤ fuel') (levels : ℕ) {cursor : Bytes}
    {outcome : Bool × Bytes} (h : skipInnerRun fuel levels cursor = some outcome) :
    skipInnerRun fuel' levels cursor = some outcome := by
  induction levels generalizing cursor outcome with
  | zero => exact h
  | succ levels ih =>
    have hturn : ∀ cursor outcome, skipInnerRun fuel levels cursor = some outcome →
        skipInnerRun fuel' levels cursor = some outcome := fun _ _ h ↦ ih h
    simp only [skipInnerRun] at h ⊢
    split at h
    case h_1 => exact h
    case h_2 major raw after hhead =>
      split_ifs at h ⊢
      · exact h
      · exact h
      · exact h
      · exact h
      · exact skipLoop_mono hturn hfuel h
      · exact skipLoop_mono (fun _ _ ↦ skipPair_mono hturn) hfuel h
      · exact h

/-- The outcome of a skip: it does not depend on how many turns are allowed, once they are more than
the bytes of the buffer, it leaves the cursor in the buffer, and it is that of `skip`. -/
theorem skipRun_settles {cursor : Bytes} (hcursor : cursor.length ≤ sizeMax) :
    ∃ success after, (∀ fuel, cursor.length < fuel → skipRun fuel cursor = some (success, after)) ∧
      after <:+ cursor ∧ skip cursor = if success then some after else none := by
  have hbound : cursor.length < 2 ^ 32 := lt_of_le_of_lt hcursor (by decide)
  obtain ⟨success, after, hrun, hsuffix, hskip, -⟩ :=
    skipInnerRun_settles (Nat.lt_succ_self cursor.length) hbound (skipDepthLimit + 1) le_rfl
  exact ⟨success, after, fun fuel hfuel ↦ skipInnerRun_mono hfuel _ hrun, hsuffix, hskip⟩

end Termination

section Exactness

/-- A tree that the encoder functions build. -/
inductive Tree where
  | uint (value : UInt64)
  | int (value : Int64)
  | bool (value : Bool)
  | bytes (data : Bytes)
  | text (data : Bytes)
  | array (items : List Tree)
  | map (pairs : List (Tree × Tree))

/-- The call that has nothing more to write. -/
def done : Call := fun enc ↦ (true, enc)

mutual

/-- The encoder calls for a tree, in the order of its bytes. -/
def encodeTree : Tree → Call
  | .uint value => encodeUint value.toNat
  | .int value => encodeInt value.toInt
  | .bool value => encodeBool value
  | .bytes data => encodeBytes data
  | .text data => encodeText data
  | .array items => (encodeArray items.length).andThen (encodeTrees items)
  | .map pairs => (encodeMap pairs.length).andThen (encodePairs pairs)

def encodeTrees : List Tree → Call
  | [] => done
  | tree :: trees => (encodeTree tree).andThen (encodeTrees trees)

def encodePairs : List (Tree × Tree) → Call
  | [] => done
  | (key, value) :: pairs =>
    (encodeTree key).andThen ((encodeTree value).andThen (encodePairs pairs))

end

mutual

/-- How deep the containers of a tree are nested. -/
def Tree.depth : Tree → ℕ
  | .array items => depths items + 1
  | .map pairs => pairDepths pairs + 1
  | _ => 0

def depths : List Tree → ℕ
  | [] => 0
  | tree :: trees => max tree.depth (depths trees)

def pairDepths : List (Tree × Tree) → ℕ
  | [] => 0
  | (key, value) :: pairs => max (max key.depth value.depth) (pairDepths pairs)

end

mutual

/-- The bytes of a tree. -/
def Tree.encoding : Tree → Bytes
  | .uint value => headBytes majorUint value.toNat
  | .int value => intBytes value.toInt
  | .bool value => [if value then 0xF5 else 0xF4]
  | .bytes data => stringBytes majorBytes data
  | .text data => stringBytes majorText data
  | .array items => headBytes majorArray items.length ++ encodings items
  | .map pairs => headBytes majorMap pairs.length ++ pairEncodings pairs

def encodings : List Tree → Bytes
  | [] => []
  | tree :: trees => tree.encoding ++ encodings trees

def pairEncodings : List (Tree × Tree) → Bytes
  | [] => []
  | (key, value) :: pairs => key.encoding ++ (value.encoding ++ pairEncodings pairs)

end

/-- A call that appends these bytes when it starts inside the capacity. -/
def Call.Writes (call : Call) (bytes : Bytes) : Prop :=
  ∀ enc : EncoderBuffer, enc.offset ≤ enc.capacity →
    enc.toEncoder.append bytes = if (call enc).1 then some (call enc).2.toEncoder else none

theorem encode_writes (value : Primitive) : (encode value).Writes value.encoding :=
  fun enc _ ↦ encode_refines value enc

theorem done_writes : done.Writes [] := by
  intro enc hinside
  simp [done, Encoder.append, EncoderBuffer.toEncoder, Nat.not_lt.mpr hinside]

theorem Call.Writes.andThen {first second : Call} {left right : Bytes} (hfirst : first.Writes left)
    (hsecond : second.Writes right) : (first.andThen second).Writes (left ++ right) := by
  intro enc hinside
  have hleft := hfirst enc hinside
  rw [← Encoder.append_append]
  cases hrun : first enc with
  | mk success after =>
    cases success with
    | false => simp_all [Call.andThen]
    | true =>
      simp only [hrun, if_true] at hleft
      obtain ⟨hafter, hfits⟩ := Encoder.written_append hleft
      have hinside' : after.offset ≤ after.capacity := by
        have hlength := congrArg (fun enc ↦ enc.written.length) hafter
        have hcapacity := congrArg Encoder.capacity hafter
        simp only [EncoderBuffer.toEncoder, EncoderBuffer.length_written] at hlength hcapacity hfits
        omega
      simp only [hleft, Option.bind_some, Call.andThen, hrun]
      exact hsecond after hinside'

mutual

theorem encodeTree_writes : (tree : Tree) → (encodeTree tree).Writes tree.encoding
  | .uint value => by
    rw [encodeTree, Tree.encoding]
    exact encode_writes (.uint value.toNat)
  | .int value => by
    rw [encodeTree, Tree.encoding]
    exact encode_writes (.int value.toInt)
  | .bool value => by
    rw [encodeTree, Tree.encoding]
    exact encode_writes (.bool value)
  | .bytes data => by
    rw [encodeTree, Tree.encoding]
    exact encode_writes (.bytes data)
  | .text data => by
    rw [encodeTree, Tree.encoding]
    exact encode_writes (.text data)
  | .array items => by
    rw [encodeTree, Tree.encoding]
    exact (encode_writes (.array items.length)).andThen (encodeTrees_writes items)
  | .map pairs => by
    rw [encodeTree, Tree.encoding]
    exact (encode_writes (.map pairs.length)).andThen (encodePairs_writes pairs)

theorem encodeTrees_writes : (trees : List Tree) → (encodeTrees trees).Writes (encodings trees)
  | [] => by
    rw [encodeTrees, encodings]
    exact done_writes
  | tree :: trees => by
    rw [encodeTrees, encodings]
    exact (encodeTree_writes tree).andThen (encodeTrees_writes trees)

theorem encodePairs_writes : (pairs : List (Tree × Tree)) →
    (encodePairs pairs).Writes (pairEncodings pairs)
  | [] => by
    rw [encodePairs, pairEncodings]
    exact done_writes
  | (key, value) :: pairs => by
    rw [encodePairs, pairEncodings]
    exact (encodeTree_writes key).andThen
      ((encodeTree_writes value).andThen (encodePairs_writes pairs))

end

/-- The skipper reads every head that the strict reader reads. -/
theorem skipReadHead_of_readHead {cursor : Bytes} {head : ℕ × ℕ × Bytes}
    (h : readHead cursor = some head) : skipReadHead cursor = some head := by
  cases cursor with
  | nil => simp [readHead, readHeadWith] at h
  | cons byte rest =>
    have hwide (width : ℕ)
        (hread : readArgument minimalArgument (byte.toNat / 32) width rest = some head) :
        readArgument (fun _ ↦ 0) (byte.toNat / 32) width rest = some head := by
      obtain ⟨value, after, hword, -, rfl⟩ := readArgument_eq_some.mp hread
      exact readArgument_eq_some.mpr ⟨value, after, hword, Nat.zero_le value, rfl⟩
    rw [readHead, readHeadWith_cons] at h
    rw [skipReadHead, readHeadWith_cons]
    split_ifs at h ⊢
    · exact h
    · exact hwide 1 h
    · exact hwide 2 h
    · exact hwide 4 h
    · exact hwide 8 h

theorem skipReadHead_headBytes {major value : ℕ} (rest : Bytes) (hmajor : major < 8)
    (hvalue : value < 2 ^ 64) :
    skipReadHead (headBytes major value ++ rest) = some (major, value, rest) :=
  skipReadHead_of_readHead (readHead_headBytes rest hmajor hvalue)

/-- How many items stand in a container. -/
def itemCount (major raw : ℕ) : ℕ := if major = majorMap then 2 * raw else raw

section Kinds

variable {levels major raw : ℕ} {cursor after : Bytes}
  (h : skipReadHead cursor = some (major, raw, after))
include h

theorem skipInner_integer (hmajor : major = majorUint ∨ major = majorNegint) :
    skipInner (levels + 1) cursor = some after := by
  simp only [skipInner, h, if_pos hmajor]

theorem skipInner_simple (hmajor : major = majorSimple) :
    skipInner (levels + 1) cursor = if raw ≠ 31 then some after else none := by
  subst hmajor
  simp only [skipInner, h]
  rfl

theorem skipInner_string (hmajor : major = majorBytes ∨ major = majorText) :
    skipInner (levels + 1) cursor =
      if after.length < raw then none else some (after.drop raw) := by
  simp only [skipInner, h]
  obtain rfl | rfl := hmajor <;> rfl

theorem skipInner_container (hmajor : major = majorArray ∨ major = majorMap) :
    skipInner (levels + 1) cursor = skipItems (skipInner levels) (itemCount major raw) after := by
  simp only [skipInner, h]
  obtain rfl | rfl := hmajor <;> rfl

end Kinds

theorem skipInner_intBytes (levels : ℕ) (value : Int64) (rest : Bytes) :
    skipInner (levels + 1) (intBytes value.toInt ++ rest) = some rest := by
  have hlow := value.le_toInt
  have hhigh := value.toInt_lt
  unfold intBytes
  split_ifs with hsign
  · exact skipInner_integer (skipReadHead_headBytes rest (by decide) (by omega)) (Or.inl rfl)
  · exact skipInner_integer (skipReadHead_headBytes rest (by decide) (by omega)) (Or.inr rfl)

theorem skipInner_stringBytes {levels major : ℕ} {data : Bytes}
    (hmajor : major = majorBytes ∨ major = majorText)
    (hlength : (stringBytes major data).length < 2 ^ 64) (rest : Bytes) :
    skipInner (levels + 1) (stringBytes major data ++ rest) = some rest := by
  have hdata : data.length < 2 ^ 64 := by
    rw [stringBytes, List.length_append] at hlength
    omega
  have hsmall : major < 8 := by obtain rfl | rfl := hmajor <;> decide
  rw [stringBytes, List.append_assoc,
    skipInner_string (skipReadHead_headBytes (data ++ rest) hsmall hdata) hmajor,
    if_neg (by simp), List.drop_left]

/-- A container is skipped when its items are. -/
theorem skipInner_containerBytes {levels major count : ℕ} {body rest : Bytes}
    (hmajor : major = majorArray ∨ major = majorMap) (hcount : count < 2 ^ 64)
    (hitems : skipItems (skipInner levels) (itemCount major count) (body ++ rest) = some rest) :
    skipInner (levels + 1) (headBytes major count ++ body ++ rest) = some rest := by
  have hsmall : major < 8 := by obtain rfl | rfl := hmajor <;> decide
  rw [List.append_assoc,
    skipInner_container (skipReadHead_headBytes (body ++ rest) hsmall hcount) hmajor, hitems]

theorem Tree.length_encoding_pos (tree : Tree) : 0 < tree.encoding.length := by
  refine List.length_pos_iff.mpr ?_
  cases tree with
  | int value =>
    rw [Tree.encoding, intBytes]
    split_ifs <;> exact headBytes_ne_nil _ _
  | bool value => simp [Tree.encoding]
  | uint | bytes | text | array | map => simp [Tree.encoding, stringBytes, headBytes_ne_nil]

theorem length_encodings (trees : List Tree) : trees.length ≤ (encodings trees).length := by
  induction trees with
  | nil => rfl
  | cons tree trees ih =>
    have := tree.length_encoding_pos
    simp only [encodings, List.length_cons, List.length_append]
    omega

theorem length_pairEncodings (pairs : List (Tree × Tree)) :
    pairs.length ≤ (pairEncodings pairs).length := by
  induction pairs with
  | nil => rfl
  | cons pair pairs ih =>
    obtain ⟨key, value⟩ := pair
    have := key.length_encoding_pos
    simp only [pairEncodings, List.length_cons, List.length_append]
    omega

section Lists

variable {levels : ℕ}
  (hitem : ∀ tree : Tree, tree.depth < levels → tree.encoding.length < 2 ^ 64 →
    ∀ rest, skipInner levels (tree.encoding ++ rest) = some rest)
include hitem

theorem skipItems_encodings {trees : List Tree} (hdepth : depths trees < levels)
    (hlength : (encodings trees).length < 2 ^ 64) (rest : Bytes) :
    skipItems (skipInner levels) trees.length (encodings trees ++ rest) = some rest := by
  induction trees with
  | nil => rfl
  | cons tree trees ih =>
    rw [depths] at hdepth
    rw [encodings, List.length_append] at hlength
    rw [encodings, List.append_assoc, List.length_cons, skipItems,
      hitem tree (by omega) (by omega)]
    exact ih (by omega) (by omega)

theorem skipItems_pairEncodings {pairs : List (Tree × Tree)} (hdepth : pairDepths pairs < levels)
    (hlength : (pairEncodings pairs).length < 2 ^ 64) (rest : Bytes) :
    skipItems (skipInner levels) (2 * pairs.length) (pairEncodings pairs ++ rest) = some rest := by
  induction pairs with
  | nil => rfl
  | cons pair pairs ih =>
    obtain ⟨key, value⟩ := pair
    rw [pairDepths] at hdepth
    rw [pairEncodings, List.length_append, List.length_append] at hlength
    rw [pairEncodings, List.append_assoc, List.append_assoc, List.length_cons, Nat.mul_succ,
      skipItems, hitem key (by omega) (by omega)]
    dsimp only
    rw [skipItems, hitem value (by omega) (by omega)]
    exact ih (by omega) (by omega)

end Lists

/-- A tree that is no deeper than the levels allowed is skipped, and nothing more. -/
theorem skipInner_encoding {levels : ℕ} {tree : Tree} (hdepth : tree.depth < levels)
    (hlength : tree.encoding.length < 2 ^ 64) (rest : Bytes) :
    skipInner levels (tree.encoding ++ rest) = some rest := by
  induction levels generalizing tree rest with
  | zero => omega
  | succ levels ih =>
    have hitem : ∀ tree : Tree, tree.depth < levels → tree.encoding.length < 2 ^ 64 →
        ∀ rest, skipInner levels (tree.encoding ++ rest) = some rest :=
      fun _ hdepth hlength rest ↦ ih hdepth hlength rest
    cases tree with
    | uint value =>
      rw [Tree.encoding]
      exact skipInner_integer (skipReadHead_headBytes rest (by decide) value.toNat_lt) (Or.inl rfl)
    | int value =>
      rw [Tree.encoding]
      exact skipInner_intBytes levels value rest
    | bool value => cases value <;> rfl
    | bytes data =>
      rw [Tree.encoding] at hlength ⊢
      exact skipInner_stringBytes (Or.inl rfl) hlength rest
    | text data =>
      rw [Tree.encoding] at hlength ⊢
      exact skipInner_stringBytes (Or.inr rfl) hlength rest
    | array items =>
      rw [Tree.encoding] at hlength ⊢
      rw [Tree.depth] at hdepth
      rw [List.length_append] at hlength
      have hcount := length_encodings items
      exact skipInner_containerBytes (Or.inl rfl) (by omega)
        (skipItems_encodings hitem (by omega) (by omega) rest)
    | map pairs =>
      rw [Tree.encoding] at hlength ⊢
      rw [Tree.depth] at hdepth
      rw [List.length_append] at hlength
      have hcount := length_pairEncodings pairs
      exact skipInner_containerBytes (Or.inr rfl) (by omega)
        (skipItems_pairEncodings hitem (by omega) (by omega) rest)

/-- For every buffer the skipper ends, with the cursor in the buffer, however large the counts it
meets are. For every tree of at most 16 levels that the encoder has built, it succeeds with the
cursor exactly behind the tree. -/
theorem skip_total_exact :
    (∀ cursor : Bytes, cursor.length ≤ sizeMax →
      ∃ success after, (∀ fuel, cursor.length < fuel →
        skipRun fuel cursor = some (success, after)) ∧ after <:+ cursor) ∧
      ∀ (tree : Tree) (enc : EncoderBuffer), enc.offset ≤ enc.capacity →
        tree.depth ≤ skipDepthLimit → (encodeTree tree enc).1 = true →
          ∃ bytes, (encodeTree tree enc).2.written = enc.written ++ bytes ∧
            ∀ rest, (bytes ++ rest).length ≤ sizeMax → ∀ fuel, (bytes ++ rest).length < fuel →
              skipRun fuel (bytes ++ rest) = some (true, rest) := by
  refine ⟨fun cursor hcursor ↦ ?_, fun tree enc hinside hdepth hbuilt ↦ ?_⟩
  · obtain ⟨success, after, hrun, hsuffix, -⟩ := skipRun_settles hcursor
    exact ⟨success, after, hrun, hsuffix⟩
  · have hwrites := encodeTree_writes tree enc hinside
    rw [if_pos hbuilt] at hwrites
    obtain ⟨hafter, hfits⟩ := Encoder.written_append hwrites
    have hlength : tree.encoding.length < 2 ^ 64 := by
      have hcapacity := enc.capacity_le
      simp only [EncoderBuffer.toEncoder, List.length_append, sizeMax] at hfits hcapacity
      omega
    refine ⟨tree.encoding, congrArg Encoder.written hafter, fun rest hrest fuel hfuel ↦ ?_⟩
    obtain ⟨success, after, hrun, -, hskip⟩ := skipRun_settles hrest
    have hskipped : skip (tree.encoding ++ rest) = some rest :=
      skipInner_encoding (by omega) hlength rest
    rw [hskipped] at hskip
    cases success with
    | false => cases hskip
    | true =>
      obtain rfl : rest = after := Option.some.inj hskip
      exact hrun fuel hfuel

theorem skip_total_exact_map :
    (∃ success after, (∀ fuel, 9 < fuel →
      skipRun fuel [0xBB, 0xFF, 0xFF, 0xFF, 0xFF, 0xFF, 0xFF, 0xFF, 0xFF] =
        some (success, after)) ∧
        after <:+ [0xBB, 0xFF, 0xFF, 0xFF, 0xFF, 0xFF, 0xFF, 0xFF, 0xFF]) ∧
      ∃ bytes, (encodeTree (.map [(.uint 1, .array [.int (-1), .text [0x61]])])
          ⟨fun _ ↦ 0, 16, 0, by decide⟩).2.written = [] ++ bytes ∧
        ∀ rest, (bytes ++ rest).length ≤ sizeMax → ∀ fuel, (bytes ++ rest).length < fuel →
          skipRun fuel (bytes ++ rest) = some (true, rest) :=
  ⟨skip_total_exact.1 [0xBB, 0xFF, 0xFF, 0xFF, 0xFF, 0xFF, 0xFF, 0xFF, 0xFF] (by decide),
    skip_total_exact.2 (.map [(.uint 1, .array [.int (-1), .text [0x61]])])
      ⟨fun _ ↦ 0, 16, 0, by decide⟩ (by decide) (by decide) (by decide)⟩

end Exactness

end ZeroFido.Cbor
