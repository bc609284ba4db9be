import Mathlib.Data.List.Basic

/-!
# Hashing in blocks

An iterated hash function folds a compression function over the blocks of a message (`absorb`). A
message that comes in pieces gives the same state when what is left of one piece is put in front of
the next (`absorb_append`), so a hash of a stream is the hash of the message.

`hmac` and `hkdf` are the two constructions over a hash function, as RFC 2104 and RFC 5869 have
them.
-/

set_option autoImplicit false
set_option relaxedAutoImplicit false

namespace ZeroFido.Foundations

section Blocks

variable {Byte State : Type} (size : ℕ) (compress : State → List Byte → State)

/-- The state after the whole blocks of a message, and what is left of the message. -/
def absorb (state : State) (message : List Byte) : State × List Byte :=
  if 0 < size ∧ size ≤ message.length then
    absorb (compress state (message.take size)) (message.drop size)
  else (state, message)
termination_by message.length
decreasing_by
  rw [List.length_drop]
  omega

variable {size compress} {state : State} {message block rest : List Byte}

theorem absorb_of_lt (h : message.length < size) :
    absorb size compress state message = (state, message) := by
  rw [absorb, if_neg (by omega)]

theorem absorb_block_append (hsize : 0 < size) (hblock : block.length = size) :
    absorb size compress state (block ++ rest) =
      absorb size compress (compress state block) rest := by
  rw [absorb, if_pos ⟨hsize, by rw [List.length_append]; omega⟩, List.take_left' hblock,
    List.drop_left' hblock]

theorem absorb_block (hsize : 0 < size) (hblock : block.length = size) :
    absorb size compress state block = (compress state block, []) := by
  rw [← List.append_nil block, absorb_block_append hsize hblock, List.append_nil,
    absorb_of_lt hsize]

/-- Less than a block is left over. -/
theorem length_absorb (hsize : 0 < size) (state : State) (message : List Byte) :
    (absorb size compress state message).2.length = message.length % size := by
  induction state, message using absorb.induct size compress with
  | case1 state message h ih =>
    rw [absorb, if_pos h, ih, List.length_drop]
    exact (Nat.mod_eq_sub_mod h.2).symm
  | case2 state message h =>
    rw [absorb, if_neg h]
    exact (Nat.mod_eq_of_lt (Nat.lt_of_not_le fun hle ↦ h ⟨hsize, hle⟩)).symm

/-- More of a message is taken up behind what its first part left over. -/
theorem absorb_append (state : State) (message more : List Byte) :
    absorb size compress state (message ++ more) =
      absorb size compress (absorb size compress state message).1
        ((absorb size compress state message).2 ++ more) := by
  induction state, message using absorb.induct size compress with
  | case1 state message h ih =>
    have hblock : (message.take size).length = size := List.length_take_of_le h.2
    calc absorb size compress state (message ++ more)
        = absorb size compress state (message.take size ++ (message.drop size ++ more)) := by
          rw [← List.append_assoc, List.take_append_drop]
      _ = absorb size compress (compress state (message.take size)) (message.drop size ++ more) :=
          absorb_block_append h.1 hblock
      _ = absorb size compress (absorb size compress state message).1
            ((absorb size compress state message).2 ++ more) := by
          rw [ih, absorb.eq_1 size compress state message, if_pos h]
  | case2 state message h => rw [absorb.eq_1 size compress state message, if_neg h]

end Blocks

section Constructions

variable (hash : List UInt8 → List UInt8) (blockSize : ℕ)

/-- A key of the size of a block: a longer one is hashed, and what is missing is zeros. -/
def hmacKey (key : List UInt8) : List UInt8 :=
  let short := if blockSize < key.length then hash key else key
  short ++ List.replicate (blockSize - short.length) 0

/-- HMAC with a hash function of this block size. -/
def hmac (key message : List UInt8) : List UInt8 :=
  let inner := (hmacKey hash blockSize key).map (· ^^^ 0x36)
  let outer := (hmacKey hash blockSize key).map (· ^^^ 0x5C)
  hash (outer ++ hash (inner ++ message))

/-- The blocks of HKDF's expansion, each from the one before it. -/
def hkdfBlock (pseudoRandomKey info : List UInt8) : ℕ → List UInt8
  | 0 => []
  | index + 1 => hmac hash blockSize pseudoRandomKey
      (hkdfBlock pseudoRandomKey info index ++ info ++ [UInt8.ofNat (index + 1)])

/-- The expansion of a key to a length, from blocks of the size of a digest. -/
def hkdfExpand (digestSize : ℕ) (pseudoRandomKey info : List UInt8) (length : ℕ) : List UInt8 :=
  ((List.range ((length + digestSize - 1) / digestSize)).flatMap fun index ↦
    hkdfBlock hash blockSize pseudoRandomKey info (index + 1)).take length

/-- HKDF: a key is extracted from the secret and then expanded. -/
def hkdf (digestSize : ℕ) (salt secret info : List UInt8) (length : ℕ) : List UInt8 :=
  hkdfExpand hash blockSize digestSize (hmac hash blockSize salt secret) info length

end Constructions

end ZeroFido.Foundations
