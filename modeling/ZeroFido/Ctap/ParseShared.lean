import ZeroFido.Cbor

/-!
# Parsing helpers shared by the CTAP commands

The parts of `ctap/parse/shared.c` that all the request parsers use.
-/

set_option autoImplicit false
set_option relaxedAutoImplicit false

namespace ZeroFido.Ctap

open Cbor

/-- `zf_ctap_mark_seen_key`: keys from 16 on are not tracked, and a tracked key may occur once. -/
def markSeenKey (seenKeys : List ℕ) (key : ℕ) : Option (List ℕ) :=
  if 16 ≤ key then some seenKeys
  else if key ∈ seenKeys then none
  else some (key :: seenKeys)

/-- `zf_ctap_cbor_read_text_copy`: the text must fit its buffer with a terminating zero and contain
none itself. -/
def cborReadTextCopy (cursor : Bytes) (outSize : ℕ) : Option (Bytes × Bytes) :=
  match readText cursor with
  | some (text, rest) => if outSize ≤ text.length ∨ 0 ∈ text then none else some (text, rest)
  | none => none

/-- `zf_ctap_cbor_read_bytes_copy`. -/
def cborReadBytesCopy (cursor : Bytes) (outCapacity : ℕ) : Option (Bytes × Bytes) :=
  match readBytes cursor with
  | some (data, rest) => if outCapacity < data.length then none else some (data, rest)
  | none => none

/-- The fields of a COSE key seen so far. -/
structure CoseKeyFields where
  kty : Bool := false
  alg : Bool := false
  crv : Bool := false
  x : Option Bytes := none
  y : Option Bytes := none
  deriving DecidableEq, Repr

/-- An integer field of a COSE key: it may occur once and has one allowed value. -/
def readCoseInt (cursor : Bytes) (seen : Bool) (expected : ℤ) : Option Bytes :=
  match readInt cursor with
  | some (value, rest) => if seen ∨ value ≠ expected then none else some rest
  | none => none

/-- A coordinate of a COSE key: it may occur once and has the length of a P-256 coordinate. -/
def readCoseCoordinate (cursor : Bytes) (seen : Bool) : Option (Bytes × Bytes) :=
  match cborReadBytesCopy cursor publicKeyLen with
  | some (value, rest) => if seen ∨ value.length ≠ publicKeyLen then none else some (value, rest)
  | none => none

/-- One pair of the COSE key map. -/
def readCosePair (fields : CoseKeyFields) (cursor : Bytes) : Option (CoseKeyFields × Bytes) := do
  let (key, cursor) ← readInt cursor
  if key = 1 then
    let rest ← readCoseInt cursor fields.kty 2
    some ({ fields with kty := true }, rest)
  else if key = 3 then
    let rest ← readCoseInt cursor fields.alg (-25)
    some ({ fields with alg := true }, rest)
  else if key = -1 then
    let rest ← readCoseInt cursor fields.crv 1
    some ({ fields with crv := true }, rest)
  else if key = -2 then
    let (value, rest) ← readCoseCoordinate cursor fields.x.isSome
    some ({ fields with x := some value }, rest)
  else if key = -3 then
    let (value, rest) ← readCoseCoordinate cursor fields.y.isSome
    some ({ fields with y := some value }, rest)
  else
    none

/-- The loop over the pairs of the COSE key map. -/
def readCosePairs : ℕ → CoseKeyFields → Bytes → Option (CoseKeyFields × Bytes)
  | 0, fields, cursor => some (fields, cursor)
  | pairs + 1, fields, cursor => do
    let (fields, cursor) ← readCosePair fields cursor
    readCosePairs pairs fields cursor

/-- `zf_ctap_parse_cose_p256_key_agreement`. -/
def parseCoseP256KeyAgreement (cursor : Bytes) : Option ((Bytes × Bytes) × Bytes) := do
  let (pairs, cursor) ← readMapStart cursor
  let (fields, cursor) ← readCosePairs pairs {} cursor
  let x ← fields.x
  let y ← fields.y
  if fields.kty ∧ fields.alg ∧ fields.crv then some ((x, y), cursor) else none

end ZeroFido.Ctap
