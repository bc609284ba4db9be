import ZeroFido.Types

/-!
# ISO 7816 APDUs over NFC

`transport/nfc_protocol.c`: the command forms the applet accepts, the application identifiers it
knows, and the translation of an APDU into a U2F request.
-/

set_option autoImplicit false
set_option relaxedAutoImplicit false

namespace ZeroFido.Nfc

section Constants

def fidoAid : Bytes := [0xA0, 0x00, 0x00, 0x06, 0x47, 0x2F, 0x00, 0x01]
def ndefAid : Bytes := [0xD2, 0x76, 0x00, 0x00, 0x85, 0x01, 0x01]
def selectResponse : Bytes := [0x55, 0x32, 0x46, 0x5F, 0x56, 0x32]
def fido2SelectResponse : Bytes := [0x46, 0x49, 0x44, 0x4F, 0x5F, 0x32, 0x5F, 0x30]

def maxMsgSize : ℕ := 1024
def transportArenaSize : ℕ := maxMsgSize + 2
def maxTxFrameInfSize : ℕ := 250
def txChainChunkSize : ℕ := 96
def getResponseChunkSize : ℕ := txChainChunkSize - 2
def rxChainDuplicateLimit : ℕ := 8

def statusProcessing : UInt8 := 0x01
def statusUpNeeded : UInt8 := 0x02

def insCtapMsg : UInt8 := 0x10
def insCtapGetResponse : UInt8 := 0x11
def insCtapControl : UInt8 := 0x12
def insIsoGetResponse : UInt8 := 0xC0
def ctapMsgP1GetResponse : UInt8 := 0x80
def u2fCmdVersion : UInt8 := 0x03
def ctapCmdGetInfo : UInt8 := 0x04

def swSuccess : UInt16 := 0x9000
def swStatusUpdate : UInt16 := 0x9100
def swBytesRemaining : UInt16 := 0x6100
def swWrongLength : UInt16 := 0x6700
def swConditionsNotSatisfied : UInt16 := 0x6985
def swFileNotFound : UInt16 := 0x6A82
def swInsNotSupported : UInt16 := 0x6D00
def swWrongP1P2 : UInt16 := 0x6B00
def swInternalError : UInt16 := 0x6F00
def desfireSwMore : UInt16 := 0x91AF
def desfireSwOk : UInt16 := 0x9100

/-- A status word as it is sent. -/
def statusWordBytes (statusWord : UInt16) : Bytes :=
  [(statusWord >>> 8).toUInt8, statusWord.toUInt8]

end Constants

/-- `ZfNfcApdu`. A body that is absent and an empty one are the same list. -/
structure NfcApdu where
  cla : UInt8
  ins : UInt8
  p1 : UInt8
  p2 : UInt8
  data : Bytes := []
  le : ℕ := 0
  chained : Bool := false
  extended : Bool := false
  hasLe : Bool := false
  deriving DecidableEq, Repr

section Parse

/-- Two bytes of a length field. -/
def length16 (high low : UInt8) : ℕ := high.toNat * 256 + low.toNat

/-- The body of an APDU with a short Lc. -/
def parseShortBody (apdu : NfcApdu) (lc : ℕ) (rest : Bytes) : Option NfcApdu :=
  if rest.length < lc then none
  else
    match rest.drop lc with
    | [] => some { apdu with data := rest.take lc }
    | [le] => some { apdu with data := rest.take lc, hasLe := true, le := le.toNat }
    | _ => none

/-- The body of an APDU with an extended Lc. -/
def parseExtendedBody (apdu : NfcApdu) (lc : ℕ) (rest : Bytes) : Option NfcApdu :=
  if rest.length < lc then none
  else
    match rest.drop lc with
    | [] => some { apdu with data := rest.take lc }
    | [high, low] => some { apdu with data := rest.take lc, hasLe := true, le := length16 high low }
    | _ => none

/-- `zf_transport_nfc_parse_apdu`. -/
def parseApdu : Bytes → Option NfcApdu
  | cla :: ins :: p1 :: p2 :: body =>
    let apdu : NfcApdu :=
      { cla := cla &&& ~~~0x10, ins, p1, p2, chained := cla &&& 0x10 != 0 }
    match body with
    | [] => some apdu
    | [le] => some { apdu with hasLe := true, le := le.toNat }
    | 0x00 :: rest =>
      match rest with
      | [high, low] =>
        some { apdu with extended := true, hasLe := true, le := length16 high low }
      | high :: low :: rest =>
        parseExtendedBody { apdu with extended := true } (length16 high low) rest
      | _ => none
    | lc :: rest => parseShortBody apdu lc.toNat rest
  | _ => none

/-- `zf_transport_nfc_normalize_le`. -/
def normalizeLe (apdu : NfcApdu) : ℕ :=
  if !apdu.hasLe || apdu.le == 0 then (if apdu.extended then 65536 else 256) else apdu.le

/-- `zf_transport_nfc_is_fido_select_apdu`. -/
def isFidoSelectApdu (apdu : NfcApdu) : Bool :=
  apdu.cla == 0x00 && apdu.ins == 0xA4 && apdu.p1 == 0x04 &&
    (apdu.p2 == 0x00 || apdu.p2 == 0x0C) &&
    (apdu.data == fidoAid || apdu.data == fidoAid ++ [0x00])

/-- The SELECT of the NDEF application, which is always refused. -/
def isNdefSelectApdu (apdu : NfcApdu) : Bool :=
  apdu.cla == 0x00 && apdu.ins == 0xA4 && apdu.p1 == 0x04 &&
    (apdu.p2 == 0x00 || apdu.p2 == 0x0C) && apdu.data == ndefAid

/-- `zf_transport_nfc_status_update_sw`. -/
def statusUpdateSw (remaining : ℕ) : UInt16 :=
  if 0xFF < remaining then swBytesRemaining else swBytesRemaining ||| UInt16.ofNat remaining

/-- `zf_transport_nfc_encode_u2f_request`; nothing when the request does not fit. -/
def encodeU2fRequest (apdu : NfcApdu) (outCapacity : ℕ) : Option Bytes :=
  let header := [0x00, apdu.ins, apdu.p1, apdu.p2]
  let length := apdu.data.length
  if outCapacity < 4 then none
  else if length = 0 then some header
  else if !apdu.extended then
    if outCapacity < 5 + length ∨ 0xFF < length then none
    else some (header ++ [UInt8.ofNat length] ++ apdu.data)
  else if outCapacity < 7 + length ∨ 0xFFFF < length then none
  else some (header ++ [0x00, UInt8.ofNat (length / 256), UInt8.ofNat length] ++ apdu.data)

end Parse

end ZeroFido.Nfc
