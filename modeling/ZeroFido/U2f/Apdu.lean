import ZeroFido.Types

/-!
# U2F request envelopes

`u2f/apdu.c`: the two envelope forms of a U2F request and the checks that answer a malformed request
with a status word before any command runs.
-/

set_option autoImplicit false
set_option relaxedAutoImplicit false

namespace ZeroFido.U2f

def cmdRegister : UInt8 := 0x01
def cmdAuthenticate : UInt8 := 0x02
def cmdVersion : UInt8 := 0x03

def checkOnly : UInt8 := 0x07
def enforce : UInt8 := 0x03
def dontEnforce : UInt8 := 0x08

def challengeSize : ℕ := 32
def appIdSize : ℕ := 32

def swWrongLength : ℕ := 0x6700
def swWrongData : ℕ := 0x6A80
def swInsNotSupported : ℕ := 0x6D00
def swClaNotSupported : ℕ := 0x6E00

/-- The two bytes of a status word. -/
def writeStatus (status : ℕ) : Bytes := [UInt8.ofNat (status / 256), UInt8.ofNat status]

/-- A request envelope taken apart. The command data are the `lc` bytes at `data`. -/
structure ParsedApdu where
  cla : UInt8
  ins : UInt8
  p1 : UInt8
  p2 : UInt8
  data : Option Bytes
  lc : ℕ
  deriving DecidableEq, Repr

/-- The envelope without its data. -/
def headerOnly (request : Bytes) : ParsedApdu where
  cla := request.getD 0 0
  ins := request.getD 1 0
  p1 := request.getD 2 0
  p2 := request.getD 3 0
  data := none
  lc := 0

/-- `u2f_parse_apdu_header`. A length of five is the short form without data where that is allowed.
-/
def parseApduHeader (request : Bytes) (allowShort : Bool) : Option ParsedApdu :=
  if request.length < 4 then none
  else if allowShort && request.length == 5 then some (headerOnly request)
  else if 7 ≤ request.length ∧ request.getD 4 0 = 0 then
    let lc := 256 * (request.getD 5 0).toNat + (request.getD 6 0).toNat
    if request.length ≠ 7 + lc ∧ request.length ≠ 9 + lc then none
    else some { headerOnly request with data := some (request.drop 7), lc := lc }
  else
    let lc := (request.getD 4 0).toNat
    if request.length ≠ 5 + lc ∧ request.length ≠ 6 + lc then none
    else some { headerOnly request with data := some (request.drop 5), lc := lc }

/-- The status word that refuses the envelope; nothing when it is as expected. -/
def validateApduStatus (request : Bytes) (ins : UInt8) (expectedLc : ℕ) (allowShort : Bool) :
    Option ℕ :=
  match parseApduHeader request allowShort with
  | none => some swWrongLength
  | some apdu =>
    if apdu.cla ≠ 0 then some swClaNotSupported
    else if apdu.ins ≠ ins then some swInsNotSupported
    else if apdu.lc ≠ expectedLc then some swWrongLength
    else none

/-- The checks of an authentication request. -/
def validateAuthenticateStatus (request : Bytes) : Option ℕ :=
  match parseApduHeader request false with
  | none => some swWrongLength
  | some apdu =>
    if apdu.p1 ≠ checkOnly ∧ apdu.p1 ≠ enforce ∧ apdu.p1 ≠ dontEnforce then some swWrongData
    else if apdu.lc < challengeSize + appIdSize + 1 then some swWrongLength
    else
      match apdu.data with
      | none => some swWrongLength
      | some data =>
        let keyHandleLen := (data.getD (challengeSize + appIdSize) 0).toNat
        if apdu.lc ≠ challengeSize + appIdSize + 1 + keyHandleLen then some swWrongLength else none

/-- `u2f_validate_request_status`: nothing when the request goes on to its command. -/
def validateRequestStatus (request : Bytes) : Option ℕ :=
  if request.length < 4 then some swWrongLength
  else if request.getD 0 0 ≠ 0 then some swClaNotSupported
  else if request.getD 1 0 = cmdVersion then
    if request.length = 4 then none else validateApduStatus request cmdVersion 0 true
  else if request.length < 7 then some swWrongLength
  else if request.getD 1 0 = cmdRegister then
    validateApduStatus request cmdRegister (challengeSize + appIdSize) false
  else if request.getD 1 0 = cmdAuthenticate then validateAuthenticateStatus request
  else some swInsNotSupported

/-- `u2f_validate_request_into_response`: the status bytes of a refused request. -/
def validateRequestIntoResponse (request : Bytes) : Option Bytes :=
  (validateRequestStatus request).map writeStatus

/-- `u2f_request_needs_user_presence`. -/
def requestNeedsUserPresence (request : Bytes) : Bool :=
  if request.length < 2 then false
  else if request.getD 1 0 = cmdRegister then true
  else if request.getD 1 0 = cmdAuthenticate then
    decide (3 ≤ request.length) && request.getD 2 0 == enforce
  else false

end ZeroFido.U2f
