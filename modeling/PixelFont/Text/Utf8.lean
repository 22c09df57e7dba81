/-!
UTF-8. Reading either gives the characters of a byte sequence or the first of three faults: a
byte that begins no character, a byte that should continue one and does not, or an end inside a
character. The bytes of a character are looked at one by one, so a fault is that of the first byte
that no well-formed text could have there; overlong forms, surrogates and codepoints beyond the
last plane are refused at their second byte.
-/

set_option autoImplicit false

namespace PixelFont.Text.Utf8

/-- Why a byte sequence is not UTF-8. -/
inductive Fault where
  | invalidStart
  | invalidContinuation
  | unexpectedEnd
  deriving DecidableEq, Repr

/-- The wording of a fault. -/
def Fault.message : Fault → String
  | .invalidStart => "invalid start byte"
  | .invalidContinuation => "invalid continuation byte"
  | .unexpectedEnd => "unexpected end of data"

/-- Whether a byte continues a character. -/
def isContinuation (byte : UInt8) : Bool :=
  0x80 ≤ byte && byte ≤ 0xBF

/-- Whether a byte may come second after the given first byte of three or four. -/
def isSecond (lead byte : UInt8) : Bool :=
  isContinuation byte &&
    !(lead == 0xE0 && byte < 0xA0) && !(lead == 0xED && 0xA0 ≤ byte) &&
    !(lead == 0xF0 && byte < 0x90) && !(lead == 0xF4 && 0x90 ≤ byte)

/-- The codepoint bits that a byte carries when the given number of them counts. -/
def payload (byte : UInt8) (size : Nat) : Nat :=
  byte.toNat % size

/-- The characters of a byte sequence. -/
def decode : List UInt8 → Except Fault (List Char)
  | [] => .ok []
  | lead :: rest =>
    if lead < 0x80 then (Char.ofNat lead.toNat :: ·) <$> decode rest
    else if lead < 0xC2 then .error .invalidStart
    else if lead < 0xE0 then
      match rest with
      | [] => .error .unexpectedEnd
      | second :: rest =>
        if isContinuation second then
          (Char.ofNat (payload lead 32 * 64 + payload second 64) :: ·) <$> decode rest
        else .error .invalidContinuation
    else if lead < 0xF0 then
      match rest with
      | [] => .error .unexpectedEnd
      | [second] =>
        if isSecond lead second then .error .unexpectedEnd else .error .invalidContinuation
      | second :: third :: rest =>
        if isSecond lead second && isContinuation third then
          (Char.ofNat (payload lead 16 * 4096 + payload second 64 * 64 + payload third 64) :: ·)
            <$> decode rest
        else .error .invalidContinuation
    else if lead < 0xF5 then
      match rest with
      | [] => .error .unexpectedEnd
      | [second] =>
        if isSecond lead second then .error .unexpectedEnd else .error .invalidContinuation
      | [second, third] =>
        if isSecond lead second && isContinuation third then .error .unexpectedEnd
        else .error .invalidContinuation
      | second :: third :: fourth :: rest =>
        if isSecond lead second && isContinuation third && isContinuation fourth then
          (Char.ofNat (payload lead 8 * 262144 + payload second 64 * 4096 +
            payload third 64 * 64 + payload fourth 64) :: ·) <$> decode rest
        else .error .invalidContinuation
    else .error .invalidStart

/-- The bytes of a character. -/
def encodeChar (c : Char) : List UInt8 :=
  let code := c.toNat
  if code < 0x80 then [code.toUInt8]
  else if code < 0x800 then [(0xC0 + code / 64).toUInt8, (0x80 + code % 64).toUInt8]
  else if code < 0x10000 then
    [(0xE0 + code / 4096).toUInt8, (0x80 + code / 64 % 64).toUInt8, (0x80 + code % 64).toUInt8]
  else
    [(0xF0 + code / 262144).toUInt8, (0x80 + code / 4096 % 64).toUInt8,
      (0x80 + code / 64 % 64).toUInt8, (0x80 + code % 64).toUInt8]

/-- The bytes of a text. -/
def encode (text : List Char) : List UInt8 :=
  text.flatMap encodeChar

example : decode (encode ['a', 'é', '█', '😀']) = .ok ['a', 'é', '█', '😀'] := by rfl

example : decode [0xED, 0xA0, 0x80] = .error .invalidContinuation := by rfl

example : decode [0xF0, 0x9F, 0x98] = .error .unexpectedEnd := by rfl

end PixelFont.Text.Utf8
