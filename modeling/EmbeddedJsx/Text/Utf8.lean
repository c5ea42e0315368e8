import EmbeddedJsx.Text.Hex

/-!
# UTF-8

A sequence of bytes is decoded character by character.  The first byte says how many bytes the
character has and, where the shorter or larger numbers have to be kept out, narrows the range of
the second byte.  A failure names the bytes that were taken before the sequence went wrong.
-/

namespace EmbeddedJsx.Text.Utf8

/-- Why bytes are not UTF-8. -/
inductive Reason where
  /-- No character begins with the byte. -/
  | start
  /-- The byte after the ones named does not continue the character. -/
  | continuation
  /-- The bytes end within a character. -/
  | ended
deriving DecidableEq, Repr

/-- How each reason is worded. -/
def Reason.message : Reason → String
  | start => "invalid start byte"
  | continuation => "invalid continuation byte"
  | ended => "unexpected end of data"

/-- Bytes that cannot be decoded. -/
structure Fault where
  /-- Why they cannot be decoded. -/
  reason : Reason
  /-- The offset of the first of them. -/
  offset : Nat
  /-- The first of them. -/
  byte : UInt8
  /-- How many they are. -/
  length : Nat
deriving DecidableEq, Repr

/-- How bytes that cannot be decoded are reported. -/
def Fault.message (fault : Fault) : String :=
  (if fault.length = 1 then
    "'utf-8' codec can't decode byte 0x" ++ String.ofList (hex 2 fault.byte.toNat) ++
      " in position " ++ toString fault.offset
  else
    "'utf-8' codec can't decode bytes in position " ++ toString fault.offset ++ "-" ++
      toString (fault.offset + fault.length - 1)) ++
  ": " ++ fault.reason.message

/-- Whether a byte continues a character. -/
def continues (b : UInt8) : Bool := 0x80 ≤ b && b ≤ 0xbf

/-- Whether a byte may follow the first byte of a character of three bytes. -/
def secondOfThree (first b : UInt8) : Bool :=
  continues b && (first != 0xe0 || 0xa0 ≤ b) && (first != 0xed || b < 0xa0)

/-- Whether a byte may follow the first byte of a character of four bytes. -/
def secondOfFour (first b : UInt8) : Bool :=
  continues b && (first != 0xf0 || 0x90 ≤ b) && (first != 0xf4 || b < 0x90)

/-- The six bits that a continuing byte carries. -/
def bits (b : UInt8) : Nat := b.toNat % 0x40

/-- Decodes bytes that begin at an offset, after the given characters in reverse order. -/
def decodeAfter (offset : Nat) (found : List Char) : List UInt8 → Except Fault (List Char)
  | [] => .ok found.reverse
  | b :: rest =>
    let fail (reason : Reason) (length : Nat) : Except Fault (List Char) :=
      .error ⟨reason, offset, b, length⟩
    if b < 0x80 then decodeAfter (offset + 1) (Char.ofNat b.toNat :: found) rest
    else if b < 0xc2 ∨ 0xf4 < b then fail .start 1
    else match rest with
      | [] => fail .ended 1
      | c :: rest =>
        if b < 0xe0 then
          if continues c then
            decodeAfter (offset + 2) (Char.ofNat (b.toNat % 0x20 * 0x40 + bits c) :: found) rest
          else fail .continuation 1
        else if (if b < 0xf0 then secondOfThree b c else secondOfFour b c) = false then
          fail .continuation 1
        else match rest with
          | [] => fail .ended 2
          | d :: rest =>
            if continues d = false then fail .continuation 2
            else if b < 0xf0 then
              decodeAfter (offset + 3)
                (Char.ofNat ((b.toNat % 0x10 * 0x40 + bits c) * 0x40 + bits d) :: found) rest
            else match rest with
              | [] => fail .ended 3
              | e :: rest =>
                if continues e then
                  decodeAfter (offset + 4)
                    (Char.ofNat (((b.toNat % 8 * 0x40 + bits c) * 0x40 + bits d) * 0x40 + bits e)
                      :: found)
                    rest
                else fail .continuation 3

/-- Decodes bytes. -/
def decode (bytes : List UInt8) : Except Fault (List Char) := decodeAfter 0 [] bytes

/-- The bytes of a text. -/
def encode (text : String) : List UInt8 := text.toUTF8.toList

end EmbeddedJsx.Text.Utf8
