/-!
# UTF-8

Decoding of bytes to text. Where the bytes are no text, the fault names the first offending byte and
how many bytes it spoils; a sequence cut off by the end of the bytes spoils no definite number.
-/

namespace CodeAtlas

abbrev Bytes := List UInt8

namespace Text.Utf8

structure Fault where
  /-- Number of bytes before the offending sequence. -/
  offset : Nat
  length : Option Nat
deriving DecidableEq, Repr

def Fault.message (fault : Fault) : String :=
  match fault.length with
  | some length => s!"invalid utf-8 sequence of {length} bytes from index {fault.offset}"
  | none => s!"incomplete utf-8 byte sequence from index {fault.offset}"

def encode (text : String) : Bytes := text.toUTF8.toList

def isTail (byte : UInt8) : Bool := 0x80 ≤ byte && byte ≤ 0xBF

/-- Second bytes that may follow the first byte of a sequence of three. -/
def isSecondOfThree (first second : UInt8) : Bool :=
  isTail second && (first ≠ 0xE0 || 0xA0 ≤ second) && (first ≠ 0xED || second ≤ 0x9F)

/-- Second bytes that may follow the first byte of a sequence of four. -/
def isSecondOfFour (first second : UInt8) : Bool :=
  isTail second && (first ≠ 0xF0 || 0x90 ≤ second) && (first ≠ 0xF4 || second ≤ 0x8F)

def tailBits (byte : UInt8) : Nat := byte.toNat % 64

/-- What the bytes begin with: a character with the number of its bytes, or the number of bytes that
are spoiled. -/
def step : Bytes → Except (Option Nat) (Char × Nat)
  | [] => .error none
  | first :: rest =>
      if first < 0x80 then .ok (Char.ofNat first.toNat, 1)
      else if 0xC2 ≤ first && first ≤ 0xDF then
        match rest with
        | [] => .error none
        | second :: _ =>
            if isTail second then
              .ok (Char.ofNat ((first.toNat - 0xC0) * 64 + tailBits second), 2)
            else .error (some 1)
      else if 0xE0 ≤ first && first ≤ 0xEF then
        match rest with
        | [] => .error none
        | second :: rest =>
            if !isSecondOfThree first second then .error (some 1)
            else
              match rest with
              | [] => .error none
              | third :: _ =>
                  if isTail third then
                    .ok (Char.ofNat (((first.toNat - 0xE0) * 64 + tailBits second) * 64
                      + tailBits third), 3)
                  else .error (some 2)
      else if 0xF0 ≤ first && first ≤ 0xF4 then
        match rest with
        | [] => .error none
        | second :: rest =>
            if !isSecondOfFour first second then .error (some 1)
            else
              match rest with
              | [] => .error none
              | third :: rest =>
                  if !isTail third then .error (some 2)
                  else
                    match rest with
                    | [] => .error none
                    | fourth :: _ =>
                        if isTail fourth then
                          .ok (Char.ofNat ((((first.toNat - 0xF0) * 64 + tailBits second) * 64
                            + tailBits third) * 64 + tailBits fourth), 4)
                        else .error (some 3)
      else .error (some 1)

/-- Decodes with `offset` bytes behind, of which `pending` belong to the last character read. -/
def decodeFrom (offset pending : Nat) (read : List Char) : Bytes → Except Fault (List Char)
  | [] => .ok read.reverse
  | byte :: rest =>
      match pending with
      | pending + 1 => decodeFrom (offset + 1) pending read rest
      | 0 =>
          match step (byte :: rest) with
          | .error length => .error ⟨offset, length⟩
          | .ok (char, length) => decodeFrom (offset + 1) (length - 1) (char :: read) rest

def decode (bytes : Bytes) : Except Fault String :=
  (decodeFrom 0 0 [] bytes).map String.ofList

end Text.Utf8

end CodeAtlas
