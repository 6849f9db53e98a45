/-! # UTF-8

Decoding of bytes into characters. A fault is told by the number of bytes before the first
sequence that is not well formed.
-/

namespace DecisionTable.Utf8

/-- Whether a byte continues a sequence. -/
def isTail (b : UInt8) : Bool := 0x80 ≤ b && b < 0xC0

/-- The six bits of a continuing byte. -/
def tailBits (b : UInt8) : Nat := b.toNat - 0x80

/-- Whether the second byte of a sequence of three fits the first: no overlong form and no
    surrogate. -/
def fitsThree (a b : UInt8) : Bool :=
  isTail b && (a != 0xE0 || 0xA0 ≤ b) && (a != 0xED || b < 0xA0)

/-- Whether the second byte of a sequence of four fits the first: no overlong form and nothing
    past the last code point. -/
def fitsFour (a b : UInt8) : Bool :=
  isTail b && (a != 0xF0 || 0x90 ≤ b) && (a != 0xF4 || b < 0x90)

/-- Decodes bytes that stand behind `before` well-formed ones. -/
def decodeFrom (before : Nat) : List UInt8 → Except Nat (List Char)
  | [] => .ok []
  | a :: rest =>
    if a < 0x80 then
      (decodeFrom (before + 1) rest).map (Char.ofNat a.toNat :: ·)
    else if 0xC2 ≤ a && a < 0xE0 then
      match rest with
      | b :: rest =>
        if isTail b then
          (decodeFrom (before + 2) rest).map
            (Char.ofNat ((a.toNat - 0xC0) * 64 + tailBits b) :: ·)
        else .error before
      | [] => .error before
    else if 0xE0 ≤ a && a < 0xF0 then
      match rest with
      | b :: c :: rest =>
        if fitsThree a b && isTail c then
          (decodeFrom (before + 3) rest).map
            (Char.ofNat ((a.toNat - 0xE0) * 4096 + tailBits b * 64 + tailBits c) :: ·)
        else .error before
      | _ => .error before
    else if 0xF0 ≤ a && a < 0xF5 then
      match rest with
      | b :: c :: d :: rest =>
        if fitsFour a b && isTail c && isTail d then
          (decodeFrom (before + 4) rest).map
            (Char.ofNat ((a.toNat - 0xF0) * 262144 + tailBits b * 4096 + tailBits c * 64
              + tailBits d) :: ·)
        else .error before
      | _ => .error before
    else .error before

/-- The text that bytes spell. -/
def decode (bytes : List UInt8) : Except Nat String := (decodeFrom 0 bytes).map String.ofList

end DecisionTable.Utf8
