import IndirectBranch.Bytes

/-! Text from its UTF-8 bytes. -/
namespace IndirectBranch.Text

def isContinuation (b : UInt8) : Bool := 0x80 ≤ b && b < 0xC0

def low6 (b : UInt8) : Nat := b.toNat % 64

/-- Decodes a whole byte string; `none` unless every sequence is the shortest one of a scalar
value. -/
def decodeUtf8? : Bytes → Option (List Char)
  | [] => some []
  | b0 :: rest0 =>
    if b0 < 0x80 then (decodeUtf8? rest0).map (Char.ofNat b0.toNat :: ·)
    else
      match rest0 with
      | [] => none
      | b1 :: rest1 =>
        if !isContinuation b1 then none
        else if 0xC2 ≤ b0 && b0 < 0xE0 then
          (decodeUtf8? rest1).map (Char.ofNat (b0.toNat % 32 * 64 + low6 b1) :: ·)
        else
          match rest1 with
          | [] => none
          | b2 :: rest2 =>
            if !isContinuation b2 then none
            else if 0xE0 ≤ b0 && b0 < 0xF0 then
              let n := b0.toNat % 16 * 4096 + low6 b1 * 64 + low6 b2
              if n < 0x800 || (0xD800 ≤ n && n < 0xE000) then none
              else (decodeUtf8? rest2).map (Char.ofNat n :: ·)
            else
              match rest2 with
              | [] => none
              | b3 :: rest3 =>
                let n := b0.toNat % 8 * 262144 + low6 b1 * 4096 + low6 b2 * 64 + low6 b3
                if isContinuation b3 && 0xF0 ≤ b0 && b0 < 0xF8 && 0x10000 ≤ n && n < 0x110000 then
                  (decodeUtf8? rest3).map (Char.ofNat n :: ·)
                else none

def ofUtf8? (bytes : Bytes) : Option String := (decodeUtf8? bytes).map String.ofList

end IndirectBranch.Text
