import RequestsNative.Ascii

/-!
# Percent escapes

The functions of `utils.rs` that rewrite the percent escapes of a URL. They look for escapes by different rules:
`normalize_percent_escape_hex` takes a percent sign and two hexadecimal digits, `unquote_unreserved` a percent sign and
two letters or digits, and fails where these are not hexadecimal. A text is read here as the pieces the second sees,
and both functions, one after the other, are described piece by piece.

Both write bytes as characters, `char::from(byte)`, so a byte above the ASCII range comes out as two.
-/

namespace RequestsNative.Url

def isAsciiAlphanumeric (b : UInt8) : Bool := isAsciiDigit b || (65 ≤ b && b ≤ 90) || (97 ≤ b && b ≤ 122)

def isAsciiHexdigit (b : UInt8) : Bool := isAsciiDigit b || (65 ≤ b && b ≤ 70) || (97 ≤ b && b ≤ 102)

/-- `String::push` of `char::from(byte)`. -/
def pushByte (b : UInt8) : Bytes := if b < 128 then [b] else [(0xC0 : UInt8) ||| b >>> 6, (0x80 : UInt8) ||| b &&& 0x3F]

def hexValue (b : UInt8) : Option UInt8 :=
  if 48 ≤ b && b ≤ 57 then some (b - 48)
  else if 97 ≤ b && b ≤ 102 then some (b - 97 + 10)
  else if 65 ≤ b && b ≤ 70 then some (b - 65 + 10)
  else none

def isUnreserved (b : UInt8) : Bool := isAsciiAlphanumeric b || b == 45 || b == 46 || b == 95 || b == 126

def normalizePercentEscapeHex : Bytes → Bytes
  | [] => []
  | b :: rest =>
      match rest with
      | high :: low :: tail =>
          if b = 37 ∧ isAsciiHexdigit high = true ∧ isAsciiHexdigit low = true then
            37 :: asciiUpper high :: asciiUpper low :: normalizePercentEscapeHex tail
          else pushByte b ++ normalizePercentEscapeHex (high :: low :: tail)
      | rest => pushByte b ++ normalizePercentEscapeHex rest

/-- The byte two hexadecimal digits stand for. -/
def hexPair (high low : UInt8) : Option UInt8 := do
  let high ← hexValue high
  let low ← hexValue low
  return high * 16 + low

def unquoteUnreserved : Bytes → Option Bytes
  | [] => some []
  | b :: rest =>
      if b ≠ 37 then (unquoteUnreserved rest).map (pushByte b ++ ·)
      else
        match rest with
        | high :: low :: tail =>
            if isAsciiAlphanumeric high && isAsciiAlphanumeric low then
              match hexPair high low with
              | none => none
              | some value =>
                  if isUnreserved value then (unquoteUnreserved tail).map (pushByte value ++ ·)
                  else (unquoteUnreserved tail).map ([37, high, low] ++ ·)
            else (unquoteUnreserved (high :: low :: tail)).map (37 :: ·)
        | rest => (unquoteUnreserved rest).map (37 :: ·)

/-- `HEX`, by its index. -/
def hexDigit (n : UInt8) : UInt8 := if n < 10 then 48 + n else 55 + n

/-- What `quote_bytes` writes for one byte. -/
def quoteByte (safe : Bytes) (plusForSpace : Bool) (b : UInt8) : Bytes :=
  if isUnreserved b || safe.contains b then [b]
  else if plusForSpace && b == 32 then [43]
  else [37, hexDigit (b >>> 4), hexDigit (b &&& 0x0F)]

def quoteBytes (value safe : Bytes) (plusForSpace : Bool) : Bytes := value.flatMap (quoteByte safe plusForSpace)

def safeWithPercent : Bytes := text "!#$%&'()*+,/:;=?@[]~"

def safeWithoutPercent : Bytes := text "!#$&'()*+,/:;=?@[]~"

def requoteUri (uri : Bytes) : Bytes :=
  match unquoteUnreserved uri with
  | some unquoted => quoteBytes unquoted safeWithPercent false
  | none => quoteBytes uri safeWithoutPercent false

example : requoteUri (text "http://example.com/a%7E/%2F?q=%") = text "http://example.com/a~/%2F?q=%" := by decide

end RequestsNative.Url
