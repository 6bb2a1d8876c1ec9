import Mathlib.Tactic

/-!
# Compact JSON text

The documents the agent writes are compact JSON: no white space, the keys in
the order they are given, and strings escaped the way `serde_json` escapes
them – the two reserved characters and the control characters, everything
else as itself. Text is its UTF-8 bytes here, which is what is signed,
hashed and measured.
-/

namespace Json

/-- The UTF-8 bytes of a string. -/
def bytes (s : String) : List UInt8 := s.toByteArray.data.toList

theorem bytes_append (s t : String) : bytes (s ++ t) = bytes s ++ bytes t := by
  unfold bytes
  rw [String.toByteArray_append, ByteArray.data_append, Array.toList_append]

/-- The byte of an ASCII character. -/
def byte (c : Char) : UInt8 := UInt8.ofNat c.toNat

/-- The lowercase hexadecimal digit of a number below sixteen. -/
def hexDigit (n : Nat) : UInt8 := if n < 10 then UInt8.ofNat (48 + n) else UInt8.ofNat (87 + n)

/-- A byte inside a JSON string. -/
def escape (b : UInt8) : List UInt8 :=
  if b = byte '"' then [byte '\\', byte '"']
  else if b = byte '\\' then [byte '\\', byte '\\']
  else if b = byte '\n' then [byte '\\', byte 'n']
  else if b = byte '\r' then [byte '\\', byte 'r']
  else if b = byte '\t' then [byte '\\', byte 't']
  else if b = 8 then [byte '\\', byte 'b']
  else if b = 12 then [byte '\\', byte 'f']
  else if b < 32 then
    [byte '\\', byte 'u', byte '0', byte '0', hexDigit (b.toNat / 16), hexDigit (b.toNat % 16)]
  else [b]

/-- A string with its quotes. -/
def str (s : String) : List UInt8 := byte '"' :: ((bytes s).flatMap escape ++ [byte '"'])

/-- An unsigned integer. -/
def nat (n : Nat) : List UInt8 := (Nat.toDigits 10 n).map byte

/-- `null`, or the encoding of the value. -/
def opt {α : Type} (f : α → List UInt8) : Option α → List UInt8
  | none => bytes "null"
  | some a => f a

/-- Encodings separated by commas. -/
def separated : List (List UInt8) → List UInt8
  | [] => []
  | [x] => x
  | x :: y :: rest => x ++ byte ',' :: separated (y :: rest)

def array (items : List (List UInt8)) : List UInt8 :=
  byte '[' :: (separated items ++ [byte ']'])

/-- An object, its fields in the order given. -/
def object (fields : List (String × List UInt8)) : List UInt8 :=
  123 :: (separated (fields.map (fun f => str f.1 ++ byte ':' :: f.2)) ++ [125])

end Json
