/-!
# Octets as text

Two written forms of a sequence of octets: two lower-case hexadecimal digits an
octet, and base 64 with the standard alphabet and padding.
-/

namespace DocumentMapper
namespace Text

def hexDigits (octet : UInt8) : List Char :=
  [Nat.digitChar (octet.toNat / 16), Nat.digitChar (octet.toNat % 16)]

def hex (octets : List UInt8) : String :=
  String.ofList (octets.flatMap hexDigits)

/-!
## Base 64

Three octets are cut into four groups of six bits.  A last group of one or two
octets is filled up with zero bits, and each group that holds no bit of the
input is written as the padding character.
-/

def base64Alphabet : List Char :=
  "ABCDEFGHIJKLMNOPQRSTUVWXYZabcdefghijklmnopqrstuvwxyz0123456789+/".toList

def base64Digit (sextet : Nat) : Char :=
  base64Alphabet.getD (sextet % 64) '='

def base64Digits : List UInt8 -> List Char
  | a :: b :: c :: rest =>
      let bits := a.toNat * 65536 + b.toNat * 256 + c.toNat
      base64Digit (bits / 262144) :: base64Digit (bits / 4096) ::
        base64Digit (bits / 64) :: base64Digit bits :: base64Digits rest
  | [a, b] =>
      let bits := a.toNat * 65536 + b.toNat * 256
      [base64Digit (bits / 262144), base64Digit (bits / 4096),
        base64Digit (bits / 64), '=']
  | [a] =>
      let bits := a.toNat * 65536
      [base64Digit (bits / 262144), base64Digit (bits / 4096), '=', '=']
  | [] =>
      []

def base64 (octets : List UInt8) : String :=
  String.ofList (base64Digits octets)

end Text
end DocumentMapper
