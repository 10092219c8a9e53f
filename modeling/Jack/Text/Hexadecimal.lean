/-!
# Hexadecimal numbers

Code points are shown in hexadecimal digits, small ones in escapes and capitals in messages.
-/

namespace Jack.Text

/-- The digits of a number in small letters, without padding. -/
def hexDigits (value : Nat) : String :=
  String.ofList (Nat.toDigits 16 value)

/-- The digits of a number in capitals, with zeros on the left up to `width` digits. -/
def hexCapitals (width value : Nat) : String :=
  let digits := (Nat.toDigits 16 value).map Char.toUpper
  String.ofList (List.replicate (width - digits.length) '0' ++ digits)

end Jack.Text
