import TileCache.Regular.Expression

/-!
# Values of fields

A directive may ask for a field of a certain value.  The value is a number or true or false, or a
regular expression that the text of the field has to match; the two words are regular expressions
anyway, and so are all numbers without a plus sign.
-/

set_option autoImplicit false

namespace TileCache.Log.Value

/-- The words that stand for numbers, in small letters. -/
def numberWords : List String := ["inf", "infinity", "nan"]

/-- Is it a power of ten behind the digits of a number? -/
def isExponent : List Char → Bool
  | [] => false
  | c :: cs =>
    let digits := match cs with
      | '+' :: rest | '-' :: rest => rest
      | _ => cs
    (c = 'e' || c = 'E') && !digits.isEmpty && digits.all Char.isDigit

/-- Is it a number without a sign?  A point may stand anywhere among the digits, ahead of the first
and behind the last one too, and small and capital letters are the same. -/
def isNumber (text : List Char) : Bool :=
  let whole := text.takeWhile Char.isDigit
  let behind := text.dropWhile Char.isDigit
  let (fraction, rest) := match behind with
    | '.' :: rest => (rest.takeWhile Char.isDigit, rest.dropWhile Char.isDigit)
    | _ => ([], behind)
  numberWords.contains (String.ofList (text.map Char.toLower)) ||
    (!(whole ++ fraction).isEmpty && (rest.isEmpty || isExponent rest))

/-- Can a field have the value? -/
def isValue (text : List Char) : Bool :=
  match text with
  | '+' :: rest => isNumber rest
  | _ => Regular.isExpression text

end TileCache.Log.Value
