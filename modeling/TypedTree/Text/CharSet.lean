/-!
Sets of characters given as ranges of code points. A table is kept as text, one hexadecimal number
or `first-last` range to a word, and is read once when the program starts.
-/

namespace TypedTree.Text

/-- The pieces of a text between blanks and line ends. -/
def words (text : String) : List (List Char) :=
  (text.toList.splitBy fun a b => !a.isWhitespace && !b.isWhitespace).filter
    fun word => word.any (!·.isWhitespace)

/-- The value of a hexadecimal digit; other characters count as zero. -/
def hexDigitValue (c : Char) : Nat :=
  if '0' ≤ c ∧ c ≤ '9' then c.toNat - '0'.toNat
  else if 'a' ≤ c ∧ c ≤ 'f' then c.toNat - 'a'.toNat + 10
  else if 'A' ≤ c ∧ c ≤ 'F' then c.toNat - 'A'.toNat + 10
  else 0

def readHex (digits : List Char) : Nat :=
  digits.foldl (fun value digit => 16 * value + hexDigitValue digit) 0

/-- The text before the first `mark` and the text after it. -/
def cut (mark : Char) (text : List Char) : List Char × List Char :=
  ((text.takeWhile (· ≠ mark)), (text.dropWhile (· ≠ mark)).drop 1)

/-- A set of characters, as closed ranges of code points. -/
structure CharSet where
  ranges : List (Nat × Nat)

namespace CharSet

/-- Reads words such as `aa` and `c0-d6`. -/
def ofText (text : String) : CharSet where
  ranges := (words text).map fun word =>
    match cut '-' word with
    | (first, []) => (readHex first, readHex first)
    | (first, last) => (readHex first, readHex last)

def contains (set : CharSet) (c : Char) : Bool :=
  set.ranges.any fun range => range.1 ≤ c.toNat && c.toNat ≤ range.2

end CharSet

end TypedTree.Text
