/-! Blank characters, the words of a line between them, and lines without them at their ends. -/

namespace Synod.Text

/-- The characters with the property White_Space. -/
def isBlank (c : Char) : Bool :=
  let n := c.toNat
  (9 ≤ n && n ≤ 13) || n == 0x20 || n == 0x85 || n == 0xA0 || n == 0x1680 ||
    (0x2000 ≤ n && n ≤ 0x200A) || n == 0x2028 || n == 0x2029 || n == 0x202F || n == 0x205F ||
    n == 0x3000

/-- The word read so far stands in front, its last character first. -/
def splitWords (word : List Char) : List Char → List (List Char)
  | [] => if word.isEmpty then [] else [word.reverse]
  | c :: cs =>
    if isBlank c then
      if word.isEmpty then splitWords [] cs else word.reverse :: splitWords [] cs
    else splitWords (c :: word) cs

/-- The maximal runs of characters that are not blank. -/
def words (line : String) : List String :=
  (splitWords [] line.toList).map String.ofList

def trim (line : String) : String :=
  String.ofList ((line.toList.dropWhile isBlank).reverse.dropWhile isBlank).reverse

end Synod.Text
