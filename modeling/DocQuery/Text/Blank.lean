import DocQuery.Text.Span

/-!
# Blank characters

The characters with the `White_Space` property.  They separate tokens of a query
and are dropped around the name in a parameter argument.
-/

namespace DocQuery

namespace Text

/-- Code points with the `White_Space` property. -/
def blankSpans : Spans :=
  [(9, 13), (32, 32), (133, 133), (160, 160), (5760, 5760), (8192, 8202), (8232, 8233),
   (8239, 8239), (8287, 8287), (12288, 12288)]

def isBlank (c : Char) : Bool :=
  blankSpans.holds c

def trimBlanks (cs : List Char) : List Char :=
  ((cs.dropWhile isBlank).reverse.dropWhile isBlank).reverse

/-- The text without the byte order mark that may stand at its front. -/
def withoutMark : List Char → List Char
  | [] => []
  | c :: rest => if c.toNat = 0xFEFF then rest else c :: rest

end Text

end DocQuery
