/-!
# Searching text

Prefixes, suffixes and occurrences of one text in another, and the replacement
of every occurrence.  Positions count characters.
-/

namespace DocQuery

namespace Text

def indexOf? (needle : List Char) : List Char → Option Nat
  | [] => if needle.isEmpty then some 0 else none
  | c :: rest =>
      if needle.isPrefixOf (c :: rest) then some 0
      else (indexOf? needle rest).map (· + 1)

def occurs (needle text : List Char) : Bool :=
  (indexOf? needle text).isSome

/-- The text with `replacement` before each of its characters and at its end. -/
def interleave (replacement : List Char) : List Char → List Char
  | [] => replacement
  | c :: rest => replacement ++ c :: interleave replacement rest

/--
Replaces occurrences of a non-empty needle from left to right.  The first
argument counts the characters of an occurrence that are still to be dropped.
-/
def replaceFrom (needle replacement : List Char) : Nat → List Char → List Char
  | _, [] => []
  | skip + 1, _ :: rest => replaceFrom needle replacement skip rest
  | 0, c :: rest =>
      if needle.isPrefixOf (c :: rest) then
        replacement ++ replaceFrom needle replacement (needle.length - 1) rest
      else c :: replaceFrom needle replacement 0 rest

/--
Replaces every occurrence of `needle`; the empty needle occurs before each
character and at the end.
-/
def replaceAll (needle replacement text : List Char) : List Char :=
  if needle.isEmpty then interleave replacement text
  else replaceFrom needle replacement 0 text

def repeated (count : Nat) (text : List Char) : List Char :=
  if text.isEmpty then [] else (List.replicate count text).flatten

end Text

end DocQuery
