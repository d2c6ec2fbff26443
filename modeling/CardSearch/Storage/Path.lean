import CardSearch.Text.Piece

/-
  Paths as text.

  A path is cut at its slashes into segments.  An empty segment or a single dot inside a path stands
  for nothing, so two paths that differ in such fillers have the same last name and the same parent;
  a dot at the very front is kept, and so is an empty first segment, which is the root.

  `parent?` and `withExtension` work on the text alone and never ask whether anything is there.
-/

namespace CardSearch.Path

/-- The segments of a path, fillers included. -/
def segments (path : List Char) : List (List Char) := Text.splitBy (· == '/') path

/-- A segment that stands for nothing inside a path. -/
def isFiller (segment : List Char) : Bool := segment == [] || segment == ['.']

/-- Segments without the fillers at the end; the first segment stays. -/
def settled : List (List Char) → List (List Char)
  | [] => []
  | first :: rest => first :: (rest.reverse.dropWhile isFiller).reverse

/-- The text of segments.  An empty first segment alone is the root. -/
def ofSegments (parts : List (List Char)) : List Char :=
  if parts == [[]] then ['/'] else Text.join ['/'] parts

/-- Whether a path starts at the root. -/
def isAbsolute (path : List Char) : Bool := path.head? == some '/'

/-- The path without its last name.  The root and the empty path have no parent. -/
def parent? (path : List Char) : Option (List Char) :=
  match settled (segments path) with
  | [[]] => none
  | [_] => some []
  | parts => some (ofSegments (settled parts.dropLast))

/-- The last name of a path, if it ends in one. -/
def fileName? (path : List Char) : Option (List Char) :=
  ((settled (segments path)).getLast?).filter fun name => !isFiller name && name != ['.', '.']

/-- A name without its extension: what stands before the last dot, unless that dot comes first. -/
def stem (name : List Char) : List Char :=
  match (name.reverse.dropWhile (· != '.')).reverse with
  | [] => name
  | [_] => name
  | front => front.dropLast

/-- The extension of a name: what stands after the dot that ends its stem. -/
def extension (name : List Char) : List Char := (name.drop (stem name).length).drop 1

/-- The path shortened at its end by the extension of its last name. -/
def withoutExtension (path : List Char) : List Char :=
  match fileName? path with
  | none => path
  | some name => path.take (path.length - (extension name).length)

/-- The path with an extension added to the stem of its last name; a path without a name stays. -/
def addExtension (extension : List Char) (path : List Char) : List Char :=
  match fileName? path with
  | none => path
  | some name =>
    Text.join ['/']
      ((settled (segments path)).dropLast ++ [stem name ++ '.' :: extension])

/-- The path with the extension of its last name replaced, or added; a path without a name stays.
    A name of two dots and an extension is no name once the extension is gone, so it gets no new
    one. -/
def withExtension (extension : List Char) (path : List Char) : List Char :=
  addExtension extension (withoutExtension path)

/-- A path inside another; an absolute path stays as it is. -/
def under (folder path : List Char) : List Char :=
  if isAbsolute path || folder.isEmpty then path
  else if folder.getLast? == some '/' then folder ++ path
  else folder ++ '/' :: path

end CardSearch.Path
