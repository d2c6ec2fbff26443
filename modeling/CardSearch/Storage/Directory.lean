import CardSearch.Number.Digits
import CardSearch.Storage.Path
import CardSearch.Text.Blank

/-
  A working directory: folders, files and symbolic links, by place.

  A place is the list of names that lead to what stands there.  The working directory itself and the
  root of absolute paths are always there.  A file is known by its number, under which the directory
  keeps its bytes; files at several places with one number are one file with several names.

  A path is looked up name by name (`resolve`).  Every name but the last must be a folder, and a link
  puts the names of its target before those that are left.  `walk` follows a link in the last name
  too; `entry` does not, so it gives the place that is made, moved or replaced.

  An operation succeeds as a whole or fails with a `Fault` and changes nothing.  Only `makeFolders`
  may stop halfway: the folders made before its fault stay.
-/

namespace CardSearch

/-- Why an operation on files fails. -/
inductive Fault where
  | missing
  | busy
  | alreadyThere
  | notFolder
  | isFolder
  | nameTooLong
  | tooManyLinks
  | nulInName
  | notText
  /-- Any other fault of the system, by its wording. -/
  | other (wording : String)
  deriving DecidableEq, Repr

/-- The wording of a fault. -/
def Fault.message : Fault → String
  | .missing => "No such file or directory (os error 2)"
  | .busy => "Device or resource busy (os error 16)"
  | .alreadyThere => "File exists (os error 17)"
  | .notFolder => "Not a directory (os error 20)"
  | .isFolder => "Is a directory (os error 21)"
  | .nameTooLong => "File name too long (os error 36)"
  | .tooManyLinks => "Too many levels of symbolic links (os error 40)"
  | .nulInName => "file name contained an unexpected NUL byte"
  | .notText => "stream did not contain valid UTF-8"
  | .other wording => wording

/-- The names that lead from the working directory to what stands there.  Absolute places begin with
    `/`, which is no name. -/
abbrev Place := List String

/-- What stands at a place. -/
inductive Content where
  | folder
  | file (number : Nat)
  /-- A symbolic link, with the path it was given. -/
  | link (target : String)
  deriving DecidableEq, Repr

/-- The contents of a working directory, and the bytes of the files by number. -/
structure Directory where
  entries : List (Place × Content) := []
  files : List (Nat × ByteArray) := []

namespace Directory

/-- The place of absolute paths. -/
def root : Place := ["/"]

/-- What stands at a place. -/
def at? (d : Directory) (place : Place) : Option Content :=
  if place == [] || place == root then some .folder else d.entries.lookup place

/-- The directory without what stands at a place. -/
def erase (d : Directory) (place : Place) : Directory :=
  { d with entries := d.entries.filter (·.1 != place) }

/-- The directory with a new content at a place. -/
def put (d : Directory) (place : Place) (content : Content) : Directory :=
  { d with entries := (place, content) :: (d.erase place).entries }

/-! ## Files -/

/-- The bytes of a file, by its number. -/
def bytesOf (d : Directory) (number : Nat) : ByteArray := (d.files.lookup number).getD .empty

/-- The bytes of the file at a place. -/
def bytes? (d : Directory) (place : Place) : Option ByteArray :=
  match d.at? place with
  | some (.file number) => some (d.bytesOf number)
  | _ => none

/-- The directory with new bytes in a file. -/
def fill (d : Directory) (number : Nat) (bytes : ByteArray) : Directory :=
  { d with files := (number, bytes) :: d.files.filter (·.1 != number) }

/-- A number above those of all files. -/
def fresh (d : Directory) : Nat :=
  d.entries.foldr (fun entry above =>
    match entry.2 with
    | .file number => max above (number + 1)
    | _ => above) 0

/-- The number of the file at a place, or of a new one. -/
def numberFor (d : Directory) (place : Place) : Nat :=
  match d.at? place with
  | some (.file number) => number
  | _ => d.fresh

/-- The directory with bytes in the file at a place, which may be new. -/
def store (d : Directory) (place : Place) (bytes : ByteArray) : Directory :=
  (d.put place (.file (d.numberFor place))).fill (d.numberFor place) bytes

/-- Whether two places are names of one file. -/
def sameFile (d : Directory) (place other : Place) : Bool :=
  match d.at? place, d.at? other with
  | some (.file number), some (.file same) => number == same
  | _, _ => false

/-! ## Resolving paths -/

/-- The longest name, in bytes. -/
def maxName : Nat := 255

/-- The longest path, in bytes. -/
def maxPath : Nat := 4095

/-- How many links are followed in one lookup. -/
def maxLinks : Nat := 40

/-- One step from a place that must be a folder. -/
def step (d : Directory) (place : Place) (name : List Char) : Except Fault Place :=
  match d.at? place with
  | none => throw .missing
  | some .folder =>
    if name == ['.'] then return place
    else if name == ['.', '.'] then
      return if place == [] || place == root then root else place.dropLast
    else if Text.byteLength name > maxName then throw .nameTooLong
    else return place ++ [String.ofList name]
  | some _ => throw .notFolder

/-- The names of a path. -/
def names (path : List Char) : List (List Char) :=
  (Path.segments path).filter fun name => !name.isEmpty

/-- Whether a path ends with a slash, and so can only be a folder. -/
def wantsFolder (path : List Char) : Bool := path.getLast? == some '/'

/-- The names that a link stands for; the last dot is for a target that can only be a folder. -/
def linkNames (target : String) : List (List Char) :=
  names target.toList ++ if wantsFolder target.toList then [['.']] else []

/-- Where the names of a path start, seen from a place. -/
def base (place : Place) (path : List Char) : Place := if Path.isAbsolute path then root else place

/-- The course of a lookup. -/
structure Lookup where
  /-- The place where it ends. -/
  place : Place
  /-- How many more links it could follow there. -/
  links : Nat
  /-- The places it came to, in order. -/
  trail : List Place := []
  /-- The names that it did not come to. -/
  left : List (List Char) := []
  /-- What stopped it. -/
  fault : Option Fault := none

namespace Lookup

/-- A lookup that came to a place before. -/
def via (place : Place) (l : Lookup) : Lookup := { l with trail := place :: l.trail }

/-- The place that a lookup leads to; nothing need stand there. -/
def result (l : Lookup) : Except Fault Place :=
  match l.fault with
  | none => return l.place
  | some fault => throw fault

end Lookup

/-- Looks up names from a place up to the first link, and hands over to `jump` what is left then. -/
def along (d : Directory) (links : Nat) (jump : Place → List (List Char) → Lookup) (place : Place) :
    List (List Char) → Lookup
  | [] => { place, links }
  | name :: rest =>
    match d.step place name with
    | .error fault => { place, links, left := name :: rest, fault := some fault }
    | .ok next =>
      .via next <| match d.at? next with
        | some (.link target) => jump (base place target.toList) (linkNames target ++ rest)
        | _ => d.along links jump next rest

/-- Looks up names from a place and follows no more than so many links. -/
def resolve (d : Directory) : Nat → Place → List (List Char) → Lookup
  | 0 => d.along 0 fun place left => { place, links := 0, left, fault := some .tooManyLinks }
  | links + 1 => d.along (links + 1) (d.resolve links)

/-- What is wrong with a path before its first name is looked up. -/
def pathFault? (path : List Char) : Option Fault :=
  if path.contains '\x00' then some .nulInName
  else if path.isEmpty then some .missing
  else if Text.byteLength path > maxPath then some .nameTooLong
  else none

/-- Looks up names from where a path starts. -/
def follow (d : Directory) (path : List Char) (names : List (List Char)) : Lookup :=
  match pathFault? path with
  | some fault => { place := base [] path, links := maxLinks, left := names, fault := some fault }
  | none => d.resolve maxLinks (base [] path) names

/-- Looks up a path. -/
def lookup (d : Directory) (path : List Char) : Lookup := d.follow path (names path)

/-- The place that a path leads to. -/
def walk (d : Directory) (path : List Char) : Except Fault Place := (d.lookup path).result

/-- The folder in which the last name of a path is looked up. -/
def walkToLast (d : Directory) (path : List Char) : Except Fault Place :=
  (d.follow path ((names path).dropLast ++ [['.']])).result

/-- The place of the last name of a path, where a link may stand. -/
def entry (d : Directory) (path : List Char) : Except Fault Place := do
  let folder ← (d.follow path (names path).dropLast).result
  match (names path).getLast? with
  | none => return folder
  | some name => d.step folder name

/-- Whether the last name of a path is one of the two that stand for folders. -/
def endsInDots (path : List Char) : Bool :=
  match (names path).getLast? with
  | none => true
  | some name => name == ['.'] || name == ['.', '.']

/-! ## Operations -/

/-- Whether something stands where a path leads. -/
def has (d : Directory) (path : List Char) : Bool :=
  match d.walk path with
  | .error _ => false
  | .ok place =>
    match d.at? place with
    | some .folder => true
    | some (.file _) => !wantsFolder path
    | _ => false

/-- Whether a path leads to a folder. -/
def hasFolder (d : Directory) (path : List Char) : Bool :=
  match d.walk path with
  | .error _ => false
  | .ok place => d.at? place == some .folder

/-- The bytes of a file.  No lookup ends at a link. -/
def readBytes (d : Directory) (path : List Char) : Except Fault ByteArray := do
  let place ← d.walk path
  match d.at? place with
  | some (.file number) => if wantsFolder path then throw .notFolder else return d.bytesOf number
  | some .folder => throw .isFolder
  | _ => throw .missing

/-- The text of a file. -/
def read (d : Directory) (path : List Char) : Except Fault String := do
  match String.fromUTF8? (← d.readBytes path) with
  | none => throw .notText
  | some text => return text

/-- Writes a file, which may be new.  Where the path asks for a folder its last name is not looked
    at. -/
def write (d : Directory) (path : List Char) (bytes : ByteArray) : Except Fault Directory := do
  if wantsFolder path then
    let _ ← d.walkToLast path
    throw .isFolder
  else
    let place ← d.walk path
    if d.at? place == some .folder then throw .isFolder
    else return d.store place bytes

/-- Makes one new folder. -/
def makeFolder (d : Directory) (path : List Char) : Except Fault Directory := do
  let place ← d.entry path
  if (d.at? place).isSome then throw .alreadyThere
  else return d.put place .folder

/-- Makes a folder unless it is there. -/
def ensureFolder (d : Directory) (path : List Char) : Except Fault Directory :=
  match d.makeFolder path with
  | .ok made => .ok made
  | .error fault => if d.hasFolder path then .ok d else .error fault

/-- The directory after an operation that succeeds as a whole or changes nothing, with the fault
    that stopped it. -/
def after (d : Directory) : Except Fault Directory → Directory × Option Fault
  | .ok changed => (changed, none)
  | .error fault => (d, some fault)

/-- Makes a folder and the missing ones on the way to it, given the path with its parents, the
    longest first.  A parent is only made when something is missing. -/
def ensureChain (d : Directory) : List (List Char) → Directory × Option Fault
  | [] => (d, none)
  | path :: parents =>
    match d.ensureFolder path with
    | .error .missing =>
      match d.ensureChain parents with
      | (made, none) => made.after (made.ensureFolder path)
      | stopped => stopped
    | result => d.after result

/-- A path with its parents, the longest first, as far as they are not empty; at most `fuel` of
    them. -/
def ancestors (path : List Char) : Nat → List (List Char)
  | 0 => []
  | fuel + 1 =>
    if path.isEmpty then []
    else path :: match Path.parent? path with
      | none => []
      | some parent => ancestors parent fuel

/-- Makes a folder with all folders on the way to it. -/
def makeFolders (d : Directory) (path : List Char) : Directory × Option Fault :=
  d.ensureChain (ancestors path path.length)

/-- Moves a file or a link to another path, replacing what stands there unless that is a folder.  Of
    two names of one file none is moved. -/
def move (d : Directory) (source target : List Char) : Except Fault Directory := do
  let origin ← d.entry source
  let place ← d.entry target
  if endsInDots source || endsInDots target then throw .busy
  else match d.at? origin with
    | none => throw .missing
    | some .folder => throw .isFolder
    | some content =>
      if wantsFolder source || wantsFolder target then throw .notFolder
      else if d.at? place == some .folder then throw .isFolder
      else if origin == place || d.sameFile origin place then return d
      else return (d.erase origin).put place content

/-! ## First facts -/

/-- What is put at a place stands there, unless the place is the root or the folder itself. -/
theorem at?_put_self {d : Directory} {place : Place} {content : Content}
    (h : ¬ (place == [] || place == root) = true) :
    (d.put place content).at? place = some content := by
  simp only [at?, h]
  simp [put]

/-- To take one place away changes no other. -/
theorem lookup_erase {entries : List (Place × Content)} {place other : Place}
    (h : other ≠ place) :
    (entries.filter (·.1 != place)).lookup other = entries.lookup other := by
  induction entries with
  | nil => rfl
  | cons entry rest ih =>
    obtain ⟨here, content⟩ := entry
    by_cases same : here = place
    · have apart : (other == place) = false := by simp [h]
      simp [List.lookup_cons, apart, same, ih]
    · simp [List.lookup_cons, same, ih]

theorem at?_erase_of_ne {d : Directory} {place other : Place} (h : other ≠ place) :
    (d.erase place).at? other = d.at? other := by
  simp [at?, erase, lookup_erase h]

theorem at?_put_of_ne {d : Directory} {place other : Place} {content : Content}
    (h : other ≠ place) : (d.put place content).at? other = d.at? other := by
  have : (other == place) = false := by simp [h]
  simp [at?, put, erase, List.lookup_cons, this, lookup_erase h]

end Directory

end CardSearch
