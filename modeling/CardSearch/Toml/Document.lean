import CardSearch.Toml.Line

/-
  TOML documents from their lines.

  A pair belongs to the table that the last header opened, and to the root before any header.  A
  text is a document only if every line can be added to those before it.
-/

namespace CardSearch.Toml

/-- What has been read: the root, and the key of the table that takes the next pair. -/
structure Reading where
  root : Section
  current : Key

/-- A reading with one more line. -/
def Reading.add (r : Reading) : Line → Option Reading
  | .pair key v => do return { r with root := ← r.root.within false (Section.put key v) r.current }
  | .table key => do return ⟨← r.root.openTable key, key⟩
  | .tableOfList key => do return ⟨← r.root.openItem key, key⟩

/-- Reads a document. -/
def read? (text : List Char) : Option Toml := do
  let lines ← lines? text
  let reading ← lines.foldlM Reading.add ⟨.empty .opened, []⟩
  return reading.root.toToml

end CardSearch.Toml
