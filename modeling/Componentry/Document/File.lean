import Componentry.FileTree
import Componentry.Yaml.Load

/-!
# Documents in files

A file holds a document as a text in UTF-8, with line breaks of any kind.
-/

namespace Componentry

/-- The text of a file, if its octets are one.  Every line break is a line feed. -/
def Text.ofOctets (octets : ByteArray) : Except Text.Defect (List Char) := do
  return Text.withLineFeeds (← Text.decode octets.data.toList)

/-- The document in a file. -/
def Document.load (t : FileTree) (p : Path) : Except Failure Document := do
  let octets ← t.read p
  match Text.ofOctets octets with
  | .ok text => Document.parse (String.ofList text) (some p.text)
  | .error defect =>
    throw <| .document
      { kind := .schema
        message :=
          s!"YSX Parse Error: File is not valid UTF-8 ({defect.kind.reason} at byte {defect.start})"
        path := some p.text
        hint := some "Save the file with UTF-8 encoding" }

end Componentry
