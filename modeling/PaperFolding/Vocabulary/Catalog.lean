import PaperFolding.Vocabulary.Keyword
import PaperFolding.Json.Value

/-!
The catalog of words as it is shown to readers.
-/

namespace PaperFolding.Catalog

def entries : List Entry := Keyword.all.map Keyword.entry

def ofCategory (category : Category) : List Entry :=
  entries.filter fun entry => entry.category = category

def describe? (word : String) : Option String :=
  (Keyword.ofWord? word).map fun keyword =>
    let entry := keyword.entry
    entry.name ++ " (" ++ entry.category.slug ++ "): " ++ entry.description ++
      (if Level.user < entry.access then " Requires " ++ entry.access.label ++ "." else "")

def json (entry : Entry) : Json :=
  .record
    [("name", .string entry.name), ("description", .string entry.description),
      ("category", .string entry.category.label), ("access", .string entry.access.slug),
      ("needs_model", .bool entry.needsPaper)]

end PaperFolding.Catalog
