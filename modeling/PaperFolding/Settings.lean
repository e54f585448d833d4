import PaperFolding.Access
import PaperFolding.Fault
import PaperFolding.Files.Tree
import PaperFolding.Json.Printer
import PaperFolding.Json.Reader
import PaperFolding.Paper.Color

/-!
Settings of a session, and the file they are kept in. Any field may be left out of the file, and
fields it does not know are skipped.
-/

namespace PaperFolding

structure Settings where
  initialWait : UInt64
  extendedWait : UInt64
  access : Level
  frameSize : UInt32
  initialColor : Color
  resetColor : Color
deriving DecidableEq, Repr

namespace Settings

def standard : Settings := ⟨10, 30, .user, 250, .blue, .navy⟩

def json (settings : Settings) : Json :=
  .record
    [("initial_wait_secs", .natural settings.initialWait.toNat),
      ("extended_wait_secs", .natural settings.extendedWait.toNat),
      ("default_access", .string settings.access.slug),
      ("export_size", .natural settings.frameSize.toNat),
      ("initial_paper_color", .natural settings.initialColor.packed.toNat),
      ("reset_paper_color", .natural settings.resetColor.packed.toNat)]

def color? (value : Json) : Option Color := value.word32?.map Color.mk

/-- A level by its name, which may also stand as the one field of an object that holds null. -/
def level? : Json → Option Level
  | .text (some name) => Level.ofSlug? name
  | .object [(some name, .null)] => Level.ofSlug? name
  | _ => none

def reading {α : Type} (read : Json → Option α) (standard : α) : Option Json → Option α
  | none => some standard
  | some value => read value

def ofParts? (initialWait extendedWait access frameSize initialColor resetColor : Option Json) :
    Option Settings := do
  return ⟨← reading Json.word64? standard.initialWait initialWait,
    ← reading Json.word64? standard.extendedWait extendedWait,
    ← reading level? standard.access access,
    ← reading Json.word32? standard.frameSize frameSize,
    ← reading color? standard.initialColor initialColor,
    ← reading color? standard.resetColor resetColor⟩

/-- Settings by name, or in order without their names. -/
def ofJson? : Json → Option Settings
  | .object fields =>
      if Json.named fields then do
        ofParts? (← Json.field? "initial_wait_secs" fields)
          (← Json.field? "extended_wait_secs" fields) (← Json.field? "default_access" fields)
          (← Json.field? "export_size" fields) (← Json.field? "initial_paper_color" fields)
          (← Json.field? "reset_paper_color" fields)
      else none
  | .list items =>
      if items.length ≤ 6 then
        ofParts? items[0]? items[1]? items[2]? items[3]? items[4]? items[5]?
      else none
  | _ => none

def write (settings : Settings) : String := Json.write settings.json

def read? (text : String) : Option Settings := do ofJson? (← Json.read? text)

def load (files : FileTree) (directory : String) : Except Fault (Option Settings) :=
  let path := Path.settings directory
  if files.has path then
    match files.readText path with
    | .error error => .error (.file (.file error))
    | .ok text =>
        match read? text with
        | none => .error .settings
        | some settings => .ok (some settings)
  else .ok none

def save (files : FileTree) (directory : String) (settings : Settings) :
    Except Fault Unit × FileTree :=
  match files.makeDirectory directory with
  | .error (error, left) => (.error (.file (.file error)), left)
  | .ok files =>
      match files.replace (Path.settings directory) settings.write.toUTF8 with
      | (.error error, files) => (.error (.file (.file error)), files)
      | (.ok (), files) => (.ok (), files)

end Settings

end PaperFolding
