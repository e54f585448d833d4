import PaperFolding.Access
import PaperFolding.Paper.Encoding

/-!
The words that scripts understand. Parameters take the tokens after them; commands act at once. The
tables give every word its name, its description and what it needs.
-/

namespace PaperFolding

inductive Category where
  | parameter
  | fold
  | file
  | document
  | terminal
deriving DecidableEq, Repr

namespace Category

def all : List Category := [parameter, fold, file, document, terminal]

def label : Category → String
  | parameter => "Parameter"
  | fold => "Fold"
  | file => "File"
  | document => "Export"
  | terminal => "Terminal"

def slug : Category → String
  | parameter => "parameter"
  | fold => "fold"
  | file => "file"
  | document => "export"
  | terminal => "terminal"

def ofSlug? (slug : String) : Option Category := all.find? fun category => category.slug = slug

end Category

structure Entry where
  name : String
  description : String
  category : Category
  access : Level
  needsPaper : Bool
deriving DecidableEq, Repr

inductive Parameter where
  | plane
  | planeThrough
  | angleBisector
  | planePoint
  | planeNormal
  | target
  | angle
  | paper
  | corner
  | locale
  | filename
  | title
  | camera
  | color
  | uncolor
deriving DecidableEq, Repr

namespace Parameter

def all : List Parameter :=
  [plane, planeThrough, angleBisector, planePoint, planeNormal, target, angle, paper, corner,
    locale, filename, title, camera, color, uncolor]

def name : Parameter → String
  | plane => "plane"
  | planeThrough => "planethrough"
  | angleBisector => "angle-bisector"
  | planePoint => "planepoint"
  | planeNormal => "planenormal"
  | target => "target"
  | angle => "angle"
  | paper => "paper"
  | corner => "corner"
  | locale => "locale"
  | filename => "filename"
  | title => "title"
  | camera => "camera"
  | color => "color"
  | uncolor => "uncolor"

def description : Parameter → String
  | plane => "Stage a plane from a point (3 coords, or 2 paper coords) and a normal."
  | planeThrough => "Stage the plane through three points."
  | angleBisector => "Stage the plane bisecting the angle p1-vertex-p3."
  | planePoint => "Stage only the plane point."
  | planeNormal => "Stage only the plane normal."
  | target => "Restrict the next fold or cut to the region containing this paper point."
  | angle => "Stage the rotation angle in whole degrees."
  | paper => "Stage a rectangle [x0 y0 x1 y1] or a preset: square, a4, hexagon, usd, huf."
  | corner => "Append one corner [x y] to a custom paper outline."
  | locale => "Set the presentation locale [language country]."
  | filename => "Set the file used by load, open, compile, textures and exports."
  | title => "Stage the document title for export-autopdf."
  | camera => "Set the camera direction, x axis and y axis."
  | color => "Set the paper color as one packed value or three channels."
  | uncolor => "Restore the default paper color."

def entry (parameter : Parameter) : Entry :=
  ⟨parameter.name, parameter.description, .parameter, .user, false⟩

def isAppearance : Parameter → Bool
  | color | uncolor | locale | filename | camera => true
  | _ => false

end Parameter

inductive Command where
  | new
  | rotate
  | reflect
  | cut
  | undo
  | redo
  | compile
  | load
  | reopen
  | loadTexture
  | unloadTexture
  | write (encoding : Encoding)
  | diagnose
  | elevate (request : Elevation)
deriving DecidableEq, Repr

namespace Command

def all : List Command :=
  [new, rotate, reflect, cut, undo, redo, compile, load, reopen, loadTexture, unloadTexture,
    write .mesh, write .instructions, write .animation, write .turntable, write .bundle,
    write .picture, write .archive, diagnose, elevate .root, elevate .dev]

def name : Command → String
  | new => "new"
  | rotate => "rotate"
  | reflect => "reflect"
  | cut => "cut"
  | undo => "undo"
  | redo => "redo"
  | compile => "compile"
  | load => "load"
  | reopen => "open"
  | loadTexture => "load-texture"
  | unloadTexture => "unload-texture"
  | write .mesh => "export-ctm"
  | write .instructions => "export-autopdf"
  | write .animation => "export-gif"
  | write .turntable => "export-revolving-gif"
  | write .bundle => "export-jar"
  | write .picture => "export-png"
  | write .archive => "export-ori"
  | diagnose => "diagnostics"
  | elevate .root => "root"
  | elevate .dev => "debug"

def description : Command → String
  | new => "Create paper from the staged preset or corners. Clears the history."
  | rotate => "Rotation fold along the staged plane by the staged angle."
  | reflect => "Reflection fold along the staged plane."
  | cut => "Cut the paper along the staged plane."
  | undo => "Undo the last fold, replaying the history when the model cannot."
  | redo => "Redo the last undone fold."
  | compile => "Run the script named by filename in a sandbox session."
  | load => "Replace the paper by running the script named by filename."
  | reopen => "Replace the paper from the native file named by filename."
  | loadTexture => "Use the opaque image named by filename as paper texture."
  | unloadTexture => "Drop the paper texture."
  | write .mesh => "Export a textured mesh."
  | write .instructions => "Export a folding-instructions document. Needs a title."
  | write .animation => "Export the folding sequence as a looping animation."
  | write .turntable => "Export an animation revolving around the model."
  | write .bundle => "Export a portable viewer archive."
  | write .picture => "Export a flat bitmap."
  | write .archive => "Export the native replayable file."
  | diagnose => "Dump vertices, polygons and corners to the transcript."
  | elevate .root => "Ask the operator for ROOT access."
  | elevate .dev => "Ask the operator for DEV access."

def category : Command → Category
  | new | rotate | reflect | cut | undo | redo => .fold
  | compile | load | reopen | loadTexture | unloadTexture => .file
  | write _ => .document
  | diagnose | elevate _ => .terminal

def access : Command → Level
  | compile | load | reopen => .root
  | diagnose => .dev
  | _ => .user

def needsPaper : Command → Bool
  | rotate | reflect | cut | undo | redo | write _ | diagnose => true
  | _ => false

def entry (command : Command) : Entry :=
  ⟨command.name, command.description, command.category, command.access, command.needsPaper⟩

end Command

inductive Keyword where
  | parameter (parameter : Parameter)
  | command (command : Command)
deriving DecidableEq, Repr

namespace Keyword

def all : List Keyword := Parameter.all.map parameter ++ Command.all.map command

def entry : Keyword → Entry
  | parameter word => word.entry
  | command word => word.entry

def name (keyword : Keyword) : String := keyword.entry.name

def ofWord? (word : String) : Option Keyword := all.find? fun keyword => keyword.name = word

theorem name_of_ofWord? {word : String} {keyword : Keyword} (found : ofWord? word = some keyword) :
    keyword.name = word := by
  simpa using List.find?_some found

/-- No two words share a name, so every word is found by its own. -/
theorem ofWord?_name (keyword : Keyword) : ofWord? keyword.name = some keyword := by
  rcases keyword with parameter | command
  · cases parameter <;> decide +kernel
  · cases command with
    | write encoding => cases encoding <;> decide +kernel
    | elevate request => cases request <;> decide +kernel
    | _ => decide +kernel

end Keyword

theorem Parameter.ofWord?_name (parameter : Parameter) :
    Keyword.ofWord? parameter.name = some (.parameter parameter) :=
  Keyword.ofWord?_name (.parameter parameter)

theorem Command.ofWord?_name (command : Command) :
    Keyword.ofWord? command.name = some (.command command) :=
  Keyword.ofWord?_name (.command command)

end PaperFolding
