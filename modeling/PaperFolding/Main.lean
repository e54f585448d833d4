import PaperFolding.CommandLine.Run

/-!
The command line. The program itself is a function of its arguments, its input and the files below the
working directory; here it is given more and more input until it wants no more, and what it wrote is
shown as it goes.
-/

namespace PaperFolding.Terminal

def pathOf (place : Place) : String := "/" ++ String.intercalate "/" place.reverse

/-- The files and directories below a place. What cannot be read is left out, and so are directories
that are linked from elsewhere. -/
partial def gather (place : Place) : IO (List (Place × Node)) := do
  try
    let found ← IO.FS.realPath (pathOf place)
    if ← found.isDir then
      if found.toString ≠ pathOf place then return []
      let below ← (← found.readDir).toList.mapM fun entry => gather (entry.fileName :: place)
      return (place, .directory) :: below.flatten
    else return [(place, .file (← IO.FS.readBinFile (pathOf place)))]
  catch _ => return []

def store (before after : FileTree) : IO Unit := do
  for (place, node) in after.nodes.reverse do
    match before.node? place, node with
    | some .directory, .directory => pure ()
    | _, .directory => IO.FS.createDirAll (pathOf place)
    | some (.file content), .file found =>
        if content.data ≠ found.data then IO.FS.writeBinFile (pathOf place) found
    | _, .file content => IO.FS.writeBinFile (pathOf place) content
  for (place, _) in before.nodes do
    if (after.node? place).isNone then IO.FS.removeFile (pathOf place)

def display (stream : IO.FS.Stream) (shown : Nat) (text : String) : IO Nat := do
  stream.putStr (String.ofList (text.toList.drop shown))
  stream.flush
  return text.length

partial def interact (arguments : List String) (files stored : FileTree) (input : String)
    (shown : Nat × Nat) : IO UInt32 := do
  let outcome := CommandLine.run arguments input files
  let (page, wanting) : CommandLine.Page × Bool :=
    match outcome.waiting with
    | some page => (page, true)
    | none => (⟨outcome.output, outcome.errors, outcome.files⟩, false)
  let output ← display (← IO.getStdout) shown.1 page.output
  let errors ← display (← IO.getStderr) shown.2 page.errors
  store stored page.files
  let line ← if wanting then (← IO.getStdin).getLine else pure ""
  if line.isEmpty then
    let _ ← display (← IO.getStdout) output outcome.output
    let _ ← display (← IO.getStderr) errors outcome.errors
    store page.files outcome.files
    return UInt32.ofNat outcome.code
  else interact arguments files page.files (input ++ line) (output, errors)

end PaperFolding.Terminal

def main (arguments : List String) : IO UInt32 := do
  let directory ← IO.currentDir
  let home := (PaperFolding.Path.parts directory.toString).reverse
  let nodes ← PaperFolding.Terminal.gather home
  let way := (PaperFolding.FileTree.empty home.tail).nodes
  let files : PaperFolding.FileTree := ⟨home, nodes ++ way, .willing⟩
  PaperFolding.Terminal.interact arguments files files "" (0, 0)
