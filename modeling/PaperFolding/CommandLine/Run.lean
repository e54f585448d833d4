import PaperFolding.CommandLine.Arguments
import PaperFolding.Session.Run
import PaperFolding.Vocabulary.Catalog

/-!
The program behind the command line, as a function from arguments, input and files to what it writes.
The operator answers on the lines of the input.
-/

namespace PaperFolding.CommandLine

structure Page where
  output : String
  errors : String
  files : FileTree

structure Outcome where
  code : Nat
  output : String
  errors : String
  files : FileTree
  /-- The point at which more input was wanted than there was, if there is one. With more input the
  program begins in the same way. -/
  waiting : Option Page

structure Console where
  output : String
  errors : String
  files : FileTree
  waiting : Option Page

namespace Console

def ofFiles (files : FileTree) : Console := ⟨"", "", files, none⟩

def print (console : Console) (text : String) : Console :=
  { console with output := console.output ++ text }

def printLine (console : Console) (line : String) : Console := console.print (line ++ "\n")

def printLines (console : Console) (lines : List String) : Console :=
  lines.foldl printLine console

def warn (console : Console) (text : String) : Console :=
  { console with errors := console.errors ++ text }

def fail (console : Console) (message : String) : Console :=
  console.warn ("Error: " ++ message ++ "\n")

def await (console : Console) (files : FileTree) : Console :=
  { console with
    waiting := console.waiting.or (some ⟨console.output, console.errors, files⟩) }

def exit (console : Console) (code : Nat) : Outcome :=
  ⟨code, console.output, console.errors, console.files, console.waiting⟩

end Console

def programVersion : String := "foldscript-cli 0.1.0"

def usage : String :=
  "Usage: foldscript-cli [--config DIRECTORY] [--json] run|repl|tokens|keywords ...\n"

def linesOf (text : String) : List String :=
  let pieces := Text.pieces (· = '\n') text.toList
  let complete := if pieces.getLast? = some [] then pieces.dropLast else pieces
  complete.map String.ofList

def agrees (line : String) : Bool :=
  let word := String.ofList (Text.trim line.toList)
  word = "y" || word = "Y" || word = "yes"

def openSession (settings : Settings) (access : Option Level) (files : FileTree) : Session :=
  .ofSettings { settings with access := access.getD settings.access } .plain
    (.quiet files .absent)

def executeWith (session : Session) (statement : String) (lines : List String) :
    Except Fault Unit × Session × List String × List Question :=
  let operator : Operator := ⟨lines.map agrees, []⟩
  let (result, after) := (Session.executeSupervised statement).on
    { session with world := { session.world with operator } }
  let asked := after.world.operator.asked
  (result, { after with world := { after.world with operator := .absent } },
    lines.drop asked.length, asked)

def questionText : Question → String
  | .elevation request => request.question ++ " [y/N] "
  | .timeout extended =>
      (if extended then "The script is still running after another while. Stop it?"
        else "The script has been running for a while. Stop it?") ++ " [y/N] "

def put (console : Console) (questions : List Question) : Console :=
  questions.foldl (fun console question => console.warn (questionText question)) console

def ask (console : Console) (files : FileTree) (answers : Nat) (questions : List Question) :
    Console :=
  if questions.length ≤ answers then put console questions
  else
    put ((put console (questions.take (answers + 1))).await files) (questions.drop (answers + 1))

def reportJson (result : Except Fault Unit) (history transcript : List String) : Json :=
  let (fault, ok) : Json × Bool :=
    match result with
    | .ok () => (.null, true)
    | .error fault => (fault.json, false)
  .record
    [("error", fault), ("history", .list (history.map Json.string)), ("ok", .bool ok),
      ("transcript", .list (transcript.map Json.string))]

def report (console : Console) (json : Bool) (result : Except Fault Unit) (session : Session) :
    Console × Session :=
  let (transcript, session) := session.drainTranscript
  let console :=
    if json then console.printLine (Json.write (reportJson result session.history transcript))
    else
      let told := console.printLines transcript
      match result with
      | .ok () => told
      | .error fault => told.fail fault.message
  (console, session)

def succeeded (result : Except Fault Unit) : Bool :=
  match result with
  | .ok () => true
  | .error _ => false

def runFile (settings : Settings) (console : Console) (json : Bool) (lines : List String)
    (file : String) (access : Option Level) (wait : Option UInt64) (history : Option String) :
    Outcome :=
  match console.files.readText file with
  | .error error => (console.fail (file ++ ": " ++ error.message)).exit 1
  | .ok source =>
      let settings := { settings with initialWait := wait.getD settings.initialWait }
      let session := openSession settings access console.files
      let (result, session, _, questions) := executeWith session source lines
      let asked := ask console console.files lines.length questions
      let (console, session) := report asked json result session
      let code := if succeeded result then 0 else 1
      match history with
      | none => { console with files := session.world.files }.exit code
      | some path =>
          let (saved, session) := (Session.saveHistory path).on session
          let console := { console with files := session.world.files }
          match saved with
          | .ok () => console.exit code
          | .error fault => (console.fail fault.message).exit 1

def save (console : Console) (session : Session) (path : String) : Console × Session :=
  let path := if path.isEmpty then Path.history "." "session" else path
  let (saved, session) := (Session.saveHistory path).on session
  match saved with
  | .ok () => (console.printLine ("saved " ++ path), session)
  | .error fault => (console.fail fault.message, session)

def splitLine (line : String) : String × String :=
  let trimmed := Text.trim line.toList
  (String.ofList (trimmed.takeWhile fun c => !(c = ' ')),
    String.ofList (Text.trim ((trimmed.dropWhile fun c => !(c = ' ')).drop 1)))

/-- Obeys line after line until the input ends or says so. A statement may take lines after it as
answers, so `fuel` is the number of lines there are. -/
def converse (json : Bool) : Nat → Console → Session → List String → Console × Session
  | 0, console, session, _ =>
      ((console.print (session.access.label ++ "> ")).await session.world.files, session)
  | fuel + 1, console, session, lines =>
      let console := console.print (session.access.label ++ "> ")
      match lines with
      | [] => (console.await session.world.files, session)
      | line :: lines =>
          match splitLine line with
          | ("", _) => converse json fuel console session lines
          | (":quit", _) => (console, session)
          | (":history", _) =>
              converse json fuel (console.printLines session.history) session lines
          | (":reset", _) => converse json fuel console session.resetHistory lines
          | (":save", path) =>
              let (console, session) := save console session path
              converse json fuel console session lines
          | _ =>
              let statement := String.ofList (Text.trim line.toList)
              let (result, after, rest, questions) := executeWith session statement lines
              let asked := ask console session.world.files lines.length questions
              let (console, session) := report asked json result after
              converse json fuel console session rest

def tokens (console : Console) (json : Bool) (file : String) : Outcome :=
  match console.files.readText file with
  | .error error => (console.fail (file ++ ": " ++ error.message)).exit 1
  | .ok source =>
      let tokens := Script.tokens source
      if json then
        (console.printLine (Json.write (.list (tokens.map Json.string)))).exit 0
      else (console.printLines tokens).exit 0

def padded (width : Nat) (text : String) : String :=
  text ++ String.ofList (List.replicate (width - text.length) ' ')

def entryLine (entry : Entry) : String :=
  "  " ++ padded 22 entry.name ++ " " ++ padded 5 entry.access.label ++ " " ++ entry.description

def catalogLines : List String :=
  Category.all.flatMap fun category =>
    (category.slug ++ ":") :: (Catalog.ofCategory category).map entryLine

def keywords (console : Console) (json : Bool) (word : Option String) : Outcome :=
  match word with
  | some word =>
      match Catalog.describe? word with
      | some text => (console.printLine text).exit 0
      | none => (console.fail ("unknown keyword `" ++ word ++ "`")).exit 1
  | none =>
      if json then
        (console.printLine (Json.write (.list (Catalog.entries.map Catalog.json)))).exit 0
      else (console.printLines catalogLines).exit 0

def settingsFrom (files : FileTree) (config : Option String) : Except Fault Settings :=
  match config with
  | none => .ok .standard
  | some directory => (Settings.load files directory).map fun found => found.getD .standard

def perform (invocation : Invocation) (input : String) (files : FileTree) : Outcome :=
  let console := Console.ofFiles files
  match settingsFrom files invocation.config with
  | .error fault => (console.fail fault.message).exit 1
  | .ok settings =>
      let lines := linesOf input
      match invocation.task with
      | .run file access wait history =>
          runFile settings console invocation.json lines file access wait history
      | .converse access =>
          let (console, session) := converse invocation.json lines.length console
            (openSession settings access files) lines
          { console with files := session.world.files }.exit 0
      | .tokens file => tokens console invocation.json file
      | .keywords word => keywords console invocation.json word

def run (arguments : List String) (input : String) (files : FileTree) : Outcome :=
  let console := Console.ofFiles files
  match invocation arguments with
  | .ok invocation => perform invocation input files
  | .error .version => (console.printLine programVersion).exit 0
  | .error .help => (console.print usage).exit 0
  | .error .misuse => (console.warn usage).exit 2

end PaperFolding.CommandLine
