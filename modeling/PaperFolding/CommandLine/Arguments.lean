import PaperFolding.Access
import PaperFolding.Text.Integer

/-!
What a command line asks for. Options may stand before and after the words they go with; those of the
program itself may stand before or after the task.
-/

namespace PaperFolding.CommandLine

inductive Task where
  | run (file : String) (access : Option Level) (wait : Option UInt64) (history : Option String)
  | converse (access : Option Level)
  | tokens (file : String)
  | keywords (word : Option String)
deriving DecidableEq, Repr

structure Invocation where
  config : Option String
  json : Bool
  task : Task
deriving DecidableEq, Repr

inductive Halt where
  | misuse
  | help
  | version
deriving DecidableEq, Repr

inductive Choosable where
  | config
  | json
  | access
  | wait
  | history
deriving DecidableEq, Repr

structure Given where
  config : Option String
  json : Bool
  access : Option Level
  wait : Option UInt64
  history : Option String
  words : List String
deriving DecidableEq, Repr

def Given.none : Given := ⟨.none, false, .none, .none, .none, []⟩

structure Form where
  options : List Choosable
  words : Nat
deriving DecidableEq, Repr

def Choosable.ofName? (name : String) : Option Choosable :=
  [("--config", config), ("--json", json), ("--access", access), ("--wait", wait),
    ("--history", history)].lookup name

def path? (value : String) : Option String := if value.isEmpty then none else some value

def wait? (value : String) : Option UInt64 :=
  let digits :=
    match value.toList with
    | '+' :: digits => digits
    | digits => digits
  ((Text.natural? digits).filter fun n => decide (n < UInt64.size)).map UInt64.ofNat

/-- Puts what was read in the place of an option that has not been given yet. -/
def once {α : Type} (before read : Option α) : Except Halt (Option α) :=
  match before, read with
  | none, some value => .ok (some value)
  | _, _ => .error .misuse

def Given.choose (given : Given) (option : Choosable) (value : String) : Except Halt Given :=
  match option with
  | .config => (once given.config (path? value)).map fun config => { given with config }
  | .access => (once given.access (Level.ofSlug? value)).map fun access => { given with access }
  | .wait => (once given.wait (wait? value)).map fun wait => { given with wait }
  | .history => (once given.history (path? value)).map fun history => { given with history }
  | .json => .error .misuse

def Given.setJson (given : Given) : Except Halt Given :=
  if given.json then .error .misuse else .ok { given with json := true }

def Given.addWord (form : Form) (given : Given) (word : String) : Except Halt Given :=
  if given.words.length < form.words then .ok { given with words := given.words ++ [word] }
  else .error .misuse

def looksLikeOption (word : String) : Bool :=
  match word.toList with
  | '-' :: _ :: _ => true
  | _ => false

/-- The letter that decides what a word behind a single dash asks for: the first of them. -/
def letter? (word : String) : Option Char :=
  match word.toList with
  | '-' :: letter :: _ => if letter = '-' then none else some letter
  | _ => none

def splitOption (word : String) : String × Option String :=
  let characters := word.toList
  let name := characters.takeWhile fun c => !(c = '=')
  match characters.dropWhile fun c => !(c = '=') with
  | [] => (word, none)
  | _ :: value => (String.ofList name, some (String.ofList value))

/-- Reads words and options. Where `stopAtWord` holds, the first word and what follows it are given
back; otherwise every word belongs to the task, also those that look like options after two dashes. -/
def read (form : Form) (stopAtWord : Bool) :
    Given → List String → Except Halt (Given × List String)
  | given, [] => .ok (given, [])
  | given, word :: rest =>
      if word = "--" then
        if stopAtWord then .error .misuse
        else (rest.foldlM (Given.addWord form) given).map fun given => (given, [])
      else if word = "--help" ∨ letter? word = some 'h' then .error .help
      else if stopAtWord ∧ (word = "--version" ∨ letter? word = some 'V') then .error .version
      else if looksLikeOption word then
        let (name, joined) := splitOption word
        match (Choosable.ofName? name).filter fun option => option ∈ form.options, joined, rest with
        | none, _, _ => .error .misuse
        | some .json, none, rest => do read form stopAtWord (← given.setJson) rest
        | some .json, some _, _ => .error .misuse
        | some option, some value, rest => do
            read form stopAtWord (← given.choose option value) rest
        | some _, none, [] => .error .misuse
        | some option, none, value :: rest =>
            if looksLikeOption value then .error .misuse
            else do read form stopAtWord (← given.choose option value) rest
      else if stopAtWord then .ok (given, word :: rest)
      else do read form stopAtWord (← given.addWord form word) rest

def formOf? : String → Option Form
  | "run" => some ⟨[.config, .json, .access, .wait, .history], 1⟩
  | "repl" => some ⟨[.config, .json, .access], 0⟩
  | "tokens" => some ⟨[.config, .json], 1⟩
  | "keywords" => some ⟨[.config, .json], 1⟩
  | _ => none

def task? (name : String) (given : Given) : Option Task :=
  match name, given.words with
  | "run", [file] => do return .run (← path? file) given.access given.wait given.history
  | "repl", [] => some (.converse given.access)
  | "tokens", [file] => do return .tokens (← path? file)
  | "keywords", [] => some (.keywords none)
  | "keywords", [word] => some (.keywords (some word))
  | _, _ => none

def helpFor (words : List String) : Halt :=
  match words with
  | [] => .help
  | [name] => if (formOf? name).isSome ∨ name = "help" then .help else .misuse
  | _ => .misuse

def invocation (arguments : List String) : Except Halt Invocation := do
  let (outer, rest) ← read ⟨[.config, .json], 0⟩ true .none arguments
  match rest with
  | [] => .error .misuse
  | name :: rest =>
      if name = "help" then .error (helpFor rest)
      else
        match formOf? name with
        | none => .error .misuse
        | some form => do
            let (inner, _) ← read form false .none rest
            match task? name inner with
            | none => .error .misuse
            | some task =>
                .ok ⟨inner.config.or outer.config, outer.json || inner.json, task⟩

end PaperFolding.CommandLine
