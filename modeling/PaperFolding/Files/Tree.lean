import PaperFolding.Files.Host
import PaperFolding.Files.Path

/-!
A tree of files and directories, and the ways to reach, read and change them by paths.
-/

namespace PaperFolding

structure FileTree where
  home : Place
  nodes : List (Place × Node)
  host : Host

/-- What a path names: a directory that exists, or a name in one. -/
structure Destination where
  parent : Place
  name : Option String
  slash : Bool
deriving DecidableEq, Repr

namespace FileTree

def nameLimit : Nat := 255

def pathLimit : Nat := 4096

def ascent : Place → List Place
  | [] => []
  | name :: parent => (name :: parent) :: ascent parent

def empty (home : Place) : FileTree :=
  ⟨home, (ascent home).map fun place => (place, .directory), .willing⟩

def node? (tree : FileTree) (place : Place) : Option Node :=
  if place.isEmpty then some .directory
  else (tree.nodes.find? fun entry => entry.1 = place).map fun entry => entry.2

def erase (tree : FileTree) (place : Place) : FileTree :=
  { tree with nodes := tree.nodes.filter fun entry => entry.1 ≠ place }

def put (tree : FileTree) (place : Place) (node : Node) : FileTree :=
  { tree with nodes := (place, node) :: (tree.erase place).nodes }

def answer (tree : FileTree) (change : Change) : Response := tree.host.answer tree.nodes change

@[simp] theorem node?_put_self (tree : FileTree) (name : String) (place : Place) (node : Node) :
    (tree.put (name :: place) node).node? (name :: place) = some node := by
  simp [node?, put]

theorem node?_put_of_ne (tree : FileTree) {place other : Place} (node : Node)
    (h : other ≠ place) : (tree.put place node).node? other = tree.node? other := by
  simp only [node?, put, erase]
  split
  · rfl
  · rw [List.find?_cons_of_neg (by simpa using Ne.symm h), List.find?_filter]
    congr 2
    funext entry
    by_cases e : entry.1 = other <;> simp [e, h]

/-- A step down into a directory; a dot stays, two dots go up. -/
def enter (tree : FileTree) (place : Place) (part : String) : Except FileError Place :=
  if part = "." then .ok place
  else if part = ".." then .ok place.tail
  else if nameLimit < part.utf8ByteSize then .error .nameTooLong
  else
    match tree.node? (part :: place) with
    | none => .error .notFound
    | some (.file _) => .error .notDirectory
    | some .directory => .ok (part :: place)

def walk (tree : FileTree) : Place → List String → Except FileError Place
  | place, [] => .ok place
  | place, part :: parts =>
      match tree.enter place part with
      | .error error => .error error
      | .ok place => walk tree place parts

def locate (tree : FileTree) (path : String) : Except FileError Destination :=
  let slash := path.toList.getLast? = some '/'
  let start := if Path.isAbsolute path then [] else tree.home
  let parts := Path.parts path
  if path.toList.contains '\x00' then .error .nulInName
  else if path.isEmpty then .error .notFound
  else if pathLimit ≤ path.utf8ByteSize then .error .nameTooLong
  else
    match parts.getLast? with
    | none => .ok ⟨start, none, slash⟩
    | some last =>
        if last = "." ∨ last = ".." then
          (tree.walk start parts).map fun place => ⟨place, none, slash⟩
        else (tree.walk start parts.dropLast).map fun place => ⟨place, some last, slash⟩

def arrive (tree : FileTree) (destination : Destination) : Except FileError (Option Node) :=
  match destination.name with
  | none => .ok (some .directory)
  | some name =>
      if nameLimit < name.utf8ByteSize then .error .nameTooLong
      else
        match tree.node? (name :: destination.parent) with
        | some (.file content) =>
            if destination.slash then .error .notDirectory else .ok (some (.file content))
        | found => .ok found

def lookup (tree : FileTree) (path : String) : Except FileError Node := do
  match ← tree.arrive (← tree.locate path) with
  | none => .error .notFound
  | some node => .ok node

def has (tree : FileTree) (path : String) : Bool :=
  match tree.lookup path with
  | .ok _ => true
  | .error _ => false

def read (tree : FileTree) (path : String) : Except FileError ByteArray := do
  match ← tree.lookup path with
  | .directory => .error .isDirectory
  | .file content => .ok content

def readText (tree : FileTree) (path : String) : Except FileError String := do
  match String.fromUTF8? (← tree.read path) with
  | none => .error .notText
  | some text => .ok text

/-- The place of the file at `path`, which need not exist, but its directory must. -/
def filePlace (tree : FileTree) (path : String) : Except FileError Place := do
  let destination ← tree.locate path
  match destination.name with
  | none => .error .isDirectory
  | some name =>
      if destination.slash then .error .isDirectory
      else
        match ← tree.arrive destination with
        | some .directory => .error .isDirectory
        | _ => .ok (name :: destination.parent)

/-- Gives the file at `path` new contents. A write that fails may leave the beginning of them. -/
def write (tree : FileTree) (path : String) (content : ByteArray) :
    Except (FileError × FileTree) FileTree :=
  match tree.filePlace path with
  | .error error => .error (error, tree)
  | .ok place =>
      match tree.answer (.write place content) with
      | .made => .ok (tree.put place (.file content))
      | .refused error => .error (error, tree)
      | .broken size error => .error (error, tree.put place (.file (content.extract 0 size)))

def writeText (tree : FileTree) (path text : String) : Except (FileError × FileTree) FileTree :=
  tree.write path text.toUTF8

/-- The tree after a change other than a write, if the system makes it. -/
def changed (tree : FileTree) (change : Change) (after : FileTree) : Except FileError FileTree :=
  match tree.answer change with
  | .made => .ok after
  | .refused error | .broken _ error => .error error

def rename (tree : FileTree) (source target : String) : Except FileError FileTree := do
  let old ← tree.locate source
  let new ← tree.locate target
  match old.name, new.name with
  | some oldName, some newName =>
      match ← tree.arrive ⟨old.parent, oldName, false⟩ with
      | none => .error .notFound
      | some .directory => .error .isDirectory
      | some (.file content) =>
          let replaced ← tree.arrive ⟨new.parent, newName, false⟩
          if old.slash || new.slash then .error .notDirectory
          else
            match replaced with
            | some .directory => .error .isDirectory
            | _ =>
                tree.changed (.rename (oldName :: old.parent) (newName :: new.parent))
                  ((tree.erase (oldName :: old.parent)).put (newName :: new.parent)
                    (.file content))
  | _, _ => .error .busy

def remove (tree : FileTree) (path : String) : Except FileError FileTree := do
  let destination ← tree.locate path
  match destination.name with
  | none => .error .isDirectory
  | some name =>
      let place := name :: destination.parent
      match ← tree.arrive destination with
      | none => .error .notFound
      | some .directory => .error .isDirectory
      | some (.file _) => tree.changed (.remove place) (tree.erase place)

/-- Replaces the contents of a file at one stroke: they are prepared next to it and then moved into
place. If they cannot be moved they are taken away again, as far as that can be done. -/
def replace (tree : FileTree) (path : String) (content : ByteArray) :
    Except FileError Unit × FileTree :=
  let draft := Path.temporary path
  match tree.write draft content with
  | .error (error, left) => (.error error, left)
  | .ok written =>
      match written.rename draft path with
      | .ok moved => (.ok (), moved)
      | .error error =>
          match written.remove draft with
          | .ok cleared => (.error error, cleared)
          | .error _ => (.error error, written)

/-- Makes the directories that are missing on the way. Those that were made stay, if another one cannot
be made. -/
def clear (tree : FileTree) : Place → List String → Except (FileError × FileTree) FileTree
  | _, [] => .ok tree
  | place, part :: parts =>
      if part = "." then clear tree place parts
      else if part = ".." then clear tree place.tail parts
      else if nameLimit < part.utf8ByteSize then .error (.nameTooLong, tree)
      else
        match tree.node? (part :: place) with
        | some .directory => clear tree (part :: place) parts
        | some (.file _) => .error (if parts.isEmpty then .exists else .notDirectory, tree)
        | none =>
            match tree.answer (.makeDirectory (part :: place)) with
            | .made => clear (tree.put (part :: place) .directory) (part :: place) parts
            | .refused error | .broken _ error => .error (error, tree)

def makeDirectory (tree : FileTree) (path : String) : Except (FileError × FileTree) FileTree :=
  if path.toList.contains '\x00' then .error (.nulInName, tree)
  else tree.clear (if Path.isAbsolute path then [] else tree.home) (Path.parts path)

def names (tree : FileTree) (path : String) : Except FileError (List String) := do
  let destination ← tree.locate path
  let place := (destination.name.toList ++ destination.parent)
  match ← tree.lookup path with
  | .file _ => .error .notDirectory
  | .directory =>
      .ok ((tree.nodes.filterMap fun entry =>
        match entry.1 with
        | name :: parent => if parent = place then some name else none
        | [] => none).mergeSort fun a b => a ≤ b)

end FileTree

end PaperFolding
