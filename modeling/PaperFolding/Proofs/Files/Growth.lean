import PaperFolding.Engine
import PaperFolding.Proofs.Files.Replacement

/-!
Trees of files that only grow. A document that is written to a path at which there was nothing leaves
everything in place that was there before.
-/

namespace PaperFolding

namespace FileTree

/-- Every file and every directory of the one tree is in the other, the files with the same contents. -/
structure Extends (before after : FileTree) : Prop where
  home : after.home = before.home
  nodes : ∀ {place node}, before.node? place = some node → after.node? place = some node

theorem Extends.refl (tree : FileTree) : Extends tree tree := ⟨rfl, id⟩

theorem Extends.trans {first second third : FileTree} (earlier : Extends first second)
    (later : Extends second third) : Extends first third :=
  ⟨later.home.trans earlier.home, fun found => later.nodes (earlier.nodes found)⟩

section Reading

variable {before after : FileTree}

theorem Extends.keepsDirectories (grows : Extends before after) : KeepsDirectories before after :=
  ⟨grows.home, grows.nodes⟩

theorem Extends.arrive (grows : Extends before after) {destination : Destination} {node : Node} :
    before.arrive destination = .ok (some node) → after.arrive destination = .ok (some node) := by
  unfold FileTree.arrive
  split
  · exact id
  · rename_i name _
    split
    · exact id
    · cases found : before.node? (name :: destination.parent) with
      | none => exact nofun
      | some node =>
          rw [grows.nodes found]
          exact id

theorem Extends.lookup (grows : Extends before after) {path : String} {node : Node}
    (found : before.lookup path = .ok node) : after.lookup path = .ok node := by
  unfold FileTree.lookup at *
  cases located : before.locate path with
  | error error => simp [located, bind, Except.bind] at found
  | ok destination =>
      simp only [located, bind, Except.bind] at found
      simp only [grows.keepsDirectories.locate located, bind, Except.bind]
      cases arrived : before.arrive destination with
      | error error => simp [arrived] at found
      | ok reached =>
          cases reached with
          | none => simp [arrived] at found
          | some other =>
              simp only [arrived] at found
              simpa only [grows.arrive arrived] using found

/-- A file that could be read can still be read, and says the same. -/
theorem Extends.read (grows : Extends before after) {path : String} {content : ByteArray}
    (done : before.read path = .ok content) : after.read path = .ok content := by
  unfold FileTree.read at *
  cases found : before.lookup path with
  | error error => simp [found, bind, Except.bind] at done
  | ok node =>
      rw [grows.lookup found]
      rwa [found] at done

end Reading

theorem extends_put {tree : FileTree} {place : Place} (absent : tree.node? place = none)
    (node : Node) : Extends tree (tree.put place node) where
  home := rfl
  nodes {other found} present := by
    have apart : other ≠ place := by
      rintro rfl
      rw [absent] at present
      cases present
    rw [node?_put_of_ne tree node apart, present]

theorem has_of_arrive {tree : FileTree} {path : String} {destination : Destination} {node : Node}
    (located : tree.locate path = .ok destination)
    (arrived : tree.arrive destination = .ok (some node)) : tree.has path = true := by
  have found : tree.lookup path = .ok node := by
    simp only [lookup, located, bind, Except.bind, arrived]
  rw [has, found]

theorem Aims.extends_put {tree : FileTree} {path name : String} {destination : Destination}
    (aims : Aims tree path destination name) (absent : tree.has path = false)
    (content : ByteArray) :
    Extends tree (tree.put (name :: destination.parent) (.file content)) := by
  have arrives : tree.arrive destination = .ok (tree.node? (name :: destination.parent)) :=
    arrive_eq aims.named aims.short aims.plain
  cases found : tree.node? (name :: destination.parent) with
  | none => exact FileTree.extends_put found _
  | some node =>
      rw [found] at arrives
      rw [has_of_arrive aims.located arrives] at absent
      cases absent

/-- The tree after a write, whether it was carried out, refused or broken off. -/
def afterWrite (tree : FileTree) (path : String) (content : ByteArray) : FileTree :=
  match tree.write path content with
  | .ok written => written
  | .error (_, left) => left

/-- A write to a path at which there is nothing only adds to the tree. -/
theorem extends_afterWrite {tree : FileTree} {path : String} (absent : tree.has path = false)
    (content : ByteArray) : Extends tree (tree.afterWrite path content) := by
  have wrote := tree.wrote path content
  unfold afterWrite
  generalize tree.write path content = outcome at *
  cases wrote with
  | refused error => exact .refl tree
  | made aims _ => exact aims.extends_put absent content
  | broken aims _ => exact aims.extends_put absent _

end FileTree

namespace Engine

open FileTree

variable {files : FileTree}

theorem writeFile_files (files : FileTree) (path text : String) :
    (writeFile files path text).2 = files.afterWrite path text.toUTF8 := by
  unfold writeFile writeText afterWrite
  cases files.write path text.toUTF8 <;> rfl

theorem extends_of_writeFile {path : String} (absent : files.has path = false) (text : String) :
    files.Extends (writeFile files path text).2 := by
  rw [writeFile_files]
  exact extends_afterWrite absent _

theorem extends_of_save {path : String} (absent : files.has path = false) (picture : Picture) :
    files.Extends (picture.save files path).2 := by
  unfold Picture.save
  split
  · exact .refl files
  · rename_i format _
    dsimp only
    cases format.write files.host.jpeg picture with
    | error content | ok content =>
        have grows := extends_afterWrite absent content
        revert grows
        unfold afterWrite
        dsimp only
        cases files.write path content <;> exact id

/-- The plain engine adds a document to the files, and nothing else happens to them, if there was nothing
where it is written. -/
theorem extends_of_plain_write {document : Document} (absent : files.has document.path = false)
    (ledger : Ledger) : files.Extends (plain.write files ledger document).2 := by
  show files.Extends (writeDocument files ledger document).2
  unfold writeDocument
  split
  · exact extends_of_writeFile absent _
  · have saved := extends_of_save absent
      (Picture.ofOutline ledger.outline (document.color.getD .navy) document.frameSize.toNat)
    dsimp only [writePicture]
    split
    · rename_i refused
      rwa [refused] at saved
    · rename_i done
      rwa [done] at saved
  · exact .refl files

end Engine

end PaperFolding
