import PaperFolding.Proofs.Files.Directories

/-!
A file that has been replaced is read as what it was replaced with.
-/

namespace PaperFolding.FileTree

variable {tree written moved : FileTree} {path : String} {content : ByteArray}

theorem arrive_eq {destination : Destination} {name : String} (named : destination.name = some name)
    (short : ¬ nameLimit < name.utf8ByteSize) (plain : destination.slash = false) :
    tree.arrive destination = .ok (tree.node? (name :: destination.parent)) := by
  simp only [arrive, named, plain, if_neg short]
  split
  · rename_i found
    rw [found]
    rfl
  · rfl

theorem short_of_arrive {destination : Destination} {name : String} {found : Option Node}
    (named : destination.name = some name) (arrived : tree.arrive destination = .ok found) :
    ¬ nameLimit < name.utf8ByteSize := by
  intro long
  simp [arrive, named, long] at arrived

theorem read_of_node {destination : Destination} {name : String}
    (located : tree.locate path = .ok destination) (named : destination.name = some name)
    (short : ¬ nameLimit < name.utf8ByteSize) (plain : destination.slash = false)
    (found : tree.node? (name :: destination.parent) = some (.file content)) :
    tree.read path = .ok content := by
  simp only [read, lookup, located, bind, Except.bind, arrive_eq named short plain, found]

/-- The path leads to a name under which a file is or can be kept. -/
structure Aims (tree : FileTree) (path : String) (destination : Destination) (name : String) :
    Prop where
  located : tree.locate path = .ok destination
  named : destination.name = some name
  plain : destination.slash = false
  short : ¬ nameLimit < name.utf8ByteSize
  free : tree.node? (name :: destination.parent) ≠ some .directory

/-- Where a file has been written, and what the tree was like there. -/
structure Writes (tree : FileTree) (path : String) (content : ByteArray) (written : FileTree)
    (destination : Destination) (name : String) : Prop extends Aims tree path destination name where
  written : written = tree.put (name :: destination.parent) (.file content)

theorem exists_aims {place : Place} (found : tree.filePlace path = .ok place) :
    ∃ destination name, Aims tree path destination name ∧ place = name :: destination.parent := by
  unfold filePlace at found
  cases located : tree.locate path with
  | error error => simp [located, bind, Except.bind] at found
  | ok destination =>
      simp only [located, bind, Except.bind] at found
      cases named : destination.name with
      | none => simp [named] at found
      | some name =>
          simp only [named] at found
          split at found
          · cases found
          · rename_i plain
            rw [Bool.not_eq_true] at plain
            cases arrived : tree.arrive destination with
            | error error => simp [arrived] at found
            | ok there =>
                have short := short_of_arrive named arrived
                rw [arrive_eq named short plain] at arrived found
                cases arrived
                dsimp only at found
                split at found
                · cases found
                · rename_i free
                  cases found
                  exact ⟨destination, name, ⟨located, named, plain, short, free⟩, rfl⟩

/-- All that can come of a write: nothing, or the file is written, or the beginning of it. -/
inductive Wrote (tree : FileTree) (path : String) (content : ByteArray) :
    Except (FileError × FileTree) FileTree → Prop
  | refused (error : FileError) : Wrote tree path content (.error (error, tree))
  | made {destination : Destination} {name : String} (aims : Aims tree path destination name)
      (made : tree.answer (.write (name :: destination.parent) content) = .made) :
      Wrote tree path content (.ok (tree.put (name :: destination.parent) (.file content)))
  | broken {destination : Destination} {name : String} (aims : Aims tree path destination name)
      {size : Nat} {error : FileError}
      (breaks : tree.answer (.write (name :: destination.parent) content) = .broken size error) :
      Wrote tree path content
        (.error (error, tree.put (name :: destination.parent) (.file (content.extract 0 size))))

theorem wrote (tree : FileTree) (path : String) (content : ByteArray) :
    Wrote tree path content (tree.write path content) := by
  unfold write
  cases found : tree.filePlace path with
  | error error => exact .refused error
  | ok place =>
      obtain ⟨destination, name, aims, rfl⟩ := exists_aims found
      dsimp only
      cases answers : tree.answer (.write (name :: destination.parent) content) with
      | made => exact .made aims answers
      | refused error => exact .refused error
      | broken size error => exact .broken aims answers

theorem exists_writes (done : tree.write path content = .ok written) :
    ∃ destination name, Writes tree path content written destination name := by
  have wrote := tree.wrote path content
  rw [done] at wrote
  cases wrote with
  | made aims _ => exact ⟨_, _, aims, rfl⟩

theorem changed_of_ok {change : Change} {after : FileTree}
    (done : tree.changed change after = .ok written) : written = after := by
  unfold changed at done
  split at done
  · exact (Except.ok.inj done).symm
  · cases done
  · cases done

theorem Writes.found {destination : Destination} {name : String}
    (writes : Writes tree path content written destination name) :
    written.node? (name :: destination.parent) = some (.file content) := by
  rw [writes.written, node?_put_self]

theorem Writes.keepsDirectories {destination : Destination} {name : String}
    (writes : Writes tree path content written destination name) :
    KeepsDirectories tree written :=
  writes.written ▸ keepsDirectories_put writes.free _

/-- Where the file has been moved to that was written. -/
theorem Writes.exists_renames {draft : String} {destination : Destination} {name : String}
    (writes : Writes tree draft content written destination name)
    (done : written.rename draft path = .ok moved) :
    ∃ target newName, written.locate path = .ok target ∧ target.name = some newName ∧
      target.slash = false ∧ ¬ nameLimit < newName.utf8ByteSize ∧
      written.node? (newName :: target.parent) ≠ some .directory ∧
      moved = (written.erase (name :: destination.parent)).put (newName :: target.parent)
        (.file content) := by
  have located := writes.keepsDirectories.locate writes.located
  unfold rename at done
  simp only [located, writes.named, bind, Except.bind] at done
  cases aimed : written.locate path with
  | error error => simp [aimed] at done
  | ok target =>
      simp only [aimed] at done
      cases called : target.name with
      | none => simp [called] at done
      | some newName =>
          simp only [called] at done
          rw [arrive_eq rfl writes.short rfl, writes.found] at done
          dsimp only at done
          cases arrived : written.arrive ⟨target.parent, some newName, false⟩ with
          | error error => simp [arrived] at done
          | ok replaced =>
              have short : ¬ nameLimit < newName.utf8ByteSize := short_of_arrive rfl arrived
              rw [arrive_eq rfl short rfl] at arrived
              cases arrived
              rw [arrive_eq rfl short rfl] at done
              dsimp only at done
              split at done
              · cases done
              · rename_i plain
                rw [Bool.not_eq_true, Bool.or_eq_false_iff] at plain
                split at done
                · cases done
                · rename_i free
                  exact ⟨target, newName, rfl, called, plain.2, short, free, changed_of_ok done⟩

/-- A file that has just been written, moved to another path, is what is read there. -/
theorem read_of_rename {draft : String} {destination : Destination} {name : String}
    (writes : Writes tree draft content written destination name)
    (done : written.rename draft path = .ok moved) : moved.read path = .ok content := by
  obtain ⟨target, newName, aimed, called, plain, short, free, rfl⟩ := writes.exists_renames done
  have keeps := keepsDirectories_move (by rw [writes.found]; exact nofun) free (.file content)
  exact read_of_node (keeps.locate aimed) called short plain (node?_put_self _ _ _ _)

theorem read_of_replace {replaced : FileTree}
    (done : tree.replace path content = (.ok (), replaced)) : replaced.read path = .ok content := by
  unfold replace at done
  dsimp only at done
  cases wrote : tree.write (Path.temporary path) content with
  | error error =>
      rw [wrote] at done
      cases done
  | ok written =>
      obtain ⟨destination, name, writes⟩ := exists_writes wrote
      rw [wrote] at done
      dsimp only at done
      cases renamed : written.rename (Path.temporary path) path with
      | ok moved =>
          rw [renamed] at done
          cases done
          exact read_of_rename writes renamed
      | error error =>
          rw [renamed] at done
          dsimp only at done
          split at done <;> cases done

theorem read_of_write (done : tree.write path content = .ok written) :
    written.read path = .ok content := by
  obtain ⟨destination, name, writes⟩ := exists_writes done
  exact read_of_node (writes.keepsDirectories.locate writes.located) writes.named writes.short
    writes.plain writes.found

theorem readText_of_read {text : String} (found : tree.read path = .ok text.toUTF8) :
    tree.readText path = .ok text := by
  have decodes : String.fromUTF8? text.toUTF8 = some text := by
    simpa [String.fromUTF8?] using ⟨text.isValidUTF8, rfl⟩
  simp only [readText, found, bind, Except.bind, decodes]

/-- A text that has been kept in the place of a file is read back. -/
theorem readText_of_replace {replaced : FileTree} {text : String}
    (done : tree.replace path text.toUTF8 = (.ok (), replaced)) :
    replaced.readText path = .ok text :=
  readText_of_read (read_of_replace done)

theorem readText_of_writeText {text : String} (done : tree.writeText path text = .ok written) :
    written.readText path = .ok text :=
  readText_of_read (read_of_write done)

end PaperFolding.FileTree
