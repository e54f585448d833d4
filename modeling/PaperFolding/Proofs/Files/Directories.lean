import PaperFolding.Files.Tree

/-!
Paths lead through directories. They lead to the same places in every tree that has all the directories of
this one, whatever happens to its files.
-/

namespace PaperFolding.FileTree

structure KeepsDirectories (before after : FileTree) : Prop where
  home : after.home = before.home
  directory : ∀ {place}, before.node? place = some .directory →
    after.node? place = some .directory

variable {before after : FileTree}

namespace KeepsDirectories

theorem enter (keeps : KeepsDirectories before after) {place reached : Place} {part : String} :
    before.enter place part = .ok reached → after.enter place part = .ok reached := by
  unfold FileTree.enter
  split
  · exact id
  · split
    · exact id
    · split
      · exact id
      · cases found : before.node? (part :: place) with
        | none => exact nofun
        | some node =>
            cases node with
            | file content => exact nofun
            | directory =>
                rw [keeps.directory found]
                exact id

theorem walk (keeps : KeepsDirectories before after) {place reached : Place} {parts : List String}
    (done : before.walk place parts = .ok reached) : after.walk place parts = .ok reached := by
  induction parts generalizing place with
  | nil => exact done
  | cons part parts induction =>
      rw [FileTree.walk] at *
      cases entered : before.enter place part with
      | error error =>
          rw [entered] at done
          cases done
      | ok next =>
          rw [keeps.enter entered]
          rw [entered] at done
          exact induction done

theorem locate (keeps : KeepsDirectories before after) {path : String}
    {destination : Destination} :
    before.locate path = .ok destination → after.locate path = .ok destination := by
  have walks {start : Place} {parts : List String} (name : Option String) (slash : Bool) :
      (before.walk start parts).map (⟨·, name, slash⟩) = .ok destination →
        (after.walk start parts).map (⟨·, name, slash⟩) = .ok destination := by
    cases walked : before.walk start parts with
    | error error => exact nofun
    | ok place =>
        rw [keeps.walk walked]
        exact id
  unfold FileTree.locate
  rw [keeps.home]
  dsimp only
  split
  · exact id
  · split
    · exact id
    · split
      · exact id
      · split
        · exact id
        · split
          · exact walks none _
          · exact walks (some _) _

end KeepsDirectories

theorem node?_erase_of_ne (tree : FileTree) {place other : Place} (apart : other ≠ place) :
    (tree.erase place).node? other = tree.node? other := by
  rw [← node?_put_of_ne tree .directory apart]
  simp only [node?, put]
  split
  · rfl
  · rw [List.find?_cons_of_neg (by simpa using Ne.symm apart)]

/-- Moving a file to where no directory is leaves the directories alone. -/
theorem keepsDirectories_move {tree : FileTree} {place target : Place}
    (file : tree.node? place ≠ some .directory) (free : tree.node? target ≠ some .directory)
    (node : Node) : KeepsDirectories tree ((tree.erase place).put target node) where
  home := rfl
  directory {other} found := by
    have elsewhere : other ≠ target := by
      rintro rfl
      exact free found
    have apart : other ≠ place := by
      rintro rfl
      exact file found
    rw [node?_put_of_ne _ node elsewhere, node?_erase_of_ne tree apart, found]

theorem keepsDirectories_put {tree : FileTree} {place : Place}
    (free : tree.node? place ≠ some .directory) (node : Node) :
    KeepsDirectories tree (tree.put place node) where
  home := rfl
  directory {other} found := by
    have elsewhere : other ≠ place := by
      rintro rfl
      exact free found
    rw [node?_put_of_ne tree node elsewhere, found]

end PaperFolding.FileTree
