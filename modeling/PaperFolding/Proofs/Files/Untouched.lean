import PaperFolding.Proofs.Files.Draft
import PaperFolding.Proofs.Files.Replacement

/-!
What is left untouched when a file is replaced: all but the file and the draft that is prepared next to it.
A path is told by what is found at it, which may be the same while the reason why nothing is found differs.
-/

namespace PaperFolding.FileTree

open PaperFolding.Path

/-- The place that a path names, whether or not anything is there. -/
def place? (tree : FileTree) (path : String) : Option Place :=
  (tree.locate path).toOption.bind fun destination =>
    destination.name.map fun name => name :: destination.parent

/-- What is at a path, if anything is. -/
def found? (tree : FileTree) (path : String) : Option Node := (tree.lookup path).toOption

/-- Two paths lead to the same place. -/
def Meet (tree : FileTree) (path other : String) : Prop :=
  ∃ place, tree.place? path = some place ∧ tree.place? other = some place

theorem meet_iff {tree : FileTree} {path other : String} :
    tree.Meet path other ↔
      tree.place? path = tree.place? other ∧ (tree.place? path).isSome = true := by
  constructor
  · rintro ⟨place, here, there⟩
    exact ⟨here.trans there.symm, Option.isSome_iff_exists.2 ⟨place, here⟩⟩
  · rintro ⟨same, some⟩
    obtain ⟨place, here⟩ := Option.isSome_iff_exists.1 some
    exact ⟨place, here, same.symm.trans here⟩

instance (tree : FileTree) (path other : String) : Decidable (tree.Meet path other) :=
  decidable_of_iff _ meet_iff.symm

section Reading

variable {tree : FileTree} {path : String} {place : Place}

theorem found?_eq (tree : FileTree) (path : String) :
    tree.found? path =
      (tree.locate path).toOption.bind fun destination => (tree.arrive destination).toOption.join := by
  rw [found?, lookup]
  cases located : tree.locate path with
  | error error => rfl
  | ok destination =>
      simp only [bind, Except.bind, Except.toOption, Option.bind_some]
      cases tree.arrive destination with
      | error error => rfl
      | ok found => cases found <;> rfl

theorem exists_of_place? (named : tree.place? path = some place) :
    ∃ destination name, tree.locate path = .ok destination ∧ destination.name = some name ∧
      place = name :: destination.parent := by
  rw [place?] at named
  cases located : tree.locate path with
  | error error =>
      rw [located] at named
      cases named
  | ok destination =>
      rw [located] at named
      obtain ⟨name, called, rfl⟩ := Option.map_eq_some_iff.1 named
      exact ⟨destination, name, rfl, called, rfl⟩

theorem found?_of_absent (named : tree.place? path = some place)
    (absent : tree.node? place = none) : tree.found? path = none := by
  obtain ⟨destination, name, located, called, rfl⟩ := exists_of_place? named
  rw [found?_eq, located]
  show (tree.arrive destination).toOption.join = none
  rw [arrive, called]
  dsimp only
  rw [absent]
  split <;> rfl

theorem found?_of_read {content : ByteArray} (done : tree.read path = .ok content) :
    tree.found? path = some (.file content) := by
  rw [read] at done
  rw [found?]
  cases looked : tree.lookup path with
  | error error =>
      rw [looked] at done
      cases done
  | ok node =>
      rw [looked] at done
      cases node with
      | directory => cases done
      | file held =>
          cases done
          rfl

end Reading

/-! ## Trees with the same directories -/

structure SameDirectories (before after : FileTree) : Prop where
  home : after.home = before.home
  directory : ∀ place, after.node? place = some .directory ↔ before.node? place = some .directory

namespace SameDirectories

variable {before after : FileTree}

theorem forward (same : SameDirectories before after) : KeepsDirectories before after :=
  ⟨same.home, (same.directory _).2⟩

theorem backward (same : SameDirectories before after) : KeepsDirectories after before :=
  ⟨same.home.symm, (same.directory _).1⟩

theorem trans {last : FileTree} (same : SameDirectories before after)
    (same' : SameDirectories after last) : SameDirectories before last :=
  ⟨same'.home.trans same.home, fun place => (same'.directory place).trans (same.directory place)⟩

theorem locate_eq (same : SameDirectories before after) (path : String) :
    (after.locate path).toOption = (before.locate path).toOption := by
  cases located : before.locate path with
  | ok destination => rw [same.forward.locate located]
  | error error =>
      cases located' : after.locate path with
      | error error => rfl
      | ok destination =>
          rw [same.backward.locate located'] at located
          cases located

theorem place?_eq (same : SameDirectories before after) (path : String) :
    after.place? path = before.place? path := by
  rw [place?, place?, same.locate_eq]

/-- Where a path leads to the same thing in both trees, the same is found. -/
theorem found?_eq (same : SameDirectories before after) {path : String}
    (there : ∀ place, before.place? path = some place → after.node? place = before.node? place) :
    after.found? path = before.found? path := by
  rw [FileTree.found?_eq, FileTree.found?_eq, same.locate_eq]
  cases located : before.locate path with
  | error error => rfl
  | ok destination =>
      have arrives : after.arrive destination = before.arrive destination := by
        cases called : destination.name with
        | none => simp only [arrive, called]
        | some name =>
            have named : before.place? path = some (name :: destination.parent) := by
              rw [place?, located]
              exact congrArg (Option.map _) called
            simp only [arrive, called, there _ named]
      exact congrArg (fun result => result.toOption.join) arrives

end SameDirectories

section Changing

variable {tree : FileTree} {place : Place}

@[simp] theorem node?_erase_self (tree : FileTree) (name : String) (parent : Place) :
    (tree.erase (name :: parent)).node? (name :: parent) = none := by
  simp [node?, erase]

theorem erase_put_self (tree : FileTree) (place : Place) (node : Node) :
    (tree.put place node).erase place = tree.erase place := by
  simp [put, erase]

theorem sameDirectories_erase (free : tree.node? place ≠ some .directory) :
    SameDirectories tree (tree.erase place) where
  home := rfl
  directory other := by
    by_cases apart : other = place
    · subst apart
      cases other with
      | nil => exact absurd rfl free
      | cons name parent => simp [free]
    · rw [node?_erase_of_ne tree apart]

theorem sameDirectories_put (free : tree.node? place ≠ some .directory) (content : ByteArray) :
    SameDirectories tree (tree.put place (.file content)) where
  home := rfl
  directory other := by
    by_cases apart : other = place
    · subst apart
      cases other with
      | nil => exact absurd rfl free
      | cons name parent => simp [free]
    · rw [node?_put_of_ne tree _ apart]

end Changing

/-! ## Replacing a file -/

section Replacing

variable {tree written : FileTree} {path : String} {content : ByteArray}
  {destination : Destination} {name : String}

theorem Writes.sameDirectories (writes : Writes tree path content written destination name) :
    SameDirectories tree written :=
  writes.written ▸ sameDirectories_put writes.free content

theorem Aims.place?_eq (aims : Aims tree path destination name) :
    tree.place? path = some (name :: destination.parent) := by
  rw [place?, aims.located]
  exact congrArg (Option.map _) aims.named

/-- All that can come of replacing a file: nothing; or the beginning of the contents is left in the draft,
where writing it broke off; or the draft is gone again, or it is left, since it could not be removed; or it
was moved into place. -/
inductive Replaced (tree : FileTree) (path : String) (content : ByteArray) :
    Except FileError Unit × FileTree → Prop
  | refused (error : FileError) : Replaced tree path content (.error error, tree)
  | begun {destination : Destination} {name : String}
      (aims : Aims tree (temporary path) destination name) {size : Nat} {error : FileError}
      (breaks : tree.answer (.write (name :: destination.parent) content) = .broken size error) :
      Replaced tree path content
        (.error error, tree.put (name :: destination.parent) (.file (content.extract 0 size)))
  | cleared {destination : Destination} {name : String}
      (aims : Aims tree (temporary path) destination name)
      (made : tree.answer (.write (name :: destination.parent) content) = .made)
      (error : FileError) :
      Replaced tree path content (.error error, tree.erase (name :: destination.parent))
  | stuck {destination : Destination} {name : String}
      (aims : Aims tree (temporary path) destination name)
      (made : tree.answer (.write (name :: destination.parent) content) = .made)
      (stays : (tree.put (name :: destination.parent) (.file content)).answer
        (.remove (name :: destination.parent)) ≠ .made)
      (error : FileError) :
      Replaced tree path content
        (.error error, tree.put (name :: destination.parent) (.file content))
  | moved {destination : Destination} {name : String}
      (aims : Aims tree (temporary path) destination name) {place : Place}
      (named : tree.place? path = some place) (free : tree.node? place ≠ some .directory) :
      Replaced tree path content
        (.ok (), (tree.erase (name :: destination.parent)).put place (.file content))

/-- Whether a file that has just been written is removed is up to the system alone. -/
theorem Writes.remove_eq (writes : Writes tree path content written destination name) :
    written.remove path = written.changed (.remove (name :: destination.parent))
      (tree.erase (name :: destination.parent)) := by
  have located := writes.keepsDirectories.locate writes.located
  simp only [remove, located, bind, Except.bind, writes.named,
    arrive_eq writes.named writes.short writes.plain, writes.found]
  rw [writes.written, erase_put_self]

theorem Writes.moved {moved : FileTree}
    (writes : Writes tree (temporary path) content written destination name)
    (done : written.rename (temporary path) path = .ok moved) :
    Replaced tree path content (.ok (), moved) := by
  obtain ⟨target, newName, aimed, called, -, -, free, rfl⟩ := writes.exists_renames done
  have named : tree.place? path = some (newName :: target.parent) := by
    rw [← writes.sameDirectories.place?_eq, place?, aimed]
    exact congrArg (Option.map _) called
  rw [Ne, writes.sameDirectories.directory] at free
  rw [writes.written, erase_put_self]
  exact .moved writes.toAims named free

theorem replaced (tree : FileTree) (path : String) (content : ByteArray) :
    Replaced tree path content (tree.replace path content) := by
  have wrote := tree.wrote (temporary path) content
  unfold replace
  dsimp only
  generalize tree.write (temporary path) content = outcome at *
  cases wrote with
  | refused error => exact .refused error
  | broken aims breaks => exact .begun aims breaks
  | @made destination name aims made =>
      have writes : Writes tree (temporary path) content
          (tree.put (name :: destination.parent) (.file content)) destination name := ⟨aims, rfl⟩
      dsimp only
      rw [writes.remove_eq]
      cases renamed : (tree.put (name :: destination.parent) (.file content)).rename
          (temporary path) path with
      | ok moved => exact writes.moved renamed
      | error error =>
          unfold changed
          cases removes : (tree.put (name :: destination.parent) (.file content)).answer
              (.remove (name :: destination.parent)) with
          | made => exact .cleared aims made error
          | refused _ | broken _ _ => exact .stuck aims made (by rw [removes]; nofun) error

theorem ne_of_place? {place draft : Place} (named : tree.place? path = some place)
    (drafted : tree.place? (temporary path) = some draft) : draft ≠ place := by
  obtain ⟨destination, name, located, called, rfl⟩ := exists_of_place? named
  obtain ⟨destination', name', located', called', rfl⟩ := exists_of_place? drafted
  intro same
  obtain rfl := (List.cons.inj same).1
  rw [(locate_temporary located').2] at called'
  exact name_ne_draftName located (called.trans called'.symm)

section Elsewhere

variable {other draft : String} {place : Place}

theorem found?_erase (drafted : tree.place? draft = some place)
    (free : tree.node? place ≠ some .directory) (apart : ¬ tree.Meet other draft) :
    (tree.erase place).found? other = tree.found? other := by
  refine (sameDirectories_erase free).found?_eq fun there named => node?_erase_of_ne tree ?_
  rintro rfl
  exact apart ⟨there, named, drafted⟩

theorem found?_put (drafted : tree.place? draft = some place)
    (free : tree.node? place ≠ some .directory) (content : ByteArray)
    (apart : ¬ tree.Meet other draft) :
    (tree.put place (.file content)).found? other = tree.found? other := by
  refine (sameDirectories_put free content).found?_eq fun there named => node?_put_of_ne tree _ ?_
  rintro rfl
  exact apart ⟨there, named, drafted⟩

end Elsewhere

theorem Aims.found?_put (aims : Aims tree path destination name) (content : ByteArray) :
    (tree.put (name :: destination.parent) (.file content)).found? path = some (.file content) :=
  found?_of_read (read_of_node ((keepsDirectories_put aims.free _).locate aims.located) aims.named
    aims.short aims.plain (node?_put_self _ _ _ _))

namespace Replaced

variable {outcome : Except FileError Unit × FileTree} {other : String} {error : FileError}

/-- If it fails, all is left as it was that is not at the draft. -/
theorem kept (replaced : Replaced tree path content outcome) (failed : outcome.1 = .error error)
    (apart : ¬ tree.Meet other (temporary path)) :
    outcome.2.found? other = tree.found? other := by
  cases replaced with
  | refused _ => rfl
  | begun aims _ | stuck aims _ _ _ => exact FileTree.found?_put aims.place?_eq aims.free _ apart
  | cleared aims _ _ => exact found?_erase aims.place?_eq aims.free apart
  | moved _ _ _ => cases failed

/-- Whether or not it succeeds, all is left as it was that is neither at the path nor at its draft. -/
theorem untouched (replaced : Replaced tree path content outcome) (apart : ¬ tree.Meet other path)
    (apart' : ¬ tree.Meet other (temporary path)) :
    outcome.2.found? other = tree.found? other := by
  cases ends : outcome.1 with
  | error error => exact replaced.kept ends apart'
  | ok _ =>
      cases replaced with
      | refused _ | begun _ _ | cleared _ _ _ | stuck _ _ _ _ => cases ends
      | @moved destination name aims place named free =>
          have cleared := sameDirectories_erase aims.free
          rw [← found?_erase aims.place?_eq aims.free apart']
          apply FileTree.found?_put
          · exact (cleared.place?_eq path).trans named
          · rwa [Ne, cleared.directory]
          · rintro ⟨there, named', named''⟩
            rw [cleared.place?_eq] at named' named''
            exact apart ⟨there, named', named''⟩

/-- If it succeeds, nothing is left at the draft. -/
theorem gone (replaced : Replaced tree path content outcome) (done : outcome.1 = .ok ()) :
    outcome.2.found? (temporary path) = none := by
  cases replaced with
  | refused _ | begun _ _ | cleared _ _ _ | stuck _ _ _ _ => cases done
  | @moved destination name aims place named free =>
      have cleared := sameDirectories_erase aims.free
      have free' : (tree.erase (name :: destination.parent)).node? place ≠ some .directory := by
        rwa [Ne, cleared.directory]
      have same := cleared.trans (sameDirectories_put free' content)
      have absent := node?_put_of_ne (tree.erase (name :: destination.parent)) (.file content)
        (ne_of_place? named aims.place?_eq)
      exact found?_of_absent ((same.place?_eq _).trans aims.place?_eq)
        (absent.trans (node?_erase_self _ _ _))

end Replaced

end Replacing

end PaperFolding.FileTree
