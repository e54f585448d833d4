import PaperFolding.Geometry.Plane
import PaperFolding.Paper.Preset

/-!
A ledger is a sheet by its outline and the journal of what was done to it. The records that were
undone are kept until the next operation; the sheet stays one region, with number zero.
-/

namespace PaperFolding

inductive Operation where
  | crease
  | rotate (degrees : Int32)
  | reflect
  | cut
deriving DecidableEq, Repr

structure Record where
  operation : Operation
  plane : Plane
  region : Option UInt64
deriving DecidableEq, Repr

structure Ledger where
  outline : Outline
  journal : List Record
  /-- What was undone, the record to be redone next first. -/
  undone : List Record
deriving DecidableEq, Repr

inductive Refusal where
  | emptyNormal
  | noRegion (region : UInt64)
  | nowhere (point : Planar)
  | nothingToUndo
  | nothingToRedo
  | unsupportedVersion (version : UInt32)
  | unreadableArchive
  | other (reason : String)
deriving DecidableEq, Repr

def Refusal.message : Refusal → String
  | emptyNormal => "plane normal has zero length"
  | noRegion region => "no region " ++ toString region.toNat
  | nowhere point => "no region contains [" ++ point.x.text ++ " " ++ point.y.text ++ "]"
  | nothingToUndo => "nothing to undo"
  | nothingToRedo => "nothing to redo"
  | unsupportedVersion version => "unsupported ledger version " ++ toString version.toNat
  | unreadableArchive => "the archive cannot be read"
  | other reason => reason

namespace Ledger

def blank (outline : Outline) : Ledger := ⟨outline, [], []⟩

def ofCorners? (corners : List Planar) : Option Ledger :=
  let outline := Outline.hull corners
  if outline.enclosesArea then some (blank outline) else none

def ofPreset (preset : Preset) : Ledger := blank preset.outline

/-- What keeps an operation from being done, if anything does. -/
def refusal? (record : Record) : Option Refusal :=
  if record.plane.normal.vanishes then some .emptyNormal
  else
    match record.region with
    | none => none
    | some region => if region = 0 then none else some (.noRegion region)

def apply (ledger : Ledger) (record : Record) : Except Refusal Ledger :=
  match refusal? record with
  | some refusal => .error refusal
  | none => .ok ⟨ledger.outline, ledger.journal ++ [record], []⟩

def undo (ledger : Ledger) : Except Refusal Ledger :=
  match ledger.journal.getLast? with
  | none => .error .nothingToUndo
  | some last => .ok ⟨ledger.outline, ledger.journal.dropLast, last :: ledger.undone⟩

def redo (ledger : Ledger) : Except Refusal Ledger :=
  match ledger.undone with
  | [] => .error .nothingToRedo
  | next :: undone => .ok ⟨ledger.outline, ledger.journal ++ [next], undone⟩

def depth (ledger : Ledger) : Nat := ledger.journal.length

def regionAt (ledger : Ledger) (point : Planar) : Except Refusal UInt64 :=
  if ledger.outline.holds point then .ok 0 else .error (.nowhere point)

/-- The corners of each region, by their places in the outline. -/
def regions (ledger : Ledger) : List (List Nat) := [List.range ledger.outline.length]

/-- What was ever done and can be reached by undoing and redoing, in order. -/
def line (ledger : Ledger) : List Record := ledger.journal ++ ledger.undone

theorem apply_journal {ledger folded : Ledger} {record : Record}
    (applied : ledger.apply record = .ok folded) :
    folded.journal = ledger.journal ++ [record] ∧ folded.undone = [] := by
  unfold apply at applied
  split at applied
  · contradiction
  · cases applied
    exact ⟨rfl, rfl⟩

theorem apply_outline {ledger folded : Ledger} {record : Record}
    (applied : ledger.apply record = .ok folded) : folded.outline = ledger.outline := by
  unfold apply at applied
  split at applied
  · contradiction
  · cases applied
    rfl

theorem undo_outline {ledger undone : Ledger} (taken : ledger.undo = .ok undone) :
    undone.outline = ledger.outline := by
  unfold undo at taken
  split at taken
  · contradiction
  · cases taken
    rfl

theorem redo_outline {ledger redone : Ledger} (taken : ledger.redo = .ok redone) :
    redone.outline = ledger.outline := by
  unfold redo at taken
  split at taken
  · contradiction
  · cases taken
    rfl

theorem undo_line {ledger undone : Ledger} (taken : ledger.undo = .ok undone) :
    undone.line = ledger.line ∧ undone.depth + 1 = ledger.depth := by
  unfold undo at taken
  split at taken
  · contradiction
  · rename_i last found
    cases taken
    obtain ⟨front, split⟩ := List.getLast?_eq_some_iff.1 found
    simp [line, depth, split]

theorem redo_line {ledger redone : Ledger} (taken : ledger.redo = .ok redone) :
    redone.line = ledger.line ∧ redone.depth = ledger.depth + 1 := by
  unfold redo at taken
  split at taken
  · contradiction
  · rename_i next undone found
    cases taken
    simp [line, depth, found]

end Ledger

end PaperFolding
