import PaperFolding.Proofs.Ledger.Line
import PaperFolding.Proofs.Session.Execution

/-!
A plain sheet is a list of records with a position in it, whatever is asked of it. The records in effect
and those that were undone are kept apart, but they are that list, cut at the position.
-/

namespace PaperFolding

/-- What can be asked of a sheet. A crease is an operation that names no region. -/
inductive Request where
  | operate (record : Record)
  | undo
  | redo
deriving DecidableEq, Repr

def Request.call : Request → Call
  | operate record => .operate record
  | undo => .undo
  | redo => .redo

/-- A list of records, of which so many are in effect. -/
structure Reel where
  records : List Record
  position : Nat
deriving DecidableEq, Repr

namespace Reel

/-- Undoing and redoing move by one and fail at the two ends. An operation cuts the list off at the
position and goes to the end of it, unless it is refused. Whatever fails moves nothing. -/
def ask (reel : Reel) : Request → Except Refusal Unit × Reel
  | .operate record =>
      match Ledger.refusal? record with
      | some refusal => (.error refusal, reel)
      | none => (.ok (), ⟨reel.records.take reel.position ++ [record], reel.position + 1⟩)
  | .undo =>
      if reel.position = 0 then (.error .nothingToUndo, reel)
      else (.ok (), ⟨reel.records, reel.position - 1⟩)
  | .redo =>
      if reel.position = reel.records.length then (.error .nothingToRedo, reel)
      else (.ok (), ⟨reel.records, reel.position + 1⟩)

def askAll (reel : Reel) : List Request → List (Except Refusal Unit) × Reel
  | [] => ([], reel)
  | request :: requests =>
      let asked := reel.ask request
      let others := asked.2.askAll requests
      (asked.1 :: others.1, others.2)

end Reel

namespace Ledger

def reel (ledger : Ledger) : Reel := ⟨ledger.line, ledger.depth⟩

def asked (ledger : Ledger) : Request → Except Refusal Ledger
  | .operate record => ledger.apply record
  | .undo => ledger.undo
  | .redo => ledger.redo

variable {ledger next : Ledger}

theorem reel_apply {record : Record} (applied : ledger.apply record = .ok next) :
    next.reel = ⟨ledger.line.take ledger.depth ++ [record], ledger.depth + 1⟩ := by
  rw [eq_of_apply applied]
  simp [reel, line, depth]

theorem reel_undo (taken : ledger.undo = .ok next) :
    next.reel = ⟨ledger.line, ledger.depth - 1⟩ := by
  obtain ⟨line, depth⟩ := undo_line taken
  rw [reel, line, ← depth, Nat.add_sub_cancel]

theorem reel_redo (taken : ledger.redo = .ok next) :
    next.reel = ⟨ledger.line, ledger.depth + 1⟩ := by
  obtain ⟨line, depth⟩ := redo_line taken
  rw [reel, line, depth]

theorem undo_of_start (start : ledger.depth = 0) : ledger.undo = .error .nothingToUndo := by
  rw [depth, List.length_eq_zero_iff] at start
  rw [undo, start]
  rfl

theorem redo_of_end (last : ledger.depth = ledger.line.length) :
    ledger.redo = .error .nothingToRedo := by
  have refused := ledger.redo_windTo_end (Nat.le_of_eq last.symm)
  rwa [ledger.windTo_depth] at refused

theorem redo_of_depth (more : ledger.depth < ledger.line.length) :
    ledger.redo = .ok (ledger.windTo (ledger.depth + 1)) := by
  have done := ledger.redo_windTo more
  rwa [ledger.windTo_depth] at done

/-- What is asked of a sheet does to it what it does to its list and the position in it. -/
theorem ask_reel (ledger : Ledger) (request : Request) :
    match ledger.asked request with
    | .ok next => ledger.reel.ask request = (.ok (), next.reel) ∧ next.outline = ledger.outline
    | .error refusal => ledger.reel.ask request = (.error refusal, ledger.reel) := by
  cases request with
  | operate record =>
      cases refused : refusal? record with
      | some refusal => simp only [asked, apply, Reel.ask, refused]
      | none =>
          obtain ⟨next, applied⟩ : ∃ next, ledger.apply record = .ok next := by
            rw [apply, refused]
            exact ⟨_, rfl⟩
          simp only [asked, applied, reel_apply applied, apply_outline applied, and_true]
          simp only [Reel.ask, refused, reel]
  | undo =>
      by_cases start : ledger.depth = 0
      · simp only [asked, undo_of_start start, Reel.ask, reel, start, if_true]
      · have taken := ledger.undo_of_depth (Nat.pos_of_ne_zero start)
        simp only [asked, taken, reel_undo taken, undo_outline taken, and_true]
        exact if_neg start
  | redo =>
      by_cases last : ledger.depth = ledger.line.length
      · simp only [asked, redo_of_end last, Reel.ask, reel, last, if_true]
      · have taken := redo_of_depth (Nat.lt_of_le_of_ne ledger.depth_le_length_line last)
        simp only [asked, taken, reel_redo taken, redo_outline taken, and_true]
        exact if_neg last

end Ledger

namespace Session

/-- Asks the engine for something, in the name of a word. -/
def asking (word : String) : Request → Action Unit
  | .operate record => operate word record
  | .undo => undoSheet word
  | .redo => redoSheet word

/-- Asks for one thing after the other, whatever became of those before. -/
def askingAll (word : String) (session : Session) :
    List Request → List (Except Fault Unit) × Session
  | [] => ([], session)
  | request :: requests =>
      let asked := (asking word request).on session
      let others := askingAll word asked.2 requests
      (asked.1 :: others.1, others.2)

theorem on_asking {session : Session} {ledger : Ledger} (plain : session.engine = .plain)
    (held : session.model = some ledger) (word : String) (request : Request) :
    (asking word request).on session =
      match ledger.asked request with
      | .ok next => (.ok (), (session.noting request.call).holding next)
      | .error refusal => (.error (.sheet refusal), session.noting request.call) := by
  cases request <;>
    simp only [asking, operate, undoSheet, redoSheet, on_fold, held, plain, Engine.plain,
      Ledger.asked, Request.call] <;>
    split <;> simp only [*]

/-- A session with plain paper that has this outline, this list of records and this position in it. -/
structure Reels (outline : Outline) (reel : Reel) (session : Session) : Prop where
  plain : session.engine = .plain
  model : ∃ ledger, session.model = some ledger ∧ ledger.outline = outline ∧ ledger.reel = reel

namespace Reels

variable {outline : Outline} {reel : Reel} {session : Session}

theorem asking (reels : Reels outline reel session) (word : String) (request : Request) :
    ((Session.asking word request).on session).1 = (reel.ask request).1.mapError Fault.sheet ∧
      Reels outline (reel.ask request).2 ((Session.asking word request).on session).2 := by
  obtain ⟨plain, ledger, held, rfl, rfl⟩ := reels
  have step := ledger.ask_reel request
  rw [on_asking plain held word request]
  cases asked : ledger.asked request with
  | ok next =>
      simp only [asked] at step
      rw [step.1]
      exact ⟨rfl, plain, next, rfl, step.2, rfl⟩
  | error refusal =>
      simp only [asked] at step
      rw [step]
      exact ⟨rfl, plain, ledger, held, rfl, rfl⟩

theorem askingAll (reels : Reels outline reel session) (word : String) (requests : List Request) :
    (session.askingAll word requests).1 =
        (reel.askAll requests).1.map (fun answer => answer.mapError Fault.sheet) ∧
      Reels outline (reel.askAll requests).2 (session.askingAll word requests).2 := by
  induction requests generalizing reel session with
  | nil => exact ⟨rfl, reels⟩
  | cons request requests induction =>
      obtain ⟨answer, after⟩ := reels.asking word request
      obtain ⟨answers, last⟩ := induction after
      refine ⟨?_, last⟩
      rw [Session.askingAll, Reel.askAll, List.map_cons, ← answer, ← answers]

end Reels

/-- A plain sheet answers everything that is asked of it like its list of records with a position, and is
that list afterwards, cut at the position. Rewinding it, to any number of records, brings that many of the
list into effect, or all if there are fewer, and keeps the list. -/
theorem asked_sheet_reels {session : Session} {ledger : Ledger} (plain : session.engine = .plain)
    (held : session.model = some ledger) (word : String) (requests : List Request) :
    let asked := session.askingAll word requests
    let told := ledger.reel.askAll requests
    asked.1 = told.1.map (fun answer => answer.mapError Fault.sheet) ∧
      ∃ reached, asked.2.model = some reached ∧ reached.outline = ledger.outline ∧
        reached.journal ++ reached.undone = told.2.records ∧
        reached.journal.length = told.2.position ∧
        ∀ depth, ∃ wound, (asked.2.rewind depth).model = some wound ∧
          wound.journal = told.2.records.take depth ∧
          wound.journal ++ wound.undone = told.2.records := by
  have reels : Reels ledger.outline ledger.reel session := ⟨plain, ledger, held, rfl, rfl⟩
  obtain ⟨answers, plain, reached, found, outline, reel⟩ := reels.askingAll word requests
  refine ⟨answers, reached, found, outline, congrArg Reel.records reel,
    congrArg Reel.position reel, fun depth => ⟨reached.windTo depth, ?_, ?_, ?_⟩⟩
  · rw [rewind_plain depth _ plain, found]
    rfl
  · rw [← reel]
    rfl
  · rw [← reel]
    exact List.take_append_drop depth reached.line

/-- A square that nothing has been done to. -/
def bareSquare : Session :=
  (ofSettings .standard .plain (.quiet (.empty []) .absent)).holding (Ledger.ofPreset .square)

def mirrored (normal : Spatial) : Record := ⟨.reflect, ⟨.xAxis, normal⟩, none⟩

/-- At both ends requests fail, and in between one is refused; the last operation replaces the second. -/
def reworking : List Request :=
  [.redo, .operate (mirrored .xAxis), .operate (mirrored .yAxis),
    .operate (mirrored ⟨.zero, .zero, .zero⟩), .undo, .undo, .undo, .redo,
    .operate (mirrored .zAxis), .redo]

theorem asked_sheet_reels_reworked :
    bareSquare.engine = .plain ∧ bareSquare.model = some (Ledger.ofPreset .square) ∧
      (bareSquare.askingAll "reflect" reworking).1.map faultOf =
        [some (.sheet .nothingToRedo), none, none, some (.sheet .emptyNormal), none, none,
          some (.sheet .nothingToUndo), none, none, some (.sheet .nothingToRedo)] ∧
      ((bareSquare.askingAll "reflect" reworking).2.rewind 1).model.map Ledger.journal =
        some [mirrored .xAxis] := by
  have plain : bareSquare.engine = .plain := rfl
  have held : bareSquare.model = some (Ledger.ofPreset .square) := rfl
  obtain ⟨answers, reached, -, -, -, -, rewinds⟩ := asked_sheet_reels plain held "reflect" reworking
  obtain ⟨wound, found, journal, -⟩ := rewinds 1
  refine ⟨plain, held, ?_, ?_⟩
  · rw [answers]
    decide +kernel
  · rw [found, Option.map_some, journal]
    decide +kernel

end Session

end PaperFolding
