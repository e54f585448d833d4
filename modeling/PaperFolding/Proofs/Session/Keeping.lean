import PaperFolding.Proofs.Session.Conduct.Scripts

/-!
What a running statement holds on to. Whatever it does, what it keeps for its failure stays the same,
except that the kept paper goes where the operations done on it lead.
-/

namespace PaperFolding

/-- The ways from sheet to sheet that are watched; the operations of the engine are among them. -/
structure Course (engine : Engine) where
  leads : Ledger → Ledger → Prop
  refl : ∀ ledger, leads ledger ledger
  trans : ∀ {first second third}, leads first second → leads second third → leads first third
  apply : ∀ {ledger folded record}, engine.apply ledger record = .ok folded → leads ledger folded

namespace Course

variable {engine : Engine}

structure Reversible (course : Course engine) : Prop where
  undo : ∀ {ledger undone}, engine.undo ledger = .ok undone → course.leads ledger undone
  redo : ∀ {ledger redone}, engine.redo ledger = .ok redone → course.leads ledger redone

def Allows (course : Course engine) (command : Command) : Prop :=
  command = .undo ∨ command = .redo → course.Reversible

def anywhere (engine : Engine) : Course engine where
  leads _ _ := True
  refl _ := trivial
  trans _ _ := trivial
  apply _ := trivial

theorem anywhere_reversible (engine : Engine) : (anywhere engine).Reversible where
  undo _ := trivial
  redo _ := trivial

end Course

def Transaction.saved (transaction : Transaction) : Transaction :=
  { transaction with history := none, paper := none }

namespace Session

variable {engine : Engine} {course : Course engine}

/-- Going from one session to the other, the running statement loses nothing of what it keeps. -/
structure Keeps (course : Course engine) (before after : Session) : Prop where
  sameEngine : after.engine = before.engine
  saved : after.transaction.map Transaction.saved = before.transaction.map Transaction.saved
  history : before.transaction.isSome → after.keptHistory = before.keptHistory
  paper : before.engine = engine → before.transaction.isSome →
    Option.Rel course.leads before.keptPaper after.keptPaper

theorem keptHistory_rewriting {session : Session} (history : List String)
    (running : session.transaction.isSome) :
    (session.rewriting history).keptHistory = session.keptHistory := by
  obtain ⟨transaction, held⟩ := Option.isSome_iff_exists.1 running
  simp [keptHistory, rewriting, held]

theorem keptPaper_rewriting (session : Session) (history : List String) :
    (session.rewriting history).keptPaper = session.keptPaper := by
  cases held : session.transaction <;> simp [keptPaper, rewriting, held]

theorem keptPaper_replacing {session : Session} (ledger : Ledger)
    (running : session.transaction.isSome) :
    (session.replacing ledger).keptPaper = session.keptPaper := by
  obtain ⟨transaction, held⟩ := Option.isSome_iff_exists.1 running
  simp [keptPaper, replacing, held]

theorem keptHistory_replacing (session : Session) (ledger : Ledger) :
    (session.replacing ledger).keptHistory = session.keptHistory := by
  cases held : session.transaction <;> simp [keptHistory, replacing, held]

theorem keptPaper_holding_of_replaced {session : Session} {paper : Option Ledger} (ledger : Ledger)
    (replaced : session.transaction.bind Transaction.paper = some paper) :
    (session.holding ledger).keptPaper = session.keptPaper := by
  simp [keptPaper, holding, replaced]

theorem keptPaper_of_present (session : Session)
    (present : session.transaction.bind Transaction.paper = none) :
    session.keptPaper = session.model := by
  simp [keptPaper, present]

namespace Keeps

theorem running {before after : Session} (keeps : Keeps course before after) :
    after.transaction.isSome = before.transaction.isSome := by
  have saved := congrArg Option.isSome keeps.saved
  simpa using saved

theorem paper_of_eq {before after : Session} (same : after.keptPaper = before.keptPaper) :
    Option.Rel course.leads before.keptPaper after.keptPaper := by
  rw [same]
  cases before.keptPaper with
  | none => exact .none
  | some ledger => exact .some (course.refl ledger)

theorem aside {before after : Session} (engine : after.engine = before.engine)
    (transaction : after.transaction = before.transaction)
    (history : after.history = before.history) (model : after.model = before.model) :
    Keeps course before after where
  sameEngine := engine
  saved := by rw [transaction]
  history _ := by rw [keptHistory, keptHistory, transaction, history]
  paper _ _ := paper_of_eq (by rw [keptPaper, keptPaper, transaction, model])

theorem refl (session : Session) : Keeps course session session := aside rfl rfl rfl rfl

theorem trans {first second third : Session} (earlier : Keeps course first second)
    (later : Keeps course second third) : Keeps course first third where
  sameEngine := later.sameEngine.trans earlier.sameEngine
  saved := later.saved.trans earlier.saved
  history running :=
    (later.history (by rw [earlier.running]; exact running)).trans (earlier.history running)
  paper same running := by
    have front := earlier.paper same running
    have back :=
      later.paper (earlier.sameEngine.trans same) (by rw [earlier.running]; exact running)
    revert front back
    generalize first.keptPaper = a, second.keptPaper = b, third.keptPaper = c
    intro front back
    cases front with
    | none => exact back
    | some led =>
        cases back with
        | some leads => exact .some (course.trans led leads)

theorem noting (call : Call) (session : Session) : Keeps course session (session.noting call) :=
  aside rfl rfl rfl rfl

/-- The kept paper is the present one, and goes where it goes, until something takes its place. -/
theorem holding {ledger folded : Ledger} {session : Session} (held : session.model = some ledger)
    (leads : session.engine = engine → course.leads ledger folded) :
    Keeps course session (session.holding folded) where
  sameEngine := rfl
  saved := rfl
  history _ := rfl
  paper same _ := by
    cases replaced : session.transaction.bind Transaction.paper with
    | none =>
        rw [session.keptPaper_of_present replaced,
          (session.holding folded).keptPaper_of_present replaced, held]
        exact .some (leads same)
    | some paper => exact paper_of_eq (keptPaper_holding_of_replaced folded replaced)

theorem replacing (ledger : Ledger) (session : Session) :
    Keeps course session (session.replacing ledger) where
  sameEngine := rfl
  saved := by
    cases held : session.transaction <;> simp [Session.replacing, held, Transaction.saved]
  history _ := keptHistory_replacing session ledger
  paper _ running := paper_of_eq (keptPaper_replacing ledger running)

theorem rewriting (history : List String) (draft : Draft) (session : Session) :
    Keeps course session { session.rewriting history with draft } where
  sameEngine := rfl
  saved := by
    cases held : session.transaction <;> simp [Session.rewriting, held, Transaction.saved]
  history running := keptHistory_rewriting history running
  paper _ _ := paper_of_eq (keptPaper_rewriting session history)

end Keeps

end Session

def Course.conduct {engine : Engine} (course : Course engine) : Conduct where
  leads := Session.Keeps course
  permits := course.Allows
  refl := .refl
  trans := .trans
  beside beside := .aside beside.engine beside.transaction beside.history beside.model
  noting := .noting
  applying held applied := .holding held fun same => course.apply (same ▸ applied)
  undoing allowed _ _ _ held taken :=
    .holding held fun same => (allowed (.inl rfl)).undo (same ▸ taken)
  redoing allowed _ _ _ held done :=
    .holding held fun same => (allowed (.inr rfl)).redo (same ▸ done)
  replacing := .replacing
  recorded := True
  rewriting _ := .rewriting
  closing _ _ _ := .aside rfl rfl rfl rfl
  replaying allowed _ _ := allowed (.inl rfl)

theorem Course.Reversible.admits {engine : Engine} {course : Course engine}
    (reversible : course.Reversible) (row : List String) : course.conduct.Admits row :=
  fun _ _ _ _ _ => reversible

end PaperFolding
