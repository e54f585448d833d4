/-!
Privileges: the three levels, the questions asked before a level is raised, and the operator who
answers them.
-/

namespace PaperFolding

inductive Level where
  | user
  | root
  | dev
deriving DecidableEq, Repr, Inhabited

namespace Level

def rank : Level → Nat
  | user => 0
  | root => 1
  | dev => 2

instance : LE Level := ⟨fun a b => a.rank ≤ b.rank⟩
instance : LT Level := ⟨fun a b => a.rank < b.rank⟩

instance (a b : Level) : Decidable (a ≤ b) := inferInstanceAs (Decidable (a.rank ≤ b.rank))
instance (a b : Level) : Decidable (a < b) := inferInstanceAs (Decidable (a.rank < b.rank))

instance : Max Level := ⟨fun a b => if a ≤ b then b else a⟩

theorem not_le (a b : Level) : ¬ a ≤ b ↔ b < a := Nat.not_le

def label : Level → String
  | user => "USER"
  | root => "ROOT"
  | dev => "DEV"

def slug : Level → String
  | user => "user"
  | root => "root"
  | dev => "dev"

def ofSlug? (text : String) : Option Level :=
  [user, root, dev].find? fun level => level.slug = text

theorem ofSlug?_slug (level : Level) : ofSlug? level.slug = some level := by
  cases level <;> decide

end Level

inductive Elevation where
  | root
  | dev
deriving DecidableEq, Repr

namespace Elevation

def level : Elevation → Level
  | root => .root
  | dev => .dev

def question : Elevation → String
  | root => "The script requests ROOT access (file loading and overwriting). Allow?"
  | dev => "The script requests DEV access (diagnostics and unrestricted commands). Allow?"

end Elevation

/-- What an operator decides about a statement whose time has run out. -/
inductive Choice where
  | stop
  /-- The time runs out again after so many more calls. It does not run out again, if there is no number:
  the time is past the end of the clock, or it ends while a level is being asked for, and then the
  statement is waited for. -/
  | wait (calls : Option Nat := some 0)
deriving DecidableEq, Repr

inductive Question where
  | elevation (request : Elevation)
  /-- `extended` holds once the operator has chosen to wait. -/
  | timeout (extended : Bool)
deriving DecidableEq, Repr

/-- The operator: the replies still to be given to requests, each refused once they run out, and the
questions put so far. -/
structure Operator where
  replies : List Bool
  asked : List Question
deriving Repr

namespace Operator

def absent : Operator := ⟨[], []⟩

def confirm (operator : Operator) (request : Elevation) : Bool × Operator :=
  (operator.replies.headD false, ⟨operator.replies.tail, operator.asked ++ [.elevation request]⟩)

def grants (operator : Operator) : Nat :=
  operator.replies.count true

theorem grants_confirm (operator : Operator) (request : Elevation) :
    (operator.confirm request).2.grants + (if (operator.confirm request).1 then 1 else 0) =
      operator.grants := by
  rcases operator with ⟨replies, asked⟩
  cases replies with
  | nil => rfl
  | cons reply replies => cases reply <;> simp [confirm, grants]

end Operator

end PaperFolding
