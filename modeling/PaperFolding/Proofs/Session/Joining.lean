import PaperFolding.Proofs.Session.Rebuilding

/-!
Rows obeyed one behind the other, and as one row. A parameter takes everything up to the next known word,
so it makes a difference where a row ends whose last known word is a parameter.
-/

namespace PaperFolding

open Script

/-- The number of arguments that a parameter reads. -/
def Parameter.arity : Parameter → Nat
  | .plane => 2
  | .planeThrough | .angleBisector | .camera => 3
  | .uncolor => 0
  | _ => 1

theorem Parameter.length_of_setting {parameter : Parameter} {placing : Placing}
    {arguments : List String} {setting : Setting}
    (reads : parameter.setting placing arguments = .ok setting) :
    arguments.length = parameter.arity := by
  unfold Parameter.setting at reads
  split at reads
  case h_16 => cases reads
  all_goals rfl

namespace Session

variable {run : Command → List String → Action Unit} {scope : Scope} {held : Bool}
  {token : String} {row rest back : List String} {rows : List (List String)}
  {session after : Session}

/-- Every parameter of the row finds in it just the arguments that it reads. -/
def Fits : List String → Prop
  | [] => True
  | token :: rest =>
      (∀ parameter, Keyword.ofWord? token = some (.parameter parameter) →
        (taken rest).length = parameter.arity) ∧ Fits rest

theorem fits_of_dispatch (done : (dispatch run scope row).on session = (.ok (), after)) :
    Fits row := by
  induction row generalizing session with
  | nil => trivial
  | cons token rest induction =>
      obtain ⟨_, reached, obeyed, others⟩ := ok_of_bind done
      refine ⟨fun parameter found => ?_, induction others⟩
      obtain rfl : parameter.name = token := Keyword.name_of_ofWord? found
      obtain ⟨setting, reads, -⟩ := obeyToken_parameter obeyed
      rw [← Parameter.length_of_setting reads, List.length_map]

theorem Fits.append_right (fits : Fits (row ++ back)) : Fits back := by
  induction row with
  | nil => exact fits
  | cons token rest induction => exact induction fits.2

/-! ## Where a row ends -/

/-- Whether a parameter is the last known word up to the end of the row; `held` tells whether one is up
to its beginning. -/
def grasping (held : Bool) : List String → Bool
  | [] => held
  | token :: rest =>
      grasping (match Keyword.ofWord? token with
        | some (.parameter _) => true
        | some (.command _) => false
        | none => held) rest

/-- Whether some row begins with tokens that a parameter of a row before it would take. -/
def runsOver (held : Bool) : List (List String) → Bool
  | [] => false
  | row :: rows => (held && !(taken row).isEmpty) || runsOver (grasping held row) rows

/-- What is open before a known word does not matter behind it. -/
theorem grasping_known {keyword : Keyword} (found : Keyword.ofWord? token = some keyword) :
    grasping held (token :: rest) = grasping false (token :: rest) := by
  rw [grasping, grasping, found]
  cases keyword <;> rfl

theorem grasping_unknown (unknown : Keyword.ofWord? token = none) :
    grasping held (token :: rest) = grasping held rest := by
  rw [grasping, unknown]

theorem grasping_parameter {parameter : Parameter}
    (found : Keyword.ofWord? token = some (.parameter parameter)) :
    grasping held (token :: rest) = grasping true rest := by
  rw [grasping, found]

theorem grasping_command {command : Command}
    (found : Keyword.ofWord? token = some (.command command)) :
    grasping held (token :: rest) = grasping false rest := by
  rw [grasping, found]

theorem isKnown_eq_false_iff : isKnown token = false ↔ Keyword.ofWord? token = none := by
  simp [isKnown]

theorem taken_cons_unknown (unknown : isKnown token = false) :
    taken (token :: rest) = token :: taken rest := by
  simp [taken, unknown]

theorem taken_eq_nil_of_append (none : taken (row ++ back) = []) : taken row = [] := by
  cases row with
  | nil => rfl
  | cons token rest =>
      cases known : isKnown token with
      | true => exact taken_known known _
      | false =>
          rw [List.cons_append, taken_cons_unknown known] at none
          cases none

theorem taken_append_of_apart (apart : grasping true row = true → taken back = []) :
    taken (row ++ back) = taken row := by
  induction row with
  | nil => exact apart rfl
  | cons token rest induction =>
      rw [List.cons_append]
      cases known : isKnown token with
      | true => rw [taken_known known, taken_known known]
      | false =>
          rw [grasping_unknown (isKnown_eq_false_iff.1 known)] at apart
          rw [taken_cons_unknown known, taken_cons_unknown known, induction apart]

theorem grasping_of_within (within : grasping false row = true) : grasping held row = true := by
  induction row with
  | nil => cases within
  | cons token rest induction =>
      cases found : Keyword.ofWord? token with
      | none =>
          rw [grasping_unknown found] at within ⊢
          exact induction within
      | some keyword => rwa [grasping_known found]

/-- A row behind which a parameter is open has one itself, or it has no known word at all. -/
theorem grasping_cases (grasps : grasping held row = true) :
    grasping false row = true ∨ held = true ∧ taken row = row := by
  induction row with
  | nil => exact .inr ⟨grasps, rfl⟩
  | cons token rest induction =>
      cases found : Keyword.ofWord? token with
      | some keyword => exact .inl (by rwa [grasping_known found] at grasps)
      | none =>
          rw [grasping_unknown found] at grasps ⊢
          refine (induction grasps).imp_right fun ⟨before, all⟩ => ⟨before, ?_⟩
          rw [taken_cons_unknown (isKnown_eq_false_iff.2 found), all]

theorem taken_append_of_all (all : taken row = row) : taken (row ++ back) = row ++ taken back := by
  induction row with
  | nil => rfl
  | cons token rest induction =>
      cases known : isKnown token with
      | true =>
          rw [taken_known known] at all
          cases all
      | false =>
          rw [taken_cons_unknown known] at all
          rw [List.cons_append, taken_cons_unknown known, induction (List.cons.inj all).2,
            List.cons_append]

theorem taken_back_of_fits (fits : Fits row) (whole : Fits (row ++ back))
    (grasps : grasping false row = true) : taken back = [] := by
  induction row with
  | nil => cases grasps
  | cons token rest induction =>
      have within (later : grasping false rest = true) : taken back = [] :=
        induction fits.2 whole.2 later
      cases found : Keyword.ofWord? token with
      | none => exact within (by rwa [grasping_unknown found] at grasps)
      | some keyword =>
          cases keyword with
          | command command => exact within (by rwa [grasping_command found] at grasps)
          | parameter parameter =>
              rw [grasping_parameter found] at grasps
              rcases grasping_cases grasps with later | ⟨-, all⟩
              · exact within later
              · have alone : (taken rest).length = parameter.arity := fits.1 parameter found
                have joined : (taken (rest ++ back)).length = parameter.arity :=
                  whole.1 parameter found
                rw [taken_append_of_all all, List.length_append] at joined
                rw [all] at alone
                exact List.length_eq_zero_iff.1 (by omega)

/-- Rows that fit each by itself and fit as one row do not run over. -/
theorem runsOver_of_fits (fits : ∀ row ∈ rows, Fits row) (whole : Fits rows.flatten)
    (front : held = true → taken rows.flatten = []) : runsOver held rows = false := by
  induction rows generalizing held with
  | nil => rfl
  | cons row rows induction =>
      obtain ⟨here, others⟩ := List.forall_mem_cons.1 fits
      rw [List.flatten_cons] at whole front
      rw [runsOver, Bool.or_eq_false_iff]
      constructor
      · cases held with
        | false => rfl
        | true => simp [taken_eq_nil_of_append (front rfl)]
      · refine induction others whole.append_right fun grasps => ?_
        rcases grasping_cases grasps with within | ⟨before, all⟩
        · exact taken_back_of_fits here whole within
        · have nothing := front before
          rw [taken_append_of_all all, List.append_eq_nil_iff] at nothing
          exact nothing.2

theorem taken_flatten_of_apart (apart : runsOver true rows = false) : taken rows.flatten = [] := by
  induction rows with
  | nil => rfl
  | cons row rows induction =>
      rw [runsOver, Bool.true_and, Bool.or_eq_false_iff] at apart
      rw [List.flatten_cons]
      cases row with
      | nil => exact induction apart.2
      | cons token rest =>
          cases known : isKnown token with
          | true => exact taken_known known _
          | false =>
              rw [taken_cons_unknown known] at apart
              cases apart.1

/-! ## One row for many -/

/-- What a command does does not depend on what follows it. -/
def Restless (run : Command → List String → Action Unit) : Prop :=
  ∀ command rest rest', run command rest = run command rest'

theorem obeyToken_append (restless : Restless run)
    (apart : grasping false (token :: rest) = true → taken back = []) :
    obeyToken run scope token (rest ++ back) = obeyToken run scope token rest := by
  unfold obeyToken obeyWord
  cases found : Keyword.ofWord? token with
  | none => rfl
  | some keyword =>
      cases keyword with
      | command command =>
          dsimp only
          rw [obeyCommand, obeyCommand, restless command (rest ++ back) rest]
      | parameter parameter =>
          rw [grasping_parameter found] at apart
          dsimp only
          rw [obeyParameter, obeyParameter, taken_append_of_apart apart]

theorem dispatch_append (restless : Restless run)
    (apart : grasping false row = true → taken back = []) :
    dispatch run scope (row ++ back) = dispatch run scope row >>= fun _ => dispatch run scope back := by
  induction row with
  | nil => rw [List.nil_append, dispatch, pure_bind]
  | cons token rest induction =>
      have behind : grasping false rest = true → taken back = [] := by
        intro later
        exact apart (by rw [grasping]; exact grasping_of_within later)
      rw [List.cons_append, dispatch, dispatch, obeyToken_append restless apart, induction behind,
        bind_assoc]

theorem dispatch_flatten (restless : Restless run) (apart : runsOver held rows = false) :
    dispatch run scope rows.flatten = rows.forM (dispatch run scope) := by
  induction rows generalizing held with
  | nil => rfl
  | cons row rows induction =>
      rw [runsOver, Bool.or_eq_false_iff] at apart
      have behind : grasping false row = true → taken rows.flatten = [] := by
        intro grasps
        have later := apart.2
        rw [grasping_of_within grasps] at later
        exact taken_flatten_of_apart later
      rw [List.flatten_cons, dispatch_append restless behind, induction apart.2]
      rfl

end Session

end PaperFolding
