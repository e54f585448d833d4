import PaperFolding.Proofs.Session.Facing

/-!
The paper that a loaded script leaves, when it is loaded into one session and into another. It is the same
paper if the script makes its own before it looks at any.
-/

namespace PaperFolding

open Script

namespace Session

variable {first second : Session} {rest : List String}

/-- What a script does in front of `new` and behind it, so that its paper does not depend on which of two
sessions it is run in: it leaves the old paper out of sight, lays out a sheet of its own unless both
sessions have staged the same, and colors it unless both have the same color or nothing behind `new`
writes or loads. -/
structure StartsAfresh (first second : Session) (front rest : List String) : Prop where
  passes : passesOver front = true
  sheet : first.stage.SameSheet second.stage ∨ Parameter.paper.name ∈ front
  color : first.color = second.color ∨
    (Parameter.color.name ∈ front ∨ Parameter.uncolor.name ∈ front) ∨
    Sight.AdmitsRow (.ofPaper false) rest

/-- Two sessions that may load scripts from the same files. Their paper, what they have staged, their
appearance and their history may be as different as can be. -/
structure Peers (first second : Session) : Prop where
  plain : first.engine = .plain
  plain' : second.engine = .plain
  unwatched : first.Unwatched
  unwatched' : second.Unwatched
  rooted : Level.root ≤ first.access
  rooted' : Level.root ≤ second.access
  settings : first.settings = second.settings
  files : first.world.files = second.world.files
  replies : first.world.operator.replies = second.world.operator.replies

theorem Peers.facing (peers : Peers first second) {laid tinted : Bool}
    (sheet : laid = true → first.stage.SameSheet second.stage)
    (color : tinted = true → first.color = second.color) (statement group : String) :
    Facing laid tinted (first.opening statement group) (second.opening statement group) where
  resembles :=
    { plain := peers.plain
      plain' := peers.plain'
      unwatched := peers.unwatched
      unwatched' := peers.unwatched'
      settings := peers.settings
      access := rfl
      filename := rfl
      files := peers.files
      replies := peers.replies
      model := nofun
      stage := nofun
      color
      camera := nofun
      texture := nofun
      locale := nofun
      transcript := nofun
      history := nofun
      draft := nofun }
  sheet

theorem StartsAfresh.exists_laid {front : List String} (afresh : StartsAfresh first second front rest) :
    ∃ laid, (laid = true → first.stage.SameSheet second.stage) ∧
      (laid || front.any lays) = true := by
  rcases afresh.sheet with same | among
  · exact ⟨true, fun _ => same, rfl⟩
  · refine ⟨false, nofun, List.any_eq_true.2 ⟨_, among, ?_⟩⟩
    rw [lays, Parameter.ofWord?_name]
    rfl

theorem StartsAfresh.exists_tinted {front : List String} (afresh : StartsAfresh first second front rest) :
    ∃ tinted, (tinted = true → first.color = second.color) ∧
      Sight.AdmitsRow (.ofPaper (tinted || front.any paints)) rest := by
  have all : Sight.AdmitsRow (.ofPaper true) rest :=
    fun _ _ command _ => Sight.admits_of_seen rfl rfl command
  have untinted : false = true → first.color = second.color := nofun
  rcases afresh.color with same | painted | admits
  · exact ⟨true, fun _ => same, all⟩
  · have paints : front.any paints = true := by
      rcases painted with among | among
      all_goals
        refine List.any_eq_true.2 ⟨_, among, ?_⟩
        rw [Session.paints, Parameter.ofWord?_name]
        rfl
    exact ⟨false, untinted, by rwa [paints, Bool.or_true]⟩
  · refine ⟨false, untinted, ?_⟩
    cases front.any paints with
    | false => exact admits
    | true => exact all

theorem Peers.loading_meets (peers : Peers first second) {front : List String} {source : String}
    (reads : tokens source = front ++ Command.new.name :: rest)
    (afresh : StartsAfresh first second front rest) (statement group : String) :
    ∃ tinted, Meets (Resembles (.ofPaper tinted)) (first.loading statement group source)
      (second.loading statement group source) := by
  obtain ⟨laid, sheet, lays⟩ := afresh.exists_laid
  obtain ⟨tinted, color, admits⟩ := afresh.exists_tinted
  have grants : first.world.operator.grants = second.world.operator.grants := by
    rw [Operator.grants, Operator.grants, peers.replies]
  have scripts := blindScripts_ofDepth second.world.operator.grants
  refine ⟨tinted || front.any paints, ?_⟩
  rw [loading, loading, grants, runBody, reads]
  refine (peers.facing sheet color statement group).dispatch scripts (fun _ _ => .throw _)
    afresh.passes fun facing => ?_
  rw [lays] at facing
  exact facing.dispatch_new scripts (fun _ => .throw _) admits

/-- Loading a script that starts afresh ends alike in any two sessions, and if it succeeds, both have the
same paper, or none. -/
theorem loaded_alike (peers : Peers first second) {statement group : String}
    (loads : Loads statement group)
    (afresh : ∀ source, first.world.files.readText (argument group) = .ok source →
      ∃ front rest, tokens source = front ++ Command.new.name :: rest ∧
        StartsAfresh first second front rest) :
    second.failure statement = first.failure statement ∧
      (first.failure statement = none →
        (second.executed statement).model = (first.executed statement).model) := by
  have unstopped := peers.unwatched.unstopped
  have unstopped' := peers.unwatched'.unstopped
  cases read : first.world.files.readText (argument group) with
  | error error =>
      have failure := loads.failure_of_error peers.rooted unstopped read
      rw [peers.files] at read
      have failure' := loads.failure_of_error peers.rooted' unstopped' read
      refine ⟨failure'.trans failure.symm, fun done => ?_⟩
      rw [failure] at done
      cases done
  | ok source =>
      obtain ⟨failure, model⟩ := loads.of_loading peers.rooted unstopped read
      obtain ⟨front, rest, reads, afresh⟩ := afresh source read
      rw [peers.files] at read
      obtain ⟨failure', model'⟩ := loads.of_loading peers.rooted' unstopped' read
      obtain ⟨tinted, outcome, related⟩ := peers.loading_meets reads afresh statement group
      have same : second.failure statement = first.failure statement := by
        rw [failure, failure', outcome]
      refine ⟨same, fun done => ?_⟩
      rw [model done, model' (same.trans done)]
      rw [failure, faultOf_eq_none] at done
      exact ((related () done).model rfl).symm

/-- A session that may load one script. -/
def shelved (script : String) : Session :=
  rooted .standard ⟨[], [(["s"], .file script.toUTF8)], .willing⟩ .absent

/-- The session with paper, with a sheet and an angle staged, in another color. -/
def cluttered (session : Session) : Session :=
  { session with
    model := some (.ofPreset .a4)
    stage := { Stage.empty with angle := some 90, preset := some .hexagon }
    color := .navy
    history := ["paper [a4] new", "angle [90] paper [hexagon] uncolor"] }

theorem peers_cluttered (script : String) : Peers (shelved script) (shelved script).cluttered :=
  ⟨rfl, rfl, ⟨rfl, rfl⟩, ⟨rfl, rfl⟩, Nat.le_refl _, Nat.le_refl _, rfl, rfl, rfl⟩

theorem loads_shelved : Loads (loadOf "s") "[s]" :=
  ⟨by decide +kernel, by decide +kernel, by decide +kernel⟩

def ownSheet : String := "color [1] paper [square] new plane [1 0 0] [1 0 0] reflect"

theorem loaded_alike_cluttered :
    (shelved ownSheet).failure (loadOf "s") = none ∧
      (shelved ownSheet).cluttered.failure (loadOf "s") = none ∧
      ((shelved ownSheet).cluttered.executed (loadOf "s")).model =
        ((shelved ownSheet).executed (loadOf "s")).model := by
  have done : (shelved ownSheet).failure (loadOf "s") = none := by decide +kernel
  have found : (shelved ownSheet).world.files.readText (argument "[s]") = .ok ownSheet := by
    decide +kernel
  have alike := loaded_alike (peers_cluttered ownSheet) loads_shelved fun source read => by
    rw [found] at read
    cases read
    exact ⟨["color", "[1]", "paper", "[square]"], ["plane", "[1|0|0]", "[1|0|0]", "reflect"],
      by decide +kernel, by decide +kernel, .inr (by decide +kernel), .inr (.inl (by decide +kernel))⟩
  exact ⟨done, alike.1.trans done, alike.2 done⟩

/-- A script that makes no paper leaves there what it finds: none, or the old one. -/
theorem idle_script_keeps_paper :
    Peers (shelved "color [1]") (shelved "color [1]").cluttered ∧
      ((shelved "color [1]").failure (loadOf "s") = none ∧
        (shelved "color [1]").cluttered.failure (loadOf "s") = none) ∧
      ((shelved "color [1]").executed (loadOf "s")).model = none ∧
      ((shelved "color [1]").cluttered.executed (loadOf "s")).model = some (.ofPreset .a4) :=
  ⟨peers_cluttered _, by decide +kernel⟩

end Session

end PaperFolding
