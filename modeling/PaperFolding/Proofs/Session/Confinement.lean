import PaperFolding.Proofs.Script.Naming
import PaperFolding.Proofs.Session.Effective
import PaperFolding.Proofs.Session.Sparing

/-!
Scripts from files. Whatever they say, each of their commands is carried out at the lowest level, and no
entry of a history is done again inside of them.
-/

namespace PaperFolding

open Script

/-- The command is carried out at the lowest level, and takes no higher one. -/
structure Deed.Confined (deed : Deed) : Prop where
  user : deed.session.access = .user
  humble : deed.command.access = .user

theorem Level.eq_user_of_le {level : Level} (low : level ≤ .user) : level = .user := by
  cases level with
  | user => rfl
  | root => cases low
  | dev => cases low

theorem Deed.Confined.not_guarded {deed : Deed} (confined : deed.Confined) :
    deed.command ∉ [.load, .reopen, .compile, .diagnose] := by
  have guarded : ∀ command ∈ [Command.load, .reopen, .compile, .diagnose],
      command.access ≠ .user := by decide
  exact fun among => guarded _ among confined.humble

namespace Session

variable {depth : Nat} {cancellable : Bool} {row : List String} {source statement : String}
  {session : Session} {deed : Deed}

/-! ## Deeds in scripts from files -/

theorem confined_of_spares {run : Command → List String → Action Unit} {scope : Scope}
    (user : session.access = .user) (among : deed ∈ deedsAlong run scope row session)
    (spares : Spares False session.surroundings deed.session.surroundings) : deed.Confined := by
  have still : deed.session.access = .user := spares.access.trans user
  obtain ⟨-, permitted⟩ := known_of_mem among
  exact ⟨still, Level.eq_user_of_le (still ▸ access_of_permit permitted)⟩

theorem confined_bodyDeeds (meek : Meek session) (user : session.access = .user)
    (among : deed ∈ bodyDeeds (.ofDepth depth) cancellable row session) : deed.Confined :=
  confined_of_spares user among
    ((sparing_runBody (sparesScripts False depth) meek (.inl user)).2 deed among)

theorem confined_sandboxDeeds (meek : Meek session)
    (among : deed ∈ recordedDeeds (.ofDepth depth) cancellable row (session.sandbox.enter source)) :
    deed.Confined :=
  confined_of_spares rfl among ((sparing_sandbox (sparesScripts False depth) meek).2 deed among)

/-- Nothing runs inside of what is confined, as running a script takes a higher level. -/
theorem scriptDeeds_of_confined (confined : deed.Confined) (depth : Nat) (cancellable : Bool) :
    scriptDeeds depth cancellable deed = [] := by
  have humble := confined.humble
  cases depth with
  | zero => rfl
  | succ depth =>
      unfold scriptDeeds
      dsimp only
      split
      · rename_i command
        rw [command] at humble
        cases humble
      · rename_i command
        rw [command] at humble
        cases humble
      · rfl

theorem confined_scriptDeeds (meek : Meek deed.session) {inner : Deed}
    (among : inner ∈ scriptDeeds depth cancellable deed) : inner.Confined := by
  cases depth with
  | zero => cases among
  | succ depth =>
      unfold scriptDeeds at among
      dsimp only at among
      split at among
      · split at among
        · rename_i path source after found
          have confined : ∀ other ∈ bodyDeeds (.ofDepth depth) cancellable (tokens source)
              (deed.session.withAccess .user), other.Confined :=
            fun other => confined_bodyDeeds meek.withAccess rfl
          have others := List.flatMap_eq_nil_iff.2 fun other inside =>
            scriptDeeds_of_confined (confined other inside) depth cancellable
          rw [others, List.append_nil] at among
          exact confined inner among
        · cases among
      · split at among
        · rename_i path source after found
          have confined : ∀ other ∈ recordedDeeds (.ofDepth depth) cancellable (tokens source)
              (deed.session.sandbox.enter source), other.Confined :=
            fun other => confined_sandboxDeeds meek
          rw [List.flatMap_eq_nil_iff.2, List.append_nil] at among
          · exact confined inner among
          · intro other inside
            rw [replayDeeds_sandbox _ _ inside,
              scriptDeeds_of_confined (confined other inside)]
            rfl
        · cases among
      · cases among

/-! ## Statements that run a script -/

section Running

variable {path : String} {command : Command}

/-- A closing bracket would end the name of the file, and what follows it would be read as words. -/
theorem eq_of_naming (nameable : ']' ∉ path.toList) (runs : command = .load ∨ command = .compile)
    {word : String} (among : word ∈ tokens ("filename [" ++ path ++ "] " ++ command.name))
    {other : Command} (found : Keyword.ofWord? word = some (.command other)) : other = command := by
  have plain : Plain command.name.toList ∧ '\x7d' ∉ command.name.toList ∧
      command.name.toList ≠ [] := by
    rcases runs with rfl | rfl <;> decide
  obtain ⟨group, fragment, reads⟩ := tokens_naming nameable plain.1 plain.2.1 plain.2.2
  have words : word = Parameter.filename.name ∨ word = group ∨ word = command.name := by
    rcases reads with reads | reads
    · rwa [reads, List.mem_cons, List.mem_cons, List.mem_singleton] at among
    · rw [reads, List.mem_cons, List.mem_singleton] at among
      exact among.imp_right .inl
  rcases words with rfl | rfl | rfl
  · rw [Parameter.ofWord?_name] at found
    cases found
  · obtain rfl : other.name = word := Keyword.name_of_ofWord? found
    rw [other.isFragment_name] at fragment
    cases fragment
  · rw [Command.ofWord?_name] at found
    cases found
    rfl

theorem redone_of_runs (runs : deed.command = .load ∨ deed.command = .compile) :
    deed.redone = [] := by
  refine if_neg fun anew => ?_
  rw [anew.1] at runs
  rcases runs with run | run <;> cases run

theorem tame_of_runs {quiet : Prop} (runs : deed.command = .load ∨ deed.command = .compile) :
    deed.Tame quiet := by
  refine .inr ?_
  rcases runs with run | run <;> simp [Deed.overwrites, run]

/-- A statement that runs a script from a file changes no file and writes nothing to the transcript, if the
operator does not agree to more, and leaves the level as it is, however high that is. In the script each
command is carried out at the lowest level, and none that takes a higher one. -/
theorem executed_confined (meek : Meek session) (nameable : ']' ∉ path.toList)
    (runs : command = .load ∨ command = .compile)
    (names : statement = "filename [" ++ path ++ "] " ++ command.name) :
    session.world.files.Extends (session.executed statement).world.files ∧
      (session.executed statement).transcript = session.transcript ∧
      (session.executed statement).access = session.access ∧
      ∀ deed ∈ session.nestedDeeds statement,
        deed.session.access = .user ∧ deed.command.access = .user ∧
          deed.command ∉ [.load, .reopen, .compile, .diagnose] := by
  have running : ∀ deed ∈ session.deeds statement, deed.command = .load ∨ deed.command = .compile := by
    intro deed among
    obtain ⟨⟨word, inside, found⟩, -⟩ := known_of_mem among
    rw [names] at inside
    rwa [eq_of_naming nameable runs inside found]
  have nothing (deed : Deed) (among : deed ∈ session.deeds statement) : deed.redone = [] :=
    redone_of_runs (running deed among)
  have again : ∀ deed ∈ session.redoneDeeds statement, deed.Tame True := by
    intro inner among
    obtain ⟨deed, among, inside⟩ := List.mem_flatMap.1 among
    rw [replayDeeds_of_redone _ _ (nothing deed among)] at inside
    cases inside
  obtain ⟨spares, reached⟩ :=
    spares_executed meek (.inr fun deed among => tame_of_runs (running deed among)) again
  obtain ⟨grows, still, hushed⟩ := spares.seen
  refine ⟨grows, hushed trivial, still, fun inner among => ?_⟩
  obtain ⟨deed, among, inside⟩ := List.mem_flatMap.1 among
  rw [replayDeeds_of_redone _ _ (nothing deed among), List.nil_append] at inside
  have confined := confined_scriptDeeds (meek.of_spares (reached deed among)) inside
  exact ⟨confined.user, confined.humble, confined.not_guarded⟩

/-- The script wants to write a document and to report. -/
def guarding : Session :=
  ofSettings { Settings.standard with access := .dev } .plain
    (.quiet
      ⟨[], [(["s"], .file "paper [square] new filename [a] export-ori diagnostics".toUTF8)], .willing⟩
      .absent)

theorem executed_confined_guarding :
    (guarding.nestedDeeds "filename [s] load").map Deed.command = [.new, .write .archive] ∧
      guarding.failure "filename [s] load" = some (.access .dev .user) ∧
      guarding.world.files.Extends (guarding.executed "filename [s] load").world.files ∧
      (guarding.executed "filename [s] load").transcript = [] ∧
      (guarding.executed "filename [s] load").access = .dev ∧
      (guarding.nestedDeeds "filename [s] compile").map Deed.command = [.new, .write .archive] ∧
      (guarding.executed "filename [s] compile").access = .dev := by
  have meek : guarding.Meek := ⟨rfl, by decide +kernel⟩
  have loads : "filename [s] load" = "filename [" ++ "s" ++ "] " ++ Command.load.name := by decide
  have compiles : "filename [s] compile" = "filename [" ++ "s" ++ "] " ++ Command.compile.name := by
    decide
  obtain ⟨grows, hushed, still, -⟩ := executed_confined meek (by decide) (.inl rfl) loads
  obtain ⟨-, -, still', -⟩ := executed_confined meek (by decide) (.inr rfl) compiles
  exact ⟨by decide +kernel, by decide +kernel, grows, hushed, still, by decide +kernel, still'⟩

end Running

end Session

end PaperFolding
