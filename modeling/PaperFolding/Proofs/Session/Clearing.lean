import PaperFolding.Proofs.Session.Deeds

/-!
What is staged when a statement ends. The commands that make, fold or load paper use up the stage; the one
that opens paper from a document leaves there whatever it finds.
-/

namespace PaperFolding

open Script

def Keyword.command? : Keyword → Option Command
  | .command word => some word
  | .parameter _ => none

namespace Session

/-- The words of a row that the language knows, in order. -/
def keywords (row : List String) : List Keyword := row.filterMap Keyword.ofWord?

theorem keywords_cons (token : String) (rest : List String) :
    keywords (token :: rest) = (Keyword.ofWord? token).toList ++ keywords rest := by
  cases found : Keyword.ofWord? token <;> simp [keywords, found]

def commands (row : List String) : List Command := (keywords row).filterMap Keyword.command?

theorem commands_cons (token : String) (rest : List String) :
    commands (token :: rest) =
      ((Keyword.ofWord? token).bind Keyword.command?).toList ++ commands rest := by
  rw [commands, keywords_cons, List.filterMap_append]
  cases Keyword.ofWord? token with
  | none => rfl
  | some keyword => cases keyword <;> rfl

variable {run : Command → List String → Action Unit} {scope : Scope} {row rest : List String}
  {token statement : String} {session after : Session} {command : Command}

/-! ## The last word of a row -/

/-- Tokens that are no words of the language do nothing. -/
theorem eq_of_no_keywords (none : keywords row = [])
    (done : (dispatch run scope row).on session = (.ok (), after)) :
    after = session ∧ deedsAlong run scope row session = [] := by
  induction row generalizing session with
  | nil =>
      cases done
      exact ⟨rfl, rfl⟩
  | cons token rest induction =>
      rw [keywords_cons, List.append_eq_nil_iff, Option.toList_eq_nil_iff] at none
      obtain ⟨_, reached, obeyed, others⟩ := ok_of_bind done
      have same : reached = session := by
        rcases obeyToken_cases obeyed with ⟨same, -⟩ | ⟨_, _, found, -⟩ | ⟨_, _, found, -⟩
        · exact same
        · rw [none.1] at found
          cases found
        · rw [none.1] at found
          cases found
      obtain ⟨rfl, silent⟩ := induction none.2 others
      refine ⟨same, ?_⟩
      rw [deedsAlong_of_ok obeyed, silent, List.append_nil, Option.toList_eq_nil_iff]
      refine deed?_eq_none (.inr fun command found => ?_)
      rw [none.1] at found
      cases found

/-- If the last word that is known is a command, it is the last that is carried out, and what it leaves
on the stage stays there. -/
theorem last_of_dispatch (last : (keywords row).getLast? = some (.command command))
    (done : (dispatch run scope row).on session = (.ok (), after)) :
    ∃ deed, (deedsAlong run scope row session).getLast? = some deed ∧ deed.command = command ∧
      ∃ rest reached, (run command rest).on deed.session = (.ok (), reached) ∧
        after.stage = reached.stage := by
  induction row generalizing session with
  | nil => cases last
  | cons token rest induction =>
      obtain ⟨_, reached, obeyed, others⟩ := ok_of_bind done
      rw [keywords_cons, List.getLast?_append] at last
      rw [deedsAlong_of_ok obeyed, List.getLast?_append]
      cases tail : (keywords rest).getLast? with
      | some keyword =>
          rw [tail, Option.some_or] at last
          obtain ⟨deed, found, carried⟩ := induction (tail.trans last) others
          exact ⟨deed, by rw [found, Option.some_or], carried⟩
      | none =>
          obtain ⟨rfl, silent⟩ := eq_of_no_keywords (List.getLast?_eq_none_iff.1 tail) others
          have found : Keyword.ofWord? token = some (.command command) := by
            rw [tail, Option.none_or] at last
            cases known : Keyword.ofWord? token with
            | none =>
                rw [known] at last
                cases last
            | some keyword =>
                rw [known] at last
                exact last
          refine ⟨⟨command, session⟩, ?_, rfl, rest, ?_⟩
          · rw [silent, deed?_of_ok found obeyed]
            rfl
          · obtain rfl : command.name = token := Keyword.name_of_ofWord? found
            obtain ⟨obeyed, runs, ends⟩ := obeyToken_command obeyed
            exact ⟨obeyed, runs, (beside_applied ends).2.1⟩

/-! ## What a command leaves on the stage -/

theorem stage_of_clearStage {action : Action Unit}
    (done : (do
      action
      clearStage).on session = (.ok (), after)) : after.stage = .empty := by
  obtain ⟨_, _, -, cleared⟩ := ok_of_bind done
  cases cleared
  rfl

theorem stage_of_makePaper (done : (makePaper scope rest).on session = (.ok (), after)) :
    after.stage = .empty := by
  obtain ⟨_, _, -, done⟩ := ok_of_bind done
  obtain ⟨_, _, -, done⟩ := ok_of_bind done
  obtain ⟨_, _, -, done⟩ := ok_of_bind done
  obtain ⟨_, _, -, done⟩ := ok_of_bind done
  exact stage_of_clearStage done

theorem stage_of_load {nested : Nested} (done : (load nested scope rest).on session = (.ok (), after)) :
    after.stage = .empty := by
  obtain ⟨_, _, -, done⟩ := ok_of_bind done
  obtain ⟨_, _, -, done⟩ := ok_of_bind done
  exact stage_of_clearStage done

theorem stage_of_undoOr {otherwise : Action Unit}
    (done : (undoOr otherwise).on session = (.ok (), after)) : after.stage = .empty := by
  obtain ⟨_, _, -, done⟩ := ok_of_bind done
  exact stage_of_clearStage done

theorem stage_reopen : Preserves Session.stage (reopen scope rest) := by
  refine .bind (.requiredFilename _) fun path => .bind ?_ fun _ => .get_bind fun _ =>
    .get_bind fun _ => .bind (.lift _) fun archive => .bind ?_ fun _ => .bind ?_ fun _ => ?_
  · exact .modify fun _ => rfl
  · exact .modify fun _ => rfl
  · exact .modify fun _ => rfl
  · refine .modify fun session => ?_
    unfold rebasing
    split <;> rfl

/-- The commands after which there is other paper, or paper in another shape. -/
def paperCommands : List Command :=
  [.new, .load, .reopen, .rotate, .reflect, .cut, .undo, .redo]

theorem stage_of_obey {nested : Nested} {takeBack : List String → Action Unit}
    (shapes : command ∈ paperCommands)
    (done : (obey nested scope takeBack command rest).on session = (.ok (), after)) :
    after.stage = if command = .reopen then session.stage else .empty := by
  have folds (folding : command ∈ plainFolds) : after.stage = .empty := (obey_frame folding done).2
  simp only [paperCommands, List.mem_cons, List.not_mem_nil, or_false] at shapes
  rcases shapes with rfl | rfl | rfl | rfl | rfl | rfl | rfl | rfl
  · exact stage_of_makePaper done
  · exact stage_of_load done
  · have same : ((reopen scope rest).on session).2.stage = session.stage := stage_reopen session
    rwa [show (reopen scope rest).on session = (.ok (), after) from done] at same
  · exact folds (by decide)
  · exact folds (by decide)
  · exact folds (by decide)
  · exact stage_of_undoOr done
  · exact stage_of_clearStage done

/-- After a statement whose last word is a command for paper nothing is staged, unless that command opens
a document: then there is on the stage just what was there when it was reached. -/
theorem executed_stage (last : (keywords (tokens statement)).getLast? = some (.command command))
    (shapes : command ∈ paperCommands) (done : session.failure statement = none) :
    ∃ deed, (session.deeds statement).getLast? = some deed ∧ deed.command = command ∧
      (session.executed statement).stage =
        if command = .reopen then deed.session.stage else .empty := by
  obtain ⟨after, runs, settled⟩ := running_of_success done
  obtain ⟨deed, latest, same, rest, reached, obeyed, stage⟩ := last_of_dispatch last runs
  refine ⟨deed, latest, same, ?_⟩
  rw [settled, settle_stage, stage]
  exact stage_of_obey shapes obeyed

/-- A session with a script that stages a target, and with a document. -/
def furnished : Session :=
  ofSettings { Settings.standard with access := .root } .plain
    (.quiet ⟨[], [(["s"], .file "paper [square] new target [1 1]".toUTF8),
      (["a"], .file "[1, null, [[[0, 0], [1, 0], [0, 1]], []]]".toUTF8)], .willing⟩ .absent)

theorem executed_stage_furnished :
    (keywords (tokens "angle [90] filename [s] load")).getLast? = some (.command .load) ∧
      Command.load ∈ paperCommands ∧ furnished.failure "angle [90] filename [s] load" = none ∧
      (furnished.executed "angle [90] filename [s] load").stage = .empty := by
  have last : (keywords (tokens "angle [90] filename [s] load")).getLast? =
      some (.command .load) := by decide +kernel
  have done : furnished.failure "angle [90] filename [s] load" = none := by decide +kernel
  obtain ⟨deed, -, -, stage⟩ := executed_stage last (by decide) done
  exact ⟨last, by decide, done, stage⟩

/-- The plane that was staged for the old paper is there for the new one, which is folded along it. -/
theorem reopen_keeps_stage :
    (keywords (tokens "plane [1 0 0] [1 0 0] filename [a] open")).getLast? =
        some (.command .reopen) ∧
      furnished.failure "plane [1 0 0] [1 0 0] filename [a] open" = none ∧
      (furnished.executed "plane [1 0 0] [1 0 0] filename [a] open").stage ≠ .empty ∧
      (furnished.executed "plane [1 0 0] [1 0 0] filename [a] open").failure "reflect" = none := by
  decide +kernel

end Session

end PaperFolding
