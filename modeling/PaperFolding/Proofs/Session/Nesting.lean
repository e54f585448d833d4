import PaperFolding.Proofs.Session.HistoryShape
import PaperFolding.Proofs.Session.Reasons
import PaperFolding.Proofs.Session.Spending

/-!
How deep scripts are nested. A script begins at the lowest level, and to run another one it has to be
granted a higher one. So the grants that a statement spends bound the depth it gets to, and every statement
comes to an end.
-/

namespace PaperFolding

/-- Every fault but a want of depth. -/
def Reasons.shallow : Reasons := .except .nestedTooDeep id

namespace Session

/-! ## Levels of scripts -/

/-- Scripts that run the given ones inside. -/
def Nested.enclosing (inner : Nested) : Nested :=
  ⟨fun cancellable source => atLevel .user (runBody inner cancellable (Script.tokens source)),
    fun cancellable source => inSandbox (attempt inner cancellable source)⟩

/-- So many levels of scripts, with the given ones below them. -/
def Nested.within (deeper : Nested) : Nat → Nested
  | 0 => deeper
  | levels + 1 => (deeper.within levels).enclosing

theorem Nested.within_add (deeper : Nested) (depth levels : Nat) :
    deeper.within (depth + levels) = (deeper.within depth).within levels := by
  induction levels with
  | zero => rfl
  | succ levels induction => exact congrArg enclosing induction

theorem Nested.within_ofDepth (depth levels : Nat) :
    (ofDepth depth).within levels = ofDepth (depth + levels) := by
  induction levels with
  | zero => rfl
  | succ levels induction => exact congrArg enclosing induction

theorem Nested.within_of_enclosing {nested : Nested} (whole : nested.enclosing = nested)
    (levels : Nat) : nested.within levels = nested := by
  induction levels with
  | zero => rfl
  | succ levels induction => rw [within, induction, whole]

/-! ## Actions that agree -/

variable {α β : Type} {spare levels : Nat} {session : Session}

/-- If the first action leaves the spare grants untouched, the second does just the same. -/
def Agrees (spare : Nat) (action action' : Action α) (session : Session) : Prop :=
  spare ≤ (action.on session).2.grants → action'.on session = action.on session

namespace Agrees

theorem refl (action : Action α) (session : Session) : Agrees spare action action session :=
  fun _ => rfl

theorem bind {action action' : Action α} {next next' : α → Action β}
    (front : Agrees spare action action' session) (spends : ∀ value, Spends (next value))
    (others : ∀ value after, action.on session = (.ok value, after) →
      Agrees spare (next value) (next' value) after) :
    Agrees spare (action >>= next) (action' >>= next') session := by
  intro enough
  rw [Agrees] at front
  rw [Action.on_bind] at enough ⊢
  rw [Action.on_bind]
  revert front others enough
  rcases action.on session with ⟨fault | value, after⟩
  · intro front _ enough
    rw [front enough]
  · intro front others enough
    rw [front (Nat.le_trans enough (spends value after).fewer)]
    exact others value after rfl enough

theorem look_bind {action : Action α} {next next' : α → Action β} (looks : Looks action)
    (others : ∀ value, (action.on session).1 = .ok value →
      Agrees spare (next value) (next' value) session) :
    Agrees spare (action >>= next) (action >>= next') session := by
  have same := looks session
  intro enough
  rw [Action.on_bind] at enough ⊢
  rw [Action.on_bind]
  revert same others enough
  rcases action.on session with ⟨fault | value, after⟩
  · exact fun _ _ _ => rfl
  · rintro others rfl enough
    exact others value rfl enough

theorem atLevel {level : Level} {action action' : Action Unit}
    (agrees : Agrees spare action action' (session.withAccess level)) :
    Agrees spare (atLevel level action) (Session.atLevel level action') session := by
  intro enough
  rw [on_atLevel, on_atLevel, agrees enough]

end Agrees

/-- Scripts agree as long as there are, beside the spare grants, fewer than levels. -/
def AgreeScripts (spare levels : Nat) (nested nested' : Nested) : Prop :=
  ∀ cancellable source session, session.grants < levels + spare →
    Agrees spare (nested.load cancellable source) (nested'.load cancellable source) session ∧
      Agrees spare (nested.compile cancellable source) (nested'.compile cancellable source) session

/-- Beside the spare grants there are fewer than levels; or just as many, as long as the next level down
still takes one of them. -/
def Funded (spare levels : Nat) (session : Session) : Prop :=
  session.grants < levels + spare ∨
    session.access = .user ∧ session.grants ≤ levels + spare

theorem Funded.outlay {after : Session} (funded : Funded spare levels session)
    (spent : Outlay session after) : Funded spare levels after := by
  rcases funded with fewer | ⟨lowest, enough⟩
  · exact .inl (Nat.lt_of_le_of_lt spent.fewer fewer)
  · rcases spent.earns with same | less
    · exact .inr ⟨same.trans lowest, Nat.le_trans spent.fewer enough⟩
    · exact .inl (Nat.lt_of_lt_of_le less enough)

theorem Funded.fewer (funded : Funded spare levels session) (raised : Level.root ≤ session.access) :
    session.grants < levels + spare := by
  rcases funded with fewer | ⟨lowest, -⟩
  · exact fewer
  · rw [lowest] at raised
    exact absurd raised (by decide)

/-! ## Tokens -/

section Scripts

variable {nested nested' : Nested} {scope : Scope} {takeBack takeBack' : List String → Action Unit}
  {rest : List String}

theorem agrees_obey (scripts : AgreeScripts spare levels nested nested')
    (funded : Funded spare levels session)
    (takesBack : Agrees spare (takeBack rest) (takeBack' rest) session) {command : Command}
    (permitted : command.access ≤ session.access) :
    Agrees spare (obey nested scope takeBack command rest)
      (obey nested' scope takeBack' command rest) session := by
  cases command with
  | load =>
      apply Agrees.look_bind (looks_scriptFile _)
      rintro ⟨path, source⟩ _
      have loads := (scripts scope.cancellable source session (funded.fewer permitted)).1
      apply loads.bind
      · exact fun _ => .bind (.silent (Silent.rebase scope _ rest)) fun _ => .silent Silent.clearStage
      · exact fun _ _ _ => .refl _ _
  | compile =>
      apply Agrees.look_bind (looks_scriptFile _)
      rintro ⟨path, source⟩ _
      have compiles := (scripts scope.cancellable source session (funded.fewer permitted)).2
      exact compiles.bind (fun _ => .silent Silent.clearStage) fun _ _ _ => .refl _ _
  | undo =>
      have looks : Looks (get : Action Session) := fun _ => rfl
      apply Agrees.look_bind looks
      rintro _ ⟨⟩
      refine .bind ?_ (fun _ => .silent Silent.clearStage) fun _ _ _ => .refl _ _
      split
      · exact .refl _ _
      · exact takesBack
  | _ => exact .refl _ _

theorem agrees_obeyToken (scripts : AgreeScripts spare levels nested nested')
    (funded : Funded spare levels session)
    (takesBack : Agrees spare (takeBack rest) (takeBack' rest) session) (token : String) :
    Agrees spare (obeyToken (obey nested scope takeBack) scope token rest)
      (obeyToken (obey nested' scope takeBack') scope token rest) session := by
  unfold obeyToken
  split
  · exact .refl _ _
  · apply Agrees.look_bind (looks_checkpoint scope)
    intro _ _
    unfold obeyWord
    split
    · apply Agrees.look_bind (looks_permit _)
      intro _ permitted
      refine (agrees_obey scripts funded takesBack (access_of_permit permitted)).bind ?_
        fun _ _ _ => .refl _ _
      intro _
      split
      · exact .silent (.modify fun _ => rfl)
      · exact .looking fun _ => rfl
    · exact .refl _ _
    · exact .refl _ _

/-- What holds of the session goes from token to token in the first run only; the second one follows. -/
theorem agrees_dispatch {holds : Session → Prop} (scripts : AgreeScripts spare levels nested nested')
    (spends : ∀ command rest, Spends (obey nested scope takeBack command rest))
    (funded : ∀ {session}, holds session → Funded spare levels session)
    (takesBack : ∀ {session} rest, holds session →
      Agrees spare (takeBack rest) (takeBack' rest) session)
    (kept : ∀ {token rest session after}, holds session →
      (obeyToken (obey nested scope takeBack) scope token rest).on session = (.ok (), after) →
      holds after) (row : List String) (held : holds session) :
    Agrees spare (dispatch (obey nested scope takeBack) scope row)
      (dispatch (obey nested' scope takeBack') scope row) session := by
  induction row generalizing session with
  | nil => exact .refl _ _
  | cons token rest induction =>
      apply (agrees_obeyToken scripts (funded held) (takesBack rest held) token).bind
      · exact fun _ => spends_dispatch spends rest
      · exact fun _ _ obeyed => induction (kept held obeyed)

/-! ## Scripts -/

theorem agrees_runBody (scripts : AgreeScripts spare levels nested nested')
    (spend : ScriptsSpend nested) (cancellable : Bool) (row : List String)
    (funded : Funded spare levels session) :
    Agrees spare (runBody nested cancellable row) (runBody nested' cancellable row) session := by
  have refuses : Spends (throw (.missing .undoableFold) : Action Unit) := .looking fun _ => rfl
  have spends (command : Command) (rest : List String) :
      Spends (obey nested ⟨false, cancellable⟩ (fun _ => throw (.missing .undoableFold)) command
        rest) := spends_obey spend (fun _ => refuses) command rest
  apply agrees_dispatch scripts spends id
  · exact fun _ _ => .refl _ _
  · exact fun funded obeyed => funded.outlay ((spends_obeyToken spends _ _).outlay_of_ok obeyed)
  · exact funded

theorem agrees_entries (scripts : AgreeScripts spare levels nested nested')
    (spend : ScriptsSpend nested) (entries : List String)
    (fewer : session.grants < levels + spare) :
    Agrees spare (entries.forM fun entry => runBody nested false (Script.tokens entry))
      (entries.forM fun entry => runBody nested' false (Script.tokens entry)) session := by
  induction entries generalizing session with
  | nil => exact .refl _ _
  | cons entry entries induction =>
      apply (agrees_runBody scripts spend false _ (.inl fewer)).bind
      · exact fun _ => .forM fun _ => spends_runBody spend false _
      · intro _ after ran
        have spent := (spends_runBody spend false _).outlay_of_ok ran
        exact induction (Nat.lt_of_le_of_lt spent.fewer fewer)

theorem agrees_replay (scripts : AgreeScripts spare levels nested nested')
    (spend : ScriptsSpend nested) (fewer : session.grants < levels + spare) :
    Agrees spare (replay nested) (replay nested') session := by
  have looks : Looks (get : Action Session) := fun _ => rfl
  apply Agrees.look_bind looks
  rintro _ ⟨⟩
  exact .atLevel (agrees_entries scripts spend session.history fewer)

theorem agrees_replayUndo {recording : Bool} {steps : Nat}
    (replays : Agrees spare (replay nested) (replay nested') (session.shortening recording steps)) :
    Agrees spare (replayUndo nested recording steps rest) (replayUndo nested' recording steps rest)
      session := by
  have resumes : Spends (modify (resuming recording rest) : Action Unit) :=
    .silent (.modify (surroundings_resuming recording rest))
  have onwards : Agrees spare (replay nested >>= fun _ => modify (resuming recording rest))
      (replay nested' >>= fun _ => modify (resuming recording rest))
      (session.shortening recording steps) :=
    replays.bind (fun _ => resumes) fun _ _ _ => .refl _ _
  exact onwards

theorem agrees_attempt {cancellable : Bool} {statement : String}
    (ran : Agrees spare (runRecorded nested cancellable (Script.tokens statement))
      (runRecorded nested' cancellable (Script.tokens statement)) (session.enter statement)) :
    Agrees spare (attempt nested cancellable statement) (attempt nested' cancellable statement)
      session := by
  intro enough
  rw [on_attempt, grants_concluding] at enough
  rw [on_attempt, on_attempt, ran enough]

end Scripts

section Depth

variable {depth : Nat} {nested' : Nested}

theorem spends_recorded (depth : Nat) (cancellable : Bool) (command : Command)
    (rest : List String) :
    Spends (obey (.ofDepth depth) ⟨true, cancellable⟩ (replayUndo (.ofDepth depth) true 1) command
      rest) := by
  have spend := scriptsSpend_ofDepth depth
  exact spends_obey spend (spends_replayUndo spend true 1) command rest

/-- A statement may begin at any level, and it does entries again at the highest. -/
theorem agrees_statement (scripts : AgreeScripts spare levels (.ofDepth depth) nested')
    (fewer : session.grants < levels + spare) (cancellable : Bool) (statement : String) :
    Agrees spare (attempt (.ofDepth depth) cancellable statement)
      (attempt nested' cancellable statement) session := by
  have spends := spends_recorded depth cancellable
  have funded {session : Session} (fewer : session.grants < levels + spare) :
      Funded spare levels session := .inl fewer
  apply agrees_attempt
  apply agrees_dispatch scripts spends funded
  · intro session rest fewer
    apply agrees_replayUndo
    apply agrees_replay scripts (scriptsSpend_ofDepth depth)
    rwa [grants_shortening]
  · intro token rest session after fewer obeyed
    have spent := (spends_obeyToken spends token rest).outlay_of_ok obeyed
    exact Nat.lt_of_le_of_lt spent.fewer fewer
  · exact fewer

/-- In a sandbox there is nothing to do again but the statement itself, which goes first. -/
theorem agrees_sandboxed (scripts : AgreeScripts spare levels (.ofDepth depth) nested')
    (enough : session.grants ≤ levels + spare) (cancellable : Bool) (statement : String) :
    Agrees spare (attempt (.ofDepth depth) cancellable statement)
      (attempt nested' cancellable statement) session.sandbox := by
  have spends := spends_recorded depth cancellable
  -- a sandbox begins without a history, and so none is left when it starts over at the highest level
  have funded {session : Session}
      (holds : Funded spare levels session ∧ ∃ kept, Leaves [] kept session) :
      Funded spare levels session := holds.1
  apply agrees_attempt
  apply agrees_dispatch scripts spends funded
  · rintro session rest ⟨-, kept, leaves⟩
    have empty : (session.shortening true 1).history = [] :=
      List.prefix_nil.1 (leaves.shortened 1).isPrefix
    apply agrees_replayUndo
    intro _
    simp only [replay, Action.on_bind, Action.on_get, empty]
    rfl
  · rintro token rest session after ⟨funded, kept, leaves⟩ obeyed
    have spent := (spends_obeyToken spends token rest).outlay_of_ok obeyed
    exact ⟨funded.outlay spent, leaves.obeyToken obeyed⟩
  · exact ⟨.inr ⟨rfl, enough⟩, [], .refl _, .inl ⟨rfl, statement, rfl⟩⟩

/-! ## Levels -/

theorem agreeScripts_zero (nested' : Nested) (depth : Nat) :
    AgreeScripts spare 0 (.ofDepth depth) nested' := by
  intro cancellable source session fewer
  obtain ⟨loads, compiles⟩ := scriptsSpend_ofDepth depth cancellable source
  have loads := (loads session).fewer
  have compiles := (compiles session).fewer
  constructor
  · intro enough
    omega
  · intro enough
    omega

/-- A script begins at the lowest level, so it may begin with one grant more. -/
theorem agreeScripts_enclosing (scripts : AgreeScripts spare levels (.ofDepth depth) nested') :
    AgreeScripts spare (levels + 1) (.ofDepth (depth + 1)) nested'.enclosing := by
  intro cancellable source session fewer
  have enough : session.grants ≤ levels + spare := by omega
  rw [Nested.load_ofDepth, Nested.compile_ofDepth]
  constructor
  · apply Agrees.atLevel
    exact agrees_runBody scripts (scriptsSpend_ofDepth depth) _ _ (.inr ⟨rfl, enough⟩)
  · intro untouched
    rw [on_inSandbox, grants_closing] at untouched
    have same := agrees_sandboxed scripts enough cancellable source untouched
    show (inSandbox (attempt nested' cancellable source)).on session = _
    rw [on_inSandbox, on_inSandbox, same]

theorem agreeScripts_within (deeper : Nested) (depth levels : Nat) :
    AgreeScripts spare levels (.ofDepth (depth + levels)) (deeper.within levels) := by
  induction levels with
  | zero => exact agreeScripts_zero deeper depth
  | succ levels induction => exact agreeScripts_enclosing induction

end Depth

/-! ## Scripts without a bound -/

theorem grants_lt_nestingBound (session : Session) : session.grants < session.nestingBound :=
  Nat.lt_succ_self _

/-- To be run deeper than there are grants makes no difference to scripts. -/
theorem ofDepth_eq_of_grants {depth deep : Nat} (fewer : session.grants < depth) (le : depth ≤ deep)
    (cancellable : Bool) (source : String) :
    ((Nested.ofDepth depth).load cancellable source).on session =
        ((Nested.ofDepth deep).load cancellable source).on session ∧
      ((Nested.ofDepth depth).compile cancellable source).on session =
        ((Nested.ofDepth deep).compile cancellable source).on session := by
  obtain ⟨extra, rfl⟩ := Nat.exists_eq_add_of_le' le
  have agree : AgreeScripts 0 depth (.ofDepth (extra + depth)) ((Nested.ofDepth 0).within depth) :=
    agreeScripts_within (.ofDepth 0) extra depth
  rw [Nested.within_ofDepth, Nat.zero_add] at agree
  obtain ⟨loads, compiles⟩ := agree cancellable source session fewer
  exact ⟨loads (Nat.zero_le _), compiles (Nat.zero_le _)⟩

/-- Scripts that are run as deep as the grants of the operator get them. -/
def Nested.unbounded : Nested :=
  ⟨fun cancellable source => Action.of fun session =>
      ((ofDepth session.nestingBound).load cancellable source).on session,
    fun cancellable source => Action.of fun session =>
      ((ofDepth session.nestingBound).compile cancellable source).on session⟩

theorem Nested.on_load_unbounded (cancellable : Bool) (source : String) (session : Session) :
    (unbounded.load cancellable source).on session =
      ((ofDepth session.nestingBound).load cancellable source).on session := by
  rw [unbounded, Action.on_of]

theorem Nested.on_compile_unbounded (cancellable : Bool) (source : String) (session : Session) :
    (unbounded.compile cancellable source).on session =
      ((ofDepth session.nestingBound).compile cancellable source).on session := by
  rw [unbounded, Action.on_of]

theorem agreeScripts_unbounded (depth : Nat) :
    AgreeScripts 0 depth (.ofDepth depth) .unbounded := by
  intro cancellable source session fewer
  have le : session.nestingBound ≤ depth := fewer
  obtain ⟨loads, compiles⟩ := ofDepth_eq_of_grants (grants_lt_nestingBound session) le cancellable
    source
  constructor
  · intro _
    rw [Nested.on_load_unbounded, loads]
  · intro _
    rw [Nested.on_compile_unbounded, compiles]

theorem Nested.eq_of_on {nested nested' : Nested}
    (same : ∀ cancellable source session,
      (nested.load cancellable source).on session = (nested'.load cancellable source).on session ∧
        (nested.compile cancellable source).on session =
          (nested'.compile cancellable source).on session) : nested = nested' := by
  obtain ⟨load, compile⟩ := nested
  obtain ⟨load', compile'⟩ := nested'
  have loads : load = load' := by
    funext cancellable source
    exact funext fun session => (same cancellable source session).1
  have compiles : compile = compile' := by
    funext cancellable source
    exact funext fun session => (same cancellable source session).2
  rw [loads, compiles]

/-- One more level changes nothing. -/
theorem Nested.enclosing_unbounded : unbounded.enclosing = unbounded := by
  apply eq_of_on
  intro cancellable source session
  have agree := agreeScripts_enclosing (agreeScripts_unbounded session.grants)
  obtain ⟨loads, compiles⟩ := agree cancellable source session (grants_lt_nestingBound session)
  rw [on_load_unbounded, on_compile_unbounded]
  exact ⟨loads (Nat.zero_le _), compiles (Nat.zero_le _)⟩

/-! ## Statements -/

variable {statement : String}

theorem executed_grants_le (session : Session) (statement : String) :
    (session.executed statement).grants ≤ session.grants := by
  rw [executed, on_execute]
  exact grants_attempt (scriptsSpend_ofDepth _) true statement session

/-- What is below as many levels as the statement spends grants is never run. -/
theorem attempt_within (deeper : Nested) {spent depth : Nat}
    (all : session.grants = spent + spare) (enough : spare ≤ (session.executed statement).grants)
    (deep : spent < depth) :
    (attempt (deeper.within depth) true statement).on session = (execute statement).on session := by
  obtain ⟨extra, rfl⟩ := Nat.exists_eq_add_of_le' (Nat.succ_le_of_lt deep)
  have bound : session.nestingBound = spare + (spent + 1) := by
    show session.grants + 1 = _
    omega
  have fewer : session.grants < spent + 1 + spare := by omega
  have agree := agrees_statement (agreeScripts_within (deeper.within extra) spare (spent + 1)) fewer
    true statement
  rw [executed, on_execute, bound] at enough
  rw [Nested.within_add, on_execute, bound]
  exact agree enough

theorem scriptsFailBy_within {reasons : Reasons} {deeper : Nested}
    (scripts : ScriptsFailBy reasons deeper) (levels : Nat) :
    ScriptsFailBy reasons (deeper.within levels) := by
  induction levels with
  | zero => exact scripts
  | succ levels induction => exact fun _ stops source => induction.inside stops source

/-- Scripts that are stopped before they begin. -/
def Nested.stopping : Nested := ⟨fun _ _ => throw .cancelled, fun _ _ => throw .cancelled⟩

/-- What is below the last level that is run may just as well fail for another reason. -/
theorem failure_ne_nestedTooDeep (allowed : session.engine.FailsBy .shallow) :
    session.failure statement ≠ some .nestedTooDeep := by
  have stops : Reasons.shallow.allows .cancelled := by rintro ⟨⟩
  have stopping : ScriptsFailBy .shallow .stopping := fun _ _ _ => ⟨.throw stops, .throw stops⟩
  have fails : FailsBy .shallow
      (attempt (Nested.stopping.within (session.grants + 1)) true statement) :=
    failsBy_attempt (scriptsFailBy_within stopping _) (fun _ => stops) statement
  have same : (attempt (Nested.stopping.within (session.grants + 1)) true statement).on session =
      (execute statement).on session :=
    attempt_within .stopping (Nat.add_zero _).symm (Nat.zero_le _) (Nat.lt_succ_self _)
  rw [failure, ← same]
  intro deep
  exact (fails session allowed).1.ne_error (faultOf_eq_some.1 deep)

/-- A statement spends grants and gains none. One level of scripts more than it spends is all that it runs;
whatever is below them makes no difference. So it runs just as it does without any bound on the levels, and
it never fails for want of them. -/
theorem executed_within_grants (session : Session) (statement : String) :
    (session.executed statement).grants ≤ session.grants ∧
      (∀ (deeper : Nested) depth, session.grants - (session.executed statement).grants < depth →
        (attempt (deeper.within depth) true statement).on session =
          (execute statement).on session) ∧
      (∃ nested : Nested, nested.enclosing = nested) ∧
      (∀ nested : Nested, nested.enclosing = nested →
        (attempt nested true statement).on session = (execute statement).on session) ∧
      (session.engine = .plain → session.failure statement ≠ some .nestedTooDeep) := by
  have fewer := executed_grants_le session statement
  have all : session.grants =
      session.grants - (session.executed statement).grants +
        (session.executed statement).grants := (Nat.sub_add_cancel fewer).symm
  refine ⟨fewer, ?_, ⟨.unbounded, Nested.enclosing_unbounded⟩, ?_, ?_⟩
  · intro deeper depth deep
    exact attempt_within deeper all (Nat.le_refl _) deep
  · intro nested whole
    rw [← attempt_within nested all (Nat.le_refl _) (Nat.lt_succ_self _),
      Nested.within_of_enclosing whole]
  · intro plain
    apply failure_ne_nestedTooDeep
    rw [plain]
    exact Engine.failsBy_plain .shallow

/-- The file loads itself, as long as the operator grants it to, which is once. -/
def spiralling : Session :=
  { ofSettings .standard .plain
      (.quiet ⟨[], [(["s"], .file "root filename [s] load".toUTF8)], .willing⟩ ⟨[true], []⟩) with
    access := .root }

/-- One grant gets the file to the second level, where it is refused; so one level would not do. -/
theorem executed_within_grants_spiralling :
    spiralling.grants = 1 ∧ (spiralling.executed "filename [s] load").grants = 0 ∧
      spiralling.failure "filename [s] load" = some (.access .root .user) ∧
      (attempt (Nested.stopping.within 2) true "filename [s] load").on spiralling =
        (execute "filename [s] load").on spiralling ∧
      ((attempt (Nested.stopping.within 1) true "filename [s] load").on spiralling).1 =
        .error .cancelled := by
  obtain ⟨before, after, failed, stopped⟩ :
      spiralling.grants = 1 ∧ (spiralling.executed "filename [s] load").grants = 0 ∧
        spiralling.failure "filename [s] load" = some (.access .root .user) ∧
        ((attempt (Nested.stopping.within 1) true "filename [s] load").on spiralling).1 =
          .error .cancelled := by
    decide +kernel
  obtain ⟨-, bounded, -⟩ := executed_within_grants spiralling "filename [s] load"
  have deep : spiralling.grants - (spiralling.executed "filename [s] load").grants < 2 := by
    rw [before, after]
    decide
  exact ⟨before, after, failed, bounded .stopping 2 deep, stopped⟩

end Session

end PaperFolding
