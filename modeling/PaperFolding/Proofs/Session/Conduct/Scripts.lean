import PaperFolding.Proofs.Session.Conduct.Commands
import PaperFolding.Session.Run

/-!
A script follows a conduct that permits its commands. Scripts that are loaded run inside the statement
that loads them; which ones they are depends on the session.
-/

namespace PaperFolding

def Conduct.Admits (conduct : Conduct) (row : List String) : Prop :=
  ∀ word ∈ row, ∀ command, Keyword.ofWord? word = some (.command command) →
    conduct.permits command

theorem Conduct.Admits.tail {conduct : Conduct} {word : String} {row : List String}
    (admits : conduct.Admits (word :: row)) : conduct.Admits row :=
  fun other among => admits other (List.mem_cons_of_mem word among)

theorem Conduct.admits_of_undo {conduct : Conduct} (permitted : conduct.permits .undo)
    (row : List String) : conduct.Admits row :=
  fun _ _ command _ => conduct.replaying permitted command

namespace Session

/-! ## The scripts that are loaded -/

/-- The scripts loaded by one token; `within` tells which a script loads itself. -/
def loadedBy (scope : Scope) (within : String → Session → List String) (token : String)
    (session : Session) : List String :=
  if Keyword.ofWord? token = some (.command .load) then
    let opened := do
      checkpoint scope
      permit .load
      scriptFile Command.load.name
    match opened.on session with
    | (.ok (_, source), _) => source :: within source session
    | (.error _, _) => []
  else []

def loadedAlong (obey : Command → List String → Action Unit) (scope : Scope)
    (within : String → Session → List String) : List String → Session → List String
  | [], _ => []
  | token :: rest, session =>
      loadedBy scope within token session ++
        match (obeyToken obey scope token rest).on session with
        | (.ok (), after) => loadedAlong obey scope within rest after
        | (.error _, _) => []

theorem loadedAlong_eq_nil {obey : Command → List String → Action Unit} {scope : Scope}
    {within : String → Session → List String} {row : List String}
    (none : ∀ token ∈ row, Keyword.ofWord? token ≠ some (.command .load)) (session : Session) :
    loadedAlong obey scope within row session = [] := by
  induction row generalizing session with
  | nil => rfl
  | cons token rest induction =>
      obtain ⟨here, others⟩ := List.forall_mem_cons.1 none
      rw [loadedAlong, loadedBy, if_neg here, List.nil_append]
      split
      · exact induction others _
      · rfl

def loadedFrom : Nat → Bool → String → Session → List String
  | 0, _, _, _ => []
  | depth + 1, cancellable, source, session =>
      let scope : Scope := ⟨false, cancellable⟩
      loadedAlong (obey (.ofDepth depth) scope fun _ => throw (.missing .undoableFold)) scope
        (loadedFrom depth cancellable) (Script.tokens source) (session.withAccess .user)

theorem loadedFrom_succ (depth : Nat) (cancellable : Bool) (source : String) (session : Session) :
    loadedFrom (depth + 1) cancellable source session =
      loadedAlong (obey (.ofDepth depth) ⟨false, cancellable⟩ fun _ =>
          throw (.missing .undoableFold)) ⟨false, cancellable⟩
        (loadedFrom depth cancellable) (Script.tokens source) (session.withAccess .user) := rfl

/-- The scripts from files that are loaded while a statement is executed, at any depth. -/
def scriptsLoaded (session : Session) (statement : String) : List String :=
  let nested := Nested.ofDepth session.nestingBound
  let scope : Scope := ⟨true, true⟩
  loadedAlong (obey nested scope (replayUndo nested true 1)) scope
    (loadedFrom session.nestingBound true) (Script.tokens statement) (session.enter statement)

/-! ## Dispatching -/

variable {conduct : Conduct}

theorem follows_checkpoint (scope : Scope) : Follows conduct (checkpoint scope) :=
  .looking (looks_checkpoint scope)

theorem follows_permit (command : Command) : Follows conduct (permit command) :=
  .looking (looks_permit command)

theorem follows_obeyParameter (scope : Scope) (parameter : Parameter) (rest : List String) :
    Follows conduct (obeyParameter scope parameter rest) := by
  refine .bind (.obey parameter _) fun _ => ?_
  split
  · exact .remember _ _
  · exact .pure _

/-- Commands follow the conduct if it permits them; loading does as far as it admits the scripts that
are loaded. -/
structure Governs (conduct : Conduct) (obey : Command → List String → Action Unit)
    (within : String → Session → List String) : Prop where
  commands : ∀ command rest, command ≠ .load → conduct.permits command →
    Follows conduct (obey command rest)
  loads : ∀ rest session,
    (∀ path source, (scriptFile Command.load.name).on session = (.ok (path, source), session) →
      ∀ text ∈ source :: within source session, conduct.Admits (Script.tokens text)) →
    conduct.leads session ((obey .load rest).on session).2

section Dispatching

variable {obey : Command → List String → Action Unit} {scope : Scope}
  {within : String → Session → List String}

theorem leads_obeyToken (governs : Governs conduct obey within) {token : String}
    {rest : List String} {session : Session}
    (admits : ∀ command, Keyword.ofWord? token = some (.command command) → conduct.permits command)
    (loaded : ∀ text ∈ loadedBy scope within token session, conduct.Admits (Script.tokens text)) :
    conduct.leads session ((obeyToken obey scope token rest).on session).2 := by
  unfold obeyToken
  split
  · exact conduct.refl session
  · refine leads_bind (follows_checkpoint scope session) fun _ reached checked => ?_
    obtain rfl := (looks_checkpoint scope).eq checked
    unfold obeyWord
    split
    · rename_i command found
      refine leads_bind (follows_permit command session) fun _ permitted granted => ?_
      obtain rfl := (looks_permit command).eq granted
      refine leads_bind ?_ fun _ after _ => ?_
      · by_cases load : command = .load
        · subst load
          refine governs.loads rest session fun path source opened => ?_
          simpa only [loadedBy, found, if_true, Action.on_bind, checked, granted, opened] using loaded
        · exact governs.commands command rest load (admits command found) session
      · split
        · exact conduct.beside ⟨rfl, rfl, rfl, rfl, rfl, rfl⟩
        · exact conduct.refl after
    · exact follows_obeyParameter scope _ rest session
    · exact conduct.refl session

theorem leads_dispatch (governs : Governs conduct obey within) (row : List String)
    (session : Session) (admits : conduct.Admits row)
    (loaded : ∀ text ∈ loadedAlong obey scope within row session,
      conduct.Admits (Script.tokens text)) :
    conduct.leads session ((dispatch obey scope row).on session).2 := by
  induction row generalizing session with
  | nil => exact conduct.refl session
  | cons token rest induction =>
      simp only [loadedAlong, List.mem_append] at loaded
      refine leads_bind ?_ fun _ after done => ?_
      · exact leads_obeyToken governs (admits token (List.mem_cons_self ..))
          fun text among => loaded text (.inl among)
      · refine induction after admits.tail fun text among => loaded text (.inr ?_)
        rw [done]
        exact among

end Dispatching

/-! ## Scripts inside scripts -/

theorem follows_inSandbox (permitted : conduct.permits .compile) (action : Action Unit) :
    Follows conduct (inSandbox action) := by
  intro session
  rw [on_inSandbox]
  exact conduct.closing permitted _ session

theorem follows_compile_ofDepth (permitted : conduct.permits .compile) (depth : Nat)
    (cancellable : Bool) (source : String) :
    Follows conduct ((Nested.ofDepth depth).compile cancellable source) := by
  cases depth with
  | zero => exact .throw _
  | succ depth =>
      rw [Nested.compile_ofDepth]
      exact follows_inSandbox permitted _

theorem follows_scriptFile (word : String) : Follows conduct (scriptFile word) :=
  .looking (looks_scriptFile word)

/-- The commands that make the history start anew. -/
def rewriters : List Command := [.new, .load, .reopen]

theorem follows_obey {scope : Scope} {depth : Nat} {takeBack : List String → Action Unit}
    (command : Command)
    (takesBack : command = .undo → conduct.permits .undo → ∀ rest, Follows conduct (takeBack rest))
    (records : command ∈ rewriters → scope.recording = true → conduct.recorded)
    (rest : List String) (other : command ≠ .load)
    (permitted : conduct.permits command) :
    Follows conduct (obey (.ofDepth depth) scope takeBack command rest) := by
  cases command with
  | new => exact follows_makePaper (records (by decide)) rest
  | rotate => exact follows_rotate
  | reflect => exact follows_reflect
  | cut => exact follows_cut
  | undo => exact follows_undoOr permitted (takesBack rfl permitted rest)
  | redo => exact follows_redo permitted
  | compile =>
      exact .bind (follows_scriptFile _) fun (_, source) =>
        .bind (follows_compile_ofDepth permitted depth _ source) fun _ => .clearStage
  | load => exact absurd rfl other
  | reopen => exact follows_reopen (records (by decide)) rest
  | loadTexture => exact follows_loadTexture
  | unloadTexture => exact follows_unloadTexture
  | write encoding => exact follows_writeDocument encoding
  | diagnose => exact follows_diagnose
  | elevate request => exact follows_elevate request

theorem leads_load {nested : Nested} {scope : Scope} {within : String → Session → List String}
    (records : scope.recording = true → conduct.recorded)
    (loads : ∀ source session,
      (∀ text ∈ source :: within source session, conduct.Admits (Script.tokens text)) →
      conduct.leads session ((nested.load scope.cancellable source).on session).2)
    (rest : List String) (session : Session)
    (admits : ∀ path source,
      (scriptFile Command.load.name).on session = (.ok (path, source), session) →
      ∀ text ∈ source :: within source session, conduct.Admits (Script.tokens text)) :
    conduct.leads session ((load nested scope rest).on session).2 := by
  refine leads_bind (follows_scriptFile _ session) fun (path, source) opened done => ?_
  obtain rfl := (looks_scriptFile _).eq done
  refine leads_bind ?_ fun _ after _ => ?_
  · exact loads source session (admits path source done)
  · exact Follows.bind (.rebase records _ _) (fun _ => .clearStage) after

theorem leads_load_ofDepth (depth : Nat) (cancellable : Bool) (source : String)
    (session : Session)
    (admits : ∀ text ∈ source :: loadedFrom depth cancellable source session,
      conduct.Admits (Script.tokens text)) :
    conduct.leads session (((Nested.ofDepth depth).load cancellable source).on session).2 := by
  induction depth generalizing source session with
  | zero => exact conduct.refl session
  | succ depth induction =>
      rw [loadedFrom_succ] at admits
      rw [Nested.load_ofDepth, on_atLevel, runBody]
      -- The scripts that this one loads run one level less deep.
      have governs : Governs conduct (obey (.ofDepth depth) ⟨false, cancellable⟩ fun _ =>
          throw (.missing .undoableFold)) (loadedFrom depth cancellable) :=
        ⟨fun command => follows_obey command (fun _ _ _ => .throw _) fun _ => nofun,
          leads_load nofun induction⟩
      have ran := leads_dispatch governs (Script.tokens source) (session.withAccess .user)
        (admits source (List.mem_cons_self ..))
        fun text among => admits text (List.mem_cons_of_mem source among)
      exact conduct.trans (leads_withAccess .user session)
        (conduct.trans ran (leads_withAccess session.access _))

theorem governs_ofDepth (depth : Nat) (scope : Scope) {takeBack : List String → Action Unit}
    (records : scope.recording = true → conduct.recorded)
    (takesBack : conduct.permits .undo → ∀ rest, Follows conduct (takeBack rest)) :
    Governs conduct (obey (.ofDepth depth) scope takeBack) (loadedFrom depth scope.cancellable) :=
  ⟨fun command => follows_obey command (fun _ => takesBack) fun _ => records,
    leads_load records fun source session =>
      leads_load_ofDepth depth scope.cancellable source session⟩

theorem follows_runBody_ofDepth (permitted : conduct.permits .undo) (depth : Nat)
    (cancellable : Bool) (row : List String) :
    Follows conduct (runBody (.ofDepth depth) cancellable row) := by
  intro session
  have governs : Governs conduct (obey (.ofDepth depth) ⟨false, cancellable⟩ fun _ =>
      throw (.missing .undoableFold)) (loadedFrom depth cancellable) :=
    governs_ofDepth depth ⟨false, cancellable⟩ nofun fun _ _ => .throw _
  rw [runBody]
  exact leads_dispatch governs row session (conduct.admits_of_undo permitted row)
    fun text _ => conduct.admits_of_undo permitted _

theorem follows_replay (permitted : conduct.permits .undo) (depth : Nat) :
    Follows conduct (replay (.ofDepth depth)) :=
  .get_bind fun _ => .atLevel (.forM fun _ => follows_runBody_ofDepth permitted depth false _)

theorem follows_replayUndo (recorded : conduct.recorded) (permitted : conduct.permits .undo)
    (depth : Nat) (recording : Bool) (steps : Nat) (rest : List String) :
    Follows conduct (replayUndo (.ofDepth depth) recording steps rest) := by
  refine .bind (.modify fun session => ?_) fun _ =>
    .bind (follows_replay permitted depth) fun _ => .modify fun session => ?_
  · have dropped : conduct.leads session (session.dropping recording steps) :=
      conduct.rewriting recorded _ _ session
    have rewound := leads_rewind permitted (conduct.replaying permitted .redo) 0
      (session.dropping recording steps)
    exact conduct.trans dropped
      (conduct.trans rewound (conduct.beside ⟨rfl, rfl, rfl, rfl, rfl, rfl⟩))
  · simp only [resuming]
    split
    · exact conduct.rewriting recorded _ _ session
    · exact conduct.refl session

theorem leads_runRecorded (recorded : conduct.recorded) (session : Session) (statement : String)
    (admits : ∀ text ∈ statement :: session.scriptsLoaded statement,
      conduct.Admits (Script.tokens text)) :
    conduct.leads (session.enter statement)
      ((runRecorded (.ofDepth session.nestingBound) true (Script.tokens statement)).on
        (session.enter statement)).2 := by
  have governs : Governs conduct
      (obey (.ofDepth session.nestingBound) ⟨true, true⟩
        (replayUndo (.ofDepth session.nestingBound) true 1))
      (loadedFrom session.nestingBound true) :=
    governs_ofDepth session.nestingBound ⟨true, true⟩ (fun _ => recorded) fun permitted rest =>
      follows_replayUndo recorded permitted session.nestingBound true 1 rest
  rw [runRecorded]
  exact leads_dispatch governs (Script.tokens statement) (session.enter statement)
    (admits statement (List.mem_cons_self ..))
    fun text among => admits text (List.mem_cons_of_mem statement among)

end Session

end PaperFolding
