import PaperFolding.Proofs.Session.Grade.Commands

/-!
Scripts and statements in sessions of a grade, at any depth, and the sessions that they lead to. All of
them keep to the grade if every archive that is opened on the way is of it.
-/

namespace PaperFolding

open Script

namespace Session

variable {grade : Grade} {session : Session} {scope : Scope} {depth : Nat} {cancellable : Bool}
  {row : List String}

/-! ## What fails or is taken back -/

theorem Graded.repeating {step : Action Unit} (upholds : Upholds grade step) (count : Nat)
    (graded : session.Graded grade) : (repeating step count session).Graded grade := by
  induction count generalizing session with
  | zero => exact graded
  | succ count induction =>
      have front := upholds.graded graded
      rw [Session.repeating]
      revert front
      rcases step.on session with ⟨_ | _, after⟩
      · exact id
      · exact induction

theorem Graded.rewind (graded : session.Graded grade) (target : Nat) :
    (session.rewind target).Graded grade := by
  unfold Session.rewind
  split
  · exact graded
  · split
    · exact graded.repeating (.undoSheet _) _
    · exact graded.repeating (.redoSheet _) _

theorem Graded.shortening (graded : session.Graded grade) (recording : Bool) (steps : Nat) :
    (session.shortening recording steps).Graded grade := by
  have dropped : (session.dropping recording steps).Graded grade :=
    graded.of_eq (holdings_rewriting
      (shortenedHistory session.draft recording steps session.history) session)
  exact dropped.rewind 0

theorem Graded.resuming (graded : session.Graded grade) (recording : Bool) (rest : List String) :
    (session.resuming recording rest).Graded grade := by
  simp only [Session.resuming]
  split
  · exact graded.of_eq (holdings_rewriting (session.history ++ [restore rest]) session)
  · exact graded

theorem keptPaper_returning (entries : Nat) (session : Session) :
    (session.returning entries).keptPaper = session.keptPaper := by
  simp only [keptPaper, returning]
  cases session.transaction.bind Transaction.paper <;> rfl

theorem Graded.recover (graded : session.Graded grade) : session.recover.Graded grade := by
  unfold Session.recover
  cases running : session.transaction with
  | none => exact graded
  | some transaction =>
      have saved : grade.color transaction.color := by
        apply graded.saved
        rw [holdings, running]
        rfl
      have returned : (session.returning transaction.entries).Graded grade := by
        refine { graded with model := graded.kept, kept := ?_ }
        show ∀ ledger ∈ (session.returning transaction.entries).keptPaper, grade.paper ledger
        rw [keptPaper_returning]
        exact graded.kept
      have rewound :
          ((session.returning transaction.entries).rewinding transaction.depth).Graded grade := by
        unfold Session.rewinding
        split
        · exact returned.rewind _
        · exact returned
      exact rewound.withColor saved

theorem graded_concluding {run : Except Fault Unit × Session} (graded : run.2.Graded grade) :
    (concluding run).2.Graded grade := by
  obtain ⟨_ | _, after⟩ := run
  · exact (Graded.recover graded).settle
  · exact Graded.settle graded

/-! ## Rows of tokens -/

theorem graded_obeyToken {run : Command → List String → Action Unit} {token : String}
    {rest : List String} (graded : session.Graded grade)
    (carried : ∀ deed ∈ deed? scope token session,
      ((run deed.command rest).on deed.session).2.Graded grade) :
    ((obeyToken run scope token rest).on session).2.Graded grade := by
  unfold obeyToken
  split
  · exact graded
  · refine graded_looking (looks_checkpoint scope) graded fun _ checked => ?_
    unfold obeyWord
    split
    · rename_i command found
      refine graded_looking (looks_permit command) graded fun _ granted => ?_
      refine graded_bind (carried _ (deed?_of_permit found checked granted)) fun _ _ _ after => ?_
      split
      · exact after
      · exact after
    · exact (upholds_obeyParameter scope _ rest).graded graded
    · exact graded

/-- A row keeps to the grade if each command does so that is carried out in it. -/
theorem graded_dispatch {run : Command → List String → Action Unit} (graded : session.Graded grade)
    (carried : ∀ deed ∈ deedsAlong run scope row session, deed.session.Graded grade → ∀ rest,
      ((run deed.command rest).on deed.session).2.Graded grade) :
    ((dispatch run scope row).on session).2.Graded grade := by
  induction row generalizing session with
  | nil => exact graded
  | cons token rest induction =>
      refine graded_bind (graded_obeyToken graded fun deed does => ?_) fun _ after done kept => ?_
      · have among : deed ∈ deedsAlong run scope (token :: rest) session := by
          rw [deedsAlong]
          exact List.mem_append_left _ (by simpa using does)
        obtain rfl := (deed?_eq_some does).1
        exact carried deed among graded rest
      · rw [deedsAlong_of_ok done] at carried
        exact induction kept fun deed later => carried deed (List.mem_append_right _ later)

/-- Nothing of what a sandbox holds comes back. -/
theorem holdings_compile_ofDepth (depth : Nat) (cancellable : Bool) (source : String) :
    Preserves holdings ((Nested.ofDepth depth).compile cancellable source) := by
  cases depth with
  | zero => exact .throw _
  | succ depth =>
      intro session
      rw [Nested.compile_ofDepth, on_inSandbox]
      rfl

/-- Files that are loaded keep to the grade if all that is opened inside of them does. -/
def LoadsUphold (grade : Grade) (depth : Nat) : Prop :=
  ∀ ⦃cancellable session path source⦄, session.Graded grade →
    (scriptFile Command.load.name).on session = (.ok (path, source), session) →
    (∀ inner ∈ scriptDeeds depth cancellable ⟨.load, session⟩, inner.Within grade.Admits) →
    (((Nested.ofDepth depth).load cancellable source).on session).2.Graded grade

section Scripts

variable {takeBack : List String → Action Unit} {deed : Deed}

theorem graded_obey (loads : LoadsUphold grade depth) (graded : deed.session.Graded grade)
    (within : deed.Within grade.Admits)
    (inside : ∀ inner ∈ scriptDeeds depth scope.cancellable deed, inner.Within grade.Admits)
    (rest : List String) (bare : deed.StartsOver → ((takeBack rest).on deed.session).2.Graded grade) :
    ((obey (.ofDepth depth) scope takeBack deed.command rest).on deed.session).2.Graded grade := by
  by_cases loading : deed.command = .load
  · obtain ⟨_, session⟩ := deed
    obtain rfl := loading
    refine graded_looking (looks_scriptFile _) graded fun (path, source) reads => ?_
    refine graded_bind (loads graded reads inside) fun _ _ _ after => ?_
    exact (Provides.bind (.rebase scope _ rest) fun _ _ => .clearStage).graded after
  · by_cases compiling : deed.command = .compile
    · obtain ⟨_, session⟩ := deed
      obtain rfl := compiling
      refine graded_looking (looks_scriptFile _) graded fun (path, source) _ => ?_
      have same := holdings_compile_ofDepth depth scope.cancellable source session
      exact graded_bind (graded.of_eq same) fun _ _ _ after => Provides.clearStage.graded after
    · exact graded_obey_own graded within loading compiling rest bare

theorem graded_runBody (loads : LoadsUphold grade depth) (graded : session.Graded grade)
    (within : ∀ deed ∈ bodyDeeds (.ofDepth depth) cancellable row session ++
      (bodyDeeds (.ofDepth depth) cancellable row session).flatMap (scriptDeeds depth cancellable),
        deed.Within grade.Admits) :
    ((runBody (.ofDepth depth) cancellable row).on session).2.Graded grade := by
  refine graded_dispatch graded fun deed among kept rest => ?_
  refine graded_obey loads kept (within deed (List.mem_append_left _ among)) ?_ rest fun _ => kept
  intro inner inside
  exact within inner (List.mem_append_right _ (List.mem_flatMap.2 ⟨deed, among, inside⟩))

theorem graded_entries (loads : LoadsUphold grade depth) (graded : session.Graded grade)
    {entries : List String}
    (within : ∀ deed ∈ entryDeeds (.ofDepth depth) (scriptDeeds depth false) entries session,
      deed.Within grade.Admits) :
    ((entries.forM fun entry => runBody (.ofDepth depth) false (tokens entry)).on session).2.Graded
      grade := by
  induction entries generalizing session with
  | nil => exact graded
  | cons entry entries induction =>
      have own := graded_runBody loads graded fun deed among =>
        within deed (by rw [entryDeeds]; exact List.mem_append_left _ among)
      refine graded_bind own fun _ after done kept => ?_
      rw [entryDeeds_of_ok done] at within
      exact induction kept fun deed among => within deed (List.mem_append_right _ among)

/-- What is done again by a session that starts over. -/
def againDeeds (depth : Nat) (recording : Bool) (steps : Nat) (session : Session) : List Deed :=
  entryDeeds (.ofDepth depth) (scriptDeeds depth false)
    (session.shortening recording steps).history
    ((session.shortening recording steps).withAccess .dev)

theorem graded_replayUndo (loads : LoadsUphold grade depth) (graded : session.Graded grade)
    (recording : Bool) (steps : Nat)
    (within : ∀ deed ∈ againDeeds depth recording steps session, deed.Within grade.Admits)
    (rest : List String) :
    ((replayUndo (.ofDepth depth) recording steps rest).on session).2.Graded grade := by
  have shortened := graded.shortening recording steps
  refine graded_bind shortened fun _ after done _ => ?_
  cases done
  refine graded_bind ?_ fun _ _ _ replayed => replayed.resuming recording rest
  refine graded_looking (fun _ => rfl) shortened fun _ got => ?_
  cases got
  rw [on_atLevel]
  exact (graded_entries loads (shortened.withAccess .dev) within).withAccess _

theorem graded_attempt (loads : LoadsUphold grade depth) (graded : session.Graded grade)
    {statement : String}
    (within : ∀ deed ∈ recordedDeeds (.ofDepth depth) cancellable (tokens statement)
        (session.enter statement) ++
      (recordedDeeds (.ofDepth depth) cancellable (tokens statement)
        (session.enter statement)).flatMap fun deed =>
          replayDeeds (.ofDepth depth) (scriptDeeds depth false) deed ++
            scriptDeeds depth cancellable deed,
        deed.Within grade.Admits) :
    ((attempt (.ofDepth depth) cancellable statement).on session).2.Graded grade := by
  rw [on_attempt]
  apply graded_concluding
  refine graded_dispatch (graded.enter statement) fun deed among kept rest => ?_
  have inside : ∀ inner ∈ replayDeeds (.ofDepth depth) (scriptDeeds depth false) deed ++
      scriptDeeds depth cancellable deed, inner.Within grade.Admits := by
    intro inner inside
    exact within inner (List.mem_append_right _ (List.mem_flatMap.2 ⟨deed, among, inside⟩))
  refine graded_obey loads kept (within deed (List.mem_append_left _ among)) ?_ rest ?_
  · exact fun inner scripted => inside inner (List.mem_append_right _ scripted)
  · intro anew
    refine graded_replayUndo loads kept true 1 (fun inner again => ?_) rest
    refine inside inner (List.mem_append_left _ ?_)
    rw [replayDeeds, Deed.redone, if_pos anew]
    exact again

end Scripts

theorem scriptDeeds_load {path source : String}
    (reads : (scriptFile Command.load.name).on session = (.ok (path, source), session)) :
    scriptDeeds (depth + 1) cancellable ⟨.load, session⟩ =
      bodyDeeds (.ofDepth depth) cancellable (tokens source) (session.withAccess .user) ++
        (bodyDeeds (.ofDepth depth) cancellable (tokens source) (session.withAccess .user)).flatMap
          (scriptDeeds depth cancellable) := by
  unfold scriptDeeds
  dsimp only
  rw [reads]

theorem loadsUphold (grade : Grade) (depth : Nat) : LoadsUphold grade depth := by
  induction depth with
  | zero =>
      intro cancellable session path source graded _ _
      exact graded
  | succ depth induction =>
      intro cancellable session path source graded reads within
      rw [scriptDeeds_load reads] at within
      rw [Nested.load_ofDepth, on_atLevel]
      exact (graded_runBody induction (graded.withAccess .user) within).withAccess session.access

/-! ## Statements -/

theorem Graded.executed (graded : session.Graded grade) {statement : String}
    (within : ∀ deed ∈ session.deeds statement ++ session.nestedDeeds statement,
      deed.Within grade.Admits) : (session.executed statement).Graded grade := by
  unfold deeds nestedDeeds deeds at within
  rw [Session.executed, on_execute]
  exact graded_attempt (loadsUphold grade session.nestingBound) graded within

end Session

end PaperFolding
