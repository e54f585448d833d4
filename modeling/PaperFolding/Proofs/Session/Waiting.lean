import PaperFolding.Proofs.Session.Uninterrupted

/-!
Statements that the operator waits for. The operator is asked at some calls or at others, as often as the
time runs out, and nothing but these questions tells the statement from one that nobody watches.
-/

namespace PaperFolding

def Question.isTimeout : Question → Bool
  | .elevation _ => false
  | .timeout _ => true

namespace Watch

/-- The questions whether to stop that an operator answers who waits so many times. All but the first one
are extended. -/
def timeouts : Nat → List Question
  | 0 => []
  | later + 1 => .timeout false :: List.replicate later (.timeout true)

theorem timeouts_succ (waits : Nat) :
    timeouts (waits + 1) = timeouts waits ++ [.timeout (decide (0 < waits))] := by
  cases waits with
  | zero => rfl
  | succ waits =>
      rw [timeouts, timeouts, List.replicate_succ', List.cons_append, decide_eq_true (Nat.succ_pos _)]

/-- How often the time runs out from one call on and before another one, if the operator waits. -/
def lapses (first last : Nat) : Option Nat → List Choice → Nat
  | some gate, .wait calls :: choices =>
      if first ≤ gate ∧ gate < last then lapses gate last (calls.map (gate + ·)) choices + 1 else 0
  | _, _ => 0

theorem lapses_none (first last : Nat) (choices : List Choice) : lapses first last none choices = 0 := by
  cases choices <;> rfl

theorem lapses_nil (first last : Nat) (gate : Option Nat) : lapses first last gate [] = 0 := by
  cases gate <;> rfl

theorem lapses_self (call : Nat) (gate : Option Nat) (choices : List Choice) :
    lapses call call gate choices = 0 := by
  unfold lapses
  split
  · exact if_neg fun between => Nat.not_lt_of_le between.1 between.2
  · rfl

theorem lapses_at {call last : Nat} (before : call < last) (calls : Option Nat)
    (choices : List Choice) :
    lapses call last (some call) (.wait calls :: choices) =
      lapses call last (calls.map (call + ·)) choices + 1 := by
  rw [lapses, if_pos ⟨Nat.le_refl call, before⟩]

/-- At a call that is no gate the time does not run out. -/
theorem lapses_succ {call : Nat} {gate : Option Nat} (elsewhere : gate ≠ some call) (last : Nat)
    (choices : List Choice) : lapses (call + 1) last gate choices = lapses call last gate choices := by
  unfold lapses
  split
  · rename_i gate _ _
    have apart : gate ≠ call := fun same => elsewhere (congrArg some same)
    have later : call + 1 ≤ gate ↔ call ≤ gate := by omega
    simp only [later]
  · rfl

/-- The choices of an operator who is asked at a call and then at others, and waits each time. -/
def waits (gate : Nat) : List Nat → List Choice
  | [] => [.wait none]
  | next :: gates => .wait (some (next - gate)) :: waits next gates

/-- A watch whose time runs out at these calls, and whose operator waits. -/
def waitingAt (gates : List Nat) : Watch :=
  match gates with
  | [] => ⟨false, none, [], false⟩
  | gate :: gates => ⟨false, some gate, waits gate gates, false⟩

theorem stop_notMem_waitingAt (gates : List Nat) : Choice.stop ∉ (waitingAt gates).choices := by
  have among (gate : Nat) (gates : List Nat) : Choice.stop ∉ waits gate gates := by
    induction gates generalizing gate with
    | nil => exact List.not_mem_cons_of_ne_of_not_mem nofun List.not_mem_nil
    | cons next gates induction => exact List.not_mem_cons_of_ne_of_not_mem nofun (induction next)
  cases gates with
  | nil => exact List.not_mem_nil
  | cons gate gates => exact among gate gates

theorem lapses_waits {gate : Nat} {gates : List Nat} (sorted : (gate :: gates).Pairwise (· ≤ ·))
    {first : Nat} (ahead : first ≤ gate) (last : Nat) :
    lapses first last (some gate) (waits gate gates) = (gate :: gates).countP (· < last) := by
  induction gates generalizing gate first with
  | nil =>
      rw [waits, lapses, Option.map_none, lapses_none, List.countP_singleton]
      simp only [ahead, true_and, decide_eq_true_eq]
  | cons next gates induction =>
      obtain ⟨behind, sorted⟩ := List.pairwise_cons.1 sorted
      have follows : gate ≤ next := behind next (List.mem_cons_self ..)
      rw [waits, lapses, Option.map_some, Nat.add_sub_cancel' follows, induction sorted follows]
      by_cases before : gate < last
      · rw [if_pos ⟨ahead, before⟩]
        exact (List.countP_cons_of_pos (p := fun call => call < last) (decide_eq_true before)).symm
      · rw [if_neg fun between => before between.2, eq_comm, List.countP_eq_zero]
        intro other among
        have beyond : gate ≤ other := by
          rcases List.mem_cons.1 among with rfl | among
          · exact Nat.le_refl _
          · exact behind other among
        simp only [decide_eq_true_eq]
        omega

/-- The operator can be made to wait at any calls whatever, as often as one likes. -/
theorem lapses_waitingAt {gates : List Nat} (sorted : gates.Pairwise (· ≤ ·)) {first : Nat}
    (ahead : ∀ gate ∈ gates, first ≤ gate) (last : Nat) :
    lapses first last (waitingAt gates).gate (waitingAt gates).choices =
      gates.countP (· < last) := by
  cases gates with
  | nil => rfl
  | cons gate gates => exact lapses_waits sorted (ahead gate (List.mem_cons_self ..)) last

end Watch

namespace World

/-- How often the time of the running statement runs out until so many calls have been made, if the
operator waits. -/
def lapses (world : World) (last : Nat) : Nat :=
  Watch.lapses world.calls.length last world.watch.gate world.watch.choices

end World

namespace Session

/-! ## Sessions that nobody stops -/

theorem Unwatched.kin_self {session : Session} (unwatched : session.Unwatched) :
    Kin (attending True) session session where
  core := rfl
  level := rfl
  saved := saves_refl session.transaction
  world := ⟨rfl, unwatched, fun _ => unwatched.patient⟩

theorem Unwatched.after {α : Type} {action : Action α} {session : Session}
    (unwatched : session.Unwatched) (shared : Shared (attending True) True action) :
    (action.on session).2.Unwatched := by
  obtain ⟨-, kin⟩ := shared session session unwatched.kin_self (.inl trivial)
  exact kin.world.idle

/-- The actions do the same as long as nobody watches. -/
def Calm {α : Type} (action action' : Action α) : Prop :=
  ∀ session, session.Unwatched → action.on session = action'.on session

section Calm

variable {α β : Type}

theorem Calm.refl (action : Action α) : Calm action action := fun _ _ => rfl

theorem Calm.bind {action action' : Action α} {next next' : α → Action β}
    (calm : Calm action action') (shared : Shared (attending True) True action)
    (others : ∀ value, Calm (next value) (next' value)) :
    Calm (action >>= next) (action' >>= next') := by
  intro session unwatched
  have kept := unwatched.after shared
  rw [Action.on_bind, Action.on_bind, ← calm session unwatched]
  revert kept
  rcases action.on session with ⟨_ | value, after⟩
  · exact fun _ => rfl
  · exact fun kept => others value after kept

theorem Calm.atLevel {level : Level} {action action' : Action Unit} (calm : Calm action action') :
    Calm (atLevel level action) (atLevel level action') := by
  intro session unwatched
  have same := calm (session.withAccess level) unwatched
  rw [on_atLevel, on_atLevel, same]

theorem Calm.inSandbox {action action' : Action Unit} (calm : Calm action action') :
    Calm (inSandbox action) (inSandbox action') := by
  intro session unwatched
  have same := calm session.sandbox unwatched
  rw [on_inSandbox, on_inSandbox, same]

/-- Scripts that could be stopped run as if they could not. -/
structure CalmScripts (nested : Nested) : Prop where
  load : ∀ source, Calm (nested.load true source) (nested.load false source)
  compile : ∀ source, Calm (nested.compile true source) (nested.compile false source)

variable {nested : Nested} {recording cancellable : Bool} {takeBack : List String → Action Unit}

theorem calm_checkpoint : Calm (checkpoint ⟨recording, true⟩) (checkpoint ⟨recording, false⟩) := by
  intro session unwatched
  rw [on_checkpoint, on_checkpoint, unwatched.unstopped]
  rfl

theorem calm_obey (scripts : CalmScripts nested)
    (shared : SharesScripts (attending True) True nested) (command : Command) (rest : List String) :
    Calm (obey nested ⟨recording, true⟩ takeBack command rest)
      (obey nested ⟨recording, false⟩ takeBack command rest) := by
  have admits : (attending True).Admits True true := attending_admits_patient
  cases command with
  | compile =>
      apply Calm.bind (.refl _) (shared_scriptFile _)
      rintro ⟨path, source⟩
      exact (scripts.compile source).bind (shared true admits source).2 fun _ => .refl _
  | load =>
      apply Calm.bind (.refl _) (shared_scriptFile _)
      rintro ⟨path, source⟩
      exact (scripts.load source).bind (shared true admits source).1 fun _ => .refl _
  | _ => exact .refl _

theorem calm_obeyToken {run run' : Command → List String → Action Unit}
    (calm : ∀ command rest, Calm (run command rest) (run' command rest))
    (shared : ∀ command rest, Shared (attending True) True (run command rest)) (token : String)
    (rest : List String) :
    Calm (obeyToken run ⟨recording, true⟩ token rest)
      (obeyToken run' ⟨recording, false⟩ token rest) := by
  have admits : (attending True).Admits True true := attending_admits_patient
  unfold obeyToken
  split
  · exact .refl _
  · apply Calm.bind calm_checkpoint (shared_checkpoint admits)
    intro _
    unfold obeyWord
    split
    · apply Calm.bind (.refl _) (shared_permit admits _)
      intro _
      exact (calm _ rest).bind (shared _ rest) fun _ => .refl _
    · exact .refl _
    · exact .refl _

theorem calm_dispatch {run run' : Command → List String → Action Unit}
    (calm : ∀ command rest, Calm (run command rest) (run' command rest))
    (shared : ∀ command rest, Shared (attending True) True (run command rest))
    (row : List String) :
    Calm (dispatch run ⟨recording, true⟩ row) (dispatch run' ⟨recording, false⟩ row) := by
  have admits : (attending True).Admits True true := attending_admits_patient
  induction row with
  | nil => exact .refl _
  | cons token rest induction =>
      exact (calm_obeyToken calm shared token rest).bind
        (shared_obeyToken admits shared token rest) fun _ => induction

theorem calm_runBody (scripts : CalmScripts nested)
    (shared : SharesScripts (attending True) True nested) (row : List String) :
    Calm (runBody nested true row) (runBody nested false row) :=
  calm_dispatch (calm_obey scripts shared)
    (shared_obey shared attending_admits_patient fun _ => .throw _) row

theorem calm_attempt (scripts : CalmScripts nested)
    (shared : SharesScripts (attending True) True nested) (statement : String) :
    Calm (attempt nested true statement) (attempt nested false statement) := by
  have admits : (attending True).Admits True true := attending_admits_patient
  intro session unwatched
  rw [on_attempt, on_attempt]
  apply congrArg
  apply calm_dispatch (calm_obey scripts shared)
  · exact shared_obey shared admits (shared_replayUndo shared admits true 1)
  · exact unwatched

end Calm

theorem calmScripts_ofDepth (depth : Nat) : CalmScripts (.ofDepth depth) := by
  induction depth with
  | zero => exact ⟨fun _ => .refl _, fun _ => .refl _⟩
  | succ depth induction =>
      have shared := sharesScripts_ofDepth (attending True) True depth
      constructor
      · intro source
        rw [Nested.load_ofDepth, Nested.load_ofDepth]
        exact (calm_runBody induction shared _).atLevel
      · intro source
        rw [Nested.compile_ofDepth, Nested.compile_ofDepth]
        exact (calm_attempt induction shared source).inSandbox

/-- A statement that nobody watches is not stopped, unless the engine says so. -/
theorem Unwatched.uncancelled {session : Session} (unwatched : session.Unwatched)
    (fails : session.engine.FailsBy .unstopped) (statement : String) :
    ((execute statement).on session).1 ≠ .error .cancelled := by
  have deep : Reasons.unstopped.allows .nestedTooDeep := by rintro ⟨⟩
  have calm := calm_attempt (calmScripts_ofDepth session.nestingBound)
    (sharesScripts_ofDepth (attending True) True _) statement
  rw [on_execute, calm session unwatched]
  have covers := failsBy_attempt (scriptsFailBy_ofDepth deep session.nestingBound)
    (fun stops => absurd stops Bool.false_ne_true) statement session fails
  exact covers.1.ne_error

/-! ## The questions of a statement -/

/-- A world under watch has come from `start` by these questions. The operator has waited each time the
time ran out, and `start` tells how often it will have run out at any call from `bound` on. -/
structure Waited (start : World) (bound : Nat) (world : World) (put : List Question) : Prop where
  active : world.watch.active = true
  patient : world.watch.Patient
  asked : world.operator.asked = start.operator.asked ++ put
  timeouts : put.filter Question.isTimeout = Watch.timeouts (put.countP Question.isTimeout)
  extended : world.extended = decide (0 < put.countP Question.isTimeout)
  due : ∀ last, bound ≤ last →
    start.lapses last = put.countP Question.isTimeout + world.lapses last

namespace Waited

variable {start world : World} {bound : Nat} {put : List Question}

theorem ask {calls : Option Nat} {choices : List Choice} (waited : Waited start bound world put)
    (behind : world.calls.length < bound) (stated : world.watch.choices = .wait calls :: choices)
    (expires : world.expires = true) :
    Waited start bound (world.ask (.wait calls) choices) (put ++ [.timeout world.extended]) := by
  have count : (put ++ [Question.timeout world.extended]).countP Question.isTimeout =
      put.countP Question.isTimeout + 1 := by
    rw [List.countP_append]
    rfl
  have waits := waited.patient.waits waited.active
  rw [stated] at waits
  refine ⟨waited.active, ⟨waited.patient.unstopped, fun _ among => waits (.tail _ among)⟩, ?_, ?_, ?_,
    fun last behind' => ?_⟩
  · rw [← List.append_assoc, ← waited.asked]
    rfl
  · rw [count, Watch.timeouts_succ, List.filter_append, waited.timeouts, waited.extended]
    rfl
  · rw [count]
    rfl
  · have gate := (World.active_of_expires expires).2
    have lapse := Watch.lapses_at (Nat.lt_of_lt_of_le behind behind') calls choices
    rw [waited.due last behind', count, World.lapses, gate, stated, lapse, Nat.add_right_comm,
      ← Nat.add_assoc]
    rfl

/-- The operator is asked for a level, whatever the answer. -/
theorem request (waited : Waited start bound world put) (request : Elevation) (replies : List Bool) :
    Waited start bound
      { world with operator := ⟨replies, world.operator.asked ++ [.elevation request]⟩ }
      (put ++ [.elevation request]) := by
  have count : (put ++ [Question.elevation request]).countP Question.isTimeout =
      put.countP Question.isTimeout := by
    rw [List.countP_append]
    rfl
  refine ⟨waited.active, waited.patient, ?_, ?_, ?_, ?_⟩
  · rw [← List.append_assoc, ← waited.asked]
  · rw [count, List.filter_append, waited.timeouts]
    exact List.append_nil _
  · rw [count]
    exact waited.extended
  · rw [count]
    exact waited.due

/-- Nothing is left to be asked at a call when all has been asked that there was to ask. -/
theorem consult {choices : List Choice} (waited : Waited start bound world put)
    (behind : world.calls.length < bound) (stated : world.watch.choices = choices) :
    ∃ put', put'.filter (fun question => !question.isTimeout) =
        put.filter (fun question => !question.isTimeout) ∧
      Waited start bound (world.consult choices) put' ∧
      ((world.consult choices).watch.gate ≠ some world.calls.length ∨
        (world.consult choices).watch.choices = []) := by
  induction choices generalizing world put with
  | nil => exact ⟨put, rfl, waited, .inr stated⟩
  | cons choice choices induction =>
      rw [World.consult]
      cases expires : world.expires with
      | false =>
          refine ⟨put, rfl, waited, .inl fun gate => ?_⟩
          rw [World.expires, waited.active, waited.patient.unstopped] at expires
          exact absurd gate (of_decide_eq_false expires)
      | true =>
          cases choice with
          | stop =>
              have waits := waited.patient.waits waited.active
              rw [stated] at waits
              exact absurd (List.mem_cons_self ..) waits
          | wait calls =>
              obtain ⟨put', same, waited', settled⟩ :=
                induction (waited.ask behind stated expires) behind rfl
              refine ⟨put', same.trans ?_, waited', settled⟩
              rw [List.filter_append]
              exact List.append_nil _

theorem note (waited : Waited start world.calls.length world put) (call : Call) :
    ∃ put', put'.filter (fun question => !question.isTimeout) =
        put.filter (fun question => !question.isTimeout) ∧
      Waited start (world.note call).calls.length (world.note call) put' := by
  have later : Waited start (world.calls.length + 1) world put :=
    { waited with due := fun last behind => waited.due last (Nat.le_of_succ_le behind) }
  obtain ⟨put', same, consulted, settled⟩ := later.consult (Nat.lt_succ_self _) rfl
  have length : (world.note call).calls.length = world.calls.length + 1 := by
    rw [World.note, List.length_append, World.consult_calls]
    rfl
  refine ⟨put', same, consulted.active, consulted.patient, consulted.asked, consulted.timeouts,
    consulted.extended, fun last behind => ?_⟩
  rw [length] at behind
  rw [consulted.due last behind, World.lapses, World.lapses, length, World.consult_calls]
  congr 1
  rcases settled with elsewhere | none
  · exact (Watch.lapses_succ elsewhere last _).symm
  · show _ = Watch.lapses _ last _ (world.consult world.watch.choices).watch.choices
    rw [none, Watch.lapses_nil, Watch.lapses_nil]

end Waited

/-- The first world is watched and has come from `start`, and nobody watches the second one. Both have
been asked for the same levels. -/
structure Awaited (start first second : World) : Prop where
  attended : Attended True first second
  put : ∃ put, Waited start first.calls.length first put ∧
    second.operator.asked =
      start.operator.asked ++ put.filter fun question => !question.isTimeout

/-- The first session is under watch since `start`, and the operator waits. -/
def waiting (start : World) : Kinship where
  levels := Eq
  worlds := Awaited start
  refl := (attending True).refl
  le := (attending True).le
  filing files awaited := by
    obtain ⟨put, waited, plain⟩ := awaited.put
    exact ⟨(attending True).filing files awaited.attended, put, { waited with }, plain⟩
  noting call same awaited := by
    obtain ⟨put, waited, plain⟩ := awaited.put
    obtain ⟨put', kept, waited⟩ := waited.note call
    refine ⟨(attending True).noting call same awaited.attended, put', waited, ?_⟩
    rw [kept, World.note_of_unexpired (World.expires_of_inactive awaited.attended.idle.inactive)]
    exact plain
  asking request first second level awaited := by
    obtain ⟨granted, attended⟩ := (attending True).asking request level awaited.attended
    refine ⟨granted, ?_⟩
    obtain ⟨put, waited, plain⟩ := awaited.put
    simp only [elevate, Action.on_modify] at attended ⊢
    rw [level] at attended ⊢
    split at attended
    · rename_i high
      rw [if_pos high, if_pos high]
      exact awaited
    · rename_i high
      rw [if_neg high, if_neg high]
      refine ⟨attended, put ++ [.elevation request], waited.request request _, ?_⟩
      rw [List.filter_append, ← List.append_assoc, ← plain]
      rfl

theorem waiting_admits {start : World} {exact : Prop} {cancellable : Bool} :
    (waiting start).Admits exact cancellable where
  level _ _ _ same := same
  stop awaited runs := attending_admits_patient.stop awaited.attended runs

theorem Kin.attending_of_waiting {start : World} {first second : Session}
    (kin : Kin (waiting start) first second) : Kin (attending True) first second where
  core := kin.core
  level := kin.level
  saved := by
    have saved := kin.saved
    generalize first.transaction = kept, second.transaction = kept' at saved
    cases saved with
    | none => exact .none
    | some saves => exact .some ⟨saves.unleveled, saves.level⟩
  world := kin.world.attended

variable {session : Session}

theorem Unwatched.kin_waiting (unwatched : session.Unwatched)
    (waits : Choice.stop ∉ session.world.watch.choices) :
    Kin (waiting session.world) (session.setWatch true) session where
  core := rfl
  level := rfl
  saved := saves_refl session.transaction
  world := by
    have patient : (session.setWatch true).world.watch.Patient := ⟨rfl, fun _ => waits⟩
    refine ⟨⟨rfl, unwatched, fun _ => patient⟩, [], ⟨rfl, patient, ?_, rfl, rfl, fun last _ => ?_⟩, ?_⟩
    · exact (List.append_nil _).symm
    · exact (Nat.zero_add _).symm
    · exact (List.append_nil _).symm

/-- A statement that the operator waits for goes the way it goes when nobody watches. -/
theorem Unwatched.kin_supervised (unwatched : session.Unwatched)
    (waits : Choice.stop ∉ session.world.watch.choices) (statement : String) :
    ((execute statement).on session).1 = ((execute statement).on (session.setWatch true)).1 ∧
      Kin (waiting session.world) ((session.setWatch true).executed statement)
        (session.executed statement) := by
  have admits : (waiting session.world).Admits True true := waiting_admits
  have tracks := (tracks_running admits (unwatched.kin_waiting waits) rfl statement).concluding
  rw [← on_execute_running, ← on_execute_running] at tracks
  exact tracks (.inl trivial)

theorem executeSupervised_outcome {statement : String}
    (unstopped : ((session.setWatch true).executed statement).world.watch.stopped = false)
    (uncancelled : ((execute statement).on (session.setWatch true)).1 ≠ .error .cancelled) :
    ((executeSupervised statement).on session).1 =
      ((execute statement).on (session.setWatch true)).1 := by
  rw [executed] at unstopped
  simp only [executeSupervised, Action.on_of, unstopped, Bool.false_eq_true, if_false]

/-- A statement that the operator waits for ends as it does when nobody watches, in the same session.
The operator has been asked for the same levels, and besides these only whether to stop, each time that
the time ran out: first whether to stop at all, and then always whether to stop after having waited. -/
theorem supervised_waiting (statement : String) (unwatched : session.Unwatched)
    (waits : Choice.stop ∉ session.world.watch.choices)
    (fails : session.engine.FailsBy .unstopped) :
    ((executeSupervised statement).on session).1 = ((execute statement).on session).1 ∧
      ((executeSupervised statement).on session).2.unasked =
        (session.executed statement).unasked ∧
      ∃ put : List Question,
        ((executeSupervised statement).on session).2.world.operator.asked =
            session.world.operator.asked ++ put ∧
          (session.executed statement).world.operator.asked =
            session.world.operator.asked ++ put.filter (fun question => !question.isTimeout) ∧
          put.filter Question.isTimeout =
            Watch.timeouts
              (session.world.lapses (session.executed statement).world.calls.length) := by
  obtain ⟨same, kin⟩ := unwatched.kin_supervised waits statement
  have uncancelled := unwatched.uncancelled fails statement
  obtain ⟨put, waited, plain⟩ := kin.world.put
  refine ⟨?_, ?_, put, ?_, plain, ?_⟩
  · rw [same] at uncancelled ⊢
    exact executeSupervised_outcome (kin.world.attended.waits trivial).unstopped uncancelled
  · rw [executeSupervised_session, unasked_setWatch, kin.attending_of_waiting.unasked_eq]
  · rw [executeSupervised_session]
    exact waited.asked
  · rw [waited.timeouts, ← kin.calls, waited.due _ (Nat.le_refl _), World.lapses, Watch.lapses_self,
      Nat.add_zero]

/-- The operator grants the first of two levels. The time runs out twice at the second call, and again at
the third one. -/
def waitedFor : Session :=
  ofSettings .standard (.departing .none)
    { World.quiet (.empty []) ⟨[true, false], []⟩ with watch := .waitingAt [1, 1, 2] }

/-- The statement asks for both levels and fails at its end, for want of a plane. -/
def planelessCut : String :=
  "root paper [square] new plane [1 0 0] [1 0 0] reflect debug plane [2 0 0] [1 0 0] reflect cut"

/-- The questions whether to stop come at two calls, with a request between them. -/
theorem supervised_waiting_waitedFor :
    ((executeSupervised planelessCut).on waitedFor).2.world.operator.asked =
        [.elevation .root, .timeout false, .timeout true, .elevation .dev, .timeout true] ∧
      waitedFor.world.lapses (waitedFor.executed planelessCut).world.calls.length = 3 ∧
      ((executeSupervised planelessCut).on waitedFor).1 = ((execute planelessCut).on waitedFor).1 ∧
      ((executeSupervised planelessCut).on waitedFor).2.unasked =
        (waitedFor.executed planelessCut).unasked ∧
      waitedFor.failure planelessCut ≠ none := by
  have unwatched : waitedFor.Unwatched := ⟨rfl, rfl⟩
  obtain ⟨outcome, ends, -⟩ := supervised_waiting planelessCut unwatched
    (Watch.stop_notMem_waitingAt [1, 1, 2]) (Engine.failsBy_departing .none .unstopped)
  refine ⟨by decide +kernel, ?_, outcome, ends, by decide +kernel⟩
  have lapses := Watch.lapses_waitingAt (by decide : [1, 1, 2].Pairwise (· ≤ ·))
    (fun gate _ => Nat.zero_le gate) (waitedFor.executed planelessCut).world.calls.length
  exact lapses.trans (by decide +kernel)

end Session

end PaperFolding
