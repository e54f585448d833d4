import PaperFolding.Proofs.Session.Kinship.Scripts
import PaperFolding.Proofs.Session.Surroundings

/-!
The same statement at two levels, with an operator who declines every request. A higher level refuses less,
and what succeeds at the lower one does the same at the higher one.
-/

namespace PaperFolding

namespace World

theorem watch_consult {first second : World} (same : first.watch = second.watch)
    (calls : first.calls = second.calls) (choices : List Choice) :
    (first.consult choices).watch = (second.consult choices).watch := by
  induction choices generalizing first second with
  | nil => exact same
  | cons choice choices induction =>
      have expires : first.expires = second.expires := by rw [expires, expires, same, calls]
      rw [consult, consult, expires]
      split
      · apply induction
        · cases choice with
          | stop => simp only [ask, same]
          | wait pause => simp only [ask, same, calls]
        · cases choice <;> exact calls
      · exact same

theorem watch_note {first second : World} (same : first.watch = second.watch)
    (calls : first.calls = second.calls) (call : Call) :
    (first.note call).watch = (second.note call).watch := by
  show (first.consult first.watch.choices).watch = _
  rw [same]
  exact watch_consult same calls _

end World

namespace Session

/-- The operator declines every request in both worlds, and the same watch is kept. -/
structure Refusing (first second : World) : Prop where
  declines : true ∉ first.operator.replies
  declines' : true ∉ second.operator.replies
  watch : first.watch = second.watch

/-- Asked in vain, a session stays as it is but for the replies that are left. -/
theorem elevate_of_declines {session : Session}
    (declines : true ∉ session.world.operator.replies) (request : Elevation) :
    ((elevate request).on session).2.access = session.access ∧
      true ∉ ((elevate request).on session).2.world.operator.replies ∧
      ((elevate request).on session).2.world.watch = session.world.watch := by
  simp only [elevate, Action.on_modify]
  split
  · exact ⟨rfl, declines, rfl⟩
  · refine ⟨?_, fun among => declines (List.mem_of_mem_tail among), rfl⟩
    show (if (session.world.operator.confirm request).1 then request.level else session.access) = _
    rw [Operator.confirm_of_declines declines]
    rfl

/-- The second session is at the level of the first or above it, and neither gets any higher. -/
def ascending : Kinship where
  levels := (· ≤ ·)
  worlds := Refusing
  refl level := Nat.le_refl level.rank
  le := id
  filing _ refusing := ⟨refusing.declines, refusing.declines', refusing.watch⟩
  noting call calls refusing := by
    constructor
    · rw [(World.note_surroundings _ call).2]
      exact refusing.declines
    · rw [(World.note_surroundings _ call).2]
      exact refusing.declines'
    · exact World.watch_note refusing.watch calls call
  asking request _ _ level refusing := by
    obtain ⟨access, declines, watch⟩ := elevate_of_declines refusing.declines request
    obtain ⟨access', declines', watch'⟩ := elevate_of_declines refusing.declines' request
    rw [access, access']
    exact ⟨level, declines, declines', by rw [watch, watch', refusing.watch]⟩

theorem ascending_admits (cancellable : Bool) : ascending.Admits False cancellable where
  level := False.elim
  stop refusing _ := by rw [refusing.watch]

variable {session : Session} {statement : String} {level higher : Level}

theorem kin_of_le (declines : true ∉ session.world.operator.replies) (above : level ≤ higher) :
    Kin ascending (session.withAccess level) (session.withAccess higher) where
  core := rfl
  level := above
  saved := saves_refl session.transaction
  world := ⟨declines, declines, rfl⟩

/-- A statement that succeeds at some level succeeds at every higher one, and leaves the same paper, the
same history, the same appearance, the same transcript and the same files. -/
theorem executed_above (declines : true ∉ session.world.operator.replies)
    (above : level ≤ higher) (done : (session.withAccess level).failure statement = none) :
    (session.withAccess higher).failure statement = none ∧
      let lower := (session.withAccess level).executed statement
      let upper := (session.withAccess higher).executed statement
      upper.model = lower.model ∧ upper.history = lower.history ∧ upper.stage = lower.stage ∧
        upper.color = lower.color ∧ upper.texture = lower.texture ∧
        upper.filename = lower.filename ∧ upper.locale = lower.locale ∧
        upper.camera = lower.camera ∧ upper.transcript = lower.transcript ∧
        upper.world.files = lower.world.files ∧ upper.world.calls = lower.world.calls := by
  obtain ⟨same, kin⟩ :=
    kin_executed (ascending_admits true) (kin_of_le declines above) rfl (.inr done)
  constructor
  · rw [same, done]
  · intro lower upper
    have kin : Kin ascending lower upper := kin
    have same {γ : Type} (view : Session → γ)
        (blind : ∀ session : Session, view session.core = view session) : view upper = view lower :=
      (kin.reads view blind).symm
    exact ⟨same Session.model fun _ => rfl, same Session.history fun _ => rfl,
      same Session.stage fun _ => rfl, same Session.color fun _ => rfl,
      same Session.texture fun _ => rfl, same Session.filename fun _ => rfl,
      same Session.locale fun _ => rfl, same Session.camera fun _ => rfl,
      same Session.transcript fun _ => rfl, kin.files.symm, kin.calls.symm⟩

/-- The script asks for a level, and so may the statement that loads it. -/
def inquiring : Session :=
  ofSettings .standard .plain
    (.quiet ⟨[], [(["s"], .file "root paper [square] new".toUTF8)], .willing⟩ .absent)

theorem executed_above_inquiring :
    (inquiring.withAccess .root).failure "debug filename [s] load" = none ∧
      ((inquiring.withAccess .root).executed "debug filename [s] load").world.operator.asked =
        [.elevation .dev, .elevation .root] ∧
      (inquiring.withAccess .dev).failure "debug filename [s] load" = none ∧
      ((inquiring.withAccess .dev).executed "debug filename [s] load").world.operator.asked =
        [.elevation .root] ∧
      ((inquiring.withAccess .dev).executed "debug filename [s] load").model =
        ((inquiring.withAccess .root).executed "debug filename [s] load").model := by
  have declines : true ∉ inquiring.world.operator.replies := by decide
  have above : Level.root ≤ Level.dev := by decide
  have done : (inquiring.withAccess .root).failure "debug filename [s] load" = none := by
    decide +kernel
  obtain ⟨done', model, -⟩ := executed_above declines above done
  exact ⟨done, by decide +kernel, done', by decide +kernel, model⟩

end Session

end PaperFolding
