import PaperFolding.Proofs.Session.Nesting
import PaperFolding.Proofs.Session.Saving

/-!
A script that is put together from two. If the first closes its comments and its brackets and the second
begins with a known word, the whole runs as the first one and then the second.
-/

namespace PaperFolding

open Script

namespace Session

theorem taken_of_known {row : List String} (known : row.head?.any isKnown = true) :
    taken row = [] := by
  cases row with
  | nil => cases known
  | cons token rest => exact taken_known known rest

/-- No command of a body looks at what follows it, so only the last parameter could reach further. -/
theorem runBody_append {front back : List String} (apart : taken back = []) (nested : Nested)
    (cancellable : Bool) :
    runBody nested cancellable (front ++ back) =
      runBody nested cancellable front >>= fun _ => runBody nested cancellable back :=
  dispatch_append (restless_obey nested cancellable (.missing .undoableFold)) fun _ => apart

/-- A closed script and one that begins with a known word, on the lines behind it, run as the first one and
then the second in the session it has left; if the first fails, so does the whole. What the scripts do that
they load makes no difference. -/
theorem runBody_joined {front back : String} (closed : Closed front)
    (known : (tokens back).head?.any isKnown = true) (nested : Nested) (cancellable : Bool)
    (session : Session) :
    (runBody nested cancellable (tokens (front ++ "\n" ++ back))).on session =
      match (runBody nested cancellable (tokens front)).on session with
      | (.ok _, after) => (runBody nested cancellable (tokens back)).on after
      | (.error fault, after) => (.error fault, after) := by
  rw [closed.tokens_append, runBody_append (taken_of_known known), Action.on_bind]
  rcases (runBody nested cancellable (tokens front)).on session with ⟨_ | _, after⟩ <;> rfl

/-- A session that may load the file `s`, which sets a color. -/
def supplied : Session :=
  { ofSettings .standard .plain (.quiet ⟨[], [(["s"], .file "color [7]".toUTF8)], .willing⟩ .absent) with
    access := .root }

def preface : String := "filename [s] load \x7bthe color\x7d angle[90]"

def sequel : String := "\tpaper [square]new rotate"

/-- The last parameter of the first script takes no more than the end of its line. -/
theorem runBody_joined_supplied :
    Closed preface ∧ (tokens sequel).head?.any isKnown = true ∧
      ((runBody .unbounded true (tokens preface)).on supplied).1 = .ok () ∧
      (runBody .unbounded true (tokens (preface ++ "\n" ++ sequel))).on supplied =
        match (runBody .unbounded true (tokens preface)).on supplied with
        | (.ok _, after) => (runBody .unbounded true (tokens sequel)).on after
        | (.error fault, after) => (.error fault, after) := by
  have closed : Closed preface := by decide
  have known : (tokens sequel).head?.any isKnown = true := by decide +kernel
  exact ⟨closed, known, by decide +kernel, runBody_joined closed known .unbounded true supplied⟩

end Session

end PaperFolding
