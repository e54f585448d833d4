import PaperFolding.Proofs.Files.Untouched
import PaperFolding.Proofs.Session.Execution

/-!
Storing the history in a file. It is prepared in a draft next to the file, and only the two are touched.
-/

namespace PaperFolding.Session

open FileTree PaperFolding.Path

end PaperFolding.Session
