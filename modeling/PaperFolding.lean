import PaperFolding.Main
import PaperFolding.Proofs.Files.Settings
import PaperFolding.Proofs.Geometry.Covering
import PaperFolding.Proofs.Ledger.Reel
import PaperFolding.Proofs.Script.Rereading
import PaperFolding.Proofs.Script.Sentence
import PaperFolding.Proofs.Session.Archiving
import PaperFolding.Proofs.Session.Ascent
import PaperFolding.Proofs.Session.Bounded
import PaperFolding.Proofs.Session.Coloring
import PaperFolding.Proofs.Session.Confinement
import PaperFolding.Proofs.Session.Nesting
import PaperFolding.Proofs.Session.Overwriting
import PaperFolding.Proofs.Session.Privilege
import PaperFolding.Proofs.Session.Recording
import PaperFolding.Proofs.Session.RepeatedUndo
import PaperFolding.Proofs.Session.Replacing
import PaperFolding.Proofs.Session.Reproducing
import PaperFolding.Proofs.Session.Restarting
import PaperFolding.Proofs.Session.Reverting
import PaperFolding.Proofs.Session.Saving
import PaperFolding.Proofs.Session.Soundness
import PaperFolding.Proofs.Session.Stopping
import PaperFolding.Proofs.Session.Storing
import PaperFolding.Proofs.Session.Succession
import PaperFolding.Proofs.Session.UndoReplay
import PaperFolding.Proofs.Session.UndoneFirst
import PaperFolding.Proofs.Session.Uninterrupted
import PaperFolding.Proofs.Session.Waiting
