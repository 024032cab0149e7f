import CabbageFormula.Caps.Config
import CabbageFormula.Main
import CabbageFormula.Proofs.Blanks
import CabbageFormula.Proofs.Budget
import CabbageFormula.Proofs.Fidelity
import CabbageFormula.Proofs.Ledger
import CabbageFormula.Proofs.Places
import CabbageFormula.Proofs.Printing
import CabbageFormula.Proofs.Raising
import CabbageFormula.Source.Scripted
import CabbageFormula.Source.Words
import CabbageFormula.Proofs.Replies
import CabbageFormula.Proofs.Rereading
import CabbageFormula.Proofs.Sessions
import CabbageFormula.Proofs.Totals
import CabbageFormula.Proofs.Refusals
import CabbageFormula.Proofs.Viability
import CabbageFormula.Proofs.Precedence
import CabbageFormula.Proofs.Pointing
import CabbageFormula.Proofs.Lines
import CabbageFormula.Proofs.Dialogues
import CabbageFormula.Proofs.Joining
import CabbageFormula.Proofs.Weaving
import CabbageFormula.Proofs.Linearity
import CabbageFormula.Proofs.Exhaustion
import CabbageFormula.Proofs.Fairness
import CabbageFormula.Proofs.RandomWords
import CabbageFormula.Proofs.UniformDraws
import CabbageFormula.Proofs.Answers
import CabbageFormula.Proofs.Splitting
import CabbageFormula.Proofs.Records
import CabbageFormula.Proofs.Quoting
import CabbageFormula.Proofs.Forgery
import CabbageFormula.Proofs.LineEnds
import CabbageFormula.Proofs.Tiling
import CabbageFormula.Proofs.Rescreening
import CabbageFormula.Proofs.Configuration
import CabbageFormula.Proofs.Registers
