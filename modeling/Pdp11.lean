import Pdp11.Instruction.Listing
import Pdp11.Microcode.Text
import Pdp11.Proofs.Arithmetic.Comparison
import Pdp11.Proofs.Arithmetic.DoubleLength
import Pdp11.Proofs.Arithmetic.Shifts
import Pdp11.Proofs.BranchHistory
import Pdp11.Proofs.BusContract
import Pdp11.Proofs.ByteMemory
import Pdp11.Proofs.Encoding.Agreement
import Pdp11.Proofs.FlushContract
import Pdp11.Proofs.FrozenStatus
import Pdp11.Proofs.Interpreter.Refinement
import Pdp11.Proofs.Listing.Sweep
import Pdp11.Proofs.Microstate.Steps
import Pdp11.Proofs.PhysicalAliases
import Pdp11.Proofs.PreviousOperand
import Pdp11.Proofs.Quotients
import Pdp11.Proofs.SourceBase
import Pdp11.Proofs.StackLimit
import Pdp11.Proofs.Subroutines
import Pdp11.Proofs.Tracing
import Pdp11.Proofs.Waiting
