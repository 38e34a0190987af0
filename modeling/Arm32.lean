import Arm32.Field
import Arm32.Instruction.Encode
import Arm32.Instruction.WellFormed
import Arm32.Json.Reader
import Arm32.Json.Writer
import Arm32.Main
import Arm32.Monitor
import Arm32.Proofs.Assembly.Identity
import Arm32.Proofs.Assembly.Shifts
import Arm32.Proofs.Bare.Sessions
import Arm32.Proofs.Decoding.Image
import Arm32.Proofs.Execution.Atomicity
import Arm32.Proofs.Execution.CarryChains
import Arm32.Proofs.Execution.Comparisons
import Arm32.Proofs.Execution.Footprints
import Arm32.Proofs.Execution.ShiftPaths
import Arm32.Proofs.Execution.Stacks
import Arm32.Proofs.Memory.Accesses
import Arm32.Proofs.Running.Beginnings
import Arm32.Proofs.Running.Completion
import Arm32.Proofs.Running.Diagnostics
import Arm32.Proofs.Running.MemorySize
import Arm32.Proofs.Running.Output
import Arm32.Proofs.Running.Stops
import Arm32.Proofs.Service.Answers
import Arm32.Proofs.Word.Signs
