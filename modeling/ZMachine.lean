import ZMachine.Folder
import ZMachine.Main
import ZMachine.Proofs.StaticMemory
import ZMachine.Proofs.Bracketing
import ZMachine.Proofs.WellFormed
import ZMachine.Proofs.Damage
import ZMachine.Proofs.Decoding
import ZMachine.Proofs.Trace
import ZMachine.Proofs.Checked.Fetch
import ZMachine.Proofs.Checked.Perform
import ZMachine.Proofs.Checked.Step
import ZMachine.Proofs.OpenCalls
import ZMachine.Proofs.Budget
import ZMachine.Proofs.Observation
import ZMachine.Proofs.Padding.Access
import ZMachine.Proofs.Padding.Run
import ZMachine.Proofs.LastWriter
import ZMachine.Proofs.RoutineEntry
import ZMachine.Proofs.PropertyWrite
import ZMachine.Proofs.WriteFaults
import ZMachine.Proofs.PropertyOperand
import ZMachine.Proofs.VariableCells
import ZMachine.Proofs.Operands
import ZMachine.Proofs.CarryOut
import ZMachine.Proofs.Tails
import ZMachine.Proofs.Branching
import ZMachine.Proofs.Arithmetic
import ZMachine.Proofs.Forms
import ZMachine.Proofs.HeaderFields
import ZMachine.Proofs.Checksum
import ZMachine.Proofs.OperandBytes
import ZMachine.Proofs.OptionGroups
