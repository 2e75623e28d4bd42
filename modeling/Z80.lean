import Z80.Alu.Tables
import Z80.Bench.Session
import Z80.Bench.Sweep
import Z80.Instruction.Text
import Z80.Proofs.Snapshot.Reader
import Z80.Proofs.Snapshot.RoundTrip
import Z80.Proofs.Snapshot.Rejection
import Z80.Cpu.Command
import Z80.Proofs.Snapshot.Transparency
import Z80.Proofs.Boundary
import Z80.Proofs.Agreement
import Z80.Proofs.WaitStates
import Z80.Proofs.Acknowledge
import Z80.Proofs.MidInstruction
import Z80.Proofs.Timing
import Z80.Proofs.Requests
import Z80.Proofs.Halt
import Z80.Proofs.IndexedOperands
import Z80.Host.Traced
import Z80.Proofs.Trace
import Z80.Proofs.FetchedBytes
import Z80.Proofs.ProgramCounter
import Z80.Proofs.InstructionBytes
import Z80.Proofs.Jump
import Z80.Proofs.Snapshot.NormalForm
import Z80.Proofs.InterruptState
import Z80.Proofs.Refresh
import Z80.Proofs.BlockRun
import Z80.Proofs.BlockCopy
import Z80.Proofs.BlockSearch
import Z80.Proofs.BlockPorts
import Z80.Proofs.BinaryChain
import Z80.Proofs.CarryBits
import Z80.Proofs.DecimalChain
import Z80.Proofs.DecimalTable
import Z80.Proofs.IndexedBits
import Z80.Proofs.Models
import Z80.Proofs.Unread
import Z80.Proofs.Mirror
import Z80.Proofs.LeadChain
import Z80.Proofs.WordArithmetic
import Z80.Proofs.Confinement
import Z80.Proofs.Linkage
import Z80.Proofs.ShiftChain
import Z80.Proofs.Stack
import Z80.Proofs.Load
