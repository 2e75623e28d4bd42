import Z80.Cpu

/-!
# Running instructions

A step runs one whole instruction and then looks at what has become due at the
boundary: a requested jump, a non-maskable interrupt or a maskable one.
-/

namespace Z80

/-- Save the program counter on the stack and enter a service routine. -/
def Registers.enter (regs : Registers) (cycles : Nat) (target : UInt16) :
    Microcode Registers := do
  Microcode.internal cycles
  regs.pushPc regs.pc target

/-- Save the program counter and enter the routine whose address lies at a
vector. -/
def Registers.enterVectored (regs : Registers) (cycles : Nat)
    (vector : UInt16) : Microcode Registers := do
  Microcode.internal cycles
  let regs ← regs.push regs.pc
  let target ← Microcode.readWord vector
  return { regs with pc := target }

namespace Cpu

variable {σ : Type}

def runRegisters (bus : Bus σ) (code : Registers → Microcode Registers)
    (cpu : Cpu) (state : σ) : Cpu × σ :=
  let (regs, state) := (code cpu.regs).run bus state
  ({ cpu with regs := regs }, state)

/-- Ask the host for requests and latch them. -/
def poll (bus : Bus σ) (cpu : Cpu) (state : σ) : Cpu × σ :=
  let (requests, state) := bus.requests state
  (cpu.latch requests, state)

/-! ## Service -/

/-- Make a requested jump.  It also ends a halt. -/
def serviceJump (bus : Bus σ) (cpu : Cpu) (state : σ) : Cpu × σ :=
  let control := { cpu.control with setPc := false, halted := false }
  match cpu.newPc with
  | some target =>
      let state := bus.report (.jumped cpu.regs.pc target) state
      ({ cpu with regs.pc := target, newPc := none, control := control }, state)
  | none => ({ cpu with control := control }, state)

def serviceNonMaskable (bus : Bus σ) (cpu : Cpu) (state : σ) : Cpu × σ :=
  let cpu := { cpu with control.nonMaskable := false }.leaveHalt
  let state := bus.report (.nonMaskable cpu.regs.pc) state
  let cpu := { cpu with regs.iff1 := false }
  cpu.runRegisters bus (·.enter 4 0x0066) state

/-- The address of the service routine's address in mode 2. -/
def vector (cpu : Cpu) : UInt16 :=
  Word.ofBytes cpu.regs.i cpu.regs.vectorBase

/-- Accept a maskable interrupt.  Mode 0 would run an instruction from the
data bus; here it only ends a halt. -/
def acceptInterrupt (bus : Bus σ) (cpu : Cpu) (state : σ) : Cpu × σ :=
  let cpu := { cpu with regs := cpu.regs.setEnabled false }.leaveHalt
  let state := bus.acknowledge state
  match cpu.regs.im with
  | 0 => (cpu, bus.report (.modeZero cpu.regs.pc) state)
  | 1 =>
      let state := bus.report (.modeOne cpu.regs.pc) state
      cpu.runRegisters bus (·.enter 6 0x0038) state
  | _ =>
      let state := bus.report (.modeTwo cpu.regs.pc cpu.vector) state
      cpu.runRegisters bus (·.enterVectored 6 cpu.vector) state

/-- Serve a requested jump, then a non-maskable interrupt on top of it. -/
def serviceUrgent (bus : Bus σ) (cpu : Cpu) (state : σ) : Cpu × σ :=
  let (cpu, state) :=
    if cpu.control.setPc then cpu.serviceJump bus state else (cpu, state)
  if cpu.control.nonMaskable then cpu.serviceNonMaskable bus state
  else (cpu, state)

/-- Serve what is due at an instruction boundary. -/
def service (bus : Bus σ) (cpu : Cpu) (state : σ) : Cpu × σ :=
  let (cpu, state) := cpu.poll bus state
  if cpu.control.setPc || cpu.control.nonMaskable then
    cpu.serviceUrgent bus state
  else if cpu.control.interruptPending && cpu.regs.iff1 &&
      cpu.control.checkInterrupt then
    cpu.acceptInterrupt bus state
  else
    (cpu, state)

/-- What follows an instruction that sampled the interrupt enable latch.  On a
model that loses the parity bit, an interrupt that is due is accepted at once
and clears the bit. -/
def serviceSampled (bus : Bus σ) (cpu : Cpu) (state : σ) : Cpu × σ :=
  if cpu.model.losesParity && cpu.regs.f.parity then
    let (cpu, state) := cpu.poll bus state
    let (cpu, state) :=
      if cpu.control.interruptPending && !cpu.control.nonMaskable &&
          !cpu.control.setPc && cpu.regs.iff1 then
        cpu.acceptInterrupt bus state
      else
        (cpu, state)
    if cpu.regs.iff2 then (cpu, state)
    else ({ cpu with regs.f.parity := false }, state)
  else
    (cpu, state)

/-! ## Steps -/

/-- Run the instruction at the program counter, without what follows at its
boundary. -/
def runInstruction (bus : Bus σ) (cpu : Cpu) (state : σ) :
    (Instruction × Cpu) × σ :=
  let ((instruction, regs), state) :=
    (Instruction.perform cpu.model cpu.regs).run bus state
  let control := cpu.control.after instruction.boundary
  ((instruction, { cpu with regs := regs, control := control }), state)

/-- Run one instruction and serve what is due at its boundary. -/
def step (bus : Bus σ) (cpu : Cpu) (state : σ) : Cpu × σ :=
  let ((instruction, cpu), state) := cpu.runInstruction bus state
  let (cpu, state) :=
    if instruction.boundary = .sampling then cpu.serviceSampled bus state
    else (cpu, state)
  cpu.service bus state

def run (bus : Bus σ) : Nat → Cpu → σ → Cpu × σ
  | 0, cpu, state => (cpu, state)
  | count + 1, cpu, state =>
      let (cpu, state) := cpu.step bus state
      run bus count cpu state

/-- Run until the processor is halted, but no more than `limit` instructions.
The number of instructions that ran comes first. -/
def runUntilHalt (bus : Bus σ) : Nat → Cpu → σ → Nat × Cpu × σ
  | 0, cpu, state => (0, cpu, state)
  | limit + 1, cpu, state =>
      if cpu.isHalted then (0, cpu, state)
      else
        let (cpu, state) := cpu.step bus state
        let (count, cpu, state) := runUntilHalt bus limit cpu state
        (count + 1, cpu, state)

end Cpu

end Z80
