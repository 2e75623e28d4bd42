import Z80.Proofs.Block
import Z80.Proofs.FetchedBytes
import Z80.Proofs.Operands

/-!
# Where the program goes on

The program counter does not move while the bytes of an instruction are
fetched.  Afterwards it is behind them, unless the instruction goes elsewhere
or stays.

Main statement: `Instruction.reaches_perform`, for every bus.
-/

namespace Z80

open Microcode

variable {σ : Type}

/-- Where an instruction goes on. -/
inductive Flow where
  /-- Behind its own bytes. -/
  | next
  /-- At the instruction itself. -/
  | stay
  /-- Behind a lead byte without effect. -/
  | behindLead
  /-- At the address in the instruction. -/
  | jump
  /-- A displacement away from the next instruction. -/
  | relative
  | pointer (pointer : Pointer)
  | call
  | restart (slot : Fin 8)
  | ret
  deriving DecidableEq

/-- Where an operation goes on that starts from these registers. -/
def Operation.flow (op : Operation) (pointer : Pointer) (regs : Registers) :
    Flow :=
  match op with
  | .halt => .stay
  | .jp => .jump
  | .jpIf condition => if condition.holds regs.f then .jump else .next
  | .jpPointer => .pointer pointer
  | .jr => .relative
  | .jrIf condition => if condition.holds regs.f then .relative else .next
  | .djnz => if regs.b = 1 then .next else .relative
  | .call => .call
  | .callIf condition => if condition.holds regs.f then .call else .next
  | .ret => .ret
  | .retIf condition => if condition.holds regs.f then .ret else .next
  | .rst slot => .restart slot
  | _ => .next

/-- Where an instruction goes on that starts from some registers and leaves
others. -/
def Instruction.flow (instruction : Instruction) (regs left : Registers) : Flow :=
  match instruction with
  | .main pointer op => op.flow pointer regs
  | .extended .retn => .ret
  | .extended (.block op) => if op.GoesOn left then .stay else .next
  | .ignoredLead => .behindLead
  | .bits _ | .indexedBits _ _ _ | .extended _ => .next

/-- Where a flow leads, given the registers before the instruction, the address
behind its bytes and its machine cycles.  A call and a restart store the address
behind them, high byte first. -/
def Flow.Reaches (flow : Flow) (regs : Registers) (behind : UInt16)
    (trace : List Transaction) (target : UInt16) : Prop :=
  let bytes := (trace.flatMap Transaction.fetches).map Fetch.byte
  let saves :=
    trace.flatMap Transaction.stores =
      [(regs.sp - 1, Word.high behind), (regs.sp - 2, Word.low behind)]
  match flow with
  | .next => target = behind
  | .stay => target = regs.pc
  | .behindLead => target = regs.pc + 1
  | .jump =>
      ∃ opcode low high,
        bytes = [opcode, low, high] ∧ target = Word.ofBytes high low
  | .relative =>
      ∃ opcode displacement,
        bytes = [opcode, displacement] ∧
          target = Word.displace behind displacement
  | .pointer named => target = regs.pointer named
  | .call =>
      saves ∧
        ∃ opcode low high,
          bytes = [opcode, low, high] ∧ target = Word.ofBytes high low
  | .restart slot => saves ∧ target = UInt16.ofNat (slot.val * 8)
  | .ret => ⟨.readWord regs.sp, target⟩ ∈ trace

/-! ## Registers -/

namespace Registers

theorem pc_of_unnamed {left right : Registers}
    (same : left.unnamed = right.unnamed) : left.pc = right.pc := by
  have pc := congrArg Registers.pc same
  exact pc

variable (regs : Registers) (pointer : Pointer)

@[simp]
theorem pc_setPointer (word : UInt16) :
    (regs.setPointer pointer word).pc = regs.pc :=
  pc_of_unnamed (unnamed_setPointer regs pointer word)

@[simp]
theorem pc_set (target : Register) (byte : UInt8) :
    (regs.set pointer target byte).pc = regs.pc :=
  pc_of_unnamed (unnamed_set regs pointer target byte)

@[simp]
theorem pc_setPair (target : Pair) (word : UInt16) :
    (regs.setPair pointer target word).pc = regs.pc :=
  pc_of_unnamed (unnamed_setPair regs pointer target word)

@[simp]
theorem pc_setStackPair (target : StackPair) (word : UInt16) :
    (regs.setStackPair pointer target word).pc = regs.pc :=
  pc_of_unnamed (unnamed_setStackPair regs pointer target word)

@[simp]
theorem pc_copyTo (byte : UInt8) (target : Operand) :
    (target.copyTo regs byte).pc = regs.pc :=
  pc_of_unnamed (unnamed_copyTo regs byte target)

end Registers

/-! ## Operations -/

namespace Operation

variable (bus : Bus σ)

section Conditions

variable {holds : Bool} {taken : Flow}

private theorem holds_of_ite
    (elsewhere : (if holds then taken else .next) ≠ Flow.next) :
    holds = true := by
  cases holds with
  | true => rfl
  | false => exact absurd rfl elsewhere

private theorem not_holds_of_ite (next : (if holds then taken else .next) = Flow.next)
    (elsewhere : taken ≠ .next) : holds = false := by
  cases holds with
  | true => exact absurd next elsewhere
  | false => rfl

end Conditions

/-- An operation that goes nowhere else goes on behind its bytes. -/
theorem pc_execute_of_next {op : Operation} {pointer : Pointer}
    (wellFormed : (Instruction.main pointer op).WellFormed) {regs : Registers}
    (flow : op.flow pointer regs = .next) (state : σ) :
    ((op.execute pointer regs).run bus state).1.pc =
      regs.pc + UInt16.ofNat (Instruction.main pointer op).length := by
  cases op with
  | ldRegister target operand =>
      cases operand <;> cases pointer <;>
        exact congrArg (· + _) (Registers.pc_set regs _ target _)
  | ldImmediate operand =>
      cases operand with
      | register target =>
          cases pointer <;>
            exact congrArg (· + _) (Registers.pc_set regs _ target _)
      | memory => cases pointer <;> rfl
  | ldPairImmediate target =>
      cases pointer <;>
        exact congrArg (· + _) (Registers.pc_setPair regs _ target _)
  | loadPointerAbsolute =>
      cases pointer <;>
        exact congrArg (· + _) (Registers.pc_setPointer regs _ _)
  | pop target =>
      cases pointer <;>
        exact congrArg (· + _) (Registers.pc_setStackPair _ _ target _)
  | exStack =>
      cases pointer <;>
        exact congrArg (· + _) (Registers.pc_setPointer _ _ _)
  | inc operand | dec operand =>
      cases operand with
      | register target =>
          cases pointer <;>
            exact congrArg (· + _) (Registers.pc_set regs _ target _)
      | memory => cases pointer <;> rfl
  | arithmetic op operand => cases operand <;> cases pointer <;> rfl
  | addPair source =>
      cases pointer <;>
        exact congrArg (· + _) (Registers.pc_setPointer regs _ _)
  | incPair target | decPair target =>
      cases pointer <;>
        exact congrArg (· + _) (Registers.pc_setPair regs _ target _)
  | ldMemory | push | storePointerAbsolute | ldStackPointer =>
      cases pointer <;> rfl
  | jpIf condition | jrIf condition | callIf condition | retIf condition =>
      have notTaken := not_holds_of_ite flow (by decide)
      cases pointer with
      | hl =>
          simp only [execute, notTaken, Bool.false_eq_true, if_false]
          rfl
      | index => cases wellFormed
  | djnz =>
      have last : regs.b = 1 := by
        by_cases one : regs.b = 1
        · exact one
        · simp [Operation.flow, one] at flow
      cases pointer with
      | hl =>
          simp only [execute, run_bind, sub_one_beq_zero, last, decide_true,
            if_true]
          rfl
      | index => cases wellFormed
  | halt | jp | jpPointer | jr | call | ret | rst => cases flow
  | _ =>
      cases pointer with
      | hl => rfl
      | index => cases wellFormed

section Elsewhere

variable (regs : Registers) (opcode : UInt8) (state : σ)

private theorem reaches_jumpRelative :
    Flow.relative.Reaches regs (regs.pc + 2)
      (⟨.fetchFirst regs.pc, opcode⟩ ::
        regs.jumpRelative.transactions bus state)
      (regs.jumpRelative.run bus state).1.pc :=
  ⟨opcode, _, rfl, rfl⟩

theorem stores_push (word : UInt16) :
    ((regs.push word).transactions bus state).flatMap Transaction.stores =
      [(regs.sp - 1, Word.high word), (regs.sp - 2, Word.low word)] := by
  have above : regs.sp - 2 + 1 = regs.sp - 1 := by grind
  rw [← above]
  rfl

private theorem reaches_callAbsolute :
    Flow.call.Reaches regs (regs.pc + 3)
      (⟨.fetchFirst regs.pc, opcode⟩ ::
        regs.callAbsolute.transactions bus state)
      (regs.callAbsolute.run bus state).1.pc := by
  refine ⟨?_, opcode, _, _, rfl, (Word.ofBytes_high_low _).symm⟩
  exact stores_push bus regs ((fetchWord regs.pc 1).run bus state).2 _

theorem reaches_popPc (behind : UInt16) (earlier : List Transaction) :
    Flow.ret.Reaches regs behind
      (earlier ++ regs.popPc.transactions bus state)
      (regs.popPc.run bus state).1.pc :=
  List.mem_append_right earlier (List.mem_singleton_self _)

/-- An operation that goes elsewhere goes where the bytes that it fetched and
read say. -/
theorem reaches_execute_hl {op : Operation} (elsewhere : op.flow .hl regs ≠ .next) :
    (op.flow .hl regs).Reaches regs
      (regs.pc + UInt16.ofNat (Instruction.main .hl op).length)
      (⟨.fetchFirst regs.pc, opcode⟩ ::
        (op.execute .hl regs).transactions bus state)
      ((op.execute .hl regs).run bus state).1.pc := by
  cases op with
  | halt => rfl
  | jp => exact ⟨opcode, _, _, rfl, (Word.ofBytes_high_low _).symm⟩
  | jpIf condition =>
      have holds := holds_of_ite elsewhere
      simp only [flow, execute, holds, if_true]
      exact ⟨opcode, _, _, rfl, (Word.ofBytes_high_low _).symm⟩
  | jpPointer => rfl
  | jr => exact reaches_jumpRelative bus regs opcode state
  | jrIf condition =>
      have holds := holds_of_ite elsewhere
      simp only [flow, execute, holds, if_true]
      exact reaches_jumpRelative bus regs opcode state
  | djnz =>
      have again : regs.b ≠ 1 := by
        intro last
        simp [Operation.flow, last] at elsewhere
      simp only [flow, execute, again, if_false, run_bind, transactions_bind,
        sub_one_beq_zero, decide_false, Bool.false_eq_true]
      exact ⟨opcode, _, rfl, rfl⟩
  | call => exact reaches_callAbsolute bus regs opcode state
  | callIf condition =>
      have holds := holds_of_ite elsewhere
      simp only [flow, execute, holds, if_true]
      exact reaches_callAbsolute bus regs opcode state
  | ret => exact reaches_popPc bus regs state _ [⟨.fetchFirst regs.pc, opcode⟩]
  | retIf condition =>
      have holds := holds_of_ite elsewhere
      simp only [flow, execute, holds, if_true]
      exact reaches_popPc bus regs ((internal 1).run bus state).2 _
        [⟨.fetchFirst regs.pc, opcode⟩, ⟨.internal 1, ()⟩]
  | rst slot =>
      refine ⟨?_, rfl⟩
      exact stores_push bus regs state _
  | _ => exact absurd rfl elsewhere

end Elsewhere

/-- Behind an index lead an operation can only jump to the index register. -/
theorem reaches_execute_index {op : Operation} {index : Index}
    (wellFormed : (Instruction.main (.index index) op).WellFormed)
    (regs : Registers) (trace : List Transaction) (state : σ) :
    (op.flow (.index index) regs).Reaches regs
      (regs.pc + UInt16.ofNat (Instruction.main (.index index) op).length) trace
      ((op.execute (.index index) regs).run bus state).1.pc := by
  by_cases next : op.flow (.index index) regs = .next
  · rw [next]
    exact pc_execute_of_next bus wellFormed next state
  · cases op with
    | jpPointer => rfl
    | _ => first | exact absurd rfl next | cases wellFormed

end Operation

namespace BitOperation

variable (bus : Bus σ)

private theorem pc_execute (op : BitOperation) (regs : Registers) (state : σ) :
    ((op.execute regs).run bus state).1.pc = regs.pc + 2 := by
  unfold execute
  cases op.operand with
  | register target => exact congrArg (· + 2) (Registers.pc_set regs _ _ _)
  | memory => cases op.action.isTest <;> rfl

private theorem pc_executeIndexed (op : BitOperation) (index : Index)
    (displacement : UInt8) (regs : Registers) (state : σ) :
    ((op.executeIndexed index displacement regs).run bus state).1.pc =
      regs.pc + 4 := by
  unfold executeIndexed
  cases op.action.isTest with
  | true => rfl
  | false => exact congrArg (· + 4) (Registers.pc_copyTo _ _ _)

end BitOperation

/-- A block operation stays while it goes on. -/
theorem BlockOperation.reaches_execute (bus : Bus σ) (op : BlockOperation)
    (regs : Registers) (trace : List Transaction) (state : σ) :
    let left := ((op.execute regs).run bus state).1
    (if op.GoesOn left then Flow.stay else .next).Reaches regs (regs.pc + 2)
      trace left.pc := by
  intro left
  have ran : left.pc = if op.GoesOn left then regs.pc else regs.pc + 2 :=
    op.pc_execute bus regs state
  rw [ran]
  split <;> rfl

/-- A patched program leaves the program counter as it is. -/
def Bus.PatchKeepsPc (bus : Bus σ) : Prop :=
  ∀ regs state, (bus.tapePatch regs state).1.pc = regs.pc

private theorem ExtendedOperation.reaches_execute {bus : Bus σ}
    (patch : bus.PatchKeepsPc) (op : ExtendedOperation) (model : Model)
    (regs : Registers) (earlier : List Transaction) (state : σ) :
    let left := ((op.execute model regs).run bus state).1
    ((Instruction.extended op).flow regs left).Reaches regs
      (regs.pc + UInt16.ofNat (Instruction.extended op).length)
      (earlier ++ (op.execute model regs).transactions bus state) left.pc := by
  cases op with
  | retn =>
      exact Operation.reaches_popPc bus { regs with iff1 := regs.iff2 } state
        (regs.pc + 2) earlier
  | block op => exact op.reaches_execute bus regs _ state
  | input target =>
      cases target with
      | none => rfl
      | some target =>
          exact congrArg (· + 2) (Registers.pc_set _ .hl target _)
  | loadPairAbsolute target =>
      exact congrArg (· + 4) (Registers.pc_setPair regs .hl target _)
  | tapePatch => exact congrArg (· + 2) (patch regs state)
  | _ => rfl

/-! ## Instructions -/

private theorem Flow.reaches_refresh {flow : Flow} {regs : Registers} {behind : UInt16}
    {trace : List Transaction} {target : UInt16} (count : UInt8) :
    flow.Reaches (regs.refresh count) behind trace target ↔
      flow.Reaches regs behind trace target := by
  cases flow with
  | pointer named =>
      rcases named with _ | index
      · exact Iff.rfl
      · cases index <;> exact Iff.rfl
  | _ => exact Iff.rfl

namespace Instruction

variable {bus : Bus σ}

private theorem transactions_fetch_of_main {pc : UInt16} {state : σ} {op : Operation}
    (fetched : ((fetch pc).run bus state).1 = .main .hl op) :
    ∃ opcode, (fetch pc).transactions bus state = [⟨.fetchFirst pc, opcode⟩] := by
  refine ⟨((fetchFirst pc).run bus state).1, ?_⟩
  unfold fetch at fetched ⊢
  rw [run_bind] at fetched
  rw [transactions_bind]
  cases decoded : Opcode.ofByte ((fetchFirst pc).run bus state).1 with
  | operation op => rfl
  | bitLead =>
      rw [decoded] at fetched
      cases fetched
  | extendedLead =>
      rw [decoded] at fetched
      cases fetched
  | indexLead index =>
      rw [decoded] at fetched
      dsimp only [fetchIndexed] at fetched
      rw [run_bind] at fetched
      split at fetched <;> cases fetched

private theorem reaches_execute (patch : bus.PatchKeepsPc)
    {instruction : Instruction} (wellFormed : instruction.WellFormed)
    (model : Model) (regs : Registers) {earlier : List Transaction}
    (opcode : ∀ op, instruction = .main .hl op →
      ∃ byte, earlier = [⟨.fetchFirst regs.pc, byte⟩]) (state : σ) :
    let left := ((instruction.execute model regs).run bus state).1
    (instruction.flow regs left).Reaches regs
      (regs.pc + UInt16.ofNat instruction.length)
      (earlier ++ (instruction.execute model regs).transactions bus state)
      left.pc := by
  cases instruction with
  | main pointer op =>
      cases pointer with
      | hl =>
          obtain ⟨byte, fetched⟩ := opcode op rfl
          subst fetched
          by_cases next : op.flow .hl regs = .next
          · have behind :=
              Operation.pc_execute_of_next bus wellFormed next state
            simp only [flow, next]
            exact behind
          · exact Operation.reaches_execute_hl bus regs byte state next
      | index index =>
          exact Operation.reaches_execute_index bus wellFormed regs _ state
  | bits op => exact BitOperation.pc_execute bus op regs state
  | indexedBits index displacement op =>
      exact BitOperation.pc_executeIndexed bus op index displacement regs state
  | extended op =>
      exact op.reaches_execute patch model regs earlier state
  | ignoredLead => rfl

private theorem flow_refresh (instruction : Instruction) (regs left : Registers)
    (count : UInt8) :
    instruction.flow (regs.refresh count) left = instruction.flow regs left := by
  cases instruction with
  | main pointer op => cases op <;> rfl
  | _ => rfl

/-- Performing an instruction leads where its bytes say. -/
theorem reaches_perform (patch : bus.PatchKeepsPc) (model : Model)
    (regs : Registers) (state : σ) :
    let performed := ((perform model regs).run bus state).1
    (performed.1.flow regs performed.2).Reaches regs
      (regs.pc + UInt16.ofNat performed.1.length)
      ((perform model regs).transactions bus state) performed.2.pc := by
  have reaches :=
    reaches_execute patch (wellFormed_fetch bus regs.pc state) model
      (regs.refresh ((fetch regs.pc).run bus state).1.refreshCount)
      (fun op => transactions_fetch_of_main) ((fetch regs.pc).run bus state).2
  simp only [flow_refresh, Flow.reaches_refresh] at reaches
  rw [transactions_perform]
  simp only [perform, run_bind, run_pure]
  exact reaches

end Instruction

end Z80
