import Z80.Instruction.Length
import Z80.Proofs.Fetch
import Z80.Proofs.Trace

/-!
# The bytes of an instruction

Operands lie behind the opcode, and every byte is fetched once, whatever the
bus answers and whether conditions hold or not.

Main statement: `Instruction.places_perform`.
-/

namespace Z80

open Microcode

variable {α β σ : Type}

namespace Word

private theorem length_span (address : UInt16) (count : Nat) :
    (span address count).length = count := by
  induction count generalizing address with
  | zero => rfl
  | succ count inductionHypothesis =>
      exact congrArg (· + 1) (inductionHypothesis (address + 1))

private theorem span_add (address : UInt16) (first second : Nat) :
    span address (first + second) =
      span address first ++ span (address + UInt16.ofNat first) second := by
  induction first generalizing address with
  | zero => simp [span]
  | succ first inductionHypothesis =>
      rw [Nat.succ_add, span, inductionHypothesis, span, UInt16.ofNat_add,
        UInt16.add_comm (UInt16.ofNat first), UInt16.add_assoc]
      rfl

private theorem sub_lt_of_mem_span {asked address : UInt16} {count : Nat}
    (member : asked ∈ span address count) :
    (asked - address).toNat < count := by
  induction count generalizing address with
  | zero => cases member
  | succ count inductionHypothesis =>
      rcases List.mem_cons.mp member with same | later
      · subst same
        simp
      · have below := inductionHypothesis later
        have next : asked - address = asked - (address + 1) + 1 := by grind
        rw [next, UInt16.toNat_add]
        exact Nat.lt_of_le_of_lt (Nat.mod_le _ _) (Nat.succ_lt_succ below)

theorem nodup_span (address : UInt16) {count : Nat} (bound : count ≤ 65536) :
    (span address count).Nodup := by
  induction count generalizing address with
  | zero => exact List.nodup_nil
  | succ count inductionHypothesis =>
      refine List.nodup_cons.mpr ⟨?_, inductionHypothesis _ (by omega)⟩
      intro member
      have close := sub_lt_of_mem_span member
      have far : (address - (address + 1)).toNat = 65535 := by
        have same : address - (address + 1) = 65535 := by grind
        rw [same]
        rfl
      omega

end Word

/-- Where a byte was fetched, and whether as the first one. -/
def Fetch.place (fetch : Fetch) : UInt16 × Bool :=
  (fetch.address, fetch.isFirst)

namespace Fetch

variable {fetches : List Fetch} {pc : UInt16} {count : Nat}
  (places :
    fetches.map place = (pc, true) :: (Word.span (pc + 1) count).map (·, false))

include places

theorem addresses_of_places :
    fetches.map address = Word.span pc (count + 1) := by
  have first := congrArg (List.map Prod.fst) places
  rw [List.map_map, List.map_cons, List.map_map] at first
  exact first.trans (congrArg (pc :: ·) (List.map_id _))

theorem firsts_of_places :
    fetches.map isFirst = true :: List.replicate count false := by
  have second := congrArg (List.map Prod.snd) places
  rw [List.map_map, List.map_cons, List.map_map] at second
  have rest :
      (Word.span (pc + 1) count).map (fun _ => false) =
        List.replicate count false := by
    rw [List.map_const', Word.length_span]
  exact second.trans (congrArg (true :: ·) rest)

end Fetch

namespace Microcode

/-- The bytes that are fetched, in order. -/
def fetches (bus : Bus σ) (code : Microcode α) (state : σ) : List Fetch :=
  (code.transactions bus state).flatMap Transaction.fetches

@[simp]
theorem fetches_bind (bus : Bus σ) (code : Microcode α)
    (next : α → Microcode β) (state : σ) :
    fetches bus (code >>= next) state =
      fetches bus code state ++
        fetches bus (next (run bus code state).1) (run bus code state).2 := by
  simp [fetches]

/-- From any state of this bus a number of bytes from an address on is fetched,
and none of them as the first byte of an instruction. -/
def Fetches (bus : Bus σ) (address : UInt16) (count : Nat)
    (code : Microcode α) : Prop :=
  ∀ state,
    (code.fetches bus state).map Fetch.place =
      (Word.span address count).map (·, false)

section Fetches

variable {bus : Bus σ} {address : UInt16} {count : Nat}

/-- Nothing is fetched. -/
abbrev FetchesNothing (bus : Bus σ) (code : Microcode α) : Prop :=
  Fetches bus 0 0 code

theorem FetchesNothing.bind {code : Microcode α} {next : α → Microcode β}
    (first : FetchesNothing bus code)
    (rest : ∀ value, Fetches bus address count (next value)) :
    Fetches bus address count (code >>= next) := by
  intro state
  have earlier := first state
  rw [fetches_bind, List.map_append, earlier, rest]
  rfl

theorem Fetches.ite {condition : Prop} [Decidable condition]
    {yes no : Microcode α} (ofYes : Fetches bus address count yes)
    (ofNo : Fetches bus address count no) :
    Fetches bus address count (if condition then yes else no) := by
  split
  · exact ofYes
  · exact ofNo

end Fetches

end Microcode

/-! ## Operands -/

variable (bus : Bus σ)

namespace Operation

private theorem fetches_execute_hl (op : Operation) (regs : Registers) :
    Fetches bus (regs.pc + 1) op.constantBytes (op.execute .hl regs) := by
  cases op with
  | ldRegister _ operand | ldImmediate operand | arithmetic _ operand
  | inc operand | dec operand =>
      intro state
      cases operand <;> rfl
  | jrIf condition =>
      refine Fetches.ite ?_ ?_
      · intro state
        rfl
      · intro state
        rfl
  | djnz =>
      refine FetchesNothing.bind (fun state => rfl) ?_
      intro settled
      refine Fetches.ite ?_ ?_
      · intro state
        rfl
      · intro state
        rfl
  | callIf condition =>
      refine Fetches.ite ?_ ?_
      · intro state
        rfl
      · intro state
        rfl
  | retIf condition =>
      refine FetchesNothing.bind (fun state => rfl) ?_
      intro settled
      refine Fetches.ite ?_ ?_
      · intro state
        rfl
      · intro state
        rfl
  | _ =>
      intro state
      rfl

private theorem fetches_execute_index {op : Operation} (uses : op.usesPointer = true)
    (index : Index) (regs : Registers) :
    Fetches bus (regs.pc + 2) (op.operandBytes (.index index))
      (op.execute (.index index) regs) := by
  cases op with
  | ldRegister _ operand | arithmetic _ operand | inc operand | dec operand =>
      intro state
      cases operand <;> rfl
  | ldImmediate operand =>
      intro state
      cases operand with
      | register => rfl
      | memory =>
          -- The constant lies behind the displacement.
          have next : regs.pc + 3 = regs.pc + 2 + 1 := by grind
          exact congrArg (fun last => [(regs.pc + 2, false), (last, false)]) next
  | ldMemory | ldPairImmediate | push | pop | storePointerAbsolute
  | loadPointerAbsolute | ldStackPointer | exStack | addPair | incPair
  | decPair | jpPointer =>
      intro state
      rfl
  | _ => cases uses

end Operation

namespace BitOperation

private theorem fetches_execute (op : BitOperation) (regs : Registers) :
    FetchesNothing bus (op.execute regs) := by
  intro state
  unfold execute
  cases op.operand with
  | register target => rfl
  | memory => cases op.action.isTest <;> rfl

private theorem fetches_executeIndexed (op : BitOperation) (index : Index)
    (displacement : UInt8) (regs : Registers) :
    FetchesNothing bus (op.executeIndexed index displacement regs) := by
  intro state
  unfold executeIndexed
  cases op.action.isTest <;> rfl

end BitOperation

namespace BlockOperation

private theorem fetches_finish (again last : Nat) (more : Bool) (regs : Registers) :
    FetchesNothing bus (finish again last more regs) := by
  intro state
  cases more <;> rfl

private theorem fetches_finishPort (op : BlockOperation) (regs : Registers) :
    FetchesNothing bus (op.finishPort regs) := by
  refine Fetches.ite ?_ ?_
  · intro state
    rfl
  · intro state
    rfl

private theorem fetches_execute (op : BlockOperation) (regs : Registers) :
    FetchesNothing bus (op.execute regs) := by
  unfold execute
  cases op.action with
  | load =>
      refine FetchesNothing.bind (fun state => rfl) fun byte =>
        FetchesNothing.bind (fun state => rfl) fun written => ?_
      exact fetches_finish bus _ _ _ _
  | compare =>
      refine FetchesNothing.bind (fun state => rfl) fun byte => ?_
      exact fetches_finish bus _ _ _ _
  | input =>
      refine FetchesNothing.bind (fun state => rfl) fun settled =>
        FetchesNothing.bind (fun state => rfl) fun byte =>
        FetchesNothing.bind (fun state => rfl) fun written => ?_
      exact fetches_finishPort bus op _
  | output =>
      refine FetchesNothing.bind (fun state => rfl) fun settled =>
        FetchesNothing.bind (fun state => rfl) fun byte =>
        FetchesNothing.bind (fun state => rfl) fun written => ?_
      exact fetches_finishPort bus op _

end BlockOperation

namespace ExtendedOperation

private theorem fetches_execute (op : ExtendedOperation) (model : Model)
    (regs : Registers) :
    Fetches bus (regs.pc + 2) op.operandBytes (op.execute model regs) := by
  cases op with
  | block op => exact BlockOperation.fetches_execute bus op regs
  | _ =>
      intro state
      rfl

end ExtendedOperation

/-- An operation with a displacement has at most one byte of a constant. -/
theorem Operation.operandBytes_le_two (op : Operation) (pointer : Pointer) :
    op.operandBytes pointer ≤ 2 := by
  have displacement := Bool.toNat_le op.addressesMemory
  cases pointer with
  | hl => cases op <;> simp [operandBytes, constantBytes]
  | index =>
      cases op <;>
        simp [operandBytes, constantBytes, addressesMemory] at displacement ⊢ <;>
        omega

namespace Instruction

private theorem fetches_execute {instruction : Instruction}
    (wellFormed : instruction.WellFormed) (model : Model) (regs : Registers) :
    Fetches bus (regs.pc + UInt16.ofNat instruction.opcodeBytes)
      instruction.operandBytes (instruction.execute model regs) := by
  cases instruction with
  | main pointer op =>
      cases pointer with
      | hl => exact Operation.fetches_execute_hl bus op regs
      | index index => exact Operation.fetches_execute_index bus wellFormed index regs
  | bits op => exact BitOperation.fetches_execute bus op regs
  | indexedBits index displacement op =>
      exact BitOperation.fetches_executeIndexed bus op index displacement regs
  | extended op => exact ExtendedOperation.fetches_execute bus op model regs
  | ignoredLead =>
      intro state
      rfl

/-! ## Opcodes -/

private theorem places_fetchIndexed (pc : UInt16) (index : Index) :
    ∀ state,
      ((fetchIndexed pc index).fetches bus state).map Fetch.place =
        (Word.span (pc + 1)
          (((fetchIndexed pc index).run bus state).1.opcodeBytes - 1)).map
          (·, false) := by
  intro state
  have two : pc + 1 + 1 = pc + 2 := by grind
  have three : pc + 2 + 1 = pc + 3 := by grind
  simp only [fetchIndexed, run_bind, fetches_bind]
  cases IndexedOpcode.ofByte ((fetchSecond pc).run bus state).1 with
  | operation op => rfl
  | bitLead =>
      simp only [run_bind, run_pure, opcodeBytes, Word.span, two, three]
      rfl
  | leadIgnored => rfl

/-- Fetching an instruction fetches the bytes of its opcode, the first of them
as the first byte of an instruction. -/
theorem places_fetch (pc : UInt16) (state : σ) :
    ((fetch pc).fetches bus state).map Fetch.place =
      (pc, true) ::
        (Word.span (pc + 1)
          (((fetch pc).run bus state).1.opcodeBytes - 1)).map (·, false) := by
  have first :
      (fetchFirst pc).fetches bus state =
        [⟨pc, ((fetchFirst pc).run bus state).1, true⟩] :=
    rfl
  unfold fetch
  rw [run_bind, fetches_bind, first, List.map_append]
  refine congrArg ((pc, true) :: ·) ?_
  cases Opcode.ofByte ((fetchFirst pc).run bus state).1 with
  | operation op => rfl
  | bitLead => rfl
  | extendedLead => rfl
  | indexLead index => exact places_fetchIndexed bus pc index _

/-! ## Whole instructions -/

theorem one_le_opcodeBytes (instruction : Instruction) :
    1 ≤ instruction.opcodeBytes := by
  cases instruction with
  | main pointer op => cases pointer <;> simp [opcodeBytes]
  | _ => simp [opcodeBytes]

theorem one_le_length (instruction : Instruction) : 1 ≤ instruction.length :=
  Nat.le_add_right_of_le instruction.one_le_opcodeBytes

theorem length_le_four (instruction : Instruction) : instruction.length ≤ 4 := by
  cases instruction with
  | main pointer op =>
      have operands : op.operandBytes pointer ≤ 2 :=
        op.operandBytes_le_two pointer
      have opcode : (main pointer op).opcodeBytes ≤ 2 := by
        cases pointer <;> simp [opcodeBytes]
      exact Nat.add_le_add opcode operands
  | extended op =>
      have operands : op.operandBytes ≤ 2 := by
        cases op <;> simp [ExtendedOperation.operandBytes]
      exact Nat.add_le_add_left operands 2
  | _ => exact Nat.le_of_ble_eq_true rfl

theorem transactions_perform (model : Model) (regs : Registers) (state : σ) :
    let fetched := (fetch regs.pc).run bus state
    (perform model regs).transactions bus state =
      (fetch regs.pc).transactions bus state ++
        (fetched.1.execute model
          (regs.refresh fetched.1.refreshCount)).transactions bus fetched.2 := by
  simp only [perform, transactions_bind]
  exact congrArg _ (List.append_nil _)

theorem fetches_perform_eq_append (model : Model) (regs : Registers)
    (state : σ) :
    let fetched := (fetch regs.pc).run bus state
    (perform model regs).fetches bus state =
      (fetch regs.pc).fetches bus state ++
        (fetched.1.execute model
          (regs.refresh fetched.1.refreshCount)).fetches bus fetched.2 := by
  simp only [fetches, transactions_perform, List.flatMap_append]

/-- Performing an instruction fetches its bytes, each once and in order, and
only the first one as the first byte of an instruction. -/
theorem places_perform (model : Model) (regs : Registers) (state : σ) :
    let instruction := ((fetch regs.pc).run bus state).1
    ((perform model regs).fetches bus state).map Fetch.place =
      (regs.pc, true) ::
        (Word.span (regs.pc + 1) (instruction.length - 1)).map (·, false) := by
  intro instruction
  have opcode := one_le_opcodeBytes instruction
  have lengths :
      instruction.length - 1 =
        instruction.opcodeBytes - 1 + instruction.operandBytes := by
    rw [length]
    omega
  have behind :
      regs.pc + UInt16.ofNat instruction.opcodeBytes =
        regs.pc + 1 + UInt16.ofNat (instruction.opcodeBytes - 1) := by
    rw [UInt16.add_assoc, ← UInt16.ofNat_one, ← UInt16.ofNat_add,
      Nat.add_sub_cancel' opcode]
  have operands :
      ((instruction.execute model (regs.refresh instruction.refreshCount)).fetches
          bus ((fetch regs.pc).run bus state).2).map Fetch.place =
        (Word.span (regs.pc + UInt16.ofNat instruction.opcodeBytes)
          instruction.operandBytes).map (·, false) :=
    fetches_execute bus (wellFormed_fetch bus regs.pc state) model _ _
  rw [fetches_perform_eq_append, List.map_append, places_fetch, operands, lengths,
    Word.span_add, List.map_append, behind]
  rfl

end Instruction

/-! ## Conditions -/

/-- Jumps, calls and returns that may not be taken. -/
def Operation.isConditional : Operation → Bool
  | .jpIf _ | .jrIf _ | .djnz | .callIf _ | .retIf _ => true
  | _ => false

def Instruction.isConditional : Instruction → Bool
  | .main _ op => op.isConditional
  | .bits _ | .indexedBits _ _ _ | .extended _ | .ignoredLead => false

/-- What a conditional operation fetches depends on the program counter, but
not on the condition. -/
theorem Operation.exists_fetches_of_isConditional {op : Operation}
    (conditional : op.isConditional = true) (pointer : Pointer) (state : σ) :
    ∃ operands : UInt16 → List Fetch, ∀ regs,
      (op.execute pointer regs).fetches bus state = operands regs.pc := by
  cases op with
  | jpIf condition =>
      exact ⟨fun pc => (fetchWord pc 1).fetches bus state, fun regs => rfl⟩
  | jrIf condition =>
      refine ⟨fun pc => (fetchByte pc 1).fetches bus state, ?_⟩
      intro regs
      dsimp only [execute]
      split <;> rfl
  | djnz =>
      refine ⟨fun pc => (do internal 1; fetchByte pc 1).fetches bus state, ?_⟩
      intro regs
      simp only [execute, fetches_bind]
      split <;> rfl
  | callIf condition =>
      refine ⟨fun pc => (fetchWord pc 1).fetches bus state, ?_⟩
      intro regs
      dsimp only [execute]
      split <;> rfl
  | retIf condition =>
      refine ⟨fun _ => [], ?_⟩
      intro regs
      simp only [execute, fetches_bind]
      split <;> rfl
  | _ => cases conditional

/-- A conditional instruction fetches the same bytes whether its condition holds
or not. -/
theorem Instruction.fetches_perform_of_isConditional {regs other : Registers}
    {state : σ}
    (conditional : ((fetch regs.pc).run bus state).1.isConditional = true)
    (same : other.pc = regs.pc) (model otherModel : Model) :
    (perform otherModel other).fetches bus state =
      (perform model regs).fetches bus state := by
  rw [fetches_perform_eq_append, fetches_perform_eq_append, same]
  cases fetched : ((fetch regs.pc).run bus state).1 with
  | main pointer op =>
      rw [fetched] at conditional
      obtain ⟨operands, depends⟩ :=
        op.exists_fetches_of_isConditional bus conditional pointer
          ((fetch regs.pc).run bus state).2
      have here := depends (regs.refresh (main pointer op).refreshCount)
      have there := depends (other.refresh (main pointer op).refreshCount)
      have both := there.trans ((congrArg operands same).trans here.symm)
      exact congrArg _ both
  | _ =>
      rw [fetched] at conditional
      cases conditional

end Z80
