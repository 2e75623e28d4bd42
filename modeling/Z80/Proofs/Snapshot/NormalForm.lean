import Z80.Proofs.Requests
import Z80.Proofs.Snapshot.Rejection

/-!
# Snapshots in normal form

Several byte sequences may mean the same processor, because some bits of a
snapshot are not looked at and others are looked at together.  Each accepted
sequence has a normal form, which is what the processor writes when it is saved
again in the same layout.

Main statement: `Cpu.load_normalForm`, which also says that two sequences mean
the same processor exactly when they have the same normal form.
-/

namespace Z80

/-! ## The control word -/

namespace Control

private theorem bits_ofBits (word : UInt32) : bits (ofBits word) = word &&& 0x3F := by
  have meaningful : (0x3F : UInt32).toNat = 2 ^ 6 - 1 := rfl
  apply UInt32.toNat_inj.mp
  rw [UInt32.toNat_and, meaningful, Nat.and_two_pow_sub_one_eq_mod]
  simp only [bits, ofBits, UInt32.toNat_ofNat', Nat.toNat_testBit]
  omega

theorem ofBits_and (word mask : UInt32) :
    ofBits (word &&& mask) =
      { checkInterrupt :=
          (ofBits word).checkInterrupt && (ofBits mask).checkInterrupt
        interruptPending :=
          (ofBits word).interruptPending && (ofBits mask).interruptPending
        halted := (ofBits word).halted && (ofBits mask).halted
        interruptLine :=
          (ofBits word).interruptLine && (ofBits mask).interruptLine
        nonMaskable := (ofBits word).nonMaskable && (ofBits mask).nonMaskable
        setPc := (ofBits word).setPc && (ofBits mask).setPc } := by
  simp only [ofBits, UInt32.toNat_and, Nat.testBit_and]

/-- A mask that has no other bits than those with a meaning picks the bits that
are written. -/
theorem bits_of_masked {control : Control} {word mask : UInt32}
    (masked : control = ofBits (word &&& mask)) (meaningful : mask &&& 0x3F = mask) :
    control.bits = word &&& mask := by
  rw [masked, bits_ofBits, UInt32.and_assoc, meaningful]

private theorem bits_persistent_ofBits (word : UInt32) :
    (ofBits word).persistent.bits = word &&& 0x3E := by
  have mask : ofBits 0x3E = ⟨false, true, true, true, true, true⟩ := by decide
  refine bits_of_masked ?_ rfl
  simp [ofBits_and, mask, persistent]

/-- Without the jump bit one bit less is kept. -/
theorem bits_withoutJump_ofBits (word : UInt32) :
    { (ofBits word).persistent with setPc := false }.bits = word &&& 0x1E := by
  have mask : ofBits 0x1E = ⟨false, true, true, true, true, false⟩ := by decide
  refine bits_of_masked ?_ rfl
  simp [ofBits_and, mask, persistent]

end Control

namespace Snapshot

/-! ## Bytes by their place -/

def byteAt (data : List UInt8) (place : Nat) : UInt8 :=
  data.getD place 0

def wordAt (data : List UInt8) (place : Nat) : UInt16 :=
  Word.ofBytes (byteAt data place) (byteAt data (place + 1))

def longAt (data : List UInt8) (place : Nat) : UInt32 :=
  longOfBytes (byteAt data place) (byteAt data (place + 1))
    (byteAt data (place + 2)) (byteAt data (place + 3))

private theorem take_eq_map_byteAt {data : List UInt8} {count : Nat}
    (inside : count ≤ data.length) :
    data.take count = (List.range count).map (byteAt data) := by
  apply List.ext_getElem
  · simp [inside]
  · intro place _ bound
    have short : place < data.length := by
      simp only [List.length_map, List.length_range] at bound
      omega
    simp [byteAt, short]

@[simp]
theorem wordBytes_wordAt (data : List UInt8) (place : Nat) :
    wordBytes (wordAt data place) =
      [byteAt data place, byteAt data (place + 1)] := by
  simp [wordBytes, wordAt]

private theorem longBytes_longOfBytes (first second third fourth : UInt8) :
    longBytes (longOfBytes first second third fourth) =
      [first, second, third, fourth] := by
  have value := toNat_longOfBytes first second third fourth
  have firstBound := first.toNat_lt
  have secondBound := second.toNat_lt
  have thirdBound := third.toNat_lt
  have fourthBound := fourth.toNat_lt
  simp only [bigEndian, List.foldl_cons, List.foldl_nil] at value
  simp only [longBytes, List.cons.injEq, and_true, ← UInt8.toNat_inj,
    UInt32.toNat_toUInt8, UInt32.toNat_div, UInt32.reduceToNat, value]
  refine ⟨?_, ?_, ?_, ?_⟩ <;> omega

/-! ## The normal form -/

/-- Whether a snapshot holds a jump: a layout that has a place for it, the bit
for it set, and a target whose sign bit is clear. -/
def holdsJump (version : Version) (data : List UInt8) : Bool :=
  let shift := version.hasScratchByte.toNat
  version.hasPendingPc && (longAt data (shift + 39)).toNat.testBit 5 &&
    longAt data (shift + 43) < 0x80000000

/-- The bytes that a processor writes when it is saved again in the layout that
it was loaded from.  The numbers are places: the refresh counter lies at 29, a
displacement that no longer means anything at 30, the latches at 34 and 35, and
bit 7 of the refresh register at 36. -/
def normalForm (version : Version) (data : List UInt8) : List UInt8 :=
  let shift := version.hasScratchByte.toNat
  let control := longAt data (shift + 39)
  let pending := longAt data (shift + 43)
  data.take 29 ++
    [byteAt data 29 &&& 0x7F] ++
    [0, 0, 0, 0] ++
    [if byteAt data 34 = 0 then 0 else 1, if byteAt data 35 = 0 then 0 else 1] ++
    [byteAt data 36 &&& 0x80] ++
    [byteAt data 37] ++
    (if version.hasScratchByte then [0] else []) ++
    [byteAt data (shift + 38)] ++
    longBytes (control &&& if holdsJump version data then 0x3E else 0x1E) ++
    (if version.hasPendingPc then
      longBytes
        (if holdsJump version data then pending &&& 0xFFFF else 0xFFFFFFFF)
    else [])

/-! ## Reading by place -/

/-- From one place of the data to the other the reader makes the value. -/
def Reader.Reads {α : Type} (data : List UInt8) (reader : Reader α)
    (start : Nat) (value : α) (stop : Nat) : Prop :=
  reader (data.drop start) = some (value, data.drop stop)

namespace Reader.Reads

variable {α β : Type} {data : List UInt8} {start : Nat}

theorem pure (value : α) : Reads data (Pure.pure value) start value start :=
  rfl

theorem bind {reader : Reader α} {next : α → Reader β} {middle stop : Nat}
    {value : α} {result : β} (first : Reads data reader start value middle)
    (second : Reads data (next value) middle result stop) :
    Reads data (reader >>= next) start result stop := by
  unfold Reads at first second ⊢
  rw [bind_apply, first]
  exact second

private theorem map {reader : Reader α} {value : α} {stop : Nat} (change : α → β)
    (read : Reads data reader start value stop) :
    Reads data (change <$> reader) start (change value) stop := by
  rw [map_eq_pure_bind]
  exact read.bind (pure _)

theorem branch {yes no : Reader α} {yesValue noValue : α}
    {yesStop noStop : Nat} (condition : Bool)
    (readYes : condition = true → Reads data yes start yesValue yesStop)
    (readNo : condition = false → Reads data no start noValue noStop) :
    Reads data (if condition then yes else no) start
      (if condition then yesValue else noValue)
      (if condition then yesStop else noStop) := by
  cases condition with
  | false => exact readNo rfl
  | true => exact readYes rfl

theorem of_eq {reader : Reader α} {value result : α} {stop other : Nat}
    (read : Reads data reader start value stop) (sameValue : value = result)
    (sameStop : stop = other) : Reads data reader start result other := by
  rw [← sameValue, ← sameStop]
  exact read

theorem byte (inside : start < data.length) :
    Reads data Reader.byte start (byteAt data start) (start + 1) := by
  unfold Reads
  rw [List.drop_eq_getElem_cons inside]
  simp [Reader.byte, byteAt, inside]

private theorem latch (inside : start < data.length) :
    Reads data Reader.latch start (byteAt data start != 0) (start + 1) :=
  (byte inside).bind (pure _)

theorem word (inside : start + 1 < data.length) :
    Reads data Reader.word start (wordAt data start) (start + 2) :=
  (byte (Nat.lt_of_succ_lt inside)).bind <| (byte inside).bind <| pure _

theorem long (inside : start + 3 < data.length) :
    Reads data Reader.long start (longAt data start) (start + 4) := by
  have first : start < data.length := by omega
  have second : start + 1 < data.length := by omega
  have third : start + 2 < data.length := by omega
  exact (byte first).bind <| (byte second).bind <| (byte third).bind <|
    (byte inside).bind <| pure _

end Reader.Reads

/-! ## The processor whose fields lie at their places -/

def bankAt (data : List UInt8) (place : Nat) : Bank :=
  (((Bank.zero.setAf (wordAt data place)).setBc (wordAt data (place + 2))).setDe
    (wordAt data (place + 4))).setHl (wordAt data (place + 6))

def registersAt (version : Version) (data : List UInt8) : Registers where
  toBank := bankAt data 6
  alternate := bankAt data 20
  ix := wordAt data 16
  iy := wordAt data 18
  sp := wordAt data 14
  pc := wordAt data 4
  i := byteAt data 28
  r := (byteAt data 36 &&& 0x80) ||| (byteAt data 29 &&& 0x7F)
  iff1 := byteAt data 34 != 0
  iff2 := byteAt data 35 != 0
  im := byteAt data 37
  vectorBase := byteAt data (version.hasScratchByte.toNat + 38)

def newPcAt (version : Version) (data : List UInt8) : Option UInt16 :=
  if holdsJump version data then
    some (longAt data (version.hasScratchByte.toNat + 43)).toUInt16
  else none

def processorAt (version : Version) (model : Model) (data : List UInt8) : Cpu where
  regs := registersAt version data
  control :=
    { (Control.ofBits
        (longAt data (version.hasScratchByte.toNat + 39))).persistent with
      setPc := holdsJump version data }
  newPc := newPcAt version data
  model := model

private theorem readBank_reads {data : List UInt8} {start : Nat}
    (inside : start + 7 < data.length) :
    Reader.Reads data readBank start (bankAt data start) (start + 8) := by
  have af : start + 1 < data.length := by omega
  have bc : start + 2 + 1 < data.length := by omega
  have de : start + 4 + 1 < data.length := by omega
  exact (Reader.Reads.word af).bind <| (Reader.Reads.word bc).bind <|
    (Reader.Reads.word de).bind <| (Reader.Reads.word inside).bind <| .pure _

private theorem readRegisters_reads {version : Version} {data : List UInt8}
    (inside : version.hasScratchByte.toNat + 38 < data.length) :
    Reader.Reads data (readRegisters version) 4 (registersAt version data)
      (version.hasScratchByte.toNat + 39) := by
  have within {place : Nat} (low : place ≤ 38) : place < data.length := by omega
  have read : Reader.Reads data (readRegisters version) 4 _ _ :=
    (Reader.Reads.word (within (by decide))).bind <|
    (readBank_reads (within (by decide))).bind <|
    (Reader.Reads.word (within (by decide))).bind <|
    (Reader.Reads.word (within (by decide))).bind <|
    (Reader.Reads.word (within (by decide))).bind <|
    (readBank_reads (within (by decide))).bind <|
    (Reader.Reads.byte (within (by decide))).bind <|
    (Reader.Reads.byte (within (by decide))).bind <|
    (Reader.Reads.long (within (by decide))).bind <|
    (Reader.Reads.latch (within (by decide))).bind <|
    (Reader.Reads.latch (within (by decide))).bind <|
    (Reader.Reads.byte (within (by decide))).bind <|
    (Reader.Reads.byte (within (by decide))).bind <|
    .branch version.hasScratchByte
      (fun has => (Reader.Reads.byte (within (by decide))).bind <|
        (Reader.Reads.byte (by rw [has] at inside; exact inside)).bind <| .pure _)
      (fun _ => (Reader.Reads.byte (within (by decide))).bind <| .pure _)
  exact read.of_eq (by cases version <;> rfl) (by cases version <;> rfl)

@[simp]
theorem isSome_newPcAt (version : Version) (data : List UInt8) :
    (newPcAt version data).isSome = holdsJump version data := by
  unfold newPcAt
  cases holdsJump version data <;> rfl

theorem holdsJump_iff (version : Version) (data : List UInt8) :
    holdsJump version data = true ↔
      version.hasPendingPc = true ∧
        (Control.ofBits (longAt data
          (version.hasScratchByte.toNat + 39))).persistent.setPc = true ∧
        longAt data (version.hasScratchByte.toNat + 43) < 0x80000000 := by
  have bit (word : UInt32) :
      (Control.ofBits word).persistent.setPc = word.toNat.testBit 5 :=
    rfl
  simp only [holdsJump, Bool.and_eq_true, decide_eq_true_eq, bit, and_assoc]

/-- The bit and the target of a jump are only kept together. -/
theorem newPcAt_eq (version : Version) (data : List UInt8) :
    newPcAt version data =
      if (Control.ofBits
          (longAt data (version.hasScratchByte.toNat + 39))).persistent.setPc then
        if version.hasPendingPc then
          pendingOfField (longAt data (version.hasScratchByte.toNat + 43))
        else none
      else none := by
  have holds := holdsJump_iff version data
  unfold newPcAt
  split
  case isTrue held =>
    obtain ⟨has, asked, positive⟩ := holds.mp held
    rw [if_pos asked, if_pos has, pendingOfField, if_pos positive]
  case isFalse notHeld =>
    split
    case isTrue asked =>
      split
      case isTrue has =>
        have negative :
            ¬ longAt data (version.hasScratchByte.toNat + 43) < 0x80000000 :=
          fun positive => notHeld (holds.mpr ⟨has, asked, positive⟩)
        rw [pendingOfField, if_neg negative]
      case isFalse => rfl
    case isFalse => rfl

private theorem readControl_reads {version : Version} {data : List UInt8}
    (rightLength : data.length = version.encodedLength) :
    Reader.Reads data (readControl version)
      (version.hasScratchByte.toNat + 39)
      ({ (Control.ofBits
            (longAt data (version.hasScratchByte.toNat + 39))).persistent with
          setPc := holdsJump version data },
        newPcAt version data)
      data.length := by
  have length :
      data.length =
        43 + version.hasScratchByte.toNat + 4 * version.hasPendingPc.toNat :=
    rightLength
  have longer (has : version.hasPendingPc = true) :
      version.hasScratchByte.toNat + 43 + 3 < data.length := by
    rw [has] at length
    simp only [Bool.toNat_true] at length
    omega
  have read : Reader.Reads data (readControl version)
      (version.hasScratchByte.toNat + 39) _ _ :=
    (Reader.Reads.long (by omega)).bind <|
    .branch version.hasPendingPc
      (fun has => ((Reader.Reads.long (longer has)).map pendingOfField).bind <|
        .pure _)
      (fun _ => (Reader.Reads.pure none).bind <| .pure _)
  refine read.of_eq ?_ ?_
  · rw [← isSome_newPcAt, newPcAt_eq]
    cases version.hasPendingPc with
    | false => simp only [Bool.false_eq_true, if_false, ite_self]
    | true => simp only [if_true]
  · rw [length]
    cases version <;> rfl

private theorem readBody_reads {version : Version} {model : Model} {data : List UInt8}
    (rightLength : data.length = version.encodedLength) :
    Reader.Reads data (readBody version model) 4
      (processorAt version model data) data.length := by
  have inside : version.hasScratchByte.toNat + 38 < data.length := by
    rw [rightLength, Version.encodedLength]
    omega
  exact (readRegisters_reads inside).bind <|
    (readControl_reads rightLength).bind <| .pure _

private theorem decode_eq_processorAt {version : Version} {model : Model}
    {data : List UInt8} (tagged : HasTag data version)
    (rightLength : data.length = version.encodedLength) :
    decode model data = .ok (processorAt version model data) := by
  refine decode_exact tagged ?_
  have read : Reader.Reads data (readBody version model) 4 _ _ :=
    readBody_reads rightLength
  unfold Reader.Reads at read
  rw [read, List.drop_length]

/-! ## Saving again -/

private theorem longBytes_tag {version : Version} {data : List UInt8}
    (tagged : HasTag data version) :
    longBytes version.tag =
      [byteAt data 0, byteAt data 1, byteAt data 2, byteAt data 3] := by
  have byValue := long_of_hasTag tagged
  have inside : 0 + 3 < data.length := tagged.1
  have byPlace := Reader.Reads.long inside
  unfold Reader.Reads at byPlace
  rw [List.drop_zero, byValue] at byPlace
  obtain ⟨sameTag, _⟩ := Prod.mk.inj (Option.some.inj byPlace)
  rw [sameTag]
  exact longBytes_longOfBytes _ _ _ _

private theorem words_bankAt (data : List UInt8) (place : Nat) :
    (bankAt data place).af = wordAt data place ∧
      (bankAt data place).bc = wordAt data (place + 2) ∧
      (bankAt data place).de = wordAt data (place + 4) ∧
      (bankAt data place).hl = wordAt data (place + 6) := by
  simp [bankAt, Bank.setAf, Bank.setBc, Bank.setDe, Bank.setHl, Bank.af, Bank.bc,
    Bank.de, Bank.hl]

private theorem leadingWords_registersAt (version : Version) (data : List UInt8) :
    (leadingWords (registersAt version data)).flatMap wordBytes ++ [byteAt data 28] =
      (List.range' 4 25).map (byteAt data) := by
  obtain ⟨af, bc, de, hl⟩ := words_bankAt data 6
  obtain ⟨otherAf, otherBc, otherDe, otherHl⟩ := words_bankAt data 20
  simp only [leadingWords, registersAt, af, bc, de, hl, otherAf, otherBc, otherDe,
    otherHl, List.flatMap_cons, wordBytes_wordAt]
  rfl

private theorem take_of_hasTag {version : Version} {data : List UInt8}
    (tagged : HasTag data version) (inside : 29 ≤ data.length) :
    longBytes version.tag ++
        (leadingWords (registersAt version data)).flatMap wordBytes ++
        [byteAt data 28] =
      data.take 29 := by
  rw [longBytes_tag tagged, List.append_assoc, leadingWords_registersAt,
    take_eq_map_byteAt inside]
  rfl

private theorem latchByte_bne (byte : UInt8) :
    latchByte (byte != 0) = if byte = 0 then 0 else 1 := by
  by_cases zero : byte = 0
  · rw [if_pos zero, zero]
    rfl
  · rw [if_neg zero, latchByte, if_pos (bne_iff_ne.mpr zero)]

theorem persistent_processorAt (version : Version) (model : Model)
    (data : List UInt8) :
    (processorAt version model data).control.persistent =
      (processorAt version model data).control :=
  rfl

private theorem bits_processorAt (version : Version) (model : Model)
    (data : List UInt8) :
    (processorAt version model data).control.bits =
      longAt data (version.hasScratchByte.toNat + 39) &&&
        if holdsJump version data then 0x3E else 0x1E := by
  have kept {control : Control} (asked : control.setPc = true) :
      { control with setPc := true } = control := by
    rw [← asked]
  cases holds : holdsJump version data with
  | false =>
      rw [if_neg Bool.false_ne_true, ← Control.bits_withoutJump_ofBits, processorAt,
        holds]
  | true =>
      obtain ⟨_, asked, _⟩ := (holdsJump_iff version data).mp holds
      rw [if_pos rfl, ← Control.bits_persistent_ofBits, processorAt, holds,
        kept asked]

private theorem pendingField_some (field : UInt32) :
    pendingField (some field.toUInt16) = field &&& 0xFFFF := by
  have lowWord : (0xFFFF : UInt32).toNat = 2 ^ 16 - 1 := rfl
  apply UInt32.toNat_inj.mp
  rw [UInt32.toNat_and, lowWord, Nat.and_two_pow_sub_one_eq_mod]
  simp [pendingField]

private theorem pendingField_newPcAt (version : Version) (data : List UInt8) :
    pendingField (newPcAt version data) =
      if holdsJump version data then
        longAt data (version.hasScratchByte.toNat + 43) &&& 0xFFFF
      else 0xFFFFFFFF := by
  unfold newPcAt
  split
  · exact pendingField_some _
  · rfl

theorem longBytes_zero : longBytes 0 = [0, 0, 0, 0] :=
  rfl

/-- The two bytes that hold the refresh register are taken apart where they
were put together. -/
theorem refresh_registersAt (version : Version) (data : List UInt8) :
    (registersAt version data).r &&& 0x7F = byteAt data 29 &&& 0x7F ∧
      (registersAt version data).r &&& 0x80 = byteAt data 36 &&& 0x80 :=
  ⟨Byte.join_and_right _ _ (by decide), Byte.join_and_left _ _ (by decide)⟩

theorem encode_processorAt {version : Version} {data : List UInt8}
    (model : Model) (tagged : HasTag data version)
    (rightLength : data.length = version.encodedLength) :
    encode version (processorAt version model data) = normalForm version data := by
  have inside : 29 ≤ data.length := by
    rw [rightLength, Version.encodedLength]
    omega
  obtain ⟨counter, top⟩ := refresh_registersAt version data
  rw [encode, controlBytes, registerBytes, persistent_processorAt,
    bits_processorAt]
  simp only [normalForm, ← take_of_hasTag tagged inside, ← latchByte_bne,
    processorAt, pendingField_newPcAt, List.append_assoc, counter, top]
  simp only [registersAt, longBytes_zero, List.cons_append, List.nil_append]

/-! ## Loading again -/

private theorem jumpAgrees_processorAt (version : Version) (model : Model)
    (data : List UInt8) : (processorAt version model data).JumpAgrees :=
  (isSome_newPcAt version data).symm

/-- A layout without a place for the jump does not make one up. -/
theorem keptPc_newPcAt (version : Version) (data : List UInt8) :
    keptPc version (newPcAt version data) = newPcAt version data := by
  cases has : version.hasPendingPc with
  | true => rw [keptPc, has, if_pos rfl]
  | false =>
      have nothingHeld : holdsJump version data = false := by
        simp [holdsJump, has]
      rw [keptPc, has, newPcAt, nothingHeld]
      simp only [Bool.false_eq_true, if_false]

private theorem decode_normalForm {version : Version} {data : List UInt8}
    (model : Model) (tagged : HasTag data version)
    (rightLength : data.length = version.encodedLength) :
    decode model (normalForm version data) =
      .ok (processorAt version model data) := by
  rw [← encode_processorAt model tagged rightLength,
    decode_encode version model _ (jumpAgrees_processorAt version model data),
    persistent_processorAt]
  have target : keptPc version (processorAt version model data).newPc =
      newPcAt version data :=
    keptPc_newPcAt version data
  rw [target, isSome_newPcAt]
  simp only [processorAt]

private theorem hasTag_unique {data : List UInt8} {version other : Version}
    (tagged : HasTag data version) (otherTagged : HasTag data other) :
    other = version := by
  have sameTag : other.tag = version.tag :=
    UInt32.toNat_inj.mp (otherTagged.2.symm.trans tagged.2)
  have sameVersion := congrArg Version.ofTag? sameTag
  rw [ofTag?_tag, ofTag?_tag] at sameVersion
  exact Option.some.inj sameVersion

end Snapshot

namespace Cpu

open Snapshot

theorem rightLength_of_load_ok {version : Version} {prior : Cpu} {data : List UInt8}
    (tagged : HasTag data version) (accepted : (prior.load data).1 = .ok ()) :
    data.length = version.encodedLength := by
  obtain ⟨found, foundTag, rightLength⟩ := (load_ok_iff prior data).mp accepted
  rw [rightLength, hasTag_unique tagged foundTag]

private theorem load_eq_processorAt {version : Version} {prior : Cpu}
    {data : List UInt8}
    (tagged : HasTag data version) (accepted : (prior.load data).1 = .ok ()) :
    prior.load data = (.ok (), processorAt version prior.model data) :=
  load_of_decode <|
    decode_eq_processorAt tagged (rightLength_of_load_ok tagged accepted)

/-- Saving what a snapshot was loaded to, in the layout of the snapshot, gives
the normal form of the snapshot.  It has the same length, is accepted by every
processor of the same model, and means the same; two accepted snapshots of one
layout mean the same exactly when they have the same normal form. -/
theorem load_normalForm {version : Version} {prior : Cpu} {data : List UInt8}
    (tagged : HasTag data version) (accepted : (prior.load data).1 = .ok ()) :
    encode version (prior.load data).2 = normalForm version data ∧
      (normalForm version data).length = data.length ∧
      (∀ target : Cpu, target.model = prior.model →
        target.load (normalForm version data) =
          (.ok (), (prior.load data).2)) ∧
      ∀ (target : Cpu) (other : List UInt8), target.model = prior.model →
        HasTag other version → (target.load other).1 = .ok () →
        ((target.load other).2 = (prior.load data).2 ↔
          normalForm version other = normalForm version data) := by
  have rightLength := rightLength_of_load_ok tagged accepted
  have loaded := load_eq_processorAt tagged accepted
  have saved := encode_processorAt prior.model tagged rightLength
  have again := decode_normalForm prior.model tagged rightLength
  rw [loaded]
  refine ⟨saved, ?_, ?_, ?_⟩
  · rw [← saved, length_encode, rightLength]
  · intro target sameModel
    exact load_of_decode (sameModel ▸ again)
  · intro target other sameModel otherTagged otherAccepted
    have otherLength := rightLength_of_load_ok otherTagged otherAccepted
    rw [load_eq_processorAt otherTagged otherAccepted, sameModel]
    constructor
    · intro same
      rw [← saved, ← encode_processorAt prior.model otherTagged otherLength]
      exact congrArg (encode version) same
    · intro sameForm
      have otherAgain := decode_normalForm prior.model otherTagged otherLength
      rw [sameForm, again] at otherAgain
      exact (Except.ok.inj otherAgain).symm

/-- A snapshot of the middle layout that no processor writes: the displacement,
the scratch byte, both halves of the refresh register and the unused bits of
the control word are not zero, the latches are above one, and the target of the
jump is wider than an address. -/
def strayFields : List UInt8 :=
  [1, 0, 0, 1] ++ List.replicate 25 0x55 ++
    [0xFF, 1, 2, 3, 4, 0x80, 2, 0xFF, 1, 9, 0xFF] ++
    [0xFF, 0xFF, 0xFF, 0xFF] ++ [0x7F, 1, 0x12, 0x34]

theorem load_normalForm_strayFields :
    HasTag strayFields .v1 ∧
      ((Cpu.new .nmos).load strayFields).1 = .ok () ∧
      encode .v1 ((Cpu.new .nmos).load strayFields).2 =
        [1, 0, 0, 1] ++ List.replicate 25 0x55 ++
          [0x7F, 0, 0, 0, 0, 1, 1, 0x80, 1, 0, 0xFF] ++
          [0, 0, 0, 0x3E] ++ [0, 0, 0x12, 0x34] := by
  have tagged : HasTag strayFields .v1 := ⟨by decide, by decide⟩
  have accepted : ((Cpu.new .nmos).load strayFields).1 = .ok () :=
    (load_ok_iff _ _).mpr ⟨.v1, tagged, by decide⟩
  obtain ⟨saved, _, _, _⟩ := load_normalForm tagged accepted
  refine ⟨tagged, accepted, saved.trans ?_⟩
  decide +kernel

end Cpu

end Z80
