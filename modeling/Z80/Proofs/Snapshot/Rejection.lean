import Z80.Proofs.Snapshot.RoundTrip

/-!
# Which snapshots are refused

A snapshot is accepted when its first four bytes are the tag of a layout and
its length is that of the layout.  The tag is looked at before the length, so
every other byte sequence is refused for one definite reason.

Main statement: `Cpu.load_outcome`, which also says what is left of the
processor: a new one after a refusal, and after a success nothing that was
there before.
-/

namespace Z80

namespace Snapshot

/-! ## The tag -/

/-- The number whose bytes are given, highest first. -/
def bigEndian (bytes : List UInt8) : Nat :=
  bytes.foldl (fun number byte => number * 256 + byte.toNat) 0

/-- The first four bytes are the tag of the layout. -/
def HasTag (data : List UInt8) (version : Version) : Prop :=
  4 ≤ data.length ∧ bigEndian (data.take 4) = version.tag.toNat

theorem toNat_longOfBytes (first second third fourth : UInt8) :
    (longOfBytes first second third fourth).toNat =
      bigEndian [first, second, third, fourth] := by
  have firstBound := first.toNat_lt
  have secondBound := second.toNat_lt
  have thirdBound := third.toNat_lt
  have fourthBound := fourth.toNat_lt
  simp only [longOfBytes, bigEndian, List.foldl_cons, List.foldl_nil,
    UInt32.toNat_add, UInt32.toNat_mul, UInt8.toNat_toUInt32,
    UInt32.reduceToNat]
  omega

/-- Reading a double word off a sequence that is long enough gives the number
in its first four bytes. -/
theorem long_eq_bigEndian {data : List UInt8} (longEnough : 4 ≤ data.length) :
    ∃ tag, Reader.long data = some (tag, data.drop 4) ∧
      tag.toNat = bigEndian (data.take 4) := by
  match data, longEnough with
  | first :: second :: third :: fourth :: rest, _ =>
      exact ⟨longOfBytes first second third fourth, rfl,
        toNat_longOfBytes first second third fourth⟩

private theorem ofTag?_eq_none {tag : UInt32}
    (unknown : ∀ version : Version, tag.toNat ≠ version.tag.toNat) :
    Version.ofTag? tag = none := by
  apply List.find?_eq_none.mpr
  intro version _ matched
  exact unknown version (congrArg UInt32.toNat (eq_of_beq matched)).symm

/-! ## The fields -/

private theorem readBank_takes : Reader.Takes readBank 8 :=
  Reader.Takes.word.bind fun _ => Reader.Takes.word.bind fun _ =>
    Reader.Takes.word.bind fun _ => Reader.Takes.word.bind fun _ =>
      .pure _

private theorem readRegisters_takes (version : Version) :
    Reader.Takes (readRegisters version)
      (35 + version.hasScratchByte.toNat) := by
  have taken : Reader.Takes (readRegisters version) _ :=
    Reader.Takes.word.bind fun _ => readBank_takes.bind fun _ =>
    Reader.Takes.word.bind fun _ => Reader.Takes.word.bind fun _ =>
    Reader.Takes.word.bind fun _ => readBank_takes.bind fun _ =>
    Reader.Takes.byte.bind fun _ => Reader.Takes.byte.bind fun _ =>
    Reader.Takes.long.bind fun _ => Reader.Takes.latch.bind fun _ =>
    Reader.Takes.latch.bind fun _ => Reader.Takes.byte.bind fun _ =>
    Reader.Takes.byte.bind fun _ =>
    .branch version.hasScratchByte
      (Reader.Takes.byte.bind fun _ => Reader.Takes.byte.bind fun _ => .pure _)
      (Reader.Takes.byte.bind fun _ => .pure _)
  exact taken.of_eq (by cases version <;> rfl)

private theorem readControl_takes (version : Version) :
    Reader.Takes (readControl version)
      (4 + 4 * version.hasPendingPc.toNat) := by
  have taken : Reader.Takes (readControl version) _ :=
    Reader.Takes.long.bind fun _ =>
    .branch version.hasPendingPc
      ((Reader.Takes.long.map _).bind fun _ => .pure _)
      ((Reader.Takes.pure _).bind fun _ => .pure _)
  exact taken.of_eq (by cases version <;> rfl)

private theorem four_le_encodedLength (version : Version) :
    4 ≤ version.encodedLength := by
  cases version <;> decide

/-- The fields behind the tag take exactly what the length of the layout
leaves for them. -/
theorem readBody_takes (version : Version) (model : Model) :
    Reader.Takes (readBody version model) (version.encodedLength - 4) := by
  have taken : Reader.Takes (readBody version model) _ :=
    (readRegisters_takes version).bind fun _ =>
    (readControl_takes version).bind fun _ => .pure _
  exact taken.of_eq (by cases version <;> rfl)

/-! ## Decoding -/

theorem decode_short {model : Model} {data : List UInt8}
    (short : data.length < 4) :
    decode model data = .error (.truncated 4 data.length) := by
  rw [decode, Reader.Takes.long.short data short]

theorem decode_unknown {model : Model} {data : List UInt8}
    (longEnough : 4 ≤ data.length)
    (unknown : ∀ version : Version, ¬ HasTag data version) :
    decode model data =
      .error (.unsupportedVersion (.ofNat (bigEndian (data.take 4)))) := by
  obtain ⟨tag, tagRead, tagValue⟩ := long_eq_bigEndian longEnough
  have noVersion : Version.ofTag? tag = none := by
    apply ofTag?_eq_none
    intro version same
    exact unknown version ⟨longEnough, tagValue ▸ same⟩
  simp only [decode, tagRead, noVersion, ← tagValue, UInt32.ofNat_toNat]

section Tagged

variable {model : Model} {data : List UInt8} {version : Version}

theorem long_of_hasTag (tagged : HasTag data version) :
    Reader.long data = some (version.tag, data.drop 4) := by
  obtain ⟨tag, tagRead, tagValue⟩ := long_eq_bigEndian tagged.1
  have same : tag = version.tag :=
    UInt32.toNat_inj.mp (tagValue.trans tagged.2)
  rw [tagRead, same]

theorem decode_truncated (tagged : HasTag data version)
    (short : data.length < version.encodedLength) :
    decode model data =
      .error (.truncated version.encodedLength data.length) := by
  have bodyShort : (data.drop 4).length < version.encodedLength - 4 := by
    rw [List.length_drop]
    have := tagged.1
    omega
  simp only [decode, long_of_hasTag tagged, ofTag?_tag,
    (readBody_takes version model).short _ bodyShort]

theorem decode_trailing (tagged : HasTag data version)
    (long : version.encodedLength < data.length) :
    decode model data =
      .error (.trailingBytes version.encodedLength data.length) := by
  have bodyLong : version.encodedLength - 4 ≤ (data.drop 4).length := by
    rw [List.length_drop]
    omega
  obtain ⟨loaded, bodyRead⟩ :=
    (readBody_takes version model).enough _ bodyLong
  have rest : (data.drop 4).drop (version.encodedLength - 4) ≠ [] := by
    intro empty
    have emptyLength := congrArg List.length empty
    have tagFits := four_le_encodedLength version
    simp only [List.length_drop, List.length_nil] at emptyLength
    omega
  obtain ⟨first, others, restShape⟩ := List.exists_cons_of_ne_nil rest
  simp only [decode, long_of_hasTag tagged, ofTag?_tag, bodyRead, restShape]

/-- A sequence of the right length is read to its end. -/
theorem readBody_exact (rightLength : data.length = version.encodedLength) :
    ∃ loaded, readBody version model (data.drop 4) = some (loaded, []) := by
  have bodyLength : (data.drop 4).length = version.encodedLength - 4 := by
    rw [List.length_drop, rightLength]
  obtain ⟨loaded, bodyRead⟩ :=
    (readBody_takes version model).enough _ (Nat.le_of_eq bodyLength.symm)
  refine ⟨loaded, ?_⟩
  rw [bodyRead, ← bodyLength, List.drop_length]

theorem decode_exact {loaded : Cpu} (tagged : HasTag data version)
    (bodyRead : readBody version model (data.drop 4) = some (loaded, [])) :
    decode model data = .ok loaded := by
  simp only [decode, long_of_hasTag tagged, ofTag?_tag, bodyRead]

end Tagged

end Snapshot

namespace Cpu

open Snapshot

/-! ## Loading -/

theorem load_of_error {cpu : Cpu} {data : List UInt8} {error : Error}
    (refused : decode cpu.model data = .error error) :
    cpu.load data = (.error error, .new cpu.model) := by
  have refusedCleared :
      decode ({ cpu with regs := .zero }.reset).model data = .error error :=
    refused
  simp only [load, refusedCleared]
  rfl

private theorem load_congr {cpu other : Cpu} (sameModel : other.model = cpu.model)
    (data : List UInt8) : other.load data = cpu.load data := by
  cases decoded : decode cpu.model data with
  | ok loaded =>
      rw [load_of_decode decoded]
      exact load_of_decode (sameModel ▸ decoded)
  | error error =>
      rw [load_of_error decoded, ← sameModel]
      exact load_of_error (sameModel ▸ decoded)

theorem load_ok_of_hasTag {data : List UInt8} {version : Version}
    (prior : Cpu) (tagged : HasTag data version)
    (rightLength : data.length = version.encodedLength) :
    ∃ loaded,
      readBody version prior.model (data.drop 4) = some (loaded, []) ∧
        prior.load data = (.ok (), loaded) := by
  obtain ⟨loaded, bodyRead⟩ := readBody_exact rightLength
  exact ⟨loaded, bodyRead, load_of_decode (decode_exact tagged bodyRead)⟩

theorem load_ok_iff (prior : Cpu) (data : List UInt8) :
    (prior.load data).1 = .ok () ↔
      ∃ version, HasTag data version ∧
        data.length = version.encodedLength := by
  constructor
  · intro accepted
    by_cases longEnough : 4 ≤ data.length
    · by_cases known : ∃ version, HasTag data version
      · obtain ⟨version, tagged⟩ := known
        refine ⟨version, tagged, ?_⟩
        rcases Nat.lt_trichotomy data.length version.encodedLength with
          short | same | long
        · rw [load_of_error (decode_truncated tagged short)] at accepted
          cases accepted
        · exact same
        · rw [load_of_error (decode_trailing tagged long)] at accepted
          cases accepted
      · have unknown := not_exists.mp known
        rw [load_of_error (decode_unknown longEnough unknown)] at accepted
        cases accepted
    · have short := Nat.lt_of_not_le longEnough
      rw [load_of_error (decode_short short)] at accepted
      cases accepted
  · rintro ⟨version, tagged, rightLength⟩
    obtain ⟨loaded, _, loads⟩ := load_ok_of_hasTag prior tagged rightLength
    rw [loads]

theorem load_refused {prior : Cpu} {data : List UInt8} {error : Error}
    (refused : (prior.load data).1 = .error error) :
    (prior.load data).2 = .new prior.model := by
  cases decoded : decode prior.model data with
  | ok loaded =>
      rw [load_of_decode decoded] at refused
      cases refused
  | error found => rw [load_of_error decoded]

/-- A snapshot is accepted exactly when its first four bytes are the tag of a
layout and its length is that of the layout; the reasons to refuse it are
looked for in the order length of the tag, tag, length of the whole.  A refusal
leaves a new processor of the same model, and what a success leaves depends on
the bytes and the model alone.  The fields behind the tag ask for exactly the
bytes that the length of the layout leaves for them, so that they are read to
the last one and not beyond. -/
theorem load_outcome (prior : Cpu) (data : List UInt8) :
    ((prior.load data).1 = .ok () ↔
      ∃ version, HasTag data version ∧
        data.length = version.encodedLength) ∧
      (data.length < 4 →
        (prior.load data).1 = .error (.truncated 4 data.length)) ∧
      (4 ≤ data.length → (∀ version, ¬ HasTag data version) →
        (prior.load data).1 =
          .error (.unsupportedVersion (.ofNat (bigEndian (data.take 4))))) ∧
      (∀ version, HasTag data version →
        data.length < version.encodedLength →
        (prior.load data).1 =
          .error (.truncated version.encodedLength data.length)) ∧
      (∀ version, HasTag data version →
        version.encodedLength < data.length →
        (prior.load data).1 =
          .error (.trailingBytes version.encodedLength data.length)) ∧
      (∀ error, (prior.load data).1 = .error error →
        (prior.load data).2 = .new prior.model) ∧
      (∀ other : Cpu, other.model = prior.model →
        other.load data = prior.load data) ∧
      (∀ version, HasTag data version →
        data.length = version.encodedLength →
        ∃ loaded,
          readBody version prior.model (data.drop 4) = some (loaded, []) ∧
            prior.load data = (.ok (), loaded)) ∧
      (∀ version,
        Reader.Takes (readBody version prior.model)
          (version.encodedLength - 4)) := by
  refine ⟨load_ok_iff prior data, ?_, ?_, ?_, ?_, ?_, ?_, ?_, ?_⟩
  · intro short
    rw [load_of_error (decode_short short)]
  · intro longEnough unknown
    rw [load_of_error (decode_unknown longEnough unknown)]
  · intro version tagged short
    rw [load_of_error (decode_truncated tagged short)]
  · intro version tagged long
    rw [load_of_error (decode_trailing tagged long)]
  · intro error refused
    exact load_refused refused
  · intro other sameModel
    exact load_congr sameModel data
  · intro version tagged rightLength
    exact load_ok_of_hasTag prior tagged rightLength
  · intro version
    exact readBody_takes version prior.model

/-- A tag with nothing behind it is refused, and a requested jump does not
survive the attempt. -/
theorem load_outcome_tag_alone :
    HasTag [1, 0, 0, 2] .v2 ∧
      ((Cpu.new .cmos).setProgramCounter 0x8000).load [1, 0, 0, 2] =
        (.error (.truncated 47 4), .new .cmos) := by
  have tagged : HasTag [1, 0, 0, 2] .v2 := ⟨by decide, by decide⟩
  obtain ⟨_, _, _, truncated, _, refused, _, _, _⟩ :=
    load_outcome ((Cpu.new .cmos).setProgramCounter 0x8000) [1, 0, 0, 2]
  have verdict := truncated .v2 tagged (by decide)
  exact ⟨tagged, Prod.ext verdict (refused _ verdict)⟩

end Cpu

end Z80
