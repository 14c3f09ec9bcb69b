import Pdp11.Proofs.Isolation.Integrity
import Pdp11.Proofs.ProgramLength

/-!
# What an instruction can learn from memory

Two machines that differ only in bytes that no page of their modes opens run
an instruction in step: they load the same words, call the same devices and
store the same values, and the bytes in which they differ stay as they were.
-/

namespace Pdp11

universe u

/-! ## Memories that agree on some bytes -/

namespace Ram

/-- Two memories of one size that agree on every visible byte. -/
structure AgreesOn (visible : Nat → Prop) (first second : Ram) : Prop where
  size : second.size = first.size
  bytes (offset : Nat) : visible offset → second.readByte? offset = first.readByte? offset

namespace AgreesOn

variable {visible : Nat → Prop} {first second : Ram} {offset : Nat} {width : Width}

theorem read? (agrees : AgreesOn visible first second) (low : visible offset)
    (high : width = .word → wordOffset offset = offset ∧ visible (offset + 1)) :
    second.read? offset width = first.read? offset width := by
  cases width with
  | byte => rw [Ram.read?, Ram.read?, agrees.bytes offset low]
  | word =>
      obtain ⟨aligned, secondByte⟩ := high rfl
      rw [Ram.read?, Ram.read?, aligned]
      apply Option.ext
      intro word
      rw [readWord?_eq_some_iff, readWord?_eq_some_iff, agrees.bytes offset low,
        agrees.bytes (offset + 1) secondByte]

/-- A write goes through in both memories or in neither. -/
theorem write? (agrees : AgreesOn visible first second) (offset : Nat) (value : Word)
    (width : Width) :
    first.write? offset value width = none ∧ second.write? offset value width = none ∨
      ∃ written also, first.write? offset value width = some written ∧
        second.write? offset value width = some also ∧ AgreesOn visible written also := by
  have inside : (second.write? offset value width).isSome =
      (first.write? offset value width).isSome := by
    rw [Bool.eq_iff_iff]
    cases width with
    | byte => rw [Ram.write?, Ram.write?, writeByte?_isSome, writeByte?_isSome, agrees.size]
    | word => rw [Ram.write?, Ram.write?, writeWord?_isSome, writeWord?_isSome, agrees.size]
  cases firstWrite : first.write? offset value width with
  | none =>
      rw [firstWrite] at inside
      exact .inl ⟨rfl, Option.isSome_eq_false_iff.mp inside |> Option.isNone_iff_eq_none.mp⟩
  | some written =>
      rw [firstWrite] at inside
      obtain ⟨also, secondWrite⟩ := Option.isSome_iff_exists.mp inside
      refine .inr ⟨written, also, rfl, secondWrite, ?_⟩
      constructor
      · rw [size_of_write? secondWrite, size_of_write? firstWrite, agrees.size]
      · intro other sees
        cases width with
        | byte =>
            rw [readByte?_writeByte secondWrite, readByte?_writeByte firstWrite,
              agrees.bytes other sees]
        | word =>
            rw [readByte?_writeWord secondWrite, readByte?_writeWord firstWrite,
              agrees.bytes other sees]

end AgreesOn

end Ram

/-! ## Accesses of machines that differ in memory -/

namespace Machine

variable {δ : Type u}

/-- The machine with other contents of memory. -/
def withRam (machine : Machine δ) (ram : Ram) : Machine δ :=
  { machine with ram := ram }

theorem translate_withRam (machine : Machine δ) (ram : Ram) (mode : Mode) (cycle : MemoryCycle)
    (address : Word) :
    (machine.withRam ram).translate mode cycle address =
      ((machine.translate mode cycle address).1,
        (machine.translate mode cycle address).2.withRam ram) := by
  unfold translate
  dsimp only [withRam]
  split
  · rfl
  · split <;> rfl

variable [Bus δ]

theorem readIoWord_withRam (machine : Machine δ) (ram : Ram) (address : PhysicalAddress) :
    (machine.withRam ram).readIoWord address =
      ((machine.readIoWord address).1, (machine.readIoWord address).2.withRam ram) := by
  have same : (machine.withRam ram).readInternal? address = machine.readInternal? address := rfl
  unfold readIoWord
  rw [same]
  split <;> rfl

theorem readPhysical_withRam {machine : Machine δ} {ram : Ram} {address : PhysicalAddress}
    {width : Width} (size : ram.size = machine.ram.size)
    (same : ∀ offset, Region.of address machine.ram.size = .ram offset →
      ram.read? offset width = machine.ram.read? offset width) :
    (machine.withRam ram).readPhysical address width =
      ((machine.readPhysical address width).1,
        (machine.readPhysical address width).2.withRam ram) := by
  have region : Region.of address (machine.withRam ram).ram.size =
      Region.of address machine.ram.size := congrArg (Region.of address) size
  unfold readPhysical
  rw [region, readIoWord_withRam]
  split
  · rename_i offset lands
    have contents : (machine.withRam ram).ram.read? offset width = machine.ram.read? offset width :=
      same offset lands
    rw [contents]
    split <;> rfl
  · rfl
  · rfl

/-- A read does not tell apart memories that agree where it may lead. -/
theorem read_withRam {machine : Machine δ} {ram : Ram} {visible : Nat → Prop} {mode : Mode}
    {cycle : MemoryCycle} {address : Word} {width : Width} (notFetch : cycle ≠ .fetch)
    (agrees : machine.ram.AgreesOn visible ram)
    (opened : machine.mmu.Permits mode cycle address →
      visible (machine.mmu.destination mode cycle address).toNat ∧
        (isOdd address = false →
          visible ((machine.mmu.destination mode cycle address).toNat + 1))) :
    (machine.withRam ram).read mode cycle address width =
      ((machine.read mode cycle address width).1,
        (machine.read mode cycle address width).2.withRam ram) := by
  have accessed := machine.accessed_translate mode cycle address
  unfold read
  rw [translate_withRam]
  split
  · rfl
  · rename_i aligned
    generalize outcome : machine.translate mode cycle address = translation at accessed ⊢
    obtain ⟨answer, translated⟩ := translation
    cases answer with
    | error error => rfl
    | ok physical =>
        obtain ⟨permits, rfl⟩ := (translate_eq_ok_iff notFetch).mp (congrArg Prod.fst outcome)
        obtain ⟨low, high⟩ := opened permits
        rw [← accessed.ram] at agrees
        apply readPhysical_withRam agrees.size
        intro offset lands
        rw [Mmu.toNat_destination_of_ram lands] at low high
        apply agrees.read? low
        intro isWord
        have even : isOdd address = false :=
          Bool.eq_false_iff.mpr fun odd => aligned ⟨isWord, odd⟩
        exact ⟨wordOffset_of_destination lands even, high even⟩

theorem writeIo_withRam (machine : Machine δ) (ram : Ram) (address : PhysicalAddress)
    (value : Word) (width : Width) :
    (machine.withRam ram).writeIo address value width =
      ((machine.writeIo address value width).1,
        (machine.writeIo address value width).2.withRam ram) := by
  have same : (machine.withRam ram).readInternal? (wordAddress address) =
      machine.readInternal? (wordAddress address) := rfl
  unfold writeIo
  rw [same]
  split
  · unfold writeInternal
    dsimp only
    split
    · rfl
    · have sameMmu : (machine.withRam ram).mmu = machine.mmu := rfl
      rw [sameMmu]
      split <;> rfl
  · rfl

/-- A write leaves memories that agree in agreement. -/
theorem exists_writePhysical_withRam {machine : Machine δ} {ram : Ram} {visible : Nat → Prop}
    (agrees : machine.ram.AgreesOn visible ram) (address : PhysicalAddress) (value : Word)
    (width : Width) :
    ∃ after, (machine.withRam ram).writePhysical address value width =
        ((machine.writePhysical address value width).1,
          (machine.writePhysical address value width).2.withRam after) ∧
      (machine.writePhysical address value width).2.ram.AgreesOn visible after := by
  have region : Region.of address (machine.withRam ram).ram.size =
      Region.of address machine.ram.size := congrArg (Region.of address) agrees.size
  unfold writePhysical
  rw [region]
  split
  · rename_i offset lands
    rcases agrees.write? offset value width with
      ⟨refused, also⟩ | ⟨written, after, first, second, kept⟩
    · refine ⟨ram, ?_, ?_⟩
      · simp only [withRam, refused, also]
      · simp only [refused, agrees]
    · refine ⟨after, ?_, ?_⟩
      · simp only [withRam, first, second]
      · simp only [first, kept]
  · refine ⟨ram, writeIo_withRam machine ram address value width, ?_⟩
    rw [ram_writeIo]
    exact agrees
  · exact ⟨ram, rfl, agrees⟩

theorem exists_write_withRam {machine : Machine δ} {ram : Ram} {visible : Nat → Prop}
    (agrees : machine.ram.AgreesOn visible ram) (mode : Mode) (address value : Word)
    (width : Width) :
    ∃ after, (machine.withRam ram).write mode address value width =
        ((machine.write mode address value width).1,
          (machine.write mode address value width).2.withRam after) ∧
      (machine.write mode address value width).2.ram.AgreesOn visible after := by
  have accessed := machine.accessed_translate mode .write address
  unfold write
  rw [translate_withRam]
  split
  · exact ⟨ram, rfl, agrees⟩
  · generalize machine.translate mode .write address = translation at accessed ⊢
    obtain ⟨answer, translated⟩ := translation
    rw [← accessed.ram] at agrees
    cases answer with
    | error error => exact ⟨ram, rfl, agrees⟩
    | ok physical => exact exists_writePhysical_withRam agrees physical value width

theorem exists_storeSelected_withRam {machine : Machine δ} {ram : Ram} {visible : Nat → Prop}
    (agrees : machine.ram.AgreesOn visible ram) (address value : Word) (width : Width)
    (select : AccessSpace) :
    ∃ after, (machine.withRam ram).storeSelected address value width select =
        ((machine.storeSelected address value width select).1,
          (machine.storeSelected address value width select).2.withRam after) ∧
      (machine.storeSelected address value width select).2.ram.AgreesOn visible after :=
  exists_write_withRam agrees (machine.selectedMode select.mode) address value width

end Machine

/-! ## Runs of machines that differ in memory -/

variable {δ : Type u}

namespace Datapath

/-- The datapath with other contents of memory. -/
def withRam (datapath : Datapath δ) (ram : Ram) : Datapath δ :=
  { datapath with machine := datapath.machine.withRam ram }

end Datapath

namespace Effect

/-- The effect on a datapath with other contents of memory. -/
def withRam (effect : Effect δ) (ram : Ram) : Effect δ :=
  { effect with datapath := effect.datapath.withRam ram }

theorem commit_withRam (effect : Effect δ) (ram : Ram) :
    (effect.withRam ram).commit = effect.commit.withRam ram :=
  rfl

end Effect

variable [Bus δ]

/-- Apart from loads and stores, micro-operations do not see memory. -/
theorem MicroOp.effect_withRam {op : MicroOp} (notLoad : op.isLoad = false)
    (notStore : op.isStore = false) (datapath : Datapath δ) (ram : Ram) :
    op.effect (datapath.withRam ram) = (op.effect datapath).withRam ram := by
  cases op
  case load | store => contradiction
  case halt | wait | reset | setPriority =>
    have mode : (datapath.withRam ram).machine.inKernel = datapath.machine.inKernel := rfl
    simp only [effect, mode]
    cases datapath.machine.inKernel <;> rfl
  case step reg amount =>
    simp only [effect]
    cases reg.isGeneral <;> rfl
  case evalFlags =>
    have written : (datapath.withRam ram).machine.pswWritten = datapath.machine.pswWritten := rfl
    simp only [effect, written]
    cases datapath.machine.pswWritten <;> rfl
  case div high low divisor =>
    have values : (datapath.withRam ram).reg = datapath.reg := rfl
    simp only [effect, values]
    cases divide (datapath.reg high) (datapath.reg low) (datapath.reg divisor) <;> rfl
  case stackGuard =>
    have mode : (datapath.withRam ram).machine.inKernel = datapath.machine.inKernel := rfl
    have values : (datapath.withRam ram).machine.reg = datapath.machine.reg := rfl
    simp only [effect, Machine.guardStack, mode, values]
    cases datapath.machine.inKernel && decide (datapath.machine.reg .sp < stackRedZone)
    · cases datapath.machine.inKernel && decide (datapath.machine.reg .sp < stackLimit) <;> rfl
    · rfl
  all_goals rfl

namespace Datapath.Ready

variable {before : Machine δ} {datapath : Datapath δ} {ram : Ram} {rest : List MicroOp}

theorem loadSelected_withRam {dst address : Reg} {width : Width} {space : AccessSpace}
    (ready : Ready before datapath (.load dst address width space :: rest))
    (outside : space.mode ≠ .kernel)
    (agrees : datapath.machine.ram.AgreesOn before.Readable ram) (pointer : Word) :
    (datapath.machine.withRam ram).loadSelected pointer width space =
      ((datapath.machine.loadSelected pointer width space).1,
        (datapath.machine.loadSelected pointer width space).2.withRam ram) := by
  have same := ready.sameReach rfl
  have inUse := same.selectedMode outside
  have notFetch := Machine.loadCycle_ne_fetch space.space
  have reads := Machine.isWrite_loadCycle space.space
  apply Machine.read_withRam notFetch agrees
  intro permits
  rw [same.rights.permits_iff] at permits
  rw [same.rights.destination]
  constructor
  · exact ⟨_, reads, Machine.reaches_of_permits inUse notFetch permits⟩
  · intro even
    exact ⟨_, reads, Machine.reaches_succ_of_permits inUse notFetch even permits⟩

/-- Micro-operations keep machines in step that agree on what was readable. -/
theorem exists_effect_withRam {op : MicroOp} (ready : Ready before datapath (op :: rest))
    (unprivileged : op.actsForKernel = false)
    (agrees : datapath.machine.ram.AgreesOn before.Readable ram) :
    ∃ after, op.effect (datapath.withRam ram) = (op.effect datapath).withRam after ∧
      (op.effect datapath).datapath.machine.ram.AgreesOn before.Readable after := by
  have values : (datapath.withRam ram).reg = datapath.reg := rfl
  cases isStore : op.isStore with
  | true =>
      cases op
      case store address src width space =>
        obtain ⟨after, stores, kept⟩ := Machine.exists_storeSelected_withRam agrees
          (datapath.reg address) (datapath.reg src) width space
        have alike : (datapath.withRam ram).machine.storeSelected (datapath.reg address)
          (datapath.reg src) width space = _ := stores
        refine ⟨after, ?_⟩
        simp only [MicroOp.effect, values, alike]
        generalize datapath.machine.storeSelected _ _ _ _ = outcome at kept ⊢
        obtain ⟨answer, stored⟩ := outcome
        cases answer <;> exact ⟨rfl, kept⟩
      all_goals contradiction
  | false =>
      refine ⟨ram, ?_, ?_⟩
      · cases isLoad : op.isLoad with
        | true =>
            cases op
            case load dst address width space =>
              have outside : space.mode ≠ .kernel := of_decide_eq_false unprivileged
              have alike : (datapath.withRam ram).machine.loadSelected (datapath.reg address) width
                space = _ := ready.loadSelected_withRam outside agrees _
              simp only [MicroOp.effect, values, alike]
              generalize datapath.machine.loadSelected _ _ _ = outcome
              obtain ⟨answer, loaded⟩ := outcome
              cases answer <;> rfl
            all_goals contradiction
        | false => exact MicroOp.effect_withRam isLoad isStore datapath ram
      · rw [op.ram_effect isStore]
        exact agrees

/-- So do whole runs. -/
theorem exists_run_withRam {ops : List MicroOp} (ready : Ready before datapath ops) (index : Nat)
    (order : CommitsLast ops) (unprivileged : Unprivileged ops)
    (agrees : datapath.machine.ram.AgreesOn before.Readable ram) :
    ∃ after, (datapath.withRam ram).run index ops =
        ((datapath.run index ops).1, (datapath.run index ops).2.withRam after) ∧
      (datapath.run index ops).2.ram.AgreesOn before.Readable after := by
  induction ops generalizing datapath index ram with
  | nil => exact ⟨ram, rfl, agrees⟩
  | cons op rest ih =>
      obtain ⟨opUnprivileged, restUnprivileged⟩ := Unprivileged.cons_iff.mp unprivileged
      obtain ⟨after, effects, kept⟩ := ready.exists_effect_withRam opUnprivileged agrees
      rw [run_cons, run_cons, effects]
      have sameDisposition : ((op.effect datapath).withRam after).disposition =
          (op.effect datapath).disposition := rfl
      rw [sameDisposition, Effect.commit_withRam]
      split
      · exact ih (ready.next order) _ order.of_cons restUnprivileged kept
      · exact ⟨after, rfl, kept⟩
      · exact ⟨after, rfl, kept⟩

end Datapath.Ready

namespace Machine

/-- `second` is `first` but for bytes of memory that are not visible. -/
structure AgreesOn (visible : Nat → Prop) (first second : Machine δ) : Prop where
  rest : second = first.withRam second.ram
  ram : first.ram.AgreesOn visible second.ram

omit [Bus δ] in
theorem AgreesOn.readable_iff {visible : Nat → Prop} {first second : Machine δ}
    (agrees : AgreesOn visible first second) (offset : Nat) :
    second.Readable offset ↔ first.Readable offset := by
  rw [agrees.rest]
  exact Iff.rfl

/-- Machines that agree on what one of them can read run an instruction in
step. -/
theorem execute_agreesOn {machine other : Machine δ} {instruction : Instruction}
    {pipeline : Pipeline} (encoded : instruction.encode = .ok pipeline)
    (agrees : machine.AgreesOn machine.Readable other) :
    (other.execute pipeline).result = (machine.execute pipeline).result ∧
      (machine.execute pipeline).machine.AgreesOn machine.Readable
        (other.execute pipeline).machine := by
  have program : pipeline.ops = instruction.program := Pipeline.ofOps_eq_ok_iff.mp encoded
  have ready : Datapath.Ready machine { machine := machine, signals := .quiet } pipeline.ops :=
    .inl (.refl machine)
  obtain ⟨after, ran, kept⟩ := ready.exists_run_withRam 0
    (program ▸ instruction.commits_last) (program ▸ instruction.unprivileged_program) agrees.ram
  have paired : Datapath.run { machine := other, signals := .quiet } 0 pipeline.ops =
      ((machine.execute pipeline).result, (machine.execute pipeline).machine.withRam after) := by
    rw [agrees.rest]
    exact ran
  obtain ⟨result, final⟩ := Prod.ext_iff.mp paired
  refine ⟨result, ?_⟩
  change (other.execute pipeline).machine =
    (machine.execute pipeline).machine.withRam after at final
  rw [final]
  exact ⟨rfl, kept⟩

/-- Instructions cannot reach memory past the pages of their modes. What they
change was open to be written, and bytes that were not open to be read have no
influence on the result, on the calls to the bus, on the rest of the machine or
on the readable bytes; nor do these bytes change themselves. -/
theorem execute_isolated (machine : Machine (Recorded δ)) (instruction : Instruction) :
    ∃ pipeline, instruction.encode = .ok pipeline ∧
      (∀ offset, (machine.execute pipeline).machine.ram.readByte? offset ≠
          machine.ram.readByte? offset → machine.Reaches .write offset) ∧
      ∀ other : Machine (Recorded δ), machine.AgreesOn machine.Readable other →
        let first := machine.execute pipeline
        let second := other.execute pipeline
        second.result = first.result ∧
          second.machine.devices.calls = first.machine.devices.calls ∧
          first.machine.AgreesOn machine.Readable second.machine ∧
          ∀ offset, ¬ machine.Readable offset →
            first.machine.ram.readByte? offset = machine.ram.readByte? offset ∧
              second.machine.ram.readByte? offset = other.ram.readByte? offset := by
  obtain ⟨pipeline, encoded, -⟩ := instruction.exists_encode
  refine ⟨pipeline, encoded, fun offset => reaches_of_execute_changes encoded, ?_⟩
  intro other agrees first second
  obtain ⟨result, kept⟩ := execute_agreesOn encoded agrees
  refine ⟨result, by rw [kept.rest]; rfl, kept, ?_⟩
  intro offset hidden
  have alsoHidden : ¬ other.Readable offset := fun readable =>
    hidden ((agrees.readable_iff offset).mp readable)
  exact ⟨readByte?_execute_of_not_readable encoded hidden,
    readByte?_execute_of_not_readable encoded alsoHidden⟩

/-- A user program with one block of memory, from 100 to 177, below which there
is a byte of others. -/
def confined (secret : Byte) : Machine (Recorded NoDevices) :=
  { ofConfig Config.default { devices := .none, calls := #[] } with
    registers := RegisterFile.cleared.set (.general false 2) 2
    psw := .ofBits 0o170000
    ram := { bytes := ((Array.replicate 68 0).set! 0 secret).set! 64 0o101 }
    mmu :=
      { Mmu.new .pdp1170 with
        mmr0 := { Mmr0.cleared with enabled := true }
        pages := PageTable.cleared.set { mode := .user, space := .instruction, number := 0 }
          { descriptor := .loaded 0o6, base := 1 } } }

/-- `MOV (R1), (R2)` -/
def copyWord : Instruction where
  pc := 0
  word := 0o011112
  opcode := .mov
  extension := []

omit [Bus δ] in
/-- No page of the program leads below its block. -/
theorem le_of_readable_confined {secret : Byte} {offset : Nat}
    (readable : (confined secret).Readable offset) : 64 ≤ offset := by
  obtain ⟨cycle, -, mode, inUse, address, translation, translated, rfl⟩ := readable
  obtain ⟨permits, place⟩ := Mmu.permits_of_translate_eq_ok translated
  have on : (confined secret).mmu.enabled = true := rfl
  let page := (confined secret).mmu.pageOf mode cycle address
  have resident : page = { mode := .user, space := .instruction, number := 0 } := by
    apply Decidable.byContradiction
    intro absent
    have cleared : (confined secret).mmu.descriptor page = .loaded 0 := by
      change ((PageTable.cleared.set _ _).get page).descriptor = _
      rw [PageTable.get_set, if_neg (Ne.symm absent), PageTable.get_cleared]
      rfl
    have refused := permits on
    rw [cleared, PageDescriptor.abortCauses, List.filter_eq_nil_iff] at refused
    exact refused .nonResident (by decide) (decide_eq_true rfl)
  have base : (confined secret).mmu.base page = 1 := by
    rw [resident]
    rfl
  have narrow : (confined secret).mmu.extended = false := by
    simp [confined, Mmu.extended, Mmu.new]
  rw [place, Mmu.destination, if_pos on, Mmu.physicalAddress, Mmu.toNat_physicalOfSum, narrow,
    Mmu.toNat_relocatedSum, base]
  have one : (1 : Word).toNat = 1 := rfl
  rw [one]
  split
  · contradiction
  · split <;> omega

/-- The copy goes the same way whatever the hidden byte is, changes a byte that
is open to be written, and leaves the hidden byte alone. -/
theorem isolated_copyWord :
    ∃ pipeline, copyWord.encode = .ok pipeline ∧
      let first := (confined 1).execute pipeline
      let second := (confined 2).execute pipeline
      second.result = first.result ∧ first.machine.ram.readByte? 66 = some 0o101 ∧
        (confined 1).Reaches .write 66 ∧ second.machine.ram.readByte? 0 = some 2 := by
  obtain ⟨pipeline, encoded, integrity, confidentiality⟩ :=
    execute_isolated (confined 1) copyWord
  have program : pipeline.ops = copyWord.program := Pipeline.ofOps_eq_ok_iff.mp encoded
  have copied : ((confined 1).execute pipeline).machine.ram.readByte? 66 = some 0o101 := by
    simp only [execute, program]
    rfl
  have hidden : ¬ (confined 1).Readable 0 := fun readable =>
    absurd (le_of_readable_confined readable) (by decide)
  have agrees : (confined 1).AgreesOn (confined 1).Readable (confined 2) := by
    refine ⟨rfl, rfl, ?_⟩
    intro offset readable
    have above := le_of_readable_confined readable
    have others (secret : Byte) : (confined secret).ram.readByte? offset =
        ((Array.replicate 68 0).set! 64 0o101)[offset]? := by
      simp only [confined, Ram.readByte?, Array.set!_eq_setIfInBounds,
        Array.getElem?_setIfInBounds, Array.size_setIfInBounds]
      rw [if_neg (by omega : (0 : Nat) ≠ offset)]
    rw [others, others]
  obtain ⟨sameResult, -, -, untouched⟩ := confidentiality (confined 2) agrees
  have writable : (confined 1).Reaches .write 66 := integrity 66 (by rw [copied]; decide)
  exact ⟨pipeline, encoded, sameResult, copied, writable, (untouched 0 hidden).2⟩

end Machine

end Pdp11
