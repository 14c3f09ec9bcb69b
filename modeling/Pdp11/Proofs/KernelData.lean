import Pdp11.Proofs.Access

/-!
# Kernel data in memory

A word that was stored through a page can be read back through it for as long
as the page keeps its base, its length and its access control field. Marks of
accesses and notes of steps change none of these.
-/

namespace Pdp11

universe u

theorem toNat_mod_two_of_even {w : Nat} {address : BitVec w} (even : isOdd address = false) :
    address.toNat % 2 = 0 := by
  rw [isOdd, BitVec.getLsbD, Nat.testBit_zero, decide_eq_false_iff_not] at even
  omega

theorem toNat_and_physicalMask (physical : PhysicalAddress) :
    (physical &&& physicalMask).toNat = physical.toNat % 0o20000000 := by
  have ones : physicalMask.toNat = 2 ^ 22 - 1 := by decide
  exact (BitVec.toNat_and _ _).trans
    ((congrArg _ ones).trans (Nat.and_two_pow_sub_one_eq_mod _ 22))

theorem and_physicalMask_of_le {physical : PhysicalAddress} (inside : physical ≤ physicalMask) :
    physical &&& physicalMask = physical := by
  have mask : physicalMask.toNat = 0o17777777 := rfl
  rw [BitVec.le_def, mask] at inside
  apply BitVec.eq_of_toNat_eq
  rw [toNat_and_physicalMask]
  omega

/-! ## Where an address leads -/

theorem Region.of_eq_ioPage_iff {physical : PhysicalAddress} {size : Nat} :
    Region.of physical size = .ioPage ↔ ioPageBase ≤ physical &&& physicalMask := by
  unfold Region.of
  dsimp only
  split
  · rename_i among
    exact iff_of_true rfl among
  · rename_i elsewhere
    refine iff_of_false ?_ elsewhere
    split <;> exact Region.noConfusion

theorem Region.of_eq_ram {physical : PhysicalAddress} {size offset : Nat}
    (lands : Region.of physical size = .ram offset) :
    offset = (physical &&& physicalMask).toNat ∧ offset < size := by
  unfold Region.of at lands
  generalize physical &&& physicalMask = significant at lands ⊢
  by_cases inIoPage : significant ≥ ioPageBase
  · simp [inIoPage] at lands
  · by_cases below : significant.toNat < size
    · simp only [inIoPage, if_false, below, if_true, Region.ram.injEq] at lands
      exact ⟨lands.symm, lands ▸ below⟩
    · simp [inIoPage, below] at lands

namespace PageDescriptor

variable {descriptor : PageDescriptor} {model : Model} {block : BitVec 7}

/-- What aborts a read aborts a write. -/
theorem verdict_write_of_read {cause : AbortCause}
    (refused : descriptor.verdict model false = .abort cause) :
    descriptor.verdict model true = .abort cause := by
  unfold verdict at refused ⊢
  split at refused
  · cases model <;> contradiction
  · contradiction
  · cases model <;> contradiction
  · contradiction
  · contradiction
  · exact refused

/-- A page that may be written may be read. -/
theorem abortCauses_read_of_write (writable : descriptor.abortCauses model block true = []) :
    descriptor.abortCauses model block false = [] := by
  rw [abortCauses, List.filter_eq_nil_iff] at writable ⊢
  intro cause causeMem
  have allowed := writable cause causeMem
  cases cause
  case pageLength => exact allowed
  case nonResident | readOnly =>
    simp only [decide_eq_true_eq] at allowed ⊢
    intro refused
    exact allowed (verdict_write_of_read refused)

/-- Marks say nothing about who may read a page. -/
theorem abortCauses_unmarked (descriptor : PageDescriptor) (model : Model) (block : BitVec 7) :
    descriptor.unmarked.abortCauses model block false =
      descriptor.abortCauses model block false :=
  rfl

end PageDescriptor

namespace Mmu

/-- Two units that send every address to the same place and read the same
pages. -/
structure SameMapping (before after : Mmu) : Prop where
  model : after.model = before.model
  pages : before.pages.SameButMarks after.pages
  enabled : after.enabled = before.enabled
  mmr3 : after.mmr3 = before.mmr3

theorem Translated.sameMapping {before after : Mmu} (translated : Translated before after) :
    SameMapping before after where
  model := translated.model
  pages := translated.pages
  enabled := translated.enabled
  mmr3 := translated.mmr3

theorem sameMapping_recordStep (mmu : Mmu) (register : BitVec 3) (amount : Word) :
    SameMapping mmu (mmu.recordStep register amount) := by
  unfold recordStep
  split <;> exact ⟨rfl, .refl _, rfl, rfl⟩

/-- Where an access goes if the page lets it through. -/
def destination (mmu : Mmu) (mode : Mode) (cycle : MemoryCycle) (address : Word) :
    PhysicalAddress :=
  if mmu.enabled then mmu.physicalAddress (mmu.pageOf mode cycle address) address
  else unrelocated address

/-- The page lets an access through. -/
def Permits (mmu : Mmu) (mode : Mode) (cycle : MemoryCycle) (address : Word) : Prop :=
  mmu.enabled → (mmu.descriptor (mmu.pageOf mode cycle address)).abortCauses mmu.model
    (address.extractLsb' 6 7) cycle.isWrite = []

namespace SameMapping

variable {first second third : Mmu}

theorem refl (mmu : Mmu) : SameMapping mmu mmu :=
  ⟨rfl, .refl _, rfl, rfl⟩

theorem trans (head : SameMapping first second) (tail : SameMapping second third) :
    SameMapping first third where
  model := tail.model.trans head.model
  pages := head.pages.trans tail.pages
  enabled := tail.enabled.trans head.enabled
  mmr3 := tail.mmr3.trans head.mmr3

theorem pageOf (same : SameMapping first second) (mode : Mode) (cycle : MemoryCycle)
    (address : Word) : second.pageOf mode cycle address = first.pageOf mode cycle address := by
  have splits : second.splitsSpaces mode = first.splitsSpaces mode := by
    cases mode <;> simp [splitsSpaces, same.mmr3]
  rw [Mmu.pageOf, splits]
  rfl

theorem destination (same : SameMapping first second) (mode : Mode) (cycle : MemoryCycle)
    (address : Word) :
    second.destination mode cycle address = first.destination mode cycle address := by
  have extended : second.extended = first.extended := by
    simp [Mmu.extended, same.model, same.mmr3]
  have base (page : PageId) : second.base page = first.base page := (same.pages page).1
  have physical (page : PageId) :
      second.physicalAddress page address = first.physicalAddress page address := by
    rw [physicalAddress, physicalOfSum, extended, base]
    rfl
  rw [Mmu.destination, same.enabled, same.pageOf, physical]
  rfl

theorem permits (same : SameMapping first second) {mode : Mode} {cycle : MemoryCycle}
    (reads : cycle.isWrite = false) {address : Word} (permits : first.Permits mode cycle address) :
    second.Permits mode cycle address := by
  intro on
  have causes := permits (same.enabled.symm.trans on)
  rw [reads, ← PageDescriptor.abortCauses_unmarked] at causes ⊢
  rw [same.pageOf, same.model, descriptor, (same.pages _).2]
  exact causes

end SameMapping

theorem permits_read_of_write {mmu : Mmu} {mode : Mode} {address : Word}
    (writable : mmu.Permits mode .write address) : mmu.Permits mode .read address :=
  fun on => PageDescriptor.abortCauses_read_of_write (writable on)

/-- Apart from fetches, an access succeeds exactly when the page permits it. -/
theorem translate_eq_ok_iff {mmu : Mmu} {mode : Mode} {cycle : MemoryCycle} {address : Word}
    (notFetch : cycle ≠ .fetch) {physical : PhysicalAddress} :
    (∃ trap, (mmu.translate mode cycle address).1 = .ok { physical, trap }) ↔
      mmu.Permits mode cycle address ∧ physical = mmu.destination mode cycle address := by
  have unnoted : mmu.noteFetch cycle address = mmu := if_neg fun fetches => notFetch fetches.1
  rw [translate, unnoted, destination]
  by_cases on : mmu.enabled
  · rw [if_pos on, if_pos on, relocate]
    dsimp only
    split
    · rename_i aborts
      constructor
      · rintro ⟨trap, ⟨⟩⟩
      · rintro ⟨permits, -⟩
        rw [permits on] at aborts
        contradiction
    · rename_i allows
      constructor
      · rintro ⟨trap, ⟨⟩⟩
        exact ⟨fun _ => allows, rfl⟩
      · rintro ⟨-, rfl⟩
        exact ⟨_, rfl⟩
  · rw [if_neg on, if_neg on]
    constructor
    · rintro ⟨trap, ⟨⟩⟩
      exact ⟨fun enabled => absurd enabled on, rfl⟩
    · rintro ⟨-, rfl⟩
      exact ⟨false, rfl⟩

/-- Eighteen-bit addresses above the window go up to the device registers. -/
theorem toNat_physicalOfSum (mmu : Mmu) (sum : PhysicalAddress) :
    (mmu.physicalOfSum sum).toNat =
      if mmu.extended then sum.toNat % 0o20000000
      else if sum.toNat % 0o1000000 < 0o760000 then sum.toNat % 0o1000000
      else sum.toNat % 0o1000000 + 0o17000000 := by
  have narrowed : (sum &&& 0o777777).toNat = sum.toNat % 0o1000000 := by
    have ones : (0o777777 : PhysicalAddress).toNat = 2 ^ 18 - 1 := by decide
    exact (BitVec.toNat_and _ _).trans
      ((congrArg _ ones).trans (Nat.and_two_pow_sub_one_eq_mod _ 18))
  have window : (0o760000 : PhysicalAddress).toNat = 0o760000 := rfl
  have base : ioPageBase.toNat = 0o17760000 := rfl
  unfold physicalOfSum
  dsimp only
  by_cases wide : mmu.extended
  · rw [if_pos wide, if_pos wide, toNat_and_physicalMask]
  · rw [if_neg wide, if_neg wide]
    by_cases inWindow : sum &&& 0o777777 ≥ 0o760000
    · rw [if_pos inWindow]
      rw [ge_iff_le, BitVec.le_def, window, narrowed] at inWindow
      rw [if_neg (by omega), BitVec.toNat_add, BitVec.toNat_sub, window, base, narrowed]
      omega
    · rw [if_neg inWindow]
      rw [ge_iff_le, BitVec.le_def, window, narrowed] at inWindow
      rw [if_pos (by omega), narrowed]

theorem toNat_unrelocated (address : Word) :
    (unrelocated address).toNat =
      if address.toNat < 0o160000 then address.toNat else address.toNat + 0o17600000 := by
  have window : unrelocatedWindow.toNat = 0o160000 := rfl
  have base : ioPageBase.toNat = 0o17760000 := rfl
  have below := address.isLt
  unfold unrelocated
  by_cases inWindow : address ≥ unrelocatedWindow
  · rw [if_pos inWindow]
    rw [ge_iff_le, BitVec.le_def, window] at inWindow
    rw [if_neg (by omega), BitVec.toNat_add, BitVec.toNat_sub, BitVec.toNat_setWidth,
      BitVec.toNat_setWidth, window, base]
    omega
  · rw [if_neg inWindow]
    rw [ge_iff_le, BitVec.le_def, window] at inWindow
    rw [if_pos (by omega), BitVec.toNat_setWidth]
    omega

/-- The sum of a base, in blocks, and the part of an address below its page
number. -/
theorem toNat_relocatedSum (base address : Word) :
    (base.setWidth 32 <<< 6 + (address.extractLsb' 0 13).setWidth 32 : BitVec 32).toNat =
      base.toNat * 64 + address.toNat % 0o20000 := by
  have below := base.isLt
  simp only [BitVec.toNat_add, BitVec.toNat_shiftLeft, BitVec.toNat_setWidth,
    BitVec.extractLsb'_toNat, Nat.shiftLeft_eq, Nat.shiftRight_zero]
  omega

/-- Relocation works in blocks of 64 bytes and keeps the place within one. -/
theorem toNat_destination_mod (mmu : Mmu) (mode : Mode) (cycle : MemoryCycle) (address : Word) :
    (mmu.destination mode cycle address).toNat % 64 = address.toNat % 64 := by
  have below := address.isLt
  unfold destination
  by_cases on : mmu.enabled
  · rw [if_pos on, physicalAddress, toNat_physicalOfSum, toNat_relocatedSum]
    split
    · omega
    · split <;> omega
  · rw [if_neg on, toNat_unrelocated]
    split <;> omega

theorem block_offset_destination {mmu : Mmu} {mode : Mode} {cycle : MemoryCycle} {address : Word}
    {size offset : Nat}
    (lands : Region.of (mmu.destination mode cycle address) size = .ram offset) :
    offset % 64 = address.toNat % 64 := by
  have inBlock := mmu.toNat_destination_mod mode cycle address
  rw [(Region.of_eq_ram lands).1, toNat_and_physicalMask]
  omega

end Mmu

/-! ## Memory after a store of a word -/

namespace Ram

variable {ram stored : Ram} {offset other : Nat} {value : Word}

theorem size_of_write? {width : Width} (write : ram.write? offset value width = some stored) :
    stored.size = ram.size := by
  cases width with
  | byte =>
      simp only [write?, writeByte?] at write
      split at write
      · cases write
        simp [size]
      · contradiction
  | word =>
      simp only [write?, writeWord?] at write
      split at write
      · cases write
        simp [size]
      · contradiction

theorem read?_write? (write : ram.write? offset value .word = some stored) :
    stored.read? offset .word = some value := by
  have bytes := readByte?_writeWord write
  rw [read?, readWord?_eq_some_iff, bytes, bytes]
  simp

theorem read?_write?_of_ne (write : ram.write? offset value .word = some stored)
    (apart : wordOffset offset ≠ wordOffset other) :
    stored.read? other .word = ram.read? other .word := by
  have bytes := readByte?_writeWord write
  have sameWord (read : Word) : stored.read? other .word = some read ↔
      ram.read? other .word = some read := by
    rw [read?, read?, readWord?_eq_some_iff, readWord?_eq_some_iff, bytes, bytes]
    unfold wordOffset at apart ⊢
    rw [if_neg (by omega), if_neg (by omega), if_neg (by omega), if_neg (by omega)]
  apply Option.ext
  exact sameWord

end Ram

namespace Machine

variable {δ : Type u} [Bus δ]

omit [Bus δ] in
theorem translate_eq_ok_iff {machine : Machine δ} {mode : Mode} {cycle : MemoryCycle}
    {address : Word} (notFetch : cycle ≠ .fetch) {physical : PhysicalAddress} :
    (machine.translate mode cycle address).1 = .ok physical ↔
      machine.mmu.Permits mode cycle address ∧
        physical = machine.mmu.destination mode cycle address := by
  rw [← Mmu.translate_eq_ok_iff notFetch]
  constructor
  · exact translate_of_ok
  · rintro ⟨trap, translated⟩
    unfold translate
    dsimp only
    rw [translated]

omit [Bus δ] in
theorem translate_of_permits {machine : Machine δ} {mode : Mode} {cycle : MemoryCycle}
    {address : Word} (notFetch : cycle ≠ .fetch)
    (permits : machine.mmu.Permits mode cycle address) :
    machine.translate mode cycle address =
      (.ok (machine.mmu.destination mode cycle address),
        (machine.translate mode cycle address).2) :=
  Prod.ext ((translate_eq_ok_iff notFetch).mpr ⟨permits, rfl⟩) rfl

omit [Bus δ] in
theorem exists_translate_of_not_permits {machine : Machine δ} {mode : Mode}
    {cycle : MemoryCycle} {address : Word} (notFetch : cycle ≠ .fetch)
    (refused : ¬ machine.mmu.Permits mode cycle address) :
    ∃ error, machine.translate mode cycle address =
      (.error error, (machine.translate mode cycle address).2) := by
  cases answer : (machine.translate mode cycle address).1 with
  | error error => exact ⟨error, Prod.ext answer rfl⟩
  | ok physical => exact absurd ((translate_eq_ok_iff notFetch).mp answer).1 refused

/-- A read other than a fetch succeeds if it is aligned, its page permits it and
the place where its page leads answers. -/
theorem read_eq_ok_iff {machine after : Machine δ} {mode : Mode} {cycle : MemoryCycle}
    {address value : Word} {width : Width} (notFetch : cycle ≠ .fetch) :
    machine.read mode cycle address width = (.ok value, after) ↔
      ¬ (width = .word ∧ isOdd address) ∧ machine.mmu.Permits mode cycle address ∧
        (machine.translate mode cycle address).2.readPhysical
          (machine.mmu.destination mode cycle address) width = (.ok value, after) := by
  rw [read]
  by_cases odd : width = .word ∧ isOdd address
  · simp [odd]
  · rw [if_neg odd]
    by_cases permits : machine.mmu.Permits mode cycle address
    · rw [translate_of_permits notFetch permits]
      simp [odd, permits]
    · obtain ⟨error, refused⟩ := exists_translate_of_not_permits notFetch permits
      rw [refused]
      simp [permits]

theorem write_eq_ok_iff {machine after : Machine δ} {mode : Mode} {address value : Word}
    {width : Width} :
    machine.write mode address value width = (.ok (), after) ↔
      ¬ (width = .word ∧ isOdd address) ∧ machine.mmu.Permits mode .write address ∧
        (machine.translate mode .write address).2.writePhysical
          (machine.mmu.destination mode .write address) value width = (.ok (), after) := by
  have notFetch : MemoryCycle.write ≠ .fetch := by decide
  rw [write]
  by_cases odd : width = .word ∧ isOdd address
  · simp [odd]
  · rw [if_neg odd]
    by_cases permits : machine.mmu.Permits mode .write address
    · rw [translate_of_permits notFetch permits]
      simp [odd, permits]
    · obtain ⟨error, refused⟩ := exists_translate_of_not_permits notFetch permits
      rw [refused]
      simp [permits]

/-- A write that went to memory at `offset`. -/
structure WroteRam (machine : Machine δ) (offset : Nat) (value : Word) (width : Width)
    (after : Machine δ) : Prop where
  rest : after =
    { machine with
      mmu := after.mmu
      traps := after.traps
      devices := after.devices
      ram := after.ram }
  mmu : machine.mmu.Translated after.mmu
  ram : machine.ram.write? offset value width = some after.ram

theorem wroteRam_of_write {machine after : Machine δ} {mode : Mode} {address value : Word}
    {width : Width} {offset : Nat}
    (lands : Region.of (machine.mmu.destination mode .write address) machine.ram.size =
      .ram offset)
    (stores : machine.write mode address value width = (.ok (), after)) :
    WroteRam machine offset value width after := by
  have accessed := machine.accessed_translate mode .write address
  obtain ⟨-, -, writes⟩ := write_eq_ok_iff.mp stores
  rw [writePhysical, accessed.ram, lands] at writes
  dsimp only at writes
  split at writes
  · rename_i ram written
    cases writes
    constructor
    · exact congrArg (fun reached : Machine δ => { reached with ram := ram }) accessed.rest
    · exact accessed.mmu
    · exact written
  · simp at writes

theorem read?_of_read {machine after : Machine δ} {mode : Mode} {cycle : MemoryCycle}
    {address value : Word} {width : Width} {offset : Nat} (notFetch : cycle ≠ .fetch)
    (lands : Region.of (machine.mmu.destination mode cycle address) machine.ram.size =
      .ram offset)
    (loads : machine.read mode cycle address width = (.ok value, after)) :
    machine.ram.read? offset width = some value := by
  have accessed := machine.accessed_translate mode cycle address
  obtain ⟨-, -, reads⟩ := (read_eq_ok_iff notFetch).mp loads
  rw [readPhysical, accessed.ram, lands] at reads
  dsimp only at reads
  split at reads
  · rename_i read
    cases reads
    exact read
  · simp at reads

/-- Kernel data at `address` is `word`, stored in memory and open to be read. -/
structure KernelHolds (machine : Machine δ) (address word : Word) : Prop where
  even : isOdd address = false
  permits : machine.mmu.Permits .kernel .read address
  stored : ∃ offset,
    Region.of (machine.mmu.destination .kernel .read address) machine.ram.size = .ram offset ∧
      machine.ram.read? offset .word = some word

namespace KernelHolds

variable {machine after : Machine δ} {address word : Word}

omit [Bus δ] in
/-- Where memory and mapping stay, so does the word. -/
theorem of_sameMapping (holds : machine.KernelHolds address word)
    (mapping : machine.mmu.SameMapping after.mmu) (ram : after.ram = machine.ram) :
    after.KernelHolds address word where
  even := holds.even
  permits := mapping.permits rfl holds.permits
  stored := by
    rw [mapping.destination, ram]
    exact holds.stored

/-- A read finds the word. -/
theorem read (holds : machine.KernelHolds address word) :
    ∃ after, machine.read .kernel .read address .word = (.ok word, after) ∧
      Accessed machine after := by
  obtain ⟨offset, lands, stored⟩ := holds.stored
  have kept := machine.accessed_translate .kernel .read address
  refine ⟨(machine.translate .kernel .read address).2, ?_, kept⟩
  apply (read_eq_ok_iff (by decide)).mpr
  refine ⟨by simp [holds.even], holds.permits, ?_⟩
  simp only [readPhysical, kept.ram, lands, stored]

end KernelHolds

/-- Kernel data at `address` is in memory. -/
def KernelInRam (machine : Machine δ) (address : Word) : Prop :=
  ∃ offset,
    Region.of (machine.mmu.destination .kernel .write address) machine.ram.size = .ram offset

omit [Bus δ] in
theorem KernelInRam.of_sameMapping {machine after : Machine δ} {address : Word}
    (inRam : machine.KernelInRam address) (mapping : machine.mmu.SameMapping after.mmu)
    (size : after.ram.size = machine.ram.size) : after.KernelInRam address := by
  rw [KernelInRam, mapping.destination, size]
  exact inRam

/-- What a store of kernel data does when it goes to memory. -/
structure Stored (machine : Machine δ) (address value : Word) (after : Machine δ) : Prop where
  rest : after =
    { machine with
      mmu := after.mmu
      traps := after.traps
      devices := after.devices
      ram := after.ram }
  mmu : machine.mmu.Translated after.mmu
  even : isOdd address = false
  permits : machine.mmu.Permits .kernel .write address
  ram : ∃ offset,
    Region.of (machine.mmu.destination .kernel .write address) machine.ram.size = .ram offset ∧
      machine.ram.write? offset value .word = some after.ram

theorem stored_of_write {machine after : Machine δ} {address value : Word}
    (inRam : machine.KernelInRam address)
    (stores : machine.write .kernel address value .word = (.ok (), after)) :
    Stored machine address value after := by
  obtain ⟨offset, lands⟩ := inRam
  obtain ⟨aligned, permits, -⟩ := write_eq_ok_iff.mp stores
  have wrote := wroteRam_of_write lands stores
  exact
    { rest := wrote.rest
      mmu := wrote.mmu
      even := Bool.eq_false_iff.mpr fun odd => aligned ⟨rfl, odd⟩
      permits := permits
      ram := ⟨offset, lands, wrote.ram⟩ }

namespace Stored

variable {machine after : Machine δ} {address value : Word}

omit [Bus δ] in
theorem registers (stored : Stored machine address value after) :
    after.registers = machine.registers := by
  rw [stored.rest]

omit [Bus δ] in
theorem psw (stored : Stored machine address value after) : after.psw = machine.psw := by
  rw [stored.rest]

omit [Bus δ] in
theorem size (stored : Stored machine address value after) :
    after.ram.size = machine.ram.size := by
  obtain ⟨offset, -, written⟩ := stored.ram
  exact Ram.size_of_write? written

omit [Bus δ] in
/-- The word that was stored is there. -/
theorem holds (stored : Stored machine address value after) : after.KernelHolds address value := by
  have mapping := stored.mmu.sameMapping
  obtain ⟨offset, lands, written⟩ := stored.ram
  constructor
  · exact stored.even
  · exact mapping.permits rfl (Mmu.permits_read_of_write stored.permits)
  · refine ⟨offset, ?_, Ram.read?_write? written⟩
    rw [mapping.destination, stored.size]
    exact lands

omit [Bus δ] in
/-- Another word is still there, if its place within a block is another. -/
theorem holds_apart {other word : Word} (stored : Stored machine address value after)
    (holds : machine.KernelHolds other word) (apart : address.toNat % 64 ≠ other.toNat % 64) :
    after.KernelHolds other word := by
  have mapping := stored.mmu.sameMapping
  obtain ⟨offset, lands, written⟩ := stored.ram
  obtain ⟨otherOffset, otherLands, read⟩ := holds.stored
  constructor
  · exact holds.even
  · exact mapping.permits rfl holds.permits
  · refine ⟨otherOffset, ?_, ?_⟩
    · rw [mapping.destination, stored.size]
      exact otherLands
    · rw [Ram.read?_write?_of_ne written, read]
      have inBlock := Mmu.block_offset_destination lands
      have otherInBlock := Mmu.block_offset_destination otherLands
      have even := toNat_mod_two_of_even stored.even
      have otherEven := toNat_mod_two_of_even holds.even
      unfold Ram.wordOffset
      omega

end Stored

end Machine

end Pdp11
