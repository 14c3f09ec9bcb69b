import Pdp11.Proofs.ByteLanes

/-!
# Physical addresses above twenty-two bits

The map of physical addresses looks at twenty-two bits. Memory does too, and so
two addresses that agree in them name the same byte. Among the device registers
the whole address counts: above twenty-two bits no register of the processor
answers any more, and the access goes to the devices at the address as it
stands. No translated address is as high as that.
-/

namespace Pdp11

universe u

/-- The map puts `address` among the device registers, and looks at no more than a
part of it. -/
structure OverDevices (address : PhysicalAddress) : Prop where
  above : physicalMask < address
  among : ioPageBase ≤ address &&& physicalMask

theorem Region.of_and_physicalMask {address : PhysicalAddress} {size : Nat} :
    Region.of (address &&& physicalMask) size = Region.of address size := by
  simp only [Region.of, BitVec.and_assoc, BitVec.and_self]

namespace OverDevices

variable {address : PhysicalAddress}

theorem le_toNat (beyond : OverDevices address) : 0o20000000 ≤ address.toNat := by
  have above := beyond.above
  have mask : physicalMask.toNat = 0o17777777 := rfl
  rw [BitVec.lt_def, mask] at above
  exact above

/-- The word that holds the byte at `address` is as high as the byte. -/
theorem wordAddress_above (beyond : OverDevices address) : physicalMask < wordAddress address := by
  have high := beyond.le_toNat
  have mask : physicalMask.toNat = 0o17777777 := rfl
  rw [BitVec.lt_def, mask, toNat_wordAddress]
  omega

theorem ne_and_physicalMask (beyond : OverDevices address) :
    address ≠ address &&& physicalMask := by
  intro same
  have high := beyond.le_toNat
  have significant := congrArg BitVec.toNat same
  rw [toNat_and_physicalMask] at significant
  omega

theorem wordAddress_ne (beyond : OverDevices address) :
    wordAddress address ≠ wordAddress (address &&& physicalMask) := by
  intro same
  have high := beyond.le_toNat
  have words := congrArg BitVec.toNat same
  rw [toNat_wordAddress, toNat_wordAddress, toNat_and_physicalMask] at words
  omega

end OverDevices

namespace Machine

variable {δ : Type u} {machine : Machine δ} {address : PhysicalAddress}

/-- The processor has no register of its own above twenty-two bits. -/
theorem readInternal?_of_overDevices (beyond : OverDevices address) :
    machine.readInternal? (wordAddress address) = none := by
  cases held : machine.readInternal? (wordAddress address) with
  | none => rfl
  | some old =>
      have highest := (isDeviceWord_of_readInternal? held).2.2
      exact absurd beyond.wordAddress_above (BitVec.not_lt.mpr highest)

/-- No access of an instruction, and no fetch, comes to such an address. -/
theorem not_overDevices_of_translate {mode : Mode} {cycle : MemoryCycle} {virtual : Word}
    (translates : (machine.translate mode cycle virtual).1 = .ok address) :
    ¬ OverDevices address := by
  intro beyond
  obtain ⟨trap, translated⟩ := translate_of_ok translates
  have place := (Mmu.permits_of_translate_eq_ok translated).2
  have high := beyond.le_toNat
  have inside := machine.mmu.toNat_destination_lt mode cycle virtual
  change address = _ at place
  rw [← place] at inside
  omega

variable [Bus δ]

/-- Both kinds of access to `address` are calls to the devices, at the address as it
stands, and change nothing else. -/
structure GoesToDevices (machine : Machine δ) (address : PhysicalAddress) : Prop where
  read : ∀ width, machine.readPhysical address width =
    let (answer, devices) := Bus.read machine.devices (wordAddress address)
    ((answer.mapError fun _ => .nonexistent).map fun word => selectWidth word address width,
      { machine with devices := devices })
  write : ∀ value width, machine.writePhysical address value width =
    let (answer, devices) := Bus.write machine.devices address (value &&& width.mask) width
    (answer.mapError fun _ => .nonexistent, { machine with devices := devices })

theorem goesToDevices_of_overDevices (beyond : OverDevices address) :
    machine.GoesToDevices address := by
  have inIoPage : Region.of address machine.ram.size = .ioPage :=
    Region.of_eq_ioPage_iff.mpr beyond.among
  have unanswered : machine.readInternal? (wordAddress address) = none :=
    readInternal?_of_overDevices beyond
  constructor
  · intro width
    simp only [readPhysical, inIoPage, readIoWord, unanswered]
  · intro value width
    simp only [writePhysical, inIoPage, writeIo, unanswered]

/-! ## Where the map alone decides -/

theorem le_or_elsewhere_of_not_overDevices (notOver : ¬ OverDevices address) (size : Nat) :
    address ≤ physicalMask ∨ Region.of address size ≠ .ioPage := by
  by_cases inside : address ≤ physicalMask
  · exact .inl inside
  · refine .inr fun inIoPage => notOver ⟨BitVec.not_le.mp inside, ?_⟩
    exact Region.of_eq_ioPage_iff.mp inIoPage

theorem readPhysical_and_physicalMask (notOver : ¬ OverDevices address) (width : Width) :
    machine.readPhysical (address &&& physicalMask) width = machine.readPhysical address width := by
  rcases le_or_elsewhere_of_not_overDevices notOver machine.ram.size with inside | elsewhere
  · rw [and_physicalMask_of_le inside]
  · unfold readPhysical
    rw [Region.of_and_physicalMask]
    cases region : Region.of address machine.ram.size with
    | ram offset => rfl
    | ioPage => exact absurd region elsewhere
    | nonexistent => rfl

theorem writePhysical_and_physicalMask (notOver : ¬ OverDevices address) (value : Word)
    (width : Width) :
    machine.writePhysical (address &&& physicalMask) value width =
      machine.writePhysical address value width := by
  rcases le_or_elsewhere_of_not_overDevices notOver machine.ram.size with inside | elsewhere
  · rw [and_physicalMask_of_le inside]
  · unfold writePhysical
    rw [Region.of_and_physicalMask]
    cases region : Region.of address machine.ram.size with
    | ram offset => rfl
    | ioPage => exact absurd region elsewhere
    | nonexistent => rfl

/-! ## Calls that tell addresses apart -/

section Recorded

variable {machine : Machine (Recorded δ)}

/-- A read among the device registers calls the devices once at most, at the word
that it is for. -/
theorem calls_readPhysical (machine : Machine (Recorded δ)) (address : PhysicalAddress)
    (width : Width) :
    let after := (machine.readPhysical address width).2
    after.devices.calls = machine.devices.calls ∨
      ∃ answer, after.devices.calls =
        machine.devices.calls.push (.read (wordAddress address) answer) := by
  intro after
  simp only [after, readPhysical]
  split
  · split <;> exact .inl rfl
  · dsimp only
    unfold readIoWord
    split
    · exact .inl rfl
    · exact .inr ⟨_, rfl⟩
  · exact .inl rfl

theorem calls_writePhysical (machine : Machine (Recorded δ)) (address : PhysicalAddress)
    (value : Word) (width : Width) :
    let after := (machine.writePhysical address value width).2
    after.devices.calls = machine.devices.calls ∨
      ∃ answer, after.devices.calls =
        machine.devices.calls.push (.write address (value &&& width.mask) width answer) := by
  intro after
  simp only [after, writePhysical]
  split
  · split <;> exact .inl rfl
  · unfold writeIo
    split
    · exact .inl (congrArg Recorded.calls (devices_writeInternal _ _ _))
    · exact .inr ⟨_, rfl⟩
  · exact .inl rfl

theorem readPhysical_ne_of_overDevices (beyond : OverDevices address) (width : Width) :
    machine.readPhysical (address &&& physicalMask) width ≠ machine.readPhysical address width := by
  intro same
  obtain ⟨heard, asked⟩ : ∃ heard, (machine.readPhysical address width).2.devices.calls =
      machine.devices.calls.push (.read (wordAddress address) heard) := by
    rw [(goesToDevices_of_overDevices beyond).read width]
    exact ⟨_, rfl⟩
  rw [← same] at asked
  rcases machine.calls_readPhysical (address &&& physicalMask) width with silent | ⟨answer, called⟩
  · exact Array.push_ne_self (asked.symm.trans silent)
  · have sameCall := Array.push_inj_right.mp (asked.symm.trans called)
    injection sameCall with sameWord
    exact beyond.wordAddress_ne sameWord

theorem writePhysical_ne_of_overDevices (beyond : OverDevices address) (value : Word)
    (width : Width) :
    machine.writePhysical (address &&& physicalMask) value width ≠
      machine.writePhysical address value width := by
  intro same
  obtain ⟨heard, asked⟩ : ∃ heard, (machine.writePhysical address value width).2.devices.calls =
      machine.devices.calls.push (.write address (value &&& width.mask) width heard) := by
    rw [(goesToDevices_of_overDevices beyond).write value width]
    exact ⟨_, rfl⟩
  rw [← same] at asked
  rcases machine.calls_writePhysical (address &&& physicalMask) value width with
    silent | ⟨answer, called⟩
  · exact Array.push_ne_self (asked.symm.trans silent)
  · have sameCall := Array.push_inj_right.mp (asked.symm.trans called)
    injection sameCall with sameAddress
    exact beyond.ne_and_physicalMask sameAddress

/-- Accesses to `address` come to what accesses to its low twenty-two bits come to:
the same answers, the same machine after them and the same calls to the devices. -/
structure Aliased (machine : Machine (Recorded δ)) (address : PhysicalAddress) : Prop where
  read : ∀ width, machine.readPhysical (address &&& physicalMask) width =
    machine.readPhysical address width
  write : ∀ value width, machine.writePhysical (address &&& physicalMask) value width =
    machine.writePhysical address value width

/-- No access to `address` comes to what the same access to its low twenty-two bits
comes to. The devices are asked for it, also where a register of the processor
stands at those bits. -/
structure Strays (machine : Machine (Recorded δ)) (address : PhysicalAddress) : Prop where
  toDevices : machine.GoesToDevices address
  read : ∀ width, machine.readPhysical (address &&& physicalMask) width ≠
    machine.readPhysical address width
  write : ∀ value width, machine.writePhysical (address &&& physicalMask) value width ≠
    machine.writePhysical address value width

/-- Low twenty-two bits decide an access, but for those that the map puts among the
device registers from above. -/
theorem aliased_or_strays (machine : Machine (Recorded δ)) (address : PhysicalAddress) :
    (¬ OverDevices address → machine.Aliased address) ∧
      (OverDevices address → machine.Strays address) := by
  constructor
  · intro notOver
    exact ⟨readPhysical_and_physicalMask notOver, writePhysical_and_physicalMask notOver⟩
  · intro beyond
    exact ⟨goesToDevices_of_overDevices beyond, readPhysical_ne_of_overDevices beyond,
      writePhysical_ne_of_overDevices beyond⟩

/-- A machine with two bytes of memory whose bus is recorded. -/
def recordedPair : Machine (Recorded NoDevices) :=
  { ofConfig Config.default { devices := .none, calls := #[] } with
    ram := { bytes := #[0o22, 0o44] } }

/-- Twenty-two bits are enough for the first word of memory. Sixteen megabytes above
the status word nothing answers, and the devices have been asked. -/
theorem strays_aboveStatusWord :
    recordedPair.Aliased 0o100000000 ∧
      (recordedPair.readPhysical 0o100000000 .word).1 = .ok 0o22022 ∧
      OverDevices 0o117777776 ∧ recordedPair.Strays 0o117777776 ∧
      (recordedPair.readPhysical (0o117777776 &&& physicalMask) .word).1 = .ok 0o340 ∧
      (recordedPair.readPhysical 0o117777776 .word).1 = .error .nonexistent := by
  have inMemory : ¬ OverDevices 0o100000000 := fun beyond => absurd beyond.among (by decide)
  have beyond : OverDevices 0o117777776 := ⟨by decide, by decide⟩
  have aliased := (recordedPair.aliased_or_strays 0o100000000).1 inMemory
  have strays := (recordedPair.aliased_or_strays 0o117777776).2 beyond
  refine ⟨aliased, ?_, beyond, strays, rfl, ?_⟩
  · rw [← aliased.read .word]
    rfl
  · rw [strays.toDevices.read .word]
    rfl

end Recorded

end Machine

end Pdp11
