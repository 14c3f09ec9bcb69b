import Pdp11.Proofs.Interpreter.Core
import Pdp11.Proofs.KernelData

/-!
# Memory without relocation

Without relocation an address below the device registers is its own place in
memory. A machine reads and writes there what the interpreter does, and nothing
else about it changes.
-/

namespace Pdp11

universe u

/-- Memory starts at physical address zero. -/
theorem region_unrelocated {address : Word} (below : ¬ address ≥ unrelocatedWindow) {size : Nat}
    (inside : address.toNat < size) :
    Region.of (unrelocated address) size = .ram address.toNat := by
  have place : (unrelocated address &&& physicalMask).toNat = address.toNat := by
    have small := address.isLt
    rw [unrelocated, if_neg below, toNat_and_physicalMask, BitVec.toNat_setWidth]
    omega
  have notIoPage : ¬ unrelocated address &&& physicalMask ≥ ioPageBase := by
    have base : ioPageBase.toNat = 0o17760000 := rfl
    have small := address.isLt
    rw [ge_iff_le, BitVec.le_def, place, base]
    omega
  unfold Region.of
  dsimp only
  rw [if_neg notIoPage, place, if_pos inside]

namespace Ram

theorem wordOffset_of_even {address : Word} (even : isOdd address = false) :
    wordOffset address.toNat = address.toNat := by
  have divides := toNat_mod_two_of_even even
  unfold wordOffset
  omega

theorem lt_size_of_read? {ram : Ram} {offset : Nat} {width : Width} {value : Word}
    (reads : ram.read? offset width = some value) : offset < ram.size := by
  cases width with
  | byte =>
      obtain ⟨byte, present, -⟩ := Option.map_eq_some_iff.mp reads
      exact (Array.getElem?_eq_some_iff.mp present).1
  | word =>
      have high := (readWord?_eq_some_iff.mp reads).2
      have inside := (Array.getElem?_eq_some_iff.mp high).1
      unfold wordOffset at inside
      unfold size
      omega

theorem lt_size_of_write? {ram stored : Ram} {offset : Nat} {width : Width} {value : Word}
    (writes : ram.write? offset value width = some stored) : offset < ram.size := by
  have present := Option.isSome_of_eq_some writes
  cases width with
  | byte => exact (writeByte?_isSome _ _ _).mp present
  | word =>
      have inside := (writeWord?_isSome _ _ _).mp present
      unfold wordOffset at inside
      omega

end Ram

namespace View

variable {view stored : View} {address value : Word} {width : Width}

theorem load?_eq_some_iff :
    view.load? address width = some value ↔
      ¬ address ≥ unrelocatedWindow ∧ (width = .word → isOdd address = false) ∧
        view.ram.read? address.toNat width = some value := by
  unfold load?
  by_cases high : address ≥ unrelocatedWindow
  · simp [high]
  · rw [if_neg high]
    cases width with
    | byte => simp [high, Ram.read?]
    | word =>
        by_cases odd : isOdd address
        · simp [odd]
        · have even := Bool.eq_false_iff.mpr odd
          simp [high, even, Ram.read?, Ram.wordOffset_of_even even]

theorem store?_eq_some_iff :
    view.store? address value width = some stored ↔
      ¬ address ≥ unrelocatedWindow ∧ (width = .word → isOdd address = false) ∧
        ∃ ram, view.ram.write? address.toNat value width = some ram ∧
          { view with ram := ram } = stored := by
  unfold store?
  by_cases high : address ≥ unrelocatedWindow
  · simp [high]
  · rw [if_neg high]
    dsimp only
    rw [Option.map_eq_some_iff]
    cases width with
    | byte => simp [high, Ram.write?]
    | word =>
        by_cases odd : isOdd address
        · simp [odd]
        · have even := Bool.eq_false_iff.mpr odd
          simp [high, even, Ram.write?, Ram.wordOffset_of_even even]

end View

namespace Machine

variable {δ : Type u}

theorem translate_unrelocated {machine : Machine δ} (off : machine.mmu.enabled = false)
    (mode : Mode) (cycle : MemoryCycle) (address : Word) :
    machine.translate mode cycle address =
      (.ok (unrelocated address),
        { machine with mmu := machine.mmu.noteFetch cycle address }) := by
  have stillOff : (machine.mmu.noteFetch cycle address).enabled = false := by
    unfold Mmu.noteFetch
    split <;> exact off
  unfold translate Mmu.translate
  dsimp only
  rw [if_neg (by simp [stillOff])]
  rfl

variable [Bus δ] {machine : Machine δ} {view : View} {address value : Word} {width : Width}

/-- A read finds what the interpreter loads. -/
theorem read_of_load? (off : machine.mmu.enabled = false) (ram : machine.ram = view.ram)
    (mode : Mode) (cycle : MemoryCycle) (loads : view.load? address width = some value) :
    machine.read mode cycle address width =
      (.ok value, { machine with mmu := machine.mmu.noteFetch cycle address }) := by
  obtain ⟨below, even, present⟩ := View.load?_eq_some_iff.mp loads
  have aligned : ¬ (width = .word ∧ isOdd address) := by
    rintro ⟨isWord, odd⟩
    simp [even isWord] at odd
  rw [← ram] at present
  rw [read, if_neg aligned, translate_unrelocated off]
  simp only [readPhysical, region_unrelocated below (Ram.lt_size_of_read? present), present]

theorem loadSelected_of_load? (off : machine.mmu.enabled = false) (ram : machine.ram = view.ram)
    (loads : view.load? address width = some value) :
    machine.loadSelected address width .data = (.ok value, machine) :=
  read_of_load? off ram (machine.selectedMode .current) .read loads

/-- A store leaves memory as the interpreter does. -/
theorem storeSelected_of_store? {stored : View} (off : machine.mmu.enabled = false)
    (ram : machine.ram = view.ram) (stores : view.store? address value width = some stored) :
    machine.storeSelected address value width .data =
      (.ok (), { machine with ram := stored.ram }) := by
  obtain ⟨below, even, after, written, rfl⟩ := View.store?_eq_some_iff.mp stores
  have aligned : ¬ (width = .word ∧ isOdd address) := by
    rintro ⟨isWord, odd⟩
    simp [even isWord] at odd
  rw [← ram] at written
  rw [storeSelected, write, if_neg aligned, translate_unrelocated off]
  simp only [writePhysical, region_unrelocated below (Ram.lt_size_of_write? written), written]
  rfl

end Machine

end Pdp11
