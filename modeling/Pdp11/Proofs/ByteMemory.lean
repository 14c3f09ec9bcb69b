import Pdp11.Proofs.Interpreter.Values
import Pdp11.Proofs.Isolation.Integrity

/-!
# Memory as bytes

However addresses are mapped, memory is one row of bytes. A store replaces one
or two neighbouring bytes, the low one first, and every later read of memory
finds its old bytes with the stored ones laid over them: a byte of a stored
word, a word around a stored byte, or the same bytes through another page.
-/

namespace Pdp11

universe u

/-- The byte that storing `value` at `offset` leaves at `place`, if it reaches
there. -/
def storedByte? (offset : Nat) (value : Word) (width : Width) (place : Nat) : Option Byte :=
  if place = offset then some (lowByte value)
  else if width = .word ∧ place = offset + 1 then some (highByte value)
  else none

/-- What is read at `offset`, where `old` was read before, once `bytes` are laid
over memory. -/
def overlaid (bytes : Nat → Option Byte) (offset : Nat) (old : Word) : Width → Word
  | .byte => ((bytes offset).getD (lowByte old)).setWidth 16
  | .word =>
    wordOfBytes ((bytes offset).getD (lowByte old)) ((bytes (offset + 1)).getD (highByte old))

namespace Ram

variable {ram stored : Ram} {offset : Nat} {value old : Word} {width : Width}

/-- `stored` is `ram` with `bytes` laid over it. -/
structure OverlaidBy (ram : Ram) (bytes : Nat → Option Byte) (stored : Ram) : Prop where
  size : stored.size = ram.size
  readByte? : ∀ place, stored.readByte? place = (bytes place).or (ram.readByte? place)

/-- A store lays its bytes over memory. -/
theorem overlaidBy_of_write? (writes : ram.write? offset value width = some stored)
    (aligned : width = .word → wordOffset offset = offset) :
    ram.OverlaidBy (storedByte? offset value width) stored where
  size := size_of_write? writes
  readByte? place := by
    cases width with
    | byte =>
        rw [readByte?_writeByte writes]
        by_cases here : place = offset
        · simp [storedByte?, here]
        · simp [storedByte?, here, Ne.symm here]
    | word =>
        rw [write?, aligned rfl] at writes
        rw [readByte?_writeWord writes]
        by_cases low : place = offset
        · simp [storedByte?, low]
        · by_cases high : place = offset + 1
          · simp [storedByte?, high]
          · simp [storedByte?, low, high, Ne.symm low, Ne.symm high]

namespace OverlaidBy

variable {bytes : Nat → Option Byte}

/-- A byte that was there still is, unless another was laid over it. -/
theorem readByte?_of_some (laid : ram.OverlaidBy bytes stored) {byte : Byte}
    (present : ram.readByte? offset = some byte) :
    stored.readByte? offset = some ((bytes offset).getD byte) := by
  rw [laid.readByte?, present]
  cases bytes offset <;> rfl

/-- A read finds its old bytes and what was laid over them. -/
theorem read?_of_some (laid : ram.OverlaidBy bytes stored)
    (aligned : width = .word → wordOffset offset = offset)
    (reads : ram.read? offset width = some old) :
    stored.read? offset width = some (overlaid bytes offset old width) := by
  cases width with
  | byte =>
      obtain ⟨byte, present, rfl⟩ := Option.map_eq_some_iff.mp reads
      rw [read?, laid.readByte?_of_some present, overlaid, lowByte_setWidth]
      rfl
  | word =>
      rw [read?, aligned rfl] at reads ⊢
      obtain ⟨low, high⟩ := readWord?_eq_some_iff.mp reads
      apply readWord?_eq_some_iff.mpr
      rw [laid.readByte?_of_some low, laid.readByte?_of_some high, overlaid]
      simp

end OverlaidBy

end Ram

namespace Machine

variable {δ : Type u}

/-- An access to `address` is let through to `place` in memory. -/
structure LeadsToRam (machine : Machine δ) (mode : Mode) (cycle : MemoryCycle) (address : Word)
    (place : PhysicalAddress) : Prop where
  translated : (machine.translate mode cycle address).1 = .ok place
  inRam : ∃ offset, Region.of place machine.ram.size = .ram offset

namespace LeadsToRam

variable {machine : Machine δ} {mode : Mode} {cycle : MemoryCycle} {address : Word}
  {place : PhysicalAddress}

theorem region (leads : machine.LeadsToRam mode cycle address place) (notFetch : cycle ≠ .fetch) :
    Region.of (machine.mmu.destination mode cycle address) machine.ram.size =
      .ram place.toNat := by
  obtain ⟨offset, lands⟩ := leads.inRam
  rw [((translate_eq_ok_iff notFetch).mp leads.translated).2] at lands ⊢
  rw [Mmu.toNat_destination_of_ram lands, lands]

/-- Where nothing but marks changed, a read still leads to the same place. -/
theorem of_sameMapping {after : Machine δ} (leads : machine.LeadsToRam mode cycle address place)
    (notFetch : cycle ≠ .fetch) (reads : cycle.isWrite = false)
    (mapping : machine.mmu.SameMapping after.mmu) (size : after.ram.size = machine.ram.size) :
    after.LeadsToRam mode cycle address place := by
  obtain ⟨permits, rfl⟩ := (translate_eq_ok_iff notFetch).mp leads.translated
  constructor
  · apply (translate_eq_ok_iff notFetch).mpr
    exact ⟨mapping.permits reads permits, (mapping.destination mode cycle address).symm⟩
  · rw [size]
    exact leads.inRam

end LeadsToRam

variable [Bus δ] {machine after : Machine δ} {mode : Mode} {address value : Word} {width : Width}
  {place : PhysicalAddress}

/-- A data read from `address` finds `value` at `place` in memory. -/
structure ReadsRam (machine : Machine δ) (mode : Mode) (address : Word) (width : Width)
    (place : PhysicalAddress) (value : Word) : Prop where
  leads : machine.LeadsToRam mode .read address place
  succeeds : (machine.read mode .read address width).1 = .ok value

/-- A read succeeds if it is aligned and finds its bytes where it leads. -/
theorem readsRam_iff : machine.ReadsRam mode address width place value ↔
    machine.LeadsToRam mode .read address place ∧ ¬ (width = .word ∧ isOdd address) ∧
      machine.ram.read? place.toNat width = some value := by
  have notFetch : MemoryCycle.read ≠ .fetch := by decide
  constructor
  · rintro ⟨leads, succeeds⟩
    have reads : machine.read mode .read address width =
        (.ok value, (machine.read mode .read address width).2) := Prod.ext succeeds rfl
    exact ⟨leads, ((read_eq_ok_iff notFetch).mp reads).1,
      read?_of_read notFetch (leads.region notFetch) reads⟩
  · rintro ⟨leads, aligned, present⟩
    have permits := ((translate_eq_ok_iff notFetch).mp leads.translated).1
    have kept := machine.accessed_translate mode .read address
    have reads : machine.read mode .read address width =
        (.ok value, (machine.translate mode .read address).2) := by
      apply (read_eq_ok_iff notFetch).mpr
      refine ⟨aligned, permits, ?_⟩
      simp only [readPhysical, kept.ram, leads.region notFetch, present]
    exact ⟨leads, congrArg Prod.fst reads⟩

omit [Bus δ] in
/-- Words start at even places, as their addresses are even. -/
theorem LeadsToRam.wordOffset_eq {cycle : MemoryCycle}
    (leads : machine.LeadsToRam mode cycle address place) (notFetch : cycle ≠ .fetch)
    (aligned : ¬ (width = .word ∧ isOdd address)) :
    width = .word → Ram.wordOffset place.toNat = place.toNat := by
  intro isWord
  have even : isOdd address = false := Bool.eq_false_iff.mpr fun odd => aligned ⟨isWord, odd⟩
  exact wordOffset_of_destination (leads.region notFetch) even

/-- A write that goes to memory lays its bytes over it. -/
theorem overlaidBy_of_write (leads : machine.LeadsToRam mode .write address place)
    (stores : machine.write mode address value width = (.ok (), after)) :
    machine.ram.OverlaidBy (storedByte? place.toNat value width) after.ram := by
  have notFetch : MemoryCycle.write ≠ .fetch := by decide
  have wrote := wroteRam_of_write (leads.region notFetch) stores
  have aligned := (write_eq_ok_iff.mp stores).1
  exact Ram.overlaidBy_of_write? wrote.ram (leads.wordOffset_eq notFetch aligned)

/-- A read of memory finds the same bytes through the same page, but for those
that were laid over them. -/
theorem ReadsRam.overlaid {bytes : Nat → Option Byte}
    (reads : machine.ReadsRam mode address width place value)
    (mapping : machine.mmu.SameMapping after.mmu) (laid : machine.ram.OverlaidBy bytes after.ram) :
    after.ReadsRam mode address width place (overlaid bytes place.toNat value width) := by
  have notFetch : MemoryCycle.read ≠ .fetch := by decide
  obtain ⟨leads, aligned, present⟩ := readsRam_iff.mp reads
  apply readsRam_iff.mpr
  refine ⟨leads.of_sameMapping notFetch rfl mapping laid.size, aligned, ?_⟩
  exact laid.read?_of_some (leads.wordOffset_eq notFetch aligned) present

/-- Memory after a write: its bytes are laid over the old ones and every read
finds them, unless the write was refused. -/
theorem memory_of_write (machine : Machine δ) (mode : Mode) (address value : Word)
    (width : Width) :
    (∀ after place, machine.write mode address value width = (.ok (), after) →
      machine.LeadsToRam mode .write address place →
        machine.ram.OverlaidBy (storedByte? place.toNat value width) after.ram ∧
        ∀ readMode readAddress readWidth readPlace old,
          machine.ReadsRam readMode readAddress readWidth readPlace old →
            after.ReadsRam readMode readAddress readWidth readPlace
              (overlaid (storedByte? place.toNat value width) readPlace.toNat old readWidth)) ∧
      ∀ after error, machine.write mode address value width = (.error error, after) →
        after.ram = machine.ram := by
  constructor
  · intro after place stores leads
    have wrote := wroteRam_of_write (leads.region (by decide)) stores
    have laid := overlaidBy_of_write leads stores
    exact ⟨laid, fun _ _ _ _ _ reads => reads.overlaid wrote.mmu.sameMapping laid⟩
  · intro after error refused
    have accessed := accessed_write_of_error (congrArg Prod.fst refused)
    rw [refused] at accessed
    exact accessed.ram

/-- A block of memory, half of its second word missing, that the kernel sees at 0
and users see at 20000 (octal). -/
def sharedBlock : Machine (Recorded NoDevices) :=
  { ofConfig Config.default { devices := .none, calls := #[] } with
    ram := .zeroed 67
    mmu :=
      { Mmu.new .pdp1170 with
        mmr0 := { Mmr0.cleared with enabled := true }
        pages := (PageTable.cleared.set { mode := .kernel, space := .instruction, number := 0 }
          { descriptor := .loaded 0o6, base := 1 }).set
            { mode := .user, space := .instruction, number := 1 }
            { descriptor := .loaded 0o6, base := 1 } } }

/-- The kernel finds the byte that a user stored in the upper half of its word; a
word that a user stores at an odd address goes nowhere. -/
theorem memory_sharedBlock :
    (sharedBlock.write .user 0o20001 0o101 .byte).2.ReadsRam .kernel 0 .word 64 0o40400 ∧
      (sharedBlock.write .user 0o20001 0o101 .word).2.ram = sharedBlock.ram := by
  have leads : sharedBlock.LeadsToRam .user .write 0o20001 65 := ⟨rfl, 65, rfl⟩
  have before : sharedBlock.ReadsRam .kernel 0 .word 64 0 := ⟨⟨rfl, 64, rfl⟩, rfl⟩
  constructor
  · have stored := (memory_of_write sharedBlock .user 0o20001 0o101 .byte).1 _ 65 rfl leads
    exact stored.2 .kernel 0 .word 64 0 before
  · exact (memory_of_write sharedBlock .user 0o20001 0o101 .word).2 _ .oddAddress rfl

end Machine

end Pdp11
