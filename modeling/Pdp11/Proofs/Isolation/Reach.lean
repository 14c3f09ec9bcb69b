import Pdp11.Proofs.KernelData

/-!
# Which bytes a mode can reach

A page that lets an access through sends it to a byte of memory, and sends the
next address of the same word to the next byte. Reading changes neither where
addresses lead nor which accesses are let through, so what an instruction can
reach is settled before it starts.
-/

namespace Pdp11

universe u

namespace PageDescriptor

/-- Whether a page was read says nothing about who may use it. -/
theorem abortCauses_congr {first second : PageDescriptor}
    (unmarked : second.unmarked = first.unmarked) (written : second.written = first.written)
    (model : Model) (block : BitVec 7) (write : Bool) :
    second.abortCauses model block write = first.abortCauses model block write := by
  obtain ⟨length, accessed, firstWritten, expandsDown, access⟩ := first
  obtain ⟨secondLength, secondAccessed, secondWritten, secondExpandsDown, secondAccess⟩ := second
  simp only [PageDescriptor.unmarked, mk.injEq, true_and] at unmarked
  dsimp only at written
  obtain ⟨rfl, rfl, rfl⟩ := unmarked
  subst written
  rfl

end PageDescriptor

namespace Mmu

/-- Two units that let the same accesses through, to the same places. -/
structure SameRights (before after : Mmu) : Prop extends SameMapping before after where
  written (page : PageId) : (after.descriptor page).written = (before.descriptor page).written

namespace SameRights

variable {first second third : Mmu}

theorem refl (mmu : Mmu) : SameRights mmu mmu where
  toSameMapping := .refl mmu
  written := fun _ => rfl

theorem trans (head : SameRights first second) (tail : SameRights second third) :
    SameRights first third where
  toSameMapping := head.toSameMapping.trans tail.toSameMapping
  written := fun page => (tail.written page).trans (head.written page)

theorem permits_iff (same : SameRights first second) (mode : Mode) (cycle : MemoryCycle)
    (address : Word) : second.Permits mode cycle address ↔ first.Permits mode cycle address := by
  have sameCauses (page : PageId) (block : BitVec 7) :
      (second.descriptor page).abortCauses second.model block cycle.isWrite =
        (first.descriptor page).abortCauses first.model block cycle.isWrite := by
    rw [same.model]
    exact PageDescriptor.abortCauses_congr (same.pages page).2 (same.written page) _ _ _
  unfold Permits
  rw [same.enabled, same.pageOf, sameCauses]

end SameRights

theorem sameRights_recordStep (mmu : Mmu) (register : BitVec 3) (amount : Word) :
    SameRights mmu (mmu.recordStep register amount) where
  toSameMapping := sameMapping_recordStep mmu register amount
  written := by
    unfold recordStep
    split <;> exact fun _ => rfl

/-- Only a write marks a page as written. -/
theorem sameRights_translate {cycle : MemoryCycle} (reads : cycle.isWrite = false) (mmu : Mmu)
    (mode : Mode) (address : Word) :
    SameRights mmu (mmu.translate mode cycle address).2 where
  toSameMapping := (translated_translate mmu mode cycle address).sameMapping
  written := by
    intro page
    have noted : (mmu.noteFetch cycle address).pages = mmu.pages := by
      unfold noteFetch
      split <;> rfl
    unfold translate relocate recordAbort markAccess
    simp only [reads, descriptor]
    split
    · split
      · split <;> rw [noted]
      · rw [PageTable.get_set]
        split
        · rename_i same
          simp [← same, PageDescriptor.marked, noted]
        · rw [noted]
    · rw [noted]

/-! ## Where accesses lead -/

theorem toNat_destination_lt (mmu : Mmu) (mode : Mode) (cycle : MemoryCycle) (address : Word) :
    (mmu.destination mode cycle address).toNat < 0o20000000 := by
  have below := address.isLt
  unfold destination
  by_cases on : mmu.enabled
  · rw [if_pos on, physicalAddress, toNat_physicalOfSum]
    split
    · omega
    · split <;> omega
  · rw [if_neg on, toNat_unrelocated]
    split <;> omega

/-- A place in memory is the address that leads there. -/
theorem toNat_destination_of_ram {mmu : Mmu} {mode : Mode} {cycle : MemoryCycle} {address : Word}
    {size offset : Nat}
    (lands : Region.of (mmu.destination mode cycle address) size = .ram offset) :
    (mmu.destination mode cycle address).toNat = offset := by
  have small := mmu.toNat_destination_lt mode cycle address
  rw [(Region.of_eq_ram lands).1, toNat_and_physicalMask]
  omega

/-- An access that succeeds was permitted, and goes where its page leads. -/
theorem permits_of_translate_eq_ok {mmu : Mmu} {mode : Mode} {cycle : MemoryCycle} {address : Word}
    {translation : Translation}
    (succeeds : (mmu.translate mode cycle address).1 = .ok translation) :
    mmu.Permits mode cycle address ∧
      translation.physical = mmu.destination mode cycle address := by
  have noted : ∃ mmr2, mmu.noteFetch cycle address = { mmu with mmr2 := mmr2 } := by
    unfold noteFetch
    split
    · exact ⟨address, rfl⟩
    · exact ⟨mmu.mmr2, rfl⟩
  obtain ⟨mmr2, noted⟩ := noted
  rw [translate, noted] at succeeds
  split at succeeds
  · rename_i on
    unfold relocate at succeeds
    dsimp only at succeeds
    split at succeeds
    · contradiction
    · rename_i allows
      cases succeeds
      exact ⟨fun _ => allows, (if_pos on).symm⟩
  · rename_i off
    cases succeeds
    exact ⟨fun on => absurd on off, (if_neg off).symm⟩

/-! ## The two bytes of a word -/

theorem toNat_succ_of_even {w : Nat} {address : BitVec (w + 1)} (even : isOdd address = false) :
    (address + 1).toNat = address.toNat + 1 := by
  have divides := toNat_mod_two_of_even even
  have below := address.isLt
  have one : (1 : BitVec (w + 1)).toNat = 1 := BitVec.toNat_one (Nat.succ_pos w)
  rw [BitVec.toNat_add, one, Nat.mod_eq_of_lt]
  omega

/-- Both bytes of a word are in one block. -/
theorem block_succ {address : Word} (even : isOdd address = false) :
    (address + 1).extractLsb' 6 7 = address.extractLsb' 6 7 := by
  have divides := toNat_mod_two_of_even even
  apply BitVec.eq_of_toNat_eq
  simp only [BitVec.extractLsb'_toNat, toNat_succ_of_even even, Nat.shiftRight_eq_div_pow]
  omega

theorem pageOf_succ (mmu : Mmu) (mode : Mode) (cycle : MemoryCycle) {address : Word}
    (even : isOdd address = false) :
    mmu.pageOf mode cycle (address + 1) = mmu.pageOf mode cycle address := by
  have number : (address + 1).extractLsb' 13 3 = address.extractLsb' 13 3 := by
    have divides := toNat_mod_two_of_even even
    apply BitVec.eq_of_toNat_eq
    simp only [BitVec.extractLsb'_toNat, toNat_succ_of_even even, Nat.shiftRight_eq_div_pow]
    omega
  rw [pageOf, number]
  rfl

theorem permits_succ {mmu : Mmu} {mode : Mode} {cycle : MemoryCycle} {address : Word}
    (even : isOdd address = false) (permits : mmu.Permits mode cycle address) :
    mmu.Permits mode cycle (address + 1) := by
  intro on
  rw [pageOf_succ mmu mode cycle even, block_succ even]
  exact permits on

theorem toNat_destination_succ (mmu : Mmu) (mode : Mode) (cycle : MemoryCycle) {address : Word}
    (even : isOdd address = false) :
    (mmu.destination mode cycle (address + 1)).toNat =
      (mmu.destination mode cycle address).toNat + 1 := by
  have divides := toNat_mod_two_of_even even
  have next := toNat_succ_of_even even
  unfold destination
  by_cases on : mmu.enabled
  · rw [if_pos on, if_pos on, pageOf_succ mmu mode cycle even, physicalAddress, physicalAddress,
      toNat_physicalOfSum, toNat_physicalOfSum, toNat_relocatedSum, toNat_relocatedSum, next]
    split
    · omega
    · split <;> split <;> omega
  · rw [if_neg on, if_neg on, toNat_unrelocated, toNat_unrelocated, next]
    split <;> split <;> omega

end Mmu

/-! ## Reaching a byte -/

namespace Machine

variable {δ : Type u}

/-- The pages of the current mode, or those of the previous one, let an access
through to the byte at `offset`. -/
def Reaches (machine : Machine δ) (cycle : MemoryCycle) (offset : Nat) : Prop :=
  ∃ mode, (mode = machine.psw.mode ∨ mode = machine.psw.previousMode) ∧
    ∃ address translation, (machine.mmu.translate mode cycle address).1 = .ok translation ∧
      translation.physical.toNat = offset

/-- The byte at `offset` is open to be read, as data or as instructions. -/
def Readable (machine : Machine δ) (offset : Nat) : Prop :=
  ∃ cycle : MemoryCycle, cycle.isWrite = false ∧ machine.Reaches cycle offset

variable {machine : Machine δ} {mode : Mode} {cycle : MemoryCycle} {address : Word}

theorem reaches_of_permits (inUse : mode = machine.psw.mode ∨ mode = machine.psw.previousMode)
    (notFetch : cycle ≠ .fetch) (permits : machine.mmu.Permits mode cycle address) :
    machine.Reaches cycle (machine.mmu.destination mode cycle address).toNat := by
  obtain ⟨trap, translated⟩ := (Mmu.translate_eq_ok_iff notFetch).mpr ⟨permits, rfl⟩
  exact ⟨mode, inUse, address, _, translated, rfl⟩

/-- Whoever reaches the first byte of a word reaches the second. -/
theorem reaches_succ_of_permits
    (inUse : mode = machine.psw.mode ∨ mode = machine.psw.previousMode)
    (notFetch : cycle ≠ .fetch) (even : isOdd address = false)
    (permits : machine.mmu.Permits mode cycle address) :
    machine.Reaches cycle ((machine.mmu.destination mode cycle address).toNat + 1) := by
  rw [← Mmu.toNat_destination_succ _ _ _ even]
  exact reaches_of_permits inUse notFetch (Mmu.permits_succ even permits)

/-- A byte that may be written may be read. -/
theorem readable_of_reaches_write {offset : Nat} (writable : machine.Reaches .write offset) :
    machine.Readable offset := by
  obtain ⟨mode, inUse, address, translation, translated, rfl⟩ := writable
  obtain ⟨permits, place⟩ := Mmu.permits_of_translate_eq_ok translated
  refine ⟨.read, rfl, ?_⟩
  rw [place]
  exact reaches_of_permits inUse (by decide) (Mmu.permits_read_of_write permits)

end Machine

end Pdp11
