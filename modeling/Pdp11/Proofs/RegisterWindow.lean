import Mathlib.Logic.ExistsUnique
import Pdp11.Proofs.UnitHistory

/-!
# The window of the page registers

Kernel, supervisor and user mode each have a bank of device addresses, one for
every register of their pages. What software reads and loads there are the
registers themselves: no two of them share an address, none has a second one,
and an address that cannot be read cannot be written either.
-/

namespace Pdp11

/-! ## Registers behind the window -/

namespace Mmu

/-- The word in a register of `page`. -/
def pageWord (mmu : Mmu) (page : PageId) : PagePart → Word
  | .descriptor => (mmu.descriptor page).bits
  | .base => mmu.base page

/-- The unit after one of the registers of `page` is set. -/
def setPageWord (mmu : Mmu) (page : PageId) (value : Word) : PagePart → Mmu
  | .descriptor => mmu.loadDescriptor page value
  | .base => mmu.loadBase page value

/-- Software finds a register of `page` at `address`. -/
structure Shows (mmu : Mmu) (page : PageId) (part : PagePart) (address : PhysicalAddress) :
    Prop where
  read : mmu.read? address = some (mmu.pageWord page part)
  write : ∀ value, mmu.write? address value = some (mmu.setPageWord page value part)

variable {mmu : Mmu} {page : PageId} {part : PagePart} {address : PhysicalAddress}

theorem registerAt?_of_address? (mmu : Mmu)
    (placed : (part.register page).address? = some address) :
    mmu.registerAt? address = some (part.register page) := by
  rw [registerAt?, MmuRegister.at?_of_address? placed]
  cases part <;> simp [PagePart.register]

/-- Nothing but the base register of a page changes its base. -/
theorem base_writeRegister (mmu : Mmu) {register : MmuRegister} (other : register ≠ .base page)
    (value : Word) : (mmu.writeRegister register value).base page = mmu.base page := by
  cases register with
  | mmr0 | mmr1 | mmr2 => rfl
  | mmr3 =>
      simp only [writeRegister, writeMmr3]
      split <;> rfl
  | descriptor _ =>
      simp only [writeRegister, loadDescriptor, base, PageTable.get_set]
      split
      · rename_i same
        rw [← same]
        rfl
      · rfl
  | base written =>
      have apart : written ≠ page := fun same => other (congrArg _ same)
      simp only [writeRegister, loadBase, base, PageTable.get_set, if_neg apart]

/-- Nothing but the descriptor register of a page changes its access control
field; a new base clears only the marks. -/
theorem access_writeRegister (mmu : Mmu) {register : MmuRegister}
    (other : register ≠ .descriptor page) (value : Word) :
    ((mmu.writeRegister register value).descriptor page).access =
      (mmu.descriptor page).access := by
  cases register with
  | mmr0 | mmr1 | mmr2 => rfl
  | mmr3 =>
      simp only [writeRegister, writeMmr3]
      split <;> rfl
  | descriptor written =>
      have apart : written ≠ page := fun same => other (congrArg _ same)
      simp only [writeRegister, loadDescriptor, descriptor, PageTable.get_set, if_neg apart]
  | base _ =>
      simp only [writeRegister, loadBase, descriptor, PageTable.get_set]
      split
      · rename_i same
        rw [← same]
        rfl
      · rfl

/-- Loading a register of a page can be told from storing to any other register. -/
theorem exists_setPageWord_ne (mmu : Mmu) {register : MmuRegister}
    (other : register ≠ part.register page) :
    ∃ value, mmu.setPageWord page value part ≠ mmu.writeRegister register value := by
  cases part with
  | descriptor =>
      refine ⟨~~~(mmu.descriptor page).access.setWidth 16, fun same => ?_⟩
      have loaded (value : Word) :
          ((mmu.setPageWord page value .descriptor).descriptor page).access =
            value.extractLsb' 0 3 := by
        simp only [setPageWord, loadDescriptor, descriptor, PageTable.get_set, if_pos]
        rfl
      have flipped := loaded (~~~(mmu.descriptor page).access.setWidth 16)
      rw [same, access_writeRegister mmu other] at flipped
      generalize (mmu.descriptor page).access = field at flipped
      revert field
      decide
  | base =>
      refine ⟨~~~mmu.base page, fun same => ?_⟩
      have loaded (value : Word) : (mmu.setPageWord page value .base).base page = value := by
        simp only [setPageWord, loadBase, base, PageTable.get_set, if_pos]
        rfl
      have flipped := loaded (~~~mmu.base page)
      rw [same, base_writeRegister mmu other] at flipped
      have lowBit := congrArg (fun word => word.getLsbD 0) flipped
      simp at lowBit

/-- Where stores load a register of a page, the address is that of the register. -/
theorem address?_of_write
    (write : ∀ value, mmu.write? address value = some (mmu.setPageWord page value part)) :
    (part.register page).address? = some address := by
  have first := write 0
  rw [write?_eq] at first
  obtain ⟨register, here, -⟩ := Option.map_eq_some_iff.mp first
  have same : register = part.register page := by
    apply Decidable.byContradiction
    intro other
    obtain ⟨value, apart⟩ := exists_setPageWord_ne mmu other
    have stored := write value
    rw [write?_eq, here] at stored
    exact apart (Option.some.inj stored).symm
  rw [← same]
  exact MmuRegister.at?_eq_some_iff.mp (Option.filter_eq_some_iff.mp here).1

/-- A register of a page shows at its address and nowhere else. -/
theorem shows_iff :
    mmu.Shows page part address ↔ (part.register page).address? = some address := by
  refine ⟨fun shown => address?_of_write shown.write, fun placed => ?_⟩
  have here := registerAt?_of_address? mmu placed
  constructor
  · rw [read?_eq, here]
    cases part <;> rfl
  · intro value
    rw [write?_eq, here]
    cases part <;> rfl

theorem exists_address (named : page.mode ≠ .undefined) (part : PagePart) :
    ∃ address, (part.register page).address? = some address := by
  obtain ⟨mode, space, number⟩ := page
  cases mode with
  | undefined => exact absurd rfl named
  | kernel | supervisor | user => cases part <;> exact ⟨_, rfl⟩

theorem existsUnique_shows (mmu : Mmu) (named : page.mode ≠ .undefined) (part : PagePart) :
    ∃! address, mmu.Shows page part address := by
  obtain ⟨address, placed⟩ := exists_address named part
  refine ⟨address, shows_iff.mpr placed, fun other shown => ?_⟩
  have elsewhere := shows_iff.mp shown
  exact Option.some.inj (elsewhere.symm.trans placed)

/-- What an address shows is one register of one page. -/
theorem Shows.register_eq {asked : PageId} {other : PagePart} (first : mmu.Shows page part address)
    (second : mmu.Shows asked other address) : part = other ∧ page = asked := by
  have here := MmuRegister.at?_of_address? (shows_iff.mp first)
  have there := MmuRegister.at?_of_address? (shows_iff.mp second)
  exact PagePart.register_inj (Option.some.inj (here.symm.trans there))

/-- The status registers have addresses of their own. -/
theorem Shows.not_status (shown : mmu.Shows page part address) :
    address ∉ [mmr0Address, mmr1Address, mmr2Address,
      mmr3Address] := by
  have here := MmuRegister.at?_of_address? (shows_iff.mp shown)
  intro status
  simp only [List.mem_cons, List.not_mem_nil, or_false] at status
  rcases status with rfl | rfl | rfl | rfl <;> cases part <;>
    simp [MmuRegister.at?, mmr0Address, mmr1Address,
      mmr2Address, mmr3Address, PagePart.register] at here

/-- The device addresses are a window on the registers of the pages: they show
every register of the three modes at one place, and software can read exactly
the places that it can write. -/
structure WindowOnPages (mmu : Mmu) : Prop where
  onePlace : ∀ page part, page.mode ≠ .undefined → ∃! address, mmu.Shows page part address
  shownIfWritten : ∀ page part address,
    (∀ value, mmu.write? address value = some (mmu.setPageWord page value part)) →
      mmu.Shows page part address
  oneRegister : ∀ page asked part other address, mmu.Shows page part address →
    mmu.Shows asked other address → part = other ∧ page = asked
  notStatus : ∀ page part address, mmu.Shows page part address →
    address ∉ [mmr0Address, mmr1Address, mmr2Address,
      mmr3Address]
  readIffWritten : ∀ address value,
    (mmu.read? address).isSome ↔ (mmu.write? address value).isSome
  unchanged : ∀ address value, mmu.write? address value = none →
    mmu.perform (.write address value) = mmu

theorem windowOnPages (mmu : Mmu) : mmu.WindowOnPages where
  onePlace _ part named := existsUnique_shows mmu named part
  shownIfWritten _ _ _ write := shows_iff.mpr (address?_of_write write)
  oneRegister _ _ _ _ _ first second := first.register_eq second
  notStatus _ _ _ shown := shown.not_status
  readIffWritten address value := by
    rw [read?_eq, write?_eq, Option.isSome_map, Option.isSome_map]
  unchanged address value refused := by
    rw [perform, refused]
    rfl

end Mmu

end Pdp11
