import Pdp11.Proofs.Interpreter.Values
import Pdp11.Proofs.RegisterWindow
import Pdp11.Proofs.StatusStores
import Pdp11.Proofs.TranslationRule

/-!
# The two bytes of a word

Memory and the registers of the processor itself take words and single bytes.
A byte stored to a register is merged with what the register reads as, and that
need not be what was last stored: some bits are fixed, some are cleared and some
never reach the register. Only bits that a store ignores differ, so two bytes
stored one after the other, in either order, are as good as the whole word.
-/

namespace Pdp11

universe u

/-! ## Words that agree under a mask -/

/-- `first` and `second` have the same bits where `mask` has ones. -/
def AgreeWhere (mask first second : Word) : Prop :=
  ∀ position, mask.getLsbD position → first.getLsbD position = second.getLsbD position

namespace AgreeWhere

variable {mask first second : Word}

theorem and_eq (agree : AgreeWhere mask first second) : first &&& mask = second &&& mask := by
  apply BitVec.eq_of_getLsbD_eq
  intro position _
  rw [BitVec.getLsbD_and, BitVec.getLsbD_and]
  cases masked : mask.getLsbD position with
  | false => simp
  | true => rw [agree position masked]

/-- The byte that is not replaced agrees as before. -/
theorem replaceByte {w : Nat} (agree : AgreeWhere mask first second) (address : BitVec w)
    (byte : Byte) :
    AgreeWhere mask (replaceByte first address byte) (replaceByte second address byte) := by
  intro position masked
  have inWord := BitVec.lt_of_getLsbD masked
  rw [← lowByte_setWidth byte, getLsbD_replaceByte _ _ _ inWord,
    getLsbD_replaceByte _ _ _ inWord, agree position masked]

end AgreeWhere

/-- Both bytes of a word replaced, in either order. -/
theorem replaceByte_replaceByte {w : Nat} {first second : BitVec w}
    (apart : isOdd second = !isOdd first) (old value : Word) :
    replaceByte (replaceByte old first (byteAt value first)) second (byteAt value second) =
      value := by
  unfold replaceByte byteAt
  rw [apart]
  cases isOdd first <;> simp

theorem toNat_eq_bytes (word : Word) : word.toNat =
    ((lowByte word).setWidth 16).toNat + 256 * ((highByte word).setWidth 16).toNat := by
  have below := word.isLt
  simp only [lowByte, highByte, BitVec.toNat_setWidth, BitVec.extractLsb'_toNat,
    Nat.shiftRight_eq_div_pow]
  omega

/-! ## Addresses of bytes -/

theorem isOdd_succ_of_even {w : Nat} {address : BitVec (w + 1)} (even : isOdd address = false) :
    isOdd (address + 1) = true := by
  have next := Mmu.toNat_succ_of_even even
  have divides := toNat_mod_two_of_even even
  rw [isOdd, BitVec.getLsbD, Nat.testBit_zero, next, decide_eq_true_iff]
  omega

theorem wordAddress_succ_of_even {w : Nat} {address : BitVec (w + 1)}
    (even : isOdd address = false) : wordAddress (address + 1) = address := by
  have divides := toNat_mod_two_of_even even
  apply BitVec.eq_of_toNat_eq
  rw [toNat_wordAddress, Mmu.toNat_succ_of_even even]
  omega

namespace Region

variable {address : PhysicalAddress} {size offset : Nat}

theorem of_eq_ram_iff : Region.of address size = .ram offset ↔
    address.toNat % 0o20000000 = offset ∧ offset < 0o17760000 ∧ offset < size := by
  have base : ioPageBase.toNat = 0o17760000 := rfl
  unfold Region.of
  simp only [ge_iff_le, BitVec.le_def, toNat_and_physicalMask, base]
  by_cases inIoPage : 0o17760000 ≤ address.toNat % 0o20000000
  · simp only [inIoPage, if_true, reduceCtorEq, false_iff]
    omega
  · by_cases installed : address.toNat % 0o20000000 < size
    · simp only [inIoPage, if_false, installed, if_true, ram.injEq]
      omega
    · simp only [inIoPage, if_false, installed, reduceCtorEq, false_iff]
      omega

/-- Memory goes on to the byte after an even address. -/
theorem of_succ_of_even (even : isOdd address = false)
    (lands : Region.of address size = .ram offset) (whole : offset + 1 < size) :
    Region.of (address + 1) size = .ram (offset + 1) := by
  have divides := toNat_mod_two_of_even even
  obtain ⟨place, below, -⟩ := of_eq_ram_iff.mp lands
  apply of_eq_ram_iff.mpr
  rw [Mmu.toNat_succ_of_even even]
  omega

end Region

/-! ## Bits that a store reaches -/

/-- A mask leaves a field alone that it covers with ones. -/
theorem extractLsb'_and_mask (start width : Nat) {m : Word}
    (ones : m.extractLsb' start width = .allOnes width) (value : Word) :
    (value &&& m).extractLsb' start width = value.extractLsb' start width := by
  rw [BitVec.extractLsb'_and, ones, BitVec.and_allOnes]

namespace Psw

/-- All but the trace flag and the bits of no field. -/
def writable : Word := 0o174357

/-- The status word after a store of a word, the trace flag apart. -/
theorem ofBits_and_writable (psw : Psw) (value : Word) :
    { ofBits (value &&& writable) with trace := psw.trace } =
      { ofBits value with trace := psw.trace } := by
  have mode := extractLsb'_and_mask 14 2 (m := writable) rfl value
  have previousMode := extractLsb'_and_mask 12 2 (m := writable) rfl value
  have priority := extractLsb'_and_mask 5 3 (m := writable) rfl value
  have codes := extractLsb'_and_mask 0 4 (m := writable) rfl value
  have alternateSet : (value &&& writable).getLsbD 11 = value.getLsbD 11 := by
    simp [writable]
  simp only [ofBits, mode, previousMode, priority, codes, alternateSet]

theorem agreeWhere_stored (psw : Psw) (address : PhysicalAddress) (value : Word) :
    AgreeWhere writable (psw.stored address value .word).bits value := by
  intro position masked
  have inWord := BitVec.lt_of_getLsbD masked
  have fields : ∀ position < 16, writable.getLsbD position →
      position ≠ 4 ∧ ¬(8 ≤ position ∧ position < 11) := by decide
  obtain ⟨notTrace, inField⟩ := fields position inWord masked
  rw [getLsbD_bits_stored psw address value .word inWord, if_neg notTrace, if_neg inField]
  rfl

end Psw

namespace Mmr0

/-- All but the page field and the bits of no field. -/
def writable : Word := 0o171401

theorem loaded_and_writable (status : Mmr0) (value : Word) :
    status.loaded (value &&& writable) = status.loaded value := by
  simp [loaded, writable]

theorem agreeWhere_loaded (status : Mmr0) (value : Word) :
    AgreeWhere writable (status.loaded value).bits value := by
  intro position masked
  have flags : ∀ position < 16, writable.getLsbD position →
      position ∈ [15, 14, 13, 12, 9, 8, 0] := by decide
  have flag := flags position (BitVec.lt_of_getLsbD masked) masked
  obtain ⟨nonResident, pageLength, readOnly, trapped, trapEnabled, maintenance, enabled⟩ :=
    (status.loaded value).getLsbD_bits
  simp only [List.mem_cons, List.not_mem_nil, or_false] at flag
  rcases flag with rfl | rfl | rfl | rfl | rfl | rfl | rfl
  · exact nonResident
  · exact pageLength
  · exact readOnly
  · exact trapped
  · exact trapEnabled
  · exact maintenance
  · exact enabled

end Mmr0

namespace PageDescriptor

/-- All but the marks and the bits of no field. -/
def writable : Word := 0o77417

theorem loaded_and_writable (value : Word) : loaded (value &&& writable) = loaded value := by
  have length := extractLsb'_and_mask 8 7 (m := writable) rfl value
  have access := extractLsb'_and_mask 0 3 (m := writable) rfl value
  have expandsDown : (value &&& writable).getLsbD 3 = value.getLsbD 3 := by
    simp [writable]
  simp only [loaded, length, access, expandsDown]

theorem agreeWhere_loaded (value : Word) : AgreeWhere writable (loaded value).bits value := by
  intro position masked
  have fields : ∀ position < 16, writable.getLsbD position →
      position < 4 ∨ 8 ≤ position ∧ position < 15 := by decide
  have field := fields position (BitVec.lt_of_getLsbD masked) masked
  rw [getLsbD_bits]
  simp only [loaded, BitVec.getLsbD_extractLsb']
  grind

end PageDescriptor

namespace MmuRegister

/-- The bits of a register that software can set. -/
def writable (model : Model) : MmuRegister → Word
  | mmr0 => Mmr0.writable
  | mmr1 | mmr2 => 0
  | mmr3 =>
    match model with
    | .pdp1134 => 0
    | .pdp1170 => 0o77
  | descriptor _ => PageDescriptor.writable
  | base _ => .allOnes 16

end MmuRegister

theorem PageTable.set_set (table : PageTable) (page : PageId) (first second : Page) :
    (table.set page first).set page second = table.set page second := by
  simp [set]

namespace Mmu

variable (mmu : Mmu) (register : MmuRegister) (value later : Word)

/-- A store replaces what the store before it brought. -/
theorem writeRegister_writeRegister :
    (mmu.writeRegister register value).writeRegister register later =
      mmu.writeRegister register later := by
  cases register with
  | mmr0 | mmr1 | mmr2 => rfl
  | mmr3 =>
      simp only [writeRegister, writeMmr3]
      cases model : mmu.model <;> simp [model]
  | descriptor page =>
      simp only [writeRegister, loadDescriptor, PageTable.get_set, if_pos, PageTable.set_set]
      rfl
  | base page =>
      simp only [writeRegister, loadBase, PageTable.get_set, if_pos, PageTable.set_set]
      rfl

theorem writeRegister_and_writable :
    mmu.writeRegister register (value &&& register.writable mmu.model) =
      mmu.writeRegister register value := by
  cases register with
  | mmr0 =>
      exact congrArg (fun status => { mmu with mmr0 := status })
        (mmu.mmr0.loaded_and_writable value)
  | mmr1 | mmr2 => rfl
  | mmr3 =>
      simp only [writeRegister, writeMmr3, MmuRegister.writable]
      cases mmu.model with
      | pdp1134 => rfl
      | pdp1170 =>
          have field := extractLsb'_and_mask 0 6 (m := 0o77) rfl value
          simp only [field]
  | descriptor page =>
      simp only [writeRegister, loadDescriptor, Page.loadDescriptor, MmuRegister.writable,
        PageDescriptor.loaded_and_writable]
  | base page => rw [MmuRegister.writable, BitVec.and_allOnes]

theorem agreeWhere_readRegister :
    AgreeWhere (register.writable mmu.model)
      ((mmu.writeRegister register value).readRegister register) value := by
  cases register with
  | mmr0 => exact mmu.mmr0.agreeWhere_loaded value
  | mmr1 | mmr2 =>
      intro position masked
      simp [MmuRegister.writable] at masked
  | mmr3 =>
      intro position masked
      cases model : mmu.model with
      | pdp1134 => simp [MmuRegister.writable, model] at masked
      | pdp1170 =>
          have fields : ∀ position < 16, (0o77 : Word).getLsbD position → position < 6 := by
            decide
          have inWord := BitVec.lt_of_getLsbD masked
          rw [model] at masked
          have field := fields position inWord masked
          simp [readRegister, writeRegister, writeMmr3, model, inWord, field]
  | descriptor page =>
      simp only [readRegister, writeRegister, loadDescriptor, descriptor, PageTable.get_set]
      exact PageDescriptor.agreeWhere_loaded value
  | base page =>
      intro position _
      simp only [readRegister, writeRegister, loadBase, base, PageTable.get_set, if_pos,
        Page.loadBase]

end Mmu

/-! ## Registers of the processor itself -/

theorem MmuRegister.isDeviceWord_of_at? {address : PhysicalAddress} {register : MmuRegister}
    (named : at? address = some register) : IsDeviceWord address := by
  refine of_address? (P := fun _ address => IsDeviceWord address) ?_ ?_ (at?_eq_some_iff.mp named)
  · decide
  · intro mode space number start starts
    cases mode <;> cases starts <;> cases space <;> revert number <;> decide

theorem Mmu.registerAt?_writeRegister (mmu : Mmu) (register : MmuRegister) (value : Word)
    (address : PhysicalAddress) :
    (mmu.writeRegister register value).registerAt? address = mmu.registerAt? address := by
  rw [registerAt?, registerAt?, model_writeRegister]

namespace Machine

variable {δ : Type u} {machine : Machine δ} {address place : PhysicalAddress} {old : Word}

theorem isDeviceWord_of_readInternal? (held : machine.readInternal? address = some old) :
    IsDeviceWord address := by
  unfold readInternal? at held
  split at held
  · rename_i isPsw
    rw [isPsw]
    decide
  · rw [Mmu.read?_eq] at held
    obtain ⟨register, here, -⟩ := Option.map_eq_some_iff.mp held
    exact MmuRegister.isDeviceWord_of_at? (Option.filter_eq_some_iff.mp here).1

/-- What holds after `first` was stored at `address`: `word` is read there, like
`first` where `mask` has ones, and of the next value stored there only the bits
under `mask` matter. -/
structure Keeps (machine : Machine δ) (address : PhysicalAddress) (first mask word : Word) :
    Prop where
  read : (machine.writeInternal address first).readInternal? address = some word
  agree : AgreeWhere mask word first
  overwrite : ∀ {second other}, AgreeWhere mask second other →
    (machine.writeInternal address first).writeInternal address second =
      machine.writeInternal address other

theorem writeInternal_psw (machine : Machine δ) (value : Word) :
    machine.writeInternal pswAddress value = machine.storePsw value :=
  if_pos rfl

theorem writeInternal_register {register : MmuRegister} (notPsw : address ≠ pswAddress)
    (here : machine.mmu.registerAt? address = some register) (value : Word) :
    machine.writeInternal address value =
      { machine with mmu := machine.mmu.writeRegister register value } := by
  rw [writeInternal, if_neg notPsw, Mmu.write?_eq, here]
  rfl

theorem keeps_psw (machine : Machine δ) (first : Word) :
    machine.Keeps pswAddress first Psw.writable
      (machine.psw.stored pswAddress first .word).bits where
  read := by
    rw [writeInternal_psw]
    rfl
  agree := machine.psw.agreeWhere_stored pswAddress first
  overwrite := by
    intro second other agree
    have same : { Psw.ofBits second with trace := machine.psw.trace } =
        { Psw.ofBits other with trace := machine.psw.trace } := by
      rw [← Psw.ofBits_and_writable, agree.and_eq, Psw.ofBits_and_writable]
    simp only [writeInternal_psw, storePsw, same]

theorem keeps_register {register : MmuRegister} (notPsw : address ≠ pswAddress)
    (here : machine.mmu.registerAt? address = some register) (first : Word) :
    machine.Keeps address first (register.writable machine.mmu.model)
      ((machine.mmu.writeRegister register first).readRegister register) where
  read := by
    rw [writeInternal_register notPsw here, readInternal?, if_neg notPsw, Mmu.read?_eq,
      Mmu.registerAt?_writeRegister, here]
    rfl
  agree := machine.mmu.agreeWhere_readRegister register first
  overwrite := by
    intro second other agree
    have later (value : Word) :
        (machine.writeInternal address first).writeInternal address value =
          machine.writeInternal address value := by
      have stillHere : (machine.writeInternal address first).mmu.registerAt? address =
          some register := by
        rw [writeInternal_register notPsw here, Mmu.registerAt?_writeRegister, here]
      rw [writeInternal_register notPsw stillHere, writeInternal_register notPsw here,
        writeInternal_register notPsw here]
      exact congrArg (fun mmu => { machine with mmu := mmu })
        (machine.mmu.writeRegister_writeRegister register first value)
    rw [later, writeInternal_register notPsw here, writeInternal_register notPsw here,
      ← Mmu.writeRegister_and_writable, agree.and_eq, Mmu.writeRegister_and_writable]

theorem exists_keeps (held : machine.readInternal? address = some old) (first : Word) :
    ∃ mask word, machine.Keeps address first mask word := by
  by_cases isPsw : address = pswAddress
  · subst isPsw
    exact ⟨_, _, machine.keeps_psw first⟩
  · rw [readInternal?, if_neg isPsw, Mmu.read?_eq] at held
    obtain ⟨register, here, rfl⟩ := Option.map_eq_some_iff.mp held
    exact ⟨_, _, keeps_register isPsw here first⟩

/-- A byte is merged with what the register reads as after the byte before it, and
still both make up the word. -/
theorem writeInternal_bytes (held : machine.readInternal? address = some old)
    {first second : PhysicalAddress} (apart : isOdd second = !isOdd first) (value : Word) :
    let middle := machine.writeInternal address (replaceByte old first (byteAt value first))
    ∃ word, middle.readInternal? address = some word ∧
      middle.writeInternal address (replaceByte word second (byteAt value second)) =
        machine.writeInternal address value := by
  intro middle
  obtain ⟨mask, word, keeps⟩ := exists_keeps held (replaceByte old first (byteAt value first))
  refine ⟨word, keeps.read, ?_⟩
  rw [keeps.overwrite (keeps.agree.replaceByte second (byteAt value second)),
    replaceByte_replaceByte apart]

end Machine

/-! ## Words of memory -/

namespace Ram

variable {ram : Ram} {offset : Nat}

theorem exists_write_bytes (aligned : wordOffset offset = offset) (whole : offset + 1 < ram.size)
    (value : Word) : ∃ stored, ram.write? offset value .word = some stored ∧
      (∃ middle, ram.write? offset ((lowByte value).setWidth 16) .byte = some middle ∧
        middle.write? (offset + 1) ((highByte value).setWidth 16) .byte = some stored) ∧
      ∃ middle, ram.write? (offset + 1) ((highByte value).setWidth 16) .byte = some middle ∧
        middle.write? offset ((lowByte value).setWidth 16) .byte = some stored := by
  have high : offset + 1 < ram.bytes.size := whole
  have low : offset < ram.bytes.size := Nat.lt_of_succ_lt high
  simp only [write?, aligned, lowByte_setWidth]
  refine ⟨_, dif_pos high, ⟨_, dif_pos low, ?_⟩, ⟨_, dif_pos high, ?_⟩⟩
  · exact dif_pos (by simpa using high)
  · rw [writeByte?, dif_pos (by simpa using low)]
    simp only [Array.set_comm _ _ (Nat.succ_ne_self offset)]

theorem exists_read_bytes (aligned : wordOffset offset = offset) (whole : offset + 1 < ram.size) :
    ∃ word, ram.read? offset .word = some word ∧
      ram.read? offset .byte = some ((lowByte word).setWidth 16) ∧
      ram.read? (offset + 1) .byte = some ((highByte word).setWidth 16) := by
  have high : offset + 1 < ram.bytes.size := whole
  have low : offset < ram.bytes.size := Nat.lt_of_succ_lt high
  refine ⟨wordOfBytes ram.bytes[offset] ram.bytes[offset + 1], ?_⟩
  simp [read?, aligned, readWord?, readByte?, low, high]

end Ram

/-! ## Accesses -/

namespace Machine

variable {δ : Type u} [Bus δ] {machine middle after : Machine δ} {address place : PhysicalAddress}
  {old : Word}

theorem readPhysical_internal (held : machine.readInternal? (wordAddress place) = some old)
    (width : Width) :
    machine.readPhysical place width = (.ok (selectWidth old place width), machine) := by
  rw [readPhysical, (isDeviceWord_of_readInternal? held).region]
  simp only [readIoWord, held]
  rfl

theorem writePhysical_internal_word (held : machine.readInternal? (wordAddress place) = some old)
    (value : Word) : machine.writePhysical place value .word =
      (.ok (), machine.writeInternal (wordAddress place) value) := by
  rw [writePhysical, (isDeviceWord_of_readInternal? held).region]
  simp only [writeIo, held]

theorem writePhysical_internal_byte (held : machine.readInternal? (wordAddress place) = some old)
    (byte : Byte) : machine.writePhysical place (byte.setWidth 16) .byte =
      (.ok (), machine.writeInternal (wordAddress place) (replaceByte old place byte)) := by
  rw [writePhysical, (isDeviceWord_of_readInternal? held).region]
  simp only [writeIo, held, lowByte_setWidth]

/-- Bytes stored one after the other, as far as the stores go through. -/
def writeBytes (machine : Machine δ) :
    List (PhysicalAddress × Byte) → Except AccessError Unit × Machine δ
  | [] => (.ok (), machine)
  | (address, byte) :: rest =>
    match machine.writePhysical address (byte.setWidth 16) .byte with
    | (.ok (), machine) => machine.writeBytes rest
    | (.error error, machine) => (.error error, machine)

theorem writeBytes_pair {first second : PhysicalAddress} {low high : Byte}
    (head : machine.writePhysical first (low.setWidth 16) .byte = (.ok (), middle))
    (tail : middle.writePhysical second (high.setWidth 16) .byte = (.ok (), after)) :
    machine.writeBytes [(first, low), (second, high)] = (.ok (), after) := by
  simp only [writeBytes, head, tail]

theorem writeBytes_internal (held : machine.readInternal? address = some old)
    {first second : PhysicalAddress} (firstInside : wordAddress first = address)
    (secondInside : wordAddress second = address) (apart : isOdd second = !isOdd first)
    (value : Word) :
    machine.writeBytes [(first, byteAt value first), (second, byteAt value second)] =
      (.ok (), machine.writeInternal address value) := by
  obtain ⟨word, read, whole⟩ := writeInternal_bytes held apart value
  subst firstInside
  have head := writePhysical_internal_byte held (byteAt value first)
  rw [← secondInside] at read
  have tail := writePhysical_internal_byte read (byteAt value second)
  rw [secondInside, whole] at tail
  exact writeBytes_pair head tail

theorem writePhysical_ram {offset : Nat} {value : Word} {width : Width} {stored : Ram}
    (lands : Region.of place machine.ram.size = .ram offset)
    (writes : machine.ram.write? offset value width = some stored) :
    machine.writePhysical place value width = (.ok (), { machine with ram := stored }) := by
  simp only [writePhysical, lands, writes]

theorem writeBytes_ram {first second : PhysicalAddress} {offset other : Nat} {low high : Byte}
    {between stored : Ram} (lands : Region.of first machine.ram.size = .ram offset)
    (landsToo : Region.of second machine.ram.size = .ram other)
    (head : machine.ram.write? offset (low.setWidth 16) .byte = some between)
    (tail : between.write? other (high.setWidth 16) .byte = some stored) :
    machine.writeBytes [(first, low), (second, high)] =
      (.ok (), { machine with ram := stored }) := by
  have stillLands : Region.of second between.size = .ram other := by
    rw [Ram.size_of_write? head, landsToo]
  have stores : { machine with ram := between }.writePhysical second (high.setWidth 16) .byte =
      (.ok (), { machine with ram := stored }) := writePhysical_ram stillLands tail
  exact writeBytes_pair (writePhysical_ram lands head) stores

theorem readPhysical_ram {offset : Nat} {value : Word} {width : Width}
    (lands : Region.of place machine.ram.size = .ram offset)
    (reads : machine.ram.read? offset width = some value) :
    machine.readPhysical place width = (.ok value, machine) := by
  simp only [readPhysical, lands, reads]

/-- The processor answers for the word at `address`: memory does, or a register of
its own. -/
structure ServesWord (machine : Machine δ) (address : PhysicalAddress) : Prop where
  even : isOdd address = false
  own : (∃ offset, Region.of address machine.ram.size = .ram offset ∧
      offset + 1 < machine.ram.size) ∨
    address = pswAddress ∨ (machine.mmu.registerAt? address).isSome

/-- The word at `address` is no more than its two bytes, for stores and for reads. -/
structure SplitsInBytes (machine : Machine δ) (address : PhysicalAddress) : Prop where
  stored : ∀ value, (machine.writePhysical address value .word).1 = .ok ()
  lowFirst : ∀ value,
    machine.writeBytes [(address, lowByte value), (address + 1, highByte value)] =
      machine.writePhysical address value .word
  highFirst : ∀ value,
    machine.writeBytes [(address + 1, highByte value), (address, lowByte value)] =
      machine.writePhysical address value .word
  read : ∃ word low high, machine.readPhysical address .word = (.ok word, machine) ∧
    machine.readPhysical address .byte = (.ok low, machine) ∧
    machine.readPhysical (address + 1) .byte = (.ok high, machine) ∧
    word.toNat = low.toNat + 256 * high.toNat

theorem splitsInBytes_of_ram {offset : Nat} (even : isOdd address = false)
    (lands : Region.of address machine.ram.size = .ram offset)
    (whole : offset + 1 < machine.ram.size) : machine.SplitsInBytes address := by
  have next := Region.of_succ_of_even even lands whole
  have aligned : Ram.wordOffset offset = offset := by
    obtain ⟨place, -, -⟩ := Region.of_eq_ram_iff.mp lands
    have divides := toNat_mod_two_of_even even
    unfold Ram.wordOffset
    omega
  have stores (value : Word) : ∃ after,
      machine.writePhysical address value .word = (.ok (), after) ∧
        machine.writeBytes [(address, lowByte value), (address + 1, highByte value)] =
          (.ok (), after) ∧
        machine.writeBytes [(address + 1, highByte value), (address, lowByte value)] =
          (.ok (), after) := by
    obtain ⟨stored, writes, ⟨_, low, thenHigh⟩, _, high, thenLow⟩ :=
      machine.ram.exists_write_bytes aligned whole value
    exact ⟨_, writePhysical_ram lands writes, writeBytes_ram lands next low thenHigh,
      writeBytes_ram next lands high thenLow⟩
  obtain ⟨word, reads, low, high⟩ := machine.ram.exists_read_bytes aligned whole
  constructor
  · intro value
    obtain ⟨after, writes, -, -⟩ := stores value
    rw [writes]
  · intro value
    obtain ⟨after, writes, lowFirst, -⟩ := stores value
    rw [writes, lowFirst]
  · intro value
    obtain ⟨after, writes, -, highFirst⟩ := stores value
    rw [writes, highFirst]
  · exact ⟨word, _, _, readPhysical_ram lands reads, readPhysical_ram lands low,
      readPhysical_ram next high, toNat_eq_bytes word⟩

theorem splitsInBytes_of_internal (held : machine.readInternal? address = some old) :
    machine.SplitsInBytes address := by
  have even := (isDeviceWord_of_readInternal? held).1
  have odd := isOdd_succ_of_even even
  have here := wordAddress_of_even even
  have next := wordAddress_succ_of_even even
  have lowByteAt (value : Word) : byteAt value address = lowByte value := by
    simp [byteAt, even]
  have highByteAt (value : Word) : byteAt value (address + 1) = highByte value := if_pos odd
  have heldHere : machine.readInternal? (wordAddress address) = some old := by rw [here, held]
  have heldNext : machine.readInternal? (wordAddress (address + 1)) = some old := by
    rw [next, held]
  have whole (value : Word) : machine.writePhysical address value .word =
      (.ok (), machine.writeInternal address value) := by
    rw [writePhysical_internal_word heldHere, here]
  constructor
  · intro value
    rw [whole]
  · intro value
    rw [whole, ← lowByteAt, ← highByteAt]
    exact writeBytes_internal held here next (by rw [even, odd]; rfl) value
  · intro value
    rw [whole, ← lowByteAt, ← highByteAt]
    exact writeBytes_internal held next here (by rw [even, odd]; rfl) value
  · refine ⟨old, _, _, readPhysical_internal heldHere .word, readPhysical_internal heldHere .byte,
      readPhysical_internal heldNext .byte, ?_⟩
    simp only [selectWidth, lowByteAt, highByteAt]
    exact toNat_eq_bytes old

/-- Two stores of bytes are as good as the store of a word, in either order, and a
word reads as its bytes do. -/
theorem splitsInBytes_of_servesWord (serves : machine.ServesWord address) :
    machine.SplitsInBytes address := by
  rcases serves.own with ⟨offset, lands, whole⟩ | rfl | isRegister
  · exact splitsInBytes_of_ram serves.even lands whole
  · exact splitsInBytes_of_internal (if_pos rfl)
  · by_cases isPsw : address = pswAddress
    · subst isPsw
      exact splitsInBytes_of_internal (if_pos rfl)
    · obtain ⟨register, here⟩ := Option.isSome_iff_exists.mp isRegister
      have held : machine.readInternal? address = some (machine.mmu.readRegister register) := by
        rw [readInternal?, if_neg isPsw, Mmu.read?_eq, here]
        rfl
      exact splitsInBytes_of_internal held

/-- A traced user program with three bytes of memory and one page that was accessed
and written. -/
def tracedUser : Machine NoDevices :=
  { ofConfig Config.default .none with
    ram := { bytes := #[1, 2, 3] }
    psw := .ofBits 0o140020
    mmu :=
      { Mmu.new .pdp1170 with
        pages := PageTable.cleared.set
          { mode := .kernel, space := .instruction, number := 0 }
          { descriptor := (PageDescriptor.loaded 0o77406).marked true, base := 0 } } }

/-- Memory, the status word and the descriptor of the page split, whatever their
unwritable bits; the status word stays traced. -/
theorem splitsInBytes_tracedUser :
    (∀ address ∈ [0, pswAddress, 0o17772300],
      tracedUser.ServesWord address ∧ tracedUser.SplitsInBytes address) ∧
    (tracedUser.writeBytes [(pswAddress + 1, 0o377), (pswAddress, 0o357)]).2.psw.bits =
      0o174377 := by
  have memory : tracedUser.ServesWord 0 := ⟨rfl, .inl ⟨0, rfl, by decide⟩⟩
  have status : tracedUser.ServesWord pswAddress := ⟨rfl, .inr (.inl rfl)⟩
  have page : tracedUser.ServesWord 0o17772300 := ⟨rfl, .inr (.inr rfl)⟩
  constructor
  · intro address among
    have serves : tracedUser.ServesWord address := by
      simp only [List.mem_cons, List.not_mem_nil, or_false] at among
      rcases among with rfl | rfl | rfl
      · exact memory
      · exact status
      · exact page
    exact ⟨serves, splitsInBytes_of_servesWord serves⟩
  · have highFirst := (splitsInBytes_of_servesWord status).highFirst 0o177757
    exact congrArg (fun result => result.2.psw.bits) highFirst

end Machine

end Pdp11
