import Pdp11.Proofs.AccessModes
import Pdp11.Proofs.Isolation.Reach
import Pdp11.Proofs.Pushes
import Pdp11.Proofs.UnitRegisters

/-!
# Calls to the devices

The processor keeps its own registers from the devices and asks them only for
words that they can have. A device that does not answer ends the instruction.
So the calls that an access adds to the record are proper ones, and if one of
them failed then so did the access.
-/

namespace Pdp11

universe u

/-! ## Proper calls -/

/-- `address` is for the devices of a machine of this model to answer. -/
structure ForDevices (model : Model) (address : PhysicalAddress) : Prop where
  lowest : ioPageBase ≤ address
  highest : address ≤ physicalMask
  notPsw : wordAddress address ≠ pswAddress
  notMmu : ∀ register : MmuRegister, register.address? = some (wordAddress address) →
    register = .mmr3 ∧ model = .pdp1134

namespace BusCall

/-- The call was a write, whether a device accepted it or not. -/
def isWrite : BusCall → Bool
  | write .. => true
  | read .. | poll | reset => false

/-- No device answered. -/
def failed : BusCall → Bool
  | read _ (.error _) | write _ _ _ (.error _) => true
  | read _ (.ok _) | write _ _ _ (.ok _) | poll | reset => false

/-- A call that the devices may meet once they were polled. -/
def Proper (model : Model) : BusCall → Prop
  | read address _ => ForDevices model address ∧ isOdd address = false
  | write address _ .word _ => ForDevices model address ∧ isOdd address = false
  | write address value .byte _ => ForDevices model address ∧ value < 0o400
  | poll => False
  | reset => True

/-- A call without an answer leaves an access without one. -/
theorem mapError_of_failed_read {address : PhysicalAddress} {answer : Except BusError Word}
    (noAnswer : (read address answer).failed) :
    (answer.mapError fun _ => AccessError.nonexistent) = .error .nonexistent := by
  cases answer with
  | error error => rfl
  | ok word => contradiction

theorem mapError_of_failed_write {address : PhysicalAddress} {value : Word} {width : Width}
    {answer : Except BusError Unit} (noAnswer : (write address value width answer).failed) :
    (answer.mapError fun _ => AccessError.nonexistent) = .error .nonexistent := by
  cases answer with
  | error error => rfl
  | ok => contradiction

end BusCall

theorem and_mask_byte_lt (value : Word) : value &&& Width.byte.mask < 0o400 := by
  have mask : Width.byte.mask.toNat = 0o377 := rfl
  have bound : (0o400 : Word).toNat = 0o400 := rfl
  rw [BitVec.lt_def, BitVec.toNat_and, mask, bound]
  exact Nat.lt_of_le_of_lt Nat.and_le_right (by decide)

theorem toNat_wordAddress {w : Nat} (address : BitVec w) :
    (wordAddress address).toNat = address.toNat / 2 * 2 := by
  have shifted : wordAddress address = address >>> 1 <<< 1 := by
    apply BitVec.eq_of_getLsbD_eq
    intro position below
    unfold wordAddress
    cases position with
    | zero => simp
    | succ position => simp [below, Nat.add_comm]
  have inside : address.toNat / 2 * 2 < 2 ^ w := by
    have below := address.isLt
    omega
  rw [shifted, BitVec.toNat_shiftLeft, BitVec.toNat_ushiftRight, Nat.shiftRight_eq_div_pow,
    Nat.shiftLeft_eq, Nat.pow_one, Nat.mod_eq_of_lt inside]

theorem isOdd_wordAddress {w : Nat} (address : BitVec w) : isOdd (wordAddress address) = false := by
  cases w <;> simp [isOdd, wordAddress]

theorem Region.of_eq_ioPage {address : PhysicalAddress} {size : Nat}
    (lands : Region.of address size = .ioPage) (inside : address.toNat < 0o20000000) :
    ioPageBase ≤ address ∧ address ≤ physicalMask := by
  have highest : address ≤ physicalMask := by
    have mask : physicalMask.toNat = 0o17777777 := rfl
    rw [BitVec.le_def, mask]
    omega
  rw [Region.of_eq_ioPage_iff, and_physicalMask_of_le highest] at lands
  exact ⟨lands, highest⟩

/-- A word of the devices starts among them, too. -/
theorem ForDevices.wordAddress {model : Model} {address : PhysicalAddress}
    (forDevices : ForDevices model address) : ForDevices model (wordAddress address) := by
  have whole := wordAddress_of_even (isOdd_wordAddress address)
  have lowest := forDevices.lowest
  have highest := forDevices.highest
  have base : ioPageBase.toNat = 0o17760000 := rfl
  rw [BitVec.le_def] at lowest highest
  constructor
  · rw [BitVec.le_def, toNat_wordAddress]
    omega
  · rw [BitVec.le_def, toNat_wordAddress]
    omega
  · rw [whole]
    exact forDevices.notPsw
  · rw [whole]
    exact forDevices.notMmu

theorem Mmu.model_writeRegister (mmu : Mmu) (register : MmuRegister) (value : Word) :
    (mmu.writeRegister register value).model = mmu.model := by
  cases register with
  | mmr3 =>
      rw [writeRegister, writeMmr3]
      split <;> rfl
  | mmr0 | mmr1 | mmr2 | descriptor page | base page => rfl

/-! ## Exchanges -/

/-- A record grows by one part after the other. -/
theorem record_append (record : Array BusCall) (first second : List BusCall) :
    record ++ first ++ second = record ++ (first ++ second) := by
  apply Array.toList_inj.mp
  simp

variable {δ : Type u}

namespace Machine

/-- From `before` to `after` the processor made `calls`, all of them proper and at
most `writes` of them writes. If one of them failed, `fails` came of it. -/
structure Exchange (before after : Machine (Recorded δ)) (calls : List BusCall) (writes : Nat)
    (fails : Prop) : Prop where
  appended : after.devices.calls = before.devices.calls ++ calls
  model : after.mmu.model = before.mmu.model
  proper : ∀ call ∈ calls, call.Proper before.mmu.model
  writes : calls.countP BusCall.isWrite ≤ writes
  failure : ∀ call ∈ calls, call.failed → fails

/-- Some calls lead from `before` to `after`: at most `writes` of them are writes, and
one that failed is enough for `fails`. -/
def Exchanges (before after : Machine (Recorded δ)) (writes : Nat) (fails : Prop) : Prop :=
  ∃ calls, Exchange before after calls writes fails

namespace Exchanges

variable {first second third : Machine (Recorded δ)} {writes more : Nat} {fails other : Prop}

/-- No call was made. -/
theorem silent (devices : second.devices = first.devices)
    (model : second.mmu.model = first.mmu.model) : Exchanges first second writes fails :=
  ⟨[],
    { appended := by simp [devices]
      model := model
      proper := by simp
      writes := by simp
      failure := by simp }⟩

theorem refl (machine : Machine (Recorded δ)) : Exchanges machine machine writes fails :=
  .silent rfl rfl

/-- One call was made. -/
theorem single {devices : δ} (call : BusCall)
    (recorded : second.devices = first.devices.record devices call)
    (model : second.mmu.model = first.mmu.model) (proper : call.Proper first.mmu.model)
    (failure : call.failed → fails) : Exchanges first second call.isWrite.toNat fails := by
  refine ⟨[call], ?_, model, by simpa using proper, ?_, by simpa using failure⟩
  · rw [recorded]
    change first.devices.calls.push call = _
    simp
  · cases call <;> simp [BusCall.isWrite]

theorem mono (exchanges : Exchanges first second writes fails) (most : writes ≤ more)
    (implies : fails → other) : Exchanges first second more other := by
  rcases exchanges with ⟨calls, exchange⟩
  exact ⟨calls, exchange.appended, exchange.model, exchange.proper,
    Nat.le_trans exchange.writes most, fun call callMem failed =>
      implies (exchange.failure call callMem failed)⟩

theorem trans (head : Exchanges first second writes fails)
    (tail : Exchanges second third more other) :
    Exchanges first third (writes + more) (fails ∨ other) := by
  rcases head with ⟨headCalls, head⟩
  rcases tail with ⟨tailCalls, tail⟩
  refine ⟨headCalls ++ tailCalls, ?_, tail.model.trans head.model, ?_, ?_, ?_⟩
  · rw [tail.appended, head.appended, record_append]
  · intro call callMem
    rcases List.mem_append.mp callMem with earlier | later
    · exact head.proper call earlier
    · rw [← head.model]
      exact tail.proper call later
  · rw [List.countP_append]
    exact Nat.add_le_add head.writes tail.writes
  · intro call callMem failed
    rcases List.mem_append.mp callMem with earlier | later
    · exact .inl (head.failure call earlier failed)
    · exact .inr (tail.failure call later failed)

/-- What follows a part in which no call failed. -/
theorem followed (head : Exchanges first second writes fails) (succeeds : ¬ fails)
    (tail : Exchanges second third more other) :
    Exchanges first third (writes + more) other :=
  (head.trans tail).mono (Nat.le_refl _) (Or.resolve_left · succeeds)

/-- Nothing happened between the devices and the processor after `second`. -/
theorem of_same (exchanges : Exchanges first second writes fails)
    (devices : third.devices = second.devices) (model : third.mmu.model = second.mmu.model) :
    Exchanges first third writes fails := by
  rcases exchanges with ⟨calls, exchange⟩
  refine ⟨calls, ?_, model.trans exchange.model, exchange.proper, exchange.writes,
    exchange.failure⟩
  rw [devices]
  exact exchange.appended

end Exchanges

/-! ## Accesses -/

theorem devices_writeInternal (machine : Machine δ) (address : PhysicalAddress) (value : Word) :
    (machine.writeInternal address value).devices = machine.devices := by
  unfold writeInternal
  split
  · rfl
  · split <;> rfl

/-- No register of the unit turns it into another model. -/
theorem model_writeInternal (machine : Machine δ) (address : PhysicalAddress) (value : Word) :
    (machine.writeInternal address value).mmu.model = machine.mmu.model := by
  unfold writeInternal
  split
  · rfl
  · split
    · rfl
    · rename_i mmu written
      rw [Mmu.write?_eq] at written
      obtain ⟨register, -, rfl⟩ := Option.map_eq_some_iff.mp written
      exact Mmu.model_writeRegister _ _ _

variable [Bus δ] {machine : Machine (Recorded δ)} {physical : PhysicalAddress}

omit [Bus δ] in
/-- What the processor does not answer itself is for the devices. -/
theorem forDevices_of_external (inIoPage : Region.of physical machine.ram.size = .ioPage)
    (inside : physical.toNat < 0o20000000)
    (external : machine.readInternal? (wordAddress physical) = none) :
    ForDevices machine.mmu.model physical := by
  obtain ⟨lowest, highest⟩ := Region.of_eq_ioPage inIoPage inside
  unfold readInternal? at external
  split at external
  · contradiction
  · rename_i notPsw
    refine ⟨lowest, highest, notPsw, fun register placed => ?_⟩
    rw [Mmu.read?_eq, Option.map_eq_none_iff] at external
    exact (machine.mmu.registerAt?_eq_none_iff _).mp external register placed

theorem exchanges_readPhysical (inside : physical.toNat < 0o20000000) (width : Width) :
    Exchanges machine (machine.readPhysical physical width).2 0
      ((machine.readPhysical physical width).1 = .error .nonexistent) := by
  unfold readPhysical
  split
  · split <;> exact .refl machine
  · rename_i inIoPage
    dsimp only
    unfold readIoWord
    split
    · exact .refl machine
    · rename_i external
      have forDevices := forDevices_of_external inIoPage inside external
      have proper (answer : Except BusError Word) :
          (BusCall.read (wordAddress physical) answer).Proper machine.mmu.model :=
        ⟨forDevices.wordAddress, isOdd_wordAddress physical⟩
      refine .single (.read (wordAddress physical) _) rfl rfl (proper _) ?_
      intro noAnswer
      exact congrArg (Except.map _) (BusCall.mapError_of_failed_read noAnswer)
  · exact .refl machine

theorem exchanges_writePhysical {width : Width} (inside : physical.toNat < 0o20000000)
    (aligned : width = .word → isOdd physical = false) (value : Word) :
    Exchanges machine (machine.writePhysical physical value width).2 1
      ((machine.writePhysical physical value width).1 = .error .nonexistent) := by
  unfold writePhysical
  split
  · split
    · exact .silent rfl rfl
    · exact .refl machine
  · rename_i inIoPage
    unfold writeIo
    split
    · exact .silent (devices_writeInternal _ _ _) (model_writeInternal _ _ _)
    · rename_i external
      have forDevices := forDevices_of_external inIoPage inside external
      have proper (answer : Except BusError Unit) :
          (BusCall.write physical (value &&& width.mask) width answer).Proper
            machine.mmu.model := by
        cases width with
        | byte => exact ⟨forDevices, and_mask_byte_lt value⟩
        | word => exact ⟨forDevices, aligned rfl⟩
      exact .single (.write physical (value &&& width.mask) width _) rfl rfl (proper _)
        BusCall.mapError_of_failed_write
  · exact .refl machine

omit [Bus δ] in
theorem devices_translate (machine : Machine δ) (mode : Mode) (cycle : MemoryCycle)
    (address : Word) : (machine.translate mode cycle address).2.devices = machine.devices := by
  unfold translate
  dsimp only
  split
  · rfl
  · split <;> rfl

theorem exchanges_translate (machine : Machine (Recorded δ)) (mode : Mode) (cycle : MemoryCycle)
    (address : Word) (fails : Prop) :
    Exchanges machine (machine.translate mode cycle address).2 0 fails :=
  .silent (machine.devices_translate mode cycle address)
    (machine.accessed_translate mode cycle address).mmu.model

omit [Bus δ] in
theorem physical_of_translate {mode : Mode} {cycle : MemoryCycle} {address : Word}
    (succeeds : (machine.translate mode cycle address).1 = .ok physical) :
    physical = machine.mmu.destination mode cycle address := by
  obtain ⟨trap, translated⟩ := translate_of_ok succeeds
  exact (Mmu.permits_of_translate_eq_ok translated).2

theorem exchanges_read (machine : Machine (Recorded δ)) (mode : Mode) (cycle : MemoryCycle)
    (address : Word) (width : Width) :
    Exchanges machine (machine.read mode cycle address width).2 0
      ((machine.read mode cycle address width).1 = .error .nonexistent) := by
  have translated := machine.exchanges_translate mode cycle address
  unfold read
  split
  · exact .refl machine
  · split <;> rename_i outcome <;> rw [outcome] at translated
    · exact translated _
    · rename_i physical reached
      have inside : physical.toNat < 0o20000000 := by
        rw [physical_of_translate (congrArg Prod.fst outcome)]
        exact machine.mmu.toNat_destination_lt mode cycle address
      exact ((translated False).followed id (exchanges_readPhysical inside width)).mono
        (Nat.le_refl _) id

theorem exchanges_write (machine : Machine (Recorded δ)) (mode : Mode) (address value : Word)
    (width : Width) :
    Exchanges machine (machine.write mode address value width).2 1
      ((machine.write mode address value width).1 = .error .nonexistent) := by
  have translated := machine.exchanges_translate mode .write address
  unfold write
  split
  · exact .refl machine
  · rename_i even
    split <;> rename_i outcome <;> rw [outcome] at translated
    · exact (translated _).mono (Nat.zero_le _) id
    · rename_i physical reached
      have place := physical_of_translate (congrArg Prod.fst outcome)
      have inside : physical.toNat < 0o20000000 := by
        rw [place]
        exact machine.mmu.toNat_destination_lt mode .write address
      have aligned : width = .word → isOdd physical = false := by
        intro isWord
        have inBlock := machine.mmu.toNat_destination_mod mode .write address
        have divides := toNat_mod_two_of_even
          (Bool.eq_false_iff.mpr fun odd => even ⟨isWord, odd⟩)
        rw [← place] at inBlock
        exact isOdd_eq_false_of_toNat (by omega)
      exact ((translated False).followed id (exchanges_writePhysical inside aligned value)).mono
        (Nat.le_refl _) id

end Machine

/-! ## Micro-operations -/

variable [Bus δ]

namespace MicroOp

/-- Only a store writes to the devices, and an access that they did not answer
raises a bus error. -/
theorem exchanges_effect (op : MicroOp) (datapath : Datapath (Recorded δ)) :
    Machine.Exchanges datapath.machine (op.effect datapath).commit.machine op.isStore.toNat
      ((op.effect datapath).disposition = .raise .busError) := by
  cases op
  case load dst address width space =>
    have reads := datapath.machine.exchanges_read (datapath.machine.selectedMode space.mode)
      (Machine.loadCycle space.space) (datapath.reg address) width
    change Machine.Exchanges datapath.machine
      (datapath.machine.loadSelected (datapath.reg address) width space).2 0
      ((datapath.machine.loadSelected (datapath.reg address) width space).1 = _) at reads
    rw [← machine_load dst] at reads
    refine (reads.mono (Nat.le_refl _) ?_).of_same rfl rfl
    intro refused
    simp only [effect]
    split <;> rename_i outcome <;> rw [outcome] at refused
    · contradiction
    · cases refused
      rfl
  case store address src width space =>
    have writes := datapath.machine.exchanges_write (datapath.machine.selectedMode space.mode)
      (datapath.reg address) (datapath.reg src) width
    change Machine.Exchanges datapath.machine
      (datapath.machine.storeSelected (datapath.reg address) (datapath.reg src) width space).2 1
      ((datapath.machine.storeSelected (datapath.reg address) (datapath.reg src) width space).1 =
        _) at writes
    rw [← machine_store] at writes
    refine (writes.mono (Nat.le_refl _) ?_).of_same rfl rfl
    intro refused
    simp only [effect]
    split <;> rename_i outcome <;> rw [outcome] at refused
    · contradiction
    · cases refused
      rfl
  case reset =>
    simp only [effect]
    split
    · have answered : ¬ BusCall.reset.failed := by simp [BusCall.failed]
      exact .single .reset rfl rfl trivial fun noAnswer => absurd noAnswer answered
    · exact .refl datapath.machine
  case step reg amount =>
    apply Machine.Exchanges.silent
    · rfl
    · simp only [effect]
      split
      · exact (Mmu.sameMapping_recordStep _ _ _).model
      · rfl
  case stackGuard =>
    apply Machine.Exchanges.silent <;> simp only [effect, Machine.guardStack] <;> split <;>
      (try split) <;> rfl
  all_goals
    apply Machine.Exchanges.silent <;> simp only [effect] <;> (try split) <;> rfl

end MicroOp

namespace Datapath

/-- A run writes to the devices no more often than it stores, and a call without an
answer ends it with a bus error. -/
theorem exchanges_run (datapath : Datapath (Recorded δ)) (index : Nat) (ops : List MicroOp) :
    Machine.Exchanges datapath.machine (datapath.run index ops).2 (ops.countP MicroOp.isStore)
      (∃ position, (datapath.run index ops).1 = .ok (.trapped position .busError)) := by
  induction ops generalizing datapath index with
  | nil => exact .refl datapath.machine
  | cons op rest ih =>
      have here := op.exchanges_effect datapath
      have stores : (op :: rest).countP MicroOp.isStore =
          op.isStore.toNat + rest.countP MicroOp.isStore := by
        rw [List.countP_cons, Nat.add_comm]
        cases op.isStore <;> rfl
      rw [run_cons, stores]
      split <;> rename_i disposition <;> rw [disposition] at here
      · exact here.followed (by simp) (ih _ _)
      · exact here.mono (Nat.le_add_right _ _) (fun raises => absurd raises (by simp))
      · refine (here.mono (Nat.le_add_right _ _) ?_).of_same rfl rfl
        rintro ⟨⟩
        exact ⟨index, rfl⟩

end Datapath

end Pdp11
