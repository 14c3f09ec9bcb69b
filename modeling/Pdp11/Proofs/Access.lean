import Pdp11.Machine.Effect
import Pdp11.Proofs.Translation

/-!
# What an access leaves alone

A read, and a write that is refused, stores nothing. Such an access may mark a
page, record an abort, ask for a memory management trap and read a device;
the rest of the machine stays as it is.
-/

namespace Pdp11

universe u

/-! ## Devices that took no write -/

/-- `second` came from `first` by reads and refused writes alone. -/
inductive Undisturbed {δ : Type u} [Bus δ] : δ → δ → Prop
  | refl (devices : δ) : Undisturbed devices devices
  | read {first second : δ} (address : PhysicalAddress) :
      Undisturbed first second → Undisturbed first (Bus.read second address).2
  | refused {first second : δ} {address : PhysicalAddress} {value : Word} {width : Width}
      {error : BusError} :
      Undisturbed first second → (Bus.write second address value width).1 = .error error →
        Undisturbed first (Bus.write second address value width).2

/-- The bus took the word or byte it was given. -/
def BusCall.isAcceptedWrite : BusCall → Prop
  | write _ _ _ (.ok ()) => True
  | _ => False

/-- A record that grew by `calls` grows by one more. -/
theorem Recorded.calls_record {δ : Type u} {first last : Recorded δ} {calls : List BusCall}
    (appended : last.calls = first.calls ++ calls) (devices : δ) (call : BusCall) :
    (last.record devices call).calls = first.calls ++ (calls ++ [call]) := by
  change last.calls.push call = _
  rw [appended]
  apply Array.toList_inj.mp
  simp

namespace Undisturbed

variable {δ : Type u} [Bus δ]

theorem trans {first second third : δ} (head : Undisturbed first second)
    (tail : Undisturbed second third) : Undisturbed first third := by
  induction tail with
  | refl => exact head
  | read address _ ih => exact .read address ih
  | refused _ refuses ih => exact .refused ih refuses

/-- A recorded bus that took no write shows none among its calls. -/
theorem calls {first second : Recorded δ} (undisturbed : Undisturbed first second) :
    ∃ calls : List BusCall, second.calls = first.calls ++ calls ∧
      ∀ call ∈ calls, ¬ call.isAcceptedWrite := by
  induction undisturbed with
  | refl => exact ⟨[], by simp⟩
  | @read last address _ ih =>
      obtain ⟨calls, appended, rejected⟩ := ih
      refine ⟨calls ++ [_], Recorded.calls_record appended _ _, ?_⟩
      intro call callMem
      rcases List.mem_append.mp callMem with earlier | added
      · exact rejected call earlier
      · rw [List.mem_singleton.mp added]
        exact id
  | @refused last address value width error _ refuses ih =>
      obtain ⟨calls, appended, rejected⟩ := ih
      refine ⟨calls ++ [_], Recorded.calls_record appended _ _, ?_⟩
      change (Bus.write last.devices address value width).1 = .error error at refuses
      intro call callMem
      rcases List.mem_append.mp callMem with earlier | added
      · exact rejected call earlier
      · rw [List.mem_singleton.mp added, refuses]
        exact id

end Undisturbed

namespace Machine

variable {δ : Type u} [Bus δ]

/-! ## Accesses that store nothing -/

/-- What every access that stores nothing keeps of the machine. -/
structure Accessed (before after : Machine δ) : Prop where
  rest : after =
    { before with
      mmu := after.mmu
      traps := after.traps
      devices := after.devices }
  mmu : before.mmu.Translated after.mmu
  devices : Undisturbed before.devices after.devices

namespace Accessed

variable {first second third : Machine δ}

theorem refl (machine : Machine δ) : Accessed machine machine where
  rest := rfl
  mmu := .refl _
  devices := .refl _

theorem trans (head : Accessed first second) (tail : Accessed second third) :
    Accessed first third where
  rest := by
    rw [tail.rest, head.rest]
  mmu := head.mmu.trans tail.mmu
  devices := head.devices.trans tail.devices

theorem registers (accessed : Accessed first second) : second.registers = first.registers := by
  rw [accessed.rest]

theorem psw (accessed : Accessed first second) : second.psw = first.psw := by
  rw [accessed.rest]

theorem ram (accessed : Accessed first second) : second.ram = first.ram := by
  rw [accessed.rest]

theorem runState (accessed : Accessed first second) : second.runState = first.runState := by
  rw [accessed.rest]

theorem requests (accessed : Accessed first second) : second.requests = first.requests := by
  rw [accessed.rest]

end Accessed

theorem accessed_translate (machine : Machine δ) (mode : Mode) (cycle : MemoryCycle)
    (address : Word) : Accessed machine (machine.translate mode cycle address).2 := by
  have translated := machine.mmu.translated_translate mode cycle address
  unfold translate
  dsimp only
  split
  · exact ⟨rfl, translated, .refl _⟩
  · split <;> exact ⟨rfl, translated, .refl _⟩

theorem accessed_readIoWord (machine : Machine δ) (address : PhysicalAddress) :
    Accessed machine (machine.readIoWord address).2 := by
  unfold readIoWord
  split
  · exact .refl _
  · exact ⟨rfl, .refl _, .read address (.refl _)⟩

theorem accessed_readPhysical (machine : Machine δ) (address : PhysicalAddress) (width : Width) :
    Accessed machine (machine.readPhysical address width).2 := by
  unfold readPhysical
  split
  · split <;> exact .refl _
  · exact accessed_readIoWord _ _
  · exact .refl _

theorem accessed_read (machine : Machine δ) (mode : Mode) (cycle : MemoryCycle) (address : Word)
    (width : Width) : Accessed machine (machine.read mode cycle address width).2 := by
  have translated := machine.accessed_translate mode cycle address
  unfold read
  split
  · exact .refl _
  · split <;> rename_i outcome <;> rw [outcome] at translated
    · exact translated
    · exact translated.trans (accessed_readPhysical _ _ _)

/-- What a write cannot reach. -/
theorem writePhysical_rest (machine : Machine δ) (address : PhysicalAddress) (value : Word)
    (width : Width) :
    ∃ ram psw pswWritten mmu devices, (machine.writePhysical address value width).2 =
      { machine with
        ram := ram
        psw := psw
        pswWritten := pswWritten
        mmu := mmu
        devices := devices } := by
  unfold writePhysical writeIo writeInternal
  split
  · split <;> exact ⟨_, _, _, _, _, rfl⟩
  · split
    · dsimp only
      split
      · exact ⟨_, _, _, _, _, rfl⟩
      · split <;> exact ⟨_, _, _, _, _, rfl⟩
    · exact ⟨_, _, _, _, _, rfl⟩
  · exact ⟨_, _, _, _, _, rfl⟩

theorem write_rest (machine : Machine δ) (mode : Mode) (address value : Word) (width : Width) :
    ∃ ram psw pswWritten mmu traps devices, (machine.write mode address value width).2 =
      { machine with
        ram := ram
        psw := psw
        pswWritten := pswWritten
        mmu := mmu
        traps := traps
        devices := devices } := by
  have translated := machine.accessed_translate mode .write address
  unfold write
  split
  · exact ⟨_, _, _, _, _, _, rfl⟩
  · split <;> rename_i outcome <;> rw [outcome] at translated
    · exact ⟨_, _, _, _, _, _, translated.rest⟩
    · rename_i physical reached
      rcases reached.writePhysical_rest physical value width with
        ⟨ram, psw, pswWritten, mmu, devices, rest⟩
      have reachedRest := translated.rest
      dsimp only at reachedRest
      rw [rest, reachedRest]
      exact ⟨_, _, _, _, _, _, rfl⟩

theorem accessed_writePhysical_of_error {machine : Machine δ} {address : PhysicalAddress}
    {value : Word} {width : Width} {error : AccessError}
    (refused : (machine.writePhysical address value width).1 = .error error) :
    Accessed machine (machine.writePhysical address value width).2 := by
  unfold writePhysical at refused ⊢
  split
  · rename_i inRam
    rw [inRam] at refused
    dsimp only at refused
    split
    · rename_i stored
      simp [stored] at refused
    · exact .refl _
  · rename_i inIoPage
    rw [inIoPage] at refused
    dsimp only at refused
    unfold writeIo at refused ⊢
    split
    · rename_i internal
      simp [internal] at refused
    · rename_i external
      rw [external] at refused
      dsimp only at refused ⊢
      cases answer : (Bus.write machine.devices address (value &&& width.mask) width).1 with
      | ok =>
          rw [answer] at refused
          contradiction
      | error busError => exact ⟨rfl, .refl _, .refused (.refl _) answer⟩
  · exact .refl _

theorem accessed_write_of_error {machine : Machine δ} {mode : Mode} {address value : Word}
    {width : Width} {error : AccessError}
    (refused : (machine.write mode address value width).1 = .error error) :
    Accessed machine (machine.write mode address value width).2 := by
  have translated := machine.accessed_translate mode .write address
  unfold write at refused ⊢
  split
  · exact .refl _
  · rename_i even
    rw [if_neg even] at refused
    split <;> rename_i outcome <;> rw [outcome] at translated
    · exact translated
    · rw [outcome] at refused
      exact translated.trans (accessed_writePhysical_of_error refused)

/-! ## The status registers after an access -/

omit [Bus δ] in
theorem mmu_translate (machine : Machine δ) (mode : Mode) (cycle : MemoryCycle) (address : Word) :
    (machine.translate mode cycle address).2.mmu =
      (machine.mmu.translate mode cycle address).2 := by
  unfold translate
  dsimp only
  split
  · rfl
  · split <;> rfl

theorem mmu_readIoWord (machine : Machine δ) (address : PhysicalAddress) :
    (machine.readIoWord address).2.mmu = machine.mmu := by
  unfold readIoWord
  split <;> rfl

theorem mmu_readPhysical (machine : Machine δ) (address : PhysicalAddress) (width : Width) :
    (machine.readPhysical address width).2.mmu = machine.mmu := by
  unfold readPhysical
  split
  · split <;> rfl
  · exact mmu_readIoWord _ _
  · rfl

theorem mmu_writePhysical_of_error {machine : Machine δ} {address : PhysicalAddress}
    {value : Word} {width : Width} {error : AccessError}
    (refused : (machine.writePhysical address value width).1 = .error error) :
    (machine.writePhysical address value width).2.mmu = machine.mmu := by
  unfold writePhysical at refused ⊢
  split
  · split <;> rfl
  · rename_i inIoPage
    rw [inIoPage] at refused
    unfold writeIo at refused ⊢
    split
    · rename_i internal
      simp [internal] at refused
    · rfl
  · rfl

/-- A read does to the relocation unit what its translation does. -/
theorem mmu_read (machine : Machine δ) (mode : Mode) (cycle : MemoryCycle) (address : Word)
    (width : Width) :
    (machine.read mode cycle address width).2.mmu =
      if width = .word ∧ isOdd address then machine.mmu
      else (machine.mmu.translate mode cycle address).2 := by
  have translated := machine.mmu_translate mode cycle address
  unfold read
  split
  · rfl
  · split <;> rename_i outcome <;> rw [outcome] at translated
    · exact translated
    · exact (mmu_readPhysical _ _ _).trans translated

theorem mmr2_read {cycle : MemoryCycle} (notFetch : cycle ≠ .fetch) (machine : Machine δ)
    (mode : Mode) (address : Word) (width : Width) :
    (machine.read mode cycle address width).2.mmu.mmr2 = machine.mmu.mmr2 := by
  rw [mmu_read]
  split
  · rfl
  · rw [Mmu.mmr2_translate, if_neg fun fetches => notFetch fetches.1]

omit [Bus δ] in
/-- A translation of the machine succeeds only when that of its unit does. -/
theorem translate_of_ok {machine : Machine δ} {mode : Mode} {cycle : MemoryCycle} {address : Word}
    {physical : PhysicalAddress}
    (succeeds : (machine.translate mode cycle address).1 = .ok physical) :
    ∃ trap, (machine.mmu.translate mode cycle address).1 = .ok { physical, trap } := by
  unfold translate at succeeds
  dsimp only at succeeds
  split at succeeds
  · contradiction
  · rename_i translation _ trap translated
    cases succeeds
    exact ⟨trap, translated⟩

theorem frozen_read_of_ok {machine : Machine δ} {mode : Mode} {cycle : MemoryCycle}
    {address value : Word} {width : Width}
    (succeeds : (machine.read mode cycle address width).1 = .ok value) :
    (machine.read mode cycle address width).2.mmu.frozen = machine.mmu.frozen := by
  rw [mmu_read]
  unfold read at succeeds
  split
  · rfl
  · rename_i even
    rw [if_neg even] at succeeds
    split at succeeds
    · contradiction
    · rename_i outcome
      obtain ⟨trap, translated⟩ := translate_of_ok (congrArg Prod.fst outcome)
      exact Mmu.frozen_translate_of_ok translated

theorem mmu_write_of_error {machine : Machine δ} {mode : Mode} {address value : Word}
    {width : Width} {error : AccessError}
    (refused : (machine.write mode address value width).1 = .error error) :
    (machine.write mode address value width).2.mmu =
      if width = .word ∧ isOdd address then machine.mmu
      else (machine.mmu.translate mode .write address).2 := by
  have translated := machine.mmu_translate mode .write address
  unfold write at refused ⊢
  split
  · rfl
  · rename_i even
    rw [if_neg even] at refused
    split <;> rename_i outcome <;> rw [outcome] at translated
    · exact translated
    · rw [outcome] at refused
      exact (mmu_writePhysical_of_error refused).trans translated

theorem mmr2_write_of_error {machine : Machine δ} {mode : Mode} {address value : Word}
    {width : Width} {error : AccessError}
    (refused : (machine.write mode address value width).1 = .error error) :
    (machine.write mode address value width).2.mmu.mmr2 = machine.mmu.mmr2 := by
  rw [mmu_write_of_error refused]
  split
  · rfl
  · rw [Mmu.mmr2_translate, if_neg (by simp)]

/-! ## Accesses see neither registers nor predictor -/

omit [Bus δ] in
/-- The machine with other registers and another predictor. -/
def withMicrostate (machine : Machine δ) (registers : RegisterFile)
    (predictor : BranchPredictor) : Machine δ :=
  { machine with registers := registers, predictor := predictor }

section Microstate

variable (machine : Machine δ) (registers : RegisterFile) (predictor : BranchPredictor)

omit [Bus δ] in
theorem translate_withMicrostate (mode : Mode) (cycle : MemoryCycle) (address : Word) :
    (machine.withMicrostate registers predictor).translate mode cycle address =
      ((machine.translate mode cycle address).1,
        (machine.translate mode cycle address).2.withMicrostate registers predictor) := by
  simp only [translate, withMicrostate]
  split
  · rfl
  · split <;> rfl

omit [Bus δ] in
theorem writeInternal_withMicrostate (address : PhysicalAddress) (value : Word) :
    (machine.withMicrostate registers predictor).writeInternal address value =
      (machine.writeInternal address value).withMicrostate registers predictor := by
  simp only [writeInternal, withMicrostate]
  split
  · rfl
  · split <;> rfl

theorem readIoWord_withMicrostate (address : PhysicalAddress) :
    (machine.withMicrostate registers predictor).readIoWord address =
      ((machine.readIoWord address).1,
        (machine.readIoWord address).2.withMicrostate registers predictor) := by
  have same : (machine.withMicrostate registers predictor).readInternal? address =
      machine.readInternal? address := rfl
  unfold readIoWord
  rw [same]
  split <;> rfl

theorem writeIo_withMicrostate (address : PhysicalAddress) (value : Word) (width : Width) :
    (machine.withMicrostate registers predictor).writeIo address value width =
      ((machine.writeIo address value width).1,
        (machine.writeIo address value width).2.withMicrostate registers predictor) := by
  have same : (machine.withMicrostate registers predictor).readInternal? (wordAddress address) =
      machine.readInternal? (wordAddress address) := rfl
  unfold writeIo
  rw [same]
  split
  · dsimp only
    rw [writeInternal_withMicrostate]
  · rfl

theorem readPhysical_withMicrostate (address : PhysicalAddress) (width : Width) :
    (machine.withMicrostate registers predictor).readPhysical address width =
      ((machine.readPhysical address width).1,
        (machine.readPhysical address width).2.withMicrostate registers predictor) := by
  have sameRam : (machine.withMicrostate registers predictor).ram = machine.ram := rfl
  unfold readPhysical
  rw [readIoWord_withMicrostate, sameRam]
  split
  · split <;> rfl
  · rfl
  · rfl

theorem writePhysical_withMicrostate (address : PhysicalAddress) (value : Word) (width : Width) :
    (machine.withMicrostate registers predictor).writePhysical address value width =
      ((machine.writePhysical address value width).1,
        (machine.writePhysical address value width).2.withMicrostate registers predictor) := by
  have sameRam : (machine.withMicrostate registers predictor).ram = machine.ram := rfl
  unfold writePhysical
  rw [writeIo_withMicrostate, sameRam]
  split
  · split <;> rfl
  · rfl
  · rfl

theorem read_withMicrostate (mode : Mode) (cycle : MemoryCycle) (address : Word)
    (width : Width) :
    (machine.withMicrostate registers predictor).read mode cycle address width =
      ((machine.read mode cycle address width).1,
        (machine.read mode cycle address width).2.withMicrostate registers predictor) := by
  unfold read
  rw [translate_withMicrostate]
  split
  · rfl
  · generalize machine.translate mode cycle address = outcome
    obtain ⟨answer, translated⟩ := outcome
    cases answer with
    | error error => rfl
    | ok physical => exact readPhysical_withMicrostate _ _ _ _ _

theorem write_withMicrostate (mode : Mode) (address value : Word) (width : Width) :
    (machine.withMicrostate registers predictor).write mode address value width =
      ((machine.write mode address value width).1,
        (machine.write mode address value width).2.withMicrostate registers predictor) := by
  unfold write
  rw [translate_withMicrostate]
  split
  · rfl
  · generalize machine.translate mode .write address = outcome
    obtain ⟨answer, translated⟩ := outcome
    cases answer with
    | error error => rfl
    | ok physical => exact writePhysical_withMicrostate _ _ _ _ _ _

theorem loadSelected_withMicrostate (address : Word) (width : Width) (select : AccessSpace) :
    (machine.withMicrostate registers predictor).loadSelected address width select =
      ((machine.loadSelected address width select).1,
        (machine.loadSelected address width select).2.withMicrostate registers predictor) :=
  read_withMicrostate _ _ _ _ _ _ _

theorem storeSelected_withMicrostate (address value : Word) (width : Width)
    (select : AccessSpace) :
    (machine.withMicrostate registers predictor).storeSelected address value width select =
      ((machine.storeSelected address value width select).1,
        (machine.storeSelected address value width select).2.withMicrostate registers
          predictor) :=
  write_withMicrostate _ _ _ _ _ _ _

theorem read_withRegisters (mode : Mode) (cycle : MemoryCycle) (address : Word) (width : Width) :
    { machine with registers := registers }.read mode cycle address width =
      ((machine.read mode cycle address width).1,
        { (machine.read mode cycle address width).2 with registers := registers }) := by
  have accessed := machine.accessed_read mode cycle address width
  have kept : (machine.read mode cycle address width).2.predictor = machine.predictor := by
    rw [accessed.rest]
  calc
    _ = (machine.withMicrostate registers machine.predictor).read mode cycle address width := rfl
    _ = ((machine.read mode cycle address width).1,
          (machine.read mode cycle address width).2.withMicrostate registers
            machine.predictor) := read_withMicrostate _ _ _ _ _ _ _
    _ = _ := by
      rw [← kept]
      rfl

end Microstate

/-! ## Loads and stores of micro-operations -/

/-- The memory cycle of a load from a space. -/
def loadCycle : Space → MemoryCycle
  | .instruction => .instructionStream
  | .data => .read

theorem loadCycle_ne_fetch (space : Space) : loadCycle space ≠ .fetch := by
  cases space <;> decide

theorem accessed_loadSelected (machine : Machine δ) (address : Word) (width : Width)
    (select : AccessSpace) : Accessed machine (machine.loadSelected address width select).2 :=
  machine.accessed_read _ (loadCycle select.space) _ _

theorem mmr2_loadSelected (machine : Machine δ) (address : Word) (width : Width)
    (select : AccessSpace) :
    (machine.loadSelected address width select).2.mmu.mmr2 = machine.mmu.mmr2 :=
  mmr2_read (loadCycle_ne_fetch select.space) machine _ _ _

theorem frozen_loadSelected_of_ok {machine : Machine δ} {address value : Word} {width : Width}
    {select : AccessSpace}
    (succeeds : (machine.loadSelected address width select).1 = .ok value) :
    (machine.loadSelected address width select).2.mmu.frozen = machine.mmu.frozen :=
  frozen_read_of_ok succeeds

theorem mmr2_storeSelected_of_error {machine : Machine δ} {address value : Word} {width : Width}
    {select : AccessSpace} {error : AccessError}
    (refused : (machine.storeSelected address value width select).1 = .error error) :
    (machine.storeSelected address value width select).2.mmu.mmr2 = machine.mmu.mmr2 :=
  mmr2_write_of_error refused

theorem accessed_storeSelected_of_error {machine : Machine δ} {address value : Word}
    {width : Width} {select : AccessSpace} {error : AccessError}
    (refused : (machine.storeSelected address value width select).1 = .error error) :
    Accessed machine (machine.storeSelected address value width select).2 :=
  accessed_write_of_error refused

end Machine

end Pdp11
