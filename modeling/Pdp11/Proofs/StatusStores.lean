import Pdp11.Proofs.BusTraffic
import Pdp11.Proofs.ProgramShape
import Pdp11.Proofs.RegisterBanks

/-!
# Stores to the status word

The status word is also a device register, and a program can store a word to
it, or either byte. Such a store keeps the trace flag and is the last word on
the condition codes: it is the only result of its instruction, and the
evaluation of the flags that comes after it leaves the status word alone.
-/

namespace Pdp11

universe u

/-! ## Bits of a store -/

/-- The bit that a store at `address` brings to `position` of the word there,
unless it leaves that position alone. -/
def laneBit? {w : Nat} (address : BitVec w) (value : Word) (width : Width) (position : Nat) :
    Option Bool :=
  match width with
  | .word => some (value.getLsbD position)
  | .byte =>
    if isOdd address then
      if 8 ≤ position then some (value.getLsbD (position - 8)) else none
    else
      if position < 8 then some (value.getLsbD position) else none

theorem getLsbD_replaceByte {w : Nat} (old : Word) (address : BitVec w) (value : Word)
    {position : Nat} (inWord : position < 16) :
    (replaceByte old address (lowByte value)).getLsbD position =
      (laneBit? address value .byte position).getD (old.getLsbD position) := by
  unfold replaceByte laneBit? lowByte highByte
  cases isOdd address <;> by_cases low : position < 8
  all_goals
    have high : 8 ≤ position ↔ ¬ position < 8 := by omega
    have inByte : position - 8 < 8 := by omega
    simp [getLsbD_wordOfBytes, low, high, inByte]

namespace Psw

/-- The bits of a status word loaded from `word`; those of no field are lost. -/
theorem getLsbD_bits_ofBits (word : Word) {position : Nat} (inWord : position < 16) :
    (ofBits word).bits.getLsbD position =
      if 8 ≤ position ∧ position < 11 then false else word.getLsbD position := by
  have codes (below : position < 4) : word.getLsbD (0 + position) = word.getLsbD position := by
    rw [Nat.zero_add]
  rw [getLsbD_bits]
  simp only [ofBits, Mode.code_ofCode, ConditionCodes.code_ofCode, BitVec.getLsbD_extractLsb']
  grind

theorem getLsbD_bits_withTrace (psw : Psw) (trace : Bool) {position : Nat}
    (inWord : position < 16) :
    { psw with trace := trace }.bits.getLsbD position =
      if position = 4 then trace else psw.bits.getLsbD position := by
  rw [getLsbD_bits, getLsbD_bits]
  grind

/-- The status word after a store to it. -/
def stored (psw : Psw) (address : PhysicalAddress) (value : Word) (width : Width) : Psw :=
  let merged :=
    match width with
    | .word => value
    | .byte => replaceByte psw.bits address (lowByte value)
  { ofBits merged with trace := psw.trace }

/-- Beside the trace flag and the bits of no field, a store replaces its lane and
keeps the rest. -/
theorem getLsbD_bits_stored (psw : Psw) (address : PhysicalAddress) (value : Word) (width : Width)
    {position : Nat} (inWord : position < 16) :
    (psw.stored address value width).bits.getLsbD position =
      if position = 4 then psw.trace
      else if 8 ≤ position ∧ position < 11 then false
      else (laneBit? address value width position).getD (psw.bits.getLsbD position) := by
  unfold stored
  rw [getLsbD_bits_withTrace _ _ inWord, getLsbD_bits_ofBits _ inWord]
  cases width with
  | word => rfl
  | byte => rw [getLsbD_replaceByte psw.bits address value inWord]

end Psw

/-! ## Accesses -/

/-- Where the pages send a store. -/
def AcceptedStore.destination (store : AcceptedStore) (mmu : Mmu) : PhysicalAddress :=
  mmu.destination store.mode .write store.address

/-- The address of a word among the device registers. -/
def IsDeviceWord (address : PhysicalAddress) : Prop :=
  isOdd address = false ∧ ioPageBase ≤ address ∧ address ≤ physicalMask

instance (address : PhysicalAddress) : Decidable (IsDeviceWord address) :=
  inferInstanceAs (Decidable (_ ∧ _ ∧ _))

/-- Both bytes of such a word are device registers. -/
theorem IsDeviceWord.region {address : PhysicalAddress}
    (isWord : IsDeviceWord (wordAddress address)) (size : Nat) :
    Region.of address size = .ioPage := by
  obtain ⟨-, lowest, highest⟩ := isWord
  have base : ioPageBase.toNat = 0o17760000 := rfl
  have mask : physicalMask.toNat = 0o17777777 := rfl
  rw [BitVec.le_def, toNat_wordAddress] at lowest highest
  unfold Region.of
  rw [if_pos]
  rw [ge_iff_le, BitVec.le_def, toNat_and_physicalMask]
  omega

theorem Region.of_psw {address : PhysicalAddress} (isPsw : wordAddress address = pswAddress)
    (size : Nat) : Region.of address size = .ioPage := by
  have isWord : IsDeviceWord pswAddress := by decide
  rw [← isPsw] at isWord
  exact isWord.region size

variable {δ : Type u} [Bus δ]

namespace Machine

variable {machine after : Machine δ} {mode : Mode} {address value : Word} {width : Width}

theorem psw_of_write (stores : machine.write mode address value width = (.ok (), after))
    (lands : wordAddress (machine.mmu.destination mode .write address) = pswAddress) :
    after.psw = machine.psw.stored (machine.mmu.destination mode .write address) value width ∧
      after.pswWritten := by
  obtain ⟨-, -, writes⟩ := write_eq_ok_iff.mp stores
  have samePsw := (machine.accessed_translate mode .write address).psw
  have internal (reached : Machine δ) :
      reached.readInternal? pswAddress = some reached.psw.bits := if_pos rfl
  rw [writePhysical, Region.of_psw lands] at writes
  simp only [writeIo, lands, internal, writeInternal, if_true] at writes
  cases writes
  rw [← samePsw]
  exact ⟨rfl, rfl⟩

/-- No write changes the trace flag. -/
theorem trace_write (machine : Machine δ) (mode : Mode) (address value : Word) (width : Width) :
    (machine.write mode address value width).2.psw.trace = machine.psw.trace := by
  by_cases lands : wordAddress (machine.mmu.destination mode .write address) = pswAddress
  · cases outcome : machine.write mode address value width with
    | mk answer after =>
        cases answer with
        | error error =>
            have refused := machine.accessed_write_of_error (congrArg Prod.fst outcome)
            rw [outcome] at refused
            rw [refused.psw]
        | ok =>
            rw [(psw_of_write outcome lands).1]
            rfl
  · rw [(machine.status_write_of_ne lands value width).1]

end Machine

namespace MicroOp

/-- Only a load of the whole status word brings a trace flag with it. -/
theorem trace_effect {op : MicroOp} (keeps : op.switchesBanks = false) (datapath : Datapath δ) :
    (op.effect datapath).datapath.machine.psw.trace = datapath.machine.psw.trace := by
  cases op
  case load dst address width space =>
    rw [machine_load, (datapath.machine.accessed_loadSelected _ width space).psw]
  case store address src width space =>
    rw [machine_store]
    exact datapath.machine.trace_write _ _ _ _
  case loadPsw src rule =>
    have isMove : rule = .mtps := by simpa [switchesBanks] using keeps
    subst isMove
    simp only [effect, Datapath.proceed, Machine.loadedPsw, Psw.moved]
    split <;> rfl
  case stackGuard =>
    simp only [effect, Machine.guardStack]
    split
    · rfl
    · split <;> rfl
  case halt | wait | reset | div | evalFlags | setPriority =>
    simp only [effect, Datapath.proceed]
    split <;> rfl
  all_goals rfl

/-- Once the status word was stored to, the rest of an instruction leaves it alone. -/
theorem psw_effect_of_written {op : MicroOp} {datapath : Datapath δ}
    (ordinary : op.isStatusOp = false) (notStore : op.isStore = false)
    (written : datapath.machine.pswWritten) :
    (op.effect datapath).datapath.machine.psw = datapath.machine.psw := by
  cases uncommitted : op.commits with
  | false => exact (sameResults_of_commits_eq_false uncommitted datapath).psw
  | true =>
      cases op
      case evalFlags => simp only [effect, written, if_true, Datapath.proceed]
      case halt | wait | reset =>
        simp only [effect, Datapath.proceed]
        split <;> rfl
      all_goals contradiction

/-- Nothing but a store to the status word counts as one. -/
theorem exists_accepted_of_written {op : MicroOp} {datapath : Datapath δ}
    (unwritten : datapath.machine.pswWritten = false)
    (written : (op.effect datapath).datapath.machine.pswWritten) :
    ∃ store ∈ op.accepted datapath,
      wordAddress (store.destination datapath.machine.mmu) = pswAddress := by
  have isStore : op.isStore := by
    apply Decidable.byContradiction
    intro notStore
    rw [pswWritten_effect_of_not_store (Bool.eq_false_iff.mpr notStore), unwritten] at written
    contradiction
  cases op
  case store address src width space =>
    let mode := datapath.machine.selectedMode space.mode
    rw [machine_store] at written
    have lands : wordAddress (datapath.machine.mmu.destination mode .write
        (datapath.reg address)) = pswAddress := by
      apply Decidable.byContradiction
      intro apart
      have kept := (datapath.machine.status_write_of_ne apart (datapath.reg src) width).2
      rw [Machine.storeSelected, kept, unwritten] at written
      contradiction
    cases outcome : datapath.machine.storeSelected (datapath.reg address) (datapath.reg src) width
        space with
    | mk answer after =>
        rw [outcome] at written
        cases answer with
        | error error =>
            have refused := Machine.accessed_write_of_error (congrArg Prod.fst outcome)
            rw [← Machine.storeSelected, outcome] at refused
            rw [refused.rest, unwritten] at written
            contradiction
        | ok =>
            refine ⟨⟨mode, datapath.reg address, datapath.reg src, width⟩, ?_, lands⟩
            simp only [accepted, outcome]
            exact List.mem_cons_self
  all_goals contradiction

/-- A store to the status word goes on, with the status word merged. -/
theorem step_of_accepted {op : MicroOp} {datapath : Datapath δ} {store : AcceptedStore}
    (makes : store ∈ op.accepted datapath)
    (lands : wordAddress (store.destination datapath.machine.mmu) = pswAddress) :
    ∃ next, datapath.Step op next ∧ op.isStore ∧ next.machine.pswWritten ∧
      next.machine.psw =
        datapath.machine.psw.stored (store.destination datapath.machine.mmu) store.value
          store.width := by
  cases op
  case store address src width space =>
    simp only [accepted] at makes
    split at makes
    · rename_i after outcome
      rw [List.mem_singleton] at makes
      subst makes
      have step := Datapath.step_store outcome
      have status := Machine.psw_of_write outcome lands
      exact ⟨_, step, rfl, status.2, status.1⟩
    · contradiction
  all_goals contradiction

end MicroOp

/-! ## Runs -/

namespace Datapath

variable {datapath : Datapath δ} {ops : List MicroOp}

/-- The run of `ops` comes to `reached` and makes `store` there, to the status
word. -/
def StoresPsw (datapath : Datapath δ) (ops : List MicroOp) (reached : Datapath δ)
    (store : AcceptedStore) : Prop :=
  ∃ before op rest, ops = before ++ op :: rest ∧ Steps datapath before reached ∧
    store ∈ op.accepted reached ∧
    wordAddress (store.destination reached.machine.mmu) = pswAddress

/-- A run that counts as having stored to the status word has done so. -/
theorem exists_storesPsw (index : Nat) (unwritten : datapath.machine.pswWritten = false)
    (written : (datapath.run index ops).2.pswWritten) :
    ∃ reached store, StoresPsw datapath ops reached store := by
  induction ops generalizing datapath index with
  | nil =>
      rw [run, unwritten] at written
      contradiction
  | cons op rest ih =>
      cases writes : (op.effect datapath).datapath.machine.pswWritten with
      | true =>
          obtain ⟨store, makes, lands⟩ := MicroOp.exists_accepted_of_written unwritten writes
          exact ⟨datapath, store, [], op, rest, rfl, .nil datapath, makes, lands⟩
      | false =>
          have still : (op.effect datapath).commit.machine.pswWritten = false := writes
          rw [run_cons] at written
          split at written <;> rename_i disposition
          · obtain ⟨reached, store, before, storing, after, rfl, steps, makes, lands⟩ :=
              ih _ still written
            exact ⟨reached, store, op :: before, storing, after, rfl,
              .cons ⟨disposition, rfl⟩ steps, makes, lands⟩
          · rw [still] at written
            contradiction
          · change (op.effect datapath).commit.machine.pswWritten at written
            rw [still] at written
            contradiction

/-- After a store to the status word nothing touches it. -/
theorem psw_run_of_written (ordinary : ∀ op ∈ ops, op.isStatusOp = false)
    (noStore : ∀ op ∈ ops, op.isStore = false) (index : Nat)
    (written : datapath.machine.pswWritten) :
    (datapath.run index ops).2.psw = datapath.machine.psw ∧
      (datapath.run index ops).2.pswWritten := by
  apply run_preserves (fun machine => machine.psw = datapath.machine.psw ∧ machine.pswWritten)
  · rintro op opMem reached ⟨samePsw, reachedWritten⟩
    refine ⟨?_, op.pswWritten_effect reachedWritten⟩
    exact (MicroOp.psw_effect_of_written (ordinary op opMem) (noStore op opMem)
      reachedWritten).trans samePsw
  · rintro op opMem reached kind raises machine status
    exact status
  · exact ⟨rfl, written⟩

end Datapath

/-! ## Instructions -/

namespace Instruction

variable (instruction : Instruction)

/-- A program with a store is about the status word in no other way. -/
theorem isStatusOp_of_isStore {op : MicroOp} (opMem : op ∈ instruction.program)
    (stores : op.isStore) : ∀ op ∈ instruction.program, op.isStatusOp = false := by
  have noStatus : instruction.statusOps = [] := by
    apply Decidable.byContradiction
    intro about
    rw [instruction.isStore_of_statusOps about op opMem] at stores
    contradiction
  intro other otherMem
  apply Bool.eq_false_iff.mpr
  intro isStatusOp
  have among := instruction.statusOpsAmong_program other otherMem isStatusOp
  rw [noStatus] at among
  contradiction

/-- A store to the status word finds the status word that the instruction started
with, and is the last to change it. -/
theorem psw_run_of_storesPsw {begun reached : Datapath δ} {store : AcceptedStore}
    (stores : begun.StoresPsw instruction.program reached store) (index : Nat) :
    let after := (begun.run index instruction.program).2
    reached.machine.psw = begun.machine.psw ∧ after.pswWritten ∧
      after.psw =
        reached.machine.psw.stored (store.destination reached.machine.mmu) store.value
          store.width := by
  obtain ⟨before, op, rest, split, steps, makes, lands⟩ := stores
  obtain ⟨next, step, isStore, written, merged⟩ := MicroOp.step_of_accepted makes lands
  have order := instruction.commits_last
  have ordinary := instruction.isStatusOp_of_isStore (split ▸ by simp) isStore
  rw [split] at order ordinary ⊢
  have canRaise : op.canRaise := by
    cases op <;> first | rfl | contradiction
  have samePsw := (steps.sameResults (order.uncommitted_before canRaise)).psw
  have noStore : ∀ later ∈ rest, later.isStore = false := by
    intro later laterMem
    have settled := order.settled_of_isStore isStore later laterMem
    cases later <;> first | rfl | contradiction
  rw [steps.run_append, step.run_cons, ← merged]
  have last := Datapath.psw_run_of_written
    (fun later laterMem => ordinary later (by simp [laterMem])) noStore
    (index + before.length + 1) written
  exact ⟨samePsw, last.2, last.1⟩

end Instruction

namespace Machine

/-- Only a return from an interrupt changes the trace flag. A store to the status
word replaces the bits of its lane in the status word the instruction started
with, and what comes after it in the instruction, its condition codes among
it, changes nothing more. -/
theorem execute_storesPsw (machine : Machine δ) (instruction : Instruction) :
    ∃ pipeline, instruction.encode = .ok pipeline ∧
      let after := (machine.execute pipeline).machine
      let begun : Datapath δ := { machine := machine, signals := .quiet }
      (instruction.opcode ≠ .rti → instruction.opcode ≠ .rtt →
        after.psw.trace = machine.psw.trace) ∧
      (∀ reached store, begun.StoresPsw pipeline.ops reached store →
        reached.machine.psw = machine.psw ∧
        ∀ position, position < 16 →
          after.psw.bits.getLsbD position =
            if position = 4 then machine.psw.trace
            else if 8 ≤ position ∧ position < 11 then false
            else
              (laneBit? (store.destination reached.machine.mmu) store.value store.width
                position).getD (reached.machine.psw.bits.getLsbD position)) ∧
      (machine.pswWritten = false →
        (after.pswWritten ↔ ∃ reached store, begun.StoresPsw pipeline.ops reached store)) := by
  obtain ⟨pipeline, encoded, program⟩ := instruction.exists_encode
  refine ⟨pipeline, encoded, ?_⟩
  intro after begun
  have stored {reached : Datapath δ} {store : AcceptedStore}
      (stores : begun.StoresPsw pipeline.ops reached store) :
      reached.machine.psw = machine.psw ∧ after.pswWritten ∧
        after.psw =
          reached.machine.psw.stored (store.destination reached.machine.mmu) store.value
            store.width := by
    have run := instruction.psw_run_of_storesPsw (program ▸ stores) 0
    rw [← program] at run
    exact run
  refine ⟨fun notRti notRtt => ?_, fun reached store stores => ?_, fun unwritten => ?_⟩
  · have keeps := instruction.switchesBanks_program notRti notRtt
    apply Datapath.run_preserves (fun reached => reached.psw.trace = machine.psw.trace)
    · intro op opMem datapath same
      exact (MicroOp.trace_effect (keeps op (program ▸ opMem)) datapath).trans same
    · exact fun _ _ _ _ _ _ same => same
    · rfl
  · obtain ⟨samePsw, -, merged⟩ := stored stores
    refine ⟨samePsw, fun position inWord => ?_⟩
    rw [merged, Psw.getLsbD_bits_stored _ _ _ _ inWord, samePsw]
  · constructor
    · exact Datapath.exists_storesPsw 0 unwritten
    · rintro ⟨reached, store, stores⟩
      exact (stored stores).2.1

/-- A kernel at priority 7, all condition codes clear. -/
def atHighPriority : Machine NoDevices :=
  { ofConfig Config.default .none with psw := .ofBits 0o340 }

/-- `MOVB #377, @#177776` -/
def moveByteToStatus : Instruction where
  pc := 0
  word := 0o112737
  opcode := .mov
  extension := [0o377, 0o177776]

/-- The byte sets every condition code, as the flags of the move do not; the trace
flag stays clear. -/
theorem storesPsw_moveByteToStatus :
    ∃ pipeline, moveByteToStatus.encode = .ok pipeline ∧
      let after := (atHighPriority.execute pipeline).machine
      after.psw.bits = 0o357 ∧ after.psw.trace = false ∧
        ∃ reached store,
          Datapath.StoresPsw { machine := atHighPriority, signals := .quiet } pipeline.ops
            reached store ∧ after.psw.bits.getLsbD 8 = false := by
  obtain ⟨pipeline, encoded, trace, merges, counts⟩ :=
    execute_storesPsw atHighPriority moveByteToStatus
  have program : pipeline.ops = moveByteToStatus.program := Pipeline.ofOps_eq_ok_iff.mp encoded
  have ran : (atHighPriority.execute pipeline).machine.psw.bits = 0o357 ∧
      (atHighPriority.execute pipeline).machine.pswWritten := by
    simp only [execute, program]
    exact ⟨rfl, rfl⟩
  obtain ⟨reached, store, stores⟩ := (counts rfl).mp ran.2
  obtain ⟨-, bits⟩ := merges reached store stores
  exact ⟨pipeline, encoded, ran.1, trace (by decide) (by decide), reached, store, stores,
    bits 8 (by decide)⟩

end Machine

end Pdp11
