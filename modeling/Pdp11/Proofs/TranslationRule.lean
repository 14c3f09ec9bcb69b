import Pdp11.Proofs.UnitHistory

/-!
# The rule of translation

With relocation on, an access selects one page by its mode, its space and the
upper bits of its address. The page lets it through, to one place and with one
mark, or refuses it for every reason there is. Nothing else in the unit
changes, save that MMR2 follows the fetches.
-/

namespace Pdp11

/-- Position in the order of reporting, zero for the cause reported first. -/
def AbortCause.rank : AbortCause → Nat
  | nonResident => 0
  | pageLength => 1
  | readOnly => 2

namespace Mmr0

/-- Where software finds the flags of the register. -/
theorem getLsbD_bits (status : Mmr0) :
    status.bits.getLsbD 15 = status.nonResident ∧ status.bits.getLsbD 14 = status.pageLength ∧
      status.bits.getLsbD 13 = status.readOnly ∧ status.bits.getLsbD 12 = status.trapped ∧
      status.bits.getLsbD 9 = status.trapEnabled ∧ status.bits.getLsbD 8 = status.maintenance ∧
      status.bits.getLsbD 0 = status.enabled := by
  simp only [bits, BitVec.getLsbD_setWidth, BitVec.getLsbD_append, BitVec.getLsbD_ofBool]
  refine ⟨?_, ?_, ?_, ?_, ?_, ?_, ?_⟩ <;> rfl

/-- The bit of `cause` is set in the register. -/
def Shows (status : Mmr0) (cause : AbortCause) : Prop :=
  status.bits &&& cause.mmr0Bit ≠ 0

theorem shows_iff (status : Mmr0) (cause : AbortCause) :
    status.Shows cause ↔
      match cause with
      | .nonResident => status.nonResident
      | .pageLength => status.pageLength
      | .readOnly => status.readOnly := by
  have masked (position : Nat) (below : position < 16) :
      status.bits &&& BitVec.twoPow 16 position ≠ 0 ↔ status.bits.getLsbD position := by
    rw [BitVec.and_twoPow]
    cases status.bits.getLsbD position with
    | false => simp
    | true =>
        have set : (BitVec.twoPow 16 position).getLsbD position := by simp [below]
        simp only [if_true, ne_eq, iff_true]
        intro zero
        simp [zero] at set
  obtain ⟨nonResident, pageLength, readOnly, -⟩ := status.getLsbD_bits
  cases cause with
  | nonResident => exact (masked 15 (by decide)).trans (by rw [nonResident])
  | pageLength => exact (masked 14 (by decide)).trans (by rw [pageLength])
  | readOnly => exact (masked 13 (by decide)).trans (by rw [readOnly])

end Mmr0

/-! ## What a page lets through -/

namespace PageDescriptor

/-- The access control field lets a read through, or a write if `write` is set.
A page that takes no first write may still take a later one. -/
def Admits (descriptor : PageDescriptor) (model : Model) : (write : Bool) → Prop
  | false => descriptor.access ∉ absentFields
  | true =>
    descriptor.access ∈ model.writableFields ∨ descriptor.access ∈ [4, 5] ∧ descriptor.written

/-- `block` is on the side of the length where the page lies. -/
def Contains (descriptor : PageDescriptor) (block : BitVec 7) : Prop :=
  if descriptor.expandsDown then descriptor.length ≤ block else block ≤ descriptor.length

/-- `cause` is a reason to refuse an access to `block`. -/
def Refuses (descriptor : PageDescriptor) (model : Model) (block : BitVec 7) (write : Bool) :
    AbortCause → Prop
  | .nonResident => descriptor.access ∈ absentFields
  | .pageLength => ¬ descriptor.Contains block
  | .readOnly => descriptor.access ∉ absentFields ∧ write ∧ ¬ descriptor.Admits model true

/-- The page asks for a trap after an access that it lets through. -/
def AsksTrap (descriptor : PageDescriptor) (model : Model) (write : Bool) : Prop :=
  model = .pdp1170 ∧
    (descriptor.access ∈ [1, 4] ∨
      descriptor.access = 5 ∧ write ∧ descriptor.written = false)

instance (descriptor : PageDescriptor) (model : Model) (write : Bool) :
    Decidable (descriptor.Admits model write) :=
  match write with
  | false => inferInstanceAs (Decidable (¬ _))
  | true => inferInstanceAs (Decidable (_ ∨ _))

instance (descriptor : PageDescriptor) (model : Model) (write : Bool) :
    Decidable (descriptor.AsksTrap model write) :=
  inferInstanceAs (Decidable (_ ∧ _))

/-- The verdict on an access, first of all by whether the page is there. -/
theorem verdict_eq (descriptor : PageDescriptor) (model : Model) (write : Bool) :
    descriptor.verdict model write =
      if descriptor.access ∈ absentFields then .abort .nonResident
      else if ¬ descriptor.Admits model write then .abort .readOnly
      else if descriptor.AsksTrap model write then .trap
      else .allow := by
  -- Neither the length nor the accessed mark matters, so a finite table remains.
  obtain ⟨length, accessed, written, expandsDown, access⟩ := descriptor
  let bare (access : BitVec 3) (written : Bool) : PageDescriptor :=
    { loaded 0 with access := access, written := written }
  change (bare access written).verdict model write =
    if (bare access written).access ∈ absentFields then .abort .nonResident
    else if ¬ (bare access written).Admits model write then .abort .readOnly
    else if (bare access written).AsksTrap model write then .trap
    else .allow
  cases model <;>
    revert access written write <;>
    decide

variable {descriptor : PageDescriptor} {model : Model} {block : BitVec 7} {write : Bool}

theorem not_mem_absentFields_of_admits (admits : descriptor.Admits model true) :
    descriptor.access ∉ absentFields := by
  intro absent
  simp only [absentFields, List.mem_cons, List.not_mem_nil, or_false] at absent
  rcases absent with field | field | field <;>
    cases model <;>
    simp [Admits, Model.writableFields, field] at admits

/-- The list of causes holds every reason to refuse an access. -/
theorem mem_abortCauses_iff {cause : AbortCause} :
    cause ∈ descriptor.abortCauses model block write ↔
      descriptor.Refuses model block write cause := by
  rw [abortCauses, List.mem_filter]
  cases cause with
  | pageLength =>
      simp only [AbortCause.all, excludes, Refuses, Contains]
      split <;> simp
  | nonResident =>
      have first : descriptor.verdict model write = .abort .nonResident ↔
          descriptor.access ∈ absentFields := by
        rw [verdict_eq]
        grind
      simp [AbortCause.all, Refuses, first]
  | readOnly =>
      have last : descriptor.verdict model write = .abort .readOnly ↔
          descriptor.access ∉ absentFields ∧ ¬ descriptor.Admits model write := by
        rw [verdict_eq]
        grind
      cases write with
      | false => simp [AbortCause.all, Refuses, last, Admits]
      | true => simp [AbortCause.all, Refuses, last]

theorem verdict_eq_trap_iff (admits : descriptor.Admits model write) :
    descriptor.verdict model write = .trap ↔ descriptor.AsksTrap model write := by
  have present : descriptor.access ∉ absentFields := by
    cases write with
    | false => exact admits
    | true => exact not_mem_absentFields_of_admits admits
  rw [verdict_eq, if_neg present, if_neg (Classical.not_not.mpr admits)]
  split <;> simp_all

/-- There is no reason exactly where the field admits the access and the page
reaches the block. -/
theorem abortCauses_eq_nil_iff :
    descriptor.abortCauses model block write = [] ↔
      descriptor.Admits model write ∧ descriptor.Contains block := by
  rw [List.eq_nil_iff_forall_not_mem]
  simp only [mem_abortCauses_iff]
  constructor
  · intro unrefused
    have present := unrefused .nonResident
    have reached := Classical.not_not.mp (unrefused .pageLength)
    have permitted := unrefused .readOnly
    cases write with
    | false => exact ⟨present, reached⟩
    | true =>
        refine ⟨Decidable.byContradiction fun refused => ?_, reached⟩
        exact permitted ⟨present, rfl, refused⟩
  · rintro ⟨admits, reached⟩ cause refused
    cases cause with
    | pageLength => exact refused reached
    | nonResident =>
        cases write with
        | false => exact admits refused
        | true => exact not_mem_absentFields_of_admits admits refused
    | readOnly =>
        obtain ⟨-, isWrite, forbidden⟩ := refused
        rw [isWrite] at admits
        exact forbidden admits

/-- The cause that is reported comes first among the reasons there are. -/
theorem rank_le_of_refuses {cause other : AbortCause} {others : List AbortCause}
    (causes : descriptor.abortCauses model block write = cause :: others)
    (refused : descriptor.Refuses model block write other) : cause.rank ≤ other.rank := by
  have ordered : AbortCause.all.Pairwise fun first second => first.rank ≤ second.rank := by
    decide
  have sublist : (cause :: others).Sublist AbortCause.all := causes ▸ List.filter_sublist
  have leads := List.pairwise_cons.mp (ordered.sublist sublist)
  rw [← mem_abortCauses_iff, causes] at refused
  rcases List.mem_cons.mp refused with rfl | later
  · exact Nat.le_refl _
  · exact leads.1 other later

end PageDescriptor

/-! ## What becomes of an access -/

namespace Mmu

/-- Bit 4 of MMR3 asks for twenty-two-bit addresses, which only this model has. -/
def WideAddresses (mmu : Mmu) : Prop :=
  mmu.model = .pdp1170 ∧ mmu.mmr3.getLsbD 4

instance (mmu : Mmu) : Decidable mmu.WideAddresses :=
  inferInstanceAs (Decidable (_ ∧ _))

/-- A bit of MMR3 for each mode that is in use gives its data pages of their own. -/
def SplitSpaces (mmu : Mmu) (mode : Mode) : Prop :=
  (mode = .kernel ∧ mmu.mmr3.getLsbD 2) ∨ (mode = .supervisor ∧ mmu.mmr3.getLsbD 1) ∨
    (mode = .user ∧ mmu.mmr3.getLsbD 0)

/-- `page` is the one that the mode, the upper bits of the address and the space
of an access select. -/
structure Selects (mmu : Mmu) (mode : Mode) (cycle : MemoryCycle) (address : Word)
    (page : PageId) : Prop where
  ofMode : page.mode = mode
  number : page.number.toNat = address.toNat / 0o20000
  space : page.space = .data ↔ (cycle = .read ∨ cycle = .write) ∧ mmu.SplitSpaces mode

/-- The physical address that lies as far from the base of `page` as `address`
lies from the start of the page. -/
def place (mmu : Mmu) (page : PageId) (address : Word) : Nat :=
  let sum := (mmu.base page).toNat * 64 + address.toNat % 0o20000
  if mmu.WideAddresses then sum % 0o20000000
  else
    let narrow := sum % 0o1000000
    if 0o760000 ≤ narrow then narrow - 0o760000 + 0o17760000 else narrow

/-- MMR2 after an access. -/
def followed (mmu : Mmu) (cycle : MemoryCycle) (address : Word) : Word :=
  if cycle = .fetch ∧ mmu.frozen = false then address else mmu.mmr2

/-- The page lets an access through: what it answers and what it leaves. -/
structure LetsThrough (mmu : Mmu) (page : PageId) (cycle : MemoryCycle) (address : Word)
    (translation : Translation) (after : Mmu) : Prop where
  physical : translation.physical.toNat = mmu.place page address
  inRange : translation.physical.toNat < 0o20000000
  outsideGap : ¬ mmu.WideAddresses → translation.physical.toNat < 0o760000 ∨
    0o17760000 ≤ translation.physical.toNat
  trap : translation.trap ↔
    (mmu.descriptor page).AsksTrap mmu.model cycle.isWrite ∧ mmu.mmr0.trapEnabled
  marks : ∀ asked, after.pages.get asked =
    if asked = page then
      { mmu.pages.get page with
        descriptor :=
          { mmu.descriptor page with
            accessed := true
            written := (mmu.descriptor page).written || cycle.isWrite } }
    else mmu.pages.get asked
  trapped : after.mmr0.trapped ↔ mmu.mmr0.trapped ∨
    (mmu.descriptor page).AsksTrap mmu.model cycle.isWrite ∧ mmu.frozen = false
  rest : after =
    { mmu with
      pages := after.pages
      mmr0 := { mmu.mmr0 with trapped := after.mmr0.trapped }
      mmr2 := mmu.followed cycle address }

/-- The page refuses an access for `cause`, and for others that rank behind it. -/
structure Aborts (mmu : Mmu) (page : PageId) (cycle : MemoryCycle) (address : Word)
    (cause : AbortCause) (after : Mmu) : Prop where
  refused : (mmu.descriptor page).Refuses mmu.model (address.extractLsb' 6 7) cycle.isWrite cause
  first : ∀ other,
    (mmu.descriptor page).Refuses mmu.model (address.extractLsb' 6 7) cycle.isWrite other →
      cause.rank ≤ other.rank
  rest : after =
    { mmu with
      mmr0 :=
        { mmu.mmr0 with
          nonResident := after.mmr0.nonResident
          pageLength := after.mmr0.pageLength
          readOnly := after.mmr0.readOnly
          page := after.mmr0.page }
      mmr2 := mmu.followed cycle address }
  kept : mmu.frozen → after.mmr0 = mmu.mmr0
  causes : mmu.frozen = false → ∀ other, after.mmr0.Shows other ↔
    (mmu.descriptor page).Refuses mmu.model (address.extractLsb' 6 7) cycle.isWrite other
  page : mmu.frozen = false → after.mmr0.page = page

variable {mmu : Mmu} {mode : Mode} {cycle : MemoryCycle} {address : Word} {page : PageId}

theorem extended_iff : mmu.extended ↔ mmu.WideAddresses := by
  rw [extended, Bool.and_eq_true, decide_eq_true_iff, WideAddresses]

theorem splitsSpaces_iff : mmu.splitsSpaces mode ↔ mmu.SplitSpaces mode := by
  cases mode <;> simp [splitsSpaces, SplitSpaces]

theorem selects_pageOf (mmu : Mmu) (mode : Mode) (cycle : MemoryCycle) (address : Word) :
    mmu.Selects mode cycle address (mmu.pageOf mode cycle address) where
  ofMode := rfl
  number := by
    have below := address.isLt
    rw [pageOf, BitVec.extractLsb'_toNat, Nat.shiftRight_eq_div_pow]
    omega
  space := by
    unfold pageOf
    rw [← splitsSpaces_iff]
    cases mmu.splitsSpaces mode <;> cases cycle <;> simp [MemoryCycle.space]

/-- A translation looks at the fetch before anything else. -/
theorem noteFetch_eq (mmu : Mmu) (cycle : MemoryCycle) (address : Word) :
    mmu.noteFetch cycle address = { mmu with mmr2 := mmu.followed cycle address } := by
  unfold noteFetch followed
  cases mmu.frozen <;> by_cases fetches : cycle = .fetch <;> simp [fetches]

theorem toNat_physicalAddress (mmu : Mmu) (page : PageId) (address : Word) :
    (mmu.physicalAddress page address).toNat = mmu.place page address := by
  rw [physicalAddress, toNat_physicalOfSum, toNat_relocatedSum, place]
  simp only [extended_iff]
  split
  · rfl
  · split <;> split <;> omega

theorem place_lt (mmu : Mmu) (page : PageId) (address : Word) :
    mmu.place page address < 0o20000000 := by
  unfold place
  dsimp only
  split
  · omega
  · split <;> omega

/-- Eighteen-bit addresses leave a gap below the device registers. -/
theorem place_outside_gap (narrow : ¬ mmu.WideAddresses) (page : PageId) (address : Word) :
    mmu.place page address < 0o760000 ∨ 0o17760000 ≤ mmu.place page address := by
  unfold place
  simp only [narrow, if_false]
  split <;> omega

theorem translate_eq_relocate (on : mmu.enabled) (mode : Mode) (cycle : MemoryCycle)
    (address : Word) :
    mmu.translate mode cycle address =
      { mmu with mmr2 := mmu.followed cycle address }.relocate mode cycle address := by
  rw [translate, noteFetch_eq]
  exact if_pos on

/-- A page that has no reason against an access lets it through. -/
theorem translate_of_allowed (on : mmu.enabled)
    (allows : (mmu.descriptor (mmu.pageOf mode cycle address)).abortCauses mmu.model
      (address.extractLsb' 6 7) cycle.isWrite = []) :
    ∃ translation, (mmu.translate mode cycle address).1 = .ok translation ∧
      mmu.LetsThrough (mmu.pageOf mode cycle address) cycle address translation
        (mmu.translate mode cycle address).2 := by
  have admits := (PageDescriptor.abortCauses_eq_nil_iff.mp allows).1
  have traps := PageDescriptor.verdict_eq_trap_iff admits
  let page := mmu.pageOf mode cycle address
  let asks := decide ((mmu.descriptor page).verdict mmu.model cycle.isWrite = .trap)
  have outcome : mmu.translate mode cycle address =
      (.ok
        { physical := mmu.physicalAddress page address
          trap := asks && mmu.mmr0.trapEnabled },
        { mmu with mmr2 := mmu.followed cycle address }.markAccess page cycle.isWrite asks) := by
    rw [translate_eq_relocate on]
    unfold relocate
    dsimp only
    split
    · rename_i causes
      exact absurd (allows.symm.trans causes) (List.cons_ne_nil _ _).symm
    · rfl
  rw [outcome]
  refine ⟨_, rfl, ?_⟩
  constructor
  · exact mmu.toNat_physicalAddress page address
  · rw [toNat_physicalAddress]
    exact mmu.place_lt page address
  · intro narrow
    rw [toNat_physicalAddress]
    exact place_outside_gap narrow page address
  · simp [asks, traps, page]
  · intro asked
    simp only [markAccess, PageTable.get_set, eq_comm (a := asked)]
    rfl
  · simp [markAccess, asks, traps, page, frozen]
  · rfl

/-- A page that has reasons against an access refuses it for the first. -/
theorem translate_of_refused (on : mmu.enabled) {cause : AbortCause} {others : List AbortCause}
    (causes : (mmu.descriptor (mmu.pageOf mode cycle address)).abortCauses mmu.model
      (address.extractLsb' 6 7) cycle.isWrite = cause :: others) :
    (mmu.translate mode cycle address).1 = .error cause ∧
      mmu.Aborts (mmu.pageOf mode cycle address) cycle address cause
        (mmu.translate mode cycle address).2 := by
  let page := mmu.pageOf mode cycle address
  have outcome : mmu.translate mode cycle address =
      (.error cause,
        if mmu.frozen then { mmu with mmr2 := mmu.followed cycle address }
        else
          { mmu with
            mmr0 := mmu.mmr0.latched (cause :: others) page
            mmr2 := mmu.followed cycle address }) := by
    rw [translate_eq_relocate on]
    unfold relocate
    dsimp only
    split
    · rename_i found
      cases causes.symm.trans found
      rfl
    · rename_i allows
      exact absurd (causes.symm.trans allows) (List.cons_ne_nil _ _)
  have listed (other : AbortCause) : other ∈ cause :: others ↔
      (mmu.descriptor page).Refuses mmu.model (address.extractLsb' 6 7) cycle.isWrite other := by
    rw [← causes]
    exact PageDescriptor.mem_abortCauses_iff
  rw [outcome]
  refine ⟨rfl, ?_⟩
  constructor
  · exact (listed cause).mp List.mem_cons_self
  · intro other refused
    exact PageDescriptor.rank_le_of_refuses causes refused
  · dsimp only
    split <;> rfl
  · intro latched
    rw [if_pos latched]
  · intro unlatched other
    rw [if_neg (Bool.eq_false_iff.mp unlatched), Mmr0.shows_iff, ← listed]
    cases other <;> exact decide_eq_true_iff
  · intro unlatched
    rw [if_neg (Bool.eq_false_iff.mp unlatched)]
    rfl

/-- What becomes of an access while relocation is on. -/
theorem translate_of_enabled (on : mmu.enabled) (mode : Mode) (cycle : MemoryCycle)
    (address : Word) :
    let outcome := mmu.translate mode cycle address
    ∃ page, mmu.Selects mode cycle address page ∧
      ((∃ translation, outcome.1 = .ok translation) ↔
        (mmu.descriptor page).Admits mmu.model cycle.isWrite ∧
          (mmu.descriptor page).Contains (address.extractLsb' 6 7)) ∧
      (∀ translation, outcome.1 = .ok translation →
        mmu.LetsThrough page cycle address translation outcome.2) ∧
      ∀ cause, outcome.1 = .error cause → mmu.Aborts page cycle address cause outcome.2 := by
  intro outcome
  refine ⟨mmu.pageOf mode cycle address, mmu.selects_pageOf mode cycle address, ?_⟩
  rw [← PageDescriptor.abortCauses_eq_nil_iff]
  cases causes : (mmu.descriptor (mmu.pageOf mode cycle address)).abortCauses mmu.model
      (address.extractLsb' 6 7) cycle.isWrite with
  | nil =>
      obtain ⟨translation, succeeds, passes⟩ := translate_of_allowed on causes
      refine ⟨iff_of_true ⟨translation, succeeds⟩ rfl, ?_, ?_⟩
      · intro other found
        cases succeeds.symm.trans found
        exact passes
      · intro cause fails
        cases succeeds.symm.trans fails
  | cons first others =>
      obtain ⟨fails, aborts⟩ := translate_of_refused on causes
      refine ⟨iff_of_false ?_ (List.cons_ne_nil _ _), ?_, ?_⟩
      · rintro ⟨translation, succeeds⟩
        cases fails.symm.trans succeeds
      · intro translation succeeds
        cases fails.symm.trans succeeds
      · intro cause found
        cases fails.symm.trans found
        exact aborts

/-- A unit with one page, a stack of user data that reaches the device registers
and that no one may write. -/
def readOnlyStack : Mmu :=
  { Mmu.new .pdp1170 with
    mmr0 := { Mmr0.cleared with enabled := true }
    mmr3 := 1
    pages := PageTable.cleared.set { mode := .user, space := .data, number := 1 }
      { descriptor := .loaded 0o74012, base := 0o7600 } }

/-- The same unit with twenty-two-bit addresses. -/
def readOnlyWideStack : Mmu :=
  { readOnlyStack with mmr3 := 0o21 }

/-- A write below the end of the page has two reasons against it and meets the first; a
read at the top of the page finds the status word, or memory if addresses are wide. -/
theorem translate_readOnlyStack :
    readOnlyStack.enabled ∧
      (∃ page, readOnlyStack.Selects .user .write 0o20000 page ∧
        readOnlyStack.Aborts page .write 0o20000 .pageLength
          (readOnlyStack.translate .user .write 0o20000).2) ∧
      (∃ page, readOnlyStack.Selects .user .read 0o37776 page ∧
        readOnlyStack.LetsThrough page .read 0o37776 { physical := pswAddress, trap := false }
          (readOnlyStack.translate .user .read 0o37776).2) ∧
      readOnlyWideStack.WideAddresses ∧
      ∃ page, readOnlyWideStack.Selects .user .read 0o37776 page ∧
        readOnlyWideStack.LetsThrough page .read 0o37776 { physical := 0o777776, trap := false }
          (readOnlyWideStack.translate .user .read 0o37776).2 := by
  have on : readOnlyStack.enabled := rfl
  have wideOn : readOnlyWideStack.enabled := rfl
  obtain ⟨written, selects, -, -, aborts⟩ := translate_of_enabled on .user .write 0o20000
  obtain ⟨asked, selectsRead, -, passes, -⟩ := translate_of_enabled on .user .read 0o37776
  obtain ⟨other, selectsWide, -, reaches, -⟩ := translate_of_enabled wideOn .user .read 0o37776
  exact ⟨on, ⟨written, selects, aborts .pageLength rfl⟩, ⟨asked, selectsRead, passes _ rfl⟩,
    ⟨rfl, rfl⟩, other, selectsWide, reaches _ rfl⟩

end Mmu

end Pdp11
