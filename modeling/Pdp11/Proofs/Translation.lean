import Pdp11.Relocation.Translation

/-!
# What a translation keeps

Translating an address may mark the page, record an abort and, on a fetch,
move MMR2. The pages themselves, MMR1, MMR3 and the relocation switch stay.
-/

namespace Pdp11

/-- Two page tables with the same pages, but for the marks of accesses. -/
def PageTable.SameButMarks (first second : PageTable) : Prop :=
  ∀ page, (second.get page).base = (first.get page).base ∧
    (second.get page).descriptor.unmarked = (first.get page).descriptor.unmarked

namespace PageTable.SameButMarks

variable {first second third : PageTable}

theorem refl (table : PageTable) : SameButMarks table table :=
  fun _ => ⟨rfl, rfl⟩

theorem trans (head : SameButMarks first second) (tail : SameButMarks second third) :
    SameButMarks first third :=
  fun page => ⟨(tail page).1.trans (head page).1, (tail page).2.trans (head page).2⟩

theorem set_marked (table : PageTable) (page : PageId) (write : Bool) :
    SameButMarks table (table.set page
      { table.get page with descriptor := (table.get page).descriptor.marked write }) := by
  intro asked
  rw [get_set]
  split
  · rename_i same
    subst same
    exact ⟨rfl, rfl⟩
  · exact ⟨rfl, rfl⟩

end PageTable.SameButMarks

namespace Mmu

/-- What translations, successful or not, keep of the unit. -/
structure Translated (before after : Mmu) : Prop where
  model : after.model = before.model
  pages : before.pages.SameButMarks after.pages
  enabled : after.enabled = before.enabled
  mmr1 : after.mmr1 = before.mmr1
  mmr3 : after.mmr3 = before.mmr3

namespace Translated

variable {first second third : Mmu}

theorem refl (mmu : Mmu) : Translated mmu mmu where
  model := rfl
  pages := .refl _
  enabled := rfl
  mmr1 := rfl
  mmr3 := rfl

theorem trans (head : Translated first second) (tail : Translated second third) :
    Translated first third where
  model := tail.model.trans head.model
  pages := head.pages.trans tail.pages
  enabled := tail.enabled.trans head.enabled
  mmr1 := tail.mmr1.trans head.mmr1
  mmr3 := tail.mmr3.trans head.mmr3

end Translated

theorem translated_noteFetch (mmu : Mmu) (cycle : MemoryCycle) (address : Word) :
    Translated mmu (mmu.noteFetch cycle address) := by
  unfold noteFetch
  split <;> exact ⟨rfl, .refl _, rfl, rfl, rfl⟩

theorem translated_recordAbort (mmu : Mmu) (causes : List AbortCause) (page : PageId) :
    Translated mmu (mmu.recordAbort causes page) := by
  unfold recordAbort
  split <;> exact ⟨rfl, .refl _, rfl, rfl, rfl⟩

theorem translated_markAccess (mmu : Mmu) (page : PageId) (write trap : Bool) :
    Translated mmu (mmu.markAccess page write trap) where
  model := rfl
  pages := .set_marked _ _ _
  enabled := rfl
  mmr1 := rfl
  mmr3 := rfl

theorem translated_relocate (mmu : Mmu) (mode : Mode) (cycle : MemoryCycle) (address : Word) :
    Translated mmu (mmu.relocate mode cycle address).2 := by
  unfold relocate
  dsimp only
  split
  · exact translated_recordAbort _ _ _
  · exact translated_markAccess _ _ _ _

theorem translated_translate (mmu : Mmu) (mode : Mode) (cycle : MemoryCycle) (address : Word) :
    Translated mmu (mmu.translate mode cycle address).2 := by
  have noted := translated_noteFetch mmu cycle address
  unfold translate
  dsimp only
  split
  · exact noted.trans (translated_relocate _ _ _ _)
  · exact noted

/-- Only a fetch moves MMR2, and only while no abort is recorded. -/
theorem mmr2_translate (mmu : Mmu) (mode : Mode) (cycle : MemoryCycle) (address : Word) :
    (mmu.translate mode cycle address).2.mmr2 =
      if cycle = .fetch ∧ !mmu.frozen then address else mmu.mmr2 := by
  have noted : (mmu.noteFetch cycle address).mmr2 =
      if cycle = .fetch ∧ !mmu.frozen then address else mmu.mmr2 := by
    unfold noteFetch
    split <;> rfl
  rw [← noted]
  unfold translate relocate recordAbort markAccess
  dsimp only
  split
  · split
    · split <;> rfl
    · rfl
  · rfl

/-- A translation that succeeds records no abort. -/
theorem frozen_translate_of_ok {mmu : Mmu} {mode : Mode} {cycle : MemoryCycle} {address : Word}
    {translation : Translation}
    (succeeds : (mmu.translate mode cycle address).1 = .ok translation) :
    (mmu.translate mode cycle address).2.frozen = mmu.frozen := by
  have noted : (mmu.noteFetch cycle address).frozen = mmu.frozen := by
    unfold noteFetch
    split <;> rfl
  rw [← noted]
  unfold translate relocate at succeeds ⊢
  dsimp only at succeeds ⊢
  split
  · rename_i on
    rw [if_pos on] at succeeds
    split
    · rename_i aborts
      rw [aborts] at succeeds
      contradiction
    · rfl
  · rfl

end Mmu

end Pdp11
