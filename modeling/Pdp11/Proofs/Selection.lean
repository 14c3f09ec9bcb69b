import Pdp11.Trap.Interrupt
import Pdp11.Trap.Set

/-!
# Which trap and which request come first

Of the pending traps the class that comes first in the order of service is
found. Of the requests above a level the one on the highest level is found, and
of those on one level the line with the lowest number.
-/

namespace Pdp11

/-! ## Traps -/

namespace TrapClass

theorem mem_all (kind : TrapClass) : kind ∈ all := by
  cases kind <;> decide

/-- Aborts come first in the order of service. -/
theorem isAbort_iff {kind : TrapClass} : kind.isAbort ↔ kind.rank ≤ 2 := by
  cases kind <;> decide

theorem exists_rank (position : Fin 12) : ∃ kind : TrapClass, kind.rank = position := by
  have found : ∃ kind ∈ all, kind.rank = position := by
    revert position
    decide
  rcases found with ⟨kind, -, rank⟩
  exact ⟨kind, rank⟩

end TrapClass

namespace TrapSet

variable {first second traps : TrapSet} {kind : TrapClass}

/-- The classes and the note on the red zone are all there is to a set. -/
theorem eq_of_contains (same : ∀ kind, first.contains kind = second.contains kind)
    (redZone : first.redZone = second.redZone) : first = second := by
  have raised : first.raised = second.raised := by
    apply BitVec.eq_of_getLsbD_eq
    intro position below
    rcases TrapClass.exists_rank ⟨position, below⟩ with ⟨kind, rank⟩
    have bit := same kind
    simp only [contains, rank] at bit
    exact bit
  cases first
  cases second
  cases raised
  cases redZone
  rfl

theorem any_eq_false_iff : traps.any = false ↔ ∀ kind, traps.contains kind = false := by
  constructor
  · intro empty kind
    have unraised : traps.raised = 0 := by
      simpa [any] using empty
    simp [contains, unraised]
  · intro absent
    have unraised : traps.raised = 0 := by
      apply BitVec.eq_of_getLsbD_eq
      intro position below
      rcases TrapClass.exists_rank ⟨position, below⟩ with ⟨kind, rank⟩
      have bit := absent kind
      simp only [contains, rank] at bit
      simpa using bit
    simp [any, unraised]

/-- `kind` is the pending class that is served first. -/
structure IsFirst (traps : TrapSet) (kind : TrapClass) : Prop where
  pending : traps.contains kind
  rank_le (other : TrapClass) : traps.contains other → kind.rank ≤ other.rank

theorem isFirst_of_first? (first : traps.first? = some kind) : traps.IsFirst kind := by
  rcases List.find?_eq_some_iff_append.mp first with ⟨pending, earlier, later, split, absent⟩
  have ordered : TrapClass.all.Pairwise fun first second => first.rank < second.rank := by
    decide
  rw [split, List.pairwise_append, List.pairwise_cons] at ordered
  rcases ordered with ⟨-, ⟨leads, -⟩, -⟩
  constructor
  · exact pending
  · intro other contained
    have mem := other.mem_all
    rw [split, List.mem_append, List.mem_cons] at mem
    rcases mem with before | rfl | after
    · have missing := absent other before
      rw [contained] at missing
      contradiction
    · exact Fin.le_refl _
    · exact Fin.le_of_lt (leads other after)

theorem first?_eq_none_iff : traps.first? = .none ↔ traps.any = false := by
  rw [any_eq_false_iff, first?, List.find?_eq_none]
  constructor
  · intro absent kind
    exact Bool.eq_false_iff.mpr (absent kind kind.mem_all)
  · intro absent kind _
    exact Bool.eq_false_iff.mp (absent kind)

theorem first?_eq_some_iff : traps.first? = some kind ↔ traps.IsFirst kind := by
  constructor
  · exact isFirst_of_first?
  · intro isFirst
    cases found : traps.first? with
    | none =>
        have absent := any_eq_false_iff.mp (first?_eq_none_iff.mp found) kind
        rw [isFirst.pending] at absent
        contradiction
    | some other =>
        have others := isFirst_of_first? found
        have sameRank := Fin.le_antisymm (others.rank_le kind isFirst.pending)
          (isFirst.rank_le other others.pending)
        rw [TrapClass.rank_inj.mp sameRank]

/-- What stays pending when `kind` is served. -/
def served (traps : TrapSet) (kind : TrapClass) : TrapSet :=
  { (traps.erase kind).erase .trace with
    redZone := traps.redZone && !decide (kind = .stackOverflow) }

@[simp]
theorem contains_served (traps : TrapSet) (kind other : TrapClass) :
    (traps.served kind).contains other =
      (traps.contains other && !decide (other = kind) && !decide (other = .trace)) := by
  rw [← contains_erase, ← contains_erase]
  rfl

@[simp]
theorem redZone_served (traps : TrapSet) (kind : TrapClass) :
    (traps.served kind).redZone = (traps.redZone && !decide (kind = .stackOverflow)) := rfl

end TrapSet

/-! ## Requests -/

namespace InterruptLine

theorem mem_all (line : InterruptLine) : line ∈ all := by
  cases line <;> decide

/-- `line` goes before `other`: it is on a higher level, or has the lower number
on the same level. -/
def Leads (line other : InterruptLine) : Prop :=
  other.level < line.level ∨ other.level = line.level ∧ line.number ≤ other.number

theorem Leads.refl (line : InterruptLine) : line.Leads line :=
  .inr ⟨rfl, Fin.le_refl _⟩

theorem Leads.trans {first second third : InterruptLine} (head : first.Leads second)
    (tail : second.Leads third) : first.Leads third := by
  unfold Leads at *
  omega

theorem Leads.antisymm {first second : InterruptLine} (head : first.Leads second)
    (tail : second.Leads first) : first = second := by
  have sameNumber : first.number = second.number := by
    unfold Leads at *
    omega
  exact number_inj.mp sameNumber

end InterruptLine

namespace InterruptRequests

variable {requests : InterruptRequests} {level : Nat} {line : InterruptLine}

/-- `line` is the request that is served at processor level `level`. -/
structure IsStrongest (requests : InterruptRequests) (level : Nat) (line : InterruptLine) :
    Prop where
  requested : requests.contains line
  above : level < line.level
  leads (other : InterruptLine) : requests.contains other → line.Leads other

theorem eq_nil_of_dominant? {lines : List InterruptLine} (found : dominant? lines = Option.none) :
    lines = [] := by
  cases lines with
  | nil => rfl
  | cons head rest =>
      rw [dominant?] at found
      split at found
      · contradiction
      · split at found <;> contradiction

theorem dominant?_cons_cases (head : InterruptLine) (rest : List InterruptLine) :
    (rest = [] ∧ dominant? (head :: rest) = some head) ∨
    ∃ best, dominant? rest = some best ∧
      (best.level ≤ head.level ∧ dominant? (head :: rest) = some head ∨
        head.level < best.level ∧ dominant? (head :: rest) = some best) := by
  rw [dominant?]
  cases found : dominant? rest with
  | none => exact .inl ⟨eq_nil_of_dominant? found, rfl⟩
  | some best =>
      right
      by_cases higher : best.level ≤ head.level
      · exact ⟨best, rfl, .inl ⟨higher, if_pos higher⟩⟩
      · exact ⟨best, rfl, .inr ⟨Nat.lt_of_not_le higher, if_neg higher⟩⟩

/-- Of lines in the order of their numbers, one that goes before all others is
found. -/
theorem leads_of_dominant? {lines : List InterruptLine}
    (ordered : lines.Pairwise fun first second => first.number < second.number)
    (found : dominant? lines = some line) :
    line ∈ lines ∧ ∀ other ∈ lines, line.Leads other := by
  induction lines generalizing line with
  | nil => contradiction
  | cons head rest ih =>
      rcases List.pairwise_cons.mp ordered with ⟨numbers, restOrdered⟩
      rcases dominant?_cons_cases head rest with
        ⟨rfl, isHead⟩ | ⟨best, dominant, ⟨notAbove, isHead⟩ | ⟨above, isBest⟩⟩
      · cases isHead.symm.trans found
        constructor
        · exact List.mem_singleton_self head
        · intro other otherMem
          rw [List.mem_singleton.mp otherMem]
          exact .refl head
      · cases isHead.symm.trans found
        rcases ih restOrdered dominant with ⟨bestMem, leads⟩
        have overBest : head.Leads best := by
          rcases Nat.lt_or_eq_of_le notAbove with below | same
          · exact .inl below
          · exact .inr ⟨same, Fin.le_of_lt (numbers best bestMem)⟩
        constructor
        · exact List.mem_cons_self
        · intro other otherMem
          rcases List.mem_cons.mp otherMem with rfl | later
          · exact .refl other
          · exact overBest.trans (leads other later)
      · cases isBest.symm.trans found
        rcases ih restOrdered dominant with ⟨bestMem, leads⟩
        constructor
        · exact List.mem_cons_of_mem head bestMem
        · intro other otherMem
          rcases List.mem_cons.mp otherMem with rfl | later
          · exact .inl above
          · exact leads other later

theorem mem_asked_iff :
    line ∈ InterruptLine.all.filter
      (fun line => requests.contains line && decide (line.level > level)) ↔
      requests.contains line ∧ level < line.level := by
  rw [List.mem_filter, Bool.and_eq_true, decide_eq_true_eq]
  exact and_iff_right line.mem_all

theorem isStrongest_of_strongestAbove? (found : requests.strongestAbove? level = some line) :
    requests.IsStrongest level line := by
  have ordered : InterruptLine.all.Pairwise fun first second => first.number < second.number := by
    decide
  rcases leads_of_dominant? (ordered.filter _) found with ⟨lineMem, leads⟩
  rcases mem_asked_iff.mp lineMem with ⟨requested, above⟩
  constructor
  · exact requested
  · exact above
  · intro other contained
    by_cases higher : level < other.level
    · exact leads other (mem_asked_iff.mpr ⟨contained, higher⟩)
    · left
      omega

theorem strongestAbove?_eq_none_iff :
    requests.strongestAbove? level = Option.none ↔
      ∀ line, requests.contains line → line.level ≤ level := by
  constructor
  · intro found line requested
    have empty := eq_nil_of_dominant? found
    apply Nat.le_of_not_lt
    intro above
    have asked := mem_asked_iff.mpr ⟨requested, above⟩
    rw [empty] at asked
    contradiction
  · intro masked
    cases found : requests.strongestAbove? level with
    | none => rfl
    | some line =>
        have asks := isStrongest_of_strongestAbove? found
        exact absurd asks.above (Nat.not_lt.mpr (masked line asks.requested))

theorem strongestAbove?_eq_some_iff :
    requests.strongestAbove? level = some line ↔ requests.IsStrongest level line := by
  constructor
  · exact isStrongest_of_strongestAbove?
  · intro strongest
    cases found : requests.strongestAbove? level with
    | none =>
        have masked := strongestAbove?_eq_none_iff.mp found line strongest.requested
        exact absurd strongest.above (Nat.not_lt.mpr masked)
    | some other =>
        have others := isStrongest_of_strongestAbove? found
        rw [(strongest.leads other others.requested).antisymm
          (others.leads line strongest.requested)]

end InterruptRequests

end Pdp11
