import Mathlib.Data.List.Basic
import Mathlib.Data.List.Infix

/-!
# Lines and the head of a message

A line ends with a pair of different symbols.  `breakLine` cuts off the first line
of a list, and `readHead` reads lines up to the first empty one; what follows that
one is the body.

* `breakLine_eq_some_iff`: the cut is the one place where the list is a line
  without a line end, a line end, and the rest.
* `readHead_eq_some_iff`: a list reads as given lines and body exactly if it is
  those lines written out, an empty line and the body, and no line is empty or holds
  a line end.
-/

namespace Effect

variable {α : Type} [DecidableEq α] {cr lf : α}

/-- The first line and what follows its end. -/
def breakLine (cr lf : α) : List α → Option (List α × List α)
  | [] => none
  | [_] => none
  | x :: y :: rest =>
      if x = cr ∧ y = lf then some ([], rest)
      else (breakLine cr lf (y :: rest)).map fun split => (x :: split.1, split.2)

omit [DecidableEq α] in
/-- A first symbol that does not open a line end in front of a line. -/
theorem not_infix_cons {x : α} {line : List α} (clear : ¬ [cr, lf] <:+: line)
    (opens : ¬ (x = cr ∧ line.head? = some lf)) : ¬ [cr, lf] <:+: x :: line := by
  intro inside
  rcases List.infix_cons_iff.mp inside with front | later
  · obtain ⟨same, next⟩ := List.cons_prefix_cons.mp front
    obtain ⟨after, rfl⟩ := next
    exact opens ⟨same.symm, rfl⟩
  · exact clear later

omit [DecidableEq α] in
/-- Text that cannot open a line end in front of a line. -/
theorem not_infix_append {front line : List α} (free : cr ∉ front)
    (clear : ¬ [cr, lf] <:+: line) : ¬ [cr, lf] <:+: front ++ line := by
  induction front with
  | nil => exact clear
  | cons x front ih =>
      have rest : cr ∉ front := fun member => free (List.mem_cons_of_mem x member)
      exact not_infix_cons (ih rest) fun opens => free (opens.1 ▸ List.mem_cons_self)

omit [DecidableEq α] in
/-- Text without the second symbol holds no line end. -/
theorem not_infix_of_notMem {line : List α} (free : lf ∉ line) : ¬ [cr, lf] <:+: line :=
  fun inside => free (inside.subset (List.mem_cons_of_mem cr List.mem_cons_self))

theorem breakLine_eq_some_iff (differ : cr ≠ lf) {l line rest : List α} :
    breakLine cr lf l = some (line, rest) ↔
      l = line ++ cr :: lf :: rest ∧ ¬ [cr, lf] <:+: line := by
  induction l using breakLine.induct cr lf generalizing line with
  | case1 => simp [breakLine]
  | case2 x =>
      rw [breakLine]
      cases line <;> simp
  | case3 x y tail ends =>
      obtain ⟨rfl, rfl⟩ := ends
      rw [breakLine, if_pos ⟨rfl, rfl⟩, Option.some.injEq, Prod.mk.injEq]
      constructor
      · rintro ⟨rfl, rfl⟩
        exact ⟨rfl, by simp⟩
      · rintro ⟨eq, clear⟩
        -- A line that is not empty would start with the line end.
        rcases line with _ | ⟨z, _ | ⟨z', line⟩⟩
        · exact ⟨rfl, by simpa using eq⟩
        · simp only [List.cons_append, List.nil_append, List.cons.injEq] at eq
          exact absurd eq.2.1.symm differ
        · simp only [List.cons_append, List.cons.injEq] at eq
          obtain ⟨rfl, rfl, -⟩ := eq
          exact absurd ⟨[], line, rfl⟩ clear
  | case4 x y tail continues ih =>
      rw [breakLine, if_neg continues, Option.map_eq_some_iff]
      constructor
      · rintro ⟨⟨line', rest'⟩, broken, eq⟩
        cases eq
        obtain ⟨eq, clear⟩ := ih.mp broken
        refine ⟨by rw [eq]; rfl, not_infix_cons clear ?_⟩
        rintro ⟨same, head⟩
        rcases line' with _ | ⟨z, line'⟩
        · exact absurd head.symm (Option.some_ne_none lf)
        · have next : y = z := (List.cons.inj eq).1
          exact continues ⟨same, next.trans (Option.some.inj head)⟩
      · rintro ⟨eq, clear⟩
        rcases line with _ | ⟨z, line⟩
        · simp only [List.nil_append, List.cons.injEq] at eq
          exact absurd ⟨eq.1, eq.2.1⟩ continues
        · simp only [List.cons_append, List.cons.injEq] at eq
          obtain ⟨rfl, eq⟩ := eq
          have clear' : ¬ [cr, lf] <:+: line := fun inside =>
            clear (inside.trans (List.suffix_cons x line).isInfix)
          exact ⟨(line, rest), ih.mpr ⟨eq, clear'⟩, rfl⟩

theorem breakLine_shorter {l line rest : List α} (broken : breakLine cr lf l = some (line, rest)) :
    rest.length < l.length := by
  induction l using breakLine.induct cr lf generalizing line with
  | case1 => simp [breakLine] at broken
  | case2 x => simp [breakLine] at broken
  | case3 x y tail ends =>
      rw [breakLine, if_pos ends] at broken
      cases broken
      simp only [List.length_cons]
      omega
  | case4 x y tail continues ih =>
      rw [breakLine, if_neg continues, Option.map_eq_some_iff] at broken
      obtain ⟨⟨line', rest'⟩, broken, eq⟩ := broken
      cases eq
      exact Nat.lt_succ_of_lt (ih broken)

/-- The lines up to the first empty one, and what follows it. -/
def readHead (cr lf : α) (l : List α) : Option (List (List α) × List α) :=
  match _ : breakLine cr lf l with
  | none => none
  | some ([], body) => some ([], body)
  | some (x :: line, rest) =>
      (readHead cr lf rest).map fun read => ((x :: line) :: read.1, read.2)
termination_by l.length
decreasing_by exact breakLine_shorter ‹_›

theorem readHead_of_none {l : List α} (broken : breakLine cr lf l = none) :
    readHead cr lf l = none := by
  rw [readHead]
  split <;> simp_all

theorem readHead_of_empty {l body : List α} (broken : breakLine cr lf l = some ([], body)) :
    readHead cr lf l = some ([], body) := by
  rw [readHead]
  split <;> simp_all

theorem readHead_of_line {l line rest : List α} (nonempty : line ≠ [])
    (broken : breakLine cr lf l = some (line, rest)) :
    readHead cr lf l = (readHead cr lf rest).map fun read => (line :: read.1, read.2) := by
  rw [readHead]
  split <;> simp_all

/-- Lines written out, each with its end. -/
def writeLines (cr lf : α) (lines : List (List α)) : List α :=
  lines.flatMap (· ++ [cr, lf])

theorem readHead_eq_some_iff (differ : cr ≠ lf) {l body : List α} {lines : List (List α)} :
    readHead cr lf l = some (lines, body) ↔
      l = writeLines cr lf lines ++ cr :: lf :: body ∧
      ∀ line ∈ lines, line ≠ [] ∧ ¬ [cr, lf] <:+: line := by
  constructor
  · intro read
    induction l using readHead.induct cr lf generalizing lines with
    | case1 l broken =>
        rw [readHead_of_none broken] at read
        exact absurd read.symm (Option.some_ne_none _)
    | case2 l rest broken =>
        rw [readHead_of_empty broken] at read
        cases read
        exact ⟨((breakLine_eq_some_iff differ).mp broken).1, by simp⟩
    | case3 l x line rest broken ih =>
        obtain ⟨eq, clear⟩ := (breakLine_eq_some_iff differ).mp broken
        rw [readHead_of_line (List.cons_ne_nil x line) broken, Option.map_eq_some_iff] at read
        obtain ⟨⟨lines', body'⟩, read, same⟩ := read
        cases same
        obtain ⟨written, others⟩ := ih read
        refine ⟨by simp [eq, written, writeLines], ?_⟩
        intro line' member
        rcases List.mem_cons.mp member with rfl | later
        · exact ⟨List.cons_ne_nil x line, clear⟩
        · exact others line' later
  · rintro ⟨rfl, clear⟩
    induction lines with
    | nil => exact readHead_of_empty ((breakLine_eq_some_iff differ).mpr ⟨rfl, by simp⟩)
    | cons line lines ih =>
        obtain ⟨nonempty, free⟩ := clear line List.mem_cons_self
        have broken : breakLine cr lf (writeLines cr lf (line :: lines) ++ cr :: lf :: body) =
            some (line, writeLines cr lf lines ++ cr :: lf :: body) :=
          (breakLine_eq_some_iff differ).mpr ⟨by simp [writeLines], free⟩
        rw [readHead_of_line nonempty broken,
          ih fun line' member => clear line' (List.mem_cons_of_mem line member)]
        rfl

end Effect
