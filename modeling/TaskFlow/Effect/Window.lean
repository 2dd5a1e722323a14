import Mathlib.Data.List.Induction

/-!
# Counting in a sliding window

`countP_le_of_recent`: when each chosen member of a list has few members in the
window that ends at it, and all chosen ones up to it lie in that window, then few
members of the list are chosen.  `countP_le_of_classes` adds such bounds up over the
windows that cover a longer time.
-/

namespace Effect

variable {α : Type} {n : Nat} {chosen : α → Bool}

/-- At most `n` members are chosen, if every chosen member has at most `n` members
in its window and finds all chosen ones so far in it. -/
theorem countP_le_of_recent (recent : α → α → Bool) (h : List α)
    (few : ∀ x e y, h = x ++ e :: y → chosen e = true → (x ++ [e]).countP (recent e) ≤ n)
    (sees : ∀ x e y, h = x ++ e :: y → chosen e = true →
      ∀ e' ∈ x ++ [e], chosen e' = true → recent e e' = true) :
    h.countP chosen ≤ n := by
  -- Drop members from the end until the last one is chosen.
  induction h using List.reverseRecOn with
  | nil => exact Nat.zero_le n
  | append_singleton h last ih =>
      cases taken : chosen last with
      | false =>
          have fewer : h.countP chosen ≤ n := by
            refine ih (fun x e y eq => few x e (y ++ [last]) ?_)
              fun x e y eq => sees x e (y ++ [last]) ?_
            · rw [eq, List.append_assoc, List.cons_append]
            · rw [eq, List.append_assoc, List.cons_append]
          rw [List.countP_append, List.countP_singleton, taken]
          exact fewer
      | true =>
          calc (h ++ [last]).countP chosen
              ≤ (h ++ [last]).countP (recent last) :=
                List.countP_mono_left fun e member picked =>
                  sees h last [] rfl taken e member picked
            _ ≤ n := few h last [] rfl taken

theorem countP_le_add {p q r : α → Bool} {h : List α}
    (either : ∀ x ∈ h, p x = true → q x = true ∨ r x = true) :
    h.countP p ≤ h.countP q + h.countP r := by
  induction h with
  | nil => exact Nat.zero_le _
  | cons x h ih =>
      have later := ih fun y member => either y (List.mem_cons_of_mem _ member)
      have here := either x List.mem_cons_self
      simp only [List.countP_cons]
      cases taken : p x with
      | false =>
          simp only [Bool.false_eq_true, if_false]
          omega
      | true =>
          rcases here taken with first | second
          · simp only [first, if_true]
            omega
          · simp only [second, if_true]
            omega

/-- Chosen members of `m + 1` classes, at most `n` of each. -/
theorem countP_le_of_classes (index : α → Nat) {h : List α} {m : Nat}
    (covered : ∀ x ∈ h, chosen x = true → index x ≤ m)
    (few : ∀ j ≤ m, h.countP (fun x => chosen x && index x == j) ≤ n) :
    h.countP chosen ≤ n * (m + 1) := by
  induction m generalizing chosen with
  | zero =>
      have first : h.countP chosen ≤ h.countP fun x => chosen x && index x == 0 := by
        refine List.countP_mono_left fun x member taken => ?_
        rw [Bool.and_eq_true_iff, beq_iff_eq]
        exact ⟨taken, Nat.le_zero.mp (covered x member taken)⟩
      have bound := few 0 (Nat.le_refl 0)
      omega
  | succ m ih =>
      -- The chosen members of the last class, and those of the classes before it.
      have before : h.countP (fun x => chosen x && decide (index x ≤ m)) ≤ n * (m + 1) := by
        refine ih (fun x _ taken => ?_) fun j le => ?_
        · exact of_decide_eq_true (Bool.and_eq_true_iff.mp taken).2
        · refine Nat.le_trans (List.countP_mono_left fun x _ taken => ?_) (few j (by omega))
          obtain ⟨both, here⟩ := Bool.and_eq_true_iff.mp taken
          rw [Bool.and_eq_true_iff]
          exact ⟨(Bool.and_eq_true_iff.mp both).1, here⟩
      have last := few (m + 1) (Nat.le_refl _)
      have split : h.countP chosen ≤ h.countP (fun x => chosen x && decide (index x ≤ m)) +
          h.countP (fun x => chosen x && index x == m + 1) := by
        refine countP_le_add fun x member taken => ?_
        have upTo := covered x member taken
        simp only [taken, Bool.true_and, decide_eq_true_eq, beq_iff_eq]
        omega
      rw [Nat.mul_succ]
      omega

end Effect
