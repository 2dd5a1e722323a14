import Mathlib.Data.List.Basic

/-!
# Runs of a labelled transition system

`Trace R s h t`: a run of `R` from `s` to `t` that took the transitions `h`, in
order, each with the state before and after it.  A property of every transition
of a run, and a condition on every transition of it, are then both statements
about the members of `h`.

* `Trace.invariant` is the induction every safety result uses: what holds at the
  start and survives each transition taken holds at the end.
* `Trace.history` is the same for what relates the state to the transitions so far.
* `Trace.split` cuts a run at any of its transitions.
* `Trace.map` and `Trace.filterMap` carry a run over to another system.
-/

namespace Effect

variable {S L : Type}

/-- One transition taken. -/
structure Transition (S L : Type) : Type where
  pre : S
  label : L
  post : S

/-- A run from `s` to `t` through the transitions `h`. -/
inductive Trace (R : S → L → S → Prop) (s : S) : List (Transition S L) → S → Prop
  | nil : Trace R s [] s
  | snoc {h : List (Transition S L)} {t u : S} {l : L} :
    Trace R s h t → R t l u → Trace R s (h ++ [⟨t, l, u⟩]) u

namespace Trace

variable {R : S → L → S → Prop} {s t u : S} {h h' : List (Transition S L)} {l : L}

theorem single (step : R s l t) : Trace R s [⟨s, l, t⟩] t := .snoc .nil step

theorem trans (first : Trace R s h t) (second : Trace R t h' u) : Trace R s (h ++ h') u := by
  induction second with
  | nil => rwa [List.append_nil]
  | snoc _ step ih =>
      rw [← List.append_assoc]
      exact .snoc ih step

/-- A run through `h ++ h'` is a run through `h` followed by one through `h'`. -/
theorem split {x : List (Transition S L)} (run : Trace R s x u) :
    ∀ {h h' : List (Transition S L)}, x = h ++ h' → ∃ t, Trace R s h t ∧ Trace R t h' u := by
  induction run with
  | nil =>
      intro h h' eq
      obtain ⟨rfl, rfl⟩ := List.append_eq_nil_iff.mp eq.symm
      exact ⟨s, .nil, .nil⟩
  | @snoc x t u l run step ih =>
      intro h h' eq
      rcases List.eq_nil_or_concat h' with rfl | ⟨front, last, rfl⟩
      · rw [List.append_nil] at eq
        subst eq
        exact ⟨u, .snoc run step, .nil⟩
      · rw [List.concat_eq_append, ← List.append_assoc] at eq
        obtain ⟨same, lastEq⟩ := List.append_inj' eq rfl
        obtain rfl := List.singleton_inj.mp lastEq
        obtain ⟨mid, first, second⟩ := ih same
        rw [List.concat_eq_append]
        exact ⟨mid, first, .snoc second step⟩

/-- The transition in the middle of a run is a step between its two halves. -/
theorem split_cons {e : Transition S L} (run : Trace R s (h ++ e :: h') u) :
    Trace R s h e.pre ∧ R e.pre e.label e.post ∧ Trace R e.post h' u := by
  rw [show h ++ e :: h' = (h ++ [e]) ++ h' by simp] at run
  obtain ⟨t, first, second⟩ := run.split rfl
  generalize eq : h ++ [e] = x at first
  cases first with
  | nil => simp at eq
  | @snoc y a b l first step =>
      obtain ⟨rfl, last⟩ := List.append_inj' eq rfl
      obtain rfl := List.singleton_inj.mp last
      exact ⟨first, step, second⟩

/-- A run ends where its last transition does. -/
theorem last_eq (run : Trace R s h t) : t = (h.getLast?.map Transition.post).getD s := by
  cases run with
  | nil => rfl
  | snoc run step => simp

/-- Every transition of a run is a step. -/
theorem taken {e : Transition S L} (run : Trace R s h t) (member : e ∈ h) :
    R e.pre e.label e.post := by
  obtain ⟨front, back, rfl⟩ := List.append_of_mem member
  exact run.split_cons.2.1

/-- A run whose transitions are steps of another system is a run of that system. -/
theorem mono {R' : S → L → S → Prop} (run : Trace R s h t)
    (image : ∀ e ∈ h, R e.pre e.label e.post → R' e.pre e.label e.post) : Trace R' s h t := by
  induction run with
  | nil => exact .nil
  | snoc _ taken ih =>
      exact .snoc (ih fun e member => image e (List.mem_append_left _ member))
        (image _ (List.mem_append_right _ (List.mem_singleton_self _)) taken)

/-- What holds at the start and survives every transition taken holds at the end. -/
theorem invariant {I : S → Prop} (run : Trace R s h t) (start : I s)
    (step : ∀ e ∈ h, R e.pre e.label e.post → I e.pre → I e.post) : I t := by
  induction run with
  | nil => exact start
  | snoc _ taken ih =>
      exact step _ (List.mem_append_right _ (List.mem_singleton_self _)) taken
        (ih fun e member => step e (List.mem_append_left _ member))

/-- What holds at the start and survives every transition taken holds before each. -/
theorem invariant_pre {I : S → Prop} (run : Trace R s h t) (start : I s)
    (step : ∀ e ∈ h, R e.pre e.label e.post → I e.pre → I e.post) : ∀ e ∈ h, I e.pre := by
  intro e member
  obtain ⟨front, back, rfl⟩ := List.append_of_mem member
  exact run.split_cons.1.invariant start fun e' earlier =>
    step e' (List.mem_append_left _ earlier)

/-- An invariant of every step holds before every transition of a run. -/
theorem invariant_mem {I : S → Prop} (run : Trace R s h t) (start : I s)
    (step : ∀ a l b, R a l b → I a → I b) :
    ∀ e ∈ h, I e.pre ∧ R e.pre e.label e.post := by
  intro e member
  exact ⟨run.invariant_pre start (fun e _ => step e.pre e.label e.post) e member,
    run.taken member⟩

/-- What holds before a transition of a run and survives every step holds from there on. -/
theorem onwards {I : S → Prop} {e : Transition S L} (run : Trace R s (h ++ e :: h') t)
    (here : I e.pre) (step : ∀ a l b, R a l b → I a → I b) : (∀ e' ∈ h', I e'.pre) ∧ I t := by
  obtain ⟨_, taken, later⟩ := run.split_cons
  have next := step _ _ _ taken here
  exact ⟨later.invariant_pre next fun e' _ => step e'.pre e'.label e'.post,
    later.invariant next fun e' _ => step e'.pre e'.label e'.post⟩

/-- An invariant of the state together with the transitions so far. -/
theorem history {I : List (Transition S L) → S → Prop} (run : Trace R s h t) (start : I [] s)
    (step : ∀ x e y, h = x ++ e :: y → R e.pre e.label e.post → I x e.pre →
      I (x ++ [e]) e.post) : I h t := by
  induction run with
  | nil => exact start
  | @snoc h t u l _ taken ih =>
      refine step h ⟨t, l, u⟩ [] rfl taken (ih fun x e y eq => step x e (y ++ [⟨t, l, u⟩]) ?_)
      rw [eq, List.append_assoc, List.cons_append]

/-- A step-by-step image of a run is a run of the image system. -/
theorem map {S' L' : Type} {R' : S' → L' → S' → Prop} {f : S → S'}
    {g : Transition S L → L'} {I : S → Prop} (run : Trace R s h t) (start : I s)
    (keep : ∀ a l b, R a l b → I a → I b)
    (image : ∀ a l b, R a l b → I a → R' (f a) (g ⟨a, l, b⟩) (f b)) :
    Trace R' (f s) (h.map fun e => ⟨f e.pre, g e, f e.post⟩) (f t) := by
  induction run with
  | nil => exact .nil
  | @snoc h t u l run step ih =>
      rw [List.map_append]
      exact .snoc ih (image t l u step
        (run.invariant start fun e _ => keep e.pre e.label e.post))

/-- The part of a run that shows in another system: a step either shows there as a step
or leaves its state alone. -/
theorem filterMap {S' L' : Type} {R' : S' → L' → S' → Prop} {f : S → S'}
    {g : Transition S L → Option (Transition S' L')} (run : Trace R s h t)
    (hidden : ∀ e ∈ h, R e.pre e.label e.post → g e = none → f e.post = f e.pre)
    (shown : ∀ e ∈ h, R e.pre e.label e.post → ∀ e' ∈ g e,
      e'.pre = f e.pre ∧ e'.post = f e.post ∧ R' e'.pre e'.label e'.post) :
    Trace R' (f s) (h.filterMap g) (f t) := by
  induction run with
  | nil => exact .nil
  | @snoc h t u l run step ih =>
      have here : (⟨t, l, u⟩ : Transition S L) ∈ h ++ [⟨t, l, u⟩] :=
        List.mem_append_right _ (List.mem_singleton_self _)
      have before := ih (fun e member => hidden e (List.mem_append_left _ member))
        fun e member => shown e (List.mem_append_left _ member)
      rw [List.filterMap_append]
      cases shows : g ⟨t, l, u⟩ with
      | none =>
          rw [List.filterMap_cons_none shows, List.filterMap_nil, List.append_nil,
            show f u = f t from hidden _ here step shows]
          exact before
      | some e' =>
          obtain ⟨pre, post, image⟩ := shown _ here step e' shows
          rw [List.filterMap_cons_some shows, List.filterMap_nil]
          obtain ⟨a, label, b⟩ := e'
          dsimp only at pre post image
          subst pre post
          exact .snoc before image

/-- Two transitions of a run are the same, or one comes after the other. -/
theorem mem_order {e e' : Transition S L} (member : e ∈ h) (member' : e' ∈ h) :
    e = e' ∨ (∃ x y, h = x ++ e :: y ∧ e' ∈ y) ∨ ∃ x y, h = x ++ e' :: y ∧ e ∈ y := by
  obtain ⟨x, y, rfl⟩ := List.append_of_mem member
  rcases List.mem_append.mp member' with early | late
  · obtain ⟨a, b, rfl⟩ := List.append_of_mem early
    exact .inr (.inr ⟨a, b ++ e :: y, by simp, by simp⟩)
  · rcases List.mem_cons.mp late with rfl | later
    · exact .inl rfl
    · exact .inr (.inl ⟨x, y, rfl, later⟩)

end Trace

end Effect
