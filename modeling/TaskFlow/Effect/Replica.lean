import Mathlib.Logic.Basic
import TaskFlow.Effect.Trace

/-!
# Copies of one original

States hold copies: `holds s k c` says that `c` is stored under the key `k` somewhere
in `s`, possibly many times.  A step copies what is there, drops what it likes, and may
bring in the content of one key, provided that key is `unused`; a key that got a content
is not unused any more (`Replicates`).  Then a key has one content in a whole run,
whenever and wherever the copies are met (`Trace.one_content`).

`unused` is a property of the state, such as "still to be drawn".  It need not say
anything about the past; that an unused key never had a content is part of the induction.
-/

namespace Effect

variable {S L K C : Type}

/-- The property holds now or held before one of the transitions. -/
def Ever (P : S → Prop) (h : List (Transition S L)) (s : S) : Prop :=
  P s ∨ ∃ e ∈ h, P e.pre

/-- What held at an earlier moment of a run held some time. -/
theorem Ever.of_earlier {R : S → L → S → Prop} {P : S → Prop} {s t u : S}
    {x y : List (Transition S L)} (first : Trace R s x u) (whole : Trace R s (x ++ y) t)
    (here : P u) : Ever P (x ++ y) t := by
  cases y with
  | nil =>
      rw [List.append_nil] at whole
      rw [whole.last_eq, ← first.last_eq]
      exact .inl here
  | cons e y =>
      have same : u = e.pre := first.last_eq.trans whole.split_cons.1.last_eq.symm
      exact .inr ⟨e, List.mem_append_right _ List.mem_cons_self, same ▸ here⟩

theorem Ever.of_snoc {P : S → Prop} {x : List (Transition S L)} {e : Transition S L} {s : S}
    (ever : Ever P (x ++ [e]) s) : P s ∨ Ever P x e.pre := by
  rcases ever with now | ⟨e', member, held⟩
  · exact .inl now
  · rcases List.mem_append.mp member with early | last
    · exact .inr (.inr ⟨e', early, held⟩)
    · rw [List.mem_singleton.mp last] at held
      exact .inr (.inl held)

/-- One step: contents are copied, except for at most one, whose key was unused before
and is not any more. -/
structure Replicates (holds : S → K → C → Prop) (unused : S → K → Prop) (s t : S) : Prop where
  copied : ∃ mint : Option (K × C), ∀ k c, holds t k c →
    holds s k c ∨ unused s k ∧ ¬ unused t k ∧ mint = some (k, c)
  shrinks : ∀ k, unused t k → unused s k

/-- What a run has shown so far: unused keys never had a content, the others one. -/
structure Replicated (holds : S → K → C → Prop) (unused : S → K → Prop)
    (x : List (Transition S L)) (s : S) : Prop where
  blank : ∀ k, unused s k → ∀ c, ¬ Ever (holds · k c) x s
  single : ∀ k c c', Ever (holds · k c) x s → Ever (holds · k c') x s → c = c'

variable {holds : S → K → C → Prop} {unused : S → K → Prop} {R : S → L → S → Prop} {s t : S}
  {h x : List (Transition S L)} {e : Transition S L}

theorem Replicated.step (replicated : Replicated holds unused x e.pre)
    (step : Replicates holds unused e.pre e.post) :
    Replicated holds unused (x ++ [e]) e.post := by
  obtain ⟨mint, copied⟩ := step.copied
  -- A content met after the step was met before it, or it is the new one.
  have origin : ∀ k c, Ever (holds · k c) (x ++ [e]) e.post →
      Ever (holds · k c) x e.pre ∨
        unused e.pre k ∧ ¬ unused e.post k ∧ mint = some (k, c) := by
    intro k c ever
    rcases ever.of_snoc with now | before
    · exact (copied k c now).imp_left .inl
    · exact .inl before
  constructor
  · intro k still c ever
    rcases origin k c ever with before | ⟨_, gone, _⟩
    · exact replicated.blank k (step.shrinks k still) c before
    · exact gone still
  · intro k c c' ever ever'
    rcases origin k c ever with before | ⟨fresh, _, minted⟩
    · rcases origin k c' ever' with before' | ⟨fresh, _, _⟩
      · exact replicated.single k c c' before before'
      · exact absurd before (replicated.blank k fresh c)
    · rcases origin k c' ever' with before' | ⟨_, _, minted'⟩
      · exact absurd before' (replicated.blank k fresh c')
      · rw [minted] at minted'
        exact congrArg Prod.snd (Option.some.inj minted')

/-- In a run whose steps replicate and that starts without copies, each key has one
content. -/
theorem Trace.one_content [Inhabited C] (run : Trace R s h t) (start : ∀ k c, ¬ holds s k c)
    (steps : ∀ e ∈ h, Replicates holds unused e.pre e.post) :
    ∃ content : K → C, ∀ k c, Ever (holds · k c) h t → c = content k := by
  have nothing : ∀ k c, ¬ Ever (L := L) (holds · k c) [] s := by
    rintro k c (now | ⟨_, member, _⟩)
    · exact start k c now
    · cases member
  have replicated : Replicated holds unused h t := by
    refine run.history (I := Replicated holds unused) ?_ ?_
    · exact ⟨fun k _ c => nothing k c, fun k c _ ever => absurd ever (nothing k c)⟩
    · intro x e y split _ before
      exact before.step (steps e (split ▸ List.mem_append_right _ List.mem_cons_self))
  classical
  refine ⟨fun k => if found : ∃ c, Ever (holds · k c) h t then found.choose else default, ?_⟩
  intro k c ever
  have found : ∃ c, Ever (holds · k c) h t := ⟨c, ever⟩
  dsimp only
  rw [dif_pos found]
  exact replicated.single k c _ ever found.choose_spec

end Effect
