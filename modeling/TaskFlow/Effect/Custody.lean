import Mathlib.Logic.Function.Basic

/-!
# Custody of fresh identifiers

A stream supplies identifiers, all different, and places `P` hold them, each at most
one.  A place may draw the next identifier, pass its own on, or give it up.  Then every
identifier has at most one holder (`Custody.Sound.step`), and one that was given up is
never held again (`Custody.Spent.step`).

The steps say which places gained what; nothing needs to be said about the others but
that they gained nothing.
-/

namespace Effect

/-- The identifiers still to come, and what each place holds. -/
structure Custody (K P : Type) : Type where
  supply : Nat → K
  held : P → Option K

namespace Custody

variable {K P : Type} {c c' : Custody K P} {p q : P} {k : K}

/-- Every holder but `p` held the same before. -/
def KeepsBut (p : P) (c c' : Custody K P) : Prop :=
  ∀ q k, q ≠ p → c'.held q = some k → c.held q = some k

/-- Some identifiers are drawn and held by no one. -/
def Draws (n : Nat) (c c' : Custody K P) : Prop := ∀ m, c'.supply m = c.supply (m + n)

/-- One step: nothing is gained, a place draws an identifier, or one place passes its
identifier to another. -/
inductive Step (c c' : Custody K P) : Prop
  | lose (n : Nat) : Draws n c c' → (∀ q k, c'.held q = some k → c.held q = some k) → Step c c'
  | draw (p : P) : Draws 1 c c' → c'.held p = some (c.supply 0) → KeepsBut p c c' → Step c c'
  | pass (n : Nat) (p q : P) (k : K) : Draws n c c' → p ≠ q → c.held p = some k → c'.held p = none →
      c'.held q = some k → KeepsBut q c c' → Step c c'

/-- The identifiers to come are all different and held by no one, and no two places hold
the same. -/
structure Sound (c : Custody K P) : Prop where
  distinct : Function.Injective c.supply
  undrawn : ∀ p n, c.held p ≠ some (c.supply n)
  exclusive : ∀ p q k, c.held p = some k → c.held q = some k → p = q

/-- The identifier is neither held nor to come. -/
structure Spent (c : Custody K P) (k : K) : Prop where
  drawn : ∀ n, c.supply n ≠ k
  free : ∀ p, c.held p ≠ some k

theorem Draws.injective {n : Nat} (draws : Draws n c c') (distinct : Function.Injective c.supply) :
    Function.Injective c'.supply := by
  intro a b same
  rw [draws a, draws b] at same
  exact Nat.add_right_cancel (distinct same)

theorem Sound.step (step : Step c c') (sound : c.Sound) : c'.Sound := by
  cases step with
  | lose n draws kept =>
      refine ⟨draws.injective sound.distinct, fun p m held => ?_, fun p q k here there => ?_⟩
      · rw [draws m] at held
        exact sound.undrawn p _ (kept p _ held)
      · exact sound.exclusive p q k (kept p k here) (kept q k there)
  | draw p draws drawn kept =>
      have fresh : ∀ q k, q ≠ p → c'.held q = some k → k ≠ c.supply 0 := by
        rintro q _ ne held rfl
        exact sound.undrawn q 0 (kept q _ ne held)
      refine ⟨draws.injective sound.distinct, fun q m held => ?_, fun a b k here there => ?_⟩
      · rw [draws m] at held
        by_cases same : q = p
        · rw [same, drawn] at held
          cases sound.distinct (Option.some.inj held)
        · exact sound.undrawn q _ (kept q _ same held)
      · by_cases atA : a = p
        · by_cases atB : b = p
          · rw [atA, atB]
          · rw [atA, drawn] at here
            exact absurd (Option.some.inj here).symm (fresh b k atB there)
        · by_cases atB : b = p
          · rw [atB, drawn] at there
            exact absurd (Option.some.inj there).symm (fresh a k atA here)
          · exact sound.exclusive a b k (kept a k atA here) (kept b k atB there)
  | pass n p q k draws ne held gone gained kept =>
      have sole : ∀ a, a ≠ q → c'.held a ≠ some k := by
        intro a other there
        have origin := sound.exclusive a p k (kept a k other there) held
        rw [origin, gone] at there
        cases there
      refine ⟨draws.injective sound.distinct, fun a m there => ?_, fun a b k' here there => ?_⟩
      · rw [draws m] at there
        by_cases same : a = q
        · rw [same, gained] at there
          exact sound.undrawn p _ (held.trans there)
        · exact sound.undrawn a _ (kept a _ same there)
      · by_cases atA : a = q
        · by_cases atB : b = q
          · rw [atA, atB]
          · rw [atA, gained] at here
            exact absurd (here ▸ there) (sole b atB)
        · by_cases atB : b = q
          · rw [atB, gained] at there
            exact absurd (there ▸ here) (sole a atA)
          · exact sound.exclusive a b k' (kept a k' atA here) (kept b k' atB there)

theorem Spent.step (step : Step c c') (spent : c.Spent k) : c'.Spent k := by
  cases step with
  | lose n draws kept =>
      refine ⟨fun m => ?_, fun p held => spent.free p (kept p k held)⟩
      rw [draws m]
      exact spent.drawn _
  | draw p draws drawn kept =>
      refine ⟨fun m => ?_, fun q held => ?_⟩
      · rw [draws m]
        exact spent.drawn _
      · by_cases same : q = p
        · rw [same, drawn] at held
          exact spent.drawn 0 (Option.some.inj held)
        · exact spent.free q (kept q k same held)
  | pass n p q k' draws ne held gone gained kept =>
      refine ⟨fun m => ?_, fun a there => ?_⟩
      · rw [draws m]
        exact spent.drawn _
      · by_cases same : a = q
        · rw [same, gained] at there
          exact spent.free p (held.trans there)
        · exact spent.free a (kept a k same there)

/-- An identifier that its holder gives up is spent. -/
theorem Spent.of_lost {n : Nat} (sound : c.Sound) (held : c.held p = some k) (draws : Draws n c c')
    (kept : ∀ q k, c'.held q = some k → c.held q = some k) (lost : c'.held p ≠ some k) :
    c'.Spent k := by
  refine ⟨fun m same => ?_, fun q there => ?_⟩
  · rw [draws m] at same
    exact sound.undrawn p _ (same ▸ held)
  · rw [sound.exclusive q p k (kept q k there) held] at there
    exact lost there

end Custody

end Effect
