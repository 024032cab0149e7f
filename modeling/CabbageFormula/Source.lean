import CabbageFormula.Draw

/-!
# Sources of rolls

Whatever answers draws is a source.  It has a state, and a draw returns the values together with
the state it leaves, so that all randomness is threaded by hand.  Nothing is assumed about the
values: a source may return too many, too few, or faces that no cabbage has.

* `RollSource` — the class of states that can be drawn from.
* `RollSource.after` — the state that a list of draws leaves.
* `RollSource.Honest` — a source that returns what it was asked for.
-/

namespace CabbageFormula

/-- **A state that answers draws.** -/
class RollSource (σ : Type) where
  /-- The values of one draw, and the state it leaves. -/
  draw : Draw → σ → List UInt64 × σ

namespace RollSource

variable {σ : Type} [RollSource σ]

/-- The state that draws leave, made one after the other. -/
def after : List Draw → σ → σ
  | [], source => source
  | d :: rest, source => after rest (draw d source).2

@[simp] theorem after_nil (source : σ) : after [] source = source := rfl

@[simp] theorem after_cons (d : Draw) (rest : List Draw) (source : σ) :
    after (d :: rest) source = after rest (draw d source).2 := rfl

theorem after_append (front back : List Draw) (source : σ) :
    after (front ++ back) source = after back (after front source) := by
  induction front generalizing source with
  | nil => rfl
  | cons d rest ih => simp [ih]

theorem after_concat (draws : List Draw) (d : Draw) (source : σ) :
    after (draws ++ [d]) source = (draw d (after draws source)).2 :=
  after_append draws [d] source

/-- **An honest source** returns as many values as it was asked for, each a face of the cabbage. -/
def Honest (σ : Type) [RollSource σ] : Prop :=
  ∀ (d : Draw) (source : σ), (draw d source).1.length = d.count.toNat ∧
    ∀ value ∈ (draw d source).1, 1 ≤ value ∧ value ≤ d.sides

end RollSource

end CabbageFormula
