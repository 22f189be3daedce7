/-! C `while` loops as an iterated body with fuel. The body says how one pass ends; the
fuel bounds the number of passes, so a loop that runs out of it is one that had not
finished. -/

namespace AgcBlock1

/-- How one pass of a loop body ends: round again from the new state, or out of the loop
(the test failed, or the body reached a `break`). -/
inductive Flow (State : Type) where
  | next (state : State)
  | stop (state : State)

/-- Runs `body` at most `fuel` times; `none` when the fuel runs out first. -/
def loop {State : Type} (body : State → Flow State) : (fuel : Nat) → State → Option State
  | 0, _ => none
  | fuel + 1, state =>
      match body state with
      | .next state => loop body fuel state
      | .stop state => some state

section

variable {State : Type} {body : State → Flow State}

theorem loop_next {state next : State} (goes : body state = .next next) (fuel : Nat) :
    loop body (fuel + 1) state = loop body fuel next := by
  simp [loop, goes]

theorem loop_stop {state final : State} (ends : body state = .stop final) (fuel : Nat) :
    loop body (fuel + 1) state = some final := by
  simp [loop, ends]

theorem loop_add {state final : State} :
    ∀ {fuel : Nat}, loop body fuel state = some final →
      ∀ extra, loop body (fuel + extra) state = some final
  | 0, finished, _ => by simp [loop] at finished
  | fuel + 1, finished, extra => by
      rw [Nat.add_right_comm]
      cases pass : body state with
      | next next =>
          rw [loop_next pass] at finished ⊢
          exact loop_add finished extra
      | stop stopped =>
          rw [loop_stop pass] at finished ⊢
          exact finished

theorem loop_eq_none_of_stuck (Stuck : State → Prop)
    (again : ∀ state, Stuck state → ∃ next, body state = .next next ∧ Stuck next) :
    ∀ (fuel : Nat) (state : State), Stuck state → loop body fuel state = none
  | 0, _, _ => rfl
  | fuel + 1, state, stuck => by
      obtain ⟨next, goes, stuck'⟩ := again state stuck
      rw [loop_next goes]
      exact loop_eq_none_of_stuck Stuck again fuel next stuck'

theorem loop_of_variant (Invariant Done : State → Prop) (measure : State → Nat)
    (pass : ∀ state, Invariant state →
      (∃ next, body state = .next next ∧ Invariant next ∧ measure next < measure state) ∨
        ∃ final, body state = .stop final ∧ Done final) :
    ∀ (fuel : Nat) (state : State), Invariant state → measure state < fuel →
      ∃ final, loop body fuel state = some final ∧ Done final
  | 0, _, _, enough => absurd enough (Nat.not_lt_zero _)
  | fuel + 1, state, holds, enough => by
      rcases pass state holds with ⟨next, goes, holds', smaller⟩ | ⟨final, ends, done⟩
      · rw [loop_next goes]
        exact loop_of_variant Invariant Done measure pass fuel next holds' (by omega)
      · exact ⟨final, loop_stop ends fuel, done⟩

end

end AgcBlock1
