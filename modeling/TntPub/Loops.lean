import Mathlib.Data.Nat.Basic
import Mathlib.Tactic.Cases

namespace Loops

variable {σ ε : Type}

/-- The run of `while (body());`, with the number of its iterations that said to go on. A loop
that never ends has no such run. -/
inductive Ends (body : EStateM ε σ Bool) : σ → Nat → EStateM.Result ε σ Unit → Prop
  | stop {s t} : body s = .ok false t → Ends body s 0 (.ok () t)
  | leave {s e t} : body s = .error e t → Ends body s 0 (.error e t)
  | again {s t n r} : body s = .ok true t → Ends body t n r → Ends body s (n + 1) r

variable {body : EStateM ε σ Bool}

/-- A loop whose iterations each use up `cost` of what is available ends, and has no more
iterations than that allows. -/
theorem ends_of_cost (available : σ → Nat) {cost : Nat} (hpos : 0 < cost)
    (hcost : ∀ s t, body s = .ok true t → available t + cost ≤ available s) (s : σ) :
    ∃ n r, Ends body s n r ∧ cost * n ≤ available s := by
  induction hk : available s using Nat.strongRecOn generalizing s with
  | _ k ih =>
    cases hb : body s with
    | error e t => exact ⟨0, _, .leave hb, Nat.zero_le _⟩
    | ok more t =>
      cases more with
      | false => exact ⟨0, _, .stop hb, Nat.zero_le _⟩
      | true =>
        have hstep := hcost s t hb
        obtain ⟨n, r, hends, hle⟩ := ih (available t) (by omega) t rfl
        refine ⟨n + 1, r, .again hb hends, ?_⟩
        rw [Nat.mul_succ]
        omega

end Loops
