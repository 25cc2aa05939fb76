import ElementTypes.Proofs.Memory
import ElementTypes.Proofs.Outcome

/-! # How changes end -/

namespace ElementTypes

theorem except_map_map {α β γ : Type} (outcome : Except Error α) (f : α → β) (g : β → γ) :
    (outcome.map f).map g = outcome.map fun a => g (f a) := by
  cases outcome <;> rfl

namespace Change

variable {σ τ α β : Type} {memory left : Memory}

inductive Ends (outcome : Except Error (α × σ)) (a : σ) (memory : Memory) :
    Except Error α × σ × Memory → Prop
  | done {x : α} {b : σ} {left : Memory} (same : outcome = .ok (x, b))
      (kept : memory = .ample → left = .ample) : Ends outcome a memory (.ok x, b, left)
  | refused {error : Error} {left : Memory} (same : outcome = .error error)
      (kept : memory = .ample → left = .ample) : Ends outcome a memory (.error error, a, left)
  | short {error : Error} {left : Memory} (scarce : memory ≠ .ample) :
      Ends outcome a memory (.error error, a, left)

def ending (outcome : Except Error (α × σ)) (a : σ) : Except Error α × σ × Memory :=
  match outcome with
  | .ok (x, b) => (.ok x, b, .ample)
  | .error error => (.error error, a, .ample)

namespace Ends

variable {outcome : Except Error (α × σ)} {a : σ} {out : Except Error α × σ × Memory}

theorem eq_of_ample (ends : Ends outcome a .ample out) : out = ending outcome a := by
  cases ends with
  | done same kept => rw [same, kept rfl, ending]
  | refused same kept => rw [same, kept rfl, ending]
  | short scarce => exact absurd rfl scarce

theorem unchanged (ends : Ends outcome a memory out) {error : Error}
    (fault : out.1 = .error error) : out.2.1 = a := by
  cases ends with
  | done => cases fault
  | refused | short => rfl

theorem eq_ok (ends : Ends outcome a memory out) {x : α} (given : out.1 = .ok x) :
    outcome = .ok (x, out.2.1) := by
  cases ends with
  | done same =>
      obtain rfl := Except.ok.inj given
      exact same
  | refused | short => cases given

theorem eq_ok_of_run {change : Change σ α} (ends : Ends outcome a memory (change.run (a, memory)))
    {x : α} {b : σ} {left : Memory} (ran : change.run (a, memory) = (.ok x, b, left)) :
    outcome = .ok (x, b) := by
  rw [ran] at ends
  exact ends.eq_ok rfl

end Ends

section Steps

variable {outcome : Except Error (α × σ)} {a : σ} {change : Change σ α}

theorem run_read_bind (f : σ → Change σ β) (a : σ) (memory : Memory) :
    (read >>= f).run (a, memory) = (f a).run (a, memory) := rfl

theorem run_reserve (n : Nat) (error : Error) (a : σ) (memory : Memory) :
    (reserve n error).run (a, memory) =
      (if (memory.ask n).1 then .ok () else .error error, a, (memory.ask n).2) := by
  unfold reserve
  rw [run_get_bind]
  dsimp only
  rcases memory.ask n with ⟨_ | _, left⟩ <;> rfl

theorem run_onPart (change : Change τ α) (part : τ) (put : τ → σ → σ) (a : σ) (memory : Memory) :
    (change.onPart part put).run (a, memory) = ((change.run (part, memory)).1,
      put (change.run (part, memory)).2.1 a, (change.run (part, memory)).2.2) := by
  unfold onPart
  rw [run_get_bind]
  dsimp only
  rcases change.run (part, memory) with ⟨_ | _, part', left⟩ <;> rfl

namespace Ends

theorem earlier {out : Except Error α × σ × Memory} (kept : memory = .ample → left = .ample)
    (ends : Ends outcome a left out) : Ends outcome a memory out := by
  cases ends with
  | done same kept' => exact .done same (kept' ∘ kept)
  | refused same kept' => exact .refused same (kept' ∘ kept)
  | short scarce => exact .short (scarce ∘ kept)

theorem reserve_bind {n : Nat} {error : Error} {f : Unit → Change σ α}
    (rest : ∀ left, Ends outcome a left ((f ()).run (a, left))) :
    Ends outcome a memory ((reserve n error >>= f).run (a, memory)) := by
  have asked := run_reserve n error a memory
  cases granted : (memory.ask n).1 with
  | true =>
      rw [granted, if_pos rfl] at asked
      rw [run_bind_ok _ _ _ asked]
      refine (rest _).earlier fun enough => ?_
      rw [enough, Memory.ask_ample]
  | false =>
      rw [granted, if_neg Bool.false_ne_true] at asked
      rw [run_bind_error _ _ _ asked]
      refine .short fun enough => ?_
      rw [enough, Memory.ask_ample] at granted
      cases granted

theorem bind {f : α → Change σ β} (ends : Ends outcome a memory (change.run (a, memory)))
    (next : α × σ → β × σ)
    (rest : ∀ x b left, (f x).run (b, left) = (.ok (next (x, b)).1, (next (x, b)).2, left)) :
    Ends (outcome.map next) a memory ((change >>= f).run (a, memory)) := by
  rcases ran : change.run (a, memory) with ⟨result, b, left⟩
  rw [ran] at ends
  cases ends with
  | @done x _ _ same kept =>
      rw [run_bind_ok _ _ _ ran, rest x b left]
      exact .done (by rw [same]; rfl) kept
  | refused same kept =>
      rw [run_bind_error _ _ _ ran]
      exact .refused (by rw [same]; rfl) kept
  | short scarce =>
      rw [run_bind_error _ _ _ ran]
      exact .short scarce

theorem onPart (whole : τ) (put : σ → τ → τ) (same : put a whole = whole)
    (ends : Ends outcome a memory (change.run (a, memory))) :
    Ends (outcome.map fun (x, part) => (x, put part whole)) whole memory
      ((change.onPart a put).run (whole, memory)) := by
  rw [run_onPart]
  generalize change.run (a, memory) = out at ends
  cases ends with
  | done given kept => exact .done (by rw [given]; rfl) kept
  | refused fault kept =>
      rw [same]
      exact .refused (by rw [fault]; rfl) kept
  | short scarce =>
      rw [same]
      exact .short scarce

end Ends

end Steps

end Change

end ElementTypes
