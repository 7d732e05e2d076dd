/-!
# Results that may be errors

What is known of a step when something that is computed from its result is known: that it succeeds
(`exists_of_map_eq_ok`, `exists_of_toOption_map`) or that it fails (`eq_error_of_map`). Where the error of a
step does not matter, the step is compared as an option (`toOption_bind`, `toOption_mapError`).
-/

namespace VectorIcon

variable {ε ε' α β : Type} {x : Except ε α} {f : α → β} {a : α} {b : β} {e : ε}

theorem exists_of_map_eq_ok (h : x.map f = .ok b) : ∃ a, x = .ok a ∧ f a = b := by
  cases x with
  | error e => cases h
  | ok a =>
    cases h
    exact ⟨a, rfl, rfl⟩

theorem eq_error_of_map (h : x.map f = .error e) : x = .error e := by
  cases x with
  | error e' =>
    cases h
    rfl
  | ok a => cases h

theorem eq_ok_of_toOption (h : x.toOption = some a) : x = .ok a := by
  cases x with
  | error error => cases h
  | ok a' => exact congrArg _ (Option.some.inj h)

theorem exists_of_toOption_map (h : x.toOption.map f = some b) : ∃ a, x = .ok a ∧ f a = b := by
  obtain ⟨a, ha, hb⟩ := Option.map_eq_some_iff.1 h
  exact ⟨a, eq_ok_of_toOption ha, hb⟩

theorem toOption_bind (x : Except ε α) (f : α → Except ε β) :
    (x >>= f).toOption = x.toOption.bind fun a => (f a).toOption := by
  cases x <;> rfl

theorem toOption_mapError (x : Except ε α) (f : ε → ε') : (x.mapError f).toOption = x.toOption := by
  cases x <;> rfl

end VectorIcon
