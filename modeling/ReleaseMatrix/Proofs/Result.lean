/- Results that may be errors: what a chain of steps consists of that succeeded, where one failed, and
   when two results agree. -/
namespace ReleaseMatrix.Result

variable {ε α β γ : Type}

theorem bind_ok {x : Except ε α} {next : α → Except ε β} {b : β} (ok : x >>= next = .ok b) :
    ∃ a, x = .ok a ∧ next a = .ok b := by
  cases x with
  | error e => simp [Bind.bind, Except.bind] at ok
  | ok a => exact ⟨a, rfl, ok⟩

theorem bind_error {x : Except ε α} {next : α → Except ε β} {e : ε} (failed : x >>= next = .error e) :
    x = .error e ∨ ∃ a, x = .ok a ∧ next a = .error e := by
  cases x with
  | error e' => exact .inl (congrArg _ (Except.error.inj failed))
  | ok a => exact .inr ⟨a, rfl, failed⟩

theorem mapped_ok {x : Except ε α} {f : α → β} {b : β} (ok : x.map f = .ok b) :
    ∃ a, x = .ok a ∧ f a = b := by
  cases x with
  | error e => simp [Except.map] at ok
  | ok a => exact ⟨a, rfl, Except.ok.inj ok⟩

theorem mapped_error {x : Except ε α} {f : α → β} {e : ε} (failed : x.map f = .error e) :
    x = .error e := by
  cases x with
  | error e' => exact congrArg _ (Except.error.inj failed)
  | ok a => simp [Except.map] at failed

theorem ok_of_any {x : Except ε α} {test : α → Bool} (found : x.toOption.any test = true) :
    ∃ a, x = .ok a ∧ test a = true := by
  cases x with
  | error e => simp [Except.toOption] at found
  | ok a => exact ⟨a, rfl, found⟩

theorem alike_cases {x : Except ε α} {y : Except ε β} {f : α → γ} {g : β → γ}
    (same : x.map f = y.map g) :
    (∃ e, x = .error e ∧ y = .error e) ∨ ∃ a b, x = .ok a ∧ y = .ok b ∧ f a = g b := by
  cases x with
  | error e =>
    cases y with
    | error e' => exact .inl ⟨e, rfl, congrArg _ (Except.error.inj same).symm⟩
    | ok b => simp [Except.map] at same
  | ok a =>
    cases y with
    | error e => simp [Except.map] at same
    | ok b => exact .inr ⟨a, b, rfl, rfl, Except.ok.inj same⟩

end ReleaseMatrix.Result
