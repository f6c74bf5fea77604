import BranchingStory.Notice

/-!
# Computations that tell

Two shapes of result recur. `Told` is a value together with the notices told on the way to it.
`Attempt` may fail instead of giving a value, and has told its notices either way. In both the
notices only accumulate, so every law about values can be proved without looking at them.
-/

namespace BranchingStory

/-- A value together with the notices told on the way to it. -/
structure Told (α : Type) where
  value : α
  notices : List Notice := []

namespace Told

variable {α β : Type}

def tell (n : Notice) : Told Unit := ⟨(), [n]⟩

instance : Monad Told where
  pure a := ⟨a, []⟩
  bind x f := ⟨(f x.value).value, x.notices ++ (f x.value).notices⟩

@[simp] theorem value_pure (a : α) : (pure a : Told α).value = a := rfl

@[simp] theorem notices_pure (a : α) : (pure a : Told α).notices = [] := rfl

@[simp] theorem value_bind (x : Told α) (f : α → Told β) : (x >>= f).value = (f x.value).value := rfl

@[simp] theorem notices_bind (x : Told α) (f : α → Told β) :
    (x >>= f).notices = x.notices ++ (f x.value).notices := rfl

@[simp] theorem value_map (f : α → β) (x : Told α) : (f <$> x).value = f x.value := rfl

end Told

/-- The outcome of something that may fail, and the notices told on the way. -/
structure Attempt (ε α : Type) where
  result : Except ε α
  notices : List Notice := []

namespace Attempt

variable {ε ε' α β : Type}

instance : Monad (Attempt ε) where
  pure a := ⟨.ok a, []⟩
  bind x f :=
    match x.result with
    | .ok a => ⟨(f a).result, x.notices ++ (f a).notices⟩
    | .error e => ⟨.error e, x.notices⟩

def fail (e : ε) : Attempt ε α := ⟨.error e, []⟩

def tell (n : Notice) : Attempt ε Unit := ⟨.ok (), [n]⟩

/-- The same outcome with another description of the failure. -/
def mapError (f : ε → ε') (x : Attempt ε α) : Attempt ε' α := ⟨x.result.mapError f, x.notices⟩

def ofExcept (x : Except ε α) : Attempt ε α := ⟨x, []⟩

@[simp] theorem result_pure (a : α) : (pure a : Attempt ε α).result = .ok a := rfl

@[simp] theorem result_fail (e : ε) : (fail e : Attempt ε α).result = .error e := rfl

@[simp] theorem result_tell (n : Notice) : (tell n : Attempt ε Unit).result = .ok () := rfl

@[simp] theorem result_mapError (f : ε → ε') (x : Attempt ε α) :
    (x.mapError f).result = x.result.mapError f := rfl

theorem mapError_eq_ok {f : ε → ε'} {x : Except ε α} {a : α} : x.mapError f = .ok a ↔ x = .ok a := by
  cases x with
  | ok b =>
    constructor
    · intro h
      exact congrArg Except.ok (Except.ok.inj h)
    · intro h
      exact congrArg Except.ok (Except.ok.inj h)
  | error e =>
    constructor
    · intro h
      cases h
    · intro h
      cases h

/-- What is computed of a value shows that there is one. -/
theorem exists_of_map_toOption {x : Except ε α} {f : α → β} {b : β} (h : x.toOption.map f = some b) :
    ∃ a, x = .ok a ∧ f a = b := by
  cases x with
  | ok a => exact ⟨a, rfl, Option.some.inj h⟩
  | error e => cases h

@[simp] theorem result_ofExcept (x : Except ε α) : (ofExcept x).result = x := rfl

theorem result_bind (x : Attempt ε α) (f : α → Attempt ε β) :
    (x >>= f).result = x.result >>= fun a => (f a).result := by
  obtain ⟨result, notices⟩ := x
  cases result <;> rfl

theorem result_bind_eq_ok {x : Attempt ε α} {f : α → Attempt ε β} {b : β} :
    (x >>= f).result = .ok b ↔ ∃ a, x.result = .ok a ∧ (f a).result = .ok b := by
  rw [result_bind]
  cases h : x.result with
  | error e => simp [bind, Except.bind]
  | ok a => simp [bind, Except.bind]

/-- A sequence of two steps fails in the first, or after it in the second. -/
theorem result_bind_eq_error {x : Attempt ε α} {f : α → Attempt ε β} {e : ε} :
    (x >>= f).result = .error e ↔ x.result = .error e ∨ ∃ a, x.result = .ok a ∧ (f a).result = .error e := by
  rw [result_bind]
  cases h : x.result <;> simp [bind, Except.bind]

theorem pure_ne_error (a : α) (e : ε) : (pure a : Attempt ε α).result ≠ .error e := by simp

theorem bind_ne_error {x : Attempt ε α} {f : α → Attempt ε β} {e : ε} (hx : x.result ≠ .error e)
    (hf : ∀ a, (f a).result ≠ .error e) : (x >>= f).result ≠ .error e := by
  intro h
  rcases result_bind_eq_error.mp h with h | ⟨a, _, h⟩
  · exact hx h
  · exact hf a h

theorem result_bind_of_ok {x : Attempt ε α} {a : α} (h : x.result = .ok a) (f : α → Attempt ε β) :
    (x >>= f).result = (f a).result := by
  rw [result_bind, h]
  rfl

theorem id_map (x : Attempt ε α) : id <$> x = x := by
  obtain ⟨result, notices⟩ := x
  cases result with
  | error e => rfl
  | ok a => simp [Functor.map]

theorem bind_assoc {γ : Type} (x : Attempt ε α) (f : α → Attempt ε β) (g : β → Attempt ε γ) :
    x >>= f >>= g = x >>= fun a => f a >>= g := by
  obtain ⟨result, notices⟩ := x
  cases result with
  | error e => rfl
  | ok a => cases h : (f a).result <;> simp [bind, h, List.append_assoc]

instance : LawfulMonad (Attempt ε) :=
  LawfulMonad.mk' (Attempt ε) id_map (fun a f => by simp [bind, pure]) bind_assoc

end Attempt
end BranchingStory
