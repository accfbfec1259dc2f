import Montage.Host.Action

/-!
# How computations end

A computation of the program ends with a result or with a failure.  `Ends good bad x`
says of both at once what is known about them, and the lemmas below follow a
computation step by step: what a step promises is what the next may rely on, and a
failure of any step is a failure of the whole.
-/

namespace Montage

variable {α β ε : Type}

/-- The result of a computation is `good`, or its failure is `bad`. -/
def Ends (good : α → Prop) (bad : ε → Prop) : Except ε α → Prop
  | .ok a => good a
  | .error e => bad e

namespace Ends

variable {good : α → Prop} {bad : ε → Prop}

theorem mono {good' : α → Prop} {bad' : ε → Prop} {x : Except ε α} (h : Ends good bad x)
    (hgood : ∀ a, good a → good' a) (hbad : ∀ e, bad e → bad' e) : Ends good' bad' x := by
  cases x with
  | ok a => exact hgood a h
  | error e => exact hbad e h

/-- What a computation ends with is what it comes to. -/
theorem self (x : Except ε α) : Ends (fun a => x = .ok a) (fun e => x = .error e) x := by
  cases x with
  | ok a => rfl
  | error e => rfl

/-- What cannot fail has a result. -/
theorem exists_ok {x : Except ε α} (h : Ends good bad x) (hbad : ∀ e, ¬ bad e) :
    ∃ a, x = .ok a ∧ good a := by
  cases x with
  | ok a => exact ⟨a, rfl, h⟩
  | error e => exact absurd h (hbad e)

/-- What is seen to succeed has a result. -/
theorem exists_of_toBool {x : Except ε α} (h : x.toBool = true) : ∃ a, x = .ok a := by
  cases x with
  | ok a => exact ⟨a, rfl⟩
  | error e => cases h

/-- What has a result is that result. -/
theorem of_toOption {x : Except ε α} {a : α} (h : x.toOption = some a) : x = .ok a := by
  cases x with
  | ok b => exact congrArg Except.ok (Option.some.inj h)
  | error e => cases h

/-- A step that ends well is followed by the rest. -/
theorem bind {good' : β → Prop} {x : Except ε α} {k : α → Except ε β} (hx : Ends good bad x)
    (hk : ∀ a, good a → Ends good' bad (k a)) : Ends good' bad (x >>= k) := by
  cases x with
  | ok a => exact hk a hx
  | error e => exact hx

/-- Any step may stand before the rest if nothing is said of failures. -/
theorem after {x : Except ε α} {k : α → Except ε β} {good : β → Prop}
    (hk : ∀ a, Ends good (fun _ => True) (k a)) : Ends good (fun _ => True) (x >>= k) := by
  cases x with
  | ok a => exact hk a
  | error e => trivial

theorem map {good' : β → Prop} {x : Except ε α} {f : α → β} (hx : Ends good bad x)
    (hf : ∀ a, good a → good' (f a)) : Ends good' bad (x.map f) := by
  cases x with
  | ok a => exact hf a hx
  | error e => exact hx

/-- A step that is known to succeed only hands its result on. -/
theorem ok_bind {x : Except ε α} {a : α} {k : α → Except ε β} (hx : x = .ok a) :
    x >>= k = k a := by
  rw [hx]
  rfl

/-- A step that is known to fail fails the whole. -/
theorem error_bind {x : Except ε α} {e : ε} {k : α → Except ε β} (hx : x = .error e) :
    x >>= k = .error e := by
  rw [hx]
  rfl

theorem mapError_bind {ε' : Type} {f : ε' → ε} {x : Except ε' α} {a : α} {k : α → Except ε β}
    (hx : x = .ok a) : x.mapError f >>= k = k a := by
  rw [hx]
  rfl

theorem bind_mapError_ok {ε' : Type} {good : β → Prop} {f : ε' → ε} {x : Except ε' α} {a : α}
    {k : α → Except ε β} (hx : x = .ok a) (hk : Ends good bad (k a)) :
    Ends good bad (x.mapError f >>= k) := by
  rwa [mapError_bind hx]

/-- What has succeeded, succeeded in both its steps. -/
theorem of_bind_ok {x : Except ε α} {k : α → Except ε β} {b : β} (h : x >>= k = .ok b) :
    ∃ a, x = .ok a ∧ k a = .ok b := by
  cases x with
  | ok a => exact ⟨a, rfl, h⟩
  | error e => cases h

/-- A sequence that fails has failed in its first part or in its second. -/
theorem of_bind_error {x : Except ε α} {k : α → Except ε β} {e : ε} (h : x >>= k = .error e) :
    x = .error e ∨ ∃ a, x = .ok a ∧ k a = .error e := by
  cases x with
  | error e' => exact .inl (congrArg Except.error (Except.error.inj h))
  | ok a => exact .inr ⟨a, rfl, h⟩

/-- A refusal under a condition, and the rest if the condition fails. -/
theorem guard {c : Prop} [Decidable c] {e : ε} {k : Unit → Except ε α} (hthrow : c → bad e)
    (hk : ¬ c → Ends good bad (k ())) : Ends good bad (if c then throw e >>= k else k ()) := by
  by_cases hc : c
  · rw [if_pos hc]
    exact hthrow hc
  · rw [if_neg hc]
    exact hk hc

/-- What has succeeded behind a refusal was not refused. -/
theorem of_guard_ok {c : Prop} [Decidable c] {e : ε} {k : Unit → Except ε α} {a : α}
    (h : (if c then throw e >>= k else k ()) = .ok a) : ¬ c ∧ k () = .ok a := by
  by_cases hc : c
  · rw [if_pos hc] at h
    cases h
  · rw [if_neg hc] at h
    exact ⟨hc, h⟩

end Ends

end Montage
