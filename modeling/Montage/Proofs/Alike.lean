import Montage.Proofs.Ends
import Montage.Proofs.Host.Action

/-!
# Computations that end alike

Two runs of the program that differ in what hardly matters end alike: with the same failure, or
with results of which something is known (`Alike`).  The lemmas follow both runs at once.  A step
that both take in the same way is taken once (`after`), and where they part they have to end
alike themselves (`bind`).
-/

namespace Montage

variable {α β γ δ ε : Type}

/-- Two computations fail with the same failure, or come to results that are related. -/
def Alike (same : α → β → Prop) : Except ε α → Except ε β → Prop
  | .ok a, .ok b => same a b
  | .error e, .error e' => e = e'
  | _, _ => False

namespace Alike

variable {same : α → β → Prop} {x : Except ε α} {y : Except ε β}

/-- What follows on steps that end alike ends alike. -/
theorem bind {same' : γ → δ → Prop} {next : α → Except ε γ} {next' : β → Except ε δ}
    (h : Alike same x y)
    (hnext : ∀ a b, x = .ok a → y = .ok b → same a b → Alike same' (next a) (next' b)) :
    Alike same' (x >>= next) (y >>= next') := by
  cases x with
  | ok a =>
      cases y with
      | ok b => exact hnext a b rfl rfl h
      | error e => exact h.elim
  | error e =>
      cases y with
      | ok b => exact h.elim
      | error e' => exact h

theorem mono {same' : α → β → Prop} (h : Alike same x y) (himp : ∀ a b, same a b → same' a b) :
    Alike same' x y := by
  cases x with
  | ok a =>
      cases y with
      | ok b => exact himp a b h
      | error e => exact h.elim
  | error e =>
      cases y with
      | ok b => exact h.elim
      | error e' => exact h

/-- A computation is like itself. -/
theorem self {same : α → α → Prop} {x : Except ε α} (h : ∀ a, x = .ok a → same a a) :
    Alike same x x := by
  cases x with
  | ok a => exact h a rfl
  | error e => rfl

/-- After the same step both go on. -/
theorem after {same : γ → δ → Prop} {next : α → Except ε γ} {next' : α → Except ε δ}
    (hnext : ∀ a, x = .ok a → Alike same (next a) (next' a)) :
    Alike same (x >>= next) (x >>= next') := by
  refine (self fun _ _ => rfl).bind fun a b ha _ hsame => ?_
  cases hsame
  exact hnext a ha

/-- Computations that end alike fail alike. -/
theorem error_iff (h : Alike same x y) (e : ε) : x = .error e ↔ y = .error e := by
  cases x with
  | ok a =>
      cases y with
      | ok b => simp
      | error e' => exact h.elim
  | error e' =>
      cases y with
      | ok b => exact h.elim
      | error e'' =>
          cases h
          simp

/-- Of computations that end alike one comes to the result of the other if this is how they are
related. -/
theorem ok_iff {x y : Except ε α} {p : Prop} (h : Alike (fun a b => a = b ↔ p) x y) {a : α}
    (hy : y = .ok a) : x = .ok a ↔ p := by
  subst hy
  cases x with
  | ok b =>
      have hsame : b = a ↔ p := h
      rw [← hsame]
      exact ⟨fun heq => Except.ok.inj heq, fun heq => congrArg Except.ok heq⟩
  | error e => exact h.elim

end Alike

/-- After the same action both go on, on the same host. -/
theorem Action.alike_bind {same : γ → δ → Prop} {action : Action α} {next : α → Action γ}
    {next' : α → Action δ} {host : Host}
    (hnext : ∀ a after, action.runOn host = (.ok a, after) →
      Alike same ((next a).result after) ((next' a).result after)) :
    Alike same ((action >>= next).result host) ((action >>= next').result host) := by
  rcases hrun : action.runOn host with ⟨failure | a, after⟩
  · rw [result, result, runOn_bind_error hrun, runOn_bind_error hrun]
    rfl
  · rw [result, result, runOn_bind hrun, runOn_bind hrun]
    exact hnext a after hrun

/-- Plain computations that end alike are followed by actions on the same host. -/
theorem Action.alike_lift_bind {same : α → β → Prop} {same' : γ → δ → Prop}
    {x : Except Failure α} {y : Except Failure β} {next : α → Action γ} {next' : β → Action δ}
    {host : Host} (h : Alike same x y)
    (hnext : ∀ a b, x = .ok a → y = .ok b → same a b →
      Alike same' ((next a).result host) ((next' b).result host)) :
    Alike same' (Action.result (liftM x >>= next) host)
      (Action.result (liftM y >>= next') host) := by
  rw [result_bind (reads_lift x), result_bind (reads_lift y), result_lift, result_lift]
  exact h.bind hnext

end Montage
