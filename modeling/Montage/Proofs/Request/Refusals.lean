import Montage.Proofs.Failure
import Montage.Request.Fields
import Montage.Resize

/-!
# What the readers of fields refuse

A reader of a field refuses what it does not understand, and in doing so names the field that it
reads and no other.  All it can fail with besides is the fault of a value that cannot be shown or
computed with (`RefusesOnly`).
-/

namespace Montage

/-- The field of this name is refused, or its value comes upon a fault. -/
def Failure.Refuses (name : Option String) (failure : Failure) : Prop :=
  (∃ cause, failure = .field name cause) ∨ ∃ fault, failure = .fault fault

theorem Failure.Refuses.isEngine_eq_false {name : Option String} {failure : Failure}
    (h : failure.Refuses name) : failure.isEngine = false := by
  rcases h with ⟨cause, rfl⟩ | ⟨fault, rfl⟩
  · rfl
  · rfl

/-- A computation that can fail in no other way than that. -/
def RefusesOnly {α : Type} (name : Option String) (x : Except Failure α) : Prop :=
  FailsWith (Failure.Refuses name) x

section

variable {α : Type} {name : Option String}

theorem FailsWith.field (cause : FieldCause) :
    FailsWith (Failure.Refuses name) (.error (.field name cause) : Except Failure α) :=
  .error (.inl ⟨cause, rfl⟩)

theorem FailsWith.fault (fault : Fault) :
    FailsWith (Failure.Refuses name) (.error (.fault fault) : Except Failure α) :=
  .error (.inr ⟨fault, rfl⟩)

theorem RefusesOnly.failsEarly {x : Except Failure α} (h : RefusesOnly name x) : FailsEarly x :=
  h.mono fun _ hrefuses => hrefuses.isEngine_eq_false

end

namespace Value

variable {name : Option String}

/-- What cannot be shown is a fault. -/
theorem shownAs_fails (v : Value) (text : String) :
    FailsWith (fun failure => ∃ fault, failure = .fault fault) (v.shownAs text) :=
  .ite (.error ⟨_, rfl⟩) (.ite (.error ⟨_, rfl⟩) (.ok _))

theorem refusesOnly_shownAs (v : Value) (text : String) : RefusesOnly name (v.shownAs text) :=
  (v.shownAs_fails text).mono fun _ => .inr

theorem refusesOnly_quoted (v : Value) : RefusesOnly name v.quoted := v.refusesOnly_shownAs _

theorem refusesOnly_plain (v : Value) : RefusesOnly name v.plain := v.refusesOnly_shownAs _

theorem refusesOnly_toFloat? (v : Value) : RefusesOnly name v.toFloat? := by
  unfold toFloat?
  split
  · split
    · exact .ok _
    · exact .fault _
  · exact .ok _
  · exact .ok _
  · exact .ok _
  · exact .ok _

theorem failsEarly_quoted (v : Value) : FailsEarly v.quoted :=
  (v.refusesOnly_quoted : RefusesOnly none v.quoted).failsEarly

theorem failsEarly_plain (v : Value) : FailsEarly v.plain :=
  (v.refusesOnly_plain : RefusesOnly none v.plain).failsEarly

theorem failsEarly_toFloat? (v : Value) : FailsEarly v.toFloat? :=
  (v.refusesOnly_toFloat? : RefusesOnly none v.toFloat?).failsEarly

end Value

namespace Request

variable {name : Option String}

theorem refusesOnly_refuseShown {α : Type} (cause : String → FieldCause) (v : Value) :
    RefusesOnly name (refuseShown name cause v : Except Failure α) :=
  v.refusesOnly_quoted.bind fun _ => .field _

theorem refusesOnly_number? (v : Value) : RefusesOnly name (number? v name) := by
  refine .ite (.ok _) ?_
  split
  · exact .field _
  · refine v.refusesOnly_toFloat?.bind fun read => ?_
    cases read with
    | none => exact refusesOnly_refuseShown _ v
    | some x => exact .ite (.ok _) (refusesOnly_refuseShown _ v)

theorem refusesOnly_speed (v : Value) (low high : Option Float) :
    RefusesOnly name (speed v name low high) :=
  (refusesOnly_number? v).bind fun _ => .ite (.field _) (.ite (.field _) (.ite (.field _) (.ok _)))

theorem refusesOnly_switch (v : Value) (default : Bool) :
    RefusesOnly name (switch v name default) := by
  refine .ite (.ok _) ?_
  split
  · exact .ok _
  · exact .ok _
  · exact .ite (.ok _) (.ite (.ok _) (refusesOnly_refuseShown _ _))
  · exact refusesOnly_refuseShown _ _

theorem refusesOnly_texts (items : List Value) : RefusesOnly name (texts name items) := by
  induction items with
  | nil => exact .ok _
  | cons v rest ih =>
      cases v with
      | text s => exact ih.bind fun _ => .ok _
      | null | bool | number | bytes | date | moment | list | pair | map | set => exact .field _

theorem refusesOnly_filters (v : Value) : RefusesOnly name (filters v name) := by
  refine .ite (.ok _) ?_
  split
  · exact .ok _
  · exact (refusesOnly_texts _).bind fun _ => .ok _
  · exact (refusesOnly_texts _).bind fun _ => .ok _
  · exact .field _

theorem refusesOnly_names (items : List Value) : RefusesOnly name (names name items) := by
  induction items with
  | nil => exact .ok _
  | cons v rest ih =>
      cases v with
      | text s => exact .ite (.field _) (ih.bind fun _ => .ok _)
      | null | bool | number | bytes | date | moment | list | pair | map | set => exact .field _

theorem refusesOnly_listed (list : Value) :
    RefusesOnly name (match list with
      | .list items => names name items
      | .pair first second => names name [first, second]
      | _ => refuse name .notNameList) := by
  split
  · exact refusesOnly_names _
  · exact refusesOnly_names _
  · exact .field _

theorem refusesOnly_nameList (v : Value) : RefusesOnly name (nameList v name) := by
  refine .ite (.ok _) ?_
  split
  · split
    · exact refusesOnly_listed _
    · exact .fault _
    · exact .field _
  · exact refusesOnly_listed _

theorem refusesOnly_requiredName (request : Request) (keys : List String) :
    RefusesOnly (some (keys.headD "")) (requiredName request keys) := by
  unfold requiredName
  split
  · exact .ite (.field _) (.ok _)
  · exact .field _
  · exact .field _

theorem refusesOnly_format? (v : Value) : RefusesOnly (some "format") (format? v) :=
  .ite (.ok _) (v.refusesOnly_plain.bind fun _ =>
    .ite (.ok _) (v.refusesOnly_quoted.bind fun _ => .field _))

theorem refusesOnly_codec? (v : Value) (name : String) :
    RefusesOnly (some name) (codec? v name) :=
  .ite (.ok _) (v.refusesOnly_plain.bind fun _ => .ite (.ok _) (refusesOnly_refuseShown _ v))

end Request

namespace Resize

theorem refusesOnly_readSide (field : String) (v : Value) :
    RefusesOnly (some field) (readSide field v) := by
  unfold readSide
  extract_lets refuse side
  have hrefuse (v : Value) : RefusesOnly (some field) (refuse v) :=
    v.refusesOnly_quoted.bind fun _ => .field _
  have hside (v : Value) : RefusesOnly (some field) (side v) := by
    simp only [side]
    split
    · exact hrefuse v
    · split
      · exact hrefuse v
      · exact .ite ((Value.refusesOnly_quoted _).bind fun _ => .field _) (.ok _)
  split
  · next b => exact hrefuse (.bool b)
  · next x =>
      split
      · next n _ => exact .ite (hside (.number (.int n))) (hrefuse (.number (.float x)))
      · exact hrefuse (.number (.float x))
  · exact hside v

theorem refusesOnly_read (resolution mode : Value) (field : String) :
    RefusesOnly (some field) (read resolution mode field) := by
  unfold read
  extract_lets refuse sides
  have hrefuse : RefusesOnly (some field) refuse :=
    resolution.refusesOnly_quoted.bind fun _ => .field _
  have hsides (parts : List Value) : RefusesOnly (some field) (sides parts) := by
    simp only [sides]
    split
    · exact (refusesOnly_readSide _ _).bind fun _ => (refusesOnly_readSide _ _).bind fun _ => .ok _
    · exact hrefuse
  split
  · exact .ok _
  · exact .ite (.ok _) (hsides _)
  · exact hsides _
  · next first second => exact hsides [first, second]
  · exact hrefuse

end Resize

end Montage
