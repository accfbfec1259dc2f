import Montage.Request.Fields

/-!
# Requests by the names of their fields

A request is looked into by names only, and a text is the same key as itself alone.  So a
request that is changed under one name answers to all other names as before: a field can be
renamed in its place (`rename`), left out (`without`) or given a value (`withField`).  A field
that is looked for under two names is found under either (`field_rename`).
-/

namespace Montage

/-- A text is the same key as itself alone. -/
theorem Value.sameKey_text_iff {key : Value} {name : String} :
    key.sameKey (.text name) = true ↔ key = .text name := by
  cases key with
  | text s => simp [sameKey, keyNumber?]
  | null | bool | number | bytes | date | moment | list | pair | map | set =>
      simp [sameKey, keyNumber?]

theorem Value.sameKey_text {name other : String} :
    (Value.text name).sameKey (.text other) = (name == other) := rfl

namespace Request

/-- The request with one field under another name, in its place. -/
def rename (request : Request) (name other : String) : Request :=
  request.map fun entry =>
    (if entry.1.sameKey (.text name) then .text other else entry.1, entry.2)

/-- The request without one field. -/
def without (request : Request) (name : String) : Request :=
  request.filter fun entry => !entry.1.sameKey (.text name)

/-- The request with one field set to a value. -/
def withField (request : Request) (name : String) (v : Value) : Request :=
  Value.put request (.text name) v

variable {request other : Request} {name second key : String} {names : List String} {v : Value}

theorem lookup?_cons (entry : Value × Value) (rest : Request) (key : Value) :
    Value.lookup? (entry :: rest) key =
      if entry.1.sameKey key then some entry.2 else Value.lookup? rest key := by
  unfold Value.lookup?
  by_cases h : entry.1.sameKey key = true
  · simp [h]
  · simp [h]

/-- Under any third name a renamed field does not show. -/
theorem lookup?_rename_of_ne (hname : key ≠ name) (hsecond : key ≠ second) :
    Value.lookup? (rename request name second) (.text key) = Value.lookup? request (.text key) := by
  induction request with
  | nil => rfl
  | cons entry rest ih =>
      rw [rename, List.map_cons, lookup?_cons, lookup?_cons, ← rename, ih]
      by_cases hrenamed : entry.1.sameKey (.text name) = true
      · rw [Value.sameKey_text_iff.1 hrenamed]
        simp [Value.sameKey_text, Ne.symm hname, Ne.symm hsecond]
      · simp [hrenamed]

/-- Under its old name a renamed field is not found. -/
theorem lookup?_rename_self (h : name ≠ second) :
    Value.lookup? (rename request name second) (.text name) = none := by
  induction request with
  | nil => rfl
  | cons entry rest ih =>
      rw [rename, List.map_cons, lookup?_cons, ← rename, ih]
      by_cases hrenamed : entry.1.sameKey (.text name) = true
      · simp [hrenamed, Value.sameKey_text, Ne.symm h]
      · simp [hrenamed]

/-- Under a name that was free it is found with its value. -/
theorem lookup?_rename_second (h : Value.lookup? request (.text second) = none) :
    Value.lookup? (rename request name second) (.text second) =
      Value.lookup? request (.text name) := by
  induction request with
  | nil => rfl
  | cons entry rest ih =>
      rw [lookup?_cons] at h
      have hfree : ¬ entry.1.sameKey (.text second) = true := by
        intro htaken
        rw [if_pos htaken] at h
        cases h
      rw [if_neg hfree] at h
      rw [rename, List.map_cons, lookup?_cons, lookup?_cons, ← rename, ih h]
      by_cases hrenamed : entry.1.sameKey (.text name) = true
      · simp [hrenamed, Value.sameKey_text]
      · simp [hrenamed, hfree]

theorem lookup?_without_of_ne (h : key ≠ name) :
    Value.lookup? (without request name) (.text key) = Value.lookup? request (.text key) := by
  induction request with
  | nil => rfl
  | cons entry rest ih =>
      by_cases hleft : entry.1.sameKey (.text name) = true
      · have hkey : entry.1.sameKey (.text key) = false := by
          rw [Value.sameKey_text_iff.1 hleft, Value.sameKey_text]
          simpa using Ne.symm h
        rw [without, List.filter_cons_of_neg (by simp [hleft]), ← without, ih, lookup?_cons, hkey]
        rfl
      · rw [without, List.filter_cons_of_pos (by simpa using hleft), lookup?_cons, lookup?_cons,
          ← without, ih]

theorem lookup?_without_self : Value.lookup? (without request name) (.text name) = none := by
  simp [Value.lookup?, without, List.find?_eq_none]

theorem lookup?_withField_self :
    Value.lookup? (withField request name v) (.text name) = some v := by
  induction request with
  | nil => simp [withField, Value.put, lookup?_cons, Value.sameKey_text]
  | cons entry rest ih =>
      by_cases hset : entry.1.sameKey (.text name) = true
      · simp [withField, Value.put, hset, lookup?_cons]
      · simp only [withField] at ih
        simp [withField, Value.put, hset, lookup?_cons, ih]

theorem lookup?_withField_of_ne (h : key ≠ name) :
    Value.lookup? (withField request name v) (.text key) = Value.lookup? request (.text key) := by
  induction request with
  | nil => simp [withField, Value.put, lookup?_cons, Value.sameKey_text, Ne.symm h]
  | cons entry rest ih =>
      by_cases hset : entry.1.sameKey (.text name) = true
      · have hkey : entry.1.sameKey (.text key) = false := by
          rw [Value.sameKey_text_iff.1 hset, Value.sameKey_text]
          simpa using Ne.symm h
        simp [withField, Value.put, hset, lookup?_cons, hkey]
      · simp only [withField] at ih
        simp [withField, Value.put, hset, lookup?_cons, ih]

/-- Requests that answer alike to every name give the same field. -/
theorem field_congr
    (h : ∀ key ∈ names, Value.lookup? request (.text key) = Value.lookup? other (.text key)) :
    request.field names = other.field names := by
  induction names with
  | nil => rfl
  | cons first rest ih =>
      rw [field, field, h first List.mem_cons_self, ih fun key hkey =>
        h key (List.mem_cons_of_mem _ hkey)]

/-- A field that is looked for under two names is found under either. -/
theorem field_rename (hne : name ≠ second) (hfree : Value.lookup? request (.text second) = none) :
    (rename request name second).field [name, second] = request.field [name, second] := by
  simp only [field, lookup?_rename_self hne, lookup?_rename_second hfree, hfree]

/-- A field that is looked for under its old name only is missing once it is renamed. -/
theorem field_rename_self (hne : name ≠ second) :
    (rename request name second).field [name] = .null := by
  simp only [field, lookup?_rename_self hne]

theorem field_rename_of_not_mem (hname : name ∉ names) (hsecond : second ∉ names) :
    (rename request name second).field names = request.field names :=
  field_congr fun _ hkey => lookup?_rename_of_ne (ne_of_mem_of_not_mem hkey hname)
    (ne_of_mem_of_not_mem hkey hsecond)

theorem field_without_self : (without request name).field [name] = .null := by
  simp only [field, lookup?_without_self]

theorem field_without_of_not_mem (h : name ∉ names) :
    (without request name).field names = request.field names :=
  field_congr fun _ hkey => lookup?_without_of_ne (ne_of_mem_of_not_mem hkey h)

/-- A field that is set is found under its first name, whatever else stands under others. -/
theorem field_withField_self : (withField request name v).field (name :: names) = v := by
  simp only [field, lookup?_withField_self]

theorem field_withField_of_not_mem (h : name ∉ names) :
    (withField request name v).field names = request.field names :=
  field_congr fun _ hkey => lookup?_withField_of_ne (ne_of_mem_of_not_mem hkey h)

end Request

end Montage
