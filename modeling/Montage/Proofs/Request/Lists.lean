import Mathlib.Tactic.ByContra
import Montage.Proofs.Filter
import Montage.Proofs.Json.Reader
import Montage.Request.Fields

/-!
# Lists and their JSON texts

A list of file names may be given as a JSON text, which is read as the list that stands in it
(`nameList_of_read`).  A list of filters may be given as a text too, but this is one with commas
between the filters: what looks like a JSON list is cut at the commas, brackets and quotes stay,
and the filters are never those of the list (`filters_of_read`), since its text has more
characters than they have.
-/

namespace Montage.Request

/-- Trimmed texts without those of which nothing is left. -/
def tidied (parts : List String) : List String := (parts.map Text.strip).filter (· != "")

variable {s : String} {items : List String} {name : Option String}

theorem texts_texts (items : List String) : texts name (items.map .text) = .ok items := by
  induction items with
  | nil => rfl
  | cons item rest ih =>
      rw [List.map_cons, texts, ih]
      rfl

/-- The filters of a list are the trimmed items. -/
theorem filters_list (items : List String) :
    filters (.list (items.map .text)) name = .ok (tidied items) := by
  change (texts name (items.map .text) >>= fun list => .ok (tidied list)) = _
  rw [texts_texts]
  rfl

/-- The filters of a text stand between its commas. -/
theorem filters_text (h : Text.isBlankText s = false) :
    filters (.text s) name = .ok (tidied (commaParts s)) := by
  unfold filters
  rw [Value.isBlank, h]
  rfl

/-- The text of a list is not blank. -/
theorem isBlankText_of_read {list : List Value} (h : Json.read s = .ok (.list list)) :
    Text.isBlankText s = false := by
  by_contra hblank
  have hall : ∀ c ∈ s.toList, Text.isBlank c = true := by
    simpa [Text.isBlankText] using hblank
  exact absurd (hall _ (Json.bracket_mem_of_read h)) (by decide)

/-- Names are read from the text of a list as from the list. -/
theorem nameList_of_read {list : List Value} (h : Json.read s = .ok (.list list)) :
    nameList (.text s) name = nameList (.list list) name := by
  have hgiven := isBlankText_of_read h
  unfold nameList
  simp only [Value.isBlank, hgiven, h, Bool.false_eq_true, if_false]

/-- Neither white space nor a comma. -/
def isSolid (c : Char) : Bool := !Text.isBlank c && c != ','

theorem not_isSolid_of_isBlank (c : Char) (h : Text.isBlank c = true) : isSolid c = false := by
  simp [isSolid, h]

/-- Trimming keeps what is solid. -/
theorem weight_tidied (parts : List String) :
    Text.weight isSolid (tidied parts) = Text.weight isSolid parts := by
  rw [tidied, Text.weight_filter_ne_empty,
    Text.weight_map (Text.countP_strip not_isSolid_of_isBlank)]

/-- What is solid in a text is in the parts between its commas. -/
theorem weight_commaParts (s : String) :
    Text.weight isSolid (commaParts s) = s.toList.countP isSolid :=
  Text.weight_splitOn (by decide) s.toList

/-- Filters that are the same weigh the same as the caller wrote them. -/
theorem weight_eq_of_map_ofExpression {α : Type} [Arithmetic α] {expressions others : List String}
    (h : expressions.map (Filter.ofExpression (α := α)) = others.map Filter.ofExpression) :
    Text.weight isSolid expressions = Text.weight isSolid others := by
  have hrender (list : List String) :
      Text.weight isSolid ((list.map (Filter.ofExpression (α := α))).map Filter.render) =
        Text.weight isSolid list := by
    rw [List.map_map]
    exact Text.weight_map (Filter.countP_render_ofExpression not_isSolid_of_isBlank)
  rw [← hrender expressions, h, hrender others]

/-- **The filters in the text of a list are not those of the list.** -/
theorem filters_of_read {α : Type} [Arithmetic α]
    (h : Json.read s = .ok (.list (items.map .text))) :
    ∃ fromText fromList,
      (∀ name, filters (.text s) name = .ok fromText) ∧
        (∀ name, filters (.list (items.map .text)) name = .ok fromList) ∧
        fromText.map (Filter.ofExpression (α := α)) ≠ fromList.map Filter.ofExpression := by
  refine ⟨tidied (commaParts s), tidied items, fun _ => filters_text (isBlankText_of_read h),
    fun _ => filters_list items, fun hsame => ?_⟩
  have hweight := weight_eq_of_map_ofExpression hsame
  rw [weight_tidied, weight_tidied, weight_commaParts] at hweight
  have hless : Text.weight isSolid items < s.toList.countP isSolid :=
    Json.weight_lt_of_read (by decide) (by decide) (by decide) h
  omega

end Montage.Request
