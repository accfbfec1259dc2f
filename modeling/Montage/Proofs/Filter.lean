import Montage.Filter
import Montage.Proofs.Decimal.Text
import Montage.Proofs.Text

/-!
# The text of filters

A filter that the caller wrote is taken apart at its first equals sign and put together again
when it is rendered.  White space around it and before the sign is all that gets lost.

A filter of the planner's own is written with words and numbers, so that none of the signs that
divide the text of a graph is in its text (`isQuiet_render`).
-/

namespace Montage

/-- The signs that divide the text of a graph into chains, filters and links. -/
def Text.dividers : List Char := [';', ',', '[', ']']

/-- Whether a text has none of these signs. -/
def Text.isQuiet (s : String) : Bool := s.toList.all fun c => !dividers.contains c

/-- Whether an argument is written without these signs; a number always is. -/
def Arg.isQuiet {α : Type} : Arg α → Bool
  | number _ => true
  | text s => Text.isQuiet s
  | scaledTime _ => true
  | value v => Text.isQuiet v.plainText

/-- Whether the words of a filter have none of these signs. -/
def Filter.isQuiet {α : Type} (f : Filter α) : Bool :=
  Text.isQuiet f.name && f.args.all fun arg => arg.1.all Text.isQuiet && arg.2.isQuiet

namespace Text

theorem isQuiet_iff {s : String} : isQuiet s = true ↔ ∀ sign ∈ dividers, sign ∉ s.toList := by
  simp only [isQuiet, List.all_eq_true, Bool.not_eq_true', List.contains_eq_mem,
    decide_eq_false_iff_not]
  exact ⟨fun h sign hsign hmem => h sign hmem hsign, fun h c hc hsign => h c hsign hc⟩

@[simp] theorem isQuiet_append {s t : String} :
    isQuiet (s ++ t) = (isQuiet s && isQuiet t) := by
  rw [isQuiet, String.toList_append, List.all_append]
  rfl

/-- Quiet texts between quiet signs are quiet. -/
theorem isQuiet_intercalate {sign : String} {texts : List String} (hsign : isQuiet sign = true)
    (h : ∀ text ∈ texts, isQuiet text = true) : isQuiet (sign.intercalate texts) = true := by
  induction texts with
  | nil => rfl
  | cons s rest ih =>
      obtain ⟨hs, hrest⟩ := List.forall_mem_cons.1 h
      by_cases hnone : rest = []
      · subst hnone
        rwa [String.intercalate_singleton]
      · rw [String.intercalate_cons_of_ne_nil hnone]
        simp [hs, hsign, ih hrest]

end Text

/-- No divider is among the characters of numbers. -/
theorem Decimal.isQuiet_of_isNumeral {s : String} (h : IsNumeral s) : Text.isQuiet s = true := by
  have hsigns : Text.dividers.all (fun sign => !isNumberChar sign) = true := by decide
  rw [Text.isQuiet_iff]
  intro sign hsign hmem
  have hnone := List.all_eq_true.1 hsigns sign hsign
  rw [h sign hmem] at hnone
  cases hnone

theorem Arg.isQuiet_render {arg : Arg Number} (h : arg.isQuiet = true) :
    Text.isQuiet arg.render = true := by
  have hnumber (x : Number) : Text.isQuiet (Arithmetic.text x) = true :=
    Decimal.isQuiet_of_isNumeral x.isNumeral_text
  cases arg with
  | number x => exact hnumber x
  | text s => exact h
  | scaledTime factor =>
      have htimes : Text.isQuiet "*PTS" = true := rfl
      rw [render, Text.isQuiet_append, hnumber, htimes]
      rfl
  | value v => exact h

namespace Filter

/-- **A filter of words and numbers is written without the signs that divide a graph.** -/
theorem isQuiet_render {f : Filter Number} (h : f.isQuiet = true) :
    Text.isQuiet f.render = true := by
  have hequals : Text.isQuiet "=" = true := rfl
  have hcolon : Text.isQuiet ":" = true := rfl
  rw [isQuiet, Bool.and_eq_true, List.all_eq_true] at h
  obtain ⟨hname, hargs⟩ := h
  have hrendered : ∀ text ∈ f.args.map renderArg, Text.isQuiet text = true := by
    intro text htext
    obtain ⟨⟨key, arg⟩, hmem, rfl⟩ := List.mem_map.1 htext
    have hboth := hargs _ hmem
    rw [Bool.and_eq_true] at hboth
    obtain ⟨hkey, harg⟩ := hboth
    have hvalue := Arg.isQuiet_render harg
    cases key with
    | none => exact hvalue
    | some key =>
        have hkey : Text.isQuiet key = true := hkey
        simp [renderArg, hkey, hequals, hvalue]
  unfold render
  split
  · exact hname
  · simp [hname, hequals, Text.isQuiet_intercalate hcolon hrendered]

variable {α : Type} [Arithmetic α] {kind : Char → Bool}

/-- A filter of the caller is rendered with all characters that are not blank. -/
theorem countP_render_ofExpression (hblank : ∀ c, Text.isBlank c = true → kind c = false)
    (expression : String) :
    (ofExpression expression : Filter α).render.toList.countP kind =
      expression.toList.countP kind := by
  have htrim := Text.countP_trim hblank expression.toList
  have hparts :=
    List.takeWhile_append_dropWhile (p := (· != '=')) (l := Text.trim expression.toList)
  unfold ofExpression
  simp only
  -- The name ends where the argument begins, at the first equals sign.
  cases hargument : (Text.trim expression.toList).dropWhile (· != '=') with
  | nil => simpa [render] using htrim
  | cons sign argument =>
      obtain rfl : sign = '=' := by
        have hsign := List.head?_dropWhile_not (· != '=') (Text.trim expression.toList)
        rw [hargument] at hsign
        simpa using hsign
      have hname := Text.countP_trim hblank ((Text.trim expression.toList).takeWhile (· != '='))
      have htext (name : List Char) :
          (render ⟨String.ofList name, [(none, (.text (String.ofList argument) : Arg α))]⟩).toList =
            name ++ '=' :: argument := by simp [render, renderArg, Arg.render]
      rw [htext, List.countP_append, hname, ← List.countP_append, ← hargument, hparts, htrim]

/-- A sign that is not blank stands in a rendered filter if the caller wrote it. -/
theorem mem_render_ofExpression {sign : Char} (hsign : Text.isBlank sign = false)
    (expression : String) :
    sign ∈ (ofExpression expression : Filter α).render.toList ↔ sign ∈ expression.toList := by
  have hblank : ∀ c, Text.isBlank c = true → (c == sign) = false := by
    intro c hc
    rw [beq_eq_false_iff_ne]
    rintro rfl
    rw [hsign] at hc
    cases hc
  have hcount := countP_render_ofExpression (α := α) hblank expression
  rw [← List.count_pos_iff, ← List.count_pos_iff, List.count_eq_countP, List.count_eq_countP,
    hcount]

end Filter

end Montage
