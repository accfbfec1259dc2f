import Mathlib.Data.List.Forall2
import Mathlib.Data.List.TakeWhile
import Montage.Proofs.Request.Lists
import Montage.Proofs.Text.Trim

/-!
# The text of the caller's filters

A filter of the caller is taken apart and put together again, alone and in a list between
commas.  What it loses is white space: at its ends and directly before its first equals sign
(`Filter.Tidied`); and of the parts between the commas, those that are blank (`Tidies`).

What is left is a normal form.  Read again, it is the same filters and the same text, so that
the filters of the caller pass through unchanged up to blanks (`filters_pass_through`).
-/

namespace Montage

open Text

namespace Filter

/-- What stays of a filter of the caller: the text without the white space at its ends and
directly before its first equals sign. -/
inductive Tidied : List Char → List Char → Prop
  /-- A filter without an equals sign. -/
  | word {before word after : List Char} (hbefore : IsGap before) (hafter : IsGap after)
    (hword : IsTrimmed word) (hequals : '=' ∉ word) : Tidied (before ++ word ++ after) word
  /-- A filter with a name before its first equals sign. -/
  | setting {before name gap argument after : List Char} (hbefore : IsGap before)
    (hafter : IsGap after) (hall : IsTrimmed (name ++ (gap ++ '=' :: argument)))
    (hequals : '=' ∉ name) (hgap : IsGap gap) (hname : ∀ c ∈ name.getLast?, isBlank c = false) :
    Tidied (before ++ (name ++ (gap ++ '=' :: argument)) ++ after) (name ++ '=' :: argument)

/-- Something stays of every filter. -/
theorem exists_tidied (cs : List Char) : ∃ text, Tidied cs text := by
  obtain ⟨before, after, hbefore, hafter, hcs, htrimmed⟩ := exists_trim cs
  by_cases hsign : '=' ∈ trim cs
  · obtain ⟨first, argument, hfirst, hequals⟩ := List.eq_append_cons_of_mem hsign
    obtain ⟨gap, hgap, hname, hlast⟩ := exists_trimEnd first
    -- The name is what stands before the sign without the white space behind it.
    have hparts : trim cs = trimEnd first ++ (gap ++ '=' :: argument) := by
      rw [hfirst, ← List.append_assoc, ← hname]
    have hnone : '=' ∉ trimEnd first := by
      intro hmem
      rw [hname] at hequals
      exact hequals (List.mem_append_left gap hmem)
    rw [hparts] at hcs htrimmed
    have hsetting := Tidied.setting hbefore hafter htrimmed hnone hgap hlast
    rw [← hcs] at hsetting
    exact ⟨_, hsetting⟩
  · have hword := Tidied.word hbefore hafter htrimmed hsign
    rw [← hcs] at hword
    exact ⟨_, hword⟩

/-- What stays without the white space before the sign is trimmed. -/
theorem isTrimmed_setting {name gap argument : List Char}
    (hall : IsTrimmed (name ++ (gap ++ '=' :: argument))) :
    IsTrimmed (name ++ '=' :: argument) := by
  refine ⟨fun c hc => ?_, fun c hc => hall.last c ?_⟩
  · cases name with
    | nil =>
        cases hc
        decide
    | cons d rest => exact hall.first c hc
  · simpa [List.getLast?_append] using hc

/-- What stays of what stays is the same. -/
theorem Tidied.self {cs text : List Char} (h : Tidied cs text) : Tidied text text := by
  cases h with
  | word _ _ hword hequals =>
      have hself := Tidied.word isGap_nil isGap_nil hword hequals
      rwa [List.nil_append, List.append_nil] at hself
  | setting _ _ hall hequals _ hname =>
      have hself := Tidied.setting isGap_nil isGap_nil (isTrimmed_setting hall) hequals isGap_nil
        hname
      rwa [List.nil_append, List.append_nil] at hself

variable {α : Type}

/-- A filter without an equals sign is a name. -/
theorem ofExpression_word {before word after : List Char} (hbefore : IsGap before)
    (hafter : IsGap after) (hword : IsTrimmed word) (hequals : '=' ∉ word) :
    (ofExpression (String.ofList (before ++ word ++ after)) : Filter α) =
      ⟨String.ofList word, []⟩ := by
  have hnone : word.dropWhile (· != '=') = [] := by
    rw [List.dropWhile_eq_nil_iff]
    exact fun c hc => by simpa using ne_of_mem_of_not_mem hc hequals
  unfold ofExpression
  rw [String.toList_ofList, trim_append hbefore hword hafter]
  simp only [hnone]

/-- A filter with an equals sign is the name before it and one argument behind it. -/
theorem ofExpression_setting {before name gap argument after : List Char} (hbefore : IsGap before)
    (hafter : IsGap after) (hall : IsTrimmed (name ++ (gap ++ '=' :: argument)))
    (hequals : '=' ∉ name) (hgap : IsGap gap) (hname : ∀ c ∈ name.getLast?, isBlank c = false) :
    (ofExpression (String.ofList (before ++ (name ++ (gap ++ '=' :: argument)) ++ after)) :
        Filter α) = ⟨String.ofList name, [(none, .text (String.ofList argument))]⟩ := by
  have hfree : ∀ c ∈ name ++ gap, (c != '=') = true := by
    have hgapFree : '=' ∉ gap := hgap.not_mem (by decide)
    intro c hc
    rw [bne_iff_ne]
    rintro rfl
    exact (List.mem_append.1 hc).elim hequals hgapFree
  have htrimmed : trim (name ++ gap) = name :=
    trim_append isGap_nil ⟨hall.first_of_append, hname⟩ hgap
  have htaken : (name ++ (gap ++ '=' :: argument)).takeWhile (· != '=') = name ++ gap := by
    rw [← List.append_assoc, List.takeWhile_append_of_pos hfree]
    simp
  have hleft : (name ++ (gap ++ '=' :: argument)).dropWhile (· != '=') = '=' :: argument := by
    rw [← List.append_assoc, List.dropWhile_append_of_pos hfree]
    simp
  unfold ofExpression
  rw [String.toList_ofList, trim_append hbefore hall hafter]
  simp only [hleft, htaken, htrimmed]

/-- What stays of a filter is read as the same filter. -/
theorem Tidied.ofExpression_eq {cs text : List Char} (h : Tidied cs text) :
    (ofExpression (String.ofList text) : Filter α) = ofExpression (String.ofList cs) := by
  cases h with
  | word hbefore hafter hword hequals =>
      have hself := ofExpression_word (α := α) isGap_nil isGap_nil hword hequals
      rw [List.nil_append, List.append_nil] at hself
      rw [hself, ofExpression_word hbefore hafter hword hequals]
  | setting hbefore hafter hall hequals hgap hname =>
      have hself := ofExpression_setting (α := α) isGap_nil isGap_nil (isTrimmed_setting hall)
        hequals isGap_nil hname
      rw [List.nil_append, List.append_nil] at hself
      exact hself.trans (ofExpression_setting hbefore hafter hall hequals hgap hname).symm

/-- What stays of a filter is how it is rendered. -/
theorem Tidied.render_eq [Arithmetic α] {cs text : List Char} (h : Tidied cs text) :
    (ofExpression (String.ofList cs) : Filter α).render.toList = text := by
  cases h with
  | word hbefore hafter hword hequals =>
      rw [ofExpression_word hbefore hafter hword hequals]
      exact String.toList_ofList
  | setting hbefore hafter hall hequals hgap hname =>
      rw [ofExpression_setting hbefore hafter hall hequals hgap hname]
      simp [render, renderArg, Arg.render]

/-- A filter of the caller is rendered as what stays of it. -/
theorem tidied_render [Arithmetic α] (expression : String) :
    Tidied expression.toList (ofExpression expression : Filter α).render.toList := by
  obtain ⟨text, h⟩ := exists_tidied expression.toList
  have hrender := h.render_eq (α := α)
  rw [String.ofList_toList] at hrender
  rwa [hrender]

/-- A rendered filter of the caller is read as the same filter. -/
theorem ofExpression_render [Arithmetic α] (expression : String) :
    (ofExpression (ofExpression expression : Filter α).render : Filter α) =
      ofExpression expression := by
  have hread := (tidied_render (α := α) expression).ofExpression_eq (α := α)
  rwa [String.ofList_toList, String.ofList_toList] at hread

/-- A filter may be trimmed before it is read. -/
theorem ofExpression_strip (expression : String) :
    (ofExpression (strip expression) : Filter α) = ofExpression expression := by
  have htrim : trim (strip expression).toList = trim expression.toList := by
    rw [strip, String.toList_ofList, (isTrimmed_trim _).trim_eq]
  unfold ofExpression
  rw [htrim]

/-- A rendered filter of the caller is blank if the caller wrote nothing else. -/
theorem isBlankText_render [Arithmetic α] (expression : String) :
    isBlankText (ofExpression expression : Filter α).render = isBlankText expression := by
  have hcount := countP_render_ofExpression (α := α)
    (show ∀ c, isBlank c = true → (!isBlank c) = false from fun c hc => by rw [hc]; rfl) expression
  have hblank (s : String) : isBlankText s = true ↔ s.toList.countP (fun c => !isBlank c) = 0 := by
    simp [isBlankText, List.countP_eq_zero]
  rw [Bool.eq_iff_iff, hblank, hblank, hcount]

/-- The text of filters between commas, as it stands in a chain. -/
def joined [Arithmetic α] (filters : List (Filter α)) : String :=
  ",".intercalate (filters.map render)

end Filter

namespace Request

/-- Whether more than white space stands in a part of a list. -/
def isGiven (part : String) : Bool := !isBlankText part

/-- The text `t` is what stays of the list in the text `s`: the parts that are blank go, and the
others are tidied. -/
def Tidies (s t : String) : Prop :=
  ∃ parts texts : List String, (∀ part ∈ parts, ',' ∉ part.toList) ∧ s = ",".intercalate parts ∧
    List.Forall₂ (fun part text => Filter.Tidied part.toList text.toList) (parts.filter isGiven)
      texts ∧ t = ",".intercalate texts

theorem strip_eq_empty_iff {s : String} : strip s = "" ↔ isBlankText s = true := by
  have hgap : isBlankText s = true ↔ IsGap s.toList := List.all_eq_true
  have hempty : strip s = "" ↔ trim s.toList = [] := by
    rw [strip, ← String.toList_inj, String.toList_ofList]
    rfl
  rw [hgap, hempty]
  constructor
  · intro hnone
    obtain ⟨before, after, hbefore, hafter, hs, -⟩ := exists_trim s.toList
    rw [hs, hnone, List.append_nil]
    exact isGap_append hbefore hafter
  · intro hall
    have htrim := trim_append hall isTrimmed_nil isGap_nil
    rwa [List.append_nil, List.append_nil] at htrim

/-- The trimmed parts are those that are given. -/
theorem tidied_eq (parts : List String) : tidied parts = (parts.filter isGiven).map strip := by
  rw [tidied, List.filter_map]
  congr 1
  refine List.filter_congr fun part _ => ?_
  rw [Function.comp_apply, isGiven, Bool.eq_iff_iff, bne_iff_ne, Bool.not_eq_true', ne_eq,
    strip_eq_empty_iff, Bool.not_eq_true]

/-- The parts of a text stand between its commas. -/
theorem intercalate_commaParts (s : String) : ",".intercalate (commaParts s) = s := by
  rw [← String.toList_inj, String.toList_intercalate, commaParts, List.map_map]
  have hid : String.toList ∘ String.ofList = id := funext fun cs => String.toList_ofList
  rw [hid, List.map_id]
  exact List.intercalate_splitOn ','

theorem comma_not_mem_commaParts {s part : String} (h : part ∈ commaParts s) :
    ',' ∉ part.toList := by
  obtain ⟨cs, hcs, rfl⟩ := List.mem_map.1 h
  rw [String.toList_ofList]
  exact not_mem_of_mem_splitOn hcs

/-- Parts without commas are those of their text. -/
theorem commaParts_intercalate {parts : List String} (h : ∀ part ∈ parts, ',' ∉ part.toList)
    (hparts : parts ≠ []) : commaParts (",".intercalate parts) = parts :=
  map_ofList_splitOn_intercalate rfl h hparts

/-- Between commas, the parts of a list are given as in the list itself. -/
theorem tidied_commaParts {parts : List String} (h : ∀ part ∈ parts, ',' ∉ part.toList) :
    tidied (commaParts (",".intercalate parts)) = tidied parts := by
  by_cases hparts : parts = []
  · subst hparts
    rfl
  · rw [commaParts_intercalate h hparts]

/-- The filters of any text are what is given between its commas. -/
theorem filters_eq (s : String) (name : Option String) :
    filters (.text s) name = .ok (tidied (commaParts s)) := by
  cases hblank : isBlankText s with
  | false => exact filters_text hblank
  | true =>
      -- A blank text has no comma, and its one part is not given.
      have hgap : IsGap s.toList := List.all_eq_true.1 hblank
      have hparts : commaParts s = [s] := by
        have hcomma : ∀ part ∈ [s], ',' ∉ part.toList :=
          List.forall_mem_singleton.2 (hgap.not_mem (by decide))
        have hself := commaParts_intercalate hcomma (List.cons_ne_nil s [])
        rwa [String.intercalate_singleton] at hself
      have hnone : tidied (commaParts s) = [] := by
        rw [hparts, tidied_eq]
        simp [isGiven, hblank]
      rw [hnone]
      unfold filters
      rw [Value.isBlank, hblank]
      rfl

variable {α : Type}

/-- The filters that the caller gives in a field. -/
def callerFilters (α : Type) (v : Value) (name : Option String) :
    Except Failure (List (Filter α)) :=
  (filters v name).map fun expressions => expressions.map Filter.ofExpression

theorem callerFilters_of_filters {v : Value} {name : Option String} {expressions : List String}
    (h : filters v name = .ok expressions) :
    callerFilters α v name = .ok (expressions.map Filter.ofExpression) := by
  rw [callerFilters, h]
  rfl

/-- The filters of a list are those of the parts that are given. -/
theorem map_ofExpression_tidied (parts : List String) :
    (tidied parts).map (Filter.ofExpression (α := α)) =
      (parts.filter isGiven).map Filter.ofExpression := by
  rw [tidied_eq, List.map_map]
  refine List.map_congr_left fun part _ => ?_
  rw [Function.comp_apply, Filter.ofExpression_strip]

theorem callerFilters_text (s : String) (name : Option String) :
    callerFilters α (.text s) name =
      .ok (((commaParts s).filter isGiven).map Filter.ofExpression) := by
  rw [callerFilters_of_filters (filters_eq s name), map_ofExpression_tidied]

variable [Arithmetic α]

/-- The filters of a text are rendered as what stays of it. -/
theorem tidies_joined (s : String) :
    Tidies s
      (Filter.joined (((commaParts s).filter isGiven).map (Filter.ofExpression (α := α)))) := by
  refine ⟨commaParts s, _, fun part => comma_not_mem_commaParts, (intercalate_commaParts s).symm,
    ?_, rfl⟩
  rw [List.map_map, List.forall₂_map_right_iff, List.forall₂_same]
  exact fun part _ => Filter.tidied_render part

/-- Rendered filters of the caller are read as the same filters. -/
theorem callerFilters_joined {parts : List String} (h : ∀ part ∈ parts, ',' ∉ part.toList)
    (hgiven : ∀ part ∈ parts, isGiven part = true) (name : Option String) :
    callerFilters α (.text (Filter.joined (parts.map (Filter.ofExpression (α := α))))) name =
      .ok (parts.map Filter.ofExpression) := by
  let rendered (part : String) : String := (Filter.ofExpression part : Filter α).render
  have hfree : ∀ text ∈ parts.map rendered, ',' ∉ text.toList := by
    rw [List.forall_mem_map]
    intro part hpart hmem
    exact h part hpart ((Filter.mem_render_ofExpression (by decide) part).1 hmem)
  have hall : (parts.map rendered).filter isGiven = parts.map rendered := by
    rw [List.filter_eq_self, List.forall_mem_map]
    intro part hpart
    rw [isGiven, Filter.isBlankText_render]
    exact hgiven part hpart
  have hjoined : Filter.joined (parts.map (Filter.ofExpression (α := α))) =
      ",".intercalate (parts.map rendered) := by
    rw [Filter.joined, List.map_map]
    rfl
  have hread : (parts.map rendered).map (Filter.ofExpression (α := α)) =
      parts.map Filter.ofExpression := by
    rw [List.map_map]
    refine List.map_congr_left fun part _ => ?_
    rw [Function.comp_apply, Filter.ofExpression_render]
  have hfilters := filters_eq (",".intercalate (parts.map rendered)) name
  rw [tidied_commaParts hfree] at hfilters
  rw [hjoined, callerFilters_of_filters hfilters, map_ofExpression_tidied, hall, hread]

/-- **The caller's filters pass through unchanged up to blanks.**  The text of any field of
filters is read, and what is rendered is the text without the parts that are blank and, in the
others, without the white space at the ends and directly before the first equals sign.  What is
rendered is read as the same filters.  And a list of texts without commas is read like the text
in which they stand between commas. -/
theorem filters_pass_through (name : Option String) :
    (∀ s, ∃ filters, callerFilters α (.text s) name = .ok filters ∧
      Tidies s (Filter.joined filters) ∧
      callerFilters α (.text (Filter.joined filters)) name = .ok filters) ∧
    ∀ items : List String, (∀ item ∈ items, ',' ∉ item.toList) →
      filters (.list (items.map .text)) name = filters (.text (",".intercalate items)) name := by
  refine ⟨fun s => ?_, fun items hitems => ?_⟩
  · refine ⟨_, callerFilters_text s name, tidies_joined s, callerFilters_joined ?_ ?_ name⟩
    · exact fun part hpart => comma_not_mem_commaParts (List.mem_of_mem_filter hpart)
    · exact fun part hpart => List.of_mem_filter hpart
  · rw [filters_list, filters_eq, tidied_commaParts hitems]

/-- Of three parts one is blank; the first equals sign of another loses the blank before it and
keeps the one behind it, and its second sign keeps both. -/
theorem filters_pass_through_spaced :
    Tidies " hflip , ,eq = contrast = 1.2 " "hflip,eq= contrast = 1.2" ∧
      filters (.list [.text "hflip ", .text " eq = contrast = 1.2"]) none =
        filters (.text "hflip , eq = contrast = 1.2") none := by
  obtain ⟨hread, hlist⟩ := filters_pass_through (α := Number) none
  obtain ⟨filters, hfilters, htidies, -⟩ := hread " hflip , ,eq = contrast = 1.2 "
  have hjoined : (callerFilters Number (.text " hflip , ,eq = contrast = 1.2 ") none).toOption.map
      Filter.joined = some "hflip,eq= contrast = 1.2" := by decide +kernel
  rw [hfilters] at hjoined
  rw [← Option.some.inj hjoined]
  exact ⟨htidies, hlist ["hflip ", " eq = contrast = 1.2"] (by decide)⟩

end Request

end Montage
