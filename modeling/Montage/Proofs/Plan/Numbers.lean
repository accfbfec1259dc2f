import Montage.Proofs.Plan.Call
import Montage.Proofs.Plan.Sync

/-!
# The numbers in a plan

The planners write numbers into the arguments of filters, into the options of the output and
into the estimate of its length (`Plan.numbers`).  What the caller writes into a filter is text,
so that all of them are the planners' own.  Most are settings and whole numbers.  Only three are
computed: the factor that scales the times, the length of the output and the start of the fade
at its end (`Edit.Fills.number_cases`).
-/

namespace Montage

variable {α : Type}

/-- The numbers of an argument. -/
def Arg.numbers : Arg α → List α
  | number x => [x]
  | scaledTime factor => [factor]
  | text _ | value _ => []

/-- The argument is a whole number or a text. -/
def Arg.IsWhole [Arithmetic α] : Arg α → Prop
  | number x => ∃ n, x = Arithmetic.ofInt n
  | text _ => True
  | scaledTime _ | value _ => False

@[simp] theorem Arg.isWhole_number [Arithmetic α] (n : Int) :
    (number (Arithmetic.ofInt n) : Arg α).IsWhole := ⟨n, rfl⟩

@[simp] theorem Arg.isWhole_text [Arithmetic α] (s : String) : (text s : Arg α).IsWhole := trivial

namespace Filter

/-- The numbers in the arguments of filters. -/
def numbersOf (filters : List (Filter α)) : List α :=
  filters.flatMap fun filter => filter.args.flatMap fun arg => arg.2.numbers

theorem numbersOf_append (filters others : List (Filter α)) :
    numbersOf (filters ++ others) = numbersOf filters ++ numbersOf others :=
  List.flatMap_append

/-- A factor that scales the times is one of the numbers. -/
theorem mem_numbersOf_of_timeFactor {filters : List (Filter α)} {n : α}
    (h : n ∈ filters.filterMap timeFactor?) : n ∈ numbersOf filters := by
  obtain ⟨filter, hfilter, h⟩ := List.mem_filterMap.1 h
  refine List.mem_flatMap.2 ⟨filter, hfilter, ?_⟩
  unfold timeFactor? at h
  split at h
  · split at h
    · exact List.mem_singleton.2 (Option.some.inj h).symm
    · cases h
  · cases h

variable [Arithmetic α]

/-- The filter is written with whole numbers and text only. -/
def IsWhole (filter : Filter α) : Prop := ∀ arg ∈ filter.args, arg.2.IsWhole

theorem whole_of_mem_numbersOf {filters : List (Filter α)}
    (h : ∀ filter ∈ filters, filter.IsWhole) {n : α} (hn : n ∈ numbersOf filters) :
    ∃ k, n = Arithmetic.ofInt k := by
  obtain ⟨filter, hfilter, hn⟩ := List.mem_flatMap.1 hn
  obtain ⟨⟨key, arg⟩, harg, hn⟩ := List.mem_flatMap.1 hn
  have hwhole := h filter hfilter _ harg
  cases arg with
  | number x =>
      obtain rfl := List.mem_singleton.1 hn
      exact hwhole
  | text | value => cases hn
  | scaledTime => cases hwhole

theorem timeFactors_whole {filters : List (Filter α)} (h : ∀ filter ∈ filters, filter.IsWhole) :
    filters.filterMap timeFactor? = [] := by
  rw [List.filterMap_eq_nil_iff]
  intro filter hfilter
  unfold timeFactor?
  split
  · exact (h _ hfilter _ (List.mem_singleton_self _)).elim
  · rfl

/-- The caller's filters are text. -/
theorem isWhole_ofExpression (expression : String) :
    (ofExpression expression : Filter α).IsWhole := by
  unfold ofExpression
  simp only
  split
  · exact List.forall_mem_nil _
  · exact List.forall_mem_singleton.2 trivial

/-- A resize writes whole numbers. -/
theorem isWhole_resize (resize : Option Resize) :
    ∀ filter ∈ (Resize.filtersOf resize : List (Filter α)), filter.IsWhole := by
  cases resize with
  | none => exact List.forall_mem_nil _
  | some resize =>
      unfold Resize.filtersOf Resize.filters
      simp only
      split
      · simp [IsWhole, Resize.scaleFilter, Resize.squarePixels, positional, -Prod.forall]
      · split <;> simp [IsWhole, Resize.scaleFilter, Resize.squarePixels, positional, -Prod.forall]

end Filter

theorem Tempo.numbersOf_filtersOf (stages : List α) :
    Filter.numbersOf (filtersOf stages) = stages := by
  induction stages with
  | nil => rfl
  | cons stage rest ih => exact congrArg (stage :: ·) ih

namespace Plan

/-- The numbers of a plan: those in its filters, the length to which the output is cut, and the
expected length. -/
def numbers (plan : Plan α) : List α :=
  Filter.numbersOf plan.filters ++ plan.options.duration.toList ++ plan.estimate.toList

theorem mem_numbers_of_mem_timeFactors {plan : Plan α} {n : α} (h : n ∈ plan.timeFactors) :
    n ∈ plan.numbers :=
  List.mem_append_left _ (List.mem_append_left _ (Filter.mem_numbersOf_of_timeFactor h))

/-- Every filter of a join is one of its resize, or joins the clips. -/
theorem isWhole_of_joinGraph [Arithmetic α] {plan : Plan α} {resize : Option Resize} {sound : Bool}
    {count : Nat} (h : plan.graph = some (joinGraph (Resize.filtersOf resize) sound count)) :
    ∀ filter ∈ plan.filters, filter.IsWhole := by
  intro filter hfilter
  obtain ⟨node, hnode, hfilter⟩ := List.mem_flatMap.1 hfilter
  rw [chains, h] at hnode
  rcases List.mem_append.1 hnode with hclip | hjoin
  · obtain ⟨index, -, hnode⟩ := List.mem_flatMap.1 hclip
    unfold clipChain at hnode
    split at hnode
    · cases hnode
    · obtain rfl := List.mem_singleton.1 hnode
      exact Filter.isWhole_resize resize filter hfilter
  · obtain rfl := List.mem_singleton.1 hjoin
    obtain rfl := List.mem_singleton.1 hfilter
    simp [Filter.IsWhole, concatFilter]

end Plan

namespace Edit

open Plan

variable [Arithmetic α] {edit : Edit α} {plan : Plan α} {stages : List α} {source n : α}
  {length : Option α}

/-- What the video passes before it is retimed is written with whole numbers and text. -/
theorem isWhole_before_retiming (edit : Edit α) :
    ∀ filter ∈ (Resize.filtersOf edit.resize ++ edit.videoFilters.map Filter.ofExpression :
      List (Filter α)), filter.IsWhole := by
  refine List.forall_mem_append.2 ⟨Filter.isWhole_resize edit.resize, ?_⟩
  exact List.forall_mem_map.2 fun expression _ => Filter.isWhole_ofExpression expression

theorem isWhole_audioFilters (edit : Edit α) :
    ∀ filter ∈ edit.audioFilters.map (Filter.ofExpression (α := α)), filter.IsWhole :=
  List.forall_mem_map.2 fun expression _ => Filter.isWhole_ofExpression expression

/-- The video of an edit has one number that is not whole, if its speed changes. -/
theorem of_mem_videoPath (h : n ∈ Filter.numbersOf edit.videoPath) :
    (∃ k, n = Arithmetic.ofInt k) ∨
      edit.changesSpeed = true ∧ n = Tempo.timeFactor edit.speed := by
  rw [videoPath, Filter.numbersOf_append, List.mem_append] at h
  rcases h with h | h
  · exact .inl (Filter.whole_of_mem_numbersOf edit.isWhole_before_retiming h)
  · split at h
    · next hchanges => exact .inr ⟨hchanges, List.mem_singleton.1 h⟩
    · cases h

/-- The sound of an edit has the stages of its tempo, its settings, and the start of the fade at
its end. -/
theorem of_mem_soundPath (h : n ∈ Filter.numbersOf (edit.soundPath stages source)) :
    (∃ k, n = Arithmetic.ofInt k) ∨ n ∈ [edit.volume, edit.fadeIn, edit.fadeOut] ∨
      edit.changesSpeed = true ∧ n ∈ stages ∨
      Arithmetic.isPositive edit.fadeOut = true ∧
        n = fadeOutStart (edit.outputLength source) edit.fadeOut := by
  simp only [soundPath, steadyPath, Filter.numbersOf_append, List.mem_append, or_assoc] at h
  rcases h with h | h | h | h | h
  · exact .inl (Filter.whole_of_mem_numbersOf edit.isWhole_audioFilters h)
  · split at h
    · next hchanges =>
        rw [Tempo.numbersOf_filtersOf] at h
        exact .inr (.inr (.inl ⟨hchanges, h⟩))
    · cases h
  · split at h
    · cases h
    · obtain rfl := List.mem_singleton.1 h
      exact .inr (.inl (by simp))
  · split at h
    · rcases List.mem_pair.1 h with rfl | rfl
      · exact .inl ⟨0, rfl⟩
      · exact .inr (.inl (by simp))
    · cases h
  · split at h
    · next hends =>
        rcases List.mem_pair.1 h with rfl | rfl
        · exact .inr (.inr (.inr ⟨hends, rfl⟩))
        · exact .inr (.inl (by simp))
    · cases h

/-- The plan has the filters of an edit, and options and an estimate of the given length. -/
structure Fills (edit : Edit α) (stages : List α) (source : α) (length : Option α) (plan : Plan α) :
    Prop where
  graph : plan.graph = sourceGraph edit.videoPath (edit.keptPath stages source)
  options : plan.options = edit.options length
  estimate : plan.estimate = length

/-- **The numbers in the plan of an edit** are whole numbers and settings, the factor and the
stages if the speed changes, and the length of the output with the start of the fade at its end
if the length is known. -/
theorem Fills.number_cases (h : edit.Fills stages source length plan)
    (hlength : edit.needsLength = true → length = some (edit.outputLength source))
    (hn : n ∈ plan.numbers) :
    (∃ k, n = Arithmetic.ofInt k) ∨ n ∈ [edit.volume, edit.fadeIn, edit.fadeOut] ∨
      edit.changesSpeed = true ∧
        (n = Tempo.timeFactor edit.speed ∨ edit.sound = .original ∧ n ∈ stages) ∨
      ∃ l ∈ length, n = l ∨ n = fadeOutStart l edit.fadeOut := by
  rw [numbers, filters_sourceGraph h.graph, Filter.numbersOf_append, h.options, h.estimate] at hn
  simp only [List.mem_append, Option.mem_toList] at hn
  rcases hn with ((hvideo | haudio) | hduration) | hestimate
  · rcases of_mem_videoPath hvideo with hwhole | ⟨hchanges, rfl⟩
    · exact .inl hwhole
    · exact .inr (.inr (.inl ⟨hchanges, .inl rfl⟩))
  · cases hsound : edit.sound with
    | original =>
        rw [keptPath_of_original hsound] at haudio
        rcases of_mem_soundPath haudio with hwhole | hsetting | ⟨hchanges, hstage⟩ | ⟨hends, rfl⟩
        · exact .inl hwhole
        · exact .inr (.inl hsetting)
        · exact .inr (.inr (.inl ⟨hchanges, .inr ⟨rfl, hstage⟩⟩))
        · -- A fade at the end needs the length.
          have hknown := hlength (by rw [needsLength, hsound]; exact hends)
          exact .inr (.inr (.inr ⟨_, hknown, .inr rfl⟩))
    | muted | replaced | unknown =>
        rw [keptPath_of_not_original (by rw [hsound]; rfl)] at haudio
        cases haudio
  · exact .inr (.inr (.inr ⟨n, duration_options hduration, .inl rfl⟩))
  · exact .inr (.inr (.inr ⟨n, hestimate, .inl rfl⟩))

/-- The length is a number of the plan, whether or not the output is cut to it. -/
theorem Fills.length_mem_numbers (h : edit.Fills stages source length plan) (hn : n ∈ length) :
    n ∈ plan.numbers := by
  rw [numbers, h.estimate, List.mem_append]
  exact .inr (Option.mem_toList.2 hn)

/-- The times are scaled exactly if the speed changes, and by the one factor. -/
theorem Fills.timeFactors_eq (h : edit.Fills stages source length plan) :
    plan.timeFactors = if edit.changesSpeed then [Tempo.timeFactor edit.speed] else [] := by
  have haudio : (edit.keptPath stages source).filterMap Filter.timeFactor? = [] := by
    unfold keptPath
    split
    · exact (edit.changes_soundPath stages source).2
    · rfl
  rw [timeFactors, filters_sourceGraph h.graph, List.filterMap_append, haudio, List.append_nil]
  exact edit.changes_videoPath.2

end Edit

end Montage
