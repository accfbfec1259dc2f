import Montage.Plan.Assemble
import Montage.Proofs.Ends
import Montage.Proofs.Graph.Label

/-!
# When parts make a plan

What each check of the assembler asks for, said about the list it walks over.  The
main statement, `assemble_ends`, puts the checks together: parts whose reads, maps and
results agree become a plan with exactly these parts, and nothing can be refused but an
empty target or a duration that is not positive.

A raw label with more digits than can be read as a number is the one exception.  No
planner writes one before it has as many inputs.
-/

namespace Montage

/-- The causes for which the builder and the assembler refuse parts that do not fit
together; the target and the duration are given by the caller. -/
def PlanCause.isCheck : PlanCause → Bool
  | noTarget | durationNotPositive _ => false
  | _ => true

/-- The failures of the checks on a graph and its use.  The fault is the one of a raw
label whose number cannot be read. -/
def Failure.isCheck : Failure → Bool
  | plan cause => cause.isCheck
  | fault cause => cause == .badValue
  | _ => false

namespace Plan

variable {α : Type}

/-- What can be refused of parts that fit together and read `count` inputs: a setting,
the length of a clip, the target or the duration.  Only if the inputs are more than
numbers can be read does a raw label end the assembly with a fault. -/
inductive Rejection (count : Nat) : Failure → Prop
  | field (name : Option String) (cause : FieldCause) : Rejection count (.field name cause)
  | probe (path : String) (cause : ProbeCause) : Rejection count (.probe path cause)
  | noTarget : Rejection count (.plan .noTarget)
  | durationNotPositive (got : String) : Rejection count (.plan (.durationNotPositive got))
  | overlong (h : Decimal.unreadable < count) : Rejection count (.fault .badValue)

/-- What the assembler refuses of parts that fit together, and why. -/
inductive Refusal [Arithmetic α] (bound : Nat) (options : OutputOptions α) (target : String) :
    Failure → Prop
  | noTarget (h : target = "") : Refusal bound options target (.plan .noTarget)
  | duration (d : α) (h : options.duration = some d) {hd : Arithmetic.isAtMostZero d = true} :
    Refusal bound options target (.plan (.durationNotPositive (Arithmetic.text d)))
  | overlong (h : Decimal.unreadable < bound) : Refusal bound options target (.fault .badValue)

/-- The raw labels among the given ones can be read and name one of `count` inputs. -/
def Readable (count : Nat) (labels : List String) : Prop :=
  ∀ label ∈ labels, Label.isRaw label = true →
    ∃ n : Nat, Label.rawInput? label = .ok (some (n : Int)) ∧ n < count

/-- The raw labels among the given ones are written with the number of one of `count`
inputs. -/
def Numbered (count : Nat) (labels : List String) : Prop :=
  ∀ label ∈ labels, Label.isRaw label = true →
    ∃ (n : Nat) (stream : Stream), label = Label.raw n stream ∧ n < count

/-- A map names one of the results or a stream of one of `count` inputs. -/
def Resolves (results : List String) (count : Nat) (m : StreamMap) : Prop :=
  (∃ label ∈ results, m.label = some label) ∨
    (m.label = none ∧ knowsStream m.stream = true ∧ ∃ n : Nat, m.input = some (n : Int) ∧ n < count)

theorem Refusal.rejection [Arithmetic α] {bound : Nat} {options : OutputOptions α}
    {target : String} {failure : Failure} (h : Refusal bound options target failure) :
    Rejection bound failure := by
  cases h with
  | noTarget => exact .noTarget
  | duration => exact .durationNotPositive _
  | overlong hlong => exact .overlong hlong

/-- A refusal that looks like a failed check is the fault of a label that is too
long. -/
theorem Rejection.eq_of_isCheck {count : Nat} {failure : Failure} (h : Rejection count failure)
    (hcheck : failure.isCheck = true) :
    failure = .fault .badValue ∧ Decimal.unreadable < count := by
  cases h with
  | overlong h => exact ⟨rfl, h⟩
  | field | probe | noTarget | durationNotPositive => cases hcheck

/-- A plan that reads a single input has no label that is too long. -/
theorem Rejection.isCheck_eq_false {failure : Failure} (h : Rejection 1 failure) :
    failure.isCheck = false := by
  have hlimit := Decimal.one_lt_unreadable
  cases hcheck : failure.isCheck with
  | false => rfl
  | true =>
      obtain ⟨-, hlong⟩ := h.eq_of_isCheck hcheck
      omega

theorem readable_nil (count : Nat) : Readable count [] := by
  simp [Readable]

/-- One more label is readable if it is not raw or names an input. -/
theorem Readable.cons {count : Nat} {label : String} {rest : List String}
    (hlabel : Label.isRaw label = true →
      ∃ n : Nat, Label.rawInput? label = .ok (some (n : Int)) ∧ n < count)
    (hrest : Readable count rest) : Readable count (label :: rest) := by
  intro l hl
  rcases List.mem_cons.1 hl with rfl | hl
  · exact hlabel
  · exact hrest l hl

/-- Labels that the planners write are read back, as far as numbers can be read. -/
theorem checkReads_ends {bound count : Nat} (labels : List String) (h : Numbered bound labels)
    (hbound : bound ≤ count) :
    Ends (fun _ => Readable count labels)
      (fun failure => failure = .fault .badValue ∧ Decimal.unreadable < bound)
      (checkReads count labels) := by
  induction labels with
  | nil => exact readable_nil count
  | cons label rest ih =>
      have hrest := ih fun l hl => h l (List.mem_cons_of_mem _ hl)
      unfold checkReads
      cases hraw : Label.isRaw label with
      | false =>
          rw [Label.rawInput?_of_not_raw hraw]
          refine hrest.mono (fun _ hok => ?_) fun _ hbad => hbad
          exact hok.cons (by simp [hraw])
      | true =>
          obtain ⟨n, stream, rfl, hn⟩ := h label (by simp) hraw
          have hread := Label.rawInput?_raw n stream
          by_cases hlimit : n < Decimal.unreadable
          · rw [if_pos hlimit] at hread
            have hexists : ¬ (n : Int) ≥ count := by omega
            simp only [hread, if_neg hexists]
            refine hrest.mono (fun _ hok => ?_) fun _ hbad => hbad
            exact hok.cons fun _ => ⟨n, hread, Nat.lt_of_lt_of_le hn hbound⟩
          · rw [if_neg hlimit] at hread
            rw [hread]
            exact ⟨rfl, by omega⟩

/-- Maps that name results and inputs pass. -/
theorem checkMaps_eq_ok (results : List String) (count : Nat) (maps : List StreamMap)
    (h : ∀ m ∈ maps, Resolves results count m) : checkMaps results count maps = .ok () := by
  induction maps with
  | nil => rfl
  | cons m rest ih =>
      have hrest := ih fun m hm => h m (List.mem_cons_of_mem _ hm)
      rcases h m (by simp) with ⟨label, hlabel, hm⟩ | ⟨hm, hknown, n, hinput, hn⟩
      · simp [checkMaps, hm, hlabel, hrest]
      · simp [checkMaps, hm, hinput, hknown, hn, hrest]

/-- Nothing is left over if the maps name every result. -/
theorem unmapped_eq_nil (results : List String) (maps : List StreamMap)
    (h : ∀ label ∈ results, label ∈ maps.filterMap (·.label)) : unmapped results maps = [] := by
  rw [unmapped, List.filter_eq_nil_iff]
  intro label hlabel
  simpa using h label hlabel

/-- The results of the graph of a plan. -/
def resultsOf (graph : Option (Graph α)) : List String :=
  match graph with
  | none => []
  | some g => g.results

/-- What passes the check of the raw labels is read without a fault. -/
theorem of_checkReads {count : Nat} {labels : List String} (h : checkReads count labels = .ok ()) :
    ∀ label ∈ labels, ∃ number, Label.rawInput? label = .ok number := by
  induction labels with
  | nil => simp
  | cons label rest ih =>
      unfold checkReads at h
      cases hread : Label.rawInput? label with
      | error fault =>
          rw [hread] at h
          cases h
      | ok number =>
          have hrest : checkReads count rest = .ok () := by
            rw [hread] at h
            cases number with
            | none => exact h
            | some n =>
                simp only at h
                split at h
                · cases h
                · exact h
          intro other hother
          rcases List.mem_cons.1 hother with rfl | hother
          · exact ⟨number, hread⟩
          · exact ih hrest other hother

/-- The assembler keeps the parts as they are, once it has read the raw labels. -/
theorem assemble_keeps [Arithmetic α] (inputs : List Input) (graph : Option (Graph α))
    (maps : List StreamMap) (options : OutputOptions α) (target : String) (estimate : Option α) :
    Ends
      (fun plan => plan = ⟨inputs, graph, maps, options, target, estimate⟩ ∧
        checkReads inputs.length (reads graph) = .ok ())
      (fun _ => True) (assemble inputs graph maps options target estimate) := by
  have hself := (Ends.self (checkReads inputs.length (reads graph))).mono (fun _ h => h)
    fun _ _ => trivial
  unfold assemble
  refine Ends.guard (fun _ => trivial) fun _ => ?_
  refine Ends.guard (fun _ => trivial) fun _ => ?_
  refine hself.bind fun _ hreads => Ends.after fun _ => ?_
  extract_lets missing finish checked
  have hchecked : Ends
      (fun plan => plan = ⟨inputs, graph, maps, options, target, estimate⟩ ∧
        checkReads inputs.length (reads graph) = .ok ())
      (fun _ => True) (checked ()) := by
    simp only [checked]
    cases options.duration with
    | none => exact ⟨rfl, hreads⟩
    | some d =>
        simp only
        split
        · trivial
        · exact ⟨rfl, hreads⟩
  split
  · exact hchecked
  · trivial

theorem of_assemble [Arithmetic α] {inputs : List Input} {graph : Option (Graph α)}
    {maps : List StreamMap} {options : OutputOptions α} {target : String} {estimate : Option α}
    {plan : Plan α} (h : assemble inputs graph maps options target estimate = .ok plan) :
    plan = ⟨inputs, graph, maps, options, target, estimate⟩ := by
  have hkeeps := assemble_keeps inputs graph maps options target estimate
  rw [h] at hkeeps
  exact hkeeps.1

/-- The raw labels of a plan are read without a fault. -/
theorem reads_of_assemble [Arithmetic α] {inputs : List Input} {graph : Option (Graph α)}
    {maps : List StreamMap} {options : OutputOptions α} {target : String} {estimate : Option α}
    {plan : Plan α} (h : assemble inputs graph maps options target estimate = .ok plan) :
    ∀ label ∈ reads graph, ∃ number, Label.rawInput? label = .ok number := by
  have hkeeps := assemble_keeps inputs graph maps options target estimate
  rw [h] at hkeeps
  exact of_checkReads hkeeps.2

/-- **Parts that agree make a plan.**  The plan holds the parts as they are, and the
target and the duration are all that can be refused. -/
theorem assemble_ends [Arithmetic α] {bound : Nat} (inputs : List Input)
    (graph : Option (Graph α)) (maps : List StreamMap) (options : OutputOptions α)
    (target : String) (estimate : Option α) (hinputs : inputs ≠ [])
    (hreads : Numbered bound (reads graph)) (hbound : bound ≤ inputs.length)
    (hmaps : ∀ m ∈ maps, Resolves (resultsOf graph) inputs.length m)
    (hmapped : ∀ label ∈ resultsOf graph, label ∈ maps.filterMap (·.label)) :
    Ends
      (fun plan => plan = ⟨inputs, graph, maps, options, target, estimate⟩ ∧
        Readable inputs.length (reads graph))
      (Refusal bound options target)
      (assemble inputs graph maps options target estimate) := by
  have hnone : inputs.isEmpty = false := by simpa using hinputs
  have hchecked := checkMaps_eq_ok _ _ maps hmaps
  have hall : (unmapped (resultsOf graph) maps).isEmpty = true := by
    rw [unmapped_eq_nil _ maps hmapped, List.isEmpty_nil]
  unfold assemble
  simp only [hnone, Bool.false_eq_true, if_false]
  by_cases htarget : target.isEmpty = true
  · rw [if_pos htarget]
    exact .noTarget (by simpa using htarget)
  · rw [if_neg htarget]
    refine Ends.bind ((checkReads_ends _ hreads hbound).mono (fun _ h => h) ?_)
      fun _ hreadable => ?_
    · rintro failure ⟨rfl, hlong⟩
      exact .overlong hlong
    -- Maps and results pass, so that the duration is all that can still be refused.
    refine Ends.bind_mapError_ok hchecked ?_
    change Ends _ _ (if (unmapped (resultsOf graph) maps).isEmpty = true then _ else _)
    rw [if_pos hall]
    cases hduration : options.duration with
    | none => exact ⟨rfl, hreadable⟩
    | some d =>
        by_cases hd : Arithmetic.isAtMostZero d = true
        · simp only [hd]
          exact @Refusal.duration _ _ _ _ _ d hduration hd
        · simp only [hd]
          exact ⟨rfl, hreadable⟩

/-- The checks on an output: it has a name, and a bound on it is positive. -/
def checkOutput [Arithmetic α] (options : OutputOptions α) (target : String) :
    Except Failure Unit :=
  if target.isEmpty then .error (.plan .noTarget)
  else
    match options.duration with
    | some d =>
      if Arithmetic.isAtMostZero d then
        .error (.plan (.durationNotPositive (Arithmetic.text d)))
      else .ok ()
    | none => .ok ()

/-- The output is all that is left to be checked of parts that agree. -/
theorem assemble_eq_checkOutput [Arithmetic α] {inputs : List Input} {graph : Option (Graph α)}
    {maps : List StreamMap} {options : OutputOptions α} (hinputs : inputs ≠ [])
    (hreads : checkReads inputs.length (reads graph) = .ok ())
    (hmaps : ∀ m ∈ maps, Resolves (resultsOf graph) inputs.length m)
    (hmapped : ∀ label ∈ resultsOf graph, label ∈ maps.filterMap (·.label)) (target : String)
    (estimate : Option α) :
    assemble inputs graph maps options target estimate =
      checkOutput options target >>= fun _ =>
        .ok ⟨inputs, graph, maps, options, target, estimate⟩ := by
  have hsome : ¬ inputs.isEmpty = true := by simpa using hinputs
  have hchecked := checkMaps_eq_ok _ _ maps hmaps
  have hall : (unmapped (resultsOf graph) maps).isEmpty = true := by
    rw [unmapped_eq_nil _ maps hmapped, List.isEmpty_nil]
  unfold assemble checkOutput
  rw [if_neg hsome]
  by_cases htarget : target.isEmpty = true
  · rw [if_pos htarget, if_pos htarget]
    rfl
  · rw [if_neg htarget, if_neg htarget]
    refine (Ends.ok_bind hreads).trans ((Ends.mapError_bind hchecked).trans ?_)
    refine (if_pos hall).trans ?_
    cases options.duration with
    | none => rfl
    | some d =>
        simp only
        split
        · rfl
        · rfl

/-- Parts that agree and read a single input make a plan if the target has a name and the
duration is positive. -/
theorem assemble_eq_ok [Arithmetic α] {inputs : List Input} {graph : Option (Graph α)}
    {maps : List StreamMap} {options : OutputOptions α} {target : String} (estimate : Option α)
    (hinputs : inputs ≠ []) (hreads : Numbered 1 (reads graph))
    (hmaps : ∀ m ∈ maps, Resolves (resultsOf graph) inputs.length m)
    (hmapped : ∀ label ∈ resultsOf graph, label ∈ maps.filterMap (·.label))
    (htarget : target ≠ "")
    (hduration : ∀ d, options.duration = some d → Arithmetic.isAtMostZero d = false) :
    assemble inputs graph maps options target estimate =
      .ok ⟨inputs, graph, maps, options, target, estimate⟩ := by
  have hends := assemble_ends inputs graph maps options target estimate hinputs hreads
    (List.length_pos_iff.2 hinputs) hmaps hmapped
  obtain ⟨plan, hplan, rfl, -⟩ := hends.exists_ok fun failure hrefused => by
    cases hrefused with
    | noTarget hnone => exact htarget hnone
    | @duration d hd hzero =>
        rw [hduration d hd] at hzero
        cases hzero
    | overlong hlong => exact absurd hlong (Nat.lt_asymm Decimal.one_lt_unreadable)
  exact hplan

end Plan

end Montage
