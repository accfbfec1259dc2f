import Montage.Proofs.Alike
import Montage.Proofs.Plan.Edit

/-!
# The caller's filters in a plan

Two edits that differ in the caller's filters only are planned alike: they are refused for the
same reason, they ask for the same length, and their plans are the same exactly if the filters
are, as far as they are used (`plan_alike`).  The filters of the sound are used if the sound of
the source is kept.
-/

namespace Montage

variable {α : Type}

namespace Plan

/-- Graphs of a source are the same if their filters are. -/
theorem sourceGraph_inj {video audio video' audio' : List (Filter α)} :
    sourceGraph video audio = sourceGraph video' audio' ↔ video = video' ∧ audio = audio' := by
  refine ⟨fun h => ?_, fun ⟨hvideo, haudio⟩ => by rw [hvideo, haudio]⟩
  have hchains (v a : List (Filter α)) :
      chainsOf (sourceGraph v a) = sourceChains .video v ++ sourceChains .audio a := by
    cases v <;> cases a <;> rfl
  have hsame := congrArg chainsOf h
  rw [hchains, hchains] at hsame
  cases video <;> cases audio <;> cases video' <;> cases audio' <;>
    simp_all [sourceChains, sourceChain, labelOf_ne, labelOf_ne.symm]

variable [Arithmetic α] {inputs : List Input} {graph : Option (Graph α)} {maps : List StreamMap}
  {options : OutputOptions α}

/-- The output is all that is left to be checked of wired parts that read a single input. -/
theorem Wired.assemble_eq (h : Wired inputs graph maps options)
    (hreads : Numbered 1 (reads graph)) (target : String) (estimate : Option α) :
    assemble inputs graph maps options target estimate =
      checkOutput options target >>= fun _ =>
        .ok ⟨inputs, graph, maps, options, target, estimate⟩ := by
  obtain ⟨⟨⟩, hread, -⟩ := (checkReads_ends (reads graph) hreads
    (List.length_pos_iff.2 h.someInput)).exists_ok fun _ hlong =>
      Nat.lt_asymm Decimal.one_lt_unreadable hlong.2
  exact assemble_eq_checkOutput h.someInput hread h.chosen.resolves h.chosen.mapped target estimate

end Plan

namespace Edit

open Plan

/-- The edit with other filters of the caller. -/
def withFilters (edit : Edit α) (video audio : List String) : Edit α :=
  { edit with videoFilters := video, audioFilters := audio }

/-- The filters are those of the edit, as far as they are used. -/
def SameFilters (edit : Edit α) (video audio : List String) : Prop :=
  video.map (Filter.ofExpression (α := α)) = edit.videoFilters.map Filter.ofExpression ∧
    (edit.sound.isOriginal = true →
      audio.map (Filter.ofExpression (α := α)) = edit.audioFilters.map Filter.ofExpression)

variable [Arithmetic α]

/-- The filter that retimes the video, if the speed changes. -/
def retiming (edit : Edit α) : Except Failure (List (Filter α)) :=
  if edit.changesSpeed then (Tempo.timeFilter edit.speed).map fun f => [f] else .ok []

/-- The filters that change the tempo of the sound, if the speed changes. -/
def tempo (edit : Edit α) : Except Failure (List (Filter α)) :=
  if edit.changesSpeed then Tempo.filters edit.speed else .ok []

/-- The filters for the volume and the beginning of the sound. -/
def opening (edit : Edit α) : List (Filter α) :=
  (if Arithmetic.eq edit.volume Arithmetic.one then []
    else [Filter.positional "volume" [.number edit.volume]]) ++
  (if Arithmetic.isPositive edit.fadeIn then
      [fadeFilter "in" (Arithmetic.ofInt 0) edit.fadeIn]
    else [])

/-- The filter for the end of the sound, given the length of the output if it is known. -/
def closing (edit : Edit α) (length : Option α) : Except Failure (List (Filter α)) :=
  match length with
  | some length =>
    if !Arithmetic.isPositive edit.fadeOut then .ok []
    else if !Arithmetic.fits edit.fadeOut then .error (.fault .tooLarge)
    else .ok [fadeFilter "out" (fadeOutStart length edit.fadeOut) edit.fadeOut]
  | none => .ok []

variable {edit : Edit α} {video audio : List String} {clip : Clip} {target : String}

/-- The filters of the video in order, the caller's own among them. -/
theorem videoChain_eq :
    edit.videoChain = edit.retiming >>= fun retiming =>
      .ok (Resize.filtersOf edit.resize ++ edit.videoFilters.map Filter.ofExpression ++
        retiming) := by
  unfold videoChain retiming
  split
  · rfl
  · rfl

/-- The filters of the sound in order: the caller's own stand before all others. -/
theorem audioChain_eq (length : Option α) :
    edit.audioChain length = edit.tempo >>= fun tempo => edit.closing length >>= fun closing =>
      .ok (edit.audioFilters.map Filter.ofExpression ++ (tempo ++ edit.opening ++ closing)) := by
  unfold audioChain
  extract_lets volume fadeIn rest
  have hrest (tempo : List (Filter α)) :
      rest tempo = edit.closing length >>= fun closing =>
        .ok (edit.audioFilters.map Filter.ofExpression ++ (tempo ++ edit.opening ++ closing)) := by
    have hlast (closing : List (Filter α)) :
        edit.audioFilters.map Filter.ofExpression ++ tempo ++ volume ++ fadeIn ++ closing =
          edit.audioFilters.map Filter.ofExpression ++ (tempo ++ edit.opening ++ closing) := by
      simp only [opening, volume, fadeIn, List.append_assoc]
    simp only [rest, hlast, closing]
    cases length with
    | none => rfl
    | some length =>
        simp only
        split
        · rfl
        · split
          · rfl
          · rfl
  unfold tempo
  split
  · exact bind_congr hrest
  · exact hrest []

/-- The chains of the video differ where the caller's filters do. -/
theorem videoChain_alike :
    Alike (fun other own => other = own ↔
        video.map (Filter.ofExpression (α := α)) = edit.videoFilters.map Filter.ofExpression)
      (edit.withFilters video audio).videoChain edit.videoChain := by
  rw [videoChain_eq, videoChain_eq]
  refine Alike.after fun retiming _ => ?_
  change _ ++ _ ++ _ = _ ++ _ ++ _ ↔ _
  rw [List.append_left_inj]
  exact List.append_right_inj _

/-- The chains of the sound differ where the caller's filters do, if there are any. -/
theorem keptChain_alike (length : Option α) :
    Alike (fun other own => other = own ↔ (edit.sound.isOriginal = true →
        audio.map (Filter.ofExpression (α := α)) = edit.audioFilters.map Filter.ofExpression))
      ((edit.withFilters video audio).keptChain length) (edit.keptChain length) := by
  have hsound : (edit.withFilters video audio).sound = edit.sound := rfl
  unfold keptChain
  rw [hsound]
  cases edit.sound.isOriginal with
  | true =>
      simp only [if_true, forall_const]
      rw [audioChain_eq, audioChain_eq]
      refine Alike.after fun tempo _ => Alike.after fun closing _ => ?_
      exact List.append_left_inj _
  | false => exact ⟨fun _ => nofun, fun _ => rfl⟩

/-- The plans of such edits differ where the filters do that are used. -/
theorem compose_alike {length : Option α}
    (hlength : edit.needsLength = true → length.isSome = true) :
    Alike (fun other plan => other = plan ↔ edit.SameFilters video audio)
      ((edit.withFilters video audio).compose clip target length)
      (edit.compose clip target length) := by
  rw [compose_eq, compose_eq]
  refine videoChain_alike.bind fun video' videoOwn _ _ hvideo => ?_
  refine (keptChain_alike length).bind fun audio' audioOwn haudio' haudioOwn haudio => ?_
  have hkept {other : Edit α} {chain : List (Filter α)} (h : other.keptChain length = .ok chain) :
      other.sound.isOriginal = false → chain = [] := by
    have hends := other.keptChain_ends length
    rw [h] at hends
    exact hends
  rw [((edit.withFilters video audio).wired_parts clip video' audio' (hkept haudio')
      hlength).assemble_eq (numbered_sourceGraph _ _),
    (edit.wired_parts clip videoOwn audioOwn (hkept haudioOwn) hlength).assemble_eq
      (numbered_sourceGraph _ _)]
  refine Alike.after fun _ _ => ?_
  rw [SameFilters, ← hvideo, ← haudio]
  constructor
  · intro hsame
    exact sourceGraph_inj.1 (congrArg Plan.graph hsame)
  · rintro ⟨rfl, rfl⟩
    rfl

end Edit

/-- Two drafts ask for the same length, if they do, and end alike with every answer. -/
def Draft.Alike (same : Plan α → Plan α → Prop) : Draft α → Draft α → Prop
  | settled x, settled y => Montage.Alike same x y
  | awaiting clip resume, awaiting clip' resume' =>
    clip = clip' ∧ ∀ length, Montage.Alike same (resume length) (resume' length)
  | _, _ => False

/-- **Edits that differ in the caller's filters are planned alike.**  They are refused for the same
reason or ask for the same length, and the plans are the same exactly if the filters are that are
used. -/
theorem Edit.plan_alike [Arithmetic α] (edit : Edit α) (video audio : List String) (clip : Clip)
    (target : String) :
    Draft.Alike (fun other plan => other = plan ↔ edit.SameFilters video audio)
      ((edit.withFilters video audio).plan clip target) (edit.plan clip target) := by
  have hcheck : (edit.withFilters video audio).check = edit.check := rfl
  have hneeds : (edit.withFilters video audio).needsLength = edit.needsLength := rfl
  unfold Edit.plan
  rw [hcheck, hneeds]
  cases edit.check with
  | error failure => rfl
  | ok =>
      cases hlength : edit.needsLength with
      | true => exact ⟨rfl, fun source => compose_alike fun _ => rfl⟩
      | false => exact compose_alike (by simp [hlength])

end Montage
