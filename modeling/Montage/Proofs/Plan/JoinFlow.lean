import Montage.Proofs.Graph.Signal
import Montage.Proofs.Plan.Parts

/-!
# What a join plays

Going through the chains of a join shows what comes out of its graph: the clips one after
another, each with its own video in the size that is asked for, and with its own sound if
that is kept.  The walk is over the clips.  Every chain gives one clip its label and leaves
all others (`evaluate_clipChain`), so that in the end each label stands for its clip
(`evaluate_clipChains`), and the last chain reads them in order.
-/

namespace Montage

/-- Two ways to treat the sound that differ in the track at most. -/
def Sound.isLike : Sound → Sound → Bool
  | original, original => true
  | muted, muted => true
  | replaced _ _ _, replaced _ _ _ => true
  | _, _ => false

namespace Plan

variable {α : Type}

/-- The video of a clip behind its filters; without filters its own stream. -/
def clipSignal (filters : List (Filter α)) (n : Nat) : Signal α :=
  if filters.isEmpty then .raw (Label.raw n .video)
  else .result [.raw (Label.raw n .video)] filters 0

/-- What is played for one clip: its video, and its sound if that is kept. -/
def clipSignals (filters : List (Filter α)) (sound : Bool) (n : Nat) : List (Signal α) :=
  clipSignal filters n :: if sound then [.raw (Label.raw n .audio)] else []

/-- No raw label is the label of a clip. -/
theorem raw_ne_clipVideo (n m : Nat) (stream : Stream) :
    Label.raw n stream ≠ Label.clipVideo m := by
  intro h
  have hraw := Label.isRaw_raw n stream
  rw [h, Label.isRaw_clipVideo] at hraw
  cases hraw

/-- The chain of one clip: its label stands for its video, and all others stand for what
they stood for. -/
theorem evaluate_clipChain (filters : List (Filter α)) (n : Nat) {signals : Signals α}
    (h : signals (Label.raw n .video) = some (.raw (Label.raw n .video))) :
    ∃ after, Graph.evaluateFrom (clipChain filters n) signals = some after ∧
      (filters.isEmpty = false → after (Label.clipVideo n) = some (clipSignal filters n)) ∧
      ∀ label, label ≠ Label.clipVideo n → after label = signals label := by
  unfold clipChain clipSignal
  cases hfilters : filters.isEmpty with
  | true => exact ⟨signals, rfl, nofun, fun _ _ => rfl⟩
  | false =>
      let node : Node α := ⟨[Label.raw n .video], filters, [Label.clipVideo n]⟩
      have hsources : node.inputs.mapM signals = some [.raw (Label.raw n .video)] := by
        simp [node, h]
      obtain ⟨after, hafter, houtputs, hothers⟩ := node.evaluate_eq_some hsources
      refine ⟨after, ?_, fun _ => ?_, fun label hlabel => ?_⟩
      · simpa [Graph.evaluateFrom_singleton, node] using hafter
      · exact houtputs _ 0 (by simp [node, List.idxOf?_cons])
      · exact hothers label (by simpa [node] using hlabel)

/-- The chains of all clips.  The invariant of the walk is that the raw labels stand for
their streams and the labels of the clips seen so far for their videos. -/
theorem evaluate_clipChains (filters : List (Filter α)) (index count : Nat) {signals : Signals α}
    (h : ∀ n : Nat, signals (Label.raw n .video) = some (.raw (Label.raw n .video))) :
    ∃ after, Graph.evaluateFrom (clipChains filters index count) signals = some after ∧
      (filters.isEmpty = false → ∀ n, index ≤ n → n < index + count →
        after (Label.clipVideo n) = some (clipSignal filters n)) ∧
      ∀ label, (∀ n, index ≤ n → label ≠ Label.clipVideo n) → after label = signals label := by
  induction count generalizing index signals with
  | zero => exact ⟨signals, rfl, fun _ n hn hlt => by omega, fun _ _ => rfl⟩
  | succ count ih =>
      obtain ⟨between, hbetween, hclip, hkept⟩ := evaluate_clipChain filters index (h index)
      have hraw (n : Nat) : between (Label.raw n .video) = some (.raw (Label.raw n .video)) := by
        rw [hkept _ (raw_ne_clipVideo n index .video), h]
      obtain ⟨after, hafter, hclips, hothers⟩ := ih (index + 1) hraw
      refine ⟨after, ?_, fun hfilters n hn hlt => ?_, fun label hlabel => ?_⟩
      · rw [clipChains_succ, Graph.evaluateFrom_append, hbetween]
        exact hafter
      · by_cases hfirst : n = index
        · -- The label of this clip is none of the labels that come later.
          subst hfirst
          rw [hothers, hclip hfilters]
          intro m hm hsame
          have := Label.clipVideo_injective hsame
          omega
        · exact hclips hfilters n (by omega) (by omega)
      · rw [hothers label fun n hn => hlabel n (by omega),
          hkept label (hlabel index (Nat.le_refl _))]

/-- The labels of a clip stand for what is played of it. -/
theorem mapM_clipLabels {filters : List (Filter α)} {n : Nat} {signals : Signals α} (sound : Bool)
    (hraw : ∀ stream, signals (Label.raw n stream) = some (.raw (Label.raw n stream)))
    (hclip : filters.isEmpty = false →
      signals (Label.clipVideo n) = some (clipSignal filters n)) :
    (clipLabels filters sound n).mapM signals = some (clipSignals filters sound n) := by
  have hvideo : signals (if filters.isEmpty then Label.raw n .video else Label.clipVideo n) =
      some (clipSignal filters n) := by
    cases hfilters : filters.isEmpty with
    | true => simpa [clipSignal, hfilters] using hraw .video
    | false => simpa using hclip hfilters
  rw [clipLabels, clipSignals, List.mapM_cons, hvideo]
  cases sound with
  | true => simp [hraw]
  | false => rfl

variable [Arithmetic α]

/-- The results of the graph of a join are those of its last chain, which reads what is
played of every clip. -/
theorem evaluate_joinGraph (filters : List (Filter α)) (sound : Bool) (count : Nat) :
    ∃ signals, (joinGraph filters sound count).evaluate = some signals ∧
      ∀ label number, (joinedResults sound).idxOf? label = some number →
        signals label = some (.result ((List.range' 0 count).flatMap (clipSignals filters sound))
          [concatFilter count sound] number) := by
  obtain ⟨between, hbetween, hclips, hothers⟩ :=
    evaluate_clipChains filters 0 count fun n => Signal.start_raw n .video
  have hraw (n : Nat) (stream : Stream) :
      between (Label.raw n stream) = some (.raw (Label.raw n stream)) := by
    rw [hothers _ fun m _ => raw_ne_clipVideo n m stream, Signal.start_raw]
  have hsources : (joinChain filters sound count).inputs.mapM between =
      some ((List.range' 0 count).flatMap (clipSignals filters sound)) := by
    refine mapM_flatMap fun n hn => mapM_clipLabels sound (hraw n) fun hfilters => ?_
    have hlt : n < count := by simpa using hn
    exact hclips hfilters n (Nat.zero_le n) (by omega)
  -- The last chain gives the results their labels, whatever these stood for before.
  obtain ⟨signals, hsignals, houtputs, -⟩ := Node.evaluate_eq_some hsources
  refine ⟨signals, ?_, houtputs⟩
  rw [Graph.evaluate, joinGraph, Graph.evaluateFrom_append, hbetween, Option.bind_some,
    Graph.evaluateFrom_singleton, hsignals]

/-- The filter that plays `count` segments one after another, each of so many videos and
sounds. -/
def playFilter (count videos sounds : Nat) : Filter α :=
  ⟨"concat", [(some "n", .number (Arithmetic.ofInt count)),
    (some "v", .number (Arithmetic.ofInt videos)), (some "a", .number (Arithmetic.ofInt sounds))]⟩

omit [Arithmetic α] in
/-- The kinds of streams which that filter reads, in order. -/
def playKinds (count videos sounds : Nat) : List Stream :=
  (List.replicate count
    (List.replicate videos .video ++ List.replicate sounds .audio)).flatten

/-- The video of a clip in the size that is asked for, if any is. -/
def resizedVideo (resize : Option Resize) (n : Nat) : Signal α :=
  match resize with
  | none => .raw (Label.raw n .video)
  | some r => .result [.raw (Label.raw n .video)] r.filters 0

/-- What is played: of every clip its video, and its sound if that is kept. -/
def segments (resize : Option Resize) (sound : Bool) (count : Nat) : List (Signal α) :=
  (List.range count).flatMap fun n =>
    resizedVideo resize n :: if sound then [.raw (Label.raw n .audio)] else []

theorem clipSignal_filtersOf (resize : Option Resize) (n : Nat) :
    clipSignal (Resize.filtersOf resize) n = (resizedVideo resize n : Signal α) := by
  cases resize with
  | none => rfl
  | some r =>
      have hsome : (r.filters : List (Filter α)).isEmpty = false := by
        unfold Resize.filters
        split
        · rfl
        · split <;> rfl
      rw [clipSignal, Resize.filtersOf, hsome]
      rfl

theorem flatMap_clipSignals (resize : Option Resize) (sound : Bool) (count : Nat) :
    (List.range' 0 count).flatMap (clipSignals (Resize.filtersOf resize) sound) =
      (segments resize sound count : List (Signal α)) := by
  have hsignals : clipSignals (Resize.filtersOf resize) sound = fun n =>
      (resizedVideo resize n :: if sound then [.raw (Label.raw n .audio)] else [] :
        List (Signal α)) := by
    funext n
    rw [clipSignals, clipSignal_filtersOf]
  rw [hsignals, ← List.range_eq_range']
  rfl

/-- A resized video is a video. -/
theorem kind?_resizedVideo (resize : Option Resize) (n : Nat) :
    (resizedVideo resize n : Signal α).kind? = some .video := by
  cases resize <;> exact Label.kind?_raw n .video

/-- What is played of the clips has the kinds that the filter reads. -/
theorem kinds_segments (resize : Option Resize) (sound : Bool) (count : Nat) :
    (segments resize sound count : List (Signal α)).map (·.kind?) =
      (playKinds count 1 (if sound then 1 else 0)).map some := by
  let one : List Stream :=
    List.replicate 1 .video ++ List.replicate (if sound then 1 else 0) .audio
  have hone (n : Nat) :
      ((resizedVideo resize n :: if sound then [.raw (Label.raw n .audio)] else [] :
        List (Signal α))).map (·.kind?) = one.map some := by
    have hsound := Label.kind?_raw n .audio
    cases sound <;> simp [one, kind?_resizedVideo, Signal.kind?, hsound]
  have hrange (items : List Nat) :
      (items.flatMap fun n => (resizedVideo resize n ::
        if sound then [.raw (Label.raw n .audio)] else [] : List (Signal α))).map (·.kind?) =
          (List.replicate items.length one).flatten.map some := by
    induction items with
    | nil => rfl
    | cons n rest ih =>
        rw [List.flatMap_cons, List.map_append, hone, ih, ← List.map_append, List.length_cons,
          List.replicate_succ, List.flatten_cons]
  have hall := hrange (List.range count)
  rw [List.length_range] at hall
  exact hall

/-- The sounds that a join reads are those of the clips, in order, if they are kept. -/
theorem sounds_joinGraph (filters : List (Filter α)) (sound : Bool) (count : Nat) :
    (reads (some (joinGraph filters sound count))).filter Label.isSound =
      if sound then (List.range count).map fun n : Nat => Label.raw n .audio else [] := by
  have hvideo (n : Nat) : Label.isSound (Label.raw n .video) = false := Label.isSound_raw n .video
  have haudio (n : Nat) : Label.isSound (Label.raw n .audio) = true := Label.isSound_raw n .audio
  have hclip (n : Nat) : Label.isSound (Label.clipVideo n) = false := by
    rw [Label.isSound, Label.kind?_of_not_raw (Label.isRaw_clipVideo n)]
    rfl
  have hchain (n : Nat) :
      ((clipChain filters n).flatMap (·.inputs)).filter Label.isSound = [] := by
    unfold clipChain
    split
    · rfl
    · simp [hvideo]
  have hlabels (n : Nat) : (clipLabels filters sound n).filter Label.isSound =
      if sound then [Label.raw n .audio] else [] := by
    unfold clipLabels
    cases filters.isEmpty <;> cases sound <;> simp [hvideo, haudio, hclip]
  have hreads : reads (some (joinGraph filters sound count)) =
      (List.range' 0 count).flatMap (fun n => (clipChain filters n).flatMap (·.inputs)) ++
        (List.range' 0 count).flatMap (clipLabels filters sound) := by
    simp [reads, joinGraph, joinChain, clipChains, joinedLabels, List.flatMap_append,
      List.flatMap_assoc]
  have hnone (items : List Nat) : items.flatMap (fun _ => ([] : List String)) = [] := by
    simp
  rw [hreads, List.filter_append, List.filter_flatMap, List.filter_flatMap]
  simp only [hchain, hlabels, hnone, List.nil_append]
  cases sound with
  | true =>
      rw [if_pos rfl, List.range_eq_range', List.map_eq_flatMap]
      rfl
  | false => exact hnone _

/-- A plan plays the clips one after another. -/
structure Plays (clips : List Clip) (resize : Option Resize) (sound : Sound) (plan : Plan α) :
    Prop where
  /-- The clips come first, each as it is, and then the track that replaces their sound. -/
  inputs : plan.inputs = clips.map (fun clip => { clip := clip }) ++ joinTrack sound
  /-- The results of the graph are those of the filter that plays the segments. -/
  results : ∃ graph signals, plan.graph = some graph ∧ graph.evaluate = some signals ∧
    signals videoLabel = some (.result (segments resize sound.isOriginal clips.length)
      [playFilter clips.length 1 (if sound.isOriginal then 1 else 0)] 0) ∧
    (sound.isOriginal = true →
      signals audioLabel = some (.result (segments resize true clips.length)
        [playFilter clips.length 1 1] 1))
  /-- The segments are of the kinds that the filter is told. -/
  fits : (segments resize sound.isOriginal clips.length : List (Signal α)).map (·.kind?) =
    (playKinds clips.length 1 (if sound.isOriginal then 1 else 0)).map some
  silent : sound.isOriginal = false → ∀ label ∈ reads plan.graph, Label.isSound label = false
  maps : plan.maps = joinMaps sound clips.length

/-- The parts that a join hands to the assembler play the clips. -/
theorem plays_join (clips : List Clip) (resize : Option Resize) (sound : Sound) (target : String)
    (format : Option String) (estimate : Option α) :
    Plays clips resize sound
      ⟨joinInputs clips sound,
        some (joinGraph (Resize.filtersOf resize) sound.isOriginal clips.length),
        joinMaps sound clips.length, joinOptions sound format, target, estimate⟩ where
  inputs := rfl
  results := by
    obtain ⟨signals, hsignals, hresults⟩ :=
      evaluate_joinGraph (α := α) (Resize.filtersOf resize) sound.isOriginal clips.length
    rw [flatMap_clipSignals] at hresults
    refine ⟨_, signals, rfl, hsignals, ?_, fun hsound => ?_⟩
    · have hvideo : (joinedResults sound.isOriginal).idxOf? videoLabel = some 0 := by
        cases sound.isOriginal <;> decide
      rw [hresults _ _ hvideo]
      cases sound.isOriginal <;> rfl
    · rw [hsound] at hresults
      exact hresults audioLabel 1 (by decide)
  fits := kinds_segments resize sound.isOriginal clips.length
  silent hsound label hlabel := by
    have hnone := sounds_joinGraph (α := α) (Resize.filtersOf resize) sound.isOriginal clips.length
    rw [hsound, if_neg Bool.false_ne_true, List.filter_eq_nil_iff] at hnone
    rw [hsound] at hlabel
    simpa using hnone label hlabel
  maps := rfl

/-- **What a join plays.**  Clips that can be joined become a plan that plays them in order,
with their own sound, without sound, or with the one of another track, which is a further
input even if it is one of the clips.  Only clips that are more than numbers can be read
are refused.  And the graph and the maps depend on nothing but how many clips there are,
their size and the way to treat their sound. -/
theorem join_plays {clips : List Clip} {sound : Sound} {target : String} (resize : Option Resize)
    (format : Option String) (hclips : 2 ≤ clips.length) (hsound : sound.check = .ok ())
    (htarget : target ≠ "") :
    Ends
      (fun plan : Plan α => Plays clips resize sound plan ∧
        ∀ (others : List Clip) (treatment : Sound) (path : String) (container : Option String)
          (twin : Plan α), others.length = clips.length → treatment.isLike sound = true →
          join others resize treatment path container = .ok twin →
            twin.graph = plan.graph ∧ twin.maps = plan.maps)
      (fun failure => failure = .fault .badValue ∧ Decimal.unreadable < clips.length)
      (join clips resize sound target format) := by
  have hsome : clips ≠ [] := by
    rintro rfl
    simp at hclips
  have hcount : clips.length ≤ (joinInputs clips sound).length := by simp [joinInputs]
  have hwired := wired_join (α := α) resize format hsome hsound
  rw [join_eq resize target format hclips hsound]
  refine (assemble_ends _ _ _ _ _ _ hwired.someInput (numbered_joinGraph _ _ _) hcount
    hwired.chosen.resolves hwired.chosen.mapped).mono ?_ ?_
  · rintro plan ⟨rfl, -⟩
    refine ⟨plays_join clips resize sound target format none, ?_⟩
    -- Of the other join only the number of clips and the kind of sound get into these parts.
    intro others treatment path container twin hlength hlike htwin
    obtain ⟨-, rfl⟩ := of_join htwin
    have hkept : treatment.isOriginal = sound.isOriginal := by
      cases treatment <;> cases sound <;> first | rfl | cases hlike
    have hmaps : joinMaps treatment clips.length = joinMaps sound clips.length := by
      cases treatment <;> cases sound <;> first | rfl | cases hlike
    rw [hlength, hkept, hmaps]
    exact ⟨rfl, rfl⟩
  · -- The assembler has no other reason than a number too long to refuse what is wired.
    intro failure hrefused
    cases hrefused with
    | noTarget h => exact absurd h htarget
    | duration d h => cases h
    | overlong h => exact ⟨rfl, h⟩

/-- The first of two clips is also the track that replaces their sound. -/
theorem join_plays_first :
    ∃ plan : Plan Number,
      join [⟨"a", "/a"⟩, ⟨"b", "/b"⟩] none (.replaced ⟨"a", "/a"⟩ true false) "out.mp4" none =
          .ok plan ∧
        plan.inputs = [{ clip := ⟨"a", "/a"⟩ }, { clip := ⟨"b", "/b"⟩ },
          { clip := ⟨"a", "/a"⟩, loop := some joinLoops }] ∧
        plan.maps = [.ofLabel videoLabel, .ofStream 2 .audio none false] := by
  let clips : List Clip := [⟨"a", "/a"⟩, ⟨"b", "/b"⟩]
  let sound : Sound := .replaced ⟨"a", "/a"⟩ true false
  have hplays := join_plays (α := Number) none none (show 2 ≤ clips.length by decide)
    (show sound.check = .ok () from rfl) (show "out.mp4" ≠ "" by decide)
  cases hjoin : join (α := Number) clips none sound "out.mp4" none with
  | error failure =>
      have hlimit := Decimal.one_lt_unreadable
      rw [hjoin] at hplays
      obtain ⟨-, hlong⟩ := hplays
      exact absurd hlong (by simp only [clips, List.length_cons, List.length_nil]; omega)
  | ok plan =>
      rw [hjoin] at hplays
      exact ⟨plan, rfl, hplays.1.inputs, hplays.1.maps⟩

end Plan

end Montage
