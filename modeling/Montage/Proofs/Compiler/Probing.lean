import Montage.Proofs.Compiler.Draft
import Montage.Proofs.Plan.EditFlow

/-!
# When the length of a clip is asked for

A probe is a program that is started, so it matters when the compiler calls it.  It does so at
most once, for the clip of a custom edit, and only if the plan depends on the length and nothing
else about the request is wrong (`probe_discipline`).  Without a call no probe can make a
difference to what a request comes to.
-/

namespace Montage.Compiler

/-- Compiling a request calls the probe once: for this clip, on the host `before`.  What the
probe answers is all that the rest has of it. -/
def Asks (c : Compiler) (request : Request) (host : Host) (clip : Clip) (before : Host) : Prop :=
  ∃ resume : Option Number → Except Failure (Plan Number),
    ∀ probe : Clip → Action (Option Number),
      (c.compile request probe).runOn host =
        Action.runOn (probe clip >>= fun answer => liftM (resume answer)) before

/-- The number in a field of a request; `default` if there is none. -/
def numberOf (request : Request) (keys : List String) (field : String) (default : Float) : Float :=
  (Request.number? (request.field keys) field).toOption.join.getD default

/-- The speed of a custom request; one if there is none. -/
def speedOf (request : Request) : Float :=
  (Request.speed (request.field ["speed"]) "speed" none none).toOption.getD 1.0

/-- How long the sound of a custom request fades out. -/
def fadeOutOf (request : Request) : Float :=
  numberOf request ["fadeOut", "fade_out"] "fadeOut" 0.0

/-- All that a custom request says is valid. -/
structure ValidEdit (c : Compiler) (request : Request) (host : Host) : Prop where
  /-- What it names is found, what it sets can be read, and the output has a name. -/
  readable : ∀ reading ∈ readings request .custom, reading.run c request host = .ok ()
  speed : Arithmetic.isAtMostZero (Number.float (speedOf request)) = false
  volume : Arithmetic.isAtMostZero (Number.float (numberOf request ["volume"] "volume" 1.0)) = false
  fadeIn : Arithmetic.lt (Number.float (numberOf request ["fadeIn", "fade_in"] "fadeIn" 0.0))
    Arithmetic.zero = false
  fadeOut : Arithmetic.lt (Number.float (fadeOutOf request)) Arithmetic.zero = false

/-- A track is looped under the video, or the sound is neither replaced nor muted and fades
out. -/
def DependsOnLength (request : Request) : Prop :=
  (request.field ["customAudio"]).isBlank = false ∨
    (Request.switch (request.field ["mute"]) "mute" false = .ok false ∧
      Arithmetic.isPositive (Number.float (fadeOutOf request)) = true)

variable {c : Compiler} {request : Request} {host : Host}

section

variable {clip other : Clip} {before before' : Host}

/-- The clip and the host of a call are known from what a failing probe leaves. -/
theorem Asks.unique (h : c.Asks request host clip before)
    (h' : c.Asks request host other before') : other = clip ∧ before' = before := by
  obtain ⟨resume, hresume⟩ := h
  obtain ⟨resume', hresume'⟩ := h'
  -- The probe fails differently for the clip and for all others.
  let probe (asked : Clip) : Action (Option Number) :=
    if asked = clip then throw (.fault .badValue) else throw .system
  have hprobe : (probe clip).runOn before = (.error (.fault .badValue), before) := by
    simp only [probe, if_pos]
    rfl
  have hrun := (hresume probe).trans (Action.runOn_bind_error hprobe)
  rw [hresume'] at hrun
  by_cases hsame : other = clip
  · subst hsame
    have hprobe' : (probe other).runOn before' = (.error (.fault .badValue), before') := by
      simp only [probe, if_pos]
      rfl
    rw [Action.runOn_bind_error hprobe'] at hrun
    exact ⟨rfl, (Prod.ext_iff.1 hrun).2⟩
  · have hprobe' : (probe other).runOn before' = (.error .system, before') := by
      simp only [probe, if_neg hsame]
      rfl
    rw [Action.runOn_bind_error hprobe'] at hrun
    cases hrun

/-- What no probe makes a difference to calls none. -/
theorem not_asks_of_constant {last : Except Failure (Plan Number) × Host}
    (h : ∀ probe, (c.compile request probe).runOn host = last) :
    ¬ c.Asks request host clip before := by
  rintro ⟨resume, hresume⟩
  -- A call would let every failure of the probe through, so there are two that differ.
  have hrun (failure : Failure) : (.error failure, before) = last := by
    have hprobe : (throw failure : Action (Option Number)).runOn before =
      (.error failure, before) := rfl
    exact (Action.runOn_bind_error hprobe).symm.trans ((hresume fun _ => throw failure).symm.trans
      (h _))
  cases (hrun (.fault .badValue)).trans (hrun .system).symm

/-- A failure of the probe is the failure of the compilation. -/
theorem Asks.fails (h : c.Asks request host clip before) {probe : Clip → Action (Option Number)}
    {failure : Failure} {after : Host}
    (hprobe : (probe clip).runOn before = (.error failure, after)) :
    (c.compile request probe).runOn host = (.error failure, after) := by
  obtain ⟨resume, hresume⟩ := h
  exact (hresume probe).trans (Action.runOn_bind_error hprobe)

end

/-- The numbers of a custom edit are those of its request. -/
theorem numbers_of_readEdit {sound : Option Sound} {edit : Edit Number}
    (h : readEdit request sound = .ok edit) :
    edit.speed = .float (speedOf request) ∧
      edit.volume = .float (numberOf request ["volume"] "volume" 1.0) ∧
      edit.fadeIn = .float (numberOf request ["fadeIn", "fade_in"] "fadeIn" 0.0) ∧
      edit.fadeOut = .float (fadeOutOf request) := by
  have hnumber {keys : List String} {field : String} {number : Option Float} (default : Float)
      (hread : Request.number? (request.field keys) field = .ok number) :
      number.getD default = numberOf request keys field default := by
    rw [numberOf, hread]
    rfl
  obtain ⟨speed, mute, fadeIn, fadeOut, volume, hread⟩ := settings_of_readEdit h
  refine ⟨hread.speed.trans ?_, hread.volume.trans (congrArg _ (hnumber 1.0 hread.readVolume)),
    hread.fadeIn.trans (congrArg _ (hnumber 0.0 hread.readFadeIn)),
    hread.fadeOut.trans (congrArg _ (hnumber 0.0 hread.readFadeOut))⟩
  rw [speedOf, hread.readSpeed]
  rfl

/-- Settings that were read are in range exactly if the request is. -/
theorem check_of_readEdit {sound : Option Sound} {edit : Edit Number}
    (hsound : Replaces c request host "customAudio" true sound)
    (hedit : readEdit request sound = .ok edit)
    (hreadable : ∀ reading ∈ readings request .custom, reading.run c request host = .ok ()) :
    edit.check = .ok () ↔ ValidEdit c request host := by
  obtain ⟨hspeed, hvolume, hfadeIn, hfadeOut⟩ := numbers_of_readEdit hedit
  constructor
  · intro hcheck
    obtain ⟨hspeed', hvolume', hfadeIn', hfadeOut', -⟩ := Edit.of_check hcheck
    exact ⟨hreadable, hspeed ▸ hspeed', hvolume ▸ hvolume', hfadeIn ▸ hfadeIn',
      hfadeOut ▸ hfadeOut'⟩
  · intro hvalid
    obtain ⟨mute, -, -, hkind, -⟩ := of_readEdit hedit
    have hknown : edit.sound.check = .ok () := hkind ▸ hsound.check mute
    unfold Edit.check
    simp only [hspeed, hvolume, hfadeIn, hfadeOut, hvalid.speed, hvalid.volume, hvalid.fadeIn,
      hvalid.fadeOut, Bool.false_eq_true, if_false]
    exact hknown

/-- An edit needs the length exactly if its request says so. -/
theorem needsLength_of_readEdit {sound : Option Sound} {edit : Edit Number}
    (hsound : Replaces c request host "customAudio" true sound)
    (hedit : readEdit request sound = .ok edit) :
    edit.needsLength = true ↔ DependsOnLength request := by
  obtain ⟨-, -, -, hfadeOut⟩ := numbers_of_readEdit hedit
  obtain ⟨mute, -, -, hkind, -, -, -, hmute⟩ := of_readEdit hedit
  unfold DependsOnLength Edit.needsLength
  rw [hkind, hfadeOut, hmute]
  rcases hsound with ⟨hblank, rfl⟩ | ⟨hgiven, track, temporary, -, -, rfl⟩
  · cases mute with
    | true => simp [chooseSound, hblank]
    | false => simp [chooseSound, hblank]
  · simp [chooseSound, hgiven]

/-- What a custom request is drafted to: without a failed reading, the plan of its edit. -/
theorem draft_of_custom (c : Compiler) (host : Host)
    (hoperation : Operation.ofValue (request.field ["operation"]) = .ok .custom) :
    ((∀ reading ∈ readings request .custom, reading.run c request host = .ok ()) ∧
      ∃ clip sound edit target,
        Resolver.resolve host c.directories (request.field ["filename"]) = .ok clip ∧
          Replaces c request host "customAudio" true sound ∧ readEdit request sound = .ok edit ∧
          (c.draft request).result host = .ok (edit.plan clip target)) ∨
    ((∃ reading ∈ readings request .custom, reading.run c request host ≠ .ok ()) ∧
      ∃ failure, (c.draft request).result host = .error failure) := by
  -- What is known of the handler is stated with a rest behind it; here there is none.
  have hdraft : (c.draft request).result host = (c.custom request >>= pure).result host := by
    rw [result_draft, hoperation, bind_pure]
    rfl
  rw [hdraft]
  have hfollows := @custom_follows _ c host request pure
  rcases hfollows.cases with
    ⟨hreadable, clip, sound, edit, target, printed, hclip, hsound, hedit, hplan⟩ |
      ⟨reading, hmem, failure, hfails, hfailure⟩
  · exact .inl ⟨hreadable, clip, sound, edit, target, hclip, hsound, hedit, hplan⟩
  · refine .inr ⟨⟨reading, hmem, ?_⟩, failure, hfailure⟩
    rw [hfails]
    exact nofun

/-- The draft of an edit awaits its clip exactly if the edit is in range and needs the
length. -/
theorem plan_cases (edit : Edit Number) (clip : Clip) (target : String) :
    (edit.check = .ok () ∧ edit.needsLength = true ∧
        ∃ resume, edit.plan clip target = .awaiting clip resume) ∨
      (¬ (edit.check = .ok () ∧ edit.needsLength = true) ∧
        ∃ outcome, edit.plan clip target = .settled outcome) := by
  unfold Edit.plan
  cases hcheck : edit.check with
  | error failure => exact .inr ⟨nofun, _, rfl⟩
  | ok =>
      cases hneeds : edit.needsLength with
      | true => exact .inl ⟨rfl, rfl, _, rfl⟩
      | false => exact .inr ⟨nofun, _, rfl⟩

/-- A compilation either calls the probe once, for the clip of a valid custom request that
depends on its length, or comes to the same whatever the probe. -/
theorem compile_cases (c : Compiler) (request : Request) (host : Host) :
    ((Operation.ofValue (request.field ["operation"]) = .ok .custom ∧ ValidEdit c request host ∧
        DependsOnLength request) ∧
      ∃ clip printed,
        Resolver.resolve host c.directories (request.field ["filename"]) = .ok clip ∧
          c.Asks request host clip { host with printed }) ∨
    (¬ (Operation.ofValue (request.field ["operation"]) = .ok .custom ∧ ValidEdit c request host ∧
        DependsOnLength request) ∧
      ∃ last, ∀ probe, (c.compile request probe).runOn host = last) := by
  have hdraft := result_draft c request host
  cases hoperation : Operation.ofValue (request.field ["operation"]) with
  | error failure =>
      rw [Ends.error_bind hoperation] at hdraft
      obtain ⟨printed, hcompile⟩ := compile_of_error hdraft
      exact .inr ⟨nofun, _, hcompile⟩
  | ok operation =>
      by_cases hcustom : operation = .custom
      · subst hcustom
        rcases draft_of_custom c host hoperation with
          ⟨hreadable, clip, sound, edit, target, hclip, hsound, hedit, hplan⟩ |
            ⟨⟨reading, hmem, hfails⟩, failure, hfailure⟩
        · have hcheck := check_of_readEdit hsound hedit hreadable
          have hneeds := needsLength_of_readEdit hsound hedit
          rcases plan_cases edit clip target with ⟨hvalid, hlong, resume, hawaits⟩ |
            ⟨hnot, outcome, hsettled⟩
          · rw [hawaits] at hplan
            obtain ⟨printed, hcompile⟩ := compile_of_awaiting hplan
            exact .inl ⟨⟨rfl, hcheck.1 hvalid, hneeds.1 hlong⟩, clip, printed, hclip, _, hcompile⟩
          · rw [hsettled] at hplan
            obtain ⟨printed, hcompile⟩ := compile_of_settled hplan
            refine .inr ⟨fun ⟨_, hvalid, hlong⟩ => hnot ⟨hcheck.2 hvalid, hneeds.2 hlong⟩, _,
              hcompile⟩
        · obtain ⟨printed, hcompile⟩ := compile_of_error hfailure
          exact .inr ⟨fun ⟨_, hvalid, _⟩ => hfails (hvalid.readable reading hmem), _, hcompile⟩
      -- Every other operation either fails or settles its draft.
      · refine .inr ⟨fun ⟨hsame, _⟩ => hcustom (Except.ok.inj hsame), ?_⟩
        rw [Ends.ok_bind hoperation] at hdraft
        cases hperform : (c.perform request operation).result host with
        | error failure =>
            obtain ⟨printed, hcompile⟩ := compile_of_error (hdraft.trans hperform)
            exact ⟨_, hcompile⟩
        | ok draft =>
            obtain ⟨outcome, rfl⟩ := settled_of_perform hcustom hperform
            obtain ⟨printed, hcompile⟩ := compile_of_settled (hdraft.trans hperform)
            exact ⟨_, hcompile⟩

/-- **When the probe is called.**  Compiling a request calls the probe at most once.  It calls
it exactly for a custom edit about which all else is valid and which loops a track or fades out
a sound that is kept; then with the clip of the request, on the host as it was but for what is
printed, and a failure of the probe is the failure of the compilation.  If it does not call the
probe, all probes come to the same. -/
theorem probe_discipline (c : Compiler) (request : Request) (host : Host) :
    ((∃ clip before, c.Asks request host clip before) ↔
      Operation.ofValue (request.field ["operation"]) = .ok .custom ∧
        ValidEdit c request host ∧ DependsOnLength request) ∧
    (∀ clip before, c.Asks request host clip before →
      Resolver.resolve host c.directories (request.field ["filename"]) = .ok clip ∧
        (∃ printed, before = { host with printed }) ∧
        ∀ probe failure after, (probe clip).runOn before = (.error failure, after) →
          (c.compile request probe).runOn host = (.error failure, after)) ∧
    ((¬ ∃ clip before, c.Asks request host clip before) →
      ∀ probe other,
        (c.compile request probe).runOn host = (c.compile request other).runOn host) := by
  rcases compile_cases c request host with ⟨hcalls, found, printed, hfound, hasks⟩ |
    ⟨hsilent, last, hlast⟩
  · refine ⟨⟨fun _ => hcalls, fun _ => ⟨_, _, hasks⟩⟩, fun clip before h => ?_,
      fun hnone => absurd ⟨_, _, hasks⟩ hnone⟩
    obtain ⟨rfl, rfl⟩ := hasks.unique h
    exact ⟨hfound, ⟨printed, rfl⟩, fun probe failure after => h.fails⟩
  · have hnone : ¬ ∃ clip before, c.Asks request host clip before := fun ⟨_, _, hasks⟩ =>
      not_asks_of_constant hlast hasks
    exact ⟨⟨fun hasks => absurd hasks hnone, fun hcalls => absurd hcalls hsilent⟩,
      fun clip before hasks => absurd ⟨_, _, hasks⟩ hnone,
      fun _ probe other => (hlast probe).trans (hlast other).symm⟩

/-- A machine with one clip. -/
def clipHost : Host := { files := ⟨[(["a.mp4".toList], .file "" 0)]⟩ }

/-- The request to fade out the sound of the clip. -/
def fadeRequest : Request :=
  [(.text "operation", .text "custom"), (.text "filename", .text "/a.mp4"),
    (.text "fadeOut", .number (.int 3))]

theorem probe_discipline_fade :
    ∃ clip before, Asks ⟨{}, []⟩ fadeRequest clipHost clip before := by
  have hall : (readings fadeRequest .custom).all
      (fun reading => (reading.run ⟨{}, []⟩ fadeRequest clipHost).toBool) = true := by
    decide +kernel
  have hreadable : ∀ reading ∈ readings fadeRequest .custom,
      reading.run ⟨{}, []⟩ fadeRequest clipHost = .ok () := by
    intro reading hmem
    have hpasses := List.all_eq_true.1 hall reading hmem
    cases hrun : reading.run ⟨{}, []⟩ fadeRequest clipHost with
    | ok => rfl
    | error failure =>
        rw [hrun] at hpasses
        cases hpasses
  have hvalid : ValidEdit ⟨{}, []⟩ fadeRequest clipHost :=
    ⟨hreadable, by decide +kernel, by decide +kernel, by decide +kernel, by decide +kernel⟩
  exact (probe_discipline _ _ _).1.2 ⟨rfl, hvalid, .inr ⟨rfl, by decide +kernel⟩⟩

end Montage.Compiler
