import Mathlib
import Montage.Plan.Command

/-!
# Reading a command back

The command of a plan is read from left to right, as the engine reads it: a word is an option,
or the argument of the option before it.  Whether a word is an argument is decided by its place
alone, so that a path that looks like an option is still a path.  The state of the reading is
the loop count that waits for its input (`Reading.loop`); between two inputs of a plan none
waits, and that is what carries the induction over the inputs (`read_inputs`).
-/

namespace Montage

/-- What a command asks of the engine. -/
structure Orders where
  /-- The path of each input, with its loop count. -/
  inputs : List (String × Option Int) := []
  graph : Option String := none
  maps : List String := []
  noAudio : Bool := false
  videoCodec : Option String := none
  audioCodec : Option String := none
  duration : Option String := none
  shortest : Bool := false
  muxer : Option String := none
  deriving Repr, DecidableEq

namespace Orders

/-- The argument of an option that is given at most once. -/
def once? (before : Option String) (argument : String) : Option (Option String) :=
  if before.isSome then none else some (some argument)

/-- The orders after an option of the output with its argument. -/
def set? (orders : Orders) (option argument : String) : Option Orders :=
  match option with
  | "-filter_complex" => (once? orders.graph argument).map fun graph => { orders with graph }
  | "-map" => some { orders with maps := orders.maps ++ [argument] }
  | "-c:v" => (once? orders.videoCodec argument).map fun videoCodec => { orders with videoCodec }
  | "-c:a" => (once? orders.audioCodec argument).map fun audioCodec => { orders with audioCodec }
  | "-t" => (once? orders.duration argument).map fun duration => { orders with duration }
  | "-f" => (once? orders.muxer argument).map fun muxer => { orders with muxer }
  | _ => none

/-- The orders after an option without an argument. -/
def switch? (orders : Orders) (option : String) : Option Orders :=
  match option with
  | "-an" => some { orders with noAudio := true }
  | "-shortest" => some { orders with shortest := true }
  | _ => none

end Orders

/-- How far a command has been read. -/
structure Reading where
  orders : Orders := {}
  /-- The loop count that waits for its input. -/
  loop : Option Int := none

namespace Reading

/-- The reading after an option without an argument.  None may come before an input that a loop
count waits for. -/
def switch? : Reading → String → Option Reading
  | ⟨orders, none⟩, option => (orders.switch? option).map (⟨·, none⟩)
  | ⟨_, some _⟩, _ => none

/-- The reading after an option with its argument.  Only an input may follow a loop count. -/
def take? : Reading → String → String → Option Reading
  | ⟨orders, loop⟩, "-i", path =>
    some ⟨{ orders with inputs := orders.inputs ++ [(path, loop)] }, none⟩
  | ⟨orders, none⟩, "-stream_loop", count => count.toInt?.map fun n => ⟨orders, some n⟩
  | ⟨orders, none⟩, option, argument => (orders.set? option argument).map (⟨·, none⟩)
  | ⟨_, some _⟩, _, _ => none

/-- Read words up to their end, unless they get stuck. -/
def read : Reading → List String → Option Orders
  | ⟨orders, loop⟩, [] => if loop.isSome then none else some orders
  | state, option :: rest =>
    match state.switch? option with
    | some state => read state rest
    | none =>
      match rest with
      | [] => none
      | argument :: rest =>
        match state.take? option argument with
        | some state => read state rest
        | none => none

/-- An option without an argument is read, and what follows it afterwards. -/
theorem read_switch {state next : Reading} {option : String} (h : state.switch? option = some next)
    (rest : List String) : state.read (option :: rest) = next.read rest := by
  rw [read.eq_def]
  simp only [h]

/-- An option is read with its argument, whatever the argument looks like. -/
theorem read_take {state next : Reading} {option argument : String}
    (hswitch : state.switch? option = none) (h : state.take? option argument = some next)
    (rest : List String) : state.read (option :: argument :: rest) = next.read rest := by
  rw [read.eq_def]
  simp only [hswitch, h]

/-- A path may look like an option. -/
example : read {} ["-i", "-an", "-an"] = some { inputs := [("-an", none)], noAudio := true } := rfl

/-- An optional argument is read if it is there; `orders` says what is known with it and
without. -/
theorem read_optionArguments {option : String} (orders : Option String → Orders)
    (hswitch : ∀ o, switch? ⟨o, none⟩ option = none)
    (h : ∀ argument, take? ⟨orders none, none⟩ option argument =
      some ⟨orders (some argument), none⟩) (argument : Option String) (rest : List String) :
    read ⟨orders none, none⟩ (optionArguments option argument ++ rest) =
      read ⟨orders argument, none⟩ rest := by
  cases argument with
  | none => rfl
  | some argument => exact read_take (hswitch _) (h argument) rest

/-- A switch is read if it is there. -/
theorem read_if {option : String} (orders : Bool → Orders)
    (h : switch? ⟨orders false, none⟩ option = some ⟨orders true, none⟩) (on : Bool)
    (rest : List String) :
    read ⟨orders false, none⟩ ((if on then [option] else []) ++ rest) =
      read ⟨orders on, none⟩ rest := by
  cases on with
  | false => rfl
  | true => exact read_switch h rest

/-- An input is read with its own loop count, and no loop count is left over. -/
theorem read_input (orders : Orders) (input : Input) (rest : List String) :
    read ⟨orders, none⟩ (input.arguments ++ rest) =
      read ⟨{ orders with inputs := orders.inputs ++ [(input.clip.path, input.loop)] }, none⟩
        rest := by
  cases hloop : input.loop with
  | none =>
      simp only [Input.arguments, hloop, List.nil_append, List.cons_append]
      exact read_take rfl rfl rest
  | some n =>
      have hcount : take? ⟨orders, none⟩ "-stream_loop" (toString n) = some ⟨orders, some n⟩ := by
        change (n.repr.toInt?.map fun n => (⟨orders, some n⟩ : Reading)) = _
        rw [Int.toInt?_repr]
        rfl
      simp only [Input.arguments, hloop, List.nil_append, List.cons_append]
      rw [read_take rfl hcount]
      exact read_take rfl rfl rest

/-- The inputs are read in order. -/
theorem read_inputs (inputs : List Input) (orders : Orders) (rest : List String) :
    read ⟨orders, none⟩ (inputs.flatMap Input.arguments ++ rest) =
      read ⟨{ orders with
        inputs := orders.inputs ++ inputs.map fun input => (input.clip.path, input.loop) }, none⟩
        rest := by
  induction inputs generalizing orders with
  | nil => simp
  | cons input inputs ih =>
      rw [List.flatMap_cons, List.append_assoc, read_input, ih]
      simp only [List.map_cons, List.append_assoc, List.singleton_append]

/-- The maps are read in order. -/
theorem read_maps (maps : List StreamMap) (orders : Orders) (rest : List String) :
    read ⟨orders, none⟩ (maps.flatMap (fun m => ["-map", m.render]) ++ rest) =
      read ⟨{ orders with maps := orders.maps ++ maps.map StreamMap.render }, none⟩ rest := by
  induction maps generalizing orders with
  | nil => simp
  | cons m maps ih =>
      have hmap : take? ⟨orders, none⟩ "-map" m.render =
          some ⟨{ orders with maps := orders.maps ++ [m.render] }, none⟩ := rfl
      rw [List.flatMap_cons, List.append_assoc, List.cons_append, List.singleton_append,
        read_take rfl hmap, ih]
      simp only [List.map_cons, List.append_assoc, List.singleton_append]

end Reading

/-- The words at the head of every command, behind the program. -/
def headArguments (progress : Bool) : List String :=
  ["-y", "-hide_banner"] ++ if progress then progressArguments else []

/-- What is read of a command. -/
structure CommandRead where
  program : String
  orders : Orders
  target : String
  deriving Repr, DecidableEq

/-- Read a command: its last word is the target, its first is the program, and the head follows
the program. -/
def CommandRead.ofWords? (progress : Bool) (command : List String) : Option CommandRead := do
  let target ← command.getLast?
  let program ← command.head?
  let words ← (command.dropLast.drop 1).dropPrefix? (headArguments progress)
  let orders ← Reading.read {} words
  return ⟨program, orders, target⟩

section

variable {α : Type} [Arithmetic α]

/-- What a plan asks of the engine. -/
def Plan.orders (plan : Plan α) : Orders where
  inputs := plan.inputs.map fun input => (input.clip.path, input.loop)
  graph := plan.graph.map Graph.render
  maps := plan.maps.map StreamMap.render
  noAudio := plan.options.noAudio
  videoCodec := plan.options.videoCodec
  audioCodec := plan.options.audioCodec
  duration := plan.options.duration.map Arithmetic.text
  shortest := plan.options.shortest
  muxer := plan.options.format.map muxerName

/-- The options of the output are read in the order in which they are written. -/
theorem Reading.read_options (options : OutputOptions α) (inputs : List (String × Option Int))
    (graph : Option String) (maps : List String) :
    read ⟨{ inputs, graph, maps }, none⟩ options.arguments = some {
      inputs, graph, maps
      noAudio := options.noAudio
      videoCodec := options.videoCodec
      audioCodec := options.audioCodec
      duration := options.duration.map Arithmetic.text
      shortest := options.shortest
      muxer := options.format.map muxerName } := by
  rw [OutputOptions.arguments, ← List.append_nil (optionArguments "-f" _)]
  simp only [List.append_assoc]
  -- One option after another, each with what is known before it.
  rw [read_if (fun noAudio => { inputs, graph, maps, noAudio }) rfl,
    read_optionArguments (fun videoCodec => { inputs, graph, maps, noAudio := _, videoCodec })
      (fun _ => rfl) (fun _ => rfl),
    read_optionArguments
      (fun audioCodec => { inputs, graph, maps, noAudio := _, videoCodec := _, audioCodec })
      (fun _ => rfl) (fun _ => rfl),
    read_optionArguments (fun duration =>
        { inputs, graph, maps, noAudio := _, videoCodec := _, audioCodec := _, duration })
      (fun _ => rfl) (fun _ => rfl),
    read_if (fun shortest =>
        { inputs, graph, maps, noAudio := _, videoCodec := _, audioCodec := _, duration := _,
          shortest }) rfl,
    read_optionArguments (fun muxer =>
        { inputs, graph, maps, noAudio := _, videoCodec := _, audioCodec := _, duration := _,
          shortest := _, muxer }) (fun _ => rfl) (fun _ => rfl)]
  rfl

/-- The words between the head and the target are read to their end. -/
theorem Reading.read_plan (plan : Plan α) :
    read {} (plan.inputs.flatMap Input.arguments ++
      optionArguments "-filter_complex" (plan.graph.map Graph.render) ++
      plan.maps.flatMap (fun m => ["-map", m.render]) ++ plan.options.arguments) =
        some plan.orders := by
  simp only [List.append_assoc]
  rw [read_inputs, read_optionArguments (fun graph => { inputs := _, graph }) (fun _ => rfl)
    (fun _ => rfl), read_maps]
  exact read_options plan.options _ _ _

/-- **A command says what its plan asks for, and nothing else.**  It is read to its end, and what
is read is the program, each input with its own loop count, the graph, the maps, the options of
the output and the target, whatever the paths, the codecs and the labels look like. -/
theorem Plan.ofWords_command (plan : Plan α) (program : String) (progress : Bool) :
    CommandRead.ofWords? progress (plan.command program progress) =
      some ⟨program, plan.orders, plan.target⟩ := by
  have hcommand : plan.command program progress =
      (program :: (headArguments progress ++ (plan.inputs.flatMap Input.arguments ++
        optionArguments "-filter_complex" (plan.graph.map Graph.render) ++
        plan.maps.flatMap (fun m => ["-map", m.render]) ++ plan.options.arguments))) ++
        [plan.target] := by
    simp only [command, headArguments, List.append_assoc, List.cons_append, List.nil_append]
  rw [CommandRead.ofWords?, hcommand, List.getLast?_concat, List.dropLast_concat]
  simp only [List.cons_append, List.head?_cons, List.drop_succ_cons, List.drop_zero,
    List.dropPrefix?_append_of_beq _ (BEq.refl _), Reading.read_plan, Option.bind_some,
    bind, pure]

end

end Montage
