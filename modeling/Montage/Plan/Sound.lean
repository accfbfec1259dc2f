import Montage.Plan.Basic

/-!
# Sound of the output

What becomes of the sound: it stays, it goes, or another track takes its place.
-/

namespace Montage

/-- What becomes of the sound. -/
inductive Sound
  | original
  | muted
  | replaced (clip : Clip) (loop temporary : Bool)
  /-- No way to treat the sound that any planner knows, as a message shows
  it. -/
  | unknown (shown : String)
  deriving Repr, DecidableEq

namespace Sound

/-- Whether the sound of the source is kept. -/
def isOriginal : Sound → Bool
  | original => true
  | _ => false

/-- Whether the output has no sound. -/
def isMuted : Sound → Bool
  | muted => true
  | _ => false

/-- Refuse what no planner knows. -/
def check : Sound → Except Failure Unit
  | unknown shown => .error (.field (some "audio") (.unknownAudio shown))
  | _ => .ok ()

end Sound

end Montage
