import Montage.Number

/-!
# Configuration

The settings that stay the same for all requests.
-/

namespace Montage

/-- Where the tools and the directories are, how long a tool may run, and
whether to be silent. -/
structure Config where
  engine : String := "ffmpeg"
  prober : String := "ffprobe"
  searchDirs : List String := ["uploads", "public/processed"]
  outputDir : String := "public/processed"
  timeout : Option Number := none
  quiet : Bool := false

end Montage
