/-!
# Line ends

A stored text may end its lines in three ways.  Reading it turns all of them
into a single line feed.
-/

namespace Montage.Text

/-- Turn every carriage return, with or without a line feed after it, into a
line feed. -/
def unifyLineEnds : List Char → List Char
  | [] => []
  | '\r' :: '\n' :: rest => '\n' :: unifyLineEnds rest
  | '\r' :: rest => '\n' :: unifyLineEnds rest
  | c :: rest => c :: unifyLineEnds rest

end Montage.Text
