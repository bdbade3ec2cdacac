/-!
This module contains the written form of a list of names.
-/

namespace RegLang

namespace Text

def braced (names : List String) : String := "\x7b" ++ ", ".intercalate names ++ "\x7d"

end Text

end RegLang
