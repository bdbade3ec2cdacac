/-!
This module contains what can be wrong with a JSON text.
-/

namespace RegLang

namespace Json

/--
What is wrong with a JSON text, judged by the first problem met from left to right.
-/
inductive Problem where
  | malformed
  | truncated
  /-- The text is JSON so far, but not of the value that is wanted. -/
  | mismatched
  deriving Repr, DecidableEq

end Json

end RegLang
