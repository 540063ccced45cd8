import Mathlib

/-!
# The environment

What `std::env::var` finds under a name, with a value that is not Unicode counted as unset,
and the booleans that Go's `strconv.ParseBool` reads.
-/

namespace PaycloudHelper

abbrev Environment := String → Option String

def parseBoolGo (value : String) : Option Bool :=
  if value ∈ ["1", "t", "T", "TRUE", "true", "True"] then some true
  else if value ∈ ["0", "f", "F", "FALSE", "false", "False"] then some false
  else none

end PaycloudHelper
