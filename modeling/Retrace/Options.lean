/-!
# Options

The settings an alignment runs with, and the severity that a configured level
gives to a diagnostic.
-/

namespace Retrace

/-- The level that is configured for a diagnostic. -/
inductive Level where
  | off
  | info
  | warn
  | error
deriving DecidableEq

/-- How grave a reported diagnostic is. -/
inductive Severity where
  | info
  | warning
  | error
deriving DecidableEq

namespace Level

/-- Every level. -/
def all : List Level := [.off, .info, .warn, .error]

/-- The name of a level in configurations. -/
def name : Level → String
  | .off => "off"
  | .info => "info"
  | .warn => "warn"
  | .error => "error"

/-- The severity of what is reported at a level; nothing is reported at `off`. -/
def severity? : Level → Option Severity
  | .off => none
  | .info => some .info
  | .warn => some .warning
  | .error => some .error

end Level

namespace Severity

/-- Every severity. -/
def all : List Severity := [.info, .warning, .error]

/-- The name of a severity in documents and messages. -/
def name : Severity → String
  | .info => "info"
  | .warning => "warning"
  | .error => "error"

end Severity

/-- The settings of an alignment. -/
structure Options where
  /-- Leaves of the same kind and text are anchored character by character. -/
  identityLeaves : Bool
  /-- A range takes in the parentheses around its node if both nodes have some. -/
  parentheses : Bool
  unsupportedPairing : Level
  ambiguousStructure : Level
deriving DecidableEq

/-- The settings where nothing is configured. -/
def Options.default : Options := ⟨true, true, .warn, .warn⟩

end Retrace
