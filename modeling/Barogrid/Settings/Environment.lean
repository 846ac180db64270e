import Barogrid.Decimal.Reader
import Barogrid.Settings
import Barogrid.Text.Blank

/-!
# Settings from environment variables

Each setting may be replaced by an environment variable.  A variable whose text cannot be read is
passed over.
-/

namespace Barogrid

/-- The environment: names and values, of equal names the first counting. -/
abbrev Environment := List (String × String)

namespace Environment

/-- The value of a variable, if it is set. -/
def value? (env : Environment) (name : String) : Option String := env.lookup name

/-- The value of a variable as `read` understands it without the blanks around it. -/
def read? {α : Type} (env : Environment) (read : String → Option α) (name : String) : Option α :=
  (env.value? name).bind fun s => read (Text.trim s)

end Environment

/-- The default settings, with what the environment replaces. -/
def Settings.ofEnvironment (env : Environment) : Settings :=
  let base : Settings := {}
  let stops? := (env.value? "GRADIENT_STOPS").bind fun s => (Color.parseList s).toOption
  { minPressure := (env.read? Decimal.readDouble? "PRESSURE_MIN").getD base.minPressure
    maxPressure := (env.read? Decimal.readDouble? "PRESSURE_MAX").getD base.maxPressure
    minLength := (env.read? Decimal.readWord? "MIN_HASH_LENGTH").getD base.minLength
    maxLength := (env.read? Decimal.readWord? "MAX_HASH_LENGTH").getD base.maxLength
    minZoom := (env.read? Decimal.readInt32? "MIN_ZOOM").getD base.minZoom
    maxZoom := (env.read? Decimal.readInt32? "MAX_ZOOM").getD base.maxZoom
    stops := stops?.getD base.stops
    passes := (env.read? Decimal.readWord? "INTERPOLATION_PASSES").getD base.passes
    opacity := (env.read? Decimal.readDouble? "FILL_OPACITY").getD base.opacity }

end Barogrid
