import SchemaTables.Options
import SchemaTables.Toml.Parser

/-!
Options as a configuration text.
-/

namespace SchemaTables

/-- Reads options from a text; what it does not mention keeps its default. -/
def Options.read (text : String) : Option Options := (Toml.parse text).bind ofJson?

end SchemaTables
