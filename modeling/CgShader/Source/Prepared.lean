import CgShader.Config.Basic
import CgShader.Source.Comment
import CgShader.Source.Spacing

namespace CgShader.Source

/-- The source with the table's spellings and with `position` for the built-in position. -/
def replaceIdentifiers (table : Spelling) (position source : Text) : Text :=
  respell (spell table position) source

/-- The source, ready to be read. -/
def prepareWith (table : Spelling) (position source : Text) : Text :=
  normalize (strip (replaceIdentifiers table position source))

/-- The source, ready to be read, in the spellings of a configuration. -/
def prepare (config : Config) (source : Text) : Text :=
  prepareWith config.spelling config.positionOutput source

end CgShader.Source
