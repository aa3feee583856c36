import CgShader.Text.Basic

namespace CgShader

inductive Stage where
  | vertex
  | fragment
deriving DecidableEq

namespace Stage

def name : Stage → Text
  | vertex => "vertex".toList
  | fragment => "fragment".toList

def outputExtension : Stage → Text
  | vertex => "cgvp".toList
  | fragment => "cgfp".toList

def ofExtension? (extension : Text) : Option Stage :=
  if extension = "vp".toList then some vertex
  else if extension = "fp".toList then some fragment
  else none

end Stage

end CgShader
