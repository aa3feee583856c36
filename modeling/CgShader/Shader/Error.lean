import CgShader.Text.Quoted
import CgShader.Token

namespace CgShader

/-- What can be wrong with one shader. Offsets count bytes of the text that was read. -/
inductive ShaderError where
  /-- A declaration or a precision statement ends in another token than a semicolon. -/
  | unterminated (found : Text) (offset : Nat)
  /-- A function has another token than the bracket that belongs there. -/
  | mismatched (expected : Char) (found : Text) (offset : Nat)
  | openParameters (offset : Nat)
  | openBlock (offset : Nat)
  | noEntryPoint
  /-- The matrices cannot be looked for all at once, for the reason given. -/
  | matrixNamesTooLong (names : List Text) (reason : Text)
deriving DecidableEq

namespace ShaderError

def message : ShaderError → Text
  | unterminated found offset =>
    "expected `;` after declaration at byte ".toList ++ Text.ofNat offset ++
      ", found `".toList ++ Token.describe found ++ "`".toList
  | mismatched expected found offset =>
    "expected `".toList ++ [expected] ++ "` at byte ".toList ++ Text.ofNat offset ++
      ", found `".toList ++ Token.describe found ++ "`".toList
  | openParameters offset =>
    "parameter list starting at byte ".toList ++ Text.ofNat offset ++
      " has no closing `)`".toList
  | openBlock offset =>
    "block starting at byte ".toList ++ Text.ofNat offset ++ " has no matching `\x7d`".toList
  | noEntryPoint => "shader has no `main` entry point".toList
  | matrixNamesTooLong names reason =>
    "cannot build matrix multiply rewrite for ".toList ++ Text.quotedList names ++
      ": ".toList ++ reason

end ShaderError

end CgShader
