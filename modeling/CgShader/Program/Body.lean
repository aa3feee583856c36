import CgShader.Stage
import CgShader.Text.Edit
import CgShader.Text.White

namespace CgShader.Body

def colorName : Text := "gl_FragColor".toList

/-- The start of an assignment to the fragment color becomes the start of a return. -/
def colorWrite? (before : Option Char) (s : Text) : Option Text.Edit :=
  if Text.isBoundary before s.head? then
    match Text.after? colorName s with
    | none => none
    | some rest =>
      match Text.dropSpaces rest with
      | '=' :: right =>
        some (.replacing (colorName ++ Text.spaces rest ++ '=' :: Text.spaces right)
          "return ".toList)
      | _ => none
  else none

/-- A line ends after each semicolon; the spaces that follow it make way for an indent. -/
def breakLines : Text → Text
  | [] => []
  | ';' :: rest => ";\n\t".toList ++ breakLines (Text.dropSpaces rest)
  | c :: rest => c :: breakLines rest
termination_by s => s.length
decreasing_by
  · have := Text.length_dropWhile_le (· == ' ') rest
    simp only [Text.dropSpaces, List.length_cons]
    omega
  · simp only [List.length_cons]
    omega

/-- Whether a character belongs to the statement that it stands in and to its line. -/
def isOperandChar (c : Char) : Bool := c != ';' && c != '\n'

/-- A matrix, a star and the rest of the statement on the same line become a call. -/
def productOf? (name : Text) (before : Option Char) (s : Text) : Option Text.Edit :=
  match Text.after? name s with
  | none => none
  | some rest =>
    if Text.isBoundary (name.getLast?.or before) rest.head? then
      match Text.dropSpaces rest with
      | '*' :: right =>
        match (Text.dropSpaces right).dropWhile isOperandChar with
        | ';' :: _ =>
          let operand := (Text.dropSpaces right).takeWhile isOperandChar
          some (.replacing
            (name ++ Text.spaces rest ++ '*' :: Text.spaces right ++ operand ++ [';'])
            ("mul( ".toList ++ operand ++ ", ".toList ++ name ++ " );".toList))
        | _ => none
      | _ => none
    else none

/-- The product of the first of several matrices that stands here, at the edge of a word, with
something. -/
def product? (names : List Text) (before : Option Char) (s : Text) : Option Text.Edit :=
  if Text.isBoundary before s.head? then names.findSome? fun name => productOf? name before s
  else none

/-- The body in the generated program; a blank body is empty. -/
def format (stage : Stage) (matrices : List Text) (body : Text) : Text :=
  let statements := Text.trim body
  if statements.isEmpty then []
  else
    let returned :=
      match stage with
      | .vertex => statements
      | .fragment => Text.editAll colorWrite? none statements
    '\t' :: Text.trimEnd (Text.editAll (product? matrices) none (breakLines returned))

end CgShader.Body
