import CgShader.Text.Word

namespace CgShader.Text

/-- What stands in the text after `start`, if the text begins with it. -/
def after? : Text → Text → Option Text
  | [], s => some s
  | _ :: _, [] => none
  | c :: start, d :: s => if c = d then after? start s else none

def spaces (s : Text) : Text := s.takeWhile (· == ' ')

def dropSpaces (s : Text) : Text := s.dropWhile (· == ' ')

/-- The text to put in the place of some characters: the first one at hand and `extra` more. -/
structure Edit where
  replacement : Text
  extra : Nat

namespace Edit

/-- The edit that puts a text in the place of another, which is not empty. -/
def replacing (covered replacement : Text) : Edit := ⟨replacement, covered.length - 1⟩

end Edit

/-- The text with all edits made that a search finds. The search is given the character before a
place and the text after it. What an edit covers is not searched again. -/
def editAll (find : Option Char → Text → Option Edit) (before : Option Char) : Text → Text
  | [] => []
  | c :: rest =>
    match find before (c :: rest) with
    | none => c :: editAll find (some c) rest
    | some edit =>
      edit.replacement ++
        editAll find (c :: rest.take edit.extra).getLast? (rest.drop edit.extra)
termination_by s => s.length
decreasing_by
  · simp only [List.length_cons]
    omega
  · simp only [List.length_drop, List.length_cons]
    omega

end CgShader.Text
