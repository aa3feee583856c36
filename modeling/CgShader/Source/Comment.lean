import CgShader.Text.Basic

namespace CgShader.Source

/-- What follows the first `*/`; nothing if there is none. -/
def afterBlock : Text → Text
  | [] => []
  | '*' :: '/' :: rest => rest
  | _ :: rest => afterBlock rest

/-- What follows the first line feed; nothing if there is none. -/
def afterLine : Text → Text
  | [] => []
  | '\n' :: rest => rest
  | _ :: rest => afterLine rest

/-- Whether a string literal whose opening quote has just been read is closed on its line. A
backslash takes the next character of the line with it. -/
def closesOnLine : Text → Bool
  | [] => false
  | '"' :: _ => true
  | '\n' :: _ => false
  | '\\' :: '\n' :: _ => false
  | '\\' :: _ :: rest => closesOnLine rest
  | _ :: rest => closesOnLine rest

/-- A string literal after its opening quote: its characters through the closing quote, and what
follows. A backslash takes the next character with it. -/
def literal : Text → Text × Text
  | [] => ([], [])
  | '"' :: rest => (['"'], rest)
  | '\\' :: c :: rest => ('\\' :: c :: (literal rest).1, (literal rest).2)
  | c :: rest => (c :: (literal rest).1, (literal rest).2)

/-- A verbatim literal, inside or outside a pair of its quotes: its characters through the last
closing quote, and what follows. Two neighbouring quotes close it and open it again. -/
def verbatim : Bool → Text → Text × Text
  | true, [] => ([], [])
  | true, c :: rest =>
    (c :: (verbatim (c != '"') rest).1, (verbatim (c != '"') rest).2)
  | false, '"' :: rest => ('"' :: (verbatim true rest).1, (verbatim true rest).2)
  | false, rest => ([], rest)

theorem length_afterBlock_le (s : Text) : (afterBlock s).length ≤ s.length := by
  fun_induction afterBlock s <;> simp only [List.length_cons, List.length_nil] <;> omega

theorem length_afterLine_le (s : Text) : (afterLine s).length ≤ s.length := by
  fun_induction afterLine s <;> simp only [List.length_cons, List.length_nil] <;> omega

theorem literal_append (s : Text) : (literal s).1 ++ (literal s).2 = s := by
  fun_induction literal s <;> simp_all

theorem verbatim_append (inside : Bool) (s : Text) :
    (verbatim inside s).1 ++ (verbatim inside s).2 = s := by
  fun_induction verbatim inside s <;> simp_all

theorem length_literal_le (s : Text) : (literal s).2.length ≤ s.length := by
  have h := congrArg List.length (literal_append s)
  rw [List.length_append] at h
  omega

theorem length_verbatim_le (inside : Bool) (s : Text) :
    (verbatim inside s).2.length ≤ s.length := by
  have h := congrArg List.length (verbatim_append inside s)
  rw [List.length_append] at h
  omega

/-- The source without comments and directive lines. A quote that its line does not close is an
ordinary character, and `@` before a quote opens a verbatim literal. -/
def strip : Text → Text
  | [] => []
  | '/' :: '*' :: rest => strip (afterBlock rest)
  | '/' :: '/' :: rest => '\n' :: strip (afterLine rest)
  | '#' :: rest => strip (afterLine rest)
  | '"' :: rest =>
    if closesOnLine rest then '"' :: ((literal rest).1 ++ strip (literal rest).2)
    else '"' :: strip rest
  | '@' :: '"' :: rest => '@' :: '"' :: ((verbatim true rest).1 ++ strip (verbatim true rest).2)
  | c :: rest => c :: strip rest
termination_by s => s.length
decreasing_by
  · have := length_afterBlock_le rest
    simp only [List.length_cons]
    omega
  · have := length_afterLine_le rest
    simp only [List.length_cons]
    omega
  · have := length_afterLine_le rest
    simp only [List.length_cons]
    omega
  · have := length_literal_le rest
    simp only [List.length_cons]
    omega
  · simp only [List.length_cons]
    omega
  · have := length_verbatim_le true rest
    simp only [List.length_cons]
    omega
  · simp only [List.length_cons]
    omega

end CgShader.Source
