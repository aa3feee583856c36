import CgShader.Text.Basic

namespace CgShader.Source

/-- A line end, written `\r\n`, `\n` or `\r`, becomes a space and a tab becomes two. -/
def flatten : Text → Text
  | [] => []
  | '\r' :: '\n' :: rest => ' ' :: flatten rest
  | c :: rest =>
    if c = '\n' ∨ c = '\r' then ' ' :: flatten rest
    else if c = '\t' then ' ' :: ' ' :: flatten rest
    else c :: flatten rest

/-- Each run of spaces becomes one space. -/
def collapse : Text → Text
  | [] => []
  | c :: rest => if c = ' ' ∧ rest.head? = some ' ' then collapse rest else c :: collapse rest

/-- The source on one line, without two neighbouring spaces. -/
def normalize (s : Text) : Text := collapse (flatten s)

end CgShader.Source
