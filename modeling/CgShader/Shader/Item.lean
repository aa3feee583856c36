import CgShader.Cursor
import CgShader.Shader.Basic

namespace CgShader

inductive Qualifier where
  | attr
  | uniform
  | varying
deriving DecidableEq

namespace Qualifier

def keyword : Qualifier → Text
  | attr => "attribute".toList
  | uniform => "uniform".toList
  | varying => "varying".toList

def ofKeyword? (word : Text) : Option Qualifier :=
  [attr, uniform, varying].find? (·.keyword == word)

end Qualifier

inductive Item where
  | declared (qualifier : Qualifier) (declaration : Declaration)
  /-- A precision statement, which says nothing about the shader. -/
  | precision
  | defined (function : Function)
deriving DecidableEq

namespace Item

def precisionKeyword : Text := "precision".toList

def terminator (cursor : Cursor) : Except ShaderError Cursor :=
  if cursor.token.1 = [';'] then .ok cursor.token.2
  else .error (.unterminated cursor.token.1 cursor.offset)

def declaration (cursor : Cursor) : Except ShaderError (Declaration × Cursor) := do
  let (type, afterType) := cursor.token
  let (name, afterName) := afterType.token
  let after ← terminator afterName
  return (⟨type, name⟩, after)

/-- Reads through the next semicolon. -/
def skipStatement (cursor : Cursor) : Except ShaderError Cursor :=
  if cursor.token.1 = [';'] then .ok cursor.token.2
  else if cursor.token.1 = [] then .error (.unterminated [] cursor.offset)
  else skipStatement cursor.token.2
termination_by cursor.rest.length
decreasing_by exact cursor.length_token_lt (by assumption)

/-- Reads a function after its return type. -/
def functionAfter (returnType : Text) (cursor : Cursor) :
    Except ShaderError (Function × Cursor) := do
  let (name, afterName) := cursor.token
  let (opened, afterOpen) := afterName.expect '('
  opened
  let (parameters, afterParameters) := afterOpen.parameters
  let parameters ← parameters
  let (blockOpened, afterBrace) := afterParameters.expect '{'
  blockOpened
  let (body, after) := afterBrace.block
  let body ← body
  return (⟨name, returnType, Text.trim parameters, body⟩, after)

/-- Reads the item whose first token has just been read. -/
def readAfter (first : Text) (cursor : Cursor) : Except ShaderError (Item × Cursor) :=
  match Qualifier.ofKeyword? first with
  | some qualifier =>
    (declaration cursor).map fun (read, after) => (.declared qualifier read, after)
  | none =>
    if first = precisionKeyword then (skipStatement cursor).map fun after => (.precision, after)
    else (functionAfter first cursor).map fun (read, after) => (.defined read, after)

theorem length_terminator_le {cursor after : Cursor} (h : terminator cursor = .ok after) :
    after.rest.length ≤ cursor.rest.length := by
  unfold terminator at h
  split at h
  · cases h
    exact cursor.length_token_le
  · cases h

theorem length_declaration_le {cursor after : Cursor} {read : Declaration}
    (h : declaration cursor = .ok (read, after)) :
    after.rest.length ≤ cursor.rest.length := by
  simp only [declaration, bind, Except.bind, pure, Except.pure] at h
  split at h
  · cases h
  · rename_i afterSemicolon hterminator
    cases h
    have hsemicolon := length_terminator_le hterminator
    have hname := cursor.token.2.length_token_le
    have htype := cursor.length_token_le
    omega

theorem length_skipStatement_le {cursor after : Cursor} (h : skipStatement cursor = .ok after) :
    after.rest.length ≤ cursor.rest.length := by
  fun_induction skipStatement cursor with
  | case1 cursor _ =>
    cases h
    exact cursor.length_token_le
  | case2 => cases h
  | case3 cursor _ _ ih =>
    have htoken := cursor.length_token_le
    have hrest := ih h
    omega

theorem length_functionAfter_le {returnType : Text} {cursor after : Cursor} {read : Function}
    (h : functionAfter returnType cursor = .ok (read, after)) :
    after.rest.length ≤ cursor.rest.length := by
  have hname := cursor.length_token_le
  have hopen := cursor.token.2.length_expect_le '('
  have hparameters := (cursor.token.2.expect '(').2.length_parameters_le
  have hbrace := (cursor.token.2.expect '(').2.parameters.2.length_expect_le '{'
  have hblock := ((cursor.token.2.expect '(').2.parameters.2.expect '{').2.length_block_le
  simp only [functionAfter, bind, Except.bind, pure, Except.pure] at h
  repeat' split at h
  all_goals cases h
  omega

theorem length_readAfter_le {first : Text} {cursor after : Cursor} {item : Item}
    (h : readAfter first cursor = .ok (item, after)) :
    after.rest.length ≤ cursor.rest.length := by
  unfold readAfter at h
  repeat' split at h
  · match hread : declaration cursor with
    | .error _ => simp [hread, Except.map] at h
    | .ok (read, _) =>
      simp only [hread, Except.map, Except.ok.injEq, Prod.mk.injEq] at h
      exact h.2 ▸ length_declaration_le hread
  · match hread : skipStatement cursor with
    | .error _ => simp [hread, Except.map] at h
    | .ok _ =>
      simp only [hread, Except.map, Except.ok.injEq, Prod.mk.injEq] at h
      exact h.2 ▸ length_skipStatement_le hread
  · match hread : functionAfter first cursor with
    | .error _ => simp [hread, Except.map] at h
    | .ok (read, _) =>
      simp only [hread, Except.map, Except.ok.injEq, Prod.mk.injEq] at h
      exact h.2 ▸ length_functionAfter_le hread

/-- Reads all items up to the end of the source. -/
def readAll (cursor : Cursor) : Except ShaderError (List Item) :=
  if cursor.token.1 = [] then .ok []
  else
    match _hread : readAfter cursor.token.1 cursor.token.2 with
    | .error error => .error error
    | .ok (item, after) => (readAll after).map (item :: ·)
termination_by cursor.rest.length
decreasing_by
  exact Nat.lt_of_le_of_lt (length_readAfter_le _hread) (cursor.length_token_lt (by assumption))

def declaration? (qualifier : Qualifier) : Item → Option Declaration
  | declared own declaration => if own = qualifier then some declaration else none
  | _ => none

def function? : Item → Option Function
  | defined function => some function
  | _ => none

end Item

namespace Shader

def ofItems (stage : Stage) (items : List Item) : Shader where
  stage := stage
  attributes := items.filterMap (Item.declaration? .attr)
  uniforms := items.filterMap (Item.declaration? .uniform)
  varyings := items.filterMap (Item.declaration? .varying)
  functions := items.filterMap Item.function?

/-- Reads a shader from a text as it is. -/
def read (stage : Stage) (text : Text) : Except ShaderError Shader :=
  (Item.readAll (Cursor.start text)).map (ofItems stage)

end Shader

end CgShader
