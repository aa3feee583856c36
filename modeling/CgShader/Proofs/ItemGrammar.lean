import CgShader.Proofs.BalancedBlocks
import CgShader.Proofs.TokenReading
import CgShader.Shader.Item

namespace CgShader.Proofs.ItemGrammar

open CgShader.Text
open CgShader.Item
open CgShader.Proofs.TextRuns
open CgShader.Proofs.WhiteSpace
open CgShader.Proofs.BalancedBlocks
open CgShader.Proofs.TokenReading

/-- White space that keeps two words apart: it begins with a space. -/
def Gap (s : Text) : Prop := ' ' ∈ s.head? ∧ Blank s

instance (s : Text) : Decidable (Gap s) := inferInstanceAs (Decidable (_ ∧ _))

/-- What can stand between a word and a mark behind it: nothing or a gap. -/
def Slack (s : Text) : Prop := s = [] ∨ Gap s

instance (s : Text) : Decidable (Slack s) := inferInstanceAs (Decidable (_ ∨ _))

theorem Slack.blank {s : Text} (hs : Slack s) : Blank s := by
  rcases hs with rfl | hgap
  · exact blank_nil
  · exact hgap.2

theorem Gap.endsWord {s : Text} (hs : Gap s) (rest : Text) : EndsWord (s ++ rest) := by
  rcases s with _ | ⟨c, s⟩
  · simp [Gap] at hs
  · obtain rfl : c = ' ' := by simpa using hs.1
    intro d hd
    obtain rfl : ' ' = d := by simpa using hd
    decide

theorem Slack.endsWord {s : Text} (hs : Slack s) {c : Char} (hmark : IsMark c) (rest : Text) :
    EndsWord (s ++ ([c] ++ rest)) := by
  rcases hs with rfl | hgap
  · intro d hd
    obtain rfl : c = d := by simpa using hd
    exact hmark.delimiter
  · exact hgap.endsWord _

theorem isMark_semicolon : IsMark ';' := by decide

theorem isMark_parenthesis : IsMark '(' := by decide

theorem isMark_brace : IsMark '{' := by decide

structure WellFormedDeclaration (declaration : Declaration) : Prop where
  type : IsToken declaration.type
  name : IsToken declaration.name

/-- A function whose parts can be told apart again: its return type opens no other item, its
parameters are trimmed and hold no `)`, and its body is balanced. -/
structure WellFormedFunction (function : Function) : Prop where
  returnType : IsToken function.returnType
  unqualified : ∀ qualifier : Qualifier, function.returnType ≠ qualifier.keyword
  notPrecision : function.returnType ≠ precisionKeyword
  name : IsToken function.name
  trimmed : trim function.parameters = function.parameters
  unclosed : ')' ∉ function.parameters
  balanced : IsBalanced '{' '}' function.body

/-- The texts that an item can be written as. A gap stands between two words, slack between a word
and a mark, and any white space where no word can run on. -/
inductive Written : Item → Text → Prop
  | declared (qualifier : Qualifier) {declaration : Declaration} {gap gap' slack : Text}
      (hdeclaration : WellFormedDeclaration declaration) (hgap : Gap gap) (hgap' : Gap gap')
      (hslack : Slack slack) :
      Written (.declared qualifier declaration)
        (qualifier.keyword ++ gap ++ declaration.type ++ gap' ++ declaration.name ++ slack ++ [';'])
  | precision {words : List (Text × Text)} {slack : Text}
      (hwords : ∀ word ∈ words, Gap word.1 ∧ IsToken word.2 ∧ word.2 ≠ [';'])
      (hslack : Slack slack) :
      Written .precision
        (precisionKeyword ++ words.flatMap (fun word => word.1 ++ word.2) ++ slack ++ [';'])
  | defined {function : Function} {gap slack lead trail between : Text}
      (hfunction : WellFormedFunction function) (hgap : Gap gap) (hslack : Slack slack)
      (hlead : Blank lead) (htrail : Blank trail) (hbetween : Blank between) :
      Written (.defined function)
        (function.returnType ++ gap ++ function.name ++ slack ++ ['('] ++
          (lead ++ function.parameters ++ trail) ++ [')'] ++ between ++ ['{'] ++
          function.body ++ ['}'])

/-- The texts that a list of items can be written as, with any white space around the items. -/
inductive WrittenAll : List Item → Text → Prop
  | nil {blank : Text} (hblank : Blank blank) : WrittenAll [] blank
  | cons {item : Item} {items : List Item} {lead text rest : Text} (hlead : Blank lead)
      (hitem : Written item text) (hitems : WrittenAll items rest) :
      WrittenAll (item :: items) (lead ++ text ++ rest)

theorem WrittenAll.blank_append {items : List Item} {lead text : Text} (hlead : Blank lead)
    (hitems : WrittenAll items text) : WrittenAll items (lead ++ text) := by
  cases hitems with
  | nil hblank => exact .nil ((blank_append_iff ..).mpr ⟨hlead, hblank⟩)
  | cons hlead' hitem hitems =>
      rw [← List.append_assoc, ← List.append_assoc]
      exact .cons ((blank_append_iff ..).mpr ⟨hlead, hlead'⟩) hitem hitems

theorem writtenAll_map_append {α : Type} {item : α → Item} {text : α → Text} {parts : List α}
    (hparts : ∀ part ∈ parts, ∀ items rest, WrittenAll items rest →
      WrittenAll (item part :: items) (text part ++ rest))
    {items : List Item} {rest : Text} (hrest : WrittenAll items rest) :
    WrittenAll (parts.map item ++ items) (parts.flatMap text ++ rest) := by
  induction parts with
  | nil => exact hrest
  | cons part parts ih =>
      rw [List.flatMap_cons, List.append_assoc]
      apply hparts part (by simp)
      apply ih
      intro other hother
      exact hparts other (by simp [hother])

theorem isWord_keyword (qualifier : Qualifier) : IsWord qualifier.keyword := by
  cases qualifier <;> decide

theorem isWord_precisionKeyword : IsWord precisionKeyword := by decide

theorem ofKeyword?_keyword (qualifier : Qualifier) :
    Qualifier.ofKeyword? qualifier.keyword = some qualifier := by
  cases qualifier <;> decide

theorem ofKeyword?_eq_none_iff (word : Text) :
    Qualifier.ofKeyword? word = none ↔ ∀ qualifier : Qualifier, word ≠ qualifier.keyword := by
  constructor
  · rintro h qualifier rfl
    rw [ofKeyword?_keyword] at h
    cases h
  · intro h
    simp only [Qualifier.ofKeyword?, List.find?_eq_none, beq_iff_eq]
    intro qualifier _ heq
    exact h qualifier heq.symm

theorem terminator_append (offset : Nat) {slack : Text} (hslack : Slack slack) (rest : Text) :
    terminator ⟨offset, slack ++ ([';'] ++ rest)⟩ =
      .ok ⟨offset + (size slack + size [';']), rest⟩ := by
  rw [terminator, token_append_mark offset rest hslack.blank isMark_semicolon]
  rfl

theorem declaration_append (offset : Nat) {read : Declaration} {gap gap' slack : Text}
    (hread : WellFormedDeclaration read) (hgap : Gap gap) (hgap' : Gap gap')
    (hslack : Slack slack) (rest : Text) :
    declaration ⟨offset, gap ++ read.type ++ gap' ++ read.name ++ slack ++ [';'] ++ rest⟩ =
      .ok (read, ⟨offset + size (gap ++ read.type ++ gap' ++ read.name ++ slack ++ [';']),
        rest⟩) := by
  simp only [List.append_assoc, size_append]
  have htype := token_append_token offset (gap' ++ (read.name ++ (slack ++ ([';'] ++ rest))))
    hgap.2 hread.type (fun _ => hgap'.endsWord _)
  have hname := token_append_token (offset + (size gap + size read.type))
    (slack ++ ([';'] ++ rest)) hgap'.2 hread.name
    (fun _ => hslack.endsWord isMark_semicolon rest)
  simp only [declaration, htype, hname, terminator_append _ hslack, bind, Except.bind, pure,
    Except.pure, Nat.add_assoc]

theorem endsWord_words {words : List (Text × Text)} {slack : Text}
    (hwords : ∀ word ∈ words, Gap word.1 ∧ IsToken word.2 ∧ word.2 ≠ [';'])
    (hslack : Slack slack) (rest : Text) :
    EndsWord (words.flatMap (fun word => word.1 ++ word.2) ++ (slack ++ ([';'] ++ rest))) := by
  rcases words with _ | ⟨word, words⟩
  · exact hslack.endsWord isMark_semicolon rest
  · simp only [List.flatMap_cons, List.append_assoc]
    exact (hwords word (by simp)).1.endsWord _

theorem skipStatement_append (offset : Nat) {words : List (Text × Text)} {slack : Text}
    (hwords : ∀ word ∈ words, Gap word.1 ∧ IsToken word.2 ∧ word.2 ≠ [';'])
    (hslack : Slack slack) (rest : Text) :
    skipStatement ⟨offset, words.flatMap (fun word => word.1 ++ word.2) ++ slack ++ [';'] ++ rest⟩ =
      .ok ⟨offset + size (words.flatMap (fun word => word.1 ++ word.2) ++ slack ++ [';']),
        rest⟩ := by
  simp only [List.append_assoc, size_append]
  induction words generalizing offset with
  | nil =>
      have htoken := token_append_mark offset rest hslack.blank isMark_semicolon
      rw [skipStatement]
      simp only [List.flatMap_nil, List.nil_append, htoken, if_true, size_nil, Nat.zero_add]
  | cons word words ih =>
      obtain ⟨hgap, hword, hne⟩ := hwords word (by simp)
      have hrest : ∀ next ∈ words, Gap next.1 ∧ IsToken next.2 ∧ next.2 ≠ [';'] := by
        intro next hnext
        exact hwords next (by simp [hnext])
      have htoken := token_append_token offset _ hgap.2 hword
        (fun _ => endsWord_words hrest hslack rest)
      rw [skipStatement]
      simp only [List.flatMap_cons, List.append_assoc, htoken, if_neg hne, if_neg hword.ne_nil,
        ih _ hrest, size_append, Nat.add_assoc]

theorem expect_append (offset : Nat) {lead : Text} {c : Char} (hlead : Blank lead)
    (hmark : IsMark c) (rest : Text) :
    Cursor.expect c ⟨offset, lead ++ ([c] ++ rest)⟩ =
      (.ok (), ⟨offset + (size lead + size [c]), rest⟩) := by
  simp only [Cursor.expect, token_append_mark offset rest hlead hmark, if_true]

theorem parameters_append (offset : Nat) {inside : Text} (hinside : ')' ∉ inside)
    (rest : Text) :
    Cursor.parameters ⟨offset, inside ++ ([')'] ++ rest)⟩ =
      (.ok (trimStart inside), ⟨offset + (size inside + size [')']), rest⟩) := by
  have hhead : ∀ c ∈ (trimStart inside ++ ')' :: rest).head?, isWhite c = false := by
    intro c hc
    rcases hcore : trimStart inside with _ | ⟨d, core⟩
    · obtain rfl : ')' = c := by simpa [hcore] using hc
      decide
    · apply not_white_head_trimStart inside
      simpa [hcore] using hc
  have hinsideSplit : inside ++ ([')'] ++ rest) =
      inside.takeWhile isWhite ++ (trimStart inside ++ ')' :: rest) := by
    rw [← List.append_assoc (inside.takeWhile isWhite), takeWhile_append_trimStart]
    rfl
  have hsplit : Bracket.splitParameters? (trimStart inside ++ ')' :: rest) =
      some (trimStart inside, rest) := by
    rw [splitParameters?_eq_some_iff]
    refine ⟨rfl, ?_⟩
    intro hmem
    exact hinside ((List.dropWhile_suffix isWhite).subset hmem)
  have hsize : size inside = size (inside.takeWhile isWhite) + size (trimStart inside) := by
    rw [← size_append, takeWhile_append_trimStart]
  simp only [Cursor.parameters, Cursor.skipWhite, Cursor.moveBehind, hinsideSplit,
    takeWhile_run (blank_takeWhile inside) hhead,
    trimStart_append (blank_takeWhile inside) hhead, hsplit, size_append, hsize, Nat.add_assoc]

theorem block_append (offset : Nat) {body : Text} (hbody : IsBalanced '{' '}' body)
    (rest : Text) :
    Cursor.block ⟨offset, body ++ (['}'] ++ rest)⟩ =
      (.ok body, ⟨offset + (size body + size ['}']), rest⟩) := by
  have hsplit : Bracket.splitBlock? 0 (body ++ (['}'] ++ rest)) = some (body, rest) := by
    rw [splitBlock?_eq_some_iff]
    exact ⟨rfl, hbody⟩
  simp only [Cursor.block, Cursor.moveBehind, hsplit, size_append]

theorem functionAfter_append (offset : Nat) {read : Function}
    {gap slack lead trail between : Text} (hread : WellFormedFunction read) (hgap : Gap gap)
    (hslack : Slack slack) (hlead : Blank lead) (htrail : Blank trail)
    (hbetween : Blank between) (rest : Text) :
    functionAfter read.returnType ⟨offset, gap ++ read.name ++ slack ++ ['('] ++
        (lead ++ read.parameters ++ trail) ++ [')'] ++ between ++ ['{'] ++ read.body ++ ['}'] ++
        rest⟩ =
      .ok (read, ⟨offset + size (gap ++ read.name ++ slack ++ ['('] ++
        (lead ++ read.parameters ++ trail) ++ [')'] ++ between ++ ['{'] ++ read.body ++ ['}']),
        rest⟩) := by
  have hinside : ')' ∉ lead ++ read.parameters ++ trail := by
    have hclosing : isWhite ')' ≠ true := by decide
    simp only [List.mem_append, not_or]
    exact ⟨⟨fun h => hclosing (hlead _ h), hread.unclosed⟩, fun h => hclosing (htrail _ h)⟩
  have htrimmed : trim (trimStart (lead ++ read.parameters ++ trail)) = read.parameters := by
    rw [trim_trimStart, trim_append_append hlead htrail, hread.trimmed]
  generalize lead ++ read.parameters ++ trail = inside at hinside htrimmed ⊢
  simp only [List.append_assoc, size_append]
  have hname := token_append_token offset (slack ++ (['('] ++ (inside ++ ([')'] ++ (between ++
    (['{'] ++ (read.body ++ (['}'] ++ rest)))))))) hgap.2 hread.name
    (fun _ => hslack.endsWord isMark_parenthesis _)
  simp only [functionAfter, hname, expect_append _ hslack.blank isMark_parenthesis,
    parameters_append _ hinside, expect_append _ hbetween isMark_brace,
    block_append _ hread.balanced, htrimmed, bind, Except.bind, pure, Except.pure, Nat.add_assoc]

theorem readAll_of_blank (offset : Nat) {s : Text} (hs : Blank s) :
    readAll ⟨offset, s⟩ = .ok [] := by
  rw [readAll, if_pos (token_of_blank offset hs)]

theorem readAll_of_readAfter_eq_ok {cursor after : Cursor} {item : Item}
    (htoken : cursor.token.1 ≠ [])
    (hread : readAfter cursor.token.1 cursor.token.2 = .ok (item, after)) :
    readAll cursor = (readAll after).map (item :: ·) := by
  rw [readAll, if_neg htoken]
  split
  · rename_i error herror
    rw [hread] at herror
    cases herror
  · rename_i item' after' hok
    rw [hread] at hok
    cases hok
    rfl

theorem readAll_of_readAfter_eq_error {cursor : Cursor} {error : ShaderError}
    (htoken : cursor.token.1 ≠ [])
    (hread : readAfter cursor.token.1 cursor.token.2 = .error error) :
    readAll cursor = .error error := by
  rw [readAll, if_neg htoken]
  split
  · rename_i error' herror
    rw [hread] at herror
    cases herror
    rfl
  · rename_i item after hok
    rw [hread] at hok
    cases hok

theorem readAll_append_token (offset : Nat) {lead first tail : Text} {item : Item}
    {after : Cursor} (hlead : Blank lead) (hfirst : IsToken first)
    (htail : IsWord first → EndsWord tail)
    (hread : readAfter first ⟨offset + (size lead + size first), tail⟩ = .ok (item, after)) :
    readAll ⟨offset, lead ++ (first ++ tail)⟩ = (readAll after).map (item :: ·) := by
  have htoken := token_append_token offset tail hlead hfirst htail
  apply readAll_of_readAfter_eq_ok
  · rw [htoken]
    exact hfirst.ne_nil
  · rw [htoken]
    exact hread

theorem readAll_append_written (offset : Nat) {item : Item} {lead text : Text}
    (hlead : Blank lead) (hitem : Written item text) (rest : Text) :
    readAll ⟨offset, lead ++ text ++ rest⟩ =
      (readAll ⟨offset + size (lead ++ text), rest⟩).map (item :: ·) := by
  cases hitem with
  | declared qualifier hdeclaration hgap hgap' hslack =>
      have hread := declaration_append (offset + (size lead + size qualifier.keyword))
        hdeclaration hgap hgap' hslack rest
      simp only [List.append_assoc, size_append, Nat.add_assoc] at hread ⊢
      apply readAll_append_token offset hlead (.word (isWord_keyword qualifier))
        (fun _ => hgap.endsWord _)
      rw [readAfter, ofKeyword?_keyword, hread]
      rfl
  | @precision words slack hwords hslack =>
      have hread := skipStatement_append (offset + (size lead + size precisionKeyword))
        hwords hslack rest
      simp only [List.append_assoc, size_append, Nat.add_assoc] at hread ⊢
      apply readAll_append_token offset hlead (.word isWord_precisionKeyword)
        (fun _ => endsWord_words hwords hslack rest)
      have hunqualified : ∀ qualifier : Qualifier, precisionKeyword ≠ qualifier.keyword := by
        intro qualifier
        cases qualifier <;> decide
      rw [readAfter, (ofKeyword?_eq_none_iff _).mpr hunqualified, if_pos rfl, hread]
      rfl
  | @defined function gap slack lead' trail between hfunction hgap hslack hlead' htrail hbetween =>
      have hread := functionAfter_append (offset + (size lead + size function.returnType))
        hfunction hgap hslack hlead' htrail hbetween rest
      simp only [List.append_assoc, size_append, Nat.add_assoc] at hread ⊢
      apply readAll_append_token offset hlead hfunction.returnType (fun _ => hgap.endsWord _)
      rw [readAfter, (ofKeyword?_eq_none_iff _).mpr hfunction.unqualified,
        if_neg hfunction.notPrecision, hread]
      rfl

theorem readAll_of_writtenAll (offset : Nat) {items : List Item} {text : Text}
    (hitems : WrittenAll items text) : readAll ⟨offset, text⟩ = .ok items := by
  induction hitems generalizing offset with
  | nil hblank => exact readAll_of_blank offset hblank
  | cons hlead hitem _ ih =>
      rw [readAll_append_written offset hlead hitem, ih]
      rfl

/-- A source that is written by the grammar is read as its items: each list of the shader holds
what the items of its kind say, in the order of the source. -/
theorem read_of_writtenAll (stage : Stage) {items : List Item} {text : Text}
    (hitems : WrittenAll items text) :
    Shader.read stage text = .ok {
      stage := stage
      attributes := items.filterMap fun
        | .declared .attr declaration => some declaration
        | _ => none
      uniforms := items.filterMap fun
        | .declared .uniform declaration => some declaration
        | _ => none
      varyings := items.filterMap fun
        | .declared .varying declaration => some declaration
        | _ => none
      functions := items.filterMap fun
        | .defined function => some function
        | _ => none } := by
  rw [Shader.read, Cursor.start, readAll_of_writtenAll 0 hitems]
  simp only [Except.map, Shader.ofItems, Except.ok.injEq, Shader.mk.injEq, true_and]
  refine ⟨?_, ?_, ?_, ?_⟩ <;>
  · apply List.filterMap_congr
    rintro (⟨_ | _ | _, declaration⟩ | _ | function) _ <;> rfl

theorem read_of_writtenAll_interleaved :
    let text :=
      "precision  lowp int;float f( int a\t)\n\x7b \x7b;\x7d \x7dvarying vec2 uv ; ".toList
    let function : Function :=
      ⟨"f".toList, "float".toList, "int a".toList, " \x7b;\x7d ".toList⟩
    let declaration : Declaration := ⟨"vec2".toList, "uv".toList⟩
    WrittenAll [.precision, .defined function, .declared .varying declaration] text ∧
      Shader.read .fragment text = .ok ⟨.fragment, [], [], [declaration], [function]⟩ := by
  intro text function declaration
  have htext : text =
      [] ++ (precisionKeyword ++
          [("  ".toList, "lowp".toList), (" ".toList, "int".toList)].flatMap
            (fun word => word.1 ++ word.2) ++ [] ++ [';']) ++
        ([] ++ ("float".toList ++ " ".toList ++ "f".toList ++ [] ++ ['('] ++
            (" ".toList ++ "int a".toList ++ "\t".toList) ++ [')'] ++ "\n".toList ++ ['{'] ++
            " \x7b;\x7d ".toList ++ ['}']) ++
          ([] ++ (Qualifier.varying.keyword ++ " ".toList ++ "vec2".toList ++ " ".toList ++
            "uv".toList ++ " ".toList ++ [';']) ++ " ".toList)) := by
    decide
  have hfunction : WellFormedFunction function :=
    ⟨.word (by decide), by rintro (_ | _ | _) <;> decide, by decide, .word (by decide), by decide,
      by decide, by decide⟩
  have hwritten :
      WrittenAll [.precision, .defined function, .declared .varying declaration] text := by
    rw [htext]
    refine .cons blank_nil (.precision (by decide) (.inl rfl)) ?_
    refine .cons blank_nil (.defined hfunction (by decide) (.inl rfl) (by decide) (by decide)
      (by decide)) ?_
    exact .cons blank_nil (.declared .varying ⟨.word (by decide), .word (by decide)⟩ (by decide)
      (by decide) (by decide)) (.nil (by decide))
  exact ⟨hwritten, read_of_writtenAll .fragment hwritten⟩

end CgShader.Proofs.ItemGrammar
