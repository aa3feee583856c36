import CgShader.Proofs.AddedSpace
import CgShader.Proofs.SourcePreparation
import CgShader.Program.Basic

namespace CgShader.Proofs.CommentGaps

open CgShader.Source
open CgShader.Proofs.TextRuns
open CgShader.Proofs.TokenReading
open CgShader.Proofs.CommentGrammar
open CgShader.Proofs.AddedSpace
open CgShader.Proofs.SourcePreparation

def respelled (config : Config) (s : Text) : Text :=
  replaceIdentifiers config.spelling config.positionOutput s

theorem prepare_block_comment {config : Config} {front content : Text}
    (hfront : ∀ c ∈ respelled config front, c ∉ ['/', '#', '"', '@'])
    (hcontent : BlockContent (respelled config content)) (back : Text) :
    prepare config (front ++ "/*".toList ++ content ++ "*/".toList ++ back) =
      normalize (respelled config front ++ strip (respelled config back)) := by
  have hslash : isIdentifierChar '/' = false := by decide
  have hstar : isIdentifierChar '*' = false := by decide
  have hrespelled : respelled config (front ++ "/*".toList ++ content ++ "*/".toList ++ back) =
      respelled config front ++ '/' :: '*' ::
        (respelled config content ++ '*' :: '/' :: respelled config back) := by
    have hopen : "/*".toList = ['/', '*'] := rfl
    have hclose : "*/".toList = ['*', '/'] := rfl
    simp only [respelled, replaceIdentifiers, hopen, hclose, List.append_assoc, List.cons_append,
      List.nil_append]
    rw [respell_append _ front (by simp [hslash]), respell_cons_of_not hslash,
      respell_cons_of_not hstar, respell_append _ content (by simp [hstar]),
      respell_cons_of_not hstar, respell_cons_of_not hslash]
  calc
    prepare config (front ++ "/*".toList ++ content ++ "*/".toList ++ back) =
        normalize (strip (respelled config front ++ '/' :: '*' ::
          (respelled config content ++ '*' :: '/' :: respelled config back))) := by
      rw [← hrespelled]
      rfl
    _ = normalize (respelled config front ++ strip (respelled config back)) := by
      rw [strip_plain_append hfront, strip_block, afterBlock_append hcontent]

theorem prepare_space {config : Config} {front : Text}
    (hfront : ∀ c ∈ respelled config front, c ∉ ['/', '#', '"', '@']) (back : Text) :
    prepare config (front ++ " ".toList ++ back) =
      normalize (respelled config front ++ ' ' :: strip (respelled config back)) := by
  have hspace : isIdentifierChar ' ' = false := by decide
  have hrespelled : respelled config (front ++ " ".toList ++ back) =
      respelled config front ++ ([' '] ++ respelled config back) := by
    have hchars : " ".toList = [' '] := rfl
    simp only [respelled, replaceIdentifiers, hchars, List.append_assoc, List.cons_append,
      List.nil_append]
    rw [respell_append _ front (by simp [hspace]), respell_cons_of_not hspace]
  calc
    prepare config (front ++ " ".toList ++ back) =
        normalize (strip (respelled config front ++ ([' '] ++ respelled config back))) := by
      rw [← hrespelled]
      rfl
    _ = normalize (respelled config front ++ ' ' :: strip (respelled config back)) := by
      rw [strip_plain_append hfront, strip_plain_append (by decide)]
      rfl

/-- A place beside layout, or at an end of the source. -/
def BesideLayout (before behind : Text) : Prop :=
  (∀ c ∈ before.getLast?, isLayout c = true) ∨ ∀ c ∈ behind.head?, isLayout c = true

theorem getLast?_normalize {s : Text} (h : ∀ c ∈ s.getLast?, isLayout c = false) :
    (normalize s).getLast? = s.getLast? := by
  rcases List.eq_nil_or_concat s with rfl | ⟨front, c, rfl⟩
  · rfl
  · have hc : isLayout c = false := h c (by simp)
    rw [List.concat_eq_append, normalize_append (.inr (by simp [hc])),
      normalize_cons_of_not_layout hc, normalize_nil, List.getLast?_concat, List.getLast?_concat]

theorem head?_normalize {s : Text} (h : ∀ c ∈ s.head?, isLayout c = false) :
    (normalize s).head? = s.head? := by
  rcases s with _ | ⟨c, s⟩
  · rfl
  · rw [normalize_cons_of_not_layout (h c rfl)]
    rfl

theorem normalize_space_cases (before behind : Text) :
    normalize (before ++ ' ' :: behind) = normalize (before ++ behind) ∨
      (∀ c ∈ before.getLast?, isLayout c = false) ∧ (∀ c ∈ behind.head?, isLayout c = false) ∧
        normalize (before ++ behind) = normalize before ++ normalize behind ∧
        normalize (before ++ ' ' :: behind) = normalize before ++ ' ' :: normalize behind := by
  by_cases hlayout : (∃ c ∈ before.getLast?, isLayout c = true) ∨
      ∃ c ∈ behind.head?, isLayout c = true
  · exact .inl (normalize_append_space hlayout)
  · right
    simp only [not_or, not_exists, not_and, Bool.not_eq_true] at hlayout
    obtain ⟨hbefore, hbehind⟩ := hlayout
    have hdrop := dropWhile_append_stop hbehind []
    refine ⟨hbefore, hbehind, normalize_append (.inl hbefore), ?_⟩
    rw [normalize_append (.inl hbefore), normalize_cons_of_layout rfl]
    rw [List.nil_append] at hdrop
    rw [hdrop]
    rfl

theorem read_normalize_beside_layout (stage : Stage) {before behind : Text}
    (h : BesideLayout before behind) :
    (Shader.read stage (normalize (before ++ behind))).mapError unplaced =
      (Shader.read stage (normalize (before ++ ' ' :: behind))).mapError unplaced := by
  rcases normalize_space_cases before behind with hsame | ⟨hbefore, hbehind, hjoined, hspaced⟩
  · rw [hsame]
  · rw [hjoined, hspaced]
    -- the place is beside no layout, so it is at an end of the source
    rcases h with hlast | hhead
    · obtain rfl : before = [] := by
        rw [← List.getLast?_eq_none_iff, Option.eq_none_iff_forall_not_mem]
        intro c hc
        exact absurd (hlast c hc) (by simp [hbefore c hc])
      exact (read_space_cons stage (normalize behind)).symm
    · obtain rfl : behind = [] := by
        rw [← List.head?_eq_none_iff, Option.eq_none_iff_forall_not_mem]
        intro c hc
        exact absurd (hhead c hc) (by simp [hbehind c hc])
      rw [normalize_nil, List.append_nil]
      exact (read_append_space stage (normalize before)).symm

theorem read_normalize_apart (stage : Stage) {before behind : Text} (h : Apart before behind) :
    (Shader.read stage (normalize (before ++ behind))).mapError unplaced =
        (Shader.read stage (normalize (before ++ ' ' :: behind))).mapError unplaced ∨
      ∃ shader shader', SpacedShader shader shader' ∧
        Shader.read stage (normalize (before ++ behind)) = .ok shader ∧
        Shader.read stage (normalize (before ++ ' ' :: behind)) = .ok shader' := by
  rcases normalize_space_cases before behind with hsame | ⟨hbefore, hbehind, hjoined, hspaced⟩
  · exact .inl (by rw [hsame])
  · rw [hjoined, hspaced]
    apply read_spaced
    constructor
    rwa [Apart, EndsWord, getLast?_normalize hbefore, head?_normalize hbehind]

/-- A block comment is read as if nothing stood in its place. Beside layout or at an end of the
source this is the same as a space. Beside another delimiter it is the same but for that space in
the parameters or the body of a function around it. -/
theorem ofSource_block_comment {config : Config} (stage : Stage) {front content : Text}
    (hfront : ∀ c ∈ respelled config front, c ∉ ['/', '#', '"', '@'])
    (hcontent : BlockContent (respelled config content)) (back : Text) :
    Shader.ofSource config stage (front ++ "/*".toList ++ content ++ "*/".toList ++ back) =
        Shader.read stage (normalize (respelled config front ++ strip (respelled config back))) ∧
      (BesideLayout (respelled config front) (strip (respelled config back)) →
        (Shader.ofSource config stage
            (front ++ "/*".toList ++ content ++ "*/".toList ++ back)).mapError unplaced =
          (Shader.ofSource config stage (front ++ " ".toList ++ back)).mapError unplaced) ∧
      (Apart (respelled config front) (strip (respelled config back)) →
        (Shader.ofSource config stage
            (front ++ "/*".toList ++ content ++ "*/".toList ++ back)).mapError unplaced =
          (Shader.ofSource config stage (front ++ " ".toList ++ back)).mapError unplaced ∨
        ∃ shader shader', SpacedShader shader shader' ∧
          Shader.ofSource config stage (front ++ "/*".toList ++ content ++ "*/".toList ++ back) =
            .ok shader ∧
          Shader.ofSource config stage (front ++ " ".toList ++ back) = .ok shader') := by
  simp only [Shader.ofSource, prepare_block_comment hfront hcontent, prepare_space hfront,
    true_and]
  exact ⟨read_normalize_beside_layout stage, read_normalize_apart stage⟩

theorem ofSource_block_comment_statements :
    (∀ c ∈ respelled Config.default "uniform vec2".toList, c ∉ ['/', '#', '"', '@']) ∧
      BlockContent (respelled Config.default "/ *".toList) ∧
      BesideLayout (respelled Config.default "uniform vec2".toList)
        (strip (respelled Config.default "\tx;".toList)) ∧
      (Shader.ofSource Config.default .vertex "uniform vec2 \tx;".toList).mapError unplaced =
        .ok ⟨.vertex, [], [⟨"float2".toList, "x".toList⟩], [], []⟩ ∧
      (∀ c ∈ respelled Config.default "void f()\x7bx;".toList, c ∉ ['/', '#', '"', '@']) ∧
      Apart (respelled Config.default "void f()\x7bx;".toList)
        (strip (respelled Config.default "y;\x7d".toList)) ∧
      ∃ shader shader', SpacedShader shader shader' ∧
        Shader.ofSource Config.default .vertex "void f()\x7bx;/*/ **/y;\x7d".toList = .ok shader ∧
        Shader.ofSource Config.default .vertex "void f()\x7bx; y;\x7d".toList = .ok shader' := by
  have hcontent : BlockContent (respelled Config.default "/ *".toList) := by decide +kernel
  have huniform : ∀ c ∈ respelled Config.default "uniform vec2".toList,
      c ∉ ['/', '#', '"', '@'] := by
    decide +kernel
  have hlayout : BesideLayout (respelled Config.default "uniform vec2".toList)
      (strip (respelled Config.default "\tx;".toList)) :=
    .inr (by decide +kernel)
  have hfunction : ∀ c ∈ respelled Config.default "void f()\x7bx;".toList,
      c ∉ ['/', '#', '"', '@'] := by
    decide +kernel
  have hapart : Apart (respelled Config.default "void f()\x7bx;".toList)
      (strip (respelled Config.default "y;\x7d".toList)) :=
    .inl (by decide +kernel)
  obtain ⟨-, hsame, -⟩ := ofSource_block_comment .vertex huniform hcontent "\tx;".toList
  obtain ⟨-, -, hspaced⟩ := ofSource_block_comment .vertex hfunction hcontent "y;\x7d".toList
  refine ⟨huniform, hcontent, hlayout, (hsame hlayout).symm.trans ?_, hfunction, hapart,
    (hspaced hapart).resolve_left ?_⟩
  · decide +kernel
  · decide +kernel

/-- Block comments that do not read as a space: one between two words; one beside a delimiter in a
body; one whose content is closed when a name in it is respelled; and one behind a name that is
respelled as the start of a directive. -/
theorem block_comment_joins :
    (∀ entry ∈ Config.default.spelling.entries, '*' ∉ entry.2 ∧ '/' ∉ entry.2) ∧
      Shader.ofSource Config.default .vertex "uniform float/**/x;".toList =
        .error (.unterminated [] 15) ∧
      Shader.ofSource Config.default .vertex "uniform float x;".toList =
        .ok ⟨.vertex, [], [⟨"float".toList, "x".toList⟩], [], []⟩ ∧
      Shader.ofSource Config.default .vertex "void f()\x7bx;/**/y;\x7d".toList =
        .ok ⟨.vertex, [], [], [], [⟨"f".toList, "void".toList, [], "x;y;".toList⟩]⟩ ∧
      Shader.ofSource Config.default .vertex "void f()\x7bx; y;\x7d".toList =
        .ok ⟨.vertex, [], [], [], [⟨"f".toList, "void".toList, [], "x; y;".toList⟩]⟩ ∧
      BlockContent "*highp/;".toList ∧
      Shader.ofSource Config.default .vertex "/**highp/;*/".toList =
        .error (.mismatched '(' "/".toList 2) ∧
      Shader.ofSource Config.default .vertex " ".toList = .ok ⟨.vertex, [], [], [], []⟩ ∧
      Shader.ofSource ⟨Spelling.empty.insert "x".toList "#".toList, [], false⟩ .vertex
          "x/*\n*/y".toList =
        .error (.mismatched '(' "y".toList 2) ∧
      Shader.ofSource ⟨Spelling.empty.insert "x".toList "#".toList, [], false⟩ .vertex
          "x y".toList =
        .ok ⟨.vertex, [], [], [], []⟩ := by
  decide +kernel

end CgShader.Proofs.CommentGaps
