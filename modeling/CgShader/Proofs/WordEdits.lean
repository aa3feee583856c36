import CgShader.Proofs.BodyEdits

namespace CgShader.Proofs.WordEdits

open CgShader.Text
open CgShader.Body
open CgShader.Proofs.TextRuns
open CgShader.Proofs.WhiteSpace
open CgShader.Proofs.BodyEdits

def StartsWord (find : Option Char → Text → Option Edit) : Prop :=
  ∀ before s edit, find before s = some edit →
    isWordAt before = false ∧ isWordAt s.head? = true

def Outside (before : Option Char) (s : Text) : Prop :=
  isWordAt before = false ∨ isWordAt s.head? = false

theorem find_eq_none_of_isWordAt {find : Option Char → Text → Option Edit}
    (hfind : StartsWord find) {before : Option Char} {s : Text}
    (hplace : isWordAt before = true ∨ isWordAt s.head? = false) : find before s = none := by
  rcases hresult : find before s with _ | edit
  · rfl
  · obtain ⟨hbefore, hhead⟩ := hfind before s edit hresult
    simp [hbefore, hhead] at hplace

theorem editAll_cons_of_not_word {find : Option Char → Text → Option Edit}
    (hfind : StartsWord find) (before : Option Char) {c : Char} (hc : isWord c = false)
    (rest : Text) : editAll find before (c :: rest) = c :: editAll find (some c) rest := by
  apply editAll_cons_of_none
  apply find_eq_none_of_isWordAt hfind
  right
  simpa [isWordAt] using hc

theorem editAll_append_of_inside {find : Option Char → Text → Option Edit}
    (hfind : StartsWord find) {before : Option Char} (hbefore : isWordAt before = true)
    {word : Text} (hword : ∀ c ∈ word, isWord c = true) (rest : Text) :
    ∃ last, isWordAt last = true ∧
      editAll find before (word ++ rest) = word ++ editAll find last rest := by
  induction word generalizing before with
  | nil => exact ⟨before, hbefore, rfl⟩
  | cons c word ih =>
      have hc : isWordAt (some c) = true := by
        simpa [isWordAt] using hword c (by simp)
      obtain ⟨last, hlast, hedit⟩ := ih hc (fun d hd => hword d (List.mem_cons_of_mem c hd))
      refine ⟨last, hlast, ?_⟩
      rw [List.cons_append, editAll_cons_of_none
        (find_eq_none_of_isWordAt hfind (.inl hbefore)), hedit, List.cons_append]

theorem editAll_append_word {find : Option Char → Text → Option Edit}
    (hfind : StartsWord find) {before : Option Char} {word rest : Text} (hne : word ≠ [])
    (hword : ∀ c ∈ word, isWord c = true) (hnone : find before (word ++ rest) = none) :
    ∃ last, isWordAt last = true ∧
      editAll find before (word ++ rest) = word ++ editAll find last rest := by
  rcases word with _ | ⟨c, word⟩
  · exact absurd rfl hne
  · have hc : isWordAt (some c) = true := by
      simpa [isWordAt] using hword c (by simp)
    obtain ⟨last, hlast, hedit⟩ := editAll_append_of_inside hfind hc
      (fun d hd => hword d (List.mem_cons_of_mem c hd)) rest
    refine ⟨last, hlast, ?_⟩
    rw [List.cons_append] at hnone ⊢
    rw [editAll_cons_of_none hnone, hedit, List.cons_append]

theorem not_word_of_isWordAt_head? {s : Text} (hs : isWordAt s.head? = false) :
    ∀ c ∈ s.head?, isWord c = false := by
  intro c hc
  simpa [isWordAt, Option.mem_def.mp hc] using hs

theorem word_eq_of_append_eq {word word' rest rest' : Text}
    (hword : ∀ c ∈ word, isWord c = true) (hword' : ∀ c ∈ word', isWord c = true)
    (hrest : isWordAt rest.head? = false) (hrest' : isWordAt rest'.head? = false)
    (happend : word ++ rest = word' ++ rest') : word = word' ∧ rest = rest' := by
  have hstop := not_word_of_isWordAt_head? hrest
  have hstop' := not_word_of_isWordAt_head? hrest'
  have htake := congrArg (List.takeWhile isWord) happend
  have hdrop := congrArg (List.dropWhile isWord) happend
  rw [takeWhile_run hword hstop, takeWhile_run hword' hstop'] at htake
  rw [dropWhile_run hword hstop, dropWhile_run hword' hstop'] at hdrop
  exact ⟨htake, hdrop⟩

theorem isWordAt_head?_dropWhile (s : Text) : isWordAt (s.dropWhile isWord).head? = false := by
  rcases hhead : (s.dropWhile isWord).head? with _ | c
  · rfl
  · simpa [isWordAt] using not_of_mem_head?_dropWhile isWord s c hhead

/-- To go through a text word by word: it is empty, begins with some other character, or begins
with a word. -/
theorem word_induction {motive : Text → Prop} (nil : motive [])
    (other : ∀ c rest, isWord c = false → motive rest → motive (c :: rest))
    (word : ∀ word rest, word ≠ [] → (∀ c ∈ word, isWord c = true) →
      isWordAt rest.head? = false → (∀ s, s.length ≤ rest.length → motive s) →
      motive (word ++ rest)) (s : Text) : motive s := by
  induction hlength : s.length using Nat.strongRecOn generalizing s with
  | ind length ih =>
      subst hlength
      rcases s with _ | ⟨c, s⟩
      · exact nil
      · rcases hc : isWord c with _ | _
        · exact other c s hc (ih s.length (by simp) s rfl)
        · have hsplit : (c :: s).takeWhile isWord ++ (c :: s).dropWhile isWord = c :: s :=
            List.takeWhile_append_dropWhile
          have hrest : ((c :: s).dropWhile isWord).length ≤ s.length := by
            rw [List.dropWhile_cons_of_pos hc]
            exact length_dropWhile_le isWord s
          rw [← hsplit]
          refine word _ _ ?_ (fun d hd => List.mem_takeWhile_imp hd)
            (isWordAt_head?_dropWhile _) ?_
          · simp [hc]
          · intro t ht
            exact ih t.length (by simp only [List.length_cons]; omega) t rfl

theorem isBoundary_iff_of_word {before : Option Char} {s : Text}
    (hs : isWordAt s.head? = true) :
    isBoundary before s.head? = true ↔ isWordAt before = false := by
  rw [isBoundary, hs]
  cases isWordAt before <;> decide

/-- What follows a mark, if the mark comes next in the text. Spaces on both sides of it are
skipped. -/
def afterMark? (mark : Char) (s : Text) : Option Text :=
  match dropSpaces s with
  | [] => none
  | c :: right => if c = mark then some (dropSpaces right) else none

theorem length_dropSpaces_le (s : Text) : (dropSpaces s).length ≤ s.length :=
  length_dropWhile_le _ s

theorem length_lt_of_afterMark? {mark : Char} {s right : Text}
    (h : afterMark? mark s = some right) : right.length < s.length := by
  unfold afterMark? at h
  split at h
  · cases h
  · rename_i c behind hs
    split at h
    · cases h
      have hright := length_dropSpaces_le behind
      have hbehind := length_dropSpaces_le s
      rw [hs, List.length_cons] at hbehind
      omega
    · cases h

theorem afterMark?_eq_some_iff {mark : Char} (hmark : mark ≠ ' ') (s right : Text) :
    afterMark? mark s = some right ↔
      ∃ gap gap', Spaces gap ∧ Spaces gap' ∧ ' ' ∉ right.head? ∧
        s = gap ++ mark :: (gap' ++ right) := by
  unfold afterMark?
  constructor
  · intro h
    split at h
    · cases h
    · rename_i c behind hs
      split at h
      · rename_i hc
        cases h
        subst hc
        refine ⟨spaces s, spaces behind, spaces_spaces s, spaces_spaces behind,
          space_not_mem_head?_dropSpaces behind, ?_⟩
        rw [spaces_append_dropSpaces, ← hs, spaces_append_dropSpaces]
      · cases h
  · rintro ⟨gap, gap', hgap, hgap', hright, rfl⟩
    have hstop : ' ' ∉ (mark :: (gap' ++ right)).head? := by
      simpa using hmark
    simp only [dropSpaces_run hgap hstop, dropSpaces_run hgap' hright, if_true]

/-- Whether a list of names can be looked for word by word. -/
def AreWords (names : List Text) : Prop :=
  ∀ name ∈ names, name ≠ [] ∧ ∀ c ∈ name, isWord c = true

instance (names : List Text) : Decidable (AreWords names) :=
  inferInstanceAs (Decidable (∀ name ∈ names, _ ∧ _))

theorem isWordAt_head?_append {word : Text} (hne : word ≠ [])
    (hword : ∀ c ∈ word, isWord c = true) (rest : Text) :
    isWordAt (word ++ rest).head? = true := by
  rcases word with _ | ⟨c, word⟩
  · exact absurd rfl hne
  · simpa [isWordAt] using hword c (by simp)

theorem isWordAt_getLast?_of_spaces (front : Text) {gap : Text} {c : Char} (hgap : Spaces gap)
    (hc : isWord c = false) : isWordAt (front ++ c :: gap).getLast? = false := by
  rw [List.getLast?_append_cons]
  rcases hlast : (c :: gap).getLast? with _ | d
  · rfl
  · rcases List.mem_cons.mp (List.mem_of_getLast? hlast) with rfl | hd
    · simpa [isWordAt] using hc
    · obtain rfl := hgap d hd
      decide

theorem isWordAt_getLast?_append_cons (s : Text) {c : Char} (hc : isWord c = false) (t : Text) :
    isWordAt (s ++ c :: t).getLast? = isWordAt t.getLast? := by
  rw [List.getLast?_append_cons]
  rcases t with _ | ⟨d, t⟩
  · simpa [isWordAt] using hc
  · rw [List.getLast?_cons_cons]

theorem isWordAt_getLast?_of_append {s t : Text} (h : isWordAt (s ++ t).getLast? = false) :
    isWordAt t.getLast? = false := by
  rcases t with _ | ⟨c, t⟩
  · decide
  · rwa [List.getLast?_append_of_ne_nil _ (List.cons_ne_nil c t)] at h

theorem isWordAt_head?_append_semicolon {rest : Text} (hrest : isWordAt rest.head? = false)
    (after : Text) : isWordAt (rest ++ ';' :: after).head? = false := by
  rcases rest with _ | ⟨c, rest⟩
  · show isWordAt (some ';') = false
    decide
  · exact hrest

theorem isWordAt_getLast?_or {word : Text} (hne : word ≠ [])
    (hword : ∀ c ∈ word, isWord c = true) (before : Option Char) :
    isWordAt (word.getLast?.or before) = true := by
  rw [List.getLast?_eq_some_getLast hne]
  simpa [isWordAt] using hword _ (List.getLast_mem hne)

theorem isWordAt_of_outside {before : Option Char} {word rest : Text} (hne : word ≠ [])
    (hword : ∀ c ∈ word, isWord c = true) (houtside : Outside before (word ++ rest)) :
    isWordAt before = false := by
  rcases houtside with h | h
  · exact h
  · rw [isWordAt_head?_append hne hword] at h
    cases h

theorem isWord_colorName : ∀ c ∈ colorName, isWord c = true := by decide

theorem startsWord_colorWrite? : StartsWord colorWrite? := by
  intro before s edit h
  obtain ⟨hboundary, gap, gap', rest, -, -, -, rfl, -⟩ := (colorWrite?_eq_some_iff ..).mp h
  have hhead : isWordAt (colorName ++ gap ++ '=' :: gap' ++ rest).head? = true := by
    simp only [List.append_assoc]
    exact isWordAt_head?_append (by decide) isWord_colorName _
  exact ⟨(isBoundary_iff_of_word hhead).mp hboundary, hhead⟩

theorem startsWord_product? {names : List Text} (hnames : AreWords names) :
    StartsWord (product? names) := by
  intro before s edit h
  obtain ⟨hboundary, name, hname, hproduct⟩ := product?_eq_some h
  obtain ⟨-, gap, gap', operand, rest, -, -, -, -, rfl, -⟩ :=
    exists_of_productOf? hproduct
  have hhead : isWordAt (name ++ gap ++ '*' :: gap' ++ operand ++ ';' :: rest).head? = true := by
    simp only [List.append_assoc]
    exact isWordAt_head?_append (hnames name hname).1 (hnames name hname).2 _
  exact ⟨(isBoundary_iff_of_word hhead).mp hboundary, hhead⟩

theorem colorWrite?_append_word {before : Option Char} {word rest : Text}
    (hword : ∀ c ∈ word, isWord c = true) (hrest : isWordAt rest.head? = false) {edit : Edit}
    (h : colorWrite? before (word ++ rest) = some edit) :
    word = colorName ∧ ∃ right, afterMark? '=' rest = some right := by
  obtain ⟨-, gap, gap', right, hgap, hgap', hright, happend, -⟩ :=
    (colorWrite?_eq_some_iff ..).mp h
  simp only [List.append_assoc, List.cons_append] at happend
  obtain ⟨rfl, rfl⟩ := word_eq_of_append_eq hword isWord_colorName hrest
    (isWordAt_head?_of_spaces hgap (by decide)) happend
  exact ⟨rfl, right, (afterMark?_eq_some_iff (by decide) _ _).mpr
    ⟨gap, gap', hgap, hgap', hright, rfl⟩⟩

theorem product?_append_word {names : List Text} (hnames : AreWords names) {before : Option Char}
    {word rest : Text} (hword : ∀ c ∈ word, isWord c = true)
    (hrest : isWordAt rest.head? = false) {edit : Edit}
    (h : product? names before (word ++ rest) = some edit) :
    word ∈ names ∧ productOf? word before (word ++ rest) = some edit := by
  obtain ⟨-, name, hname, hproduct⟩ := product?_eq_some h
  obtain ⟨-, gap, gap', operand, rest', hgap, -, -, -, happend, -⟩ :=
    exists_of_productOf? hproduct
  simp only [List.append_assoc, List.cons_append] at happend
  obtain ⟨rfl, -⟩ := word_eq_of_append_eq hword (hnames name hname).2 hrest
    (isWordAt_head?_of_spaces hgap (by decide)) happend
  exact ⟨hname, hproduct⟩

theorem product?_of_productOf? {names : List Text} (hnames : AreWords names)
    {before : Option Char} (hbefore : isWordAt before = false) {word rest : Text}
    (hmem : word ∈ names) (hrest : isWordAt rest.head? = false) {edit : Edit}
    (h : productOf? word before (word ++ rest) = some edit) :
    product? names before (word ++ rest) = some edit := by
  obtain ⟨hne, hword⟩ := hnames word hmem
  have hboundary : isBoundary before (word ++ rest).head? = true :=
    (isBoundary_iff_of_word (isWordAt_head?_append hne hword rest)).mpr hbefore
  rcases hresult : product? names before (word ++ rest) with _ | edit'
  · rw [product?, if_pos hboundary, List.findSome?_eq_none_iff] at hresult
    rw [hresult word hmem] at h
    cases h
  · obtain ⟨-, hproduct⟩ := product?_append_word hnames hword hrest hresult
    rw [← hproduct, h]

end CgShader.Proofs.WordEdits
