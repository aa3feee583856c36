import CgShader.Text.Basic

namespace CgShader.Bracket

/-- The text before the first `)`, and the text after it. -/
def splitParameters? : Text → Option (Text × Text)
  | [] => none
  | ')' :: rest => some ([], rest)
  | c :: rest => (splitParameters? rest).map fun (taken, after) => (c :: taken, after)

/-- The text before the `}` that closes a block, and the text after it. `depth` blocks have been
opened inside the block and not yet closed. -/
def splitBlock? : Nat → Text → Option (Text × Text)
  | _, [] => none
  | 0, '}' :: rest => some ([], rest)
  | depth + 1, '}' :: rest =>
    (splitBlock? depth rest).map fun (taken, after) => ('}' :: taken, after)
  | depth, c :: rest =>
    (splitBlock? (if c = '{' then depth + 1 else depth) rest).map
      fun (taken, after) => (c :: taken, after)

theorem splitParameters?_append {s taken rest : Text}
    (h : splitParameters? s = some (taken, rest)) : s = taken ++ ')' :: rest := by
  fun_induction splitParameters? s generalizing taken with
  | case1 => simp at h
  | case2 after => simp_all
  | case3 c after _ ih =>
    simp only [Option.map_eq_some_iff, Prod.mk.injEq, Prod.exists] at h
    obtain ⟨inner, after', hsplit, rfl, rfl⟩ := h
    simp [ih hsplit]

theorem splitBlock?_append {depth : Nat} {s taken rest : Text}
    (h : splitBlock? depth s = some (taken, rest)) : s = taken ++ '}' :: rest := by
  fun_induction splitBlock? depth s generalizing taken with
  | case1 => simp at h
  | case2 after => simp_all
  | case3 depth after ih =>
    simp only [Option.map_eq_some_iff, Prod.mk.injEq, Prod.exists] at h
    obtain ⟨inner, after', hsplit, rfl, rfl⟩ := h
    simp [ih hsplit]
  | case4 depth c after _ _ ih =>
    simp only [Option.map_eq_some_iff, Prod.mk.injEq, Prod.exists] at h
    obtain ⟨inner, after', hsplit, rfl, rfl⟩ := h
    simp [ih hsplit]

end CgShader.Bracket
