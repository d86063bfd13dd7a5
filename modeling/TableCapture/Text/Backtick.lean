/-!
# Backtick quoting

Inside backticks a backtick is written twice. `Backtick.quote` writes a name so, and
`Backtick.body?` reads a name whose opening backtick has been passed: it ends at the first
backtick that is not doubled, and gives what follows. What is read so is what is written so, and
nothing else (`Backtick.body?_eq_some_iff`).
-/

namespace TableCapture.Backtick

/-- Every backtick doubled. -/
def double : List Char → List Char
  | [] => []
  | '`' :: cs => '`' :: '`' :: double cs
  | c :: cs => c :: double cs

/-- A name between backticks. -/
def quote (cs : List Char) : List Char :=
  '`' :: double cs ++ ['`']

/-- The name up to the first undoubled backtick, and the text after it. -/
def body? : List Char → Option (List Char × List Char)
  | [] => none
  | '`' :: '`' :: cs => (body? cs).map fun (name, rest) => ('`' :: name, rest)
  | '`' :: cs => some ([], cs)
  | c :: cs => (body? cs).map fun (name, rest) => (c :: name, rest)

theorem double_cons_of_ne {c : Char} (hc : c ≠ '`') (cs : List Char) :
    double (c :: cs) = c :: double cs := by
  rw [double]
  exact fun h => hc h

theorem body?_cons_of_ne {c : Char} (hc : c ≠ '`') (cs : List Char) :
    body? (c :: cs) = (body? cs).map fun (name, rest) => (c :: name, rest) := by
  rw [body?]
  · exact fun _ h => absurd h hc
  · exact fun h => hc h

/-- A quoted name reads back, where what follows does not start with a backtick. -/
theorem body?_double (cs rest : List Char) (h : rest.head? ≠ some '`') :
    body? (double cs ++ '`' :: rest) = some (cs, rest) := by
  induction cs with
  | nil =>
    rcases rest with _ | ⟨c, rest⟩
    · rfl
    · have hc : c ≠ '`' := by simpa using h
      show body? ('`' :: c :: rest) = some ([], c :: rest)
      rw [body?]
      exact fun _ h' => hc (List.cons.inj h').1
  | cons c cs ih =>
    by_cases hc : c = '`'
    · subst hc
      simp [double, body?, ih]
    · rw [double_cons_of_ne hc, List.cons_append, body?_cons_of_ne hc, ih]
      rfl

/-- A name is what stands before the first backtick that is not doubled. -/
theorem body?_eq_some_iff {cs name rest : List Char} : body? cs = some (name, rest) ↔
    cs = double name ++ '`' :: rest ∧ rest.head? ≠ some '`' := by
  refine ⟨fun h => ?_, fun ⟨hcs, hrest⟩ => hcs ▸ body?_double name rest hrest⟩
  fun_induction body? cs generalizing name with
  | case1 => cases h
  | case2 cs ih =>
    obtain ⟨⟨name, rest⟩, hread, heq⟩ := Option.map_eq_some_iff.1 h
    obtain ⟨rfl, rfl⟩ := Prod.mk.inj heq
    obtain ⟨rfl, hrest⟩ := ih hread
    exact ⟨rfl, hrest⟩
  | case3 cs hcs =>
    obtain ⟨rfl, rfl⟩ := Prod.mk.inj (Option.some.inj h)
    refine ⟨rfl, fun hhead => ?_⟩
    obtain ⟨ds, rfl⟩ := List.head?_eq_some_iff.1 hhead
    exact hcs ds rfl
  | case4 c cs _ hc ih =>
    obtain ⟨⟨name, rest⟩, hread, heq⟩ := Option.map_eq_some_iff.1 h
    obtain ⟨rfl, rfl⟩ := Prod.mk.inj heq
    obtain ⟨rfl, hrest⟩ := ih hread
    rw [double_cons_of_ne hc]
    exact ⟨rfl, hrest⟩

end TableCapture.Backtick
