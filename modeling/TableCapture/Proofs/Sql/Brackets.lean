import Mathlib.Data.List.Infix
import TableCapture.Sql.Token

/-!
# Brackets

Tokens close `d` brackets when they can stand inside `d` open ones and leave none of them open.
Whether they do so depends on their brackets alone (`closes_brackets`). Tokens that close one
bracket more than others have a token that closes it, which parts them in two
(`Closes.exists_closing`); so in balanced tokens every opening bracket has its closing one.
-/

namespace TableCapture.Sql

/-- Whether a token is a bracket. -/
def Token.isBracket : Token → Bool
  | leftParen => true
  | rightParen => true
  | _ => false

/-- The brackets among tokens. -/
def brackets (ts : List Token) : List Token :=
  ts.filter Token.isBracket

/-- Inside `d` open brackets, tokens never close one that is not open, and close all of them. -/
structure Closes (d : Nat) (ts : List Token) : Prop where
  count_le : ∀ us ∈ ts.inits, us.count .rightParen ≤ us.count .leftParen + d
  count_eq : ts.count .rightParen = ts.count .leftParen + d

/-- No bracket is closed before it is opened, and all that are opened are closed. -/
def Balanced (ts : List Token) : Prop :=
  Closes 0 ts

instance (d : Nat) (ts : List Token) : Decidable (Closes d ts) :=
  decidable_of_iff ((∀ us ∈ ts.inits, us.count .rightParen ≤ us.count .leftParen + d)
    ∧ ts.count .rightParen = ts.count .leftParen + d) ⟨fun h => ⟨h.1, h.2⟩, fun h => ⟨h.1, h.2⟩⟩

instance (ts : List Token) : Decidable (Balanced ts) :=
  inferInstanceAs (Decidable (Closes 0 ts))

variable {t : Token} {ts us : List Token} {d e n : Nat}

theorem isBracket_eq_false (hl : t ≠ .leftParen) (hr : t ≠ .rightParen) : t.isBracket = false := by
  cases t <;> simp_all [Token.isBracket]

theorem isBracket_of_isWord (h : t.isWord) : t.isBracket = false := by
  cases t with
  | word => rfl
  | _ => cases h

@[simp] theorem brackets_append : brackets (ts ++ us) = brackets ts ++ brackets us :=
  List.filter_append ..

@[simp] theorem brackets_leftParen : brackets (.leftParen :: ts) = .leftParen :: brackets ts :=
  rfl

@[simp] theorem brackets_rightParen : brackets (.rightParen :: ts) = .rightParen :: brackets ts :=
  rfl

theorem brackets_cons_of_not (h : t.isBracket = false) : brackets (t :: ts) = brackets ts :=
  List.filter_cons_of_neg (by simp [h])

theorem closes_nil : Closes d [] ↔ d = 0 := by
  refine ⟨fun h => by simpa using h.count_eq.symm, ?_⟩
  rintro rfl
  exact ⟨by simp, rfl⟩

theorem closes_cons : Closes d (t :: ts)
    ↔ (∀ us ∈ ts.inits, (t :: us).count .rightParen ≤ (t :: us).count .leftParen + d)
      ∧ (t :: ts).count .rightParen = (t :: ts).count .leftParen + d := by
  constructor
  · exact fun h => ⟨fun us hus => h.count_le _ (by simpa using hus), h.count_eq⟩
  · rintro ⟨hle, heq⟩
    refine ⟨fun us hus => ?_, heq⟩
    rcases us with _ | ⟨u, us⟩
    · exact Nat.zero_le _
    · obtain ⟨htail, rfl⟩ : us <+: ts ∧ t = u := by simpa using hus
      exact hle us ((List.mem_inits ..).2 htail)

theorem closes_leftParen : Closes d (.leftParen :: ts) ↔ Closes (d + 1) ts := by
  have hshift : ∀ n, n + 1 + d = n + (d + 1) := by omega
  rw [closes_cons]
  simp only [List.count_cons, beq_iff_eq, reduceCtorEq, if_false, if_true, Nat.add_zero, hshift]
  exact ⟨fun h => ⟨h.1, h.2⟩, fun h => ⟨h.1, h.2⟩⟩

theorem closes_rightParen : Closes (d + 1) (.rightParen :: ts) ↔ Closes d ts := by
  rw [closes_cons]
  simp only [List.count_cons, beq_iff_eq, reduceCtorEq, if_false, if_true, Nat.add_zero,
    ← Nat.add_assoc, Nat.add_le_add_iff_right, Nat.add_right_cancel_iff]
  exact ⟨fun h => ⟨h.1, h.2⟩, fun h => ⟨h.1, h.2⟩⟩

theorem not_closes_rightParen : ¬ Closes 0 (.rightParen :: ts) := by
  intro h
  have := h.count_le [.rightParen] (by simp)
  simp at this

theorem closes_cons_of_not (h : t.isBracket = false) : Closes d (t :: ts) ↔ Closes d ts := by
  have hl : t ≠ .leftParen := by
    rintro rfl
    cases h
  have hr : t ≠ .rightParen := by
    rintro rfl
    cases h
  rw [closes_cons]
  simp only [List.count_cons_of_ne hl, List.count_cons_of_ne hr]
  exact ⟨fun h => ⟨h.1, h.2⟩, fun h => ⟨h.1, h.2⟩⟩

/-- What tokens close is told by their brackets. -/
theorem closes_brackets : Closes d (brackets ts) ↔ Closes d ts := by
  induction ts generalizing d with
  | nil => rfl
  | cons t ts ih =>
    by_cases hl : t = .leftParen
    · subst hl
      rw [brackets_leftParen, closes_leftParen, closes_leftParen, ih]
    by_cases hr : t = .rightParen
    · subst hr
      cases d with
      | zero => exact iff_of_false not_closes_rightParen not_closes_rightParen
      | succ d => rw [brackets_rightParen, closes_rightParen, closes_rightParen, ih]
    · have ht := isBracket_eq_false hl hr
      rw [brackets_cons_of_not ht, closes_cons_of_not ht, ih]

theorem Closes.congr (h : Closes d ts) (hus : brackets us = brackets ts) : Closes d us := by
  rwa [← closes_brackets, hus, closes_brackets]

/-- Tokens that close brackets are taken one at a time. -/
@[elab_as_elim] theorem Closes.induction
    {motive : ∀ (d : Nat) (ts : List Token), Closes d ts → Prop}
    (nil : motive 0 [] (closes_nil.2 rfl))
    (leftParen : ∀ {d ts} (h : Closes (d + 1) ts), motive (d + 1) ts h →
      motive d (.leftParen :: ts) (closes_leftParen.2 h))
    (rightParen : ∀ {d ts} (h : Closes d ts), motive d ts h →
      motive (d + 1) (.rightParen :: ts) (closes_rightParen.2 h))
    (other : ∀ {d t ts} (ht : t.isBracket = false) (h : Closes d ts), motive d ts h →
      motive d (t :: ts) ((closes_cons_of_not ht).2 h))
    {d : Nat} {ts : List Token} (h : Closes d ts) : motive d ts h := by
  induction ts generalizing d with
  | nil =>
    obtain rfl := closes_nil.1 h
    exact nil
  | cons t ts ih =>
    by_cases hl : t = .leftParen
    · subst hl
      have h := closes_leftParen.1 h
      exact leftParen h (ih h)
    by_cases hr : t = .rightParen
    · subst hr
      cases d with
      | zero => exact absurd h not_closes_rightParen
      | succ d =>
        have h := closes_rightParen.1 h
        exact rightParen h (ih h)
    · have ht := isBracket_eq_false hl hr
      have h := (closes_cons_of_not ht).1 h
      exact other ht h (ih h)

theorem Closes.append (h : Closes e ts) (hus : Closes d us) : Closes (d + e) (ts ++ us) := by
  induction h using Closes.induction with
  | nil => exact hus
  | leftParen _ ih => exact closes_leftParen.2 ih
  | rightParen _ ih => exact closes_rightParen.2 ih
  | other ht _ ih => exact (closes_cons_of_not ht).2 ih

/-- Of `d + e + 1` brackets, tokens close `e`, then one, and then `d`. -/
theorem Closes.exists_closing (h : Closes n ts) (hn : n = d + e + 1) :
    ∃ us vs, ts = us ++ .rightParen :: vs ∧ Closes e us ∧ Closes d vs := by
  induction h using Closes.induction generalizing e with
  | nil => omega
  | leftParen _ ih =>
    obtain ⟨us, vs, rfl, hus, hvs⟩ := ih (by omega : _ = d + (e + 1) + 1)
    exact ⟨.leftParen :: us, vs, rfl, closes_leftParen.2 hus, hvs⟩
  | @rightParen n ts h ih =>
    cases e with
    | zero =>
      obtain rfl : n = d := by omega
      exact ⟨[], ts, rfl, closes_nil.2 rfl, h⟩
    | succ e =>
      obtain ⟨us, vs, rfl, hus, hvs⟩ := ih (by omega : _ = d + e + 1)
      exact ⟨.rightParen :: us, vs, rfl, closes_rightParen.2 hus, hvs⟩
  | @other n t ts ht _ ih =>
    obtain ⟨us, vs, rfl, hus, hvs⟩ := ih hn
    exact ⟨t :: us, vs, rfl, (closes_cons_of_not ht).2 hus, hvs⟩

/-- Two brackets that close the same one are the same. -/
theorem Closes.closing_unique {us' vs vs' : List Token} (h : Closes e us) (h' : Closes e us')
    (heq : us ++ .rightParen :: vs = us' ++ .rightParen :: vs') : us = us' ∧ vs = vs' := by
  have hcons : ∀ {t : Token} {us us' : List Token}, us = us' ∧ vs = vs' →
      t :: us = t :: us' ∧ vs = vs' := fun h => ⟨congrArg _ h.1, h.2⟩
  induction h using Closes.induction generalizing us' with
  | nil =>
    rcases us' with _ | ⟨t, us'⟩
    · exact ⟨rfl, (List.cons.inj heq).2⟩
    · obtain ⟨rfl, -⟩ := List.cons.inj heq
      exact absurd h' not_closes_rightParen
  | leftParen _ ih =>
    rcases us' with _ | ⟨t, us'⟩
    · cases (List.cons.inj heq).1
    obtain ⟨rfl, htail⟩ := List.cons.inj heq
    exact hcons (ih (closes_leftParen.1 h') htail)
  | rightParen _ ih =>
    rcases us' with _ | ⟨t, us'⟩
    · cases closes_nil.1 h'
    obtain ⟨rfl, htail⟩ := List.cons.inj heq
    exact hcons (ih (closes_rightParen.1 h') htail)
  | other ht _ ih =>
    rcases us' with _ | ⟨t, us'⟩
    · obtain ⟨rfl, -⟩ := List.cons.inj heq
      cases ht
    obtain ⟨rfl, htail⟩ := List.cons.inj heq
    exact hcons (ih ((closes_cons_of_not ht).1 h') htail)

/-- In balanced tokens, no bracket stands before the first opening one. -/
theorem Balanced.before (h : Balanced (us ++ ts)) (hus : .leftParen ∉ us) :
    brackets us = [] ∧ Balanced ts := by
  induction us with
  | nil => exact ⟨rfl, h⟩
  | cons t us ih =>
    obtain ⟨hl, hus⟩ := not_or.1 (mt List.mem_cons.2 hus)
    have ht : t.isBracket = false := by
      refine isBracket_eq_false (Ne.symm hl) ?_
      rintro rfl
      exact not_closes_rightParen h
    rw [brackets_cons_of_not ht]
    exact ih ((closes_cons_of_not ht).1 h) hus

/-- Tokens are what stands before the first opening bracket, what stands between it and the bracket
that closes it, and what stands after. -/
structure Parts (ts pre body post : List Token) : Prop where
  eq_append : ts = pre ++ .leftParen :: body ++ .rightParen :: post
  before : .leftParen ∉ pre
  balanced : Balanced body

theorem Balanced.exists_parts (h : Balanced ts) (hts : .leftParen ∈ ts) :
    ∃ pre body post, Parts ts pre body post := by
  obtain ⟨pre, tail, rfl, hpre⟩ := List.eq_append_cons_of_mem hts
  obtain ⟨body, post, rfl, hbody, -⟩ :=
    (closes_leftParen.1 (h.before hpre).2).exists_closing (d := 0) (e := 0) rfl
  exact ⟨pre, body, post, by simp, hpre, hbody⟩

theorem Parts.unique {pre body post pre' body' post' : List Token} (h : Parts ts pre body post)
    (h' : Parts ts pre' body' post') : pre = pre' ∧ body = body' ∧ post = post' := by
  have heq := h.eq_append.symm.trans h'.eq_append
  rw [List.append_assoc, List.append_assoc, List.cons_append, List.cons_append] at heq
  have hfirst : ∀ {us vs : List Token}, .leftParen ∉ us →
      (us ++ .leftParen :: vs).idxOf .leftParen = us.length := fun hus => by
    rw [List.idxOf_append_of_notMem hus, List.idxOf_cons_self, Nat.add_zero]
  have hlength := (hfirst h.before).symm.trans ((congrArg _ heq).trans (hfirst h'.before))
  obtain ⟨rfl, htail⟩ := List.append_inj heq hlength
  replace htail := (List.cons.inj htail).2
  exact ⟨rfl, h.balanced.closing_unique h'.balanced htail⟩

end TableCapture.Sql
