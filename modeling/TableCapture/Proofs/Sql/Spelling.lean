import Mathlib.Data.List.Forall2
import TableCapture.Sql.Reading

/-!
# Keywords as they are spelled

A word that is spelled like a keyword, in ASCII letters of either case, is that keyword and no other
(`Token.is_of_spells`). The converse fails, for other letters have capital forms in ASCII.
A name in backticks is spelled like no keyword and is none.
-/

namespace TableCapture.Sql

/-- Whether a character is a capital ASCII letter or an underscore. -/
def isCapital (c : Char) : Bool :=
  c.isUpper || c = '_'

/-- Tokens are spelled like keywords. -/
def Spelled (ks : List String) (ts : List Token) : Prop :=
  List.Forall₂ (fun k t => t.spells k = true) ks ts

theorem toUpper_of_isCapital {c : Char} (h : isCapital c) : c.toUpper = c := by
  refine dif_neg fun ⟨ha, _⟩ => ?_
  rcases Bool.or_eq_true_iff.1 h with hupper | hline
  · have hz : c.val ≤ 'Z'.val := (of_decide_eq_true hupper).2
    exact absurd (UInt32.le_trans ha hz) (by decide)
  · rw [of_decide_eq_true hline] at ha
    exact absurd ha (by decide)

namespace Word

variable {w : Word} {k j : String}

theorem capital_of_isCapital {c : Char} (h : isCapital c.toUpper) : capital c = [c.toUpper] := by
  have hne : ∀ d : Char, isCapital d.toUpper = false → c ≠ d := by
    rintro d hd rfl
    simp [hd] at h
  rw [capital, if_neg (hne _ (by decide)), if_neg (hne _ (by decide)), if_neg (hne _ (by decide)),
    if_neg (hne _ (by decide)), if_neg (hne _ (by decide)), if_neg (hne _ (by decide)),
    if_neg (hne _ (by decide)), if_neg (hne _ (by decide)), if_neg (hne _ (by decide)),
    if_neg (hne _ (by decide))]

theorem spells_iff :
    w.spells k ↔ w.quoted = false ∧ w.value.toList.map Char.toUpper = k.toList := by
  simp [spells]

theorem toList_beq : (k.toList == j.toList) = decide (k = j) := by
  rw [beq_eq_decide]
  exact decide_eq_decide.2 String.toList_inj

theorem spells_of_spells (h : w.spells k) : w.spells j = decide (k = j) := by
  obtain ⟨hq, hk⟩ := spells_iff.1 h
  rw [spells, hq, hk, toList_beq]
  rfl

theorem isKeyword_of_spells (h : w.spells k) (hk : k.toList.all isCapital) :
    w.isKeyword j = decide (k = j) := by
  obtain ⟨hq, hw⟩ := spells_iff.1 h
  have hcapital : w.value.toList.flatMap capital = k.toList := by
    rw [← hw, List.map_eq_flatMap]
    exact List.flatMap_congr fun c hc =>
      capital_of_isCapital (List.all_eq_true.1 hk _ (hw ▸ List.mem_map_of_mem hc))
  rw [isKeyword, hq, hcapital, toList_beq]
  rfl

end Word

namespace Token

variable {t : Token} {k j : String}

theorem exists_word_of_spells (h : t.spells k) : ∃ w : Word, t = .word w ∧ w.spells k := by
  cases t with
  | word w => exact ⟨w, rfl, h⟩
  | _ => cases h

theorem isWord_of_spells (h : t.spells k) : t.isWord := by
  obtain ⟨w, rfl, -⟩ := exists_word_of_spells h
  rfl

/-- A token is a word that stands for one keyword and for no other. -/
structure Is (t : Token) (k : String) : Prop where
  isWord : t.isWord = true
  spells : ∀ j, t.spells j = decide (k = j)
  isKeyword : ∀ j, t.isKeyword j = decide (k = j)

theorem is_of_spells (h : t.spells k) (hk : k.toList.all isCapital) : t.Is k := by
  obtain ⟨w, rfl, hw⟩ := exists_word_of_spells h
  exact ⟨rfl, fun _ => Word.spells_of_spells hw, fun _ => Word.isKeyword_of_spells hw hk⟩

theorem is_ofKeyword (hk : k.toList.all isCapital) : (ofKeyword k).Is k := by
  have hupper : k.toList.map Char.toUpper = k.toList :=
    (List.map_congr_left fun c hc => toUpper_of_isCapital (List.all_eq_true.1 hk c hc)).trans
      (List.map_id _)
  exact is_of_spells (Word.spells_iff.2 ⟨rfl, hupper⟩) hk

@[simp] theorem spells_quoted (n : String) : (word ⟨n, true⟩).spells k = false :=
  rfl

@[simp] theorem isWord_quoted (n : String) : (word ⟨n, true⟩).isWord :=
  rfl

@[simp] theorem isKeyword_quoted (n : String) : (word ⟨n, true⟩).isKeyword k = false :=
  rfl

end Token

end TableCapture.Sql
