import TableCapture.SchemaCache.Timeline

/-!
# The agenda

The agenda is kept in the order of time, and at one time in the order of rank (`sorted_insert`). A
new appointment goes behind all that come before it, so to look only at some of the appointments is
to keep an agenda of these alone (`filter_insertAll`): what is put between them does not change
their order.
-/

namespace TableCapture

namespace Appointment

/-- An agenda in order. -/
def Sorted (l : List Appointment) : Prop :=
  l.Pairwise fun a b => a.le b = true

/-- Puts appointments on the agenda, one after the other. -/
def insertAll (as l : List Appointment) : List Appointment :=
  as.foldl (fun l a => a.insert l) l

section Insert

variable {a b c : Appointment} {as bs l : List Appointment} {p : Appointment → Bool}

theorem le_iff : a.le b = true ↔
    a.time < b.time ∨ (a.time = b.time ∧ a.due.rank ≤ b.due.rank) := by
  simp [le]

theorem le_trans (hab : a.le b = true) (hbc : b.le c = true) : a.le c = true := by
  rw [le_iff] at hab hbc ⊢
  omega

theorem le_of_not_le (h : ¬ b.le a = true) : a.le b = true := by
  rw [le_iff] at h ⊢
  omega

theorem insert_perm (a : Appointment) (l : List Appointment) : (a.insert l).Perm (a :: l) := by
  induction l with
  | nil => exact .refl _
  | cons b bs ih =>
    unfold insert
    split
    · exact (ih.cons b).trans (.swap a b bs)
    · exact .refl _

theorem sorted_insert (h : Sorted l) (a : Appointment) : Sorted (a.insert l) := by
  unfold Sorted at h ⊢
  induction l with
  | nil => exact List.pairwise_singleton _ _
  | cons b bs ih =>
    obtain ⟨hb, hbs⟩ := List.pairwise_cons.1 h
    unfold insert
    split
    · rename_i hba
      refine List.pairwise_cons.2 ⟨fun c hc => ?_, ih hbs⟩
      rcases List.mem_cons.1 ((insert_perm a bs).subset hc) with rfl | hc
      · exact hba
      · exact hb c hc
    · rename_i hba
      have hab := le_of_not_le hba
      refine List.pairwise_cons.2 ⟨fun c hc => ?_, h⟩
      rcases List.mem_cons.1 hc with rfl | hc
      · exact hab
      · exact le_trans hab (hb c hc)

/-- An appointment that all the others come before is the last. -/
theorem insert_last (h : ∀ b ∈ l, b.le a = true) : a.insert l = l ++ [a] := by
  induction l with
  | nil => rfl
  | cons b bs ih =>
    unfold insert
    rw [if_pos (h b List.mem_cons_self), ih fun c hc => h c (List.mem_cons_of_mem _ hc)]
    rfl

theorem insert_first (h : ∀ b ∈ l, ¬ b.le a = true) : a.insert l = a :: l := by
  cases l with
  | nil => rfl
  | cons b bs =>
    unfold insert
    rw [if_neg (h b List.mem_cons_self)]

theorem filter_insert_of_neg (h : p a = false) : (a.insert l).filter p = l.filter p := by
  induction l with
  | nil => simp [insert, h]
  | cons b bs ih =>
    unfold insert
    split
    · rw [List.filter_cons, List.filter_cons, ih]
    · rw [List.filter_cons_of_neg (by simp [h])]

theorem filter_insert_of_pos (hl : Sorted l) (h : p a = true) :
    (a.insert l).filter p = a.insert (l.filter p) := by
  induction l with
  | nil => simp [insert, h]
  | cons b bs ih =>
    obtain ⟨hb, hbs⟩ := List.pairwise_cons.1 hl
    by_cases hba : b.le a = true
    · rw [insert, if_pos hba, List.filter_cons, List.filter_cons, ih hbs]
      split
      · rw [insert, if_pos hba]
      · rfl
    · -- Nothing that comes after `b` comes before `a`.
      have hall : ∀ c ∈ (b :: bs).filter p, ¬ c.le a = true := by
        intro c hc hca
        rcases List.mem_cons.1 (List.mem_filter.1 hc).1 with rfl | hc
        · exact hba hca
        · exact hba (le_trans (hb c hc) hca)
      rw [insert, if_neg hba, List.filter_cons_of_pos h, insert_first hall]

@[simp]
theorem insertAll_nil : insertAll [] l = l := rfl

@[simp]
theorem insertAll_cons : insertAll (a :: as) l = insertAll as (a.insert l) := rfl

theorem insertAll_append : insertAll (as ++ bs) l = insertAll bs (insertAll as l) :=
  List.foldl_append

theorem insertAll_perm (as l : List Appointment) : (insertAll as l).Perm (as ++ l) := by
  induction as generalizing l with
  | nil => exact .refl _
  | cons a as ih => exact ((ih _).trans ((insert_perm a l).append_left as)).trans List.perm_middle

theorem mem_insertAll : b ∈ insertAll as l ↔ b ∈ as ∨ b ∈ l := by
  rw [(insertAll_perm as l).mem_iff, List.mem_append]

theorem sorted_insertAll (h : Sorted l) (as : List Appointment) : Sorted (insertAll as l) := by
  induction as generalizing l with
  | nil => exact h
  | cons a as ih => exact ih (sorted_insert h a)

/-- Appointments are put among some of the others just as they are put among all. -/
theorem filter_insertAll (h : Sorted l) :
    (insertAll as l).filter p = insertAll (as.filter p) (l.filter p) := by
  induction as generalizing l with
  | nil => rfl
  | cons a as ih =>
    rw [insertAll_cons, ih (sorted_insert h a)]
    rcases hp : p a with _ | _
    · rw [List.filter_cons_of_neg (by simp [hp]), filter_insert_of_neg hp]
    · rw [List.filter_cons_of_pos hp, filter_insert_of_pos h hp, insertAll_cons]

/-- Appointments that come one after the other behind all the others stay in this order. -/
theorem insertAll_last (h : Sorted (l ++ as)) : insertAll as l = l ++ as := by
  induction as generalizing l with
  | nil => rw [insertAll_nil, List.append_nil]
  | cons a as ih =>
    have hla : ∀ b ∈ l, b.le a = true := fun b hb =>
      (List.pairwise_append.1 h).2.2 b hb a List.mem_cons_self
    have hall : l ++ a :: as = (l ++ [a]) ++ as := List.append_cons l a as
    rw [hall] at h
    rw [insertAll_cons, insert_last hla, ih h, hall]

end Insert

end Appointment

end TableCapture
