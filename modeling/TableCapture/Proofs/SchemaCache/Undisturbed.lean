import TableCapture.Proofs.SchemaCache.Running

/-!
# What is done for other tables

While tasks are run, each appointment is for one table at most, and all that comes of it is for the
same table (`Going.asked_ne`, `Going.finished_ne`). So attending to what is due for other tables
leaves the cells and the entry of a table, what is due for it, its queries and the ends of its tasks
as they are (`Going.undisturbed`). Of its own appointments, those that are left keep their order
(`Going.pending_eq`).
-/

namespace TableCapture

namespace Timeline

open SchemaCache

/-- What is due for a table. -/
def pending (τ : Timeline) (t : TableId) : List Appointment :=
  τ.agenda.filter fun a => τ.cache.about a.due.action = some t

/-- Of what is for a table, all is as it was. -/
structure Undisturbed (ts : List Task) (t : TableId) (τ τ' : Timeline) : Prop where
  leaves : Leaves (· = t) τ.cache τ'.cache
  tasks : τ.tasks <+: τ'.tasks
  pending : τ'.pending t = τ.pending t
  asked : τ'.asked.count t = τ.asked.count t
  finished : ∀ p s e, ts[p]? = some ⟨s, e⟩ → e.table? = some t →
    τ'.finished.lookup p = τ.finished.lookup p

section Undisturbed

variable {τ : Timeline} {ts : List Task} {a : Appointment} {as : List Appointment} {t : TableId}

/-- What is due for a table stays due for it, apart from what is attended to, and what is put on the
agenda for it comes in between. -/
theorem Going.pending_eq (h : Going ts τ) (hag : τ.agenda = a :: as) {τ' : Timeline}
    (hg : Grows τ.cache τ'.cache) (ds : List Appointment)
    (hds : τ'.agenda = Appointment.insertAll ds as) :
    τ'.pending t = Appointment.insertAll
      (ds.filter fun b => τ'.cache.about b.due.action = some t)
      (as.filter fun b => τ.cache.about b.due.action = some t) := by
  have hsorted := h.sorted
  rw [hag] at hsorted
  have hsame : ∀ b ∈ as, decide (τ'.cache.about b.due.action = some t)
      = decide (τ.cache.about b.due.action = some t) := by
    intro b hb
    rcases h.known b (hag ▸ List.mem_cons_of_mem _ hb) with hsize | ⟨u, hu⟩
    · rw [hsize]
      rfl
    · rw [hu, hg.about hu]
  unfold Timeline.pending
  rw [hds, Appointment.filter_insertAll (List.pairwise_cons.1 hsorted).2, List.filter_congr hsame]

theorem Going.asked_ne (h : Going ts τ) (hmem : a ∈ τ.agenda)
    (ha : τ.cache.about a.due.action ≠ some t) {q c : Nat} {u : TableId}
    (hq : .asked q c u ∈ (τ.cache.step a.due.action).2) : u ≠ t := by
  have ht := h.wellFormed.step_transition a.due.action
  rcases h.known a hmem with hsize | ⟨v, hv⟩
  · rw [hsize] at hq
    simp [SchemaCache.step] at hq
  · rintro rfl
    obtain ⟨rfl, -⟩ := ht.named h.wellFormed hv _ hq
    exact ha hv

theorem Going.finished_ne (h : Going ts τ) (hag : τ.agenda = a :: as)
    (ha : τ.cache.about a.due.action ≠ some t) {c p : Nat}
    (hc : Ended (τ.cache.step a.due.action).2 c)
    (hp : ({ τ with now := a.time, agenda := as }.attend a.due).tasks[c]? = some p) :
    ∃ u ≠ t, CallsFor ts u p := by
  have hk := h.wellFormed
  have ht := hk.step_transition a.due.action
  have hmem : a ∈ τ.agenda := hag ▸ List.mem_cons_self
  have hother : ∀ {u}, (τ.cache.step a.due.action).1.callTable? c = some u → u ≠ t := by
    rintro u hu rfl
    rcases h.known a hmem with hsize | ⟨v, hv⟩
    · rw [hsize] at hc
      simp [SchemaCache.step, CacheEvent.ended?] at hc
    · exact ha (hv.trans ((ht.callTable_of_ended hk hv hc).symm.trans hu))
  rw [tasks_attend] at hp
  rcases ht.caller_of_ended hc with ⟨i, u, y, hi, hy⟩ | ⟨⟨u, hu⟩, rfl⟩
  · obtain ⟨p', hp', hfor⟩ := h.served i u y hi c hy
    rw [getElem?_append_of_some hp'] at hp
    cases hp
    exact ⟨u, hother (ht.grows.callTable ((hk.names hi).1 c hy)), hfor⟩
  · obtain ⟨p', x, hdue⟩ := exists_of_call hu
    obtain ⟨s, hs⟩ := h.errand a hmem _ _ hdue
    rw [hdue] at ha hp
    obtain ⟨-, rfl⟩ := eq_of_getElem?_concat hp (Nat.le_of_eq h.length_tasks)
    exact ⟨u, fun heq => ha (congrArg some heq), s, x, hs⟩

theorem Going.undisturbed (h : Going ts τ) (hag : τ.agenda = a :: as)
    (ha : τ.cache.about a.due.action ≠ some t) :
    Undisturbed ts t τ ({ τ with now := a.time, agenda := as }.attend a.due) := by
  let σ : Timeline := { τ with now := a.time, agenda := as }
  have hk : σ.cache.WellFormed := h.wellFormed
  have ht := hk.step_transition a.due.action
  have hmem : a ∈ τ.agenda := hag ▸ List.mem_cons_self
  have hasked : ∀ q c u, .asked q c u ∈ (σ.cache.step a.due.action).2 → u ≠ t :=
    fun q c u => h.asked_ne hmem ha
  obtain ⟨ds, hds, hagenda⟩ := agenda_attend σ a.due
  obtain ⟨fs, hfinished, hfs⟩ := finished_attend σ a.due
  constructor
  case leaves =>
    rw [cache_attend]
    refine hk.leaves_step fun u hu => ?_
    rintro rfl
    exact ha hu
  case tasks =>
    rw [tasks_attend]
    exact List.prefix_append _ _
  case pending =>
    have hg : Grows τ.cache (σ.attend a.due).cache := by
      rw [cache_attend]
      exact hk.grows _
    -- What comes on the agenda now is for the table of what is attended to.
    have hnone : (ds ++ a.due.limits σ).filter
        (fun b => (σ.attend a.due).cache.about b.due.action = some t) = [] := by
      rw [List.filter_eq_nil_iff]
      intro b hb
      rw [decide_eq_true_iff, cache_attend]
      rcases List.mem_append.1 hb with hb | hb
      · obtain ⟨q, c, u, e, hq, hdue⟩ := hds.asked b hb
        rw [hdue, Due.action, about, ht.queryTable_of_asked hk hq]
        simpa using hasked q c u hq
      · obtain ⟨p, u, ms, hdue, hb⟩ := mem_limits hb
        rw [hdue] at ht ha ⊢
        rw [hb, Due.action, about, Transition.callTable_of_call ht hk]
        exact ha
    rw [h.pending_eq hag hg _ hagenda, hnone, Appointment.insertAll_nil, Timeline.pending, hag,
      List.filter_cons_of_neg (by simpa using ha)]
  case asked =>
    have hzero : ((σ.cache.step a.due.action).2.filterMap CacheEvent.asked?).count t = 0 := by
      refine List.count_eq_zero.2 fun hu => ?_
      obtain ⟨e, he, heu⟩ := List.mem_filterMap.1 hu
      cases e with
      | asked q c u =>
        cases heu
        exact hasked q c t he rfl
      | answered | dropped | found | counted => cases heu
    rw [asked_attend, List.count_append, hzero]
    rfl
  case finished =>
    intro p s e hp he
    have hne : ∀ f ∈ fs, f.1 ≠ p := by
      rintro f hf rfl
      rcases hfs f hf with ⟨c, hc, hcf⟩ | ⟨e', hdue⟩
      · obtain ⟨u, hu, s', x, hf'⟩ := h.finished_ne hag ha hc hcf
        rw [hp] at hf'
        cases hf'
        exact hu (Option.some.inj he)
      · obtain ⟨s', hs'⟩ := h.errand a hmem _ _ hdue
        rw [hp] at hs'
        cases hs'
        rw [hdue, Due.action, about_errand] at ha
        exact ha he
    have hnone : fs.lookup p = none := by
      rw [List.lookup_eq_none_iff]
      exact fun f hf => bne_iff_ne.2 (hne f hf).symm
    rw [hfinished, List.lookup_append, hnone, Option.or_none]

end Undisturbed

end Timeline

end TableCapture
