import Mathlib.Logic.Function.Basic
import TableCapture.Proofs.SchemaCache.Frame

/-!
# An action under new names

An action about a table does the same to all caches that are alike at this table: they stay alike,
and what comes of it is the same but for names (`Alike.step`). The names that are made by the action
are the next ones in each cache, so the namings take these for each other (`Naming.grow`).

An action is made of small changes, and each of them keeps caches alike when it is made to both:
giving a table a cell, giving a call a cell, putting something into a cell, noting down a query,
and taking entries away.
-/

namespace TableCapture

/-- The next names in the one cache become the next names in the other. -/
def Naming.grow (F : Naming) (k k' : SchemaCache) : Naming where
  cell := Function.update F.cell k.cells.length k'.cells.length
  call := Function.update F.call k.calls.length k'.calls.length
  query := Function.update F.query k.queries.length k'.queries.length

namespace SchemaCache

/-- The next names in the one cache are named like the next names in the other. -/
structure NamesNext (F : Naming) (k k' : SchemaCache) : Prop where
  cell : F.cell k.cells.length = k'.cells.length
  call : F.call k.calls.length = k'.calls.length
  query : F.query k.queries.length = k'.queries.length

/-! ## Small changes to both -/

section Embeds

variable {F G : Naming} {p : TableId → Prop} {k k' : SchemaCache} {i c : Nat} {t : TableId}
  {y : CellContent}

namespace Embeds

theorem put (h : Embeds F G p k k') (ht : p t) (hi : k.cellTable? i = some t) :
    Embeds F G p (k.put i y) (k'.put (F.cell i) (y.rename F)) where
  cell j u z hu hj := by
    rcases cells_put.1 hj with ⟨rfl, rfl, x, hx⟩ | ⟨hij, hj⟩
    · obtain ⟨hx', hback⟩ := h.cell i u x hu hx
      exact ⟨cells_put_self hx', hback⟩
    · obtain ⟨hj', hback⟩ := h.cell j u z hu hj
      refine ⟨cells_put.2 (.inr ⟨fun heq => hij ?_, hj'⟩), hback⟩
      rw [← hback, ← heq, (h.cellTable ht hi).2]
  entry := h.entry
  call := by
    rw [callTable?_put]
    exact h.call
  query := by
    rw [queryTable?_put]
    exact h.query
  call_lt := by
    rw [callTable?_put]
    exact h.call_lt
  query_lt := by
    rw [queryTable?_put]
    exact h.query_lt

theorem make (h : Embeds F G p k k') (hk : k.WellFormed)
    (hnew : F.cell k.cells.length = k'.cells.length)
    (hback : G.cell k'.cells.length = k.cells.length) :
    Embeds F G p (k.make t) (k'.make t) where
  cell j u z hu hj := by
    rcases Nat.lt_or_ge j k.cells.length with hlt | hle
    · rw [SchemaCache.make, List.getElem?_append_left hlt] at hj
      obtain ⟨hj', hb⟩ := h.cell j u z hu hj
      exact ⟨getElem?_append_of_some hj', hb⟩
    · obtain ⟨rfl, hz⟩ := eq_of_getElem?_concat hj hle
      cases hz
      rw [hnew]
      exact ⟨List.getElem?_concat_length, hback⟩
  entry u j hu hj := by
    rcases List.mem_cons.1 hj with hj | hj
    · cases hj
      rw [hnew]
      exact List.mem_cons_self
    · exact List.mem_cons_of_mem _ (h.entry u j hu hj)
  call := by
    rw [callTable?_make hk]
    exact h.call
  query := by
    rw [queryTable?_make hk]
    exact h.query
  call_lt := by
    rw [callTable?_make hk]
    exact h.call_lt
  query_lt := by
    rw [queryTable?_make hk]
    exact h.query_lt

theorem enroll (h : Embeds F G p k k') (hk : k.WellFormed)
    (hnew : F.call k.calls.length = k'.calls.length)
    (hback : G.call k'.calls.length = k.calls.length) :
    Embeds F G p (k.enroll i) (k'.enroll (F.cell i)) where
  cell := h.cell
  entry := h.entry
  call d u j hu hd hj := by
    rcases Nat.lt_or_ge d k.calls.length with hlt | hle
    · rw [callTable?_enroll_of_lt hlt] at hd
      rw [SchemaCache.enroll, List.getElem?_append_left hlt] at hj
      obtain ⟨hj', hb⟩ := h.call d u j hu hd hj
      exact ⟨getElem?_append_of_some hj', hb⟩
    · obtain ⟨rfl, rfl⟩ := eq_of_getElem?_concat hj hle
      rw [hnew]
      exact ⟨List.getElem?_concat_length, hback⟩
  query := by
    rw [queryTable?_enroll hk]
    exact h.query
  call_lt c d u hu hc hd hlt := by
    have hc' : c < k.calls.length := by
      have := callTable?_lt hd
      simp only [SchemaCache.enroll, List.length_append, List.length_singleton] at this
      omega
    rw [callTable?_enroll_of_lt hc'] at hc
    rcases Nat.lt_or_ge d k.calls.length with hd' | hle
    · rw [callTable?_enroll_of_lt hd'] at hd
      exact h.call_lt c d u hu hc hd hlt
    · rw [eq_length_of_callTable? hd hle, hnew]
      exact callTable?_lt (h.callTable hu hc).1
  query_lt := by
    rw [queryTable?_enroll hk]
    exact h.query_lt

theorem note (h : Embeds F G p k k') (hnew : F.query k.queries.length = k'.queries.length)
    (hback : G.query k'.queries.length = k.queries.length) :
    Embeds F G p (k.note c) (k'.note (F.call c)) where
  cell := h.cell
  entry := h.entry
  call := h.call
  query q u d hu hq hd := by
    rcases Nat.lt_or_ge q k.queries.length with hlt | hle
    · rw [queryTable?_note_of_lt hlt] at hq
      rw [SchemaCache.note, List.getElem?_append_left hlt] at hd
      obtain ⟨hd', hb⟩ := h.query q u d hu hq hd
      exact ⟨getElem?_append_of_some hd', hb⟩
    · obtain ⟨rfl, rfl⟩ := eq_of_getElem?_concat hd hle
      rw [hnew]
      exact ⟨List.getElem?_concat_length, hback⟩
  call_lt := h.call_lt
  query_lt q r u v hu hv hq hr hs hlt := by
    have hq' : q < k.queries.length := by
      have := queryTable?_lt hr
      simp only [SchemaCache.note, List.length_append, List.length_singleton] at this
      omega
    rw [queryTable?_note_of_lt hq'] at hq
    rcases Nat.lt_or_ge r k.queries.length with hr' | hle
    · rw [queryTable?_note_of_lt hr'] at hr
      exact h.query_lt q r u v hu hv hq hr hs hlt
    · rw [eq_length_of_queryTable? hr hle, hnew]
      exact queryTable?_lt (h.queryTable hu hq).1

theorem filter (h : Embeds F G p k k') {f f' : TableId × Nat → Bool}
    (hf : ∀ t i, p t → (t, i) ∈ k.entries → f (t, i) = true → f' (t, F.cell i) = true) :
    Embeds F G p { k with entries := k.entries.filter f }
      { k' with entries := k'.entries.filter f' } where
  cell := h.cell
  entry t i ht hi := by
    obtain ⟨hi, hfi⟩ := List.mem_filter.1 hi
    exact List.mem_filter.2 ⟨h.entry t i ht hi, hf t i ht hi hfi⟩
  call := h.call
  query := h.query
  call_lt := h.call_lt
  query_lt := h.query_lt

end Embeds

namespace Alike

theorem put (h : Alike F G p k k') (ht : p t) (hi : k.cellTable? i = some t)
    (hy : (y.rename F).rename G = y) :
    Alike F G p (k.put i y) (k'.put (F.cell i) (y.rename F)) := by
  obtain ⟨hi', hback⟩ := h.forth.cellTable ht hi
  have hput := h.back.put (y := y.rename F) ht hi'
  rw [hback, hy] at hput
  exact ⟨h.forth.put ht hi, hput⟩

theorem enroll (h : Alike F G p k k') (hk : k.WellFormed) (hk' : k'.WellFormed) (ht : p t)
    (hi : k.cellTable? i = some t) (hnew : F.call k.calls.length = k'.calls.length)
    (hback : G.call k'.calls.length = k.calls.length) :
    Alike F G p (k.enroll i) (k'.enroll (F.cell i)) := by
  have henroll := h.back.enroll (i := F.cell i) hk' hback hnew
  rw [(h.forth.cellTable ht hi).2] at henroll
  exact ⟨h.forth.enroll hk hnew hback, henroll⟩

theorem note (h : Alike F G p k k') (ht : p t) (hc : k.callTable? c = some t)
    (hnew : F.query k.queries.length = k'.queries.length)
    (hback : G.query k'.queries.length = k.queries.length) :
    Alike F G p (k.note c) (k'.note (F.call c)) := by
  have hnote := h.back.note (c := F.call c) hback hnew
  rw [(h.forth.callTable ht hc).2] at hnote
  exact ⟨h.forth.note hnew hback, hnote⟩

theorem invalidate (h : Alike F G p k k') (t : TableId) :
    Alike F G p (k.invalidate t) (k'.invalidate t) :=
  ⟨h.forth.filter fun _ _ _ _ hf => hf, h.back.filter fun _ _ _ _ hf => hf⟩

theorem detach (h : Alike F G p k k') (hk : k.WellFormed) (hk' : k'.WellFormed) (ht : p t)
    (hi : k.cellTable? i = some t) : Alike F G p (k.detach i) (k'.detach (F.cell i)) := by
  have hentry : ∀ {u j}, (u, j) ∈ k.entries → k.cellTable? j = some u := fun hj =>
    cellTable?_eq_some.2 (hk.entry_cell _ _ hj)
  have hentry' : ∀ {u j}, (u, j) ∈ k'.entries → k'.cellTable? j = some u := fun hj =>
    cellTable?_eq_some.2 (hk'.entry_cell _ _ hj)
  refine ⟨h.forth.filter fun u j hu hj hne => ?_, h.back.filter fun u j hu hj hne => ?_⟩ <;>
    rw [decide_eq_true_iff] at hne ⊢ <;> rintro heq <;> refine hne ?_
  · show j = i
    rw [← (h.forth.cellTable hu (hentry hj)).2, show F.cell j = F.cell i from heq,
      (h.forth.cellTable ht hi).2]
  · show j = F.cell i
    rw [← show G.cell j = i from heq, (h.back.cellTable hu (hentry' hj)).2]

/-- The table has a cell in both, or gets one in both. -/
theorem enter (h : Alike F G p k k') (hk : k.WellFormed) (hk' : k'.WellFormed) (ht : p t)
    (hnew : F.cell k.cells.length = k'.cells.length)
    (hback : G.cell k'.cells.length = k.cells.length) {i j : Nat} {k₁ k₁' : SchemaCache}
    (he : k.enter t = (i, k₁)) (he' : k'.enter t = (j, k₁')) :
    Alike F G p k₁ k₁' ∧ j = F.cell i := by
  rcases enter_cases he with ⟨hl, rfl⟩ | ⟨hl, rfl, rfl⟩ <;>
    rcases enter_cases he' with ⟨hl', rfl⟩ | ⟨hl', rfl, rfl⟩
  · have hmem := h.forth.entry t i ht (hk.lookup_iff.1 hl)
    exact ⟨h, hk'.entry_unique (hk'.lookup_iff.1 hl') hmem⟩
  · exact absurd (h.forth.entry t i ht (hk.lookup_iff.1 hl)) (hk'.lookup_none_iff.1 hl' _)
  · exact absurd (h.back.entry t j ht (hk'.lookup_iff.1 hl')) (hk.lookup_none_iff.1 hl _)
  · exact ⟨⟨h.forth.make hk hnew hback, h.back.make hk' hback hnew⟩, hnew.symm⟩

/-- A call asks a query on a cell in both. -/
theorem ask (h : Alike F G p k k') (ht : p t) (hi : k.cellTable? i = some t) {w : List Nat}
    (hw : ∀ d ∈ c :: w, k.callTable? d = some t)
    (hnew : F.query k.queries.length = k'.queries.length)
    (hback : G.query k'.queries.length = k.queries.length) :
    Alike F G p (k.ask i t c w).1 (k'.ask (F.cell i) t (F.call c) (w.map F.call)).1
      ∧ (k'.ask (F.cell i) t (F.call c) (w.map F.call)).2
        = (k.ask i t c w).2.map (CacheEvent.rename F) := by
  have hput := h.put (y := .resolving c k.queries.length w) ht hi <|
    CellContent.rename_back (fun d hd => (h.forth.callTable ht (hw d hd)).2) fun q hq => by
      cases hq
      rw [hnew, hback]
  have hc : (k.put i (.resolving c k.queries.length w)).callTable? c = some t := by
    rw [callTable?_put]
    exact hw c List.mem_cons_self
  have hnote := hput.note ht hc hnew hback
  rw [CellContent.rename, hnew] at hnote
  exact ⟨hnote, by simp [SchemaCache.ask, CacheEvent.rename, hnew]⟩

theorem passOn (h : Alike F G p k k') (ht : p t) (hi : k.cellTable? i = some t) {w : List Nat}
    (hw : ∀ d ∈ w, k.callTable? d = some t)
    (hnew : F.query k.queries.length = k'.queries.length)
    (hback : G.query k'.queries.length = k.queries.length) :
    Alike F G p (k.passOn i t w).1 (k'.passOn (F.cell i) t (w.map F.call)).1
      ∧ (k'.passOn (F.cell i) t (w.map F.call)).2
        = (k.passOn i t w).2.map (CacheEvent.rename F) := by
  cases w with
  | nil => exact ⟨h.put ht hi rfl, rfl⟩
  | cons c w => exact h.ask ht hi hw hnew hback

theorem cached_eq (h : Alike F G p k k') (hk : k.WellFormed) (hk' : k'.WellFormed) (ht : p t) :
    k'.cached t = (k.cached t).map (SharedSchema.rename F) := by
  rcases hs : k.cached t with _ | s
  · refine Option.eq_none_iff_forall_ne_some.2 fun s' hs' => ?_
    obtain ⟨j, hmem, hj⟩ := hk'.cached_iff.1 hs'
    rw [hk.cached_iff.2 ⟨_, h.back.entry t j ht hmem, (h.back.cell j t _ ht hj).1⟩] at hs
    cases hs
  · obtain ⟨i, hmem, hi⟩ := hk.cached_iff.1 hs
    exact hk'.cached_iff.2 ⟨_, h.forth.entry t i ht hmem, (h.forth.cell i t _ ht hi).1⟩

end Alike

end Embeds

/-! ## An action on both -/

section Step

variable {F G : Naming} {p : TableId → Prop} {k k' : SchemaCache} {t : TableId} {a : CacheAction}

namespace Alike

theorem call (h : Alike F G p k k') (hk : k.WellFormed) (hk' : k'.WellFormed)
    (hnew : NamesNext F k k') (hback : NamesNext G k' k) (ht : p t) :
    Alike F G p (k.call t).1 (k'.call t).1
      ∧ (k'.call t).2 = (k.call t).2.map (CacheEvent.rename F) := by
  rcases he : k.enter t with ⟨i, k₁⟩
  rcases he' : k'.enter t with ⟨j, k₁'⟩
  obtain ⟨hcalls, hqueries⟩ := enter_calls he
  obtain ⟨hcalls', hqueries'⟩ := enter_calls he'
  obtain ⟨h₁, rfl⟩ := h.enter hk hk' ht hnew.cell hback.cell he he'
  have hk₁ := hk.of_enter he
  obtain ⟨y, hy⟩ := hk.enter_cell he
  have hy' := (h₁.forth.cell i t y ht hy).1
  have hi := cellTable?_eq_some.2 ⟨y, hy⟩
  have h₂ := h₁.enroll hk₁ (hk'.of_enter he') ht hi (by rw [hcalls, hcalls', hnew.call])
    (by rw [hcalls, hcalls', hback.call])
  have hc := callTable?_enroll hi
  rw [hcalls] at hc
  cases y with
  | filled s =>
    rw [call_at_filled he hy, call_at_filled he' hy']
    refine ⟨h₂, ?_⟩
    simp [CacheEvent.rename, hnew.call, Except.map]
  | idle =>
    rw [call_at_idle he hy, call_at_idle he' hy']
    have hasks := (h₂.ask ht hi (w := []) (by simpa using hc)
      (by rw [SchemaCache.enroll, SchemaCache.enroll, hqueries, hqueries', hnew.query])
      (by rw [SchemaCache.enroll, SchemaCache.enroll, hqueries, hqueries', hback.query])).1
    rw [hnew.call] at hasks
    refine ⟨hasks, ?_⟩
    simp [CacheEvent.rename, hnew.call, hnew.query]
  | resolving d q w =>
    rw [call_at_resolving he hy, call_at_resolving he' hy']
    obtain ⟨hcallers, hquery⟩ := (hk₁.enroll (lt_of_cell hy)).names hy
    have hd : ∀ x ∈ d :: w ++ [k.calls.length], (k₁.enroll i).callTable? x = some t := by
      intro x hx
      rcases List.mem_append.1 hx with hx | hx
      · exact hcallers x hx
      · rw [List.mem_singleton.1 hx]
        exact hc
    have hput := h₂.put (y := .resolving d q (w ++ [k.calls.length])) ht hi <|
      CellContent.rename_back (fun x hx => (h₂.forth.callTable ht (hd x hx)).2) fun x hx =>
        (h₂.forth.queryTable ht (hquery x hx)).2
    rw [CellContent.rename, List.map_append, List.map_singleton, hnew.call] at hput
    exact ⟨hput, rfl⟩

theorem settle (h : Alike F G p k k') (hk : k.WellFormed) (hk' : k'.WellFormed)
    (hnew : F.query k.queries.length = k'.queries.length)
    (hback : G.query k'.queries.length = k.queries.length) (ht : p t) {q : Nat}
    (hq : k.queryTable? q = some t) (e : Ending) :
    Alike F G p (k.settle q e).1 (k'.settle (F.query q) e).1
      ∧ (k'.settle (F.query q) e).2 = (k.settle q e).2.map (CacheEvent.rename F) := by
  have hq' := h.forth.queryTable ht hq
  by_cases hwaits : ∃ (i : Nat) (u : TableId) (c : Nat) (w : List Nat),
      k.cells[i]? = some ⟨u, .resolving c q w⟩
  · obtain ⟨i, u, c, w, hi⟩ := hwaits
    obtain ⟨hcallers, hquery⟩ := hk.names hi
    obtain rfl : t = u := Option.some.inj (hq.symm.trans (hquery q rfl))
    have htable := cellTable?_eq_some.2 ⟨_, hi⟩
    have hi' := (h.forth.cell i t _ ht hi).1
    rcases he : e.schema t with err | schema
    · rw [hk.settle_of_error hi he, hk'.settle_of_error hi' he]
      obtain ⟨hpass, hevents⟩ := (h.detach hk hk' ht htable).passOn ht htable (w := w)
        (fun d hd => hcallers d (List.mem_cons_of_mem _ hd)) hnew hback
      refine ⟨hpass, ?_⟩
      rw [hevents, List.map_cons]
      rfl
    · rw [hk.settle_of_ok hi he, hk'.settle_of_ok hi' he]
      have hput := h.put (y := .filled ⟨q, schema⟩) ht htable <|
        CellContent.rename_back (fun x hx => absurd hx List.not_mem_nil) fun x hx => by
          cases hx
          exact hq'.2
      refine ⟨hput, ?_⟩
      simp [CacheEvent.rename, Except.map, SharedSchema.rename]
  · have hlate' : ∀ (j : Nat) u c w, k'.cells[j]? ≠ some ⟨u, .resolving c (F.query q) w⟩ := by
      intro j u c w hj
      obtain rfl : t = u := Option.some.inj (hq'.1.symm.trans ((hk'.names hj).2 _ rfl))
      have hi := (h.back.cell j t _ ht hj).1
      rw [CellContent.rename, hq'.2] at hi
      exact hwaits ⟨_, _, _, _, hi⟩
    rw [settle_of_late (fun i u c w hi => hwaits ⟨i, u, c, w, hi⟩), settle_of_late hlate']
    exact ⟨h, rfl⟩

theorem map_erase_of_back {f g : Nat → Nat} {c : Nat} {w : List Nat} (hc : g (f c) = c)
    (hw : ∀ d ∈ w, g (f d) = d) : (w.erase c).map f = (w.map f).erase (f c) := by
  induction w with
  | nil => rfl
  | cons d w ih =>
    rw [List.forall_mem_cons] at hw
    by_cases hd : d = c
    · subst hd
      simp
    · have hne : f d ≠ f c := fun heq => hd (by rw [← hw.1, heq, hc])
      rw [List.erase_cons_tail (by simpa using hd), List.map_cons, List.map_cons,
        List.erase_cons_tail (by simpa using hne), ih hw.2]

theorem drop (h : Alike F G p k k') (hk : k.WellFormed) (hk' : k'.WellFormed)
    (hnew : F.query k.queries.length = k'.queries.length)
    (hback : G.query k'.queries.length = k.queries.length) (ht : p t) {c : Nat}
    (hc : k.callTable? c = some t) :
    Alike F G p (k.drop c).1 (k'.drop (F.call c)).1
      ∧ (k'.drop (F.call c)).2 = (k.drop c).2.map (CacheEvent.rename F) := by
  have hc' := h.forth.callTable ht hc
  by_cases hthere : ∃ (i : Nat) (u : TableId) (y : CellContent),
      k.cells[i]? = some ⟨u, y⟩ ∧ c ∈ y.callers
  · obtain ⟨i, u, y, hi, hcy⟩ := hthere
    obtain ⟨hcallers, hquery⟩ := hk.names hi
    obtain rfl : t = u := Option.some.inj (hc.symm.trans (hcallers c hcy))
    have htable := cellTable?_eq_some.2 ⟨_, hi⟩
    have hi' := (h.forth.cell i t _ ht hi).1
    cases y with
    | idle | filled => cases hcy
    | resolving d q w =>
      rcases List.mem_cons.1 hcy with rfl | hcw
      · rw [hk.drop_of_resolving hi, hk'.drop_of_resolving hi']
        obtain ⟨hpass, hevents⟩ := h.passOn ht htable (w := w)
          (fun d hd => hcallers d (List.mem_cons_of_mem _ hd)) hnew hback
        refine ⟨hpass, ?_⟩
        rw [hevents, List.map_cons]
        rfl
      · have hnames : ∀ x ∈ d :: w, G.call (F.call x) = x := fun x hx =>
          (h.forth.callTable ht (hcallers x hx)).2
        rw [hk.drop_of_waiting hi hcw, hk'.drop_of_waiting hi' (List.mem_map_of_mem hcw)]
        have hput := h.put (y := .resolving d q (w.erase c)) ht htable <|
          CellContent.rename_back
            (fun x hx => hnames x (List.erase_sublist.cons_cons d |>.subset hx))
            fun x hx => (h.forth.queryTable ht (hquery x hx)).2
        rw [CellContent.rename,
          map_erase_of_back hc'.2 fun x hx => hnames x (List.mem_cons_of_mem _ hx)] at hput
        exact ⟨hput, rfl⟩
  · have habsent' : ∀ (j : Nat) u z, k'.cells[j]? = some ⟨u, z⟩ → F.call c ∉ z.callers := by
      intro j u z hj hcz
      obtain rfl : t = u := Option.some.inj (hc'.1.symm.trans ((hk'.names hj).1 _ hcz))
      have hi := (h.back.cell j t _ ht hj).1
      refine hthere ⟨_, _, _, hi, ?_⟩
      rw [CellContent.callers_rename, ← hc'.2]
      exact List.mem_map_of_mem hcz
    rw [drop_of_absent (fun i u y hi hcy => hthere ⟨i, u, y, hi, hcy⟩), drop_of_absent habsent']
    exact ⟨h, rfl⟩

/-- An action about a table does the same to caches that are alike there. -/
theorem step (h : Alike F G p k k') (hk : k.WellFormed) (hk' : k'.WellFormed)
    (hnew : NamesNext F k k') (hback : NamesNext G k' k) (ht : p t) (ha : k.about a = some t) :
    Alike F G p (k.step a).1 (k'.step (a.rename F)).1
      ∧ (k'.step (a.rename F)).2 = (k.step a).2.map (CacheEvent.rename F) := by
  cases a with
  | call u =>
    cases ha
    exact h.call hk hk' hnew hback ht
  | settle q e => exact h.settle hk hk' hnew.query hback.query ht ha e
  | drop c => exact h.drop hk hk' hnew.query hback.query ht ha
  | cached u =>
    cases ha
    refine ⟨h, ?_⟩
    simp [SchemaCache.step, CacheAction.rename, CacheEvent.rename, h.cached_eq hk hk' ht]
  | invalidate u =>
    cases ha
    refine ⟨h.invalidate t, ?_⟩
    simp [SchemaCache.step, CacheAction.rename, CacheEvent.rename, h.cached_eq hk hk' ht]
  | size => cases ha

end Alike

/-! ## The next names -/

theorem sameNames_grow (F : Naming) (p : TableId → Prop) (k k' : SchemaCache) :
    SameNames F (F.grow k k') p k where
  cell _ _ _ hi := (Function.update_of_ne (Nat.ne_of_lt (cellTable?_lt hi)) _ _).symm
  call _ _ _ hc := (Function.update_of_ne (Nat.ne_of_lt (callTable?_lt hc)) _ _).symm
  query _ _ _ hq := (Function.update_of_ne (Nat.ne_of_lt (queryTable?_lt hq)) _ _).symm

theorem namesNext_grow (F : Naming) (k k' : SchemaCache) : NamesNext (F.grow k k') k k' :=
  ⟨Function.update_self _ _ _, Function.update_self _ _ _, Function.update_self _ _ _⟩

theorem SameNames.rename_action {F' : Naming} (h : SameNames F F' p k) (ht : p t)
    (ha : k.about a = some t) : a.rename F = a.rename F' := by
  cases a with
  | settle q e => simp only [CacheAction.rename, h.query q t ht ha]
  | drop c => simp only [CacheAction.rename, h.call c t ht ha]
  | call | cached | invalidate | size => rfl

/-- An action about a table does the same to caches that are alike there, once the next names are
taken for each other. -/
theorem Alike.step_grow (h : Alike F G p k k') (hk : k.WellFormed) (hk' : k'.WellFormed) (ht : p t)
    (ha : k.about a = some t) :
    Alike (F.grow k k') (G.grow k' k) p (k.step a).1 (k'.step (a.rename F)).1
      ∧ (k'.step (a.rename F)).2 = (k.step a).2.map (CacheEvent.rename (F.grow k k')) := by
  have hsame := sameNames_grow F p k k'
  rw [hsame.rename_action ht ha]
  exact (h.congr hk hk' hsame (sameNames_grow G p k' k)).step hk hk' (namesNext_grow F k k')
    (namesNext_grow G k' k) ht ha

end Step

end SchemaCache

end TableCapture
