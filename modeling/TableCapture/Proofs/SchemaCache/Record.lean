import TableCapture.Proofs.SchemaCache.Growth

/-!
# The cache and what is recorded of it

The events that came of all actions so far tell which calls are over (`Ended`), and this agrees
with the cells: the calls at a cell are exactly the calls that were given it and are not over. The
events also tell which call asked which query for which table, every answer with a schema is the
schema in the cell of its call, and a cell where a call has got an error belongs to no table any
longer (`Recorded`). An action keeps this agreement (`Recorded.transition`), because at the one
cell where it happens the calls are those that were there and the one that has just come, less
those that are over by it (`Transition.callers`).
-/

namespace TableCapture

deriving instance DecidableEq for CacheEvent

/-- The call that an event ends. -/
def CacheEvent.ended? : CacheEvent → Option Nat
  | answered call _ => some call
  | dropped call => some call
  | _ => none

namespace SchemaCache

/-- A call is over. -/
def Ended (log : List CacheEvent) (c : Nat) : Prop :=
  ∃ e ∈ log, e.ended? = some c

instance (log : List CacheEvent) (c : Nat) : Decidable (Ended log c) :=
  inferInstanceAs (Decidable (∃ e ∈ log, e.ended? = some c))

section Ended

variable {log es : List CacheEvent} {c d : Nat}

@[simp]
theorem not_ended_nil : ¬ Ended [] c := by
  simp [Ended]

@[simp]
theorem ended_cons {e : CacheEvent} : Ended (e :: es) c ↔ e.ended? = some c ∨ Ended es c := by
  simp [Ended]

@[simp]
theorem ended_append : Ended (log ++ es) c ↔ Ended log c ∨ Ended es c := by
  simp [Ended, or_and_right, exists_or]

@[simp]
theorem ended_answers {r : Except SchemaError SharedSchema} {w : List Nat} :
    Ended (w.map fun x => .answered x r) c ↔ c ∈ w := by
  simp [Ended, CacheEvent.ended?]

theorem ended_of_answered {r : Except SchemaError SharedSchema} (h : .answered c r ∈ log) :
    Ended log c :=
  ⟨_, h, rfl⟩

/-- Handing on ends no call. -/
theorem not_ended_passOn {k : SchemaCache} {i : Nat} {t : TableId} {w : List Nat} :
    ¬ Ended (k.passOn i t w).2 c := by
  cases w with
  | nil => exact not_ended_nil
  | cons d w => simp [passOn_cons, ask, CacheEvent.ended?]

end Ended

/-! ## The calls at a cell -/

section Callers

variable {k k' : SchemaCache} {a : CacheAction} {es : List CacheEvent}

/-- The calls at a cell later are those that were there and those that have come, less those that
are over. -/
def CallersStep (k k' : SchemaCache) (es : List CacheEvent) : Prop :=
  ∀ (j : Nat) t y', k'.cells[j]? = some ⟨t, y'⟩ → ∀ c, c ∈ y'.callers ↔
    ((∃ y, k.cells[j]? = some ⟨t, y⟩ ∧ c ∈ y.callers)
      ∨ (k.calls.length ≤ c ∧ k'.calls[c]? = some j)) ∧ ¬ Ended es c

theorem callersStep_of_put {i : Nat} {u : TableId} {x y : CellContent} (hk : k.WellFormed)
    (hi : k.cells[i]? = some ⟨u, x⟩) (hcells : k'.cells = (k.put i y).cells)
    (hnew : ∀ c j, k.calls.length ≤ c → k'.calls[c]? = some j → j = i)
    (hend : ∀ c, Ended es c → c ∈ x.callers ∨ k.calls.length ≤ c)
    (hy : ∀ c, c ∈ y.callers ↔
      (c ∈ x.callers ∨ (k.calls.length ≤ c ∧ k'.calls[c]? = some i)) ∧ ¬ Ended es c) :
    CallersStep k k' es := by
  intro j t y' hj c
  rw [hcells] at hj
  rcases cells_put.1 hj with ⟨rfl, rfl, z, hz⟩ | ⟨hij, hj⟩
  · obtain ⟨rfl, rfl⟩ := table_unique hi hz
    rw [hy c, hi]
    simp
  · constructor
    · intro hc
      have hcall := (hk.fits j t y' hj).call_of_mem hc
      refine ⟨.inl ⟨y', hj, hc⟩, fun he => ?_⟩
      rcases hend c he with hx | hle
      · -- No call is at two cells.
        have := (hk.fits i u x hi).call_of_mem hx
        rw [hcall] at this
        exact hij (Option.some.inj this).symm
      · have := (List.getElem?_eq_some_iff.1 hcall).1
        omega
    · rintro ⟨⟨z, hz, hc⟩ | ⟨hle, hc⟩, -⟩
      · rw [(table_unique hj hz).2]
        exact hc
      · exact absurd (hnew c j hle hc).symm hij

theorem not_call_length {c j : Nat} (hc : k.calls.length ≤ c) : k.calls[c]? ≠ some j := by
  rw [List.getElem?_eq_none hc]
  simp

/-- Nobody comes to the cell. -/
theorem callersStep_put {i : Nat} {u : TableId} {x y : CellContent} (hk : k.WellFormed)
    (hi : k.cells[i]? = some ⟨u, x⟩) (hcells : k'.cells = (k.put i y).cells)
    (hcalls : k'.calls = k.calls) (hend : ∀ c, Ended es c → c ∈ x.callers)
    (hy : ∀ c, c ∈ y.callers ↔ c ∈ x.callers ∧ ¬ Ended es c) : CallersStep k k' es := by
  refine callersStep_of_put hk hi hcells (fun c j hc hj => ?_) (fun c he => .inl (hend c he))
    fun c => ?_
  · rw [hcalls] at hj
    exact absurd hj (not_call_length hc)
  · rw [hy, hcalls]
    constructor
    · rintro ⟨hx, he⟩
      exact ⟨.inl hx, he⟩
    · rintro ⟨hx | ⟨hle, hc⟩, he⟩
      · exact ⟨hx, he⟩
      · exact absurd hc (not_call_length hle)

/-- A call comes to the cell. -/
theorem callersStep_come {i : Nat} {u : TableId} {x y : CellContent} (hk : k.WellFormed)
    (hi : k.cells[i]? = some ⟨u, x⟩) (hcells : k'.cells = (k.put i y).cells)
    (hcalls : k'.calls = k.calls ++ [i]) (hend : ∀ c, Ended es c → c = k.calls.length)
    (hy : ∀ c, c ∈ y.callers ↔ (c ∈ x.callers ∨ c = k.calls.length) ∧ ¬ Ended es c) :
    CallersStep k k' es := by
  have hnew : ∀ {c j}, k.calls.length ≤ c → k'.calls[c]? = some j → c = k.calls.length ∧ j = i := by
    intro c j hle hj
    rw [hcalls] at hj
    obtain ⟨hc, rfl⟩ := eq_of_getElem?_concat hj hle
    exact ⟨hc, rfl⟩
  refine callersStep_of_put hk hi hcells (fun c j hc hj => (hnew hc hj).2)
    (fun c he => .inr (Nat.le_of_eq (hend c he).symm)) fun c => ?_
  rw [hy]
  constructor
  · rintro ⟨hx | rfl, he⟩
    · exact ⟨.inl hx, he⟩
    · exact ⟨.inr ⟨Nat.le_refl _, by rw [hcalls]; exact List.getElem?_concat_length⟩, he⟩
  · rintro ⟨hx | ⟨hle, hc⟩, he⟩
    · exact ⟨.inl hx, he⟩
    · exact ⟨.inr (hnew hle hc).1, he⟩

/-- A cell that a table has just got has nobody at it. -/
theorem enter_callers {i j c : Nat} {t u : TableId} {k₁ : SchemaCache} (he : k.enter t = (i, k₁)) :
    (∃ y, k₁.cells[j]? = some ⟨u, y⟩ ∧ c ∈ y.callers)
      ↔ ∃ y, k.cells[j]? = some ⟨u, y⟩ ∧ c ∈ y.callers := by
  rcases enter_cases he with ⟨-, rfl⟩ | ⟨-, -, rfl⟩
  · rfl
  · constructor
    · rintro ⟨y, hj, hc⟩
      rcases Nat.lt_or_ge j k.cells.length with hlt | hle
      · rw [List.getElem?_append_left hlt] at hj
        exact ⟨y, hj, hc⟩
      · cases (eq_of_getElem?_concat hj hle).2
        simp [CellContent.callers] at hc
    · rintro ⟨y, hj, hc⟩
      exact ⟨y, getElem?_append_of_some hj, hc⟩

theorem CallersStep.of_enter {i : Nat} {t : TableId} {k₁ : SchemaCache}
    (h : CallersStep k₁ k' es) (he : k.enter t = (i, k₁)) : CallersStep k k' es := by
  intro j u y' hj c
  rw [h j u y' hj c, enter_callers he, (enter_calls he).1]

/-- The cell of a call that is over is handed on. -/
theorem callersStep_passOn {i c q : Nat} {t : TableId} {w : List Nat} {e : CacheEvent}
    (hk : k.WellFormed) (hi : k.cells[i]? = some ⟨t, .resolving c q w⟩) (he : e.ended? = some c) :
    CallersStep k (k.passOn i t w).1 (e :: (k.passOn i t w).2) := by
  have hn : (c :: w).Nodup := (hk.fits _ _ _ hi).callers_nodup
  have hcw : c ∉ w := (List.nodup_cons.1 hn).1
  have hend : ∀ x, Ended (e :: (k.passOn i t w).2) x ↔ c = x := fun x => by
    simp [he, not_ended_passOn]
  have hy : ∃ y, (k.passOn i t w).1.cells = (k.put i y).cells ∧ y.callers = w := by
    cases w with
    | nil => exact ⟨.idle, rfl, rfl⟩
    | cons d w => exact ⟨_, rfl, rfl⟩
  obtain ⟨y, hcells, rfl⟩ := hy
  refine callersStep_put hk hi hcells passOn_calls (fun x hx => ?_) fun x => ?_
  · rw [(hend x).1 hx] at hcw ⊢
    exact List.mem_cons_self
  · rw [hend]
    constructor
    · intro hx
      refine ⟨List.mem_cons_of_mem _ hx, ?_⟩
      rintro rfl
      exact hcw hx
    · rintro ⟨hx, hne⟩
      rcases List.mem_cons.1 hx with rfl | hx
      · exact absurd rfl hne
      · exact hx

theorem Transition.callers (h : Transition k a k' es) (hk : k.WellFormed) :
    CallersStep k k' es := by
  have hstill : ∀ k' es, k'.cells = k.cells → k'.calls = k.calls → (∀ c, ¬ Ended es c) →
      CallersStep k k' es := by
    intro k' es hcells hcalls hes j t y' hj c
    rw [hcells] at hj
    rw [hcalls]
    constructor
    · exact fun hc => ⟨.inl ⟨y', hj, hc⟩, hes c⟩
    · rintro ⟨⟨y, hy, hc⟩ | ⟨hle, hc⟩, -⟩
      · rwa [(table_unique hj hy).2]
      · exact absurd hc (not_call_length hle)
  cases h with
  | @hit t i k₁ s he hi =>
    have hend : ∀ c, Ended [.answered k.calls.length (.ok s)] c ↔ k.calls.length = c := fun c => by
      simp [CacheEvent.ended?]
    refine CallersStep.of_enter ?_ he
    refine callersStep_come (hk.of_enter he) hi (cells_put_same hi).symm rfl (fun c hc => ?_)
      fun c => ?_
    · rw [(enter_calls he).1, (hend c).1 hc]
    · rw [(enter_calls he).1, hend]
      simp [CellContent.callers, eq_comm]
  | @began t i k₁ he hi =>
    have hend : ∀ c, ¬ Ended [.asked k.queries.length k.calls.length t] c := fun c => by
      simp [CacheEvent.ended?]
    refine CallersStep.of_enter ?_ he
    refine callersStep_come (y := .resolving k.calls.length k₁.queries.length [])
      (hk.of_enter he) hi rfl rfl (fun c hc => absurd hc (hend c)) fun c => ?_
    simp [CellContent.callers, (enter_calls he).1, hend]
  | @joined t i k₁ d q w he hi =>
    refine CallersStep.of_enter ?_ he
    refine callersStep_come (hk.of_enter he) hi rfl rfl (fun c hc => absurd hc not_ended_nil)
      fun c => ?_
    simp [CellContent.callers, (enter_calls he).1, or_assoc]
  | @filled q e i t c w schema hi he =>
    refine callersStep_put hk hi rfl rfl (fun x hx => ended_answers.1 hx) fun x => ?_
    rw [ended_answers]
    constructor
    · exact fun hx => absurd hx List.not_mem_nil
    · rintro ⟨hx, hne⟩
      exact absurd hx hne
  | failed hi he => exact callersStep_passOn (hk.filter _) hi rfl
  | resigned hi => exact callersStep_passOn hk hi rfl
  | @left i t d q w c hi hc =>
    obtain ⟨hdw, hn⟩ := List.nodup_cons.1 (hk.fits _ _ _ hi).callers_nodup
    have hend : ∀ x, Ended [.dropped c] x ↔ c = x := fun x => by
      simp [CacheEvent.ended?]
    refine callersStep_put hk hi rfl rfl (fun x hx => ?_) fun x => ?_
    · rw [← (hend x).1 hx]
      exact List.mem_cons_of_mem _ hc
    · have hdc : d ≠ c := by
        rintro rfl
        exact hdw hc
      simp only [hend, CellContent.callers, List.mem_cons, hn.mem_erase_iff]
      grind
  | late | absent => exact hstill _ _ rfl rfl fun _ => not_ended_nil
  | seen | counted | invalidated => exact hstill _ _ rfl rfl (by simp [CacheEvent.ended?])

end Callers

/-! ## What comes of an action -/

section Events

variable {k k' : SchemaCache} {a : CacheAction} {es : List CacheEvent}

/-- Either nothing is asked, or the next query is asked by the call that then resolves at its cell,
for the table of the cell. -/
def AsksStep (k k' : SchemaCache) (es : List CacheEvent) : Prop :=
  (k'.queries = k.queries ∧ ∀ q c t, .asked q c t ∉ es)
    ∨ ∃ c t i w, k'.queries = k.queries ++ [c] ∧ k'.calls[c]? = some i
      ∧ k'.cells[i]? = some ⟨t, .resolving c k.queries.length w⟩
      ∧ ∀ q d u, .asked q d u ∈ es ↔ q = k.queries.length ∧ d = c ∧ u = t

theorem asksStep_passOn {i c q : Nat} {t : TableId} {w : List Nat} {e : CacheEvent}
    (hk : k.WellFormed) (hi : k.cells[i]? = some ⟨t, .resolving c q w⟩) (he : e.ended? = some c) :
    AsksStep k (k.passOn i t w).1 (e :: (k.passOn i t w).2) := by
  have hne : ∀ q d u, .asked q d u ≠ e := by
    rintro q d u rfl
    simp [CacheEvent.ended?] at he
  cases w with
  | nil => exact .inl ⟨rfl, fun q d u => by simp [passOn_nil, hne]⟩
  | cons d w =>
    refine .inr ⟨d, t, i, _, rfl, ?_, cells_put_self hi, fun q x u => ?_⟩
    · exact (hk.fits _ _ _ hi).call_of_mem (List.mem_cons_of_mem _ List.mem_cons_self)
    · simp [passOn_cons, ask, hne]

theorem Transition.asks (h : Transition k a k' es) (hk : k.WellFormed) : AsksStep k k' es := by
  cases h with
  | hit he hi => exact .inl ⟨(enter_calls he).2, by simp⟩
  | @began t i k₁ he hi =>
    obtain ⟨hcalls, hqueries⟩ := enter_calls he
    refine .inr ⟨k.calls.length, t, i, [], ?_, ?_, ?_, by simp⟩
    · rw [← hqueries]
      rfl
    · rw [← hcalls]
      exact List.getElem?_concat_length
    · rw [← hqueries]
      exact cells_put_self hi
  | joined he hi => exact .inl ⟨(enter_calls he).2, by simp⟩
  | failed hi he => exact asksStep_passOn (hk.filter _) hi rfl
  | resigned hi => exact asksStep_passOn hk hi rfl
  | filled | late | left | absent | seen | invalidated | counted => exact .inl ⟨rfl, by simp⟩

/-- A call that is over by an action was at a cell, or has just come. -/
theorem Transition.caller_of_ended (h : Transition k a k' es) {c : Nat} (hc : Ended es c) :
    (∃ (i : Nat) (t : TableId) (y : CellContent), k.cells[i]? = some ⟨t, y⟩ ∧ c ∈ y.callers)
      ∨ (∃ t, a = .call t) ∧ c = k.calls.length := by
  cases h with
  | hit he hi =>
    simp only [ended_cons, CacheEvent.ended?, Option.some.injEq, not_ended_nil, or_false] at hc
    exact .inr ⟨⟨_, rfl⟩, hc.symm⟩
  | filled hi he => exact .inl ⟨_, _, _, hi, ended_answers.1 hc⟩
  | failed hi he | resigned hi =>
    simp only [ended_cons, CacheEvent.ended?, Option.some.injEq, not_ended_passOn, or_false] at hc
    exact .inl ⟨_, _, _, hi, hc ▸ List.mem_cons_self⟩
  | left hi hw =>
    simp only [ended_cons, CacheEvent.ended?, Option.some.injEq, not_ended_nil, or_false] at hc
    exact .inl ⟨_, _, _, hi, hc ▸ List.mem_cons_of_mem _ hw⟩
  | began | joined | late | absent | seen | invalidated | counted =>
    simp [CacheEvent.ended?] at hc

theorem Transition.ended_lt (h : Transition k a k' es) (hk : k.WellFormed) {c : Nat}
    (hc : Ended es c) : c < k'.calls.length := by
  rcases h.caller_of_ended hc with ⟨i, t, y, hi, hy⟩ | ⟨⟨t, rfl⟩, rfl⟩
  · have hcall := (hk.fits i t y hi).call_of_mem hy
    exact (List.getElem?_eq_some_iff.1 (h.grows.call hcall)).1
  · obtain ⟨i, k₁, -, -, -, -, hcalls⟩ := h.of_call
    rw [hcalls, List.length_append, List.length_singleton]
    omega

/-- Whoever is answered with a schema has it in its cell. -/
theorem Transition.ok_cell (h : Transition k a k' es) (hk : k.WellFormed) {c : Nat}
    {s : SharedSchema} (hc : .answered c (.ok s) ∈ es) :
    ∃ i t, k'.calls[c]? = some i ∧ k'.cells[i]? = some ⟨t, .filled s⟩ := by
  cases h with
  | @hit t i k₁ s' he hi =>
    simp only [List.mem_singleton, CacheEvent.answered.injEq, Except.ok.injEq] at hc
    obtain ⟨rfl, rfl⟩ := hc
    rw [← (enter_calls he).1]
    exact ⟨i, t, List.getElem?_concat_length, hi⟩
  | @filled q e i t d w schema hi he =>
    obtain ⟨x, hx, hxc⟩ := List.mem_map.1 hc
    simp only [CacheEvent.answered.injEq, Except.ok.injEq] at hxc
    obtain ⟨rfl, rfl⟩ := hxc
    exact ⟨i, t, (hk.fits _ _ _ hi).call_of_mem hx, cells_put_self hi⟩
  | @failed q e i t d w err hi he => cases w <;> simp [passOn_nil, passOn_cons, ask] at hc
  | @resigned i t d q w hi => cases w <;> simp [passOn_nil, passOn_cons, ask] at hc
  | began | joined | late | left | absent | seen | invalidated | counted => simp at hc

/-- The cell of a call that gets an error belongs to no table any longer. -/
theorem Transition.error_cell (h : Transition k a k' es) (hk : k.WellFormed) {c i : Nat}
    {err : SchemaError} (hc : .answered c (.error err) ∈ es) (hi : k'.calls[c]? = some i)
    (t : TableId) : (t, i) ∉ k'.entries := by
  cases h with
  | @failed q e j u d w err' hj he =>
    have hcd : c = d := by
      cases w <;> simp [passOn_nil, passOn_cons, ask] at hc <;> exact hc.1
    subst hcd
    rw [passOn_calls] at hi
    have := (hk.fits _ _ _ hj).call_of_mem List.mem_cons_self
    rw [show k.calls[c]? = some i from hi] at this
    rw [passOn_entries, Option.some.inj this]
    simp [detach]
  | @resigned j u d q w hj => cases w <;> simp [passOn_nil, passOn_cons, ask] at hc
  | hit | began | joined | filled | late | left | absent | seen | invalidated | counted =>
    simp at hc

end Events

/-! ## The record -/

/-- What is recorded agrees with the cache. -/
structure Recorded (k : SchemaCache) (log : List CacheEvent) : Prop where
  caller_open : ∀ (i : Nat) t y, k.cells[i]? = some ⟨t, y⟩ → ∀ c ∈ y.callers, ¬ Ended log c
  open_caller : ∀ c i, k.calls[c]? = some i → ¬ Ended log c →
    ∃ t y, k.cells[i]? = some ⟨t, y⟩ ∧ c ∈ y.callers
  ended_lt : ∀ c, Ended log c → c < k.calls.length
  asked_query : ∀ q c t, .asked q c t ∈ log →
    k.queries[q]? = some c ∧ ∃ i y, k.calls[c]? = some i ∧ k.cells[i]? = some ⟨t, y⟩
  query_asked : ∀ q c, k.queries[q]? = some c → ∃ t, .asked q c t ∈ log
  ok_cell : ∀ c s, .answered c (.ok s) ∈ log →
    ∃ i t, k.calls[c]? = some i ∧ k.cells[i]? = some ⟨t, .filled s⟩
  error_cell : ∀ c err, .answered c (.error err) ∈ log → ∀ i, k.calls[c]? = some i →
    ∀ t, (t, i) ∉ k.entries

namespace Recorded

variable {k k' : SchemaCache} {a : CacheAction} {log es : List CacheEvent}

theorem empty : Recorded .empty [] where
  caller_open i t y hi := by simp [SchemaCache.empty] at hi
  open_caller c i hi := by simp [SchemaCache.empty] at hi
  ended_lt c hc := absurd hc not_ended_nil
  asked_query q c t h := by simp at h
  query_asked q c h := by simp [SchemaCache.empty] at h
  ok_cell c s h := by simp at h
  error_cell c err h := by simp at h

theorem transition (h : Recorded k log) (hk : k.WellFormed) (ht : Transition k a k' es) :
    Recorded k' (log ++ es) where
  caller_open i t y hi c hc := by
    obtain ⟨hold, hes⟩ := (ht.callers hk i t y hi c).1 hc
    rw [ended_append, not_or]
    refine ⟨?_, hes⟩
    rcases hold with ⟨y₀, hy₀, hc₀⟩ | ⟨hle, -⟩
    · exact h.caller_open i t y₀ hy₀ c hc₀
    · exact fun he => Nat.not_lt.2 hle (h.ended_lt c he)
  open_caller c i hi hc := by
    rw [ended_append, not_or] at hc
    obtain ⟨t, y, hy⟩ := (ht.wellFormed hk).cell_of_call hi
    refine ⟨t, y, hy, (ht.callers hk i t y hy c).2 ⟨?_, hc.2⟩⟩
    rcases Nat.lt_or_ge c k.calls.length with hlt | hle
    · obtain ⟨u, y₀, hy₀, hc₀⟩ := h.open_caller c i (ht.grows.call_of_lt hlt hi) hc.1
      have := ht.grows.table_eq hy₀ hy
      subst this
      exact .inl ⟨y₀, hy₀, hc₀⟩
    · exact .inr ⟨hle, hi⟩
  ended_lt c hc := by
    rcases ended_append.1 hc with hc | hc
    · exact Nat.lt_of_lt_of_le (h.ended_lt c hc) ht.grows.calls.length_le
    · exact ht.ended_lt hk hc
  asked_query q c t hq := by
    rcases List.mem_append.1 hq with hq | hq
    · obtain ⟨hq, i, y, hc, hi⟩ := h.asked_query q c t hq
      obtain ⟨y', hi', -⟩ := ht.grows.cell i t y hi
      exact ⟨ht.grows.query hq, i, y', ht.grows.call hc, hi'⟩
    · rcases ht.asks hk with ⟨-, hno⟩ | ⟨d, u, i, w, hqs, hc, hi, hiff⟩
      · exact absurd hq (hno q c t)
      · obtain ⟨rfl, rfl, rfl⟩ := (hiff q c t).1 hq
        exact ⟨by rw [hqs]; exact List.getElem?_concat_length, i, _, hc, hi⟩
  query_asked q c hq := by
    rcases ht.asks hk with ⟨hqs, -⟩ | ⟨d, u, i, w, hqs, hc, hi, hiff⟩
    · rw [hqs] at hq
      obtain ⟨t, hq⟩ := h.query_asked q c hq
      exact ⟨t, List.mem_append_left _ hq⟩
    · rw [hqs] at hq
      rcases Nat.lt_or_ge q k.queries.length with hlt | hle
      · rw [List.getElem?_append_left hlt] at hq
        obtain ⟨t, hq⟩ := h.query_asked q c hq
        exact ⟨t, List.mem_append_left _ hq⟩
      · obtain ⟨rfl, rfl⟩ := eq_of_getElem?_concat hq hle
        exact ⟨u, List.mem_append_right _ ((hiff _ _ _).2 ⟨rfl, rfl, rfl⟩)⟩
  ok_cell c s hc := by
    rcases List.mem_append.1 hc with hc | hc
    · obtain ⟨i, t, hci, hi⟩ := h.ok_cell c s hc
      exact ⟨i, t, ht.grows.call hci, ht.grows.filled hi⟩
    · exact ht.ok_cell hk hc
  error_cell c err hc i hi t hti := by
    rcases List.mem_append.1 hc with hc | hc
    · have hci := ht.grows.call_of_lt (h.ended_lt c (ended_of_answered hc)) hi
      rcases ht.grows.entry _ hti with hti | hle
      · exact h.error_cell c err hc i hci t hti
      · have := hk.call_lt i (List.mem_of_getElem? hci)
        omega
    · exact ht.error_cell hk hc hi t hti

end Recorded

end SchemaCache

end TableCapture
