import Mathlib.Data.List.Basic

/-!
# Runs of a partial step function

A system is a step function `σ → α → Option σ`: `none` says that the action
is not enabled. A run is a list of actions folded through it. Two induction
rules carry every invariant of the development: one for all runs, one for the
runs whose steps all meet a condition on the state *before* the step.
-/

namespace Runs

variable {σ α : Type*} {step : σ → α → Option σ}

/-- `as` leads from `s` to `t`. -/
def Run (step : σ → α → Option σ) (s : σ) (as : List α) (t : σ) : Prop :=
  as.foldlM step s = some t

/-- Some run from `s` ends in `t`. -/
def Reaches (step : σ → α → Option σ) (s t : σ) : Prop :=
  ∃ as, Run step s as t

/-- Every step of the run `as` from `s` meets `C`, a condition on the state
before the step and the action taken there. -/
def Meets (step : σ → α → Option σ) (C : σ → α → Prop) : σ → List α → Prop
  | _, [] => True
  | s, a :: as => C s a ∧ ∀ t, step s a = some t → Meets step C t as

instance (step : σ → α → Option σ) (C : σ → α → Prop)
    [∀ s a, Decidable (C s a)] :
    ∀ (s : σ) (as : List α), Decidable (Meets step C s as)
  | _, [] => isTrue trivial
  | s, a :: as =>
      match h : step s a with
      | none => decidable_of_iff (C s a)
          ⟨fun hC => ⟨hC, fun t ht => by rw [h] at ht; cases ht⟩, And.left⟩
      | some t =>
          have : Decidable (Meets step C t as) :=
            instDecidableMeets step C t as
          decidable_of_iff (C s a ∧ Meets step C t as)
            ⟨fun hC => ⟨hC.1, fun u hu => by
                rw [h] at hu
                cases hu
                exact hC.2⟩,
              fun hC => ⟨hC.1, hC.2 t h⟩⟩

theorem run_nil {s t : σ} : Run step s [] t ↔ s = t := by
  simp [Run]

theorem run_cons {s t : σ} {a : α} {as : List α} :
    Run step s (a :: as) t ↔ ∃ u, step s a = some u ∧ Run step u as t :=
  Option.bind_eq_some_iff

theorem run_append {s t : σ} {as bs : List α} :
    Run step s (as ++ bs) t ↔ ∃ u, Run step s as u ∧ Run step u bs t := by
  induction as generalizing s with
  | nil => simp [run_nil]
  | cons a as ih =>
      rw [List.cons_append, run_cons]
      constructor
      · rintro ⟨v, hv, hrest⟩
        obtain ⟨u, hu, hbs⟩ := ih.mp hrest
        exact ⟨u, run_cons.mpr ⟨v, hv, hu⟩, hbs⟩
      · rintro ⟨u, hu, hbs⟩
        obtain ⟨v, hv, hvu⟩ := run_cons.mp hu
        exact ⟨v, hv, ih.mpr ⟨u, hvu, hbs⟩⟩

theorem run_snoc {s t : σ} {a : α} {as : List α} :
    Run step s (as ++ [a]) t ↔ ∃ u, Run step s as u ∧ step u a = some t := by
  rw [run_append]
  constructor
  · rintro ⟨u, hu, hlast⟩
    obtain ⟨v, hv, hnil⟩ := run_cons.mp hlast
    exact ⟨u, hu, by rw [hv, run_nil.mp hnil]⟩
  · rintro ⟨u, hu, hlast⟩
    exact ⟨u, hu, run_cons.mpr ⟨t, hlast, run_nil.mpr rfl⟩⟩

theorem Reaches.trans {s t u : σ} (h : Reaches step s t)
    (h' : Reaches step t u) : Reaches step s u := by
  obtain ⟨as, has⟩ := h
  obtain ⟨bs, hbs⟩ := h'
  exact ⟨as ++ bs, run_append.mpr ⟨t, has, hbs⟩⟩

/-- **Invariant rule for conditioned runs**: what every step that meets `C`
preserves, every run whose steps all meet `C` preserves. -/
theorem run_preserves_of_meets {C : σ → α → Prop} {I : σ → Prop}
    (hstep : ∀ s a t, I s → C s a → step s a = some t → I t)
    {as : List α} {s t : σ} (hI : I s) (hC : Meets step C s as)
    (hrun : Run step s as t) : I t := by
  induction as generalizing s with
  | nil =>
      rw [← run_nil.mp hrun]
      exact hI
  | cons a as ih =>
      obtain ⟨u, hu, hrest⟩ := run_cons.mp hrun
      exact ih (hstep s a u hI hC.1 hu) (hC.2 u hu) hrest

theorem meets_trivial (as : List α) (s : σ) :
    Meets step (fun _ _ => True) s as := by
  induction as generalizing s with
  | nil => trivial
  | cons a as ih => exact ⟨trivial, fun t _ => ih t⟩

theorem meets_of_mem {D : α → Prop} {as : List α} (h : ∀ a ∈ as, D a) (s : σ) :
    Meets step (fun _ a => D a) s as := by
  induction as generalizing s with
  | nil => trivial
  | cons a as ih =>
      exact ⟨h a (by simp), fun t _ => ih (fun b hb => h b (by simp [hb])) t⟩

/-- **Invariant rule**: what every step preserves, every run preserves. -/
theorem run_preserves {I : σ → Prop}
    (hstep : ∀ s a t, I s → step s a = some t → I t)
    {as : List α} {s t : σ} (hI : I s) (hrun : Run step s as t) : I t :=
  run_preserves_of_meets (fun s a t hs _ => hstep s a t hs) hI
    (meets_trivial as s) hrun

theorem Reaches.preserves {I : σ → Prop} {s t : σ} (h : Reaches step s t)
    (hstep : ∀ s a t, I s → step s a = some t → I t) (hI : I s) : I t := by
  obtain ⟨as, has⟩ := h
  exact run_preserves hstep hI has

/-- A run of steps that each use something up is no longer than there is of
it. -/
theorem Run.length_le {C : α → Prop} {m : σ → ℕ}
    (hdec : ∀ s a t, C a → step s a = some t → m t < m s) {as : List α}
    {s t : σ} (has : ∀ a ∈ as, C a) (hrun : Run step s as t) :
    as.length + m t ≤ m s := by
  induction as generalizing s with
  | nil =>
      rw [run_nil.mp hrun, List.length_nil]
      omega
  | cons a as ih =>
      obtain ⟨u, hu, hrest⟩ := run_cons.mp hrun
      have hlt := hdec s a u (has a List.mem_cons_self) hu
      have hle := ih (fun b hb => has b (List.mem_cons_of_mem a hb)) hrest
      rw [List.length_cons]
      omega

/-- **Rule for steps that may fail**: a step that agrees with a total function
up to the `N`-th state, under an invariant that counts the steps, makes every
run that is short enough. -/
theorem run_foldl {I : ℕ → σ → Prop} {f : σ → α → σ} {N : ℕ}
    (hstep : ∀ n s a, n < N → I n s → step s a = some (f s a) ∧ I (n + 1) (f s a))
    {n : ℕ} {as : List α} {s : σ} (hlen : n + as.length ≤ N) (hI : I n s) :
    Run step s as (as.foldl f s) := by
  induction as generalizing n s with
  | nil => exact run_nil.mpr rfl
  | cons a as ih =>
      rw [List.length_cons] at hlen
      obtain ⟨hs, hnext⟩ := hstep n s a (by omega) hI
      exact run_cons.mpr ⟨f s a, hs, ih (by omega) hnext⟩

/-- Two conditions that agree wherever an invariant holds are met by the same
runs, among those that meet `V`; a step need keep the invariant only if it
meets them. -/
theorem meets_congr_on {V C D : σ → α → Prop} {I : σ → Prop}
    (hiff : ∀ s a, I s → V s a → (C s a ↔ D s a))
    (hstep : ∀ s a t, I s → V s a → C s a → step s a = some t → I t)
    {as : List α} {s : σ} (hI : I s) (hV : Meets step V s as) :
    Meets step C s as ↔ Meets step D s as := by
  induction as generalizing s with
  | nil => exact Iff.rfl
  | cons a as ih =>
      -- the rest of the run starts in the invariant only if this step meets `C`
      have hrest : C s a → ∀ t, step s a = some t →
          (Meets step C t as ↔ Meets step D t as) :=
        fun hC t ht => ih (hstep s a t hI hV.1 hC ht) (hV.2 t ht)
      constructor
      · rintro ⟨hC, htail⟩
        exact ⟨(hiff s a hI hV.1).mp hC,
          fun t ht => (hrest hC t ht).mp (htail t ht)⟩
      · rintro ⟨hD, htail⟩
        have hC := (hiff s a hI hV.1).mpr hD
        exact ⟨hC, fun t ht => (hrest hC t ht).mpr (htail t ht)⟩

theorem meets_congr {C D : σ → α → Prop} {I : σ → Prop}
    (hiff : ∀ s a, I s → (C s a ↔ D s a))
    (hstep : ∀ s a t, I s → C s a → step s a = some t → I t)
    {as : List α} {s : σ} (hI : I s) :
    Meets step C s as ↔ Meets step D s as :=
  meets_congr_on (fun s a hs _ => hiff s a hs)
    (fun s a t hs _ => hstep s a t hs) hI (meets_trivial as s)

/-- A run that makes `P` true has a step that does. -/
theorem Run.flips {P : σ → Prop} {as : List α} {s t : σ}
    (hrun : Run step s as t) (hs : ¬ P s) (ht : P t) :
    ∃ as₁ a as₂ u u', as = as₁ ++ a :: as₂ ∧ Run step s as₁ u ∧
      step u a = some u' ∧ Run step u' as₂ t ∧ ¬ P u ∧ P u' := by
  induction as generalizing s with
  | nil =>
      rw [run_nil.mp hrun] at hs
      exact absurd ht hs
  | cons a as ih =>
      obtain ⟨v, hv, hrest⟩ := run_cons.mp hrun
      by_cases hPv : P v
      · exact ⟨[], a, as, s, v, rfl, run_nil.mpr rfl, hv, hrest, hs, hPv⟩
      · obtain ⟨as₁, b, as₂, u, u', rfl, hu, hstep, hlast, hPu, hPu'⟩ :=
          ih hrest hPv
        exact ⟨a :: as₁, b, as₂, u, u', rfl, run_cons.mpr ⟨v, hv, hu⟩, hstep,
          hlast, hPu, hPu'⟩

/-- What the rest of a conditioned run meets. -/
theorem Meets.after {C : σ → α → Prop} {as bs : List α} {s t : σ}
    (h : Meets step C s (as ++ bs)) (hrun : Run step s as t) :
    Meets step C t bs := by
  induction as generalizing s with
  | nil =>
      rw [← run_nil.mp hrun]
      exact h
  | cons a as ih =>
      obtain ⟨u, hu, hrest⟩ := run_cons.mp hrun
      exact ih (h.2 u hu) hrest

theorem meets_append {C : σ → α → Prop} {as bs : List α} {s t : σ}
    (hrun : Run step s as t) :
    Meets step C s (as ++ bs) ↔ Meets step C s as ∧ Meets step C t bs := by
  induction as generalizing s with
  | nil =>
      rw [← run_nil.mp hrun]
      exact ⟨fun h => ⟨trivial, h⟩, And.right⟩
  | cons a as ih =>
      obtain ⟨u, hu, hrest⟩ := run_cons.mp hrun
      constructor
      · rintro ⟨ha, htail⟩
        obtain ⟨has, hbs⟩ := (ih hrest).mp (htail u hu)
        refine ⟨⟨ha, fun v hv => ?_⟩, hbs⟩
        cases hu.symm.trans hv
        exact has
      · rintro ⟨⟨ha, htail⟩, hbs⟩
        refine ⟨ha, fun v hv => ?_⟩
        cases hu.symm.trans hv
        exact (ih hrest).mpr ⟨htail u hu, hbs⟩

theorem meets_snoc {C : σ → α → Prop} {as : List α} {s t : σ} {a : α}
    (hrun : Run step s as t) :
    Meets step C s (as ++ [a]) ↔ Meets step C s as ∧ C t a := by
  induction as generalizing s with
  | nil =>
      rw [← run_nil.mp hrun]
      exact ⟨fun h => ⟨trivial, h.1⟩, fun h => ⟨h.2, fun _ _ => trivial⟩⟩
  | cons b as ih =>
      obtain ⟨u, hu, hrest⟩ := run_cons.mp hrun
      constructor
      · rintro ⟨hb, htail⟩
        obtain ⟨has, ha⟩ := (ih hrest).mp (htail u hu)
        refine ⟨⟨hb, fun v hv => ?_⟩, ha⟩
        cases hu.symm.trans hv
        exact has
      · rintro ⟨⟨hb, htail⟩, ha⟩
        refine ⟨hb, fun v hv => ?_⟩
        cases hu.symm.trans hv
        exact (ih hrest).mpr ⟨htail u hu, ha⟩

theorem Meets.mono {C D : σ → α → Prop} (hCD : ∀ s a, C s a → D s a)
    {as : List α} {s : σ} (h : Meets step C s as) : Meets step D s as := by
  induction as generalizing s with
  | nil => trivial
  | cons a as ih => exact ⟨hCD s a h.1, fun t ht => ih (h.2 t ht)⟩

/-! ## Simulation -/

section Simulation

variable {τ β : Type*} {step' : τ → β → Option τ}

/-- `R` is a forward simulation: what the one system does in a step that meets
`C`, the other does in a run, and `R` holds again. -/
def Simulates (step : σ → α → Option σ) (C : σ → α → Prop)
    (step' : τ → β → Option τ) (R : σ → τ → Prop) : Prop :=
  ∀ s a s' t, R s t → C s a → step s a = some s' →
    ∃ bs t', Run step' t bs t' ∧ R s' t'

/-- **Simulation rule**: a run whose steps meet `C` has its counterpart. -/
theorem Simulates.run {C : σ → α → Prop} {R : σ → τ → Prop}
    (h : Simulates step C step' R) {as : List α} {s s' : σ} {t : τ}
    (hR : R s t) (hC : Meets step C s as) (hrun : Run step s as s') :
    ∃ t', Reaches step' t t' ∧ R s' t' := by
  induction as generalizing s t with
  | nil =>
      rw [← run_nil.mp hrun]
      exact ⟨t, ⟨[], run_nil.mpr rfl⟩, hR⟩
  | cons a as ih =>
      obtain ⟨u, hu, hrest⟩ := run_cons.mp hrun
      obtain ⟨bs, v, hv, hR'⟩ := h s a u t hR hC.1 hu
      obtain ⟨t', ht', hR''⟩ := ih hR' (hC.2 u hu) hrest
      exact ⟨t', Reaches.trans ⟨bs, hv⟩ ht', hR''⟩

end Simulation

/-! ## Endless runs -/

/-- The actions `as` lead through the states `ss` for ever. -/
def Endless (step : σ → α → Option σ) (ss : ℕ → σ) (as : ℕ → α) : Prop :=
  ∀ n, step (ss n) (as n) = some (ss (n + 1))

/-- A run that can go on from wherever it gets is endless. -/
theorem exists_endless {I : ℕ → σ → Prop} {as : ℕ → α}
    (hstep : ∀ n s, I n s → ∃ t, step s (as n) = some t ∧ I (n + 1) t) {s : σ}
    (hI : I 0 s) :
    ∃ ss, ss 0 = s ∧ Endless step ss as ∧ ∀ n, I n (ss n) := by
  have : Nonempty σ := ⟨s⟩
  choose! next hnext using hstep
  let ss : ℕ → σ := fun n => Nat.rec s (fun n t => next n t) n
  have hall : ∀ n, I n (ss n) := by
    intro n
    induction n with
    | zero => exact hI
    | succ n ih => exact (hnext n _ ih).2
  exact ⟨ss, rfl, fun n => (hnext n _ (hall n)).1, hall⟩

theorem Endless.preserves {I : σ → Prop} {ss : ℕ → σ} {as : ℕ → α}
    (h : Endless step ss as)
    (hstep : ∀ s a t, I s → step s a = some t → I t) (hI : I (ss 0)) (n : ℕ) :
    I (ss n) := by
  induction n with
  | zero => exact hI
  | succ n ih => exact hstep _ _ _ ih (h n)

/-- An endless run may have a beginning. -/
theorem Endless.prepend {ss : ℕ → σ} {as : ℕ → α} (h : Endless step ss as)
    {bs : List α} {s : σ} (hrun : Run step s bs (ss 0)) :
    ∃ ss' as', ss' 0 = s ∧ Endless step ss' as' ∧
      (∀ n, ss' (n + bs.length) = ss n ∧ as' (n + bs.length) = as n) ∧
      ∀ n, n < bs.length → as' n ∈ bs := by
  induction bs generalizing s with
  | nil =>
      exact ⟨ss, as, (run_nil.mp hrun).symm, h, fun n => ⟨rfl, rfl⟩,
        fun n hn => absurd hn (Nat.not_lt_zero n)⟩
  | cons b bs ih =>
      obtain ⟨u, hu, hrest⟩ := run_cons.mp hrun
      obtain ⟨ss', as', rfl, hend, hsame, hbefore⟩ := ih hrest
      refine ⟨fun n => n.casesOn s ss', fun n => n.casesOn b as', rfl, ?_,
        hsame, ?_⟩
      · intro n
        cases n with
        | zero => exact hu
        | succ n => exact hend n
      · intro n hn
        cases n with
        | zero => exact List.mem_cons_self
        | succ n =>
            exact List.mem_cons_of_mem b (hbefore n (Nat.lt_of_succ_lt_succ hn))

end Runs
