import Mathlib.Data.Option.Basic
import Mathlib.Data.List.Basic
import Mathlib.Order.WellFounded
import Mathlib.Data.Set.Operations
import Mathlib.Order.Monotone.Basic

namespace Runs

variable {σ ε : Type*}

/-- A run of a partial step function: `none` as soon as one event is not enabled. -/
def run (step : σ → ε → Option σ) : σ → List ε → Option σ
  | s, [] => some s
  | s, e :: es => (step s e).bind fun s' => run step s' es

@[simp] theorem run_nil (step : σ → ε → Option σ) (s : σ) : run step s [] = some s := rfl

theorem run_cons {step : σ → ε → Option σ} {s s' : σ} {e : ε} {es : List ε} :
    run step s (e :: es) = some s' ↔ ∃ t, step s e = some t ∧ run step t es = some s' := by
  simp [run, Option.bind_eq_some_iff]

theorem run_append (step : σ → ε → Option σ) (s : σ) (es more : List ε) :
    run step s (es ++ more) = (run step s es).bind fun t => run step t more := by
  induction es generalizing s with
  | nil => rfl
  | cons e es ih =>
    simp only [List.cons_append, run]
    cases step s e with
    | none => rfl
    | some t => exact ih t

/-- A system follows another one if for each step of the other it has a run that ends in a
related state; then it follows every run. -/
theorem simulated {τ δ : Type*} {step : σ → ε → Option σ} {fine : τ → δ → Option τ}
    {R : τ → σ → Prop} (follow : ∀ t e t' s, R t s → fine t e = some t' →
      ∃ es s', run step s es = some s' ∧ R t' s') {t t' : τ} {s : σ} {es : List δ}
    (start : R t s) (h : run fine t es = some t') :
    ∃ es s', run step s es = some s' ∧ R t' s' := by
  induction es generalizing t s with
  | nil =>
    cases Option.some.inj h
    exact ⟨[], s, rfl, start⟩
  | cons e es ih =>
    obtain ⟨u, hu, hrest⟩ := run_cons.mp h
    obtain ⟨first, m, hfirst, hm⟩ := follow t e u s start hu
    obtain ⟨more, s', hmore, hs'⟩ := ih hm hrest
    refine ⟨first ++ more, s', ?_, hs'⟩
    rw [run_append, hfirst]
    exact hmore

/-- Where every step of one system is a run of another, so is every run. -/
theorem run_of_steps {τ δ : Type*} {step : σ → ε → Option σ} {fine : τ → δ → Option τ}
    (view : τ → σ) (steps : ∀ t e t', fine t e = some t' →
      ∃ es, run step (view t) es = some (view t')) {t t' : τ} {es : List δ}
    (h : run fine t es = some t') : ∃ es, run step (view t) es = some (view t') := by
  have follow (t : τ) (e : δ) (t' : τ) (s : σ) (hs : s = view t) (he : fine t e = some t') :
      ∃ es s', run step s es = some s' ∧ s' = view t' := by
    obtain ⟨es, hes⟩ := steps t e t' he
    exact ⟨es, view t', by rw [hs]; exact hes, rfl⟩
  obtain ⟨es, s', hes, rfl⟩ := simulated follow rfl h
  exact ⟨es, hes⟩

/-- Every step of the run meets the condition `P`, taken at the state before the step. -/
def Meets (step : σ → ε → Option σ) (P : σ → ε → Prop) : σ → List ε → Prop
  | _, [] => True
  | s, e :: es => P s e ∧ ∀ s', step s e = some s' → Meets step P s' es

instance decidableMeets {step : σ → ε → Option σ} {P : σ → ε → Prop}
    [∀ s e, Decidable (P s e)] : ∀ s es, Decidable (Meets step P s es)
  | _, [] => isTrue trivial
  | s, e :: es =>
    match h : step s e with
    | none => decidable_of_iff (P s e) (by simp [Meets, h])
    | some t =>
      have : Decidable (Meets step P t es) := decidableMeets t es
      decidable_of_iff (P s e ∧ Meets step P t es) (by simp [Meets, h])

theorem Meets.mono {step : σ → ε → Option σ} {P Q : σ → ε → Prop}
    (imp : ∀ s e, P s e → Q s e) {s : σ} {es : List ε} (h : Meets step P s es) :
    Meets step Q s es := by
  induction es generalizing s with
  | nil => trivial
  | cons e es ih => exact ⟨imp s e h.1, fun t ht => ih (h.2 t ht)⟩

theorem meets_of_forall {step : σ → ε → Option σ} {Q : ε → Prop} {s : σ} {es : List ε}
    (h : ∀ e ∈ es, Q e) : Meets step (fun _ e => Q e) s es := by
  induction es generalizing s with
  | nil => trivial
  | cons e es ih =>
    exact ⟨h e List.mem_cons_self, fun t _ => ih fun k hk => h k (List.mem_cons_of_mem e hk)⟩

/-- An invariant that every conditional step keeps holds after every conditional run. -/
theorem invariant_of_meets {step : σ → ε → Option σ} {P : σ → ε → Prop} (Inv : σ → Prop)
    (keep : ∀ s e s', P s e → Inv s → step s e = some s' → Inv s')
    {s s' : σ} {es : List ε} (start : Inv s) (meets : Meets step P s es)
    (h : run step s es = some s') : Inv s' := by
  induction es generalizing s with
  | nil => cases Option.some.inj h; exact start
  | cons e es ih =>
    obtain ⟨t, ht, hrest⟩ := run_cons.mp h
    exact ih (keep s e t meets.1 start ht) (meets.2 t ht) hrest

/-- A relation to an abstract state that every conditional step keeps, the abstract state
taking each event too, holds after every conditional run. -/
theorem simulation_of_meets {α : Type*} {step : σ → ε → Option σ} {P : σ → ε → Prop}
    {abstractStep : α → ε → α} {R : σ → α → Prop} {s s' : σ} {a : α} {es : List ε}
    (keep : ∀ s a e s', e ∈ es → P s e → R s a → step s e = some s' → R s' (abstractStep a e))
    (start : R s a) (meets : Meets step P s es) (h : run step s es = some s') :
    R s' (es.foldl abstractStep a) := by
  induction es generalizing s a with
  | nil => cases Option.some.inj h; exact start
  | cons e es ih =>
    obtain ⟨t, ht, hrest⟩ := run_cons.mp h
    have hstep := keep s a e t List.mem_cons_self meets.1 start ht
    exact ih (fun s a k s' hk => keep s a k s' (List.mem_cons_of_mem e hk)) hstep
      (meets.2 t ht) hrest

/-- Where one step from a good state ends in a good state exactly if it meets the condition,
every state of a run is good exactly if all of its steps meet it. -/
theorem always_iff_meets {step : σ → ε → Option σ} {P : σ → ε → Prop} (Inv Good : σ → Prop)
    (hstep : ∀ s e, Inv s → Good s → ∃ t, step s e = some t ∧ Inv t ∧ (Good t ↔ P s e))
    {s : σ} (hinv : Inv s) (hgood : Good s) (es : List ε) :
    (∀ n t, run step s (es.take n) = some t → Good t) ↔ Meets step P s es := by
  induction es generalizing s with
  | nil =>
    refine ⟨fun _ => trivial, fun _ n t ht => ?_⟩
    rw [List.take_nil] at ht
    cases Option.some.inj ht
    exact hgood
  | cons e es ih =>
    obtain ⟨t, ht, hinvt, hiff⟩ := hstep s e hinv hgood
    constructor
    · intro h
      have hgoodt : Good t := h 1 t (run_cons.mpr ⟨t, ht, rfl⟩)
      refine ⟨hiff.mp hgoodt, fun s' hs' => ?_⟩
      cases Option.some.inj (ht.symm.trans hs')
      apply (ih hinvt hgoodt).mp
      intro n u hu
      exact h (n + 1) u (run_cons.mpr ⟨t, ht, hu⟩)
    · rintro ⟨hmeets, hrest⟩ n u hu
      cases n with
      | zero =>
        cases Option.some.inj hu
        exact hgood
      | succ n =>
        obtain ⟨t', ht', hu'⟩ := run_cons.mp hu
        cases Option.some.inj (ht.symm.trans ht')
        exact (ih hinvt (hiff.mpr hmeets)).mpr (hrest t ht) n u hu'

theorem invariant {step : σ → ε → Option σ} {Inv : σ → Prop}
    (keep : ∀ s e s', Inv s → step s e = some s' → Inv s')
    {s s' : σ} {es : List ε} (start : Inv s) (h : run step s es = some s') : Inv s' := by
  induction es generalizing s with
  | nil => cases Option.some.inj h; exact start
  | cons e es ih =>
    obtain ⟨t, ht, hrest⟩ := run_cons.mp h
    exact ih (keep s e t start ht) hrest

/-- A record of what has happened that every step adds to. -/
theorem record_grows {β : Type*} {step : σ → ε → Option σ} {R : σ → List β → Prop}
    (keep : ∀ s l e s', R s l → step s e = some s' → ∃ more, R s' (l ++ more))
    {s s' : σ} {l : List β} {es : List ε} (start : R s l) (h : run step s es = some s') :
    ∃ more, R s' (l ++ more) := by
  induction es generalizing s l with
  | nil =>
    cases Option.some.inj h
    exact ⟨[], by rwa [List.append_nil]⟩
  | cons e es ih =>
    obtain ⟨t, ht, hrest⟩ := run_cons.mp h
    obtain ⟨first, hfirst⟩ := keep s l e t start ht
    obtain ⟨more, hmore⟩ := ih hfirst hrest
    exact ⟨first ++ more, by rwa [← List.append_assoc]⟩

section Measure

variable {β : Type*} [Preorder β] [WellFoundedLT β] {step : σ → ε → Option σ} {P : σ → ε → Prop}

/-- Steps that make something smaller happen a finite number of times, whatever steps that do
not make it larger happen in between. -/
theorem finitely_often {Q : σ → ε → Prop} (Inv : σ → Prop) (measure : σ → β)
    (smaller : ∀ s e t, Inv s → P s e → step s e = some t → Inv t ∧ measure t < measure s)
    (noLarger : ∀ s e t, Inv s → Q s e → step s e = some t → Inv t ∧ measure t ≤ measure s)
    {s : σ} (start : Inv s) :
    ¬ ∃ f : ℕ → σ, f 0 = s ∧
      (∀ n, ∃ e, (P (f n) e ∨ Q (f n) e) ∧ step (f n) e = some (f (n + 1))) ∧
      ∀ n, ∃ m e, n ≤ m ∧ P (f m) e ∧ step (f m) e = some (f (m + 1)) := by
  rintro ⟨f, h0, hnext, hoften⟩
  have hkeep (n : ℕ) (hn : Inv (f n)) : Inv (f (n + 1)) ∧ measure (f (n + 1)) ≤ measure (f n) := by
    obtain ⟨e, hp | hq, hstep⟩ := hnext n
    · obtain ⟨hinv, hlt⟩ := smaller _ e _ hn hp hstep
      exact ⟨hinv, hlt.le⟩
    · exact noLarger _ e _ hn hq hstep
  have hinv (n : ℕ) : Inv (f n) := by
    induction n with
    | zero => exact h0 ▸ start
    | succ n ih => exact (hkeep n ih).1
  have hanti : Antitone fun n => measure (f n) :=
    antitone_nat_of_succ_le fun n => (hkeep n (hinv n)).2
  obtain ⟨b, ⟨n, hn⟩, hleast⟩ := wellFounded_lt.has_min (Set.range fun n => measure (f n))
    ⟨_, 0, rfl⟩
  obtain ⟨m, e, hle, hp, hstep⟩ := hoften n
  have hlt := (smaller _ e _ (hinv m) hp hstep).2
  exact hleast _ ⟨m + 1, rfl⟩ (hn ▸ hlt.trans_le (hanti hle))

/-- A run can be continued until no further step is possible. -/
theorem exists_maximal_run (Inv : σ → Prop) (measure : σ → β)
    (smaller : ∀ s e t, Inv s → P s e → step s e = some t → Inv t ∧ measure t < measure s)
    {s : σ} (start : Inv s) :
    ∃ es t, run step s es = some t ∧ Meets step P s es ∧ ∀ e, P t e → step t e = none := by
  induction hb : measure s using WellFoundedLT.induction generalizing s with
  | ind b ih =>
    by_cases hstill : ∀ e, P s e → step s e = none
    · exact ⟨[], s, rfl, trivial, hstill⟩
    · simp only [not_forall] at hstill
      obtain ⟨e, he, hne⟩ := hstill
      obtain ⟨t, ht⟩ := Option.ne_none_iff_exists'.mp hne
      obtain ⟨hinv, hlt⟩ := smaller s e t start he ht
      obtain ⟨es, u, hrun, hmeets, hlast⟩ := ih (measure t) (hb ▸ hlt) hinv rfl
      refine ⟨e :: es, u, run_cons.mpr ⟨t, ht, hrun⟩, ⟨he, fun t' ht' => ?_⟩, hlast⟩
      cases Option.some.inj (ht.symm.trans ht')
      exact hmeets

end Measure

end Runs
