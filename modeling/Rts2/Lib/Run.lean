import Mathlib

/-! Runs of a deterministic machine driven by a list of events. A run is guarded when every
event is taken in a state where the guard holds of the two; an invariant kept by every
guarded step holds in every state of a guarded run. -/
namespace Rts2.Lib

universe u v

variable {σ : Type u} {ε : Type v}

def run (step : σ → ε → σ) (s : σ) (es : List ε) : σ := es.foldl step s

def Guarded (step : σ → ε → σ) (guard : σ → ε → Prop) : σ → List ε → Prop
  | _, [] => True
  | s, e :: es => guard s e ∧ Guarded step guard (step s e) es

instance guardedDecidable (step : σ → ε → σ) (guard : σ → ε → Prop) [∀ s, DecidablePred (guard s)] (s : σ)
    (es : List ε) : Decidable (Guarded step guard s es) :=
  match es with
  | [] => isTrue trivial
  | e :: es => @instDecidableAnd _ _ _ (guardedDecidable step guard (step s e) es)

@[simp] theorem run_nil (step : σ → ε → σ) (s : σ) : run step s [] = s := rfl

@[simp] theorem run_cons (step : σ → ε → σ) (s : σ) (e : ε) (es : List ε) :
    run step s (e :: es) = run step (step s e) es := rfl

theorem run_append (step : σ → ε → σ) (s : σ) (es fs : List ε) :
    run step s (es ++ fs) = run step (run step s es) fs := by
  simp [run, List.foldl_append]

theorem guarded_append (step : σ → ε → σ) (guard : σ → ε → Prop) (s : σ) (es fs : List ε) :
    Guarded step guard s (es ++ fs) ↔
      Guarded step guard s es ∧ Guarded step guard (run step s es) fs := by
  induction es generalizing s with
  | nil => simp [Guarded]
  | cons e es ih => simp [Guarded, ih, and_assoc]

theorem guarded_true (step : σ → ε → σ) (s : σ) (es : List ε) :
    Guarded step (fun _ _ => True) s es := by
  induction es generalizing s with
  | nil => trivial
  | cons e es ih => exact ⟨trivial, ih (step s e)⟩

theorem guarded_and {step : σ → ε → σ} {guard guard' : σ → ε → Prop} {s : σ} {es : List ε} :
    Guarded step (fun s e => guard s e ∧ guard' s e) s es ↔
      Guarded step guard s es ∧ Guarded step guard' s es := by
  induction es generalizing s with
  | nil => simp [Guarded]
  | cons e es ih => simp only [Guarded, ih]; tauto

theorem Guarded.mono {step : σ → ε → σ} {guard guard' : σ → ε → Prop}
    (weaker : ∀ s e, guard s e → guard' s e) {s : σ} {es : List ε}
    (guarded : Guarded step guard s es) : Guarded step guard' s es := by
  induction es generalizing s with
  | nil => trivial
  | cons e es ih => exact ⟨weaker s e guarded.1, ih guarded.2⟩

theorem guarded_of_forall {step : σ → ε → σ} {guard : ε → Prop} {es : List ε} (all : ∀ e ∈ es, guard e) (s : σ) :
    Guarded step (fun _ e => guard e) s es := by
  induction es generalizing s with
  | nil => trivial
  | cons e es ih =>
    exact ⟨all e List.mem_cons_self, ih (fun e mem => all e (List.mem_cons_of_mem _ mem)) (step s e)⟩

theorem guarded_congr {step : σ → ε → σ} {guard guard' : σ → ε → Prop}
    (same : ∀ s e, guard s e ↔ guard' s e) (s : σ) (es : List ε) :
    Guarded step guard s es ↔ Guarded step guard' s es := by
  induction es generalizing s with
  | nil => exact Iff.rfl
  | cons e es ih => exact and_congr (same s e) (ih (step s e))

theorem run_invariant (step : σ → ε → σ) (guard : σ → ε → Prop) (P : σ → Prop)
    (kept : ∀ s e, P s → guard s e → P (step s e)) (s : σ) (es : List ε)
    (initial : P s) (guarded : Guarded step guard s es) : P (run step s es) := by
  induction es generalizing s with
  | nil => exact initial
  | cons e es ih => exact ih (step s e) (kept s e initial guarded.1) guarded.2

theorem guarded_congr_invariant {step : σ → ε → σ} {enabled guard guard' : σ → ε → Prop}
    {P : σ → Prop} (kept : ∀ s e, P s → enabled s e → guard s e → P (step s e))
    (same : ∀ s e, P s → enabled s e → (guard s e ↔ guard' s e)) {s : σ} {es : List ε}
    (initial : P s) (runs : Guarded step enabled s es) :
    Guarded step guard s es ↔ Guarded step guard' s es := by
  induction es generalizing s with
  | nil => exact Iff.rfl
  | cons e es ih =>
    obtain ⟨now, later⟩ := runs
    refine ⟨fun ⟨g, gs⟩ => ?_, fun ⟨g', gs'⟩ => ?_⟩
    · exact ⟨(same s e initial now).mp g, (ih (kept s e initial now g) later).mp gs⟩
    · have g := (same s e initial now).mpr g'
      exact ⟨g, (ih (kept s e initial now g) later).mpr gs'⟩

theorem prefixes_iff_guarded_enabled {step : σ → ε → σ} {enabled guard : σ → ε → Prop}
    {P Q : σ → Prop} (implied : ∀ s, P s → Q s)
    (kept : ∀ s e, P s → enabled s e → guard s e → P (step s e))
    (exact : ∀ s e, P s → enabled s e → Q (step s e) → guard s e) {s : σ} (initial : P s)
    {es : List ε} (runs : Guarded step enabled s es) :
    (∀ done, done <+: es → Q (run step s done)) ↔ Guarded step guard s es := by
  induction es generalizing s with
  | nil =>
    refine iff_of_true (fun done first => ?_) trivial
    rw [List.prefix_nil.mp first]
    exact implied s initial
  | cons e es ih =>
    obtain ⟨now, runs⟩ := runs
    constructor
    · intro all
      have here : guard s e := exact s e initial now (all [e] (by simp))
      refine ⟨here, (ih (kept s e initial now here) runs).mp (fun done first => ?_)⟩
      exact all (e :: done) (List.cons_prefix_cons.mpr ⟨rfl, first⟩)
    · rintro ⟨here, later⟩ done first
      cases done with
      | nil => exact implied s initial
      | cons d done =>
        obtain ⟨same, shorter⟩ := List.cons_prefix_cons.mp first
        rw [same]
        exact (ih (kept s e initial now here) runs).mpr later done shorter

theorem prefixes_iff_guarded {step : σ → ε → σ} {guard : σ → ε → Prop} {P : σ → Prop}
    (exact : ∀ s e, P s → (P (step s e) ↔ guard s e)) {s : σ} (initial : P s) (es : List ε) :
    (∀ done, done <+: es → P (run step s done)) ↔ Guarded step guard s es :=
  prefixes_iff_guarded_enabled (fun _ => id) (fun s e good _ => (exact s e good).mpr)
    (fun s e good _ => (exact s e good).mp) initial (guarded_true step s es)

def Reaches (step : σ → ε → σ) (guard : σ → ε → Prop) (s t : σ) : Prop :=
  ∃ es, Guarded step guard s es ∧ run step s es = t

theorem Reaches.refl (step : σ → ε → σ) (guard : σ → ε → Prop) (s : σ) : Reaches step guard s s := ⟨[], trivial, rfl⟩

theorem Reaches.step {step : σ → ε → σ} {guard : σ → ε → Prop} {s : σ} {e : ε} (guarded : guard s e) :
    Reaches step guard s (step s e) := ⟨[e], ⟨guarded, trivial⟩, rfl⟩

theorem Reaches.trans {step : σ → ε → σ} {guard : σ → ε → Prop} {s t u : σ} (first : Reaches step guard s t)
    (second : Reaches step guard t u) : Reaches step guard s u := by
  obtain ⟨es, guarded, rfl⟩ := first
  obtain ⟨fs, later, rfl⟩ := second
  exact ⟨es ++ fs, (guarded_append step guard s es fs).mpr ⟨guarded, later⟩, run_append step s es fs⟩

theorem run_view_filter {τ : Type*} {step : σ → ε → σ} (view : σ → τ) (mine : ε → Bool)
    (others : ∀ s e, mine e = false → view (step s e) = view s)
    (own : ∀ s t e, mine e = true → view s = view t → view (step s e) = view (step t e))
    {s t : σ} (same : view s = view t) (es : List ε) :
    view (run step s es) = view (run step t (es.filter mine)) := by
  induction es generalizing s t with
  | nil => exact same
  | cons e es ih =>
    cases mine_e : mine e with
    | true =>
      rw [List.filter_cons_of_pos mine_e]
      exact ih (own s t e mine_e same)
    | false =>
      rw [List.filter_cons_of_neg (by simp [mine_e])]
      exact ih ((others s e mine_e).trans same)

end Rts2.Lib
