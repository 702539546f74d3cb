import PredicateTree.Proofs.Outcome
import PredicateTree.Report

/-!
# Proofs.Report

What the diagnostics of a report say about its outcome.

* `Report.Tells phase r`: the report of a stage tells of an error exactly if it has failed, and then
  of one, which is of this phase.
* `Report.Told stages r`: the same for stages that follow each other; the error is that of the first
  one that failed.
* `Report.Approx r x y`: unless `x` has not ended, `y` tells the same and ends in the same way, with
  values related by `r`.
-/

namespace PredicateTree

/-- The computation has ended with an error. -/
def Outcome.failed {ε α : Type} : Outcome ε α → Bool
  | .error _ => true
  | _ => false

namespace Report

variable {ε α β γ δ : Type} {phase : Phase}

def errors (ds : List Diagnostic) : List Diagnostic := ds.filter Diagnostic.isError

@[simp] theorem errors_nil : errors [] = [] := rfl

@[simp] theorem errors_append (ds es : List Diagnostic) :
    errors (ds ++ es) = errors ds ++ errors es := List.filter_append ..

theorem hasError_eq_false_iff {r : Report α} :
    r.hasError = false ↔ errors r.diagnostics = [] := by
  simp [hasError, errors]

theorem outcome_bind_next (x : Report α) (f : α → Report β) :
    (x >>= f).outcome = (next x.outcome f).outcome := rfl

instance : LawfulMonad Report :=
  LawfulMonad.mk' _ (fun ⟨o, ds, log⟩ => by cases o <;> simp [Functor.map, bind, next])
    (fun a f => by simp [Bind.bind, bind, next, Pure.pure])
    (fun ⟨o, ds, log⟩ f g => by cases o <;> simp [Bind.bind, bind, next])

@[simp] theorem outcome_map (f : α → β) (x : Report α) :
    (f <$> x).outcome = x.outcome >>= fun a => pure (f a) := by
  rw [map_eq_pure_bind, outcome_bind]
  rfl

@[simp] theorem diagnostics_map (f : α → β) (x : Report α) :
    (f <$> x).diagnostics = x.diagnostics := by
  obtain ⟨o, ds, log⟩ := x
  rw [map_eq_pure_bind, diagnostics_bind]
  cases o <;> simp

@[simp] theorem outcome_ofOutcome_eq_ok {diagnose : ε → Diagnostic} {x : Outcome ε α} {a : α} :
    (ofOutcome diagnose x).outcome = .ok a ↔ x = .ok a := by
  cases x <;> simp [ofOutcome, fail]

theorem outcome_ofOutcome_ne_unfinished {diagnose : ε → Diagnostic} {x : Outcome ε α}
    (h : x ≠ .unfinished) : (ofOutcome diagnose x).outcome ≠ .unfinished := by
  cases x with
  | ok a => exact Outcome.ok_ne_unfinished a
  | error e => exact Outcome.error_ne_unfinished ()
  | unfinished => exact absurd rfl h

theorem outcome_ofExcept_ne_unfinished (diagnose : ε → Diagnostic) (x : Except ε α) :
    (ofExcept diagnose x).outcome ≠ .unfinished :=
  outcome_ofOutcome_ne_unfinished (Outcome.ofExcept_ne_unfinished x)

/-- What follows a stage depends on its result only. -/
theorem bind_congr_ok {x : Report α} {f g : α → Report β}
    (h : ∀ a, x.outcome = .ok a → f a = g a) : x >>= f = x >>= g := by
  obtain ⟨o, ds, log⟩ := x
  cases o with
  | ok a => simp only [Bind.bind, bind, next, h a rfl]
  | error u => rfl
  | unfinished => rfl

/-! ## One stage -/

structure Tells (phase : Phase) (r : Report α) : Prop where
  silent : r.outcome.failed = false → errors r.diagnostics = []
  error : r.outcome.failed = true → ∃ d, errors r.diagnostics = [d] ∧ d.phase = phase

namespace Tells

theorem ofSilent {r : Report α} (h : errors r.diagnostics = []) (hr : r.outcome.failed = false) :
    Tells phase r where
  silent _ := h
  error hfailed := by
    rw [hr] at hfailed
    cases hfailed

theorem pure (a : α) : Tells phase (Pure.pure a : Report α) := .ofSilent rfl rfl

theorem record (entries : List LogEntry) : Tells phase (record entries) := .ofSilent rfl rfl

theorem tell {d : Diagnostic} (h : d.isError = false) : Tells phase (tell d) := by
  refine .ofSilent ?_ rfl
  show [d].filter Diagnostic.isError = []
  simp [h]

theorem ofOutcome {diagnose : ε → Diagnostic} {x : Outcome ε α}
    (h : ∀ e, (diagnose e).isError = true ∧ (diagnose e).phase = phase) :
    Tells phase (ofOutcome diagnose x) := by
  cases x with
  | ok a => exact .ofSilent rfl rfl
  | unfinished => exact .ofSilent rfl rfl
  | error e =>
    refine ⟨fun hfailed => (by cases hfailed), fun _ => ⟨diagnose e, ?_, (h e).2⟩⟩
    show [diagnose e].filter Diagnostic.isError = [diagnose e]
    simp [(h e).1]

theorem ofExcept {diagnose : ε → Diagnostic} {x : Except ε α}
    (h : ∀ e, (diagnose e).isError = true ∧ (diagnose e).phase = phase) :
    Tells phase (ofExcept diagnose x) := ofOutcome h

theorem bind {x : Report α} {f : α → Report β} (hx : Tells phase x)
    (hf : ∀ a, Tells phase (f a)) : Tells phase (x >>= f) := by
  obtain ⟨o, ds, log⟩ := x
  cases o with
  | ok a =>
    have hds : errors ds = [] := hx.silent rfl
    constructor
    · intro hfailed
      simp [hds, (hf a).silent hfailed]
    · intro hfailed
      obtain ⟨d, hd, hphase⟩ := (hf a).error hfailed
      exact ⟨d, by simp [hds, hd], hphase⟩
  | error u =>
    obtain ⟨d, hd, hphase⟩ := hx.error rfl
    have hd : errors ds = [d] := hd
    exact ⟨fun hfailed => (by cases hfailed), fun _ => ⟨d, by simp [hd], hphase⟩⟩
  | unfinished =>
    have hds : errors ds = [] := hx.silent rfl
    exact ⟨fun _ => (by simp [hds]), fun hfailed => (by cases hfailed)⟩

end Tells

/-! ## Stages one after the other -/

/-- The phase of the first stage that failed. -/
def firstFailed? (stages : List (Phase × Bool)) : Option Phase :=
  (stages.find? Prod.snd).map Prod.fst

structure Told (stages : List (Phase × Bool)) (r : Report α) : Prop where
  silent : r.outcome.failed = false → errors r.diagnostics = [] ∧ firstFailed? stages = none
  error : r.outcome.failed = true →
    ∃ d, errors r.diagnostics = [d] ∧ firstFailed? stages = some d.phase

theorem firstFailed?_concat (stages : List (Phase × Bool)) (phase : Phase) (failed : Bool) :
    firstFailed? (stages ++ [(phase, failed)]) =
      (firstFailed? stages).or (if failed then some phase else none) := by
  unfold firstFailed?
  rw [List.find?_append]
  cases stages.find? Prod.snd with
  | some stage => rfl
  | none => cases failed <;> rfl

namespace Told

variable {stages : List (Phase × Bool)}

theorem start (a : α) : Told [] (Pure.pure a : Report α) where
  silent _ := ⟨rfl, rfl⟩
  error hfailed := by cases hfailed

/-- One more stage. It is silent if an earlier one failed. -/
theorem bind {x : Report α} {f : α → Report β} (hx : Told stages x)
    (hf : ∀ a, x.outcome = .ok a → Tells phase (f a)) :
    Told (stages ++ [(phase, (next x.outcome f).outcome.failed)]) (x >>= f) := by
  obtain ⟨o, ds, log⟩ := x
  cases o with
  | ok a =>
    obtain ⟨hds, hstages⟩ := hx.silent rfl
    have hds : errors ds = [] := hds
    constructor
    · intro hfailed
      have hfailed : (f a).outcome.failed = false := hfailed
      simp [hds, (hf a rfl).silent hfailed, firstFailed?_concat, hstages, hfailed]
    · intro hfailed
      have hfailed : (f a).outcome.failed = true := hfailed
      obtain ⟨d, hd, hphase⟩ := (hf a rfl).error hfailed
      exact ⟨d, by simp [hds, hd], by simp [firstFailed?_concat, hstages, hfailed, hphase]⟩
  | error u =>
    obtain ⟨d, hd, hphase⟩ := hx.error rfl
    have hd : errors ds = [d] := hd
    refine ⟨fun hfailed => (by cases hfailed), fun _ => ⟨d, by simp [hd], ?_⟩⟩
    simp [firstFailed?_concat, hphase]
  | unfinished =>
    obtain ⟨hds, hstages⟩ := hx.silent rfl
    have hds : errors ds = [] := hds
    refine ⟨fun _ => ?_, fun hfailed => (by cases hfailed)⟩
    simp [hds, firstFailed?_concat, hstages, Outcome.failed, next]

theorem one {x : Report α} (h : Tells phase x) : Told [(phase, x.outcome.failed)] x where
  silent hfailed := ⟨h.silent hfailed, by simp [firstFailed?, hfailed]⟩
  error hfailed := by
    obtain ⟨d, hd, hphase⟩ := h.error hfailed
    exact ⟨d, hd, by simp [firstFailed?, hfailed, hphase]⟩

/-- A stage that has not failed is passed over. -/
theorem passed {x : Report α} (hx : Told stages x) : Told (stages ++ [(phase, false)]) x where
  silent hfailed := by simpa [firstFailed?_concat] using hx.silent hfailed
  error hfailed := by simpa [firstFailed?_concat] using hx.error hfailed

/-- What follows neither fails nor tells of an error. -/
theorem silently {x : Report α} {f : α → Report β} (hx : Told stages x)
    (hf : ∀ a, errors (f a).diagnostics = [] ∧ (f a).outcome.failed = false) :
    Told stages (x >>= f) := by
  obtain ⟨o, ds, log⟩ := x
  cases o with
  | ok a =>
    obtain ⟨hds, hstages⟩ := hx.silent rfl
    have hds : errors ds = [] := hds
    obtain ⟨hfds, hfailed⟩ := hf a
    refine ⟨fun _ => ⟨by simp [hds, hfds], hstages⟩, fun h => ?_⟩
    have h : (f a).outcome.failed = true := h
    rw [hfailed] at h
    cases h
  | error u =>
    obtain ⟨d, hd, hphase⟩ := hx.error rfl
    have hd : errors ds = [d] := hd
    exact ⟨fun hfailed => (by cases hfailed), fun _ => ⟨d, by simp [hd], hphase⟩⟩
  | unfinished =>
    obtain ⟨hds, hstages⟩ := hx.silent rfl
    have hds : errors ds = [] := hds
    exact ⟨fun _ => ⟨by simp [hds], hstages⟩, fun hfailed => (by cases hfailed)⟩

theorem map {x : Report α} (f : α → β) (hx : Told stages x) : Told stages (f <$> x) := by
  rw [map_eq_pure_bind]
  exact hx.silently fun a => ⟨rfl, rfl⟩

end Told

/-! ## More room -/

structure Approx (r : α → β → Prop) (x : Report α) (y : Report β) : Prop where
  outcome : x.outcome.Approx r y.outcome
  diagnostics : x.outcome ≠ .unfinished → x.diagnostics = y.diagnostics

namespace Approx

variable {r : α → β → Prop} {q : γ → δ → Prop} {x : Report α} {y : Report β}

theorem refl {r : α → α → Prop} (h : ∀ a, r a a) (x : Report α) : Approx r x x :=
  ⟨.refl h, fun _ => rfl⟩

theorem ofOutcome {diagnose : ε → Diagnostic} {x : Outcome ε α} {y : Outcome ε β}
    (h : x.Approx r y) : Approx r (ofOutcome diagnose x) (ofOutcome diagnose y) := by
  cases x with
  | unfinished => exact ⟨trivial, fun hended => absurd rfl hended⟩
  | ok a =>
    cases y with
    | ok b => exact ⟨h, fun _ => rfl⟩
    | error | unfinished => exact h.elim
  | error e =>
    cases y with
    | error e' =>
      obtain rfl : e = e' := h
      exact ⟨rfl, fun _ => rfl⟩
    | ok | unfinished => exact h.elim

theorem bind {f : α → Report γ} {g : β → Report δ} (h : Approx r x y)
    (hf : ∀ a b, r a b → Approx q (f a) (g b)) : Approx q (x >>= f) (y >>= g) := by
  obtain ⟨o, ds, log⟩ := x
  obtain ⟨o', ds', log'⟩ := y
  obtain ⟨houtcome, hdiagnostics⟩ := h
  constructor
  · rw [outcome_bind, outcome_bind]
    exact houtcome.bind fun a b hab => (hf a b hab).outcome
  · intro hended
    cases o with
    | unfinished => exact absurd rfl hended
    | ok a =>
      cases o' with
      | ok b =>
        have hds : ds = ds' := hdiagnostics fun h => by cases h
        have hrest := (hf a b houtcome).diagnostics hended
        simp [hds, hrest]
      | error | unfinished => exact houtcome.elim
    | error u =>
      cases o' with
      | error u' =>
        have hds : ds = ds' := hdiagnostics fun h => by cases h
        simp [hds]
      | ok | unfinished => exact houtcome.elim

end Approx

end Report

end PredicateTree
