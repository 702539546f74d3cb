import Mathlib.Logic.Relation
import Mathlib.Data.List.Perm.Lattice
import PredicateTree.Proofs.Stages
import PredicateTree.Queries

/-!
# Proofs.Queries

What has been told on the way to the result of a query. Queries share what they read, so the one
behind a task may meet another on several ways; it is counted once.

* `Session.Accumulates q ds`: `ds` are the diagnostics of all queries read on the way to `q`.
* `Session.trail q`: these queries in the order in which they come to their results.
* `Session.report_eq`: a task is answered by its stages one after the other (`Session.answered`).
  What it tells is what its trail has told (`answered_diagnostics`), and its result is that of its
  query (`answered_outcome`).
* `Session.told_answered`: it tells of an error exactly if a stage fails, and then of one, which is
  of the phase of the first stage that does.
-/

namespace PredicateTree

open Report (Tells Told firstFailed?)

namespace Session

variable (s : Session)

/-! ## What has been read -/

def Reads (q q' : Query) : Prop := q' ∈ s.reads q

/-- The diagnostics of all queries that have been read on the way, each counted once, in some
order. -/
def Accumulates (q : Query) (ds : List Diagnostic) : Prop :=
  ∃ qs : List Query, qs.Nodup ∧ (∀ q', q' ∈ qs ↔ Relation.ReflTransGen s.Reads q q') ∧
    ds = qs.flatMap s.own

/-- The queries up to the expanded predicate. -/
def common : List Query := [.parsed, .lowered, .expanded]

/-- All queries on the way, in the order in which they come to their results. -/
def trail : Query → List Query
  | .parsed => [.parsed]
  | .lowered => [.parsed, .lowered]
  | .expanded => common
  | .shown => common ++ [.shown]
  | .negated => common ++ [.negated]
  | .checked =>
    if s.expanded.value?.any Expanded.isPredicate then common ++ [.shown, .negated, .checked]
    else common ++ [.shown, .checked]
  | .evaluated arg => common ++ [.evaluated arg]

theorem nodup_trail (q : Query) : (s.trail q).Nodup := by
  cases q with
  | checked =>
    rw [trail]
    split <;> decide
  | _ => simp [trail, common]

theorem mem_reads_checked {q : Query} : q ∈ s.reads .checked ↔ q = .shown ∨
    (s.expanded.value?.isSome = true ∧ q = .expanded) ∨
      (s.expanded.value?.any Expanded.isPredicate = true ∧ q = .negated) := by
  have hshown : s.shown.value?.isNone = s.expanded.value?.isNone := by
    unfold shown Report.value?
    cases s.expanded.outcome with
    | ok x => rw [Report.next_ok, x.outcome_shown]; rfl
    | error u => rfl
    | unfinished => rfl
  rw [reads, hshown]
  cases s.expanded.value? with
  | none => simp
  | some x => cases h : x.isPredicate <;> simp [h]

theorem expanded_mem_reads_evaluated (arg : String) : .expanded ∈ s.reads (.evaluated arg) := by
  simp only [reads]
  split
  · exact List.mem_cons_self
  split <;> exact List.mem_cons_self

theorem reads_evaluated_subset (arg : String) : s.reads (.evaluated arg) ⊆ common := by
  simp only [reads]
  split
  · decide
  split <;> decide

theorem trail_subset_of_mem_common {q : Query} (h : q ∈ common) : s.trail q ⊆ common := by
  simp only [common, List.mem_cons, List.not_mem_nil, or_false] at h
  rcases h with rfl | rfl | rfl <;> simp [trail, common]

theorem trail_subset {q b : Query} (h : s.Reads q b) : s.trail b ⊆ s.trail q := by
  cases q with
  | parsed => cases h
  | lowered =>
    obtain rfl := List.mem_singleton.1 h
    simp [trail]
  | expanded =>
    obtain rfl := List.mem_singleton.1 h
    exact s.trail_subset_of_mem_common (by decide)
  | shown =>
    obtain rfl := List.mem_singleton.1 h
    exact List.subset_append_left common _
  | negated =>
    obtain rfl := List.mem_singleton.1 h
    exact List.subset_append_left common _
  | checked =>
    rw [trail]
    rcases s.mem_reads_checked.1 h with rfl | ⟨-, rfl⟩ | ⟨hpredicate, rfl⟩
    · split <;> simp [trail]
    · split <;> exact List.subset_append_left common _
    · rw [if_pos hpredicate]
      simp [trail]
  | evaluated arg =>
    have hb := s.trail_subset_of_mem_common (s.reads_evaluated_subset arg h)
    exact List.Subset.trans hb (List.subset_append_left common _)

theorem mem_trail_self (q : Query) : q ∈ s.trail q := by
  cases q with
  | checked =>
    rw [trail]
    split <;> decide
  | _ => simp [trail, common]

theorem reach_of_mem_common {a : Query} (ha : a ∈ common) :
    Relation.ReflTransGen s.Reads .expanded a := by
  have hlowered : s.Reads .lowered .parsed := List.mem_cons_self
  have hexpanded : s.Reads .expanded .lowered := List.mem_cons_self
  simp only [common, List.mem_cons, List.not_mem_nil, or_false] at ha
  rcases ha with rfl | rfl | rfl
  · exact .head hexpanded (.single hlowered)
  · exact .single hexpanded
  · exact .refl

/-- A query that works on the expanded predicate. -/
theorem reach_of_mem_append {q a : Query} (hq : s.Reads q .expanded) (ha : a ∈ common ++ [q]) :
    Relation.ReflTransGen s.Reads q a := by
  rcases List.mem_append.1 ha with ha | ha
  · exact .head hq (s.reach_of_mem_common ha)
  · obtain rfl := List.mem_singleton.1 ha
    exact .refl

theorem reach_of_mem_trail {q a : Query} (ha : a ∈ s.trail q) :
    Relation.ReflTransGen s.Reads q a := by
  have hshown : ∀ {a}, a ∈ s.trail .shown → Relation.ReflTransGen s.Reads .shown a :=
    s.reach_of_mem_append List.mem_cons_self
  cases q with
  | parsed =>
    obtain rfl := List.mem_singleton.1 ha
    exact .refl
  | lowered =>
    rcases List.mem_cons.1 ha with rfl | ha
    · exact .single List.mem_cons_self
    · obtain rfl := List.mem_singleton.1 ha
      exact .refl
  | expanded => exact s.reach_of_mem_common ha
  | shown => exact hshown ha
  | negated => exact s.reach_of_mem_append List.mem_cons_self ha
  | evaluated arg => exact s.reach_of_mem_append (s.expanded_mem_reads_evaluated arg) ha
  | checked =>
    have hchecked : s.Reads .checked .shown := s.mem_reads_checked.2 (.inl rfl)
    have hsplit : a ∈ s.trail .shown ∨
        (s.expanded.value?.any Expanded.isPredicate = true ∧ a = .negated) ∨ a = .checked := by
      rw [trail] at ha
      split at ha <;> simp_all [trail, or_assoc]
    rcases hsplit with ha | ⟨hpredicate, rfl⟩ | rfl
    · exact .head hchecked (hshown ha)
    · exact .single (s.mem_reads_checked.2 (.inr (.inr ⟨hpredicate, rfl⟩)))
    · exact .refl

theorem mem_trail_iff {q a : Query} : a ∈ s.trail q ↔ Relation.ReflTransGen s.Reads q a := by
  refine ⟨s.reach_of_mem_trail, fun h => ?_⟩
  induction h using Relation.ReflTransGen.head_induction_on with
  | refl => exact s.mem_trail_self a
  | head hq _ ih => exact s.trail_subset hq ih

theorem accumulates_trail (q : Query) : s.Accumulates q ((s.trail q).flatMap s.own) :=
  ⟨s.trail q, s.nodup_trail q, fun _ => s.mem_trail_iff, rfl⟩

/-- The order in which the queries are counted does not matter. -/
theorem Accumulates.perm {s : Session} {q : Query} {ds : List Diagnostic}
    (h : s.Accumulates q ds) : ds.Perm ((s.trail q).flatMap s.own) := by
  obtain ⟨qs, hnodup, hmem, rfl⟩ := h
  refine List.Perm.flatMap_right _ ?_
  rw [List.perm_ext_iff_of_nodup hnodup (s.nodup_trail q)]
  exact fun a => (hmem a).trans s.mem_trail_iff.symm

/-! ## Reports of tasks -/

/-- The predicate with all that was told on the way to it. -/
def reached : Report Expanded := do
  let low ← s.parsed >>= fun doc => doc.resolved (.root 0)
  low.expanded s.fuel (.root 1) s.name

theorem reached_outcome : s.reached.outcome = s.expanded.outcome := by
  rw [reached, Report.outcome_bind_next, Report.outcome_bind_next, expanded, lowered]

theorem reached_diagnostics : s.reached.diagnostics =
    s.parsed.diagnostics ++ s.lowered.diagnostics ++ s.expanded.diagnostics := by
  rw [reached, Report.diagnostics_bind, Report.diagnostics_bind, Report.outcome_bind_next, expanded,
    lowered]

theorem analysis_eq : Analysis.ofText s.fuel s.name s.text = s.reached >>= fun x =>
    Report.next s.parsed.outcome fun doc =>
    Report.next s.lowered.outcome fun low => pure ⟨doc, low, x⟩ := by
  rw [Analysis.ofText, reached, bind_assoc, bind_assoc]
  refine Report.bind_congr_ok fun doc hdoc => Report.bind_congr_ok fun low hlow => ?_
  have hparsed : s.parsed.outcome = .ok doc := hdoc
  have hlowered : s.lowered.outcome = .ok low := by rw [lowered, hparsed, Report.next_ok, hlow]
  rw [hparsed, hlowered]
  rfl

theorem expanded_eq_ok {x : Expanded} (h : s.expanded.outcome = .ok x) :
    ∃ doc low, s.parsed.outcome = .ok doc ∧ s.lowered.outcome = .ok low := by
  cases hlow : s.lowered.outcome with
  | ok low =>
    cases hdoc : s.parsed.outcome with
    | ok doc => exact ⟨doc, low, rfl, rfl⟩
    | error u =>
      rw [lowered, hdoc] at hlow
      cases hlow
    | unfinished =>
      rw [lowered, hdoc] at hlow
      cases hlow
  | error u =>
    rw [expanded, hlow] at h
    cases h
  | unfinished =>
    rw [expanded, hlow] at h
    cases h

/-- The report of a task, one stage after the other. -/
def answered : Task → Report String
  | .expand => Rendered.after <$> (s.reached >>= Expanded.shown)
  | .negate => Rendered.after <$> (s.reached >>= fun x => x.negated (.root 2) s.name)
  | .check => (fun _ => Task.noErrors) <$> (s.reached >>= fun x => x.checked (.root 2) s.name)
  | .eval arg => s.reached >>= fun x =>
    Report.next s.parsed.outcome fun doc =>
    Report.next s.lowered.outcome fun low => x.evaluated doc low s.fuel (.root 2) arg

theorem report_eq (task : Task) : task.report s.fuel s.name s.text = s.answered task := by
  rw [Task.report, analysis_eq, bind_assoc]
  cases task <;> simp only [answered, map_eq_pure_bind, bind_assoc] <;>
    refine Report.bind_congr_ok fun x hx => ?_ <;>
    obtain ⟨doc, low, hdoc, hlow⟩ := s.expanded_eq_ok (s.reached_outcome ▸ hx) <;>
    simp only [hdoc, hlow, Report.next_ok, pure_bind]

theorem answered_outcome (task : Task) : (s.answered task).outcome = s.line task := by
  cases task with
  | expand =>
    rw [answered, line, Report.outcome_map, Report.outcome_bind_next, reached_outcome, shown]
  | negate =>
    rw [answered, line, Report.outcome_map, Report.outcome_bind_next, reached_outcome, negated]
  | check =>
    rw [answered, line, Report.outcome_map, Report.outcome_bind, reached_outcome, checked, shown,
      negated]
    cases s.expanded.outcome with
    | error u => rfl
    | unfinished => rfl
    | ok x =>
      simp only [Outcome.ok_bind, Report.next_ok, x.outcome_shown, found, Expanded.checked,
        Report.outcome_bind]
      cases x.isPredicate with
      | false => rfl
      | true =>
        simp only [if_true, Report.outcome_bind]
        cases (x.negated (.root 2) s.name).outcome <;> rfl
  | eval arg => rw [answered, line, Report.outcome_bind_next, reached_outcome, evaluated]

theorem answered_diagnostics (task : Task) :
    (s.answered task).diagnostics = (s.trail task.query).flatMap s.own := by
  have hcommon : s.reached.diagnostics = common.flatMap s.own := by
    rw [reached_diagnostics]
    simp [common, own]
  cases task with
  | expand =>
    rw [answered, Report.diagnostics_map, Report.diagnostics_bind, hcommon, reached_outcome]
    simp [Task.query, trail, own, shown]
  | negate =>
    rw [answered, Report.diagnostics_map, Report.diagnostics_bind, hcommon, reached_outcome]
    simp [Task.query, trail, own, negated]
  | check =>
    rw [answered, Report.diagnostics_map, Report.diagnostics_bind, hcommon, reached_outcome,
      Task.query, trail]
    cases hx : s.expanded.outcome with
    | error u => simp [Report.value?, hx, own, shown]
    | unfinished => simp [Report.value?, hx, own, shown]
    | ok x =>
      simp only [Report.next_ok, Expanded.checked, Report.diagnostics_bind, x.outcome_shown,
        Report.value?, hx, Option.any_some]
      cases x.isPredicate with
      | false => simp [own, shown, hx]
      | true => simp [own, shown, negated, hx]
  | eval arg =>
    rw [answered, Report.diagnostics_bind, hcommon, reached_outcome]
    simp [Task.query, trail, own, evaluated]

/-! ## Errors -/

/-- The stages up to the expanded predicate, and whether they are without a result. -/
def commonStages : List (Phase × Bool) :=
  [(.parsing, s.parsed.outcome.failed), (.lowering, s.lowered.outcome.failed),
    (.expansion, s.expanded.outcome.failed)]

/-- The stages of a task in order. A check negates only where this applies. -/
def stages : Task → List (Phase × Bool)
  | .expand => s.commonStages
  | .negate => s.commonStages ++ [(.negation, s.negated.outcome.failed)]
  | .check => s.commonStages ++
    [(.negation, s.expanded.value?.any Expanded.isPredicate && s.negated.outcome.failed)]
  | .eval arg => s.commonStages ++ [(.evaluation, (s.evaluated arg).outcome.failed)]

theorem told_reached : Told s.commonStages s.reached := by
  have hparsed := Told.one (Document.tells_read s.text)
  have hlowered := hparsed.bind fun doc _ => doc.tells_resolved (.root 0)
  exact hlowered.bind fun low _ => low.tells_expanded s.fuel (.root 1) s.name

theorem told_answered (task : Task) : Told (s.stages task) (s.answered task) := by
  have hreached := s.told_reached
  cases task with
  | expand =>
    exact .map _ (hreached.silently fun x => ⟨x.errors_shown, by rw [x.outcome_shown]; rfl⟩)
  | negate =>
    have hnegated := hreached.bind fun x _ => x.tells_negated (.root 2) s.name
    rw [reached_outcome] at hnegated
    exact .map _ hnegated
  | check =>
    have hpassed : (s.expanded.value?.any Expanded.isPredicate && s.negated.outcome.failed) =
        false := by
      unfold negated Report.value?
      cases s.expanded.outcome with
      | error u => rfl
      | unfinished => rfl
      | ok x =>
        cases hpredicate : x.isPredicate with
        | false => simp [hpredicate]
        | true =>
          obtain ⟨r, hr⟩ := (x.exists_negated_iff (.root 2) s.name).2 hpredicate
          simp [hr, Outcome.failed]
    rw [stages, hpassed]
    refine .map _ (.passed (hreached.silently fun x => ?_))
    obtain ⟨hsilent, hok⟩ := x.checked_silent (.root 2) s.name
    exact ⟨hsilent, by rw [hok]; rfl⟩
  | eval arg =>
    have htells : ∀ x, s.reached.outcome = .ok x →
        Tells .evaluation (Report.next s.parsed.outcome fun doc =>
          Report.next s.lowered.outcome fun low => x.evaluated doc low s.fuel (.root 2) arg) := by
      intro x hx
      obtain ⟨doc, low, hdoc, hlow⟩ := s.expanded_eq_ok (s.reached_outcome ▸ hx)
      rw [hdoc, hlow]
      exact x.tells_evaluated (.root 2) doc low s.fuel arg
    have hevaluated := hreached.bind htells
    rw [reached_outcome] at hevaluated
    exact hevaluated

end Session

end PredicateTree
