import PredicateTree.Command.Arguments
import PredicateTree.Proofs.Queries

/-!
# Proofs.Command

How a run on a text ends.

* `Session.Succeeds`, `Session.Fails`: the two ways in which it may.
* `Session.succeeds_printed`, `Session.fails_printed`: what is printed for a result, and for none.
* `Command.Ends.mono`: an end that is reached with some fuel is reached with more.
* `Command.Bounded.ends`: when there is one.
* `Command.answer_ends`: a run that ends does so in exactly one of the two ways.
* `Command.not_ends_circular`: the run on a rule that expands itself ends in neither, and a command
  line that is refused is no run.
-/

namespace PredicateTree

open Outcome (bind_ne_unfinished error_ne_unfinished ok_ne_unfinished)
open Report (errors firstFailed?)

/-! ## The two ways in which a run ends -/

namespace Session

/-- The query has a result, which is printed, and no error has been told on the way. -/
structure Succeeds (s : Session) (task : Task) (p : Printed) : Prop where
  result : ∃ line, s.line task = .ok line ∧ p.out = line ++ "\n"
  told : ∀ ds, s.Accumulates task.query ds → errors ds = []
  stages : firstFailed? (s.stages task) = none
  status : p.status = 0

/-- The query has no result, nothing is printed for it, and one error has been told, which is of the
phase of the first stage without a result. -/
structure Fails (s : Session) (task : Task) (p : Printed) : Prop where
  result : s.line task = .error ()
  out : p.out = ""
  told : ∀ ds, s.Accumulates task.query ds →
    ∃ d, errors ds = [d] ∧ firstFailed? (s.stages task) = some d.phase
  status : p.status = 1

theorem Succeeds.not_fails {s : Session} {task : Task} {p : Printed} (h : s.Succeeds task p) :
    ¬s.Fails task p := by
  intro h'
  have hstatus : 0 = 1 := h.status.symm.trans h'.status
  cases hstatus

variable (s : Session) (task : Task)

theorem errors_perm {s : Session} {task : Task} {ds : List Diagnostic}
    (h : s.Accumulates task.query ds) :
    (errors ds).Perm (errors (s.answered task).diagnostics) := by
  rw [answered_diagnostics]
  exact h.perm.filter _

/-! ### The result of a task -/

theorem line_expand :
    s.line .expand = s.expanded.outcome >>= fun x => pure x.expanded.text := by
  rw [line, shown]
  cases s.expanded.outcome with
  | ok x => rw [Report.next_ok, x.outcome_shown]; rfl
  | error u => rfl
  | unfinished => rfl

theorem line_negate : s.line .negate = s.expanded.outcome >>= fun x =>
    (x.negated (.root 2) s.name).outcome >>= fun r => pure r.after := by
  rw [line, negated]
  cases s.expanded.outcome <;> rfl

/-- A check has its result as soon as there is an expanded predicate. -/
theorem line_check : s.line .check = s.expanded.outcome >>= fun _ => pure Task.noErrors := by
  rw [← answered_outcome, answered, Report.outcome_map, Report.outcome_bind, reached_outcome]
  cases s.expanded.outcome with
  | ok x => rw [Outcome.ok_bind, (x.checked_silent (.root 2) s.name).2]; rfl
  | error u => rfl
  | unfinished => rfl

theorem exists_line_expand :
    (∃ line, s.line .expand = .ok line) ↔ ∃ x, s.expanded.outcome = .ok x := by
  rw [line_expand]
  cases s.expanded.outcome <;> simp

theorem exists_line_check :
    (∃ line, s.line .check = .ok line) ↔ ∃ x, s.expanded.outcome = .ok x := by
  rw [line_check]
  cases s.expanded.outcome <;> simp

theorem exists_line_negate : (∃ line, s.line .negate = .ok line) ↔
    ∃ x, s.expanded.outcome = .ok x ∧ x.isPredicate = true := by
  rw [line_negate]
  cases s.expanded.outcome with
  | ok x =>
    simp only [Outcome.ok_bind, Outcome.bind_eq_ok, Outcome.ok.injEq, exists_eq_left',
      ← x.exists_negated_iff (.root 2) s.name]
    constructor
    · rintro ⟨_, r, hr, -⟩
      exact ⟨r, hr⟩
    · rintro ⟨r, hr⟩
      exact ⟨_, r, hr, rfl⟩
  | error u => simp
  | unfinished => simp

theorem lowered_ends : s.lowered.outcome ≠ .unfinished := by
  have hparsed : s.parsed.outcome ≠ .unfinished := Document.read_ends s.text
  rw [lowered]
  cases hdoc : s.parsed.outcome with
  | ok doc => exact doc.resolved_ends (.root 0)
  | error u => exact error_ne_unfinished u
  | unfinished => exact absurd hdoc hparsed

theorem line_ends (hexpanded : s.expanded.outcome ≠ .unfinished)
    (heval : ∀ arg, task = .eval arg → (s.evaluated arg).outcome ≠ .unfinished) :
    s.line task ≠ .unfinished := by
  cases task with
  | expand =>
    rw [line_expand]
    exact bind_ne_unfinished hexpanded fun _ _ => ok_ne_unfinished _
  | negate =>
    rw [line_negate]
    exact bind_ne_unfinished hexpanded fun x _ =>
      bind_ne_unfinished (x.negated_ends (.root 2) s.name) fun _ _ => ok_ne_unfinished _
  | check =>
    rw [line_check]
    exact bind_ne_unfinished hexpanded fun _ _ => ok_ne_unfinished _
  | eval arg => exact heval arg rfl

/-! ### What is printed -/

theorem succeeds_printed {line : String} (h : s.line task = .ok line) :
    s.Succeeds task (task.printed (s.answered task)) := by
  have houtcome : (s.answered task).outcome = .ok line := (s.answered_outcome task).trans h
  obtain ⟨hsilent, hstages⟩ := (s.told_answered task).silent (by rw [houtcome]; rfl)
  have hno : (s.answered task).hasError = false := Report.hasError_eq_false_iff.2 hsilent
  have hline : task.line? (s.answered task) = some line := by
    cases task with
    | check =>
      rw [line_check] at h
      obtain ⟨x, -, hx⟩ := Outcome.bind_eq_ok.1 h
      cases hx
      rw [Task.line?, hno]
      rfl
    | _ => simp only [Task.line?, Report.value?, houtcome]
  refine ⟨⟨line, h, by rw [Task.printed, hline]⟩, fun ds hds => ?_, hstages, ?_⟩
  · have hperm := errors_perm hds
    rw [hsilent] at hperm
    exact hperm.eq_nil
  · rw [Task.printed, hno]
    rfl

theorem fails_printed (h : s.line task = .error ()) :
    s.Fails task (task.printed (s.answered task)) := by
  have houtcome : (s.answered task).outcome = .error () := (s.answered_outcome task).trans h
  obtain ⟨d, hd, hphase⟩ := (s.told_answered task).error (by rw [houtcome]; rfl)
  have herror : (s.answered task).hasError = true := by
    by_contra hno
    rw [Bool.not_eq_true, Report.hasError_eq_false_iff, hd] at hno
    cases hno
  have hline : task.line? (s.answered task) = none := by
    cases task with
    | check => rw [Task.line?, herror, if_pos rfl]
    | _ => simp only [Task.line?, Report.value?, houtcome]
  refine ⟨h, by rw [Task.printed, hline], fun ds hds => ⟨d, ?_, hphase⟩, ?_⟩
  · have hperm := errors_perm hds
    rw [hd] at hperm
    exact List.perm_singleton.1 hperm
  · rw [Task.printed, herror]
    rfl

end Session

/-! ## Runs -/

/-- With more fuel a task tells the same and ends in the same way, unless it had not ended. -/
theorem Task.report_approx (task : Task) (name text : String) {fuel fuel' : Nat}
    (h : fuel ≤ fuel') :
    Report.Approx Eq (task.report fuel name text) (task.report fuel' name text) := by
  have hanalysis : Report.Approx Eq (Analysis.ofText fuel name text)
      (Analysis.ofText fuel' name text) := by
    refine .bind (r := Eq) (.refl (fun _ => rfl) _) ?_
    rintro doc _ rfl
    refine .bind (r := Eq) (.refl (fun _ => rfl) _) ?_
    rintro low _ rfl
    refine .bind (low.expanded_approx h _ name) ?_
    rintro x _ rfl
    exact .refl (fun _ => rfl) _
  refine hanalysis.bind ?_
  rintro a _ rfl
  cases task with
  | eval arg => exact a.expanded.evaluated_approx a.document a.lowered h _ arg
  | _ => exact .refl (fun _ => rfl) _

theorem Task.printed_congr (task : Task) {r r' : Report String} (houtcome : r.outcome = r'.outcome)
    (hdiagnostics : r.diagnostics = r'.diagnostics) : task.printed r = task.printed r' := by
  obtain ⟨o, ds, log⟩ := r
  obtain ⟨o', ds', log'⟩ := r'
  obtain rfl : o = o' := houtcome
  obtain rfl : ds = ds' := hdiagnostics
  cases task <;> rfl

namespace Command

variable {c : Command} {text : String} {fuel fuel' : Nat} {p : Printed}

/-- The text of the file in a workspace of its own. -/
def session (c : Command) (text : String) (fuel : Nat) : Session := ⟨c.file, text, fuel⟩

/-- With some fuel the run on a text ends, and this is printed. -/
def Ends (c : Command) (text : String) (fuel : Nat) (p : Printed) : Prop :=
  c.answer fuel (.ok text) = (.ok p : Outcome Empty Printed)

/-- The run on a text ends with status 0. -/
def Succeeds (c : Command) (text : String) : Prop :=
  ∃ fuel p, c.Ends text fuel p ∧ p.status = 0

/-- What must be so for a run to come to an end: no endless sequence of bodies to be inlined. For an
evaluation the calls that are left must name their lambdas, again with no endless sequence. -/
structure Bounded (c : Command) (text : String) : Prop where
  rules : ∀ fuel low, (c.session text fuel).lowered.outcome = .ok low →
    low.staticMembers.resolver.Grounded low.predicate.body
  calls : ∀ arg, c.task = .eval arg → ∀ fuel low x, (c.session text fuel).lowered.outcome = .ok low →
    (c.session text fuel).expanded.outcome = .ok x → low.staticMembers.Grounded x.expanded.body

theorem ends_iff_report : c.Ends text fuel p ↔
    (c.task.report fuel c.file text).outcome ≠ .unfinished ∧
      p = c.task.printed (c.task.report fuel c.file text) := by
  unfold Ends answer
  dsimp only
  cases (c.task.report fuel c.file text).outcome with
  | ok line => simp [eq_comm]
  | error u => simp [eq_comm]
  | unfinished => simp

theorem ends_iff : c.Ends text fuel p ↔ (c.session text fuel).line c.task ≠ .unfinished ∧
    p = c.task.printed ((c.session text fuel).answered c.task) := by
  have hreport : c.task.report fuel c.file text = (c.session text fuel).answered c.task :=
    (c.session text fuel).report_eq c.task
  rw [ends_iff_report, hreport, Session.answered_outcome]

theorem Ends.mono (h : c.Ends text fuel p) (hfuel : fuel ≤ fuel') : c.Ends text fuel' p := by
  obtain ⟨hended, rfl⟩ := ends_iff_report.1 h
  have happrox := c.task.report_approx c.file text hfuel
  have houtcome := happrox.outcome.eq_of_ended hended
  refine ends_iff_report.2 ⟨houtcome ▸ hended, ?_⟩
  exact c.task.printed_congr houtcome (happrox.diagnostics hended)

theorem Ends.cases (h : c.Ends text fuel p) :
    (∃ line, (c.session text fuel).line c.task = .ok line ∧
      (c.session text fuel).Succeeds c.task p) ∨
    ((c.session text fuel).line c.task = .error () ∧ (c.session text fuel).Fails c.task p) := by
  obtain ⟨hended, rfl⟩ := ends_iff.1 h
  cases hline : (c.session text fuel).line c.task with
  | ok line => exact .inl ⟨line, rfl, Session.succeeds_printed _ _ hline⟩
  | error u => exact .inr ⟨rfl, Session.fails_printed _ _ hline⟩
  | unfinished => exact absurd hline hended

theorem Bounded.expanded_ends (h : c.Bounded text) :
    ∃ bound, ∀ fuel, bound ≤ fuel → (c.session text fuel).expanded.outcome ≠ .unfinished := by
  have hsame : ∀ fuel, (c.session text fuel).lowered = (c.session text 0).lowered := fun _ => rfl
  cases hlow : (c.session text 0).lowered.outcome with
  | ok low =>
    obtain ⟨bound, hbound⟩ := low.expanded_ends (h.rules 0 low hlow)
    refine ⟨bound, fun fuel hfuel => ?_⟩
    rw [Session.expanded, hsame, hlow]
    exact hbound fuel hfuel _ _
  | error u =>
    refine ⟨0, fun fuel _ => ?_⟩
    rw [Session.expanded, hsame, hlow]
    exact error_ne_unfinished u
  | unfinished => exact absurd hlow (Session.lowered_ends _)

theorem expanded_eq_of_le (hfuel : fuel ≤ fuel')
    (hended : (c.session text fuel).expanded.outcome ≠ .unfinished) :
    (c.session text fuel').expanded.outcome = (c.session text fuel).expanded.outcome := by
  have hsame : (c.session text fuel').lowered = (c.session text fuel).lowered := rfl
  simp only [Session.expanded, hsame] at hended ⊢
  cases hlow : (c.session text fuel).lowered.outcome with
  | ok low =>
    rw [hlow] at hended
    exact ((low.expanded_approx hfuel _ _).outcome.eq_of_ended hended).symm
  | error u => rfl
  | unfinished => rfl

theorem Bounded.evaluated_ends (h : c.Bounded text) :
    ∃ bound, ∀ fuel, bound ≤ fuel → ∀ arg, c.task = .eval arg →
      ((c.session text fuel).evaluated arg).outcome ≠ .unfinished := by
  obtain ⟨bound, hbound⟩ := h.expanded_ends
  have hsame : ∀ fuel, bound ≤ fuel → (c.session text fuel).expanded.outcome =
      (c.session text bound).expanded.outcome :=
    fun fuel hfuel => expanded_eq_of_le hfuel (hbound bound (Nat.le_refl bound))
  have hparsed : ∀ fuel, (c.session text fuel).parsed = (c.session text bound).parsed :=
    fun _ => rfl
  have hlowered : ∀ fuel, (c.session text fuel).lowered = (c.session text bound).lowered :=
    fun _ => rfl
  cases hx : (c.session text bound).expanded.outcome with
  | ok x =>
    obtain ⟨doc, low, hdoc, hlow⟩ := Session.expanded_eq_ok _ hx
    by_cases htask : ∃ arg, c.task = .eval arg
    · obtain ⟨arg, harg⟩ := htask
      obtain ⟨n, hn⟩ := x.evaluated_ends doc low (h.calls arg harg bound low x hlow hx)
      refine ⟨max bound n, fun fuel hfuel arg' _ => ?_⟩
      rw [Session.evaluated, hsame fuel (Nat.le_trans (Nat.le_max_left bound n) hfuel), hx,
        hparsed, hdoc, hlowered, hlow]
      exact hn fuel (Nat.le_trans (Nat.le_max_right bound n) hfuel) _ _
    · exact ⟨0, fun _ _ arg harg => absurd ⟨arg, harg⟩ htask⟩
  | error u =>
    refine ⟨bound, fun fuel hfuel arg _ => ?_⟩
    rw [Session.evaluated, hsame fuel hfuel, hx]
    exact error_ne_unfinished u
  | unfinished => exact absurd hx (hbound bound (Nat.le_refl bound))

theorem Bounded.ends (h : c.Bounded text) : ∃ fuel p, c.Ends text fuel p := by
  obtain ⟨m, hm⟩ := h.expanded_ends
  obtain ⟨n, hn⟩ := h.evaluated_ends
  have hline := Session.line_ends (c.session text (max m n)) c.task
    (hm _ (Nat.le_max_left m n)) (hn _ (Nat.le_max_right m n))
  exact ⟨max m n, _, ends_iff.2 ⟨hline, rfl⟩⟩

theorem succeeds_iff :
    c.Succeeds text ↔ ∃ fuel line, (c.session text fuel).line c.task = .ok line := by
  constructor
  · rintro ⟨fuel, p, hends, hstatus⟩
    rcases hends.cases with ⟨line, hline, -⟩ | ⟨-, hfails⟩
    · exact ⟨fuel, line, hline⟩
    · have hone := hfails.status
      rw [hstatus] at hone
      cases hone
  · rintro ⟨fuel, line, hline⟩
    refine ⟨fuel, _, ends_iff.2 ⟨by rw [hline]; exact ok_ne_unfinished line, rfl⟩, ?_⟩
    exact (Session.succeeds_printed _ _ hline).status

/-- A run that ends does so in one of two ways. Either there is a result, which is printed, no error
has been told and the status is 0; or there is none, nothing is printed, one error has been told,
which is of the phase of the first stage that failed, and the status is 1. More fuel changes nothing
in that, and there is an end whenever there is no endless sequence of bodies to be inlined or, in an
evaluation, of named lambdas to be called. A check has a result exactly if expansion has one, and
negation exactly if expansion has one that can be negated. -/
theorem answer_ends (c : Command) (text : String) :
    (∀ fuel p, c.Ends text fuel p →
      (∀ fuel', fuel ≤ fuel' → c.Ends text fuel' p) ∧
      (∃ ds, (c.session text fuel).Accumulates c.task.query ds ∧
        p.err = String.join (ds.map fun d => d.text ++ "\n")) ∧
      Xor ((c.session text fuel).Succeeds c.task p) ((c.session text fuel).Fails c.task p)) ∧
    (c.Bounded text → ∃ fuel p, c.Ends text fuel p) ∧
    (Succeeds ⟨.check, c.file⟩ text ↔ Succeeds ⟨.expand, c.file⟩ text) ∧
    (Succeeds ⟨.negate, c.file⟩ text ↔ Succeeds ⟨.expand, c.file⟩ text ∧
      ∃ fuel x, (c.session text fuel).expanded.outcome = .ok x ∧ x.isPredicate = true) := by
  refine ⟨fun fuel p hends => ⟨fun fuel' hfuel => hends.mono hfuel, ?_, ?_⟩, Bounded.ends, ?_, ?_⟩
  · obtain ⟨-, rfl⟩ := ends_iff.1 hends
    refine ⟨_, Session.accumulates_trail _ _, ?_⟩
    rw [← Session.answered_diagnostics]
    rfl
  · rcases hends.cases with ⟨line, -, hsucceeds⟩ | ⟨-, hfails⟩
    · exact .inl ⟨hsucceeds, hsucceeds.not_fails⟩
    · exact .inr ⟨hfails, fun hsucceeds => hsucceeds.not_fails hfails⟩
  · simp only [succeeds_iff, session, Session.exists_line_check, Session.exists_line_expand]
  · simp only [succeeds_iff, session, Session.exists_line_negate, Session.exists_line_expand]
    exact ⟨fun ⟨fuel, x, hx, hpredicate⟩ => ⟨⟨fuel, x, hx⟩, fuel, x, hx, hpredicate⟩, And.right⟩

namespace Ruled

/-- The rule `R::f` is `|x: int| x > 0`, and the predicate `|p: int| expand(R::f, p)`. -/
def source : String :=
  "[\x7b\"R\":\x7b\"f\":[\"lambda\",[[\"x\",\"int\"]]," ++
  "[\"binary\",\"gt\",[\"param\",\"x\"],[\"literal\",0]]]\x7d\x7d,\x7b\x7d," ++
  "[\"lambda\",[[\"p\",\"int\"]],[\"expand\",[\"member\",null,\"R\",\"f\",\"int\"]," ++
  "[[\"param\",\"p\"]],\"bool\"]]]"

def negate : Command := ⟨.negate, "rules.json"⟩

def printed : Printed := ⟨"|p: int| (p <= 0)\n", "", 0⟩

/-- The rule calls no other. -/
def isGrounded (x : Outcome Unit Lowered) : Bool :=
  match x with
  | .ok low => low.staticMembers.resolver.groundedWithin 1 low.predicate.body
  | _ => false

theorem bounded : negate.Bounded source where
  rules fuel low hlow := by
    have hcheck : isGrounded (negate.session source 0).lowered.outcome = true := by decide +kernel
    have hlow : (negate.session source 0).lowered.outcome = .ok low := hlow
    rw [hlow] at hcheck
    exact Resolver.grounded_of_within hcheck
  calls arg harg := by cases harg

end Ruled

open Ruled in
theorem answer_ends_negated :
    negate.Ends source 1 printed ∧ negate.Bounded source ∧ (∃ fuel p, negate.Ends source fuel p) ∧
      Xor ((negate.session source 1).Succeeds .negate printed)
        ((negate.session source 1).Fails .negate printed) := by
  have hends : negate.Ends source 1 printed := by
    unfold Ends
    decide +kernel
  obtain ⟨hrun, hbounded, -⟩ := answer_ends negate source
  exact ⟨hends, bounded, hbounded bounded, (hrun 1 printed hends).2.2⟩

namespace Circular

/-- The rule `R::f` is `|x: int| expand(R::f, x)`, and the predicate `|p: int| expand(R::f, p)`. -/
def source : String :=
  "[\x7b\"R\":\x7b\"f\":[\"lambda\",[[\"x\",\"int\"]]," ++
  "[\"expand\",[\"member\",null,\"R\",\"f\",\"int\"],[[\"param\",\"x\"]],\"bool\"]]\x7d\x7d,\x7b\x7d," ++
  "[\"lambda\",[[\"p\",\"int\"]],[\"expand\",[\"member\",null,\"R\",\"f\",\"int\"]," ++
  "[[\"param\",\"p\"]],\"bool\"]]]"

def expand : Command := ⟨.expand, "rules.json"⟩

/-- The predicate hands on to a rule that hands on to itself. -/
def isCircular (x : Outcome Unit Lowered) : Bool :=
  match x with
  | .ok low =>
    (low.staticMembers.resolver.forwarded? low.predicate.body).any fun l =>
      low.staticMembers.resolver.forwarded? l.body = some l
  | _ => false

theorem line_unfinished (fuel : Nat) :
    (expand.session source fuel).line .expand = .unfinished := by
  have hcheck : isCircular (expand.session source 0).lowered.outcome = true := by decide +kernel
  have hsame : (expand.session source fuel).lowered = (expand.session source 0).lowered := rfl
  rw [Session.line_expand, Session.expanded, hsame]
  cases hlow : (expand.session source 0).lowered.outcome with
  | ok low =>
    rw [hlow] at hcheck
    obtain ⟨l, hl, hself⟩ := (Option.any_eq_true ..).1 hcheck
    have hforwards : ∀ e, low.staticMembers.resolver.forwarded? e = some l →
        ∃ k, low.staticMembers.resolver.Forwards e k ∧
          low.staticMembers.resolver.forwarded? k.body = some l :=
      fun e he => ⟨l, Resolver.forwards_of_forwarded? he, of_decide_eq_true hself⟩
    rw [Report.next_ok, low.expanded_unfinished hforwards hl]
    rfl
  | error | unfinished =>
    rw [hlow] at hcheck
    cases hcheck

end Circular

open Circular in
/-- With no fuel the run on a rule that expands itself comes to an end, be it with a result or
without one. A number with a sign behind the option is refused as an option, which ends the program
with a third status. -/
theorem not_ends_circular :
    (∀ fuel p, ¬expand.Ends source fuel p ∧
      ¬(expand.session source fuel).Succeeds .expand p ∧
      ¬(expand.session source fuel).Fails .expand p) ∧
    ∀ fuel disk, run fuel disk ["eval", "rules.json", "--arg", "-5"] = .error .usage ∧
      (Refusal.printed .usage).status = 2 := by
  refine ⟨fun fuel p => ⟨fun hends => ?_, fun hsucceeds => ?_, fun hfails => ?_⟩,
    fun fuel disk => ?_⟩
  · exact (ends_iff.1 hends).1 (line_unfinished fuel)
  · obtain ⟨line, hline, -⟩ := hsucceeds.result
    cases (line_unfinished fuel).symm.trans hline
  · cases (line_unfinished fuel).symm.trans hfails.result
  · have hrefused : ofArguments ["eval", "rules.json", "--arg", "-5"] = .error .usage := by
      decide +kernel
    rw [run, hrefused]
    exact ⟨rfl, rfl⟩

end Command

end PredicateTree
