import Mathlib.Logic.Relation
import PredicateTree.Proofs.Json
import PredicateTree.Proofs.Memo
import PredicateTree.Workspace

/-!
# Proofs.Workspace

After any edits an answer of the workspace is the one worked out afresh.

A stage that runs again does so where the question is asked, and what it makes may stay for a later
text that says the same, as `Document.agrees` has it: with `-0.0` in the place of `0.0`, say. So an
answer worked out afresh is one that each stage makes, somewhere, of an outcome that is the same
result as the one of the stage before (`LoweringOf`, `ExpansionOf`, `NegationOf`, `ValueOf`).

* `Entry.Valid`: the memos of a document are sound for its text.
* `Entry.Asked`: what a question leaves of a document. `document_asked`, `lowering_asked` and
  `expansion_asked` say so of the stages, and that the memos are up to date then.
* `Entry.expansion_setText`: an edit that changes the layout only is read and nothing more.
* `Question`: the questions, each with what its answer is afresh.
* `Request.Valid`: what is kept for a request is sound for its document.
* `Step`, `Valid.step`, `Valid.run`: what can be done to a workspace, and what one step and all of
  them keep up.
* `ask_afresh`, `evaluate_afresh`: the answers.
-/

namespace PredicateTree

open Memo (Follows Made SameResult Sound refresh_of_seen_eq seen_refresh follows_refresh
  sound_refresh)

/-! ## The same result -/

instance : IsTrans Document (Document.agrees · · = true) := ⟨fun _ _ _ => Json.agrees_trans⟩

theorem isEqv_trans {α : Type} {r : α → α → Bool}
    (hr : ∀ a b c, r a b = true → r b c = true → r a c = true) :
    ∀ {as bs cs : List α}, as.isEqv bs r = true → bs.isEqv cs r = true → as.isEqv cs r = true
  | [], [], _, _, h' => h'
  | _ :: _, _ :: _, _ :: _, h, h' => by
    rw [List.isEqv, Bool.and_eq_true] at h h' ⊢
    exact ⟨hr _ _ _ h.1 h'.1, isEqv_trans hr h.2 h'.2⟩

instance : IsTrans Expanded (Expanded.alike · · = true) where
  trans x y z h h' := by
    simp only [Expanded.alike, Bool.and_eq_true, Lambda.alike_iff] at h h' ⊢
    exact ⟨h.1.trans h'.1, h.2.trans h'.2⟩

theorem alikeEntries_trans {t u v : Table Value}
    (h : List.isEqv t u (fun d e => d.1 = e.1 && d.2.alike e.2) = true)
    (h' : List.isEqv u v (fun d e => d.1 = e.1 && d.2.alike e.2) = true) :
    List.isEqv t v (fun d e => d.1 = e.1 && d.2.alike e.2) = true := by
  refine isEqv_trans (fun d e f hde hef => ?_) h h'
  simp only [Bool.and_eq_true, decide_eq_true_eq, Value.alike_iff] at hde hef ⊢
  exact ⟨hde.1.trans hef.1, hde.2.trans hef.2⟩

instance : IsTrans Lowered (Lowered.alike · · = true) where
  trans l m n h h' := by
    simp only [Lowered.alike, Bool.and_eq_true, Lambda.alike_iff] at h h' ⊢
    obtain ⟨⟨hp, hc⟩, hs⟩ := h
    obtain ⟨⟨hp', hc'⟩, hs'⟩ := h'
    refine ⟨⟨hp.trans hp', alikeEntries_trans hc hc'⟩, isEqv_trans (fun d e f hde hef => ?_) hs hs'⟩
    simp only [Bool.and_eq_true, decide_eq_true_eq] at hde hef ⊢
    exact ⟨hde.1.trans hef.1, alikeEntries_trans hde.2 hef.2⟩

namespace Workspace

/-! ## What the stages make -/

def LoweringOf (x : Outcome Unit Document) : Report Lowered → Prop :=
  Made Document.agrees (fun site doc => doc.resolved site) x

def ExpansionOf (fuel : Nat) (name : String) (x : Outcome Unit Lowered) : Report Expanded → Prop :=
  Made Lowered.alike (fun site low => low.expanded fuel site name) x

def NegationOf (name : String) (x : Outcome Unit Expanded) : Report Rendered → Prop :=
  Made Expanded.alike (fun site p => p.negated site name) x

/-- An evaluation reads three stages. -/
def ValueOf (fuel : Nat) (arg : String) (d : Outcome Unit Document) (l : Outcome Unit Lowered)
    (x : Outcome Unit Expanded) (r : Report String) : Prop :=
  ∃ site d' l' x', SameResult Document.agrees d' d ∧ SameResult Lowered.alike l' l ∧
    SameResult Expanded.alike x' x ∧
    r = Report.next x' fun p => Report.next d' fun doc => Report.next l' fun low =>
      p.evaluated doc low fuel site arg

/-! ## Documents -/

namespace Entry

variable {fuel : Nat} {site : Site} {e e' e'' : Entry} {d : Memo Nat Document}
  {l : Memo Nat Lowered} {x : Memo Nat Expanded} {n : Memo Nat Rendered}

/-- Every memo is sound for what it was made from, the first one for the text. -/
structure Valid (fuel : Nat) (e : Entry) : Prop where
  read : ∀ d, e.read = some d → d.Sound e.edits (· = Document.read e.text)
  lowered : ∀ l, e.lowered = some l →
    ∃ d, e.read = some d ∧ l.Sound d.stamp (LoweringOf d.report.outcome)
  expanded : ∀ x, e.expanded = some x →
    ∃ l, e.lowered = some l ∧ x.Sound l.stamp (ExpansionOf fuel e.name l.report.outcome)
  negated : ∀ n, e.negated = some n →
    ∃ x, e.expanded = some x ∧ n.Sound x.stamp (NegationOf e.name x.report.outcome)

/-- The memos of `e'` are those of `e` after any number of refreshes. -/
structure Grows (e e' : Entry) : Prop where
  read : ∀ d, e.read = some d → ∃ d', e'.read = some d' ∧ Follows Document.agrees d d'
  lowered : ∀ l, e.lowered = some l → ∃ l', e'.lowered = some l' ∧ Follows Lowered.alike l l'
  expanded : ∀ x, e.expanded = some x → ∃ x', e'.expanded = some x' ∧ Follows Expanded.alike x x'

theorem Grows.of_same (hread : e'.read = e.read) (hlowered : e'.lowered = e.lowered)
    (hexpanded : e'.expanded = e.expanded) : e.Grows e' where
  read d hd := ⟨d, hread.trans hd, .refl d⟩
  lowered l hl := ⟨l, hlowered.trans hl, .refl l⟩
  expanded x hx := ⟨x, hexpanded.trans hx, .refl x⟩

theorem Grows.trans (h : e.Grows e') (h' : e'.Grows e'') : e.Grows e'' where
  read d hd := by
    obtain ⟨d', hd', hfollows⟩ := h.read d hd
    obtain ⟨d'', hd'', hfollows'⟩ := h'.read d' hd'
    exact ⟨d'', hd'', hfollows.trans hfollows'⟩
  lowered l hl := by
    obtain ⟨l', hl', hfollows⟩ := h.lowered l hl
    obtain ⟨l'', hl'', hfollows'⟩ := h'.lowered l' hl'
    exact ⟨l'', hl'', hfollows.trans hfollows'⟩
  expanded x hx := by
    obtain ⟨x', hx', hfollows⟩ := h.expanded x hx
    obtain ⟨x'', hx'', hfollows'⟩ := h'.expanded x' hx'
    exact ⟨x'', hx'', hfollows.trans hfollows'⟩

/-- What a question leaves: the same text, and memos that are sound for it. -/
structure Asked (fuel : Nat) (e e' : Entry) : Prop where
  valid : e'.Valid fuel
  grows : e.Grows e'
  name : e'.name = e.name
  text : e'.text = e.text

theorem Asked.refl (h : e.Valid fuel) : Asked fuel e e := ⟨h, .of_same rfl rfl rfl, rfl, rfl⟩

theorem Asked.trans (h : Asked fuel e e') (h' : Asked fuel e' e'') : Asked fuel e e'' :=
  ⟨h'.valid, h.grows.trans h'.grows, h'.name.trans h.name, h'.text.trans h.text⟩

/-! ### Edits -/

/-- A new text makes no memo unsound: what was read has not seen it. -/
theorem Valid.setText (h : e.Valid fuel) (text : String) : (e.setText text).Valid fuel where
  read d hd := by
    have hle := (h.read d hd).seen_le
    refine ⟨Nat.le_succ_of_le hle, fun hseen => ?_⟩
    have hlater : d.seen = e.edits + 1 := hseen
    omega
  lowered := h.lowered
  expanded := h.expanded
  negated := h.negated

theorem valid_new (name text : String) : Valid fuel { name := name, text := text } where
  read d hd := by cases hd
  lowered l hl := by cases hl
  expanded x hx := by cases hx
  negated n hn := by cases hn

/-! ### Memos put in the place of others -/

theorem Valid.withRead (h : e.Valid fuel) (hsound : d.Sound e.edits (· = Document.read e.text))
    (hfollows : ∀ d₀, e.read = some d₀ → Follows Document.agrees d₀ d) (log : List LogEntry) :
    Asked fuel e { e with read := some d, log := log } where
  valid := {
    read := fun d' hd' => by
      cases hd'
      exact hsound
    lowered := fun l hl => by
      obtain ⟨d₀, hd₀, hl⟩ := h.lowered l hl
      have hd := hfollows d₀ hd₀
      exact ⟨d, rfl, hl.mono hd.stamp_le fun hstamp r hr => Made.of_same hr (hd.result hstamp)⟩
    expanded := h.expanded
    negated := h.negated }
  grows := {
    read := fun d₀ hd₀ => ⟨d, rfl, hfollows d₀ hd₀⟩
    lowered := fun l hl => ⟨l, hl, .refl l⟩
    expanded := fun x hx => ⟨x, hx, .refl x⟩ }
  name := rfl
  text := rfl

theorem Valid.withLowered (h : e.Valid fuel) (hd : e.read = some d)
    (hsound : l.Sound d.stamp (LoweringOf d.report.outcome))
    (hfollows : ∀ l₀, e.lowered = some l₀ → Follows Lowered.alike l₀ l) (log : List LogEntry) :
    Asked fuel e { e with lowered := some l, log := log } where
  valid := {
    read := h.read
    lowered := fun l' hl' => by
      cases hl'
      exact ⟨d, hd, hsound⟩
    expanded := fun x hx => by
      obtain ⟨l₀, hl₀, hx⟩ := h.expanded x hx
      have hl := hfollows l₀ hl₀
      exact ⟨l, rfl, hx.mono hl.stamp_le fun hstamp r hr => Made.of_same hr (hl.result hstamp)⟩
    negated := h.negated }
  grows := {
    read := fun d hd => ⟨d, hd, .refl d⟩
    lowered := fun l₀ hl₀ => ⟨l, rfl, hfollows l₀ hl₀⟩
    expanded := fun x hx => ⟨x, hx, .refl x⟩ }
  name := rfl
  text := rfl

theorem Valid.withExpanded (h : e.Valid fuel) (hl : e.lowered = some l)
    (hsound : x.Sound l.stamp (ExpansionOf fuel e.name l.report.outcome))
    (hfollows : ∀ x₀, e.expanded = some x₀ → Follows Expanded.alike x₀ x) (log : List LogEntry) :
    Asked fuel e { e with expanded := some x, log := log } where
  valid := {
    read := h.read
    lowered := h.lowered
    expanded := fun x' hx' => by
      cases hx'
      exact ⟨l, hl, hsound⟩
    negated := fun n hn => by
      obtain ⟨x₀, hx₀, hn⟩ := h.negated n hn
      have hx := hfollows x₀ hx₀
      exact ⟨x, rfl, hn.mono hx.stamp_le fun hstamp r hr => Made.of_same hr (hx.result hstamp)⟩ }
  grows := {
    read := fun d hd => ⟨d, hd, .refl d⟩
    lowered := fun l hl => ⟨l, hl, .refl l⟩
    expanded := fun x₀ hx₀ => ⟨x, rfl, hfollows x₀ hx₀⟩ }
  name := rfl
  text := rfl

theorem Valid.withNegated (h : e.Valid fuel) (hx : e.expanded = some x)
    (hsound : n.Sound x.stamp (NegationOf e.name x.report.outcome)) (log : List LogEntry) :
    Asked fuel e { e with negated := some n, log := log } where
  valid := {
    read := h.read
    lowered := h.lowered
    expanded := h.expanded
    negated := fun n' hn' => by
      cases hn'
      exact ⟨x, hx, hsound⟩ }
  grows := .of_same rfl rfl rfl
  name := rfl
  text := rfl

theorem Valid.withLog (h : e.Valid fuel) (log : List LogEntry) :
    Asked fuel e { e with log := log } where
  valid := { read := h.read, lowered := h.lowered, expanded := h.expanded, negated := h.negated }
  grows := .of_same rfl rfl rfl
  name := rfl
  text := rfl

/-! ### Memos that are up to date -/

/-- What is kept has been read from the text as it is. -/
structure HasDocument (e : Entry) (d : Memo Nat Document) : Prop where
  read : e.read = some d
  seen : d.seen = e.edits

structure HasLowered (e : Entry) (d : Memo Nat Document) (l : Memo Nat Lowered) : Prop
    extends e.HasDocument d where
  lowered : e.lowered = some l
  stamp : l.seen = d.stamp

structure HasExpanded (e : Entry) (d : Memo Nat Document) (l : Memo Nat Lowered)
    (x : Memo Nat Expanded) : Prop extends e.HasLowered d l where
  expanded : e.expanded = some x
  loweredStamp : x.seen = l.stamp

/-- One question asked after another. -/
theorem run_bind_eq {α β : Type} {q : StateM Entry α} {k : α → StateM Entry β} {a : α}
    (h : q.run e = (a, e')) : (q >>= k).run e = (k a).run e' := by
  rw [StateT.run_bind, h]
  rfl

theorem run_document_eq (e : Entry) : document.run e =
    let r := Memo.refresh Document.agrees e.read e.edits fun _ => Document.read e.text
    (r.1, { e with read := some r.1, log := e.log ++ r.2 }) := rfl

/-- What is up to date is handed out as it is. -/
theorem run_document (h : e.HasDocument d) : document.run e = (d, e) := by
  have hrefresh : Memo.refresh Document.agrees e.read e.edits (fun _ => Document.read e.text) =
      (d, []) := by
    rw [h.read, ← h.seen, refresh_of_seen_eq]
  rw [run_document_eq, hrefresh]
  simp only [List.append_nil, ← h.read]

theorem run_lowering_eq (h : e.HasDocument d) (site : Site) : (lowering site).run e =
    let r := Memo.refresh Lowered.alike e.lowered d.stamp fun _ =>
      Report.next d.report.outcome fun doc => doc.resolved (site.child 0)
    (r.1, { e with lowered := some r.1, log := e.log ++ r.2 }) := run_bind_eq (run_document h)

theorem run_lowering (h : e.HasLowered d l) (site : Site) : (lowering site).run e = (l, e) := by
  rw [run_lowering_eq h.toHasDocument, h.lowered, ← h.stamp, refresh_of_seen_eq]
  simp only [List.append_nil, ← h.lowered]

theorem run_expansion_eq (h : e.HasLowered d l) (fuel : Nat) (site : Site) :
    (expansion fuel site).run e =
      let r := Memo.refresh Expanded.alike e.expanded l.stamp fun _ =>
        Report.next l.report.outcome fun low => low.expanded fuel (site.child 1) e.name
      (r.1, { e with expanded := some r.1, log := e.log ++ r.2 }) :=
  run_bind_eq (run_lowering h site)

theorem run_expansion (h : e.HasExpanded d l x) (fuel : Nat) (site : Site) :
    (expansion fuel site).run e = (x, e) := by
  rw [run_expansion_eq h.toHasLowered, h.expanded, ← h.loweredStamp, refresh_of_seen_eq]
  simp only [List.append_nil, ← h.expanded]

theorem run_negation_eq (h : e.HasExpanded d l x) (fuel : Nat) (site : Site) :
    (negation fuel site).run e =
      let r := Memo.refresh (· = ·) e.negated x.stamp fun _ =>
        Report.next x.report.outcome fun p => p.negated (site.child 2) e.name
      (r.1, { e with negated := some r.1, log := e.log ++ r.2 }) :=
  run_bind_eq (run_expansion h fuel site)

/-! ### What they hold -/

theorem Valid.document_eq (hv : e.Valid fuel) (h : e.HasDocument d) :
    d.report = Document.read e.text := (hv.read d h.read).report h.seen

theorem Valid.loweringOf (hv : e.Valid fuel) (h : e.HasLowered d l) :
    LoweringOf (Document.read e.text).outcome l.report := by
  obtain ⟨d', hd', hl⟩ := hv.lowered l h.lowered
  cases h.read.symm.trans hd'
  rw [← hv.document_eq h.toHasDocument]
  exact hl.report h.stamp

theorem Valid.expansionOf (hv : e.Valid fuel) (h : e.HasExpanded d l x) :
    ExpansionOf fuel e.name l.report.outcome x.report := by
  obtain ⟨l', hl', hx⟩ := hv.expanded x h.expanded
  cases h.lowered.symm.trans hl'
  exact hx.report h.loweredStamp

/-! ### The stages -/

theorem document_asked (hv : e.Valid fuel) :
    ∃ d e', document.run e = (d, e') ∧ Asked fuel e e' ∧ e'.HasDocument d := by
  have hsound : Sound e.edits (· = Document.read e.text)
      (Memo.refresh Document.agrees e.read e.edits fun _ => Document.read e.text).1 :=
    sound_refresh (fun d hd => (hv.read d hd).report) rfl
  refine ⟨_, _, run_document_eq e, hv.withRead hsound (fun d₀ hd₀ => ?_) _, rfl, seen_refresh ..⟩
  rw [hd₀]
  exact follows_refresh d₀

theorem lowering_of_document (hv : e.Valid fuel) (h : e.HasDocument d) (site : Site) :
    ∃ l e', (lowering site).run e = (l, e') ∧ Asked fuel e e' ∧ e'.HasLowered d l := by
  have hsound : Sound d.stamp (LoweringOf d.report.outcome)
      (Memo.refresh Lowered.alike e.lowered d.stamp fun _ =>
        Report.next d.report.outcome fun doc => doc.resolved (site.child 0)).1 := by
    refine sound_refresh (fun l hl => ?_) (Made.now _ (site.child 0) _)
    obtain ⟨d', hd', hl⟩ := hv.lowered l hl
    cases h.read.symm.trans hd'
    exact hl.report
  refine ⟨_, _, run_lowering_eq h site, hv.withLowered h.read hsound (fun l₀ hl₀ => ?_) _,
    ⟨h.read, h.seen⟩, rfl, seen_refresh ..⟩
  rw [hl₀]
  exact follows_refresh l₀

theorem expansion_of_lowered (hv : e.Valid fuel) (h : e.HasLowered d l) (site : Site) :
    ∃ x e', (expansion fuel site).run e = (x, e') ∧ Asked fuel e e' ∧ e'.HasExpanded d l x := by
  have hsound : Sound l.stamp (ExpansionOf fuel e.name l.report.outcome)
      (Memo.refresh Expanded.alike e.expanded l.stamp fun _ =>
        Report.next l.report.outcome fun low => low.expanded fuel (site.child 1) e.name).1 := by
    refine sound_refresh (fun x hx => ?_) (Made.now _ (site.child 1) _)
    obtain ⟨l', hl', hx⟩ := hv.expanded x hx
    cases h.lowered.symm.trans hl'
    exact hx.report
  refine ⟨_, _, run_expansion_eq h fuel site,
    hv.withExpanded h.lowered hsound (fun x₀ hx₀ => ?_) _,
    ⟨⟨h.read, h.seen⟩, h.lowered, h.stamp⟩, rfl, seen_refresh ..⟩
  rw [hx₀]
  exact follows_refresh x₀

theorem negation_of_expanded (hv : e.Valid fuel) (h : e.HasExpanded d l x) (site : Site) :
    ∃ n e', (negation fuel site).run e = (n, e') ∧ Asked fuel e e' ∧
      NegationOf e.name x.report.outcome n.report := by
  have hsound : Sound x.stamp (NegationOf e.name x.report.outcome)
      (Memo.refresh (· = ·) e.negated x.stamp fun _ =>
        Report.next x.report.outcome fun p => p.negated (site.child 2) e.name).1 := by
    refine sound_refresh (fun n hn => ?_) (Made.now _ (site.child 2) _)
    obtain ⟨x', hx', hn⟩ := hv.negated n hn
    cases h.expanded.symm.trans hx'
    exact hn.report
  exact ⟨_, _, run_negation_eq h fuel site, hv.withNegated h.expanded hsound _,
    hsound.report (seen_refresh ..)⟩

/-- A stage asks the one before it, which is up to date the second time. -/
theorem run_lowering_of_document (hrun : document.run e = (d, e')) (h : e'.HasDocument d)
    (site : Site) : (lowering site).run e = (lowering site).run e' := by
  rw [lowering, run_bind_eq hrun, run_bind_eq (run_document h)]

theorem run_expansion_of_lowering (hrun : (lowering site).run e = (l, e')) (h : e'.HasLowered d l)
    (fuel : Nat) : (expansion fuel site).run e = (expansion fuel site).run e' := by
  rw [expansion, run_bind_eq hrun, run_bind_eq (run_lowering h site)]

theorem lowering_asked (hv : e.Valid fuel) (site : Site) :
    ∃ d l e', (lowering site).run e = (l, e') ∧ Asked fuel e e' ∧ e'.HasLowered d l := by
  obtain ⟨d, e₁, hrun, hasked, hd⟩ := document_asked hv
  obtain ⟨l, e₂, hrun₂, hasked₂, hl⟩ := lowering_of_document hasked.valid hd site
  refine ⟨d, l, e₂, ?_, hasked.trans hasked₂, hl⟩
  rw [run_lowering_of_document hrun hd, hrun₂]

theorem expansion_asked (hv : e.Valid fuel) (site : Site) :
    ∃ d l x e', (expansion fuel site).run e = (x, e') ∧ Asked fuel e e' ∧
      e'.HasExpanded d l x := by
  obtain ⟨d, l, e₁, hrun, hasked, hl⟩ := lowering_asked hv site
  obtain ⟨x, e₂, hrun₂, hasked₂, hx⟩ := expansion_of_lowered hasked.valid hl site
  refine ⟨d, l, x, e₂, ?_, hasked.trans hasked₂, hx⟩
  rw [run_expansion_of_lowering hrun hl, hrun₂]

/-! ### Reports -/

theorem run_loweredReport (h : e.HasLowered d l) (site : Site) : (loweredReport site).run e =
    ({ l.report with diagnostics := d.report.diagnostics ++ l.report.diagnostics }, e) :=
  (run_bind_eq (run_document h.toHasDocument)).trans (run_bind_eq (run_lowering h site))

theorem run_expandedReport (h : e.HasExpanded d l x) (fuel : Nat) (site : Site) :
    (expandedReport fuel site).run e = ({ x.report with
      diagnostics :=
        d.report.diagnostics ++ l.report.diagnostics ++ x.report.diagnostics }, e) :=
  (run_bind_eq (run_loweredReport h.toHasLowered site)).trans
    (run_bind_eq (run_expansion h fuel site))

theorem loweredReport_asked (hv : e.Valid fuel) (site : Site) :
    ∃ d l e', (loweredReport site).run e =
      ({ l.report with diagnostics := d.report.diagnostics ++ l.report.diagnostics }, e') ∧
      Asked fuel e e' ∧ e'.HasLowered d l := by
  obtain ⟨d, e₁, hrun, hasked, hd⟩ := document_asked hv
  obtain ⟨l, e₂, hrun₂, hasked₂, hl⟩ := lowering_of_document hasked.valid hd site
  exact ⟨d, l, e₂, (run_bind_eq hrun).trans (run_bind_eq hrun₂), hasked.trans hasked₂, hl⟩

theorem expandedReport_asked (hv : e.Valid fuel) (site : Site) :
    ∃ d l x e', (expandedReport fuel site).run e = ({ x.report with
      diagnostics := d.report.diagnostics ++ l.report.diagnostics ++ x.report.diagnostics }, e') ∧
      Asked fuel e e' ∧ e'.HasExpanded d l x := by
  obtain ⟨d, l, e₁, hrun, hasked, hl⟩ := loweredReport_asked hv site
  obtain ⟨x, e₂, hrun₂, hasked₂, hx⟩ := expansion_of_lowered hasked.valid hl site
  exact ⟨d, l, x, e₂, (run_bind_eq hrun).trans (run_bind_eq hrun₂), hasked.trans hasked₂, hx⟩

/-! ### Edits of the layout -/

/-- If the new text says the same as the old one, it is read and nothing else is done: what was made
of the old text is handed out. -/
theorem expansion_setText (h : e.HasExpanded d l x) {text : String}
    (hsame : Memo.sameResult Document.agrees d.report.outcome (Document.read text).outcome = true)
    (site : Site) :
    ∃ e', (expansion fuel site).run (e.setText text) = (x, e') ∧
      e'.log = e.log ++ (Document.read text).log := by
  let d' : Memo Nat Document := ⟨e.edits + 1, Document.read text, d.stamp⟩
  let e' : Entry :=
    { e.setText text with read := some d', log := e.log ++ (Document.read text).log }
  have hseen : d.seen ≠ e.edits + 1 := by
    have := h.seen
    omega
  have hrun : document.run (e.setText text) = (d', e') := by
    rw [run_document_eq]
    simp only [Entry.setText, h.read, Memo.refresh, if_neg hseen, Memo.renew, hsame, if_true]
    rfl
  have hx : e'.HasExpanded d' l x :=
    ⟨⟨⟨rfl, rfl⟩, h.lowered, h.stamp⟩, h.expanded, h.loweredStamp⟩
  have hlowering : (lowering site).run (e.setText text) = (l, e') := by
    rw [run_lowering_of_document hrun hx.toHasDocument, run_lowering hx.toHasLowered]
  refine ⟨e', ?_, rfl⟩
  rw [run_expansion_of_lowering hlowering hx.toHasLowered, run_expansion hx]

end Entry

/-! ## Questions -/

/-- The stages up to expansion, one after the other on a text. -/
structure StagesOf (fuel : Nat) (name text : String) (l : Report Lowered) (x : Report Expanded) :
    Prop where
  lowered : LoweringOf (Document.read text).outcome l
  expanded : ExpansionOf fuel name l.outcome x

/-- The result of expansion with all that was told on the way to it. -/
def told (text : String) (l : Report Lowered) (x : Report Expanded) : Report Expanded :=
  { x with diagnostics := (Document.read text).diagnostics ++ l.diagnostics ++ x.diagnostics }

/-- A question about a document, and what its answer is afresh: for the name and the text of the
document. -/
inductive Question :
    {α : Type} → (Nat → Site → StateM Entry α) → (Nat → String → String → α → Prop) → Prop where
  | document : Question (fun _ _ => Entry.document) fun _ _ text m => m.report = Document.read text
  | lowered : Question (fun _ site => Entry.loweredReport site) fun _ _ text r =>
      ∃ l, LoweringOf (Document.read text).outcome l ∧
        r = { l with diagnostics := (Document.read text).diagnostics ++ l.diagnostics }
  | expanded : Question Entry.expandedReport fun fuel name text r =>
      ∃ l x, StagesOf fuel name text l x ∧ r = told text l x
  | shown : Question Entry.shownReport fun fuel name text r =>
      ∃ l x, StagesOf fuel name text l x ∧ r = told text l x >>= Expanded.shown
  | negated : Question Entry.negatedReport fun fuel name text r =>
      ∃ l x n, StagesOf fuel name text l x ∧ NegationOf name x.outcome n ∧
        r = { n with diagnostics := (told text l x).diagnostics ++ n.diagnostics }
  | checked : Question Entry.checkedReport fun fuel name text r =>
      ∃ l x n, StagesOf fuel name text l x ∧ NegationOf name x.outcome n ∧
        r = do
          let _ ← told text l x >>= Expanded.shown
          if x.value?.any Expanded.isPredicate then
            let _ ← n

variable {α : Type} {fuel : Nat} {e e' : Entry} {d : Memo Nat Document} {l : Memo Nat Lowered}
  {x : Memo Nat Expanded} {q : Nat → Site → StateM Entry α}
  {afresh : Nat → String → String → α → Prop}

theorem stagesOf (hasked : Entry.Asked fuel e e') (h : e'.HasExpanded d l x) :
    StagesOf fuel e.name e.text l.report x.report where
  lowered := by
    rw [← hasked.text]
    exact hasked.valid.loweringOf h.toHasLowered
  expanded := by
    rw [← hasked.name]
    exact hasked.valid.expansionOf h

theorem told_asked (hv : e.Valid fuel) (site : Site) :
    ∃ d l x e', (Entry.expandedReport fuel site).run e = (told e.text l.report x.report, e') ∧
      Entry.Asked fuel e e' ∧ e'.HasExpanded d l x ∧
      StagesOf fuel e.name e.text l.report x.report := by
  obtain ⟨d, l, x, e', hrun, hasked, hx⟩ := Entry.expandedReport_asked hv site
  have hread := hasked.valid.document_eq hx.toHasDocument
  refine ⟨d, l, x, e', ?_, hasked, hx, stagesOf hasked hx⟩
  rw [hrun, told, hread, hasked.text]

/-- Every question leaves a document with sound memos, and is answered as if worked out afresh. -/
theorem Question.asked (hq : Question q afresh) (hv : e.Valid fuel) (site : Site) :
    ∃ a e', (q fuel site).run e = (a, e') ∧ Entry.Asked fuel e e' ∧
      afresh fuel e.name e.text a := by
  cases hq with
  | document =>
    obtain ⟨d, e', hrun, hasked, hd⟩ := Entry.document_asked hv
    exact ⟨d, e', hrun, hasked, hasked.text ▸ hasked.valid.document_eq hd⟩
  | lowered =>
    obtain ⟨d, l, e', hrun, hasked, hl⟩ := Entry.loweredReport_asked hv site
    have hread := hasked.valid.document_eq hl.toHasDocument
    have hlowered := hasked.valid.loweringOf hl
    rw [hasked.text] at hread hlowered
    exact ⟨_, e', hrun, hasked, l.report, hlowered, by rw [hread]⟩
  | expanded =>
    obtain ⟨d, l, x, e', hrun, hasked, hx, hstages⟩ := told_asked hv site
    exact ⟨_, e', hrun, hasked, l.report, x.report, hstages, rfl⟩
  | shown =>
    obtain ⟨d, l, x, e', hrun, hasked, hx, hstages⟩ := told_asked hv site
    exact ⟨_, e', Entry.run_bind_eq hrun, hasked, l.report, x.report, hstages, rfl⟩
  | negated =>
    obtain ⟨d, l, x, e₁, hrun, hasked, hx, hstages⟩ := told_asked hv site
    obtain ⟨n, e₂, hrun₂, hasked₂, hn⟩ := Entry.negation_of_expanded hasked.valid hx site
    rw [hasked.name] at hn
    refine ⟨_, e₂, ?_, hasked.trans hasked₂, l.report, x.report, n.report, hstages, hn, rfl⟩
    exact (Entry.run_bind_eq hrun).trans (Entry.run_bind_eq hrun₂)
  | checked =>
    obtain ⟨d, l, x, e₁, hrun, hasked, hx, hstages⟩ := told_asked hv site
    have hchecked : (Entry.checkedReport fuel site).run e =
        (if x.report.value?.any Expanded.isPredicate then do
          let n ← Entry.negation fuel site
          return do
            let _ ← told e.text l.report x.report >>= Expanded.shown
            let _ ← n.report
        else return do
          let _ ← told e.text l.report x.report >>= Expanded.shown : StateM Entry _).run e₁ :=
      Entry.run_bind_eq hrun
    by_cases hcond : x.report.value?.any Expanded.isPredicate = true
    · obtain ⟨n, e₂, hrun₂, hasked₂, hn⟩ := Entry.negation_of_expanded hasked.valid hx site
      rw [hasked.name] at hn
      refine ⟨_, e₂, ?_, hasked.trans hasked₂, l.report, x.report, n.report, hstages, hn, rfl⟩
      rw [hchecked, if_pos hcond, if_pos hcond]
      exact Entry.run_bind_eq hrun₂
    · refine ⟨_, e₁, ?_, hasked, l.report, x.report, _, hstages, Made.now _ site _, rfl⟩
      rw [hchecked, if_neg hcond, if_neg hcond]
      rfl

/-- Every document stays where it is, with its memos refreshed. -/
def Kept (entries entries' : Array Entry) : Prop :=
  ∀ (n : Nat) (e : Entry), entries[n]? = some e → ∃ e', entries'[n]? = some e' ∧ e.Grows e'

/-! ## Requests -/

namespace Request

variable {r : Request} {m : Memo (Nat × Nat × Nat × Nat) String}

/-- The value was made of stages that are those of the document, or earlier ones. -/
def Holds (fuel : Nat) (r : Request) (m : Memo (Nat × Nat × Nat × Nat) String) (e : Entry) : Prop :=
  ∃ d l x, e.read = some d ∧ e.lowered = some l ∧ e.expanded = some x ∧
    m.Sound (r.edits, d.stamp, l.stamp, x.stamp)
      (ValueOf fuel r.arg d.report.outcome l.report.outcome x.report.outcome)

theorem Holds.grows (h : r.Holds fuel m e) (hgrows : e.Grows e') : r.Holds fuel m e' := by
  obtain ⟨d, l, x, hd, hl, hx, hm⟩ := h
  obtain ⟨d', hd', hdd'⟩ := hgrows.read d hd
  obtain ⟨l', hl', hll'⟩ := hgrows.lowered l hl
  obtain ⟨x', hx', hxx'⟩ := hgrows.expanded x hx
  refine ⟨d', l', x', hd', hl', hx', hm.mono ?_ fun hnow v hv => ?_⟩
  · exact ⟨Nat.le_refl _, hdd'.stamp_le, hll'.stamp_le, hxx'.stamp_le⟩
  · injection hnow with _ hnow
    injection hnow with hd hnow
    injection hnow with hl hx
    obtain ⟨site, d₀, l₀, x₀, hd₀, hl₀, hx₀, rfl⟩ := hv
    exact ⟨site, d₀, l₀, x₀, hd₀.trans (hdd'.result hd), hl₀.trans (hll'.result hl),
      hx₀.trans (hxx'.result hx), rfl⟩

/-- What is kept for the request as it is now is sound for its document. -/
structure Valid (fuel : Nat) (entries : Array Entry) (r : Request) : Prop where
  seen_le : ∀ m, r.value = some m → m.seen.1 ≤ r.edits
  holds : ∀ m, r.value = some m → m.seen.1 = r.edits →
    ∃ e, entries[r.entry]? = some e ∧ r.Holds fuel m e

theorem valid_new (entries : Array Entry) (entry : Nat) (arg : String) :
    Valid fuel entries { entry := entry, arg := arg } where
  seen_le m hm := by cases hm
  holds m hm := by cases hm

theorem Valid.kept {entries entries' : Array Entry} (h : r.Valid fuel entries)
    (hkept : Kept entries entries') : r.Valid fuel entries' where
  seen_le := h.seen_le
  holds m hm hseen := by
    obtain ⟨e, he, hm⟩ := h.holds m hm hseen
    obtain ⟨e', he', hgrows⟩ := hkept _ e he
    exact ⟨e', he', hm.grows hgrows⟩

/-- A change makes no value unsound: what was made has not seen it. -/
theorem Valid.change {entries : Array Entry} {r' : Request} (h : r.Valid fuel entries)
    (hvalue : r'.value = r.value) (hedits : r'.edits = r.edits + 1) : r'.Valid fuel entries where
  seen_le m hm := by
    have := h.seen_le m (hvalue ▸ hm)
    omega
  holds m hm hseen := by
    have := h.seen_le m (hvalue ▸ hm)
    omega

theorem evaluation_asked (hv : e.Valid fuel)
    (hkept : ∀ m, r.value = some m → m.seen.1 = r.edits → r.Holds fuel m e) (site : Site) :
    ∃ d l x m e', (r.evaluation fuel site).run e = (m, e') ∧ Entry.Asked fuel e e' ∧
      e'.HasExpanded d l x ∧
      m.Sound (r.edits, d.stamp, l.stamp, x.stamp)
        (ValueOf fuel r.arg d.report.outcome l.report.outcome x.report.outcome) ∧
      m.seen = (r.edits, d.stamp, l.stamp, x.stamp) := by
  obtain ⟨d, l, x, e₁, hrun, hasked, hx⟩ := Entry.expansion_asked hv site
  let now := (r.edits, d.stamp, l.stamp, x.stamp)
  let make : Unit → Report String := fun _ =>
    Report.next x.report.outcome fun p =>
    Report.next d.report.outcome fun doc =>
    Report.next l.report.outcome fun low => p.evaluated doc low fuel (site.child 3) r.arg
  let kept := Memo.refresh (· = ·) r.value now make
  have hevaluation : (r.evaluation fuel site).run e =
      (kept.1, { e₁ with log := e₁.log ++ kept.2 }) :=
    (Entry.run_bind_eq hrun).trans
      ((Entry.run_bind_eq (Entry.run_document hx.toHasDocument)).trans
        (Entry.run_bind_eq (Entry.run_lowering hx.toHasLowered site)))
  have hsound : Sound now (ValueOf fuel r.arg d.report.outcome l.report.outcome x.report.outcome)
      kept.1 := by
    refine sound_refresh (fun m hm hseen => ?_)
      ⟨site.child 3, _, _, _, .inl rfl, .inl rfl, .inl rfl, rfl⟩
    obtain ⟨d', l', x', hd', hl', hx', hm⟩ :=
      (hkept m hm (congrArg Prod.fst hseen)).grows hasked.grows
    cases hx.read.symm.trans hd'
    cases hx.lowered.symm.trans hl'
    cases hx.expanded.symm.trans hx'
    exact hm.report hseen
  exact ⟨d, l, x, kept.1, _, hevaluation, hasked.trans (hasked.valid.withLog _),
    ⟨⟨⟨hx.read, hx.seen⟩, hx.lowered, hx.stamp⟩, hx.expanded, hx.loweredStamp⟩, hsound,
    seen_refresh ..⟩

/-- What is asked of the document of a request. -/
theorem asked (hv : e.Valid fuel)
    (hkept : ∀ m, r.value = some m → m.seen.1 = r.edits → r.Holds fuel m e) (site : Site) :
    ∃ l x m e', (do
        let m ← r.evaluation fuel site
        let x ← Entry.expandedReport fuel site
        return (x, m) : StateM Entry _).run e = ((told e.text l x, m), e') ∧
      Entry.Asked fuel e e' ∧ StagesOf fuel e.name e.text l x ∧
      ValueOf fuel r.arg (Document.read e.text).outcome l.outcome x.outcome m.report ∧
      m.seen.1 = r.edits ∧ r.Holds fuel m e' := by
  obtain ⟨d, l, x, m, e', hrun, hasked, hx, hm, hseen⟩ := evaluation_asked hv hkept site
  have hread := hasked.valid.document_eq hx.toHasDocument
  rw [hasked.text] at hread
  refine ⟨l.report, x.report, m, e', ?_, hasked, stagesOf hasked hx, ?_, congrArg Prod.fst hseen,
    d, l, x, hx.read, hx.lowered, hx.expanded, hm⟩
  · refine (Entry.run_bind_eq hrun).trans ?_
    refine (Entry.run_bind_eq (Entry.run_expandedReport hx fuel site)).trans ?_
    rw [hread]
    rfl
  · rw [← hread]
    exact hm.report hseen

end Request

/-! ## Steps -/

variable {w w' : Workspace}

structure Valid (w : Workspace) : Prop where
  entries (n : Nat) (e : Entry) : w.entries[n]? = some e → e.Valid w.fuel
  requests (n : Nat) (r : Request) : w.requests[n]? = some r → r.Valid w.fuel w.entries

theorem valid_new (fuel : Nat) : Valid { fuel := fuel } where
  entries n e he := by simp at he
  requests n r hr := by simp at hr

theorem Valid.withEntries (h : w.Valid) (hfuel : w'.fuel = w.fuel)
    (hrequests : w'.requests = w.requests) (hkept : Kept w.entries w'.entries)
    (hvalid : ∀ (n : Nat) (e : Entry), w'.entries[n]? = some e → e.Valid w.fuel) : w'.Valid where
  entries n e he := hfuel ▸ hvalid n e he
  requests n r hr := by
    rw [hfuel]
    exact (h.requests n r (hrequests ▸ hr)).kept hkept

theorem Valid.withRequests (h : w.Valid) (hfuel : w'.fuel = w.fuel)
    (hentries : w'.entries = w.entries)
    (hvalid : ∀ (n : Nat) (r : Request), w'.requests[n]? = some r → r.Valid w.fuel w.entries) :
    w'.Valid where
  entries n e he := hfuel ▸ h.entries n e (hentries ▸ he)
  requests n r hr := by
    rw [hfuel, hentries]
    exact hvalid n r hr

theorem Valid.add (h : w.Valid) (origin : Origin) (name text : String) :
    (w.add origin name text).2.Valid := by
  refine h.withEntries rfl rfl (fun n e he => ⟨e, ?_, .of_same rfl rfl rfl⟩) fun n e he => ?_
  · have hn : n < w.entries.size := (Array.getElem?_eq_some_iff.mp he).1
    simp only [Workspace.add, Array.getElem?_push, if_neg (Nat.ne_of_lt hn), he]
  · simp only [Workspace.add, Array.getElem?_push] at he
    split at he
    · cases he
      exact Entry.valid_new name text
    · exact h.entries n e he

theorem Valid.setText (h : w.Valid) (n : Nat) (text : String) : (w.setText n text).Valid := by
  refine h.withEntries rfl rfl (fun k e he => ?_) fun k e he => ?_
  · simp only [Workspace.setText, Array.getElem?_modify, he, Option.map_some]
    split
    · exact ⟨_, rfl, .of_same rfl rfl rfl⟩
    · exact ⟨_, rfl, .of_same rfl rfl rfl⟩
  · simp only [Workspace.setText, Array.getElem?_modify] at he
    split at he
    · obtain ⟨e₀, he₀, rfl⟩ := Option.map_eq_some_iff.mp he
      exact (h.entries k e₀ he₀).setText text
    · exact h.entries k e he

theorem Valid.request (h : w.Valid) (entry : Nat) (arg : String) :
    (w.request entry arg).2.Valid := by
  refine h.withRequests rfl rfl fun n r hr => ?_
  simp only [Workspace.request, Array.getElem?_push] at hr
  split at hr
  · cases hr
    exact Request.valid_new _ entry arg
  · exact h.requests n r hr

theorem Valid.changeRequest (h : w.Valid) (n : Nat) {change : Request → Request}
    (hchange : ∀ r, w.requests[n]? = some r → r.Valid w.fuel w.entries →
      (change r).Valid w.fuel w.entries) : (w.changeRequest n change).Valid := by
  refine h.withRequests rfl rfl fun k r hr => ?_
  simp only [Workspace.changeRequest, Array.getElem?_modify] at hr
  split at hr
  · rename_i hnk
    obtain ⟨r₀, hr₀, rfl⟩ := Option.map_eq_some_iff.mp hr
    exact hchange r₀ (hnk ▸ hr₀) (h.requests k r₀ hr₀)
  · exact h.requests k r hr

/-- A question is asked of a document whose log is empty. -/
theorem ask_eq (q : Nat → Site → StateM Entry α) {n : Nat} {a : α}
    (he : w.entries[n]? = some e)
    (hrun : (q w.fuel (.root w.epoch)).run { e with log := [] } = (a, e')) :
    w.ask n q = some (a, e'.log,
      { w with entries := w.entries.setIfInBounds n e', epoch := w.epoch + 1 }) := by
  simp only [ask, he, Option.bind_eq_bind, Option.bind_some, hrun]
  rfl

theorem entry_of_ask {n : Nat} {a : α} {log : List LogEntry}
    (h : w.ask n q = some (a, log, w')) : ∃ e, w.entries[n]? = some e := by
  cases he : w.entries[n]? with
  | none =>
    simp only [ask, he, Option.bind_eq_bind, Option.bind_none, reduceCtorEq] at h
  | some e => exact ⟨e, rfl⟩

theorem entry_of_evaluate {n : Nat} {report : Report String} {log : List LogEntry}
    (h : w.evaluate n = some (report, log, w')) :
    ∃ r e, w.requests[n]? = some r ∧ w.entries[r.entry]? = some e := by
  simp only [evaluate, Option.bind_eq_bind, Option.bind_eq_some_iff] at h
  obtain ⟨r, hr, ⟨_, _, _⟩, hask, -⟩ := h
  obtain ⟨e, he⟩ := entry_of_ask hask
  exact ⟨r, e, hr, he⟩

theorem Valid.answered (h : w.Valid) {n : Nat} (he : w.entries[n]? = some e)
    (hasked : Entry.Asked w.fuel { e with log := [] } e') :
    Valid { w with entries := w.entries.setIfInBounds n e', epoch := w.epoch + 1 } := by
  have hset := Array.getElem?_setIfInBounds_self_of_lt (a := e')
    (Array.getElem?_eq_some_iff.mp he).1
  refine h.withEntries rfl rfl (fun k e₀ he₀ => ?_) fun k e₀ he₀ => ?_
  · by_cases hnk : n = k
    · subst hnk
      cases he.symm.trans he₀
      have hgrows : e.Grows { e with log := [] } := .of_same rfl rfl rfl
      exact ⟨e', hset, hgrows.trans hasked.grows⟩
    · exact ⟨e₀, (Array.getElem?_setIfInBounds_ne hnk).trans he₀, .of_same rfl rfl rfl⟩
  · by_cases hnk : n = k
    · subst hnk
      cases hset.symm.trans he₀
      exact hasked.valid
    · exact h.entries k e₀ ((Array.getElem?_setIfInBounds_ne hnk).symm.trans he₀)

/-- A question about a document that there is has an answer, which is the one worked out afresh. -/
theorem Valid.ask (h : w.Valid) (hq : Question q afresh) {n : Nat}
    (he : w.entries[n]? = some e) :
    ∃ a log w', w.ask n q = some (a, log, w') ∧ w'.Valid ∧ afresh w.fuel e.name e.text a := by
  have hv := ((h.entries n e he).withLog []).valid
  obtain ⟨a, e', hrun, hasked, ha⟩ := hq.asked hv (.root w.epoch)
  exact ⟨a, _, _, ask_eq q he hrun, h.answered he hasked, ha⟩

theorem Valid.holds (h : w.Valid) {n : Nat} {r : Request} (hr : w.requests[n]? = some r)
    (he : w.entries[r.entry]? = some e) (m : Memo (Nat × Nat × Nat × Nat) String)
    (hm : r.value = some m) (hseen : m.seen.1 = r.edits) :
    r.Holds w.fuel m { e with log := [] } := by
  obtain ⟨e₀, he₀, hm⟩ := (h.requests n r hr).holds m hm hseen
  cases he.symm.trans he₀
  exact hm.grows (.of_same rfl rfl rfl)

/-- A request whose document there is has a value, which is the one worked out afresh. -/
theorem Valid.evaluate (h : w.Valid) {n : Nat} {r : Request} (hr : w.requests[n]? = some r)
    (he : w.entries[r.entry]? = some e) :
    ∃ report log w', w.evaluate n = some (report, log, w') ∧ w'.Valid ∧
      ∃ l x v, StagesOf w.fuel e.name e.text l x ∧
        ValueOf w.fuel r.arg (Document.read e.text).outcome l.outcome x.outcome v ∧
        report = { v with diagnostics := (told e.text l x).diagnostics ++ v.diagnostics } := by
  have hv := ((h.entries _ e he).withLog []).valid
  obtain ⟨l, x, m, e', hrun, hasked, hstages, hvalue, hseen, hholds⟩ :=
    Request.asked hv (h.holds hr he) (.root w.epoch)
  have hentry := Array.getElem?_setIfInBounds_self_of_lt (a := e')
    (Array.getElem?_eq_some_iff.mp he).1
  let w₁ : Workspace :=
    { w with entries := w.entries.setIfInBounds r.entry e', epoch := w.epoch + 1 }
  have hvalid : (w₁.changeRequest n fun r => { r with value := some m }).Valid := by
    refine (h.answered he hasked).changeRequest n fun r₀ hr₀ _ => ?_
    cases hr.symm.trans hr₀
    refine ⟨fun m' hm' => ?_, fun m' hm' _ => ?_⟩
    · cases hm'
      exact le_of_eq hseen
    · cases hm'
      exact ⟨e', hentry, hholds⟩
  refine ⟨_, e'.log, _, ?_, hvalid, l, x, m.report, hstages, hvalue, rfl⟩
  simp only [Workspace.evaluate, hr, Option.bind_eq_bind, Option.bind_some]
  rw [ask_eq _ he hrun]
  rfl

/-- What can be done to a workspace. -/
inductive Step : Workspace → Workspace → Prop where
  | openText (w : Workspace) (path text : String) : Step w (w.openText path text).2
  | load {w w' : Workspace} {disk : Disk} {path : String} {n : Nat}
      (h : w.load disk path = .ok (n, w')) : Step w w'
  | close (w : Workspace) (origin : Origin) : Step w (w.close origin)
  | setText (w : Workspace) (n : Nat) (text : String) : Step w (w.setText n text)
  | request (w : Workspace) (entry : Nat) (arg : String) : Step w (w.request entry arg).2
  | setArg (w : Workspace) (n : Nat) (arg : String) : Step w (w.changeRequest n (·.setArg arg))
  | setEntry (w : Workspace) (n entry : Nat) : Step w (w.changeRequest n (·.setEntry entry))
  | ask {w w' : Workspace} {α : Type} {q : Nat → Site → StateM Entry α}
      {afresh : Nat → String → String → α → Prop} {n : Nat} {a : α} {log : List LogEntry}
      (hq : Question q afresh) (h : w.ask n q = some (a, log, w')) : Step w w'
  | evaluate {w w' : Workspace} {n : Nat} {report : Report String} {log : List LogEntry}
      (h : w.evaluate n = some (report, log, w')) : Step w w'

theorem Valid.load (h : w.Valid) {disk : Disk} {path : String} {n : Nat}
    (hload : w.load disk path = .ok (n, w')) : w'.Valid := by
  simp only [Workspace.load] at hload
  cases hplace : disk.find path with
  | error e => rw [hplace] at hload; cases hload
  | ok place =>
    rw [hplace] at hload
    dsimp only [bind, Except.bind] at hload
    split at hload
    · cases hload
      exact h
    · cases htext : disk.read place with
      | error e => rw [htext] at hload; cases hload
      | ok text =>
        rw [htext] at hload
        cases hload
        exact h.add _ _ text

/-- One step keeps what is kept sound. -/
theorem Valid.step (h : w.Valid) (hstep : Step w w') : w'.Valid := by
  cases hstep with
  | openText path text => exact h.add _ path text
  | load hload => exact h.load hload
  | close origin => exact h.withRequests rfl rfl h.requests
  | setText n text => exact h.setText n text
  | request entry arg => exact h.request entry arg
  | setArg n arg => exact h.changeRequest n fun r _ hr => hr.change rfl rfl
  | setEntry n entry => exact h.changeRequest n fun r _ hr => hr.change rfl rfl
  | ask hq hask =>
    obtain ⟨e, he⟩ := entry_of_ask hask
    obtain ⟨_, _, w₁, hask₁, hw₁, -⟩ := h.ask hq he
    cases hask.symm.trans hask₁
    exact hw₁
  | evaluate hevaluate =>
    obtain ⟨r, e, hr, he⟩ := entry_of_evaluate hevaluate
    obtain ⟨_, _, w₁, hevaluate₁, hw₁, -⟩ := h.evaluate hr he
    cases hevaluate.symm.trans hevaluate₁
    exact hw₁

theorem Valid.run (h : w.Valid) (hrun : Relation.ReflTransGen Step w w') : w'.Valid := by
  induction hrun with
  | refl => exact h
  | tail _ hstep ih => exact ih.step hstep

/-! ## Answers -/

theorem ask_afresh (hrun : Relation.ReflTransGen Step { fuel := fuel } w) (hq : Question q afresh)
    {n : Nat} (he : w.entries[n]? = some e) :
    ∃ a log w', w.ask n q = some (a, log, w') ∧ afresh w.fuel e.name e.text a := by
  obtain ⟨a, log, w', hask, -, ha⟩ := ((valid_new fuel).run hrun).ask hq he
  exact ⟨a, log, w', hask, ha⟩

theorem evaluate_afresh (hrun : Relation.ReflTransGen Step { fuel := fuel } w) {n : Nat}
    {r : Request} (hr : w.requests[n]? = some r) (he : w.entries[r.entry]? = some e) :
    ∃ report log w', w.evaluate n = some (report, log, w') ∧
      ∃ l x v, StagesOf w.fuel e.name e.text l x ∧
        ValueOf w.fuel r.arg (Document.read e.text).outcome l.outcome x.outcome v ∧
        report = { v with diagnostics := (told e.text l x).diagnostics ++ v.diagnostics } := by
  obtain ⟨report, log, w', hevaluate, -, hvalue⟩ := ((valid_new fuel).run hrun).evaluate hr he
  exact ⟨report, log, w', hevaluate, hvalue⟩

end Workspace

end PredicateTree
