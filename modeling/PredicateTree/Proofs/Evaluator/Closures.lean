import PredicateTree.Proofs.Evaluator.Values

/-!
# Proofs.Evaluator.Closures

A lambda that stands below others takes the bindings in sight along as constants in its body. To
call it then is the same as to evaluate its body where it stood, with the arguments bound on top of
what was in sight.

* `Env.fill_extend`: bindings of other variables may be put into a tree before those on top of them.
* `apply_closed`: so the call and the body end alike, with any bound, in a value, an error or not
  within the bound. What the body makes of the lambdas below it is alike in both, too, although
  they are closed once around the call and once in it.
-/

namespace PredicateTree

namespace Env

/-- Of bindings of different variables none hides another. -/
theorem consts_append_comm {env more : Env}
    (h : ∀ p, List.lookup p env = none ∨ List.lookup p more = none) :
    (env ++ more).consts = (more ++ env).consts := by
  funext p
  simp only [consts, List.lookup_append]
  rcases h p with hp | hp
  · rw [hp, Option.none_or, Option.or_none]
  · rw [hp, Option.none_or, Option.or_none]

theorem lookup_extend_nil {z : List (Param × Value)} {p : Param} (h : p ∉ z.map Prod.fst) :
    List.lookup p (extend [] z) = none := by
  rw [extend, List.append_nil, List.lookup_eq_none_iff]
  intro b hb
  have hne : p ≠ b.1 := by
    rintro rfl
    exact h (List.mem_map_of_mem (List.mem_reverse.1 hb))
  simpa using hne

/-- Bindings on top of others can be put in after the others, if they bind other variables. -/
theorem fill_extend {env : Env} {z : List (Param × Value)}
    (h : ∀ b ∈ z, List.lookup b.1 env = none) (e : Expr) :
    e.fill (env.extend z).consts = (e.fill env.consts).fill (extend [] z).consts := by
  have happart : ∀ p, List.lookup p (extend [] z) = none ∨ List.lookup p env = none := by
    intro p
    by_cases hp : p ∈ z.map Prod.fst
    · obtain ⟨b, hb, rfl⟩ := List.mem_map.1 hp
      exact .inr (h b hb)
    · exact .inl (lookup_extend_nil hp)
  have hextend : env.extend z = extend [] z ++ env := by
    rw [extend, extend, List.append_nil]
  rw [hextend, consts_append_comm happart, fill_append]

end Env

namespace Evaluator

variable {ev : Evaluator} {env : Env} {l : Lambda} {args : List Value}

/-- A lambda node gives the lambda with the bindings in sight put into it. If none of them is of a
parameter of its own, a call of that lambda ends, with any bound and wherever it is made, exactly as
its body does below the bindings in sight and the arguments on top of them. -/
theorem apply_closed (hev : ev.Pure) (hfree : ∀ p ∈ l.params, List.lookup p env = none)
    (hlen : args.length = l.params.length) (label : Label) (fuel : Nat) (site : Site) :
    ∃ c : Lambda, ev.eval fuel site env (.lambda label l.params l.body) = .ok c.toValue ∧
      ∀ n s t, Value.bare <$> ev.apply (n + 1) s c args =
        Value.bare <$> ev.eval n t (env.extend (l.params.zip args)) l.body := by
  refine ⟨l.close site env, rfl, fun n s t => ?_⟩
  have hz : ∀ b ∈ l.params.zip args, List.lookup b.1 env = none := by
    intro b hb
    exact hfree b.1 (List.of_mem_zip hb).1
  have hfill : (l.close site env).body.fill (Env.extend [] (l.params.zip args)).consts =
      l.body.fill (env.extend (l.params.zip args)).consts := by
    rw [Env.fill_extend hz, ← Expr.bare_fill (l.close site env).body, Env.bare_close]
  rw [apply_succ (l := l.close site env) hlen.symm]
  exact (eval_approx hev (Nat.le_refl n) hfill s t).map_eq
    (eval_approx hev (Nat.le_refl n) hfill.symm t s)

namespace Closed

def place (i : Nat) : Site := (Site.root 0).child i

def limit : Param := ⟨place 0, "limit", .int⟩

def v : Param := ⟨place 1, "v", .int⟩

def w : Param := ⟨place 2, "w", .int⟩

/-- `|v| expand(|w| w / (limit - v), 6)` -/
def quotient : Lambda :=
  let gap := .binaryAt (place 3) .sub (.parameterAt (place 4) limit) (.parameterAt (place 5) v)
  let body := .binaryAt (place 6) .div (.parameterAt (place 7) w) gap
  ⟨[v], .expandAt (place 8) (.lambdaAt (place 9) ⟨[w], body⟩) [.intAt (place 10) 6] .int⟩

end Closed

open Closed in
/-- With the limit 3 the closed lambda gives 6 for 2, and divides by zero for 3. -/
theorem apply_closed_below :
    List.lookup v [(limit, Value.int 3)] = none ∧
    ∃ c : Lambda,
      Evaluator.eval { statics := [] } 0 (.root 1) [(limit, .int 3)]
        (.lambda ⟨.root 1, .int⟩ quotient.params quotient.body) = .ok c.toValue ∧
      Value.bare <$> Evaluator.apply { statics := [] } 2 (.root 2) c [.int 2] = .ok (.int 6) ∧
      Value.bare <$> Evaluator.apply { statics := [] } 2 (.root 2) c [.int 3] =
        .error .divisionByZero := by
  have hfree : ∀ p ∈ quotient.params, List.lookup p [(limit, Value.int 3)] = none := by decide
  have hev : Evaluator.Pure { statics := [] } := Evaluator.pure_builtin []
  obtain ⟨c, hc, hcall⟩ := @apply_closed _ _ quotient [.int 2] hev hfree rfl
    ⟨.root 1, .int⟩ 0 (.root 1)
  obtain ⟨c', hc', hcall'⟩ := @apply_closed _ _ quotient [.int 3] hev hfree rfl
    ⟨.root 1, .int⟩ 0 (.root 1)
  obtain rfl : c = c' := by
    cases c
    cases c'
    cases hc.symm.trans hc'
    rfl
  refine ⟨by decide, c, hc, ?_, ?_⟩
  · rw [hcall 1 (.root 2) (.root 3)]
    decide
  · rw [hcall' 1 (.root 2) (.root 3)]
    decide

end Evaluator

end PredicateTree
