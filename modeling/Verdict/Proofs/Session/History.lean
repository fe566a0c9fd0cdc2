import Mathlib.Data.Finset.Card
import Verdict.Proofs.Except
import Verdict.Session

namespace Verdict

-- The value of the last pair that has a name.
def lastValue? (pairs : List (String × HostValue)) (name : String) : Option HostValue :=
  (pairs.reverse.find? (·.1 = name)).map (·.2)

namespace Context

theorem get?_insertMany (context : Context) (pairs : List (String × HostValue)) (name : String) :
    (context.insertMany pairs).get? name = (lastValue? pairs name).or (context.get? name) := by
  induction pairs generalizing context with
  | nil => rfl
  | cons pair pairs ih =>
      obtain ⟨first, value⟩ := pair
      have hcons : context.insertMany ((first, value) :: pairs) =
          (context.insert first value).insertMany pairs := by
        simp only [insertMany, insert, Std.TreeMap.insertMany_cons]
      rw [hcons, ih, get?_insert, lastValue?, lastValue?, List.reverse_cons, List.find?_append]
      cases pairs.reverse.find? (·.1 = name) with
      | some pair => rfl
      | none =>
          by_cases hname : first = name
          · simp [hname]
          · simp [hname]

theorem get?_ofList (pairs : List (String × HostValue)) (name : String) :
    (ofList pairs).get? name = lastValue? pairs name := by
  rw [ofList, get?_insertMany, get?_empty, Option.or_none]

-- The names that a context binds, of which it counts each once.
def names (context : Context) : Finset String := context.bindings.keys.toFinset

theorem mem_names (context : Context) (name : String) :
    name ∈ context.names ↔ (context.get? name).isSome := by
  rw [names, List.mem_toFinset, Std.TreeMap.mem_keys, ← contains_eq_isSome]
  rfl

theorem card_names (context : Context) : context.names.card = context.size := by
  rw [names, List.toFinset_card_of_nodup Std.TreeMap.nodup_keys, Std.TreeMap.length_keys, size]

theorem isEmpty_eq (context : Context) : context.isEmpty = decide (context.size = 0) := by
  rw [isEmpty, Std.TreeMap.isEmpty_eq_size_eq_zero]
  rfl

end Context

namespace Request

-- The source that a request compiles, if it can be compiled.
def compiled? : Request → Option String
  | .compile source =>
    match Formula.parse source with
    | .ok _ => some source
    | .error _ => none
  | _ => none

-- What a request that writes to a name leaves bound to it, which may be nothing.
def written? (name : String) : Request → Option (Option HostValue)
  | .insert other value => if other = name then some (some value) else none
  | .remove other => if other = name then some none else none
  | .clear => some none
  | .setContext context => some (context.get? name)
  | .collect pairs => some (lastValue? pairs name)
  | .extend pairs => (lastValue? pairs name).map some
  | _ => none

-- The source that was compiled last, the first one if none was since.
def lastSource (first : String) (history : List Request) : String :=
  (history.reverse.findSome? compiled?).getD first

-- What the last write to a name has left bound to it.
def lastBound? (history : List Request) (name : String) : Option HostValue :=
  (history.reverse.findSome? (written? name)).join

theorem lastSource_concat (first : String) (history : List Request) (request : Request) :
    lastSource first (history ++ [request]) =
      request.compiled?.getD (lastSource first history) := by
  rw [lastSource, List.reverse_concat, List.findSome?_cons]
  cases request.compiled? <;> rfl

theorem lastBound?_concat (history : List Request) (request : Request) (name : String) :
    lastBound? (history ++ [request]) name =
      (request.written? name).getD (lastBound? history name) := by
  rw [lastBound?, List.reverse_concat, List.findSome?_cons]
  cases request.written? name <;> rfl

end Request

namespace Expression

-- The expression after a request, whether it was answered or failed.
def next (expression : Expression) (request : Request) : Expression :=
  match expression.respond request with
  | .ok (_, next) => next
  | .error _ => expression

def after (expression : Expression) (history : List Request) : Expression :=
  history.foldl next expression

variable {expression : Expression} {source : String}

theorem after_concat (expression : Expression) (history : List Request) (request : Request) :
    expression.after (history ++ [request]) = (expression.after history).next request := by
  simp [after]

theorem next_of_error {request : Request} {failure : Failure}
    (hfailure : expression.respond request = .error failure) :
    expression.next request = expression := by
  rw [next, hfailure]

-- An expression has in each context the value of the source that it was compiled from.
theorem mapError_evaluateWith (hparse : Formula.parse source = .ok expression.formula)
    (context : Context) :
    (expression.evaluateWith context).mapError .evaluation = Verdict.evaluate source context := by
  rw [Verdict.evaluate, compile, hparse]
  rfl

theorem respond_evaluateWith (hparse : Formula.parse source = .ok expression.formula)
    (context : Context) :
    expression.respond (.evaluateWith context) =
      (Verdict.evaluate source context).map fun value => (.truth value, expression) := by
  rw [respond, mapError_evaluateWith hparse]
  rfl

theorem respond_evaluate (expression : Expression) :
    expression.respond .evaluate = expression.respond (.evaluateWith expression.context) := rfl

theorem next_evaluateWith (expression : Expression) (context : Context) :
    expression.next (.evaluateWith context) = expression := by
  rw [next, respond]
  cases expression.evaluateWith context <;> rfl

theorem next_evaluate (expression : Expression) : expression.next .evaluate = expression :=
  expression.next_evaluateWith expression.context

theorem next_compile (expression : Expression) (source : String) :
    expression.next (.compile source) =
      match Formula.parse source with
      | .ok formula => { expression with formula }
      | .error _ => expression := by
  rw [next, respond, compile]
  cases Formula.parse source <;> rfl

-- Only compiling changes the formula, and a source that cannot be compiled leaves it as it was.
theorem parse_next (hparse : Formula.parse source = .ok expression.formula) (request : Request) :
    Formula.parse (request.compiled?.getD source) = .ok (expression.next request).formula := by
  cases request with
  | evaluate => rwa [next_evaluate]
  | evaluateWith context => rwa [next_evaluateWith]
  | compile other =>
      rw [next_compile, Request.compiled?]
      cases hother : Formula.parse other with
      | error error => exact hparse
      | ok formula => exact hother
  | _ => exact hparse

-- A name keeps its value unless a request writes to it.
theorem get?_next (expression : Expression) (request : Request) (name : String) :
    (expression.next request).context.get? name =
      (request.written? name).getD (expression.context.get? name) := by
  cases request with
  | evaluate =>
      rw [next_evaluate]
      rfl
  | evaluateWith context =>
      rw [next_evaluateWith]
      rfl
  | compile source =>
      rw [next_compile]
      cases Formula.parse source <;> rfl
  | collect pairs => exact Context.get?_ofList pairs name
  | extend pairs =>
      refine (Context.get?_insertMany expression.context pairs name).trans ?_
      rw [Request.written?]
      cases lastValue? pairs name <;> rfl
  | clear => exact Context.get?_empty name
  | insert other value =>
      refine (Context.get?_insert expression.context other name value).trans ?_
      rw [Request.written?]
      split <;> rfl
  | remove other =>
      refine (Context.get?_erase expression.context other name).trans ?_
      rw [Request.written?]
      split <;> rfl
  | _ => rfl

-- What an expression has to do with the requests that it was given since it was compiled.
structure Follows (expression : Expression) (first : String) (history : List Request) : Prop where
  parse : Formula.parse (Request.lastSource first history) = .ok expression.formula
  bound : ∀ name, expression.context.get? name = Request.lastBound? history name

variable {first : String} {history : List Request}

theorem follows_of_compile (hcompile : compile first = .ok expression) :
    expression.Follows first [] := by
  rw [compile] at hcompile
  obtain ⟨formula, hparse, hexpression⟩ := Except.bind_eq_ok_iff.mp hcompile
  cases hexpression
  exact ⟨hparse, Context.get?_empty⟩

theorem Follows.next (h : expression.Follows first history) (request : Request) :
    (expression.next request).Follows first (history ++ [request]) where
  parse := by
    rw [Request.lastSource_concat]
    exact parse_next h.parse request
  bound := by
    intro name
    rw [get?_next, Request.lastBound?_concat, h.bound]

theorem Follows.after (h : expression.Follows first []) (history : List Request) :
    (expression.after history).Follows first history := by
  induction history using List.reverseRecOn with
  | nil => exact h
  | append_singleton history request ih =>
      rw [after_concat]
      exact ih.next request

-- Only what evaluates or compiles can fail, and neither writes to a name.
theorem written?_of_error {request : Request} {failure : Failure}
    (hfailure : expression.respond request = .error failure) (name : String) :
    request.written? name = none := by
  cases request with
  | evaluate | evaluateWith | compile => rfl
  | _ => cases hfailure

theorem compiled?_of_error {request : Request} {failure : Failure}
    (hfailure : expression.respond request = .error failure) : request.compiled? = none := by
  cases request with
  | evaluate | evaluateWith => rfl
  | compile source =>
      rw [respond, compile] at hfailure
      rw [Request.compiled?]
      cases hparse : Formula.parse source with
      | error error => rfl
      | ok formula =>
          rw [hparse] at hfailure
          cases hfailure
  | _ => cases hfailure

-- What an expression answers if `source` was compiled last and `bound` has its bindings, and which
-- expression there is afterwards where nothing is written.
structure Answers (expression : Expression) (source : String) (bound : Context) : Prop where
  evaluate : expression.respond .evaluate =
    (Verdict.evaluate source bound).map fun value => (.truth value, expression)
  evaluateWith : ∀ context, expression.respond (.evaluateWith context) =
    (Verdict.evaluate source context).map fun value => (.truth value, expression)
  get : ∀ name, expression.respond (.get name) = .ok (.bound (bound.get? name), expression)
  contains : ∀ name,
    expression.respond (.contains name) = .ok (.contained (bound.get? name).isSome, expression)
  insert : ∀ name value, ∃ next,
    expression.respond (.insert name value) = .ok (.bound (bound.get? name), next)
  remove : ∀ name, ∃ next,
    expression.respond (.remove name) = .ok (.bound (bound.get? name), next)
  size : ∃ names : Finset String, (∀ name, name ∈ names ↔ (bound.get? name).isSome) ∧
    expression.respond .size = .ok (.size names.card (names.card = 0), expression)

theorem Follows.answers (h : expression.Follows first history) :
    expression.Answers (Request.lastSource first history) expression.context where
  evaluate := by
    rw [respond_evaluate]
    exact respond_evaluateWith h.parse expression.context
  evaluateWith := respond_evaluateWith h.parse
  get name := rfl
  contains name := by
    rw [respond, Context.contains_eq_isSome]
  insert name value := ⟨_, rfl⟩
  remove name := ⟨_, rfl⟩
  size := by
    refine ⟨expression.context.names, expression.context.mem_names, ?_⟩
    rw [respond, Context.isEmpty_eq, Context.card_names]

-- Whatever was asked of an expression before, its answers are those of the source that was compiled
-- last and of the bindings that the last writes have left. A request that fails changes neither.
theorem answers_of_history (hcompile : compile first = .ok expression) (history : List Request) :
    (∃ bound : Context, (∀ name, bound.get? name = Request.lastBound? history name) ∧
        (expression.after history).Answers (Request.lastSource first history) bound) ∧
      ∀ request failure, (expression.after history).respond request = .error failure →
        expression.after (history ++ [request]) = expression.after history ∧
          Request.lastSource first (history ++ [request]) = Request.lastSource first history ∧
          ∀ name, Request.lastBound? (history ++ [request]) name =
            Request.lastBound? history name := by
  have hfollows := (follows_of_compile hcompile).after history
  refine ⟨⟨_, hfollows.bound, hfollows.answers⟩, ?_⟩
  intro request failure hfailure
  refine ⟨?_, ?_, fun name => ?_⟩
  · rw [after_concat, next_of_error hfailure]
  · rw [Request.lastSource_concat, compiled?_of_error hfailure, Option.getD_none]
  · rw [Request.lastBound?_concat, written?_of_error hfailure name, Option.getD_none]

-- Of two values for `a` the later counts, what is removed can be bound again, and a source that
-- cannot be compiled leaves the one before it in place.
theorem answers_of_history_rebound :
    let history : List Request := [.compile "A == B", .extend [("a", .null), ("b", .null),
      ("a", .string "y")], .remove "b", .compile "a ==", .insert "b" (.string "y")]
    ∃ start bound, compile "c" = .ok start ∧ bound.get? "a" = some (.string "y") ∧
      bound.get? "b" = some (.string "y") ∧ (start.after history).Answers "A == B" bound := by
  intro history
  have hcompile : compile "c" = .ok ⟨some (.variable "c"), .empty⟩ := rfl
  obtain ⟨⟨bound, hbound, hanswers⟩, -⟩ := answers_of_history hcompile history
  have hsource : Request.lastSource "c" history = "A == B" := by decide +kernel
  rw [hsource] at hanswers
  exact ⟨_, bound, hcompile, hbound "a", hbound "b", hanswers⟩

end Expression

end Verdict
