import Verdict.Proofs.CommandLine.Inquiry

namespace Verdict

section

variable {source : String}

theorem evaluate_of_compile {expression : Expression}
    (hcompile : Expression.compile source = .ok expression) (context : Context) :
    evaluate source context = (expression.evaluateWith context).mapError .evaluation := by
  rw [evaluate, hcompile]
  rfl

theorem evaluate_of_compile_error {error : ParseError}
    (hcompile : Expression.compile source = .error error) (context : Context) :
    evaluate source context = .error (.parse error) := by
  rw [evaluate, hcompile]
  rfl

end

namespace CommandLine

-- The context that an origin yields, or the message that says why it yields none. A file counts
-- as its text would as an argument.
inductive Origin.Yields (read : String → Except FileError String) :
    Origin → Except String Context → Prop
  | absent : Yields read .absent (.ok .empty)
  | argument {text : String} {context : Context} (htext : Context.read? text = some context) :
      Yields read (.argument text) (.ok context)
  -- one message for every fault of a text
  | malformed {text : String} (htext : Context.read? text = none) :
      Yields read (.argument text) (.error "The context is not a JSON object.")
  | file {path text : String} {result : Except String Context} (hfile : read path = .ok text)
      (htext : Yields read (.argument text) result) : Yields read (.file path) result
  | unreadable {path : String} {error : FileError} (hfile : read path = .error error) :
      Yields read (.file path)
        (.error ("Failed to read the context file '" ++ path ++ "': " ++ error.message))

variable {read : String → Except FileError String}

theorem yields_argument_iff {text : String} {result : Except String Context} :
    (Origin.argument text).Yields read result ↔ readContext.ofText text = result := by
  rw [readContext.ofText]
  constructor
  · intro hyields
    cases hyields with
    | argument htext | malformed htext => rw [htext]
  · rintro rfl
    cases htext : Context.read? text with
    | none => exact .malformed htext
    | some context => exact .argument htext

section

variable {path : String} {shows : Bool} {source : Option String}

theorem readContext_of_file {text : String} (hfile : read path = .ok text) :
    readContext read ⟨none, some path, shows, source⟩ = readContext.ofText text := by
  simp only [readContext, hfile]

theorem readContext_of_unreadable {error : FileError} (hfile : read path = .error error) :
    readContext read ⟨none, some path, shows, source⟩ =
      .error ("Failed to read the context file '" ++ path ++ "': " ++ error.message) := by
  simp only [readContext, hfile]

end

-- What is read for the options of an inquiry is what its origin yields.
theorem yields_iff {inquiry : Inquiry} {result : Except String Context} :
    inquiry.origin.Yields read result ↔ readContext read inquiry.options = result := by
  obtain ⟨origin, shows, source⟩ := inquiry
  cases origin with
  | absent =>
      constructor
      · rintro ⟨⟩
        rfl
      · rintro rfl
        exact .absent
  | argument text => exact yields_argument_iff
  | file path =>
      constructor
      · intro hyields
        cases hyields with
        | file hfile htext =>
            exact (readContext_of_file hfile).trans (yields_argument_iff.mp htext)
        | unreadable hfile => exact readContext_of_unreadable hfile
      · rintro rfl
        cases hfile : read path with
        | error error => exact (readContext_of_unreadable hfile).symm ▸ .unreadable hfile
        | ok text => exact .file hfile (yields_argument_iff.mpr (readContext_of_file hfile).symm)

-- The report of a truth value.
def Report.ofTruth : Except Failure Bool → Report
  | .ok true => .printed 0 "true"
  | .ok false => .printed 1 "false"
  | .error failure => .failed failure.message

section

variable {inquiry : Inquiry} {context : Context} {expression : Expression}

theorem execute_of_refused {message : String}
    (horigin : inquiry.origin.Yields read (.error message)) :
    inquiry.command.execute read = .failed message := by
  rw [Inquiry.command, Command.execute, yields_iff.mp horigin]

theorem execute_of_compile_error {error : ParseError}
    (horigin : inquiry.origin.Yields read (.ok context))
    (hcompile : Expression.compile inquiry.source = .error error) :
    inquiry.command.execute read = .failed error.message := by
  rw [Inquiry.command, Command.execute, yields_iff.mp horigin]
  simp only [hcompile]

theorem execute_of_compile (horigin : inquiry.origin.Yields read (.ok context))
    (hcompile : Expression.compile inquiry.source = .ok expression) :
    inquiry.command.execute read = report inquiry.options { expression with context } := by
  rw [Inquiry.command, Command.execute, yields_iff.mp horigin]
  simp only [hcompile]

theorem showsFormula_options (inquiry : Inquiry) :
    inquiry.options.showsFormula = inquiry.showsFormula := by
  obtain ⟨origin, shows, source⟩ := inquiry
  cases origin <;> rfl

-- With a context that can be read and a source that can be compiled the formula is shown, whatever
-- its truth value would be.
theorem execute_of_shows (horigin : inquiry.origin.Yields read (.ok context))
    (hcompile : Expression.compile inquiry.source = .ok expression)
    (hshows : inquiry.showsFormula = true) :
    inquiry.command.execute read = .printed 0 expression.render := by
  rw [execute_of_compile horigin hcompile, report, showsFormula_options, if_pos hshows]
  rfl

-- Otherwise the truth value of the source is reported.
theorem execute_of_evaluate (horigin : inquiry.origin.Yields read (.ok context))
    (hshows : inquiry.showsFormula = false) :
    inquiry.command.execute read = .ofTruth (Verdict.evaluate inquiry.source context) := by
  cases hcompile : Expression.compile inquiry.source with
  | error error =>
      rw [execute_of_compile_error horigin hcompile, evaluate_of_compile_error hcompile]
      rfl
  | ok expression =>
      have hbound : Expression.evaluate { expression with context } =
        expression.evaluateWith context := rfl
      rw [execute_of_compile horigin hcompile, evaluate_of_compile hcompile, report,
        showsFormula_options, if_neg (by simp [hshows]), hbound]
      cases expression.evaluateWith context with
      | error error => rfl
      | ok truth => cases truth <;> rfl

end

-- What makes an inquiry fail: its context cannot be read, its source cannot be compiled, or a truth
-- value is asked for and the source has none.
inductive Fails (read : String → Except FileError String) (inquiry : Inquiry) : Prop
  | origin {message : String} (horigin : inquiry.origin.Yields read (.error message))
  | source {context : Context} {error : ParseError}
      (horigin : inquiry.origin.Yields read (.ok context))
      (hcompile : Expression.compile inquiry.source = .error error)
  | truth {context : Context} {error : EvalError}
      (horigin : inquiry.origin.Yields read (.ok context)) (hshows : inquiry.showsFormula = false)
      (hevaluate : Verdict.evaluate inquiry.source context = .error (.evaluation error))

variable {inquiry : Inquiry}

theorem exists_failed (hfails : Fails read inquiry) :
    ∃ message, inquiry.command.execute read = .failed message := by
  cases hfails with
  | origin horigin => exact ⟨_, execute_of_refused horigin⟩
  | source horigin hcompile => exact ⟨_, execute_of_compile_error horigin hcompile⟩
  | truth horigin hshows hevaluate =>
      rw [execute_of_evaluate horigin hshows, hevaluate]
      exact ⟨_, rfl⟩

theorem exists_printed (hfails : ¬Fails read inquiry) :
    ∃ exitCode line, exitCode < 2 ∧ inquiry.command.execute read = .printed exitCode line := by
  cases horigin : readContext read inquiry.options with
  | error message => exact (hfails (.origin (yields_iff.mpr horigin))).elim
  | ok context =>
      rw [← yields_iff] at horigin
      cases hcompile : Expression.compile inquiry.source with
      | error error => exact (hfails (.source horigin hcompile)).elim
      | ok expression =>
          cases hshows : inquiry.showsFormula with
          | true => exact ⟨0, _, by omega, execute_of_shows horigin hcompile hshows⟩
          | false =>
              have hevaluate := evaluate_of_compile hcompile context
              rw [execute_of_evaluate horigin hshows]
              cases htruth : expression.evaluateWith context with
              | error error =>
                  rw [htruth] at hevaluate
                  exact (hfails (.truth horigin hshows hevaluate)).elim
              | ok truth =>
                  rw [hevaluate, htruth]
                  cases truth with
                  | true => exact ⟨0, "true", by omega, rfl⟩
                  | false => exact ⟨1, "false", by omega, rfl⟩

theorem exitCode_eq_two_iff :
    (inquiry.command.execute read).exitCode = 2 ↔ Fails read inquiry := by
  by_cases hfails : Fails read inquiry
  · obtain ⟨message, hfailed⟩ := exists_failed hfails
    rw [hfailed]
    exact iff_of_true rfl hfails
  · obtain ⟨exitCode, line, hlt, hprinted⟩ := exists_printed hfails
    rw [hprinted]
    exact iff_of_false (Nat.ne_of_lt hlt) hfails

theorem stdout_eq_empty_iff :
    (inquiry.command.execute read).stdout = "" ↔ Fails read inquiry := by
  by_cases hfails : Fails read inquiry
  · obtain ⟨message, hfailed⟩ := exists_failed hfails
    rw [hfailed]
    exact iff_of_true rfl hfails
  · obtain ⟨exitCode, line, -, hprinted⟩ := exists_printed hfails
    rw [hprinted]
    exact iff_of_false (by simp [Report.printed]) hfails

-- What the report of an inquiry has to do with its context and the truth value of its source. A
-- context that cannot be read is reported whatever the source is.
structure Agrees (read : String → Except FileError String) (inquiry : Inquiry) (report : Report) :
    Prop where
  exitCode : report.exitCode = 2 ↔ Fails read inquiry
  stdout : report.stdout = "" ↔ Fails read inquiry
  refused : ∀ message, inquiry.origin.Yields read (.error message) → report = .failed message
  uncompiled : ∀ context error, inquiry.origin.Yields read (.ok context) →
    Expression.compile inquiry.source = .error error → report = .failed error.message
  shown : ∀ context expression, inquiry.origin.Yields read (.ok context) →
    Expression.compile inquiry.source = .ok expression → inquiry.showsFormula = true →
      report = .printed 0 expression.render
  evaluated : ∀ context, inquiry.origin.Yields read (.ok context) →
    inquiry.showsFormula = false → report = .ofTruth (Verdict.evaluate inquiry.source context)

theorem Asks.run_eq {arguments : List String} (h : Asks arguments inquiry) :
    run read arguments = inquiry.command.execute read := by
  rw [run, h.ofArguments]

theorem Asks.agrees {arguments : List String} (h : Asks arguments inquiry) :
    Agrees read inquiry (run read arguments) := by
  rw [h.run_eq]
  exact {
    exitCode := exitCode_eq_two_iff
    stdout := stdout_eq_empty_iff
    refused := fun _ => execute_of_refused
    uncompiled := fun _ _ => execute_of_compile_error
    shown := fun _ _ => execute_of_shows
    evaluated := fun _ => execute_of_evaluate }

-- The text of a context is worth the same as an argument and in a file.
theorem execute_file {text path source : String} {shows : Bool} (hfile : read path = .ok text) :
    (Inquiry.mk (.argument text) shows source).command.execute read =
      (Inquiry.mk (.file path) shows source).command.execute read := by
  simp only [Inquiry.command, Inquiry.options, Command.execute, readContext_of_file hfile]
  rfl

-- The arguments that are accepted are those that ask an inquiry, and each inquiry can be asked
-- unless its file has no name. What is then reported agrees with the truth value of the source, and
-- the text of a context may as well stand in a file.
theorem run_agrees (read : String → Except FileError String) :
    (∀ arguments options source, Command.ofArguments arguments = .run options source ↔
        ∃ inquiry, Asks arguments inquiry ∧ inquiry.command = .run options source) ∧
      (∀ inquiry : Inquiry, inquiry.origin ≠ .file "" → ∃ arguments, Asks arguments inquiry) ∧
      (∀ arguments inquiry, Asks arguments inquiry → Agrees read inquiry (run read arguments)) ∧
      ∀ text path shows source arguments others, read path = .ok text →
        Asks arguments ⟨.argument text, shows, source⟩ → Asks others ⟨.file path, shows, source⟩ →
          run read arguments = run read others := by
  refine ⟨fun _ _ _ => ofArguments_eq_run_iff, ?_, fun _ _ => Asks.agrees, ?_⟩
  · intro inquiry horigin
    exact ⟨inquiry.arguments, asks_arguments horigin⟩
  · intro text path shows source arguments others hfile hasks hothers
    rw [hasks.run_eq, hothers.run_eq]
    exact execute_file hfile

-- A context in a file and as an argument, and a file that is missing beside a source that cannot be
-- compiled.
theorem run_agrees_mixed :
    let read : String → Except FileError String := fun path =>
      if path = "c" then .ok "\x7b\"a\": \"x\"\x7d" else .error .missing
    run read ["a == 'x'", "-f", "c"] = .printed 0 "true" ∧
      run read ["-c", "\x7b\"a\": \"x\"\x7d", "a == 'x'"] = run read ["a == 'x'", "-f", "c"] ∧
      run read ["-fd", "--ast", "a b"] =
        .failed "Failed to read the context file 'd': No such file or directory (os error 2)" := by
  intro read
  obtain ⟨-, -, hagrees, hfile⟩ := run_agrees read
  have hasks : Asks ["a == 'x'", "-f", "c"] ⟨.file "c", false, "a == 'x'"⟩ :=
    ⟨List.Perm.swap _ _ _, by simp⟩
  have htext : Asks ["-c", "\x7b\"a\": \"x\"\x7d", "a == 'x'"]
      ⟨.argument "\x7b\"a\": \"x\"\x7d", false, "a == 'x'"⟩ := ⟨.refl _, by simp⟩
  have hmissing : Asks ["-fd", "--ast", "a b"] ⟨.file "d", true, "a b"⟩ := ⟨.refl _, by simp⟩
  have hcontext : Context.read? "\x7b\"a\": \"x\"\x7d" =
      some (.ofList [("a", .string "x")]) := rfl
  have hparse : Formula.parse "a == 'x'" =
      .ok (some (.binary .equal (.variable "a") (.constant (.string "x")))) := rfl
  have htrue : Verdict.evaluate "a == 'x'" (.ofList [("a", .string "x")]) = .ok true := by
    rw [Verdict.evaluate, Expression.compile, hparse]
    rfl
  refine ⟨?_, hfile _ _ _ _ _ _ rfl htext hasks, ?_⟩
  · have hreport := (hagrees _ _ hasks).evaluated _ (.file rfl (.argument hcontext)) rfl
    rw [hreport, htrue]
    rfl
  · have hread : read "d" = .error .missing := rfl
    rw [(hagrees _ _ hmissing).refused _ (.unreadable hread)]
    rfl

end CommandLine

end Verdict
