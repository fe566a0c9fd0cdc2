import Verdict.CommandLine

namespace Verdict.CommandLine

-- Where the context of an expression comes from.
inductive Origin
  | absent
  | argument (text : String)
  | file (path : String)

def Origin.items : Origin → List Item
  | .absent => []
  | .argument text => [.context text]
  | .file path => [.contextFile path]

-- What the program is asked: the truth value of a source in a context, or its formula.
structure Inquiry where
  origin : Origin
  showsFormula : Bool
  source : String

namespace Inquiry

-- The items that make up an inquiry.
def items (inquiry : Inquiry) : List Item :=
  inquiry.origin.items ++ ((if inquiry.showsFormula then [.showFormula] else []) ++
    [.source inquiry.source])

def options : Inquiry → Options
  | ⟨.absent, shows, source⟩ => ⟨none, none, shows, some source⟩
  | ⟨.argument text, shows, source⟩ => ⟨some text, none, shows, some source⟩
  | ⟨.file path, shows, source⟩ => ⟨none, some path, shows, some source⟩

def command (inquiry : Inquiry) : Command := .run inquiry.options inquiry.source

end Inquiry

-- Arguments ask an inquiry if they give each of its items once, in any order. An empty path names
-- no file.
def Asks (arguments : List String) (inquiry : Inquiry) : Prop :=
  (items arguments).Perm inquiry.items ∧ inquiry.origin ≠ .file ""

namespace Options

-- The items that options hold, slot after slot.
def held (options : Options) : List Item :=
  (options.contextText.map Item.context).toList ++
    ((options.contextPath.map Item.contextFile).toList ++
      ((if options.showsFormula then [.showFormula] else []) ++
        (options.source.map Item.source).toList))

theorem held_empty : empty.held = [] := rfl

section

variable {options : Options}

theorem context_mem_held {text : String} :
    .context text ∈ options.held ↔ options.contextText = some text := by
  simp [held]

theorem contextFile_mem_held {path : String} :
    .contextFile path ∈ options.held ↔ options.contextPath = some path := by
  simp [held]

theorem showFormula_mem_held : .showFormula ∈ options.held ↔ options.showsFormula = true := by
  simp [held]

theorem source_mem_held {source : String} :
    .source source ∈ options.held ↔ options.source = some source := by
  simp [held]

end

-- Options are determined by what they hold.
theorem eq_of_perm_held {first second : Options} (hperm : first.held.Perm second.held) :
    first = second := by
  have hmem (item : Item) : item ∈ first.held ↔ item ∈ second.held := hperm.mem_iff
  obtain ⟨text, path, shows, source⟩ := first
  obtain ⟨text', path', shows', source'⟩ := second
  congr 1
  · ext value
    exact context_mem_held.symm.trans ((hmem _).trans context_mem_held)
  · ext value
    exact contextFile_mem_held.symm.trans ((hmem _).trans contextFile_mem_held)
  · exact Bool.eq_iff_iff.mpr
      (showFormula_mem_held.symm.trans ((hmem _).trans showFormula_mem_held))
  · ext value
    exact source_mem_held.symm.trans ((hmem _).trans source_mem_held)

end Options

-- Whether an item can be part of an inquiry: no fault, no question about the program itself, and no
-- file without a name.
def Item.IsAllowed : Item → Prop
  | .contextFile path => path ≠ ""
  | .help | .version | .fault _ => False
  | _ => True

namespace Options

-- What becomes of options to which items are added. Either all of them are allowed and then held,
-- or there is nothing to run, and one of them is not allowed or is the second of its kind. Items are
-- of one kind if they have the same constructor.
inductive Gathers (options : Options) (given : List Item) : Except Command Options → Prop
  | all {next : Options} (hallowed : ∀ item ∈ given, item.IsAllowed)
      (hheld : next.held.Perm (given ++ options.held)) : Gathers options given (.ok next)
  | stops {command : Command} (hrun : ∀ other source, command ≠ .run other source)
      (hfault : (∀ item ∈ given, item.IsAllowed) →
        ¬((given ++ options.held).map Item.ctorIdx).Nodup) :
      Gathers options given (.error command)

variable {options next : Options} {item other : Item} {given : List Item}

theorem Gathers.one (hallowed : item.IsAllowed) (hheld : next.held.Perm (item :: options.held)) :
    Gathers options [item] (.ok next) :=
  .all (by simpa using hallowed) hheld

-- A second item of a kind that is held already.
theorem Gathers.again {reason : String} (hmem : other ∈ options.held)
    (hkind : other.ctorIdx = item.ctorIdx) :
    Gathers options [item] (.error (.invalid reason)) :=
  .stops (fun _ _ => nofun)
    fun _ hkinds => (List.nodup_cons.mp hkinds).1 (List.mem_map.mpr ⟨other, hmem, hkind⟩)

theorem Gathers.refused {command : Command} (hrun : ∀ other source, command ≠ .run other source)
    (hallowed : ¬item.IsAllowed) : Gathers options [item] (.error command) :=
  .stops hrun fun hall => (hallowed (hall item (List.mem_singleton_self item))).elim

-- The slots that stand in front of the one that is filled keep their place, so each permutation
-- moves the new item past them, innermost first.
theorem gathers_add (options : Options) (item : Item) :
    options.Gathers [item] (options.add item) := by
  obtain ⟨text, path, shows, source⟩ := options
  cases item with
  | context value =>
      cases text with
      | some text => exact .again (context_mem_held.mpr rfl) rfl
      | none => exact .one trivial (.refl _)
  | contextFile value =>
      cases path with
      | some path => exact .again (contextFile_mem_held.mpr rfl) rfl
      | none =>
          by_cases hvalue : value = ""
          · subst hvalue
            exact .refused (fun _ _ => nofun) (fun hallowed => hallowed rfl)
          · rw [add, if_neg (by simp), if_neg hvalue]
            exact .one hvalue List.perm_middle
  | showFormula =>
      cases shows with
      | true => exact .again (showFormula_mem_held.mpr rfl) rfl
      | false => exact .one trivial ((List.perm_middle.append_left _).trans List.perm_middle)
  | source value =>
      cases source with
      | some source => exact .again (source_mem_held.mpr rfl) rfl
      | none =>
          exact .one trivial ((((List.perm_middle.append_left _).trans
            List.perm_middle).append_left _).trans List.perm_middle)
  | help | version | fault => exact .refused (fun _ _ => nofun) id

-- Once an item stops the gathering, it does so whatever comes after it.
theorem Gathers.stop {command : Command} (h : Gathers options [item] (.error command))
    (given : List Item) : Gathers options (item :: given) (.error command) := by
  obtain _ | ⟨hrun, hfault⟩ := h
  refine .stops hrun fun hallowed hkinds => ?_
  have hitem : ∀ other ∈ [item], other.IsAllowed := by
    simpa using hallowed item List.mem_cons_self
  have hfirst : ([item] ++ options.held).Sublist (item :: given ++ options.held) :=
    (List.sublist_append_right given options.held).cons_cons item
  exact hfault hitem (hkinds.sublist (hfirst.map Item.ctorIdx))

theorem Gathers.cons {result : Except Command Options} (h : Gathers options [item] (.ok next))
    (hrest : Gathers next given result) : Gathers options (item :: given) result := by
  obtain ⟨hitem, hnext⟩ | _ := h
  have hperm : (given ++ next.held).Perm (item :: given ++ options.held) :=
    (hnext.append_left given).trans List.perm_middle
  cases hrest with
  | all hgiven hheld =>
      refine .all ?_ (hheld.trans hperm)
      exact List.forall_mem_cons.mpr ⟨hitem item (List.mem_singleton_self item), hgiven⟩
  | stops hrun hfault =>
      refine .stops hrun fun hallowed hkinds => ?_
      refine hfault (List.forall_mem_cons.mp hallowed).2 ?_
      exact (hperm.map Item.ctorIdx).nodup_iff.mpr hkinds

-- Induction on the items; what the rest of them finds held already includes the first.
theorem gathers_foldlM (options : Options) (given : List Item) :
    options.Gathers given (given.foldlM add options) := by
  induction given generalizing options with
  | nil => exact .all (by simp) (.refl _)
  | cons item given ih =>
      rw [List.foldlM_cons]
      have hadd := options.gathers_add item
      cases hresult : options.add item with
      | error command => exact (hresult ▸ hadd).stop given
      | ok next => exact (hresult ▸ hadd).cons (ih next)

end Options

namespace Inquiry

theorem held_options (inquiry : Inquiry) : inquiry.options.held = inquiry.items := by
  obtain ⟨origin, shows, source⟩ := inquiry
  cases origin <;> rfl

theorem command_options (inquiry : Inquiry) : inquiry.options.command = inquiry.command := by
  obtain ⟨origin, shows, source⟩ := inquiry
  cases origin <;> rfl

-- An inquiry has no two items of one kind.
theorem nodup_kinds (inquiry : Inquiry) : (inquiry.items.map Item.ctorIdx).Nodup := by
  obtain ⟨origin, shows, source⟩ := inquiry
  cases origin <;> cases shows <;> simp [items, Origin.items, Item.ctorIdx]

theorem forall_isAllowed {inquiry : Inquiry} :
    (∀ item ∈ inquiry.items, item.IsAllowed) ↔ inquiry.origin ≠ .file "" := by
  obtain ⟨origin, shows, source⟩ := inquiry
  cases origin <;> cases shows <;> simp [items, Origin.items, Item.IsAllowed]

end Inquiry

-- Options with an expression and no more than one source of its context are those of an inquiry.
theorem Options.exists_inquiry {options other : Options} {source : String}
    (hcommand : options.command = .run other source) :
    ∃ inquiry : Inquiry, inquiry.options = options ∧ inquiry.command = .run other source := by
  obtain ⟨text, path, shows, _ | source⟩ := options
  · cases hcommand
  · cases text with
    | none =>
        cases path with
        | none => exact ⟨⟨.absent, shows, source⟩, rfl, hcommand⟩
        | some path => exact ⟨⟨.file path, shows, source⟩, rfl, hcommand⟩
    | some text =>
        cases path with
        | none => exact ⟨⟨.argument text, shows, source⟩, rfl, hcommand⟩
        | some path => cases hcommand

section

variable {arguments : List String} {inquiry : Inquiry} {options : Options} {source : String}

theorem Asks.ofArguments (h : Asks arguments inquiry) :
    Command.ofArguments arguments = inquiry.command := by
  obtain ⟨hperm, hpath⟩ := h
  have hgathers := Options.empty.gathers_foldlM (items arguments)
  rw [Command.ofArguments]
  cases hresult : (items arguments).foldlM Options.add Options.empty with
  | error command =>
      rw [hresult] at hgathers
      obtain _ | ⟨-, hfault⟩ := hgathers
      have hallowed : ∀ item ∈ items arguments, item.IsAllowed := fun item hmem =>
        Inquiry.forall_isAllowed.mpr hpath item (hperm.mem_iff.mp hmem)
      have hkinds : ((items arguments ++ Options.empty.held).map Item.ctorIdx).Nodup := by
        rw [Options.held_empty, List.append_nil]
        exact (hperm.map Item.ctorIdx).nodup_iff.mpr inquiry.nodup_kinds
      exact (hfault hallowed hkinds).elim
  | ok gathered =>
      rw [hresult] at hgathers
      obtain ⟨-, hheld⟩ | _ := hgathers
      rw [Options.held_empty, List.append_nil] at hheld
      have hoptions : gathered = inquiry.options := by
        apply Options.eq_of_perm_held
        rw [inquiry.held_options]
        exact hheld.trans hperm
      subst hoptions
      exact inquiry.command_options

-- Arguments are accepted just if they ask an inquiry.
theorem ofArguments_eq_run_iff : Command.ofArguments arguments = .run options source ↔
    ∃ inquiry, Asks arguments inquiry ∧ inquiry.command = .run options source := by
  refine ⟨fun haccepted => ?_, fun ⟨inquiry, hasks, hcommand⟩ => hasks.ofArguments.trans hcommand⟩
  have hgathers := Options.empty.gathers_foldlM (items arguments)
  rw [Command.ofArguments] at haccepted
  cases hresult : (items arguments).foldlM Options.add Options.empty with
  | error command =>
      rw [hresult] at hgathers haccepted
      obtain _ | ⟨hrun, -⟩ := hgathers
      exact (hrun options source haccepted).elim
  | ok gathered =>
      rw [hresult] at hgathers haccepted
      obtain ⟨hallowed, hheld⟩ | _ := hgathers
      obtain ⟨inquiry, rfl, hcommand⟩ := Options.exists_inquiry haccepted
      rw [Options.held_empty, List.append_nil, inquiry.held_options] at hheld
      refine ⟨inquiry, ⟨hheld.symm, ?_⟩, hcommand⟩
      exact Inquiry.forall_isAllowed.mp fun item hmem => hallowed item (hheld.mem_iff.mp hmem)

end

-- A long option has the value behind its equals sign, whatever this value is.
theorem ofText_long {name : String} (hname : '=' ∉ name.toList) (value : String) :
    Argument.ofText ("--" ++ name ++ "=" ++ value) = longOption name (some value) := by
  have hlist : ("--" ++ name ++ "=" ++ value).toList =
      '-' :: '-' :: (name.toList ++ '=' :: value.toList) := by
    simp
  have hall : ∀ c ∈ name.toList, decide (c ≠ '=') = true := by
    intro c hc
    exact decide_eq_true fun heq => hname (heq ▸ hc)
  have htake : (name.toList ++ '=' :: value.toList).takeWhile (· ≠ '=') = name.toList := by
    rw [List.takeWhile_append_of_pos hall]
    simp
  have hdrop : (name.toList ++ '=' :: value.toList).dropWhile (· ≠ '=') = '=' :: value.toList := by
    rw [List.dropWhile_append_of_pos hall]
    simp
  obtain ⟨first, rest, hcons⟩ : ∃ first rest, name.toList ++ '=' :: value.toList = first :: rest :=
    List.exists_cons_of_ne_nil (by simp)
  rw [hcons] at hlist htake hdrop
  unfold Argument.ofText isPlain
  rw [hlist]
  simp only [Bool.false_eq_true, if_false, htake, hdrop, String.ofList_toList]

theorem items_complete {text : String} {item : Item} (htext : Argument.ofText text = .complete item)
    (rest : List String) : items (text :: rest) = item :: items rest := by
  cases rest with
  | nil | cons => simp only [items, htext]

def Origin.arguments : Origin → List String
  | .absent => []
  | .argument text => ["--context=" ++ text]
  | .file path => ["--context-file=" ++ path]

-- The arguments of an inquiry, written so that neither the text of a context nor a source is taken
-- for an option.
def Inquiry.arguments (inquiry : Inquiry) : List String :=
  inquiry.origin.arguments ++ ((if inquiry.showsFormula then ["--ast"] else []) ++
    ["--", inquiry.source])

theorem items_arguments (inquiry : Inquiry) : items inquiry.arguments = inquiry.items := by
  obtain ⟨origin, shows, source⟩ := inquiry
  have hrest : items ((if shows then ["--ast"] else []) ++ ["--", source]) =
      (if shows then [.showFormula] else []) ++ [.source source] := by
    cases shows <;> rfl
  cases origin with
  | absent => exact hrest
  | argument text =>
      have htext := ofText_long (by decide : '=' ∉ "context".toList) text
      exact (items_complete htext _).trans (congrArg (Item.context text :: ·) hrest)
  | file path =>
      have hpath := ofText_long (by decide : '=' ∉ "context-file".toList) path
      exact (items_complete hpath _).trans (congrArg (Item.contextFile path :: ·) hrest)

-- Each inquiry can be asked, whatever its texts look like.
theorem asks_arguments {inquiry : Inquiry} (hpath : inquiry.origin ≠ .file "") :
    Asks inquiry.arguments inquiry :=
  ⟨items_arguments inquiry ▸ .refl _, hpath⟩

end Verdict.CommandLine
