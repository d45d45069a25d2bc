import JvsSharp.Command
import JvsSharp.Proofs.TreeFrame

/-!
# The command changes one file or none

The command fails in a fixed order of checks, and every failure, like every
message that is not about a conversion, leaves the tree as it was. A
conversion sets the output and nothing else. All that it writes was read
before, so the output may be the input or the settings file. How settings are
read, where the command works and what the system refuses to write are given
from outside.
-/

set_option autoImplicit false

namespace JvsSharp.Command

structure AsksFor (args : Arguments) (mode input output : String) : Prop where
  noList : args.listRules = none
  mode : args.mode = some mode
  input : args.input = some input
  output : args.output = some output

def LacksArgument (args : Arguments) : Prop :=
  args.listRules = none ∧ (args.mode = none ∨ args.input = none ∨ args.output = none)

/-- The text of a conversion: what the section of the mode sets, else the defaults, around
the converted lines, in which the settings have no part. -/
def convertedText (settings : Settings) (mode : Mode) (bytes : List UInt8) : List Char :=
  let base := Conversion.ofMode mode
  Text.unlines
    ((settings.sectionOf mode).usings.getD base.prelude ++ base.body (sourceLines bytes) ++
      if (settings.sectionOf mode).closeNamespace.getD base.closeNamespace then [['\x7d']] else [])

def Sets (tree tree' : Tree) (home : Path) (path : String) (text : List Char) : Prop :=
  ∃ place, tree.target home path = .ok place ∧
    (∀ other, other ≠ place → tree'.entry? other = tree.entry? other) ∧
    tree'.read home path = .ok (Utf8.encode text)

inductive Message where
  | rules (mode : Mode)
  | usage
  | notFound (input : String)
  | written (output : String)

def Message.text (json : Bool) : Message → Line
  | .rules mode => ruleList mode json
  | .usage => Command.usage
  | .notFound input => notFoundText input
  | .written output => writtenText output

theorem head_append (s t : String) (c : Char) (h : s.toList.head? = some c) :
    (s ++ t).toList.head? = some c := by
  rw [String.toList_append, List.head?_append, h]
  rfl

theorem writtenText_head (output : String) : (writtenText output).head? = some 'C' :=
  head_append _ _ _ (head_append _ _ _ rfl)

theorem notFoundText_head (input : String) : (notFoundText input).head? = some 'I' :=
  head_append _ _ _ (head_append _ _ _ rfl)

theorem usage_head : Command.usage.head? = some 'U' := head_append _ _ _ (head_append _ _ _ rfl)

theorem ruleList_head (mode : Mode) (json : Bool) :
    (ruleList mode json).head? = some (if json then '\x7b' else ' ') := by
  cases json with
  | true =>
    exact head_append _ _ _ (head_append _ _ _ (head_append _ _ _ (head_append _ _ _ rfl)))
  | false => cases mode <;> rfl

theorem name_head (mode : Mode) :
    mode.name.toList.head? = some (match mode with | .general => 'g' | .domain => 'd') := by
  cases mode <;> rfl

theorem ruleListJson_name (mode : Mode) : ∃ rest, ruleListJson mode =
    "\x7b\n  \"mode\": \"".toList ++ (mode.name.toList ++ rest) := by
  unfold ruleListJson
  simp only [String.toList_append, List.append_assoc]
  exact ⟨_, rfl⟩

theorem ruleList_injective (mode mode' : Mode) (json : Bool)
    (h : ruleList mode json = ruleList mode' json) : mode = mode' := by
  cases json with
  | true =>
    obtain ⟨rest, hrest⟩ := ruleListJson_name mode
    obtain ⟨rest', hrest'⟩ := ruleListJson_name mode'
    have hjson : ruleListJson mode = ruleListJson mode' := h
    have hnames := List.append_cancel_left (hrest.symm.trans (hjson.trans hrest'))
    have hhead := congrArg List.head? hnames
    rw [List.head?_append, List.head?_append, name_head, name_head] at hhead
    cases mode <;> cases mode' <;> first | rfl | simp at hhead
  | false =>
    have hname := congrArg (fun text => text[4]?) h
    cases mode <;> cases mode' <;> first | rfl | exact absurd hname (by decide +kernel)

theorem append_injective (s t a b : String) (h : (s ++ a ++ t).toList = (s ++ b ++ t).toList) :
    a = b := by
  simp only [String.toList_append, List.append_left_inj, List.append_right_inj] at h
  exact String.toList_inj.1 h

theorem notFoundText_injective (a b : String) (h : notFoundText a = notFoundText b) : a = b := by
  unfold notFoundText at h
  exact append_injective _ _ a b h

theorem writtenText_injective (a b : String) (h : writtenText a = writtenText b) : a = b := by
  unfold writtenText at h
  exact append_injective _ _ a b h

theorem Message.head_text (json : Bool) (message : Message) : (message.text json).head? =
    match message with
    | .rules _ => some (if json then '\x7b' else ' ')
    | .usage => some 'U'
    | .notFound _ => some 'I'
    | .written _ => some 'C' := by
  cases message with
  | rules mode => exact ruleList_head mode json
  | usage => exact usage_head
  | notFound input => exact notFoundText_head input
  | written output => exact writtenText_head output

theorem Message.text_injective (json : Bool) (message message' : Message)
    (h : message.text json = message'.text json) : message = message' := by
  have hhead := congrArg List.head? h
  rw [head_text, head_text] at hhead
  cases message <;> cases message'
  case rules.rules mode mode' => rw [ruleList_injective mode mode' json h]
  case usage.usage => rfl
  case notFound.notFound input input' => rw [notFoundText_injective input input' h]
  case written.written output output' => rw [writtenText_injective output output' h]
  all_goals cases json <;> simp at hhead

theorem Message.text_ne_nil (json : Bool) (message : Message) : message.text json ≠ [] := by
  intro h
  have hhead := message.head_text json
  rw [h] at hhead
  cases message <;> exact nomatch hhead

section
variable (tree : Tree) (args : Arguments) (access : Access) (parse : Line → Option Settings)

/-- The settings stand in the file that is named, else in that of the project; the defaults are for
a project without one. -/
def Configures (settings : Settings) : Prop :=
  (∃ path bytes text,
    (args.config = some path ∨
      args.config = none ∧ path = Settings.projectPath ∧
        tree.isFile access.home path = true) ∧
    tree.read access.home path = .ok bytes ∧ Utf8.decode? bytes = some text ∧
    parse text = some settings) ∨
  (args.config = none ∧ tree.isFile access.home Settings.projectPath = false ∧
    settings = Settings.default)

def Composes (mode input : String) (text : List Char) : Prop :=
  ∃ m settings bytes, Mode.ofName? mode = some m ∧ tree.isFile access.home input = true ∧
    Configures tree args access parse settings ∧ tree.read access.home input = .ok bytes ∧
    text = convertedText settings m bytes

/-- The mode is not known, or there is an input, but no settings can be loaded or the output
cannot be written. -/
def Fails : Prop :=
  ∃ mode input output, AsksFor args mode input output ∧
    (Mode.ofName? mode = none ∨
      tree.isFile access.home input = true ∧
        ((∀ settings, ¬Configures tree args access parse settings) ∨
          ∃ text fault, Composes tree args access parse mode input text ∧
            tree.write access output (Utf8.encode text) = .error fault))

def Message.Cause : Message → Prop
  | .rules mode => args.listRules = some mode
  | .usage => LacksArgument args
  | .notFound input => ∃ mode output m, AsksFor args mode input output ∧
      Mode.ofName? mode = some m ∧ tree.isFile access.home input = false
  | .written output => ∃ mode input text tree', AsksFor args mode input output ∧
      Composes tree args access parse mode input text ∧
      tree.write access output (Utf8.encode text) = .ok tree'

def IsQuiet (outcome : Outcome) : Prop :=
  outcome.error.isSome = true ∨ (∃ mode, outcome.stdout = ruleList mode args.json) ∨
    outcome.stdout = usage ∨ ∃ input, outcome.stdout = notFoundText input

end

theorem convertBytes_text (s : Settings) (mode : Mode) (bytes : List UInt8) :
    ((s.conversion mode).convertBytes bytes).2 = convertedText s mode bytes := by
  cases mode <;> rfl

theorem sets_of_write (tree tree' : Tree) (access : Access) (path : String) (text : List Char)
    (h : tree.write access path (Utf8.encode text) = .ok tree') :
    Sets tree tree' access.home path text := by
  have hfind := Tree.find_write tree access path _ tree' h
  obtain ⟨place, hplace, -, rfl⟩ := Tree.write_ok tree access path _ tree' h
  refine ⟨place, hplace, ?_, ?_⟩
  · intro other hother
    exact Tree.entry_set_other tree place other _ hother
  · simp only [Tree.read, hfind, bind, Except.bind]

section
variable {tree : Tree} {directory : String} {args : Arguments} {access : Access}
  {parse : Line → Option Settings} {mode input output : String}

theorem loadFrom_ok_iff (path shown : String) (settings : Settings) :
    Settings.loadFrom parse (tree.disk access.home) path shown = .ok settings ↔
      ∃ bytes text, tree.read access.home path = .ok bytes ∧ Utf8.decode? bytes = some text ∧
        parse text = some settings := by
  simp only [Settings.loadFrom, Disk.readText, Tree.disk]
  cases hread : tree.read access.home path with
  | error fault => simp [bind, Except.bind]
  | ok bytes =>
    cases htext : Utf8.decode? bytes with
    | none => simp [bind, Except.bind, htext]
    | some text => cases hparse : parse text <;> simp [bind, Except.bind, htext, hparse]

theorem load_ok_iff (directory : String) (settings : Settings) :
    (∃ loaded, Settings.load (tree.disk access.home) directory args.config parse =
      .ok (settings, loaded)) ↔ Configures tree args access parse settings := by
  have hfrom : ∀ path shown (loaded : Event),
      (∃ e, (do return (← Settings.loadFrom parse (tree.disk access.home) path shown, loaded)) =
        Except.ok (ε := CommandError) (settings, e)) ↔
        ∃ bytes text, tree.read access.home path = .ok bytes ∧ Utf8.decode? bytes = some text ∧
          parse text = some settings := by
    intro path shown loaded
    rw [← loadFrom_ok_iff path shown]
    cases Settings.loadFrom parse (tree.disk access.home) path shown <;>
      simp [bind, Except.bind, pure, Except.pure]
  unfold Settings.load Configures
  cases hconfig : args.config with
  | some path => simpa using hfrom path path (.settingsLoaded path)
  | none =>
    have hdisk : (tree.disk access.home).isFile Settings.projectPath =
        tree.isFile access.home Settings.projectPath := rfl
    rw [hdisk]
    cases hfile : tree.isFile access.home Settings.projectPath with
    | true =>
      refine (hfrom Settings.projectPath _ _).trans ⟨?_, ?_⟩
      · rintro ⟨bytes, text, hread⟩
        exact .inl ⟨_, bytes, text, .inr ⟨rfl, rfl, hfile⟩, hread⟩
      · rintro (⟨path, bytes, text, hpath | ⟨-, rfl, -⟩, hread⟩ | ⟨-, hmissing, -⟩)
        · exact nomatch hpath
        · exact ⟨bytes, text, hread⟩
        · exact nomatch hmissing
    | false =>
      constructor
      · rintro ⟨loaded, hloaded⟩
        cases hloaded
        exact .inr ⟨rfl, rfl, rfl⟩
      · rintro (⟨path, bytes, text, hpath | ⟨-, rfl, hpresent⟩, -⟩ | ⟨-, -, rfl⟩)
        · exact nomatch hpath
        · exact absurd (hfile.symm.trans hpresent) Bool.false_ne_true
        · exact ⟨_, rfl⟩

theorem runOn_rules {m : Mode} (h : args.listRules = some m) :
    runOn tree directory args access parse = ({ stdout := ruleList m args.json }, tree) := by
  simp only [runOn, plan, h, carryOut]

theorem runOn_usage (h : LacksArgument args) :
    runOn tree directory args access parse = ({ stdout := usage }, tree) := by
  obtain ⟨hlist, hnone⟩ := h
  simp only [runOn, plan, hlist]
  split
  · next hmode hinput houtput => simp [hmode, hinput, houtput] at hnone
  · rfl

theorem runOn_asked (h : AsksFor args mode input output) :
    runOn tree directory args access parse =
      carryOut tree access
        (convertFile parse (tree.disk access.home) directory args.config mode input output) := by
  simp only [runOn, plan, h.noList, h.mode, h.input, h.output]

theorem runOn_unsupported (h : AsksFor args mode input output) (hm : Mode.ofName? mode = none) :
    runOn tree directory args access parse = ({ error := some (.unsupportedMode mode) }, tree) := by
  simp only [runOn_asked h, convertFile, hm, carryOut]

theorem runOn_notFound {m : Mode} (h : AsksFor args mode input output)
    (hm : Mode.ofName? mode = some m) (hfile : tree.isFile access.home input = false) :
    runOn tree directory args access parse = ({ stdout := notFoundText input }, tree) := by
  simp [runOn_asked h, convertFile, hm, carryOut, Tree.disk, hfile]

theorem runOn_settings {m : Mode} {e : CommandError} (h : AsksFor args mode input output)
    (hm : Mode.ofName? mode = some m) (hfile : tree.isFile access.home input = true)
    (hload : Settings.load (tree.disk access.home) directory args.config parse = .error e) :
    runOn tree directory args access parse = ({ error := some e }, tree) := by
  have hdisk : (tree.disk access.home).isFile input = true := hfile
  simp [runOn_asked h, convertFile, hm, carryOut, hdisk, hload]

/-- All that can still go wrong with a conversion is the write. -/
theorem runOn_composed (directory : String) {text : List Char} (h : AsksFor args mode input output)
    (hcomposed : Composes tree args access parse mode input text) :
    ∃ events events', runOn tree directory args access parse =
      match tree.write access output (Utf8.encode text) with
      | .ok tree' => ({ stdout := writtenText output, events := events }, tree')
      | .error fault =>
          ({ events := events', error := some (.outputUnwritable output fault) }, tree) := by
  obtain ⟨m, settings, bytes, hm, hfile, hsettings, hread, rfl⟩ := hcomposed
  obtain ⟨loaded, hload⟩ := (load_ok_iff directory settings).2 hsettings
  have hdisk : (tree.disk access.home).isFile input = true := hfile
  have hbytes : (tree.disk access.home).read input = .ok bytes := hread
  rw [runOn_asked h, ← convertBytes_text]
  simp only [convertFile, hm, hdisk, if_true, hload, hbytes, convert, carryOut]
  exact ⟨_, _, rfl⟩

theorem exists_composed {m : Mode} {settings : Settings} (hm : Mode.ofName? mode = some m)
    (hfile : tree.isFile access.home input = true)
    (hsettings : Configures tree args access parse settings) :
    ∃ text, Composes tree args access parse mode input text := by
  obtain ⟨bytes, hread⟩ := Tree.read_of_isFile tree access.home input hfile
  exact ⟨_, m, settings, bytes, hm, hfile, hsettings, hread, rfl⟩

theorem asksFor_or_lacks (args : Arguments) (hlist : args.listRules = none) :
    (∃ mode input output, AsksFor args mode input output) ∨ LacksArgument args := by
  cases hmode : args.mode with
  | none => exact .inr ⟨hlist, .inl hmode⟩
  | some mode =>
    cases hinput : args.input with
    | none => exact .inr ⟨hlist, .inr (.inl hinput)⟩
    | some input =>
      cases houtput : args.output with
      | none => exact .inr ⟨hlist, .inr (.inr houtput)⟩
      | some output => exact .inl ⟨mode, input, output, hlist, hmode, hinput, houtput⟩

theorem fails_or_caused (tree : Tree) (args : Arguments) (access : Access)
    (parse : Line → Option Settings) :
    Fails tree args access parse ∨
      ∃ message : Message, message.Cause tree args access parse := by
  cases hlist : args.listRules with
  | some m => exact .inr ⟨.rules m, hlist⟩
  | none =>
    rcases asksFor_or_lacks args hlist with ⟨mode, input, output, h⟩ | hlacks
    · cases hm : Mode.ofName? mode with
      | none => exact .inl ⟨mode, input, output, h, .inl hm⟩
      | some m =>
        cases hfile : tree.isFile access.home input with
        | false => exact .inr ⟨.notFound input, mode, output, m, h, hm, hfile⟩
        | true =>
          by_cases hsettings : ∃ settings, Configures tree args access parse settings
          · obtain ⟨settings, hsettings⟩ := hsettings
            obtain ⟨text, hcomposed⟩ := exists_composed hm hfile hsettings
            cases hwrite : tree.write access output (Utf8.encode text) with
            | error fault =>
              exact .inl ⟨mode, input, output, h, .inr ⟨hfile, .inr ⟨text, fault, hcomposed,
                hwrite⟩⟩⟩
            | ok tree' =>
              exact .inr ⟨.written output, mode, input, text, tree', h, hcomposed, hwrite⟩
          · exact .inl ⟨mode, input, output, h, .inr ⟨hfile, .inl (not_exists.1 hsettings)⟩⟩
    · exact .inr ⟨.usage, hlacks⟩

theorem runOn_of_fails (h : Fails tree args access parse) :
    ∃ events e, runOn tree directory args access parse =
      ({ events := events, error := some e }, tree) := by
  obtain ⟨mode, input, output, h, hm | ⟨hfile, hnone | ⟨text, fault, hcomposed, hwrite⟩⟩⟩ := h
  · exact ⟨_, _, runOn_unsupported h hm⟩
  · cases hm : Mode.ofName? mode with
    | none => exact ⟨_, _, runOn_unsupported h hm⟩
    | some m =>
      cases hload : Settings.load (tree.disk access.home) directory args.config parse with
      | error e => exact ⟨_, _, runOn_settings h hm hfile hload⟩
      | ok found =>
        exact absurd ((load_ok_iff directory found.1).1 ⟨found.2, hload⟩) (hnone found.1)
  · obtain ⟨events, events', hrun⟩ := runOn_composed directory h hcomposed
    rw [hwrite] at hrun
    exact ⟨_, _, hrun⟩

theorem runOn_of_cause (directory : String) (message : Message)
    (h : message.Cause tree args access parse) :
    let run := runOn tree directory args access parse
    run.1.error = none ∧ run.1.stdout = message.text args.json := by
  cases message with
  | rules m => simp [runOn_rules h, Message.text]
  | usage => simp [runOn_usage h, Message.text]
  | notFound input =>
    obtain ⟨mode, output, m, h, hm, hfile⟩ := h
    simp [runOn_notFound h hm hfile, Message.text]
  | written output =>
    obtain ⟨mode, input, text, tree', h, hcomposed, hwrite⟩ := h
    obtain ⟨events, events', hrun⟩ := runOn_composed directory h hcomposed
    rw [hwrite] at hrun
    simp [hrun, Message.text]

theorem error_iff :
    (runOn tree directory args access parse).1.error.isSome = true ↔
      Fails tree args access parse := by
  constructor
  · intro herror
    refine (fails_or_caused tree args access parse).resolve_right ?_
    rintro ⟨message, hcause⟩
    rw [(runOn_of_cause directory message hcause).1] at herror
    exact nomatch herror
  · intro h
    obtain ⟨events, e, hrun⟩ := runOn_of_fails h
    rw [hrun]
    rfl

/-- Since messages differ, each is shown for its cause only. -/
theorem shown_iff (directory : String) (message : Message) :
    (runOn tree directory args access parse).1.stdout = message.text args.json ↔
      message.Cause tree args access parse := by
  constructor
  · intro hshown
    rcases fails_or_caused tree args access parse with hfails | ⟨other, hcause⟩
    · obtain ⟨events, e, hrun⟩ := runOn_of_fails hfails
      rw [hrun] at hshown
      exact absurd hshown.symm (message.text_ne_nil args.json)
    · have hother := (runOn_of_cause directory other hcause).2
      rw [Message.text_injective args.json message other (hshown.symm.trans hother)]
      exact hcause
  · exact fun h => (runOn_of_cause directory message h).2

theorem unchanged_of_quiet
    (hquiet : IsQuiet args (runOn tree directory args access parse).1) :
    (runOn tree directory args access parse).2 = tree := by
  rcases hquiet with herror | ⟨m, hshown⟩ | hshown | ⟨input, hshown⟩
  · obtain ⟨events, e, hrun⟩ := runOn_of_fails (error_iff.1 herror)
    rw [hrun]
  · rw [runOn_rules ((shown_iff directory (.rules m)).1 hshown)]
  · rw [runOn_usage ((shown_iff directory .usage).1 hshown)]
  · obtain ⟨mode, output, m, h, hm, hfile⟩ := (shown_iff directory (.notFound input)).1 hshown
    rw [runOn_notFound h hm hfile]

theorem sets_of_not_quiet
    (hloud : ¬IsQuiet args (runOn tree directory args access parse).1) :
    ∃ mode input output text, AsksFor args mode input output ∧
      Composes tree args access parse mode input text ∧
      Sets tree (runOn tree directory args access parse).2 access.home output text := by
  rcases fails_or_caused tree args access parse with hfails | ⟨message, hcause⟩
  · exact absurd (.inl (error_iff.2 hfails)) hloud
  · have hshown := (shown_iff directory message).2 hcause
    cases message with
    | rules m => exact absurd (.inr (.inl ⟨m, hshown⟩)) hloud
    | usage => exact absurd (.inr (.inr (.inl hshown))) hloud
    | notFound input => exact absurd (.inr (.inr (.inr ⟨input, hshown⟩))) hloud
    | written output =>
      obtain ⟨mode, input, text, tree', h, hcomposed, hwrite⟩ := hcause
      obtain ⟨events, events', hrun⟩ := runOn_composed directory h hcomposed
      rw [hwrite] at hrun
      rw [hrun]
      exact ⟨mode, input, output, text, h, hcomposed, sets_of_write tree tree' access output text
        hwrite⟩

end

/-- The command fails in exactly the cases that `Fails` names, and each message is shown for
exactly its cause. A failure, a rule list, the usage or a missing input leaves the tree as it was;
any other run sets the output to the converted text and touches nothing else. Input, output and
settings are arbitrary paths, so they may be the same. -/
theorem command_all_or_nothing (tree : Tree) (directory : String) (args : Arguments)
    (access : Access) (parse : Line → Option Settings) :
    let outcome := (runOn tree directory args access parse).1
    let tree' := (runOn tree directory args access parse).2
    (outcome.error.isSome = true ↔ Fails tree args access parse) ∧
      (∀ message : Message, outcome.stdout = message.text args.json ↔
        message.Cause tree args access parse) ∧
      (IsQuiet args outcome → tree' = tree) ∧
      (¬IsQuiet args outcome → ∃ mode input output text, AsksFor args mode input output ∧
        Composes tree args access parse mode input text ∧
        Sets tree tree' access.home output text) := by
  intro outcome tree'
  exact ⟨error_iff, shown_iff directory, unchanged_of_quiet, sets_of_not_quiet⟩

/-- A file is converted into itself. -/
theorem input_overwritten :
    let home : Path := ["home".toList, "jobs".toList]
    let job : Path := home ++ ["Job.jvs".toList]
    let config : Path := home ++ [".jvs2ntk".toList, "config.toml".toList]
    let tree := (Tree.place [] job (.file (Utf8.encode "int x;\n".toList))).place config
      (.file (Utf8.encode "domain.usings = [\"using Custom;\"]\n".toList))
    let args : Arguments :=
      { mode := some "domain"
        input := some "../jobs/Job.jvs"
        output := some "/home/jobs/Job.jvs" }
    let run := runOn tree "/home/jobs" args { home := home }
    run.2.changedFrom tree = [(job, Utf8.encode "using Custom;\nint x;\n\x7d\n".toList)] ∧
      (Message.written "/home/jobs/Job.jvs").Cause tree args { home := home }
        Settings.parse? := by
  intro home job config tree args run
  refine ⟨by decide +kernel, ?_⟩
  have hall := command_all_or_nothing tree "/home/jobs" args { home := home } Settings.parse?
  refine (hall.2.1 (.written "/home/jobs/Job.jvs")).1 ?_
  decide +kernel

example :
    let tree : Tree := [(["Job.jvs".toList], .file [])]
    let denied : Fault := .other "Permission denied" 13
    let args : Arguments :=
      { mode := some "general", input := some "/Job.jvs", output := some "Job.cs" }
    let run := runOn tree "/" args { refuses := fun _ _ => some denied }
    run.1.error = some (.outputUnwritable "Job.cs" denied) ∧ run.2 = tree := by
  decide +kernel

end JvsSharp.Command
