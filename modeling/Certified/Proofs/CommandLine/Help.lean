import Mathlib
import Certified.Proofs.CommandLine.Arguments

/-!
Asking for help. Arguments ask for a command or for a page of the help, never for both. Whatever command they ask
for, with a wish for help after them they ask for the page of that command in its place.
-/

namespace Certified.CommandLine

/-! ### Reading arguments -/

/-- What is read from arguments that name a command: what stands ahead of it, and its own options and other
arguments. -/
structure Reads (arguments : List String) (ahead : Ahead) (name : String) (rest : List String)
    (own : List Known) (given : List Given) (others : List String) : Prop where
  split : splitCommand? commonOptions arguments = some ahead
  command : ahead.command = some (name, rest)
  known : optionsOf? name = some own
  collected : collect? (own ++ commonOptions) rest = some (given, others)

section

variable {arguments rest others : List String} {ahead : Ahead} {name : String} {own : List Known}
  {given : List Given} {invocation : Invocation}

/-- Arguments that ask for a command have been read, with no wish for help in them. -/
theorem exists_reads (asked : Invocation.ofArguments? arguments = some invocation) :
    ∃ ahead name rest own given others first second, Reads arguments ahead name rest own given others ∧
      asksForHelp given = false ∧ valueOf? "config" fileName? ahead.given = some first ∧
      valueOf? "config" fileName? given = some second ∧
      command? name given others = some invocation.command := by
  simp only [Invocation.ofArguments?, Option.bind_eq_bind, Option.bind_eq_some_iff,
    Option.ite_none_left_eq_some, Bool.not_eq_true] at asked
  obtain ⟨ahead, split, ⟨name, rest⟩, command, own, known, ⟨given, others⟩, collected, noHelp, first, before,
    second, after, _, meant, made⟩ := asked
  cases made
  exact ⟨ahead, name, rest, own, given, others, first, second, ⟨split, command, known, collected⟩, noHelp,
    before, after, meant⟩

theorem Reads.helpPage_eq_some_iff (reads : Reads arguments ahead name rest own given others)
    {page : HelpPage} : HelpPage.ofArguments? arguments = some page ↔
      (∀ option ∈ commonOptions, option.fits ahead.settled = true) ∧ asksForHelp given = true ∧
        (∀ option ∈ own ++ commonOptions, option.fits given = true) ∧
        fitPlaces (placesOf name) others = true ∧ .command name = page := by
  have notHelp : name ≠ helpCommand := by
    rintro rfl
    exact nomatch reads.known
  simp only [HelpPage.ofArguments?, reads.split, reads.command, reads.known, reads.collected, notHelp,
    Option.bind_eq_bind, Option.bind_some, if_false, Bool.not_eq_eq_eq_not, Bool.not_true,
    Option.ite_none_left_eq_some, Option.ite_none_right_eq_some, Bool.not_eq_false, List.all_eq_true,
    Bool.and_eq_true, and_assoc, Option.some.injEq]

/-- Arguments that ask for help ask for no command. -/
theorem ofArguments?_eq_none_of_help {page : HelpPage}
    (help : HelpPage.ofArguments? arguments = some page) : Invocation.ofArguments? arguments = none := by
  rw [Option.eq_none_iff_forall_ne_some]
  intro invocation asked
  obtain ⟨ahead, name, rest, own, given, others, _, _, reads, noHelp, _⟩ := exists_reads asked
  obtain ⟨_, wanted, _⟩ := reads.helpPage_eq_some_iff.mp help
  exact absurd wanted (ne_true_of_eq_false noHelp)

end

/-! ### What fits -/

section

variable {option : Known} {given more : List Given} {name : String}

theorem Known.fits_iff : option.fits given = true ↔ option.repeats = true ∨
    ∃ found : Option String, valuesOf option.name given = found.toList ∧
      ∀ value ∈ found, option.accepts value = true := by
  simp only [fits, Bool.or_eq_true, ← single?_eq_some_iff]
  cases single? option.name given with
  | none => simp
  | some found => cases found <;> simp

theorem Known.fits_nil (option : Known) : option.fits [] = true :=
  fits_iff.mpr (.inr ⟨none, rfl, nofun⟩)

/-- An option fits whose value has been read by what says which values it takes. -/
theorem fits_of_valueOf? {α : Type} {read : String → Option α} {found : Option α} {letter : Option Char}
    (valued : valueOf? name read given = some found) :
    Known.fits { name, letter, accepts := fun value => (read value).isSome } given = true := by
  rw [Known.fits_iff]
  cases found with
  | none => exact .inr ⟨none, single?_eq_some_iff.mp ((valueOf?_eq_none_iff read).mp valued), nofun⟩
  | some a =>
    obtain ⟨value, once, held⟩ := valueOf?_eq_some_iff.mp valued
    refine .inr ⟨some value, single?_eq_some_iff.mp once, ?_⟩
    rintro _ ⟨⟩
    exact Option.isSome_of_eq_some held

/-- What fits a list fits a part of it. -/
theorem Known.fits_sublist (part : more.Sublist given) (fits : option.fits given = true) :
    option.fits more = true := by
  rw [fits_iff] at fits ⊢
  rcases fits with repeats | ⟨found, values, accepted⟩
  · exact .inl repeats
  · have kept : (valuesOf option.name more).Sublist found.toList := values ▸ part.filterMap _
    cases found with
    | none => exact .inr ⟨none, List.sublist_nil.mp kept, nofun⟩
    | some value =>
      rcases List.sublist_singleton.mp kept with nothing | same
      · exact .inr ⟨none, nothing, nofun⟩
      · exact .inr ⟨some value, same, accepted⟩

theorem Ahead.settled_sublist (ahead : Ahead) : ahead.settled.Sublist ahead.given := by
  unfold settled
  split
  · exact List.dropLast_sublist _
  · exact .refl _

/-! ### Asking at the end -/

/-- What is given where help is asked for after everything else. -/
def thenHelp (given : List Given) : List Given :=
  given ++ [(helpOption.name, "")]

theorem asksForHelp_thenHelp (given : List Given) : asksForHelp (thenHelp given) = true := by
  simp [asksForHelp, thenHelp]

theorem valuesOf_thenHelp (name : String) (given : List Given) :
    valuesOf name (thenHelp given) = valuesOf name given ++ if helpOption.name = name then [""] else [] := by
  simp only [valuesOf, thenHelp, List.filterMap_append]
  split <;> simp_all

theorem valuesOf_help (noHelp : asksForHelp given = false) : valuesOf helpOption.name given = [] := by
  simpa [valuesOf, asksForHelp] using noHelp

theorem fits_helpOption (noHelp : asksForHelp given = false) : helpOption.fits given = true :=
  Known.fits_iff.mpr (.inr ⟨none, valuesOf_help noHelp, nofun⟩)

/-- What fits still fits when help is asked for as well. -/
theorem Known.fits_thenHelp (noHelp : asksForHelp given = false)
    (flag : option.name = helpOption.name → option.accepts "" = true) (fits : option.fits given = true) :
    option.fits (thenHelp given) = true := by
  rw [fits_iff] at fits ⊢
  rw [valuesOf_thenHelp]
  by_cases help : option.name = helpOption.name
  · rw [help, valuesOf_help noHelp, if_pos rfl]
    refine .inr ⟨some "", rfl, ?_⟩
    rintro _ ⟨⟩
    exact flag help
  · rwa [if_neg (Ne.symm help), List.append_nil]

end

/-! ### Commands -/

def Command.name : Command → String
  | .verify _ => "verify"
  | .lookup _ _ => "lookup"
  | .rootHash _ => "root-hash"
  | .inspect _ _ => "inspect"
  | .initConfig _ => "init-config"

section

variable {name : String} {given : List Given} {others : List String} {command : Command} {own : List Known}

theorem fits_jsonOption {found : Bool} (flag : flag? "json" given = some found) :
    jsonOption.fits given = true := by
  rw [flag?, Option.map_eq_some_iff] at flag
  obtain ⟨found, once, _⟩ := flag
  exact Known.fits_iff.mpr (.inr ⟨found, single?_eq_some_iff.mp once, fun _ _ => rfl⟩)

/-- A source is made of files that can be named. -/
theorem fits_of_source? {source : Source} (read : source? given = some source)
    (mem : name ∈ ["certificate", "witness", "response"]) :
    Known.fits { name, accepts := fun value => (fileName? value).isSome } given = true := by
  simp only [source?, Option.bind_eq_bind, Option.bind_eq_some_iff] at read
  obtain ⟨certificate, first, witness, second, response, third, _⟩ := read
  simp only [List.mem_cons, List.not_mem_nil, or_false] at mem
  rcases mem with rfl | rfl | rfl
  · exact fits_of_valueOf? first
  · exact fits_of_valueOf? second
  · exact fits_of_valueOf? third

theorem VerifyOptions.GivenBy.fits {options : VerifyOptions} (h : options.GivenBy given)
    (known : optionsOf? "verify" = some own) : ∀ option ∈ own, option.fits given = true := by
  simp only [optionsOf?, Option.some.injEq] at known
  subst known
  simp only [List.forall_mem_cons, List.not_mem_nil, false_implies, implies_true, and_true]
  exact ⟨fits_of_source? h.source (by simp), fits_of_source? h.source (by simp),
    fits_of_source? h.source (by simp), fits_of_valueOf? h.canister,
    fits_of_valueOf? h.rootKey, fits_of_valueOf? h.maxOffset,
    fits_of_valueOf? h.now, fits_of_valueOf? h.key,
    fits_of_valueOf? h.expectPayload, fits_jsonOption h.json⟩

/-- Where a command is asked for, its name, its options and its other arguments are as they should be. -/
theorem fits_of_command? (known : optionsOf? name = some own) (meant : command? name given others = some command) :
    command.name = name ∧ (∀ option ∈ own, option.fits given = true) ∧
      fitPlaces (placesOf name) others = true := by
  unfold command? at meant
  split at meant
  · obtain ⟨options, read, rfl⟩ := Option.map_eq_some_iff.mp meant
    exact ⟨rfl, (verifyOptions?_eq_some_iff.mp read).fits known, rfl⟩
  · obtain ⟨witness, named, rfl⟩ := Option.map_eq_some_iff.mp meant
    cases known
    exact ⟨rfl, nofun, by simp [placesOf, fitPlaces, named]⟩
  · obtain ⟨witness, named, rfl⟩ := Option.map_eq_some_iff.mp meant
    cases known
    exact ⟨rfl, nofun, by simp [placesOf, fitPlaces, named]⟩
  · simp only [Option.bind_eq_bind, Option.bind_eq_some_iff] at meant
    obtain ⟨certificate, named, json, flag, made⟩ := meant
    cases known
    cases made
    exact ⟨rfl, List.forall_mem_singleton.mpr (fits_jsonOption flag), by simp [placesOf, fitPlaces, named]⟩
  · cases known
    cases meant
    exact ⟨rfl, nofun, rfl⟩
  · obtain ⟨output, named, rfl⟩ := Option.map_eq_some_iff.mp meant
    cases known
    exact ⟨rfl, nofun, by simp [placesOf, fitPlaces, named]⟩
  · cases meant

theorem fits_commonOptions {file : Option String} (config : valueOf? "config" fileName? given = some file)
    (help : helpOption.fits given = true) : ∀ option ∈ commonOptions, option.fits given = true := by
  simp only [commonOptions, List.forall_mem_cons, List.not_mem_nil, false_implies, implies_true, and_true]
  exact ⟨fits_of_valueOf? config, rfl, help⟩

end

/-! ### Other arguments after a command -/

section

variable {known : List Known} {name : String} {given : List Given}

theorem asksForHelp_cons (value : String) : asksForHelp ((name, value) :: given) = false ↔
    name ≠ helpOption.name ∧ asksForHelp given = false := by
  simp [asksForHelp]

theorem asksForHelp_append {more : List Given} : asksForHelp (given ++ more) = false ↔
    asksForHelp given = false ∧ asksForHelp more = false := by
  simp only [asksForHelp, List.any_append, Bool.or_eq_false_iff]

/-- Letters that end with an option whose value comes next do not ask for help. -/
theorem noHelp_of_letters? {letters : List Char}
    (apart : ∀ option ∈ known, option.takesValue = true → option.name ≠ helpOption.name)
    (read : letters? known letters = some (given, some name)) :
    asksForHelp given = false ∧ name ≠ helpOption.name := by
  induction letters generalizing given with
  | nil => cases read
  | cons letter rest ih =>
    simp only [letters?, Option.bind_eq_bind, Option.bind_eq_some_iff] at read
    obtain ⟨option, found, read⟩ := read
    split at read
    · rename_i takesValue
      split at read
      · cases read
        exact ⟨rfl, apart option (List.mem_of_find?_eq_some found) takesValue⟩
      · cases read
      · cases read
    · split at read
      · cases read
      · rename_i other
        simp only [Option.bind_eq_some_iff] at read
        obtain ⟨⟨more, pending⟩, rest, made⟩ := read
        cases made
        obtain ⟨noHelp, apart⟩ := ih rest
        exact ⟨by simpa [asksForHelp, other] using noHelp, apart⟩

/-- An option whose value comes next is not the wish for help and does not stand behind it. -/
theorem noHelp_of_pending {argument : String}
    (apart : ∀ option ∈ known, option.takesValue = true → option.name ≠ helpOption.name)
    (read : option? known argument = some (some (given, some name))) :
    asksForHelp given = false ∧ name ≠ helpOption.name := by
  unfold option? at read
  split at read
  · cases read
  · rename_i chars _
    simp only [longOption?, Option.bind_eq_bind, Option.map_eq_some_iff, Option.some.injEq, exists_eq_right,
      Option.bind_eq_some_iff] at read
    obtain ⟨option, found, read⟩ := read
    split at read <;> cases read
    rename_i takesValue _
    have named : option.name = (splitEquals chars).1 := by simpa using List.find?_some found
    exact ⟨rfl, named ▸ apart option (List.mem_of_find?_eq_some found) takesValue⟩
  · simp only [Option.map_eq_some_iff, Option.some.injEq, exists_eq_right] at read
    exact noHelp_of_letters? apart read
  · cases read

/-- The command stands in front of its arguments, with no wish for help ahead of it, and others can stand in
their place. -/
theorem exists_front {arguments rest : List String} {ahead : Ahead}
    (apart : ∀ option ∈ known, option.takesValue = true → option.name ≠ helpOption.name)
    (cut : splitCommand? known arguments = some ahead) (command : ahead.command = some (name, rest)) :
    asksForHelp ahead.given = false ∧ ∃ front, arguments = front ++ name :: rest ∧
      ∀ others, splitCommand? known (front ++ name :: others) =
        some { ahead with command := some (name, others) } := by
  -- by the arguments that are passed over: one at a time, or an option together with its value
  induction arguments using splitCommand?.induct generalizing ahead with
  | case1 => cases cut
  | case2 argument more ih ihValue =>
    rw [splitCommand?] at cut
    obtain ⟨read, first, next⟩ := Option.bind_eq_some_iff.mp cut
    split at next
    · cases next
      cases command
      exact ⟨rfl, [], rfl, fun others => by simp [splitCommand?, first]⟩
    · rename_i given
      split at next
      · cases next
        cases command
      · rename_i noHelp
        obtain ⟨last, after, made⟩ := Option.bind_eq_some_iff.mp next
        cases made
        obtain ⟨noMore, front, placed, others⟩ := ih after command
        refine ⟨asksForHelp_append.mpr ⟨eq_false_of_ne_true noHelp, noMore⟩, argument :: front,
          by rw [placed]; rfl, ?_⟩
        intro new
        simp [splitCommand?, first, noHelp, others]
    · rename_i given pending
      cases more with
      | nil => cases next
      | cons value more =>
        obtain ⟨noHelp, notHelp⟩ := noHelp_of_pending apart first
        simp only [Option.ite_none_right_eq_some] at next
        obtain ⟨mayBe, next⟩ := next
        obtain ⟨last, after, made⟩ := Option.bind_eq_some_iff.mp next
        cases made
        obtain ⟨noMore, front, placed, others⟩ := ihValue after command
        refine ⟨asksForHelp_append.mpr ⟨noHelp, (asksForHelp_cons value).mpr ⟨notHelp, noMore⟩⟩,
          argument :: value :: front, by rw [placed]; rfl, ?_⟩
        intro new
        simp [splitCommand?, first, mayBe, others]

/-- A flag that asks for help and nothing else. -/
def IsHelp (known : List Known) (flag : String) : Prop :=
  option? known flag = some (some ([(helpOption.name, "")], none))

/-- Where arguments can be read, so can they with help asked for after them, and what follows is not read. -/
theorem collect?_thenHelp {rest others : List String} {flag : String} (help : IsHelp known flag)
    (notDashes : flag ≠ "--") (plain : "--" ∉ rest) (noHelp : asksForHelp given = false)
    (collected : collect? known rest = some (given, others)) (more : List String) :
    collect? known (rest ++ flag :: more) = some (thenHelp given, others) := by
  -- two dashes would make a plain argument of the flag, and an earlier wish for help would end the reading
  induction rest using collect?.induct generalizing given others with
  | case1 =>
    cases collected
    rw [List.nil_append, collect?, if_neg notDashes, help]
    rfl
  | case2 rest => simp at plain
  | case3 argument rest notDashes ih ihValue =>
    rw [collect?, if_neg notDashes] at collected
    rw [List.cons_append, collect?, if_neg notDashes]
    obtain ⟨read, first, next⟩ := Option.bind_eq_some_iff.mp collected
    have plainRest : "--" ∉ rest := fun mem => plain (List.mem_cons_of_mem _ mem)
    split at next
    · obtain ⟨⟨given, others⟩, after, made⟩ := Option.bind_eq_some_iff.mp next
      cases made
      simp [first, ih plainRest noHelp after]
    · split at next
      · rename_i asked
        cases next
        exact absurd asked (ne_true_of_eq_false noHelp)
      · rename_i here notAsked
        obtain ⟨⟨given, others⟩, after, made⟩ := Option.bind_eq_some_iff.mp next
        cases made
        simp [first, notAsked, ih plainRest (asksForHelp_append.mp noHelp).2 after, thenHelp]
    · rename_i here pending
      cases rest with
      | nil => cases next
      | cons value rest =>
        simp only [Option.ite_none_right_eq_some] at next
        obtain ⟨mayBe, next⟩ := next
        obtain ⟨⟨given, others⟩, after, made⟩ := Option.bind_eq_some_iff.mp next
        cases made
        have noMore := ((asksForHelp_cons value).mp (asksForHelp_append.mp noHelp).2).2
        simp [first, mayBe, ihValue (fun mem => plainRest (List.mem_cons_of_mem _ mem)) noMore after, thenHelp]

/-! ### Wanting help -/

/-- The flags that ask for help and for nothing else. -/
def helpFlags : List String := ["--help", "-h"]

theorem accepts_of_help {own : List Known} (known : optionsOf? name = some own) :
    ∀ option ∈ own ++ commonOptions, option.name = helpOption.name → option.accepts "" = true := by
  unfold optionsOf? at known
  split at known
  all_goals cases known
  all_goals decide

theorem isHelp_of_mem {own : List Known} {flag : String} (known : optionsOf? name = some own)
    (mem : flag ∈ helpFlags) : IsHelp (own ++ commonOptions) flag := by
  simp only [helpFlags, List.mem_cons, List.not_mem_nil, or_false] at mem
  unfold optionsOf? at known
  split at known
  all_goals cases known
  all_goals rcases mem with rfl | rfl <;> rfl

theorem notDashes_of_mem {flag : String} (mem : flag ∈ helpFlags) : flag ≠ "--" := by
  rintro rfl
  exact absurd mem (by decide)

/-- Every command but the one that is called help has its options, and its name is no option itself. -/
theorem exists_optionsOf? (mem : name ∈ commandNames) (other : name ≠ helpCommand) :
    ∃ own, optionsOf? name = some own ∧ mayBeValue name = true := by
  simp only [commandNames, List.mem_cons, List.not_mem_nil, or_false] at mem
  rcases mem with rfl | rfl | rfl | rfl | rfl | help
  case inr.inr.inr.inr.inr => exact absurd help other
  all_goals exact ⟨_, rfl, rfl⟩

/-- Where help is asked for right after the name of a command, its arguments may be missing. -/
theorem helpPage_after {flag : String} (named : name ∈ commandNames) (other : name ≠ helpCommand)
    (mem : flag ∈ helpFlags) (more : List String) :
    HelpPage.ofArguments? (name :: flag :: more) = some (.command name) := by
  obtain ⟨own, known, plain⟩ := exists_optionsOf? named other
  have reads : Reads (name :: flag :: more) { given := [], late := false, command := some (name, flag :: more) }
      name (flag :: more) own (thenHelp []) [] :=
    { split := splitCommand?_of_mayBeValue plain _
      command := rfl
      known
      collected :=
        collect?_thenHelp (isHelp_of_mem known mem) (notDashes_of_mem mem) List.not_mem_nil rfl rfl more }
  refine reads.helpPage_eq_some_iff.mpr ⟨fun option _ => option.fits_nil, asksForHelp_thenHelp [], ?_, ?_, rfl⟩
  · intro option mem
    exact Known.fits_thenHelp rfl (accepts_of_help known option mem) option.fits_nil
  · cases placesOf name <;> rfl

/-- Whatever command is asked for, with help asked for after it the page of that command is. -/
theorem helpPage_of_asked {arguments : List String} {invocation : Invocation} {flag : String}
    (asked : Invocation.ofArguments? arguments = some invocation) (plain : "--" ∉ arguments)
    (mem : flag ∈ helpFlags) (more : List String) :
    HelpPage.ofArguments? (arguments ++ flag :: more) = some (.command invocation.command.name) := by
  obtain ⟨ahead, name, rest, own, given, others, first, second, reads, noHelp, before, after, meant⟩ :=
    exists_reads asked
  obtain ⟨noHelpAhead, front, placed, replaced⟩ := exists_front (by decide) reads.split reads.command
  obtain ⟨rfl, fits, fitPlaces⟩ := fits_of_command? reads.known meant
  have plainRest : "--" ∉ rest := by
    intro mem
    rw [placed] at plain
    exact plain (List.mem_append_right _ (List.mem_cons_of_mem _ mem))
  have withHelp : Reads (arguments ++ flag :: more)
      { ahead with command := some (invocation.command.name, rest ++ flag :: more) } invocation.command.name
      (rest ++ flag :: more) own (thenHelp given) others := by
    refine ⟨?_, rfl, reads.known, ?_⟩
    · rw [placed, List.append_assoc, List.cons_append]
      exact replaced _
    · exact collect?_thenHelp (isHelp_of_mem reads.known mem) (notDashes_of_mem mem) plainRest noHelp
        reads.collected more
  refine withHelp.helpPage_eq_some_iff.mpr ⟨?_, asksForHelp_thenHelp given, ?_, fitPlaces, rfl⟩
  · intro option mem
    exact Known.fits_sublist ahead.settled_sublist
      (fits_commonOptions before (fits_helpOption noHelpAhead) option mem)
  · intro option mem
    apply Known.fits_thenHelp noHelp (accepts_of_help reads.known option mem)
    rcases List.mem_append.mp mem with mem | mem
    · exact fits option mem
    · exact fits_commonOptions after (fits_helpOption noHelp) option mem

/-- Arguments that want a page of the help, as a user knows it: a flag ahead of everything, right after the name of
a command or behind its arguments, or the command that is called help. -/
inductive Wants : List String → HelpPage → Prop
  | first {flag : String} (mem : flag ∈ helpFlags) (more : List String) : Wants (flag :: more) .program
  | after {name flag : String} (named : name ∈ commandNames) (other : name ≠ helpCommand)
      (mem : flag ∈ helpFlags) (more : List String) : Wants (name :: flag :: more) (.command name)
  | behind {arguments : List String} {invocation : Invocation} {flag : String}
      (asked : Invocation.ofArguments? arguments = some invocation) (plain : "--" ∉ arguments)
      (mem : flag ∈ helpFlags) (more : List String) :
      Wants (arguments ++ flag :: more) (.command invocation.command.name)
  | program : Wants [helpCommand] .program
  | named {name : String} (mem : name ∈ commandNames) : Wants [helpCommand, name] (.command name)

theorem ofArguments?_helpCommand (names : List String) :
    HelpPage.ofArguments? (helpCommand :: names) = HelpPage.ofNames? names := by
  rw [HelpPage.ofArguments?, splitCommand?_of_mayBeValue (by decide)]
  rfl

theorem Wants.ofArguments?_eq {arguments : List String} {page : HelpPage} (wants : Wants arguments page) :
    HelpPage.ofArguments? arguments = some page := by
  cases wants with
  | first mem more =>
    have noOptions : optionsOf? "lookup" = some [] := rfl
    rw [HelpPage.ofArguments?, splitCommand?, show option? commonOptions _ = _ from isHelp_of_mem noOptions mem]
    rfl
  | after named other mem more => exact helpPage_after named other mem more
  | behind asked plain mem more => exact helpPage_of_asked asked plain mem more
  | program => exact ofArguments?_helpCommand []
  | named mem =>
    rw [ofArguments?_helpCommand, HelpPage.ofNames?, if_pos (List.contains_iff_mem.mpr mem)]

end

/-! ### Runs -/

/-- A run that prints a page of the help and does nothing else. -/
def Outcome.helping (page : String) : Outcome :=
  { exitCode := 0, stdout := page, stderr := "", written := none }

theorem run_of_help {s : Surroundings} {arguments : List String} {page : HelpPage}
    (asked : HelpPage.ofArguments? arguments = some page) : run s arguments = .helping (s.help page) := by
  simp only [run, ofArguments?_eq_none_of_help asked, asked]
  rfl

end Certified.CommandLine
