import Mathlib
import Certified.CommandLine.Run

/-!
What arguments mean. An option and its value written as one argument are given as they are, whatever the
value is; an option that was not given can be given in addition, and the others keep their values.
-/

namespace Certified.CommandLine

/-- An option with its value in one argument. -/
def written (name value : String) : String :=
  "--" ++ name ++ "=" ++ value

/-- The name and the value are told apart at the first equals sign. -/
theorem splitEquals_of_not_mem {name value : List Char} (plain : '=' ∉ name) :
    splitEquals (name ++ '=' :: value) = (String.ofList name, some (String.ofList value)) := by
  have passed : ∀ c ∈ name, (decide (c ≠ '=')) = true := by
    intro c mem
    exact decide_eq_true fun same => plain (same ▸ mem)
  simp only [splitEquals, List.takeWhile_append_of_pos passed, List.dropWhile_append_of_pos passed]
  simp

theorem option?_written {known : List Known} {option : Known} {name : String} (value : String)
    (plain : '=' ∉ name.toList) (found : known.find? (·.name = name) = some option)
    (takesValue : option.takesValue = true) :
    option? known (written name value) = some (some ([(name, value)], none)) := by
  have chars : (written name value).toList = '-' :: '-' :: (name.toList ++ '=' :: value.toList) := by
    simp [written]
  simp only [option?, chars, longOption?, splitEquals_of_not_mem plain, String.ofList_toList, found,
    Option.bind_eq_bind, Option.bind_some, takesValue, Option.map_some]

theorem written_ne_dashes (name value : String) : written name value ≠ "--" := by
  intro same
  have length := congrArg (fun text => text.toList.length) same
  simp [written] at length

/-- The name is that of an option with a value, and has no equals sign in it. -/
structure Valued (known : List Known) (name : String) : Prop where
  plain : '=' ∉ name.toList
  found : ∃ option, known.find? (·.name = name) = some option ∧ option.takesValue = true
  noHelp : name ≠ helpOption.name

/-- Options written with their values are given with them, whatever comes after them. -/
theorem collect?_written {known : List Known} {more : List Given}
    (valued : ∀ option ∈ more, Valued known option.1) (rest : List String) :
    collect? known (more.map (fun option => written option.1 option.2) ++ rest) =
      (collect? known rest).map fun (given, others) => (more ++ given, others) := by
  induction more with
  | nil => cases h : collect? known rest <;> simp [h]
  | cons option more ih =>
    obtain ⟨⟨plain, ⟨known, found, takesValue⟩, noHelp⟩, others⟩ := List.forall_mem_cons.mp valued
    have reads : asksForHelp [(option.1, option.2)] = false := by simp [asksForHelp, noHelp]
    rw [List.map_cons, List.cons_append, collect?, if_neg (written_ne_dashes option.1 option.2),
      option?_written option.2 plain found takesValue, ih others]
    simp only [Option.bind_eq_bind, Option.bind_some, reads]
    cases collect? _ rest <;> rfl

/-- What does not begin with a dash is no option, and a lone dash is none either. -/
theorem option?_of_mayBeValue {known : List Known} {argument : String} (plain : mayBeValue argument) :
    option? known argument = some none := by
  simp only [mayBeValue, Bool.or_eq_true, decide_eq_true_eq] at plain
  rcases plain with rfl | plain
  · rfl
  · rw [option?]
    cases chars : argument.toList with
    | nil => rfl
    | cons c rest =>
      rw [chars] at plain
      have other : c ≠ '-' := fun same => plain (congrArg some same)
      split <;> simp_all

theorem splitCommand?_of_mayBeValue {known : List Known} {command : String} (plain : mayBeValue command)
    (rest : List String) : splitCommand? known (command :: rest) =
      some { given := [], late := false, command := some (command, rest) } := by
  rw [splitCommand?, option?_of_mayBeValue plain]
  rfl

/-- Arguments that may be values are no options. -/
theorem collect?_of_mayBeValue {known : List Known} {others : List String}
    (plain : ∀ argument ∈ others, mayBeValue argument) : collect? known others = some ([], others) := by
  induction others with
  | nil => rfl
  | cons argument others ih =>
    obtain ⟨first, rest⟩ := List.forall_mem_cons.mp plain
    have notDashes : argument ≠ "--" := by
      rintro rfl
      exact absurd first (by decide)
    rw [collect?, if_neg notDashes, option?_of_mayBeValue first, ih rest]
    rfl

section

variable {name other value : String} {given : List Given} {found : Option String}

/-- All values with which an option is given. -/
def valuesOf (name : String) (given : List Given) : List String :=
  given.filterMap fun option => if option.1 = name then some option.2 else none

theorem single?_eq_some_iff : single? name given = some found ↔ valuesOf name given = found.toList := by
  unfold single?
  split
  · rename_i nothing
    rw [show valuesOf name given = [] from nothing]
    cases found <;> simp
  · rename_i value one
    rw [show valuesOf name given = [value] from one]
    cases found <;> simp
  · rename_i notNothing notOne
    constructor
    · nofun
    · intro values
      cases found with
      | none => exact absurd values notNothing
      | some value => exact absurd values (notOne value)

theorem single?_cons_of_ne (ne : other ≠ name) :
    single? name ((other, value) :: given) = single? name given := by
  simp [single?, ne]

/-- An option is given once if it was not given before. -/
theorem single?_cons_self : single? name ((name, value) :: given) = some found ↔
    single? name given = some none ∧ found = some value := by
  simp only [single?, List.filterMap_cons, if_true]
  cases List.filterMap _ given with
  | nil => simp [eq_comm]
  | cons first more => cases more <;> simp

variable {α : Type} {read : String → Option α}

theorem valueOf?_congr {others : List Given} (same : single? name given = single? name others) :
    valueOf? name read given = valueOf? name read others := by
  rw [valueOf?, valueOf?, same]

theorem valueOf?_eq_none_iff (read : String → Option α) :
    valueOf? name read given = some none ↔ single? name given = some none := by
  simp only [valueOf?, Option.bind_eq_bind]
  rcases single? name given with _ | _ | value <;> simp

theorem valueOf?_eq_some_iff {a : α} : valueOf? name read given = some (some a) ↔
    ∃ value, single? name given = some (some value) ∧ read value = some a := by
  simp only [valueOf?, Option.bind_eq_bind]
  rcases single? name given with _ | _ | value <;> simp

theorem source?_eq_blobs_iff {certificate witness : String} :
    source? given = some (.blobs certificate witness) ↔
      valueOf? "certificate" fileName? given = some (some certificate) ∧
        valueOf? "witness" fileName? given = some (some witness) ∧ single? "response" given = some none := by
  simp only [source?, Option.bind_eq_bind, Option.bind_eq_some_iff, ← valueOf?_eq_none_iff fileName?]
  constructor
  · rintro ⟨c, hc, w, hw, r, hr, h⟩
    split at h <;> cases h
    exact ⟨hc, hw, hr⟩
  · rintro ⟨hc, hw, hr⟩
    exact ⟨_, hc, _, hw, _, hr, rfl⟩

theorem source?_eq_response_iff {file : String} :
    source? given = some (.response file) ↔ single? "certificate" given = some none ∧
      single? "witness" given = some none ∧ valueOf? "response" fileName? given = some (some file) := by
  simp only [source?, Option.bind_eq_bind, Option.bind_eq_some_iff, ← valueOf?_eq_none_iff fileName?]
  constructor
  · rintro ⟨c, hc, w, hw, r, hr, h⟩
    split at h <;> cases h
    exact ⟨hc, hw, hr⟩
  · rintro ⟨hc, hw, hr⟩
    exact ⟨_, hc, _, hw, _, hr, rfl⟩

end

/-- The options given to `verify`, one by one. A payload is expected only under a key. -/
structure VerifyOptions.GivenBy (options : VerifyOptions) (given : List Given) : Prop where
  source : source? given = some options.source
  canister : valueOf? "canister-id" principal? given = some options.canister
  rootKey : valueOf? "root-key" anyText? given = some options.rootKey
  maxOffset : valueOf? "max-offset-ms" Text.Decimal.readUInt64? given = some options.maxOffset
  now : valueOf? "now-ms" Text.Decimal.readUInt64? given = some options.now
  key : valueOf? "key" anyText? given = some options.key
  expectPayload : valueOf? "expect-payload" anyText? given = some options.expectPayload
  json : flag? "json" given = some options.json
  underKey : options.expectPayload.isSome → options.key.isSome

theorem verifyOptions?_eq_some_iff {given : List Given} {options : VerifyOptions} :
    verifyOptions? given = some options ↔ options.GivenBy given := by
  unfold verifyOptions?
  simp only [Option.bind_eq_bind, Option.bind_eq_some_iff, Option.ite_none_left_eq_some, Option.some.injEq]
  constructor
  · rintro ⟨_, hs, _, hc, _, hr, _, hm, _, hn, _, hk, _, hp, _, hj, u, rfl⟩
    exact ⟨hs, hc, hr, hm, hn, hk, hp, hj, by simpa [Option.isSome_iff_ne_none] using u⟩
  · rintro ⟨hs, hc, hr, hm, hn, hk, hp, hj, u⟩
    exact ⟨_, hs, _, hc, _, hr, _, hm, _, hn, _, hk, _, hp, _, hj,
      by simpa [Option.isSome_iff_ne_none] using u, rfl⟩

/-- All options that may stand after `verify`. -/
def verifyKnown : List Known :=
  (optionsOf? "verify").getD [] ++ commonOptions

theorem command?_verify_eq_some_iff {given : List Given} {others : List String} {options : VerifyOptions} :
    command? "verify" given others = some (.verify options) ↔ others = [] ∧ options.GivenBy given := by
  rw [← verifyOptions?_eq_some_iff]
  cases others with
  | nil => simp [command?]
  | cons => simp [command?]

/-- The arguments after `verify` are options in any order, with no wish for help among them. -/
theorem ofArguments?_verify_eq_some_iff {rest : List String} {config : Option String} {verbose : Nat}
    {options : VerifyOptions} :
    Invocation.ofArguments? ("verify" :: rest) = some ⟨config, verbose, .verify options⟩ ↔
      ∃ given, collect? verifyKnown rest = some (given, []) ∧ asksForHelp given = false ∧
        valueOf? "config" fileName? given = some config ∧ timesGiven "verbose" given = verbose ∧
        options.GivenBy given := by
  have command : splitCommand? commonOptions ("verify" :: rest) =
      some { given := [], late := false, command := some ("verify", rest) } :=
    splitCommand?_of_mayBeValue (by decide) rest
  have known : optionsOf? "verify" = some ((optionsOf? "verify").getD []) := rfl
  have ahead : valueOf? "config" fileName? [] = some none := rfl
  have notMore (n : Nat) : (if n = 0 then timesGiven verboseOption.name [] else n) = n := by
    split
    · rename_i zero
      exact zero.symm
    · rfl
  rw [Invocation.ofArguments?, command]
  dsimp only [Option.bind_eq_bind, Option.bind_some]
  rw [known, ahead]
  simp only [Option.bind_some, Option.bind_eq_some_iff, Option.some.injEq, Invocation.mk.injEq,
    Option.or_none, Option.ite_none_left_eq_some, notMore, Bool.not_eq_true]
  constructor
  · rintro ⟨⟨given, others⟩, collected, noHelp, file, read, asked, h, rfl, rfl, rfl⟩
    obtain ⟨rfl, means⟩ := command?_verify_eq_some_iff.mp h
    exact ⟨given, collected, noHelp, read, rfl, means⟩
  · rintro ⟨given, collected, noHelp, read, rfl, means⟩
    exact ⟨(given, []), collected, noHelp, config, read, _, command?_verify_eq_some_iff.mpr ⟨rfl, means⟩,
      rfl, rfl, rfl⟩

/-! ### A response in one file or in parts -/

/-- The same options for the parts of a response: its certificate and its witness in files of their own, and
its payload to be expected if there is a key. -/
def VerifyOptions.inParts (options : VerifyOptions) (certificate witness payload : String) : VerifyOptions :=
  { options with
    source := .blobs certificate witness
    expectPayload := options.key.map fun _ => payload }

/-- The parts of a response as they are given. -/
def VerifyOptions.partsGiven (options : VerifyOptions) (certificate witness payload : String) : List Given :=
  [("certificate", certificate), ("witness", witness)] ++
    (options.key.map fun _ => ("expect-payload", payload)).toList

section

variable {options : VerifyOptions} {given : List Given} {response certificate witness payload : String}

theorem fileName?_of_ne (named : certificate ≠ "") : fileName? certificate = some certificate := by
  simp [fileName?, named]

/-- What is given with the parts of a response, name by name. -/
theorem VerifyOptions.single?_partsGiven (name : String) :
    single? name (options.partsGiven certificate witness payload ++ given) =
      single? name (("certificate", certificate) :: ("witness", witness) ::
        match options.key with
        | some _ => ("expect-payload", payload) :: given
        | none => given) := by
  rw [partsGiven]
  cases options.key <;> rfl

/-- Options that are not about the response are given as before. -/
theorem VerifyOptions.single?_partsGiven_of_other {name : String}
    (other : name ∉ ["response", "certificate", "witness", "expect-payload"]) :
    single? name (options.partsGiven certificate witness payload ++ given) =
      single? name (("response", response) :: given) := by
  simp only [List.mem_cons, List.not_mem_nil, or_false, not_or] at other
  obtain ⟨notResponse, notCertificate, notWitness, notPayload⟩ := other
  rw [single?_partsGiven, single?_cons_of_ne (Ne.symm notCertificate),
    single?_cons_of_ne (Ne.symm notWitness), single?_cons_of_ne (Ne.symm notResponse)]
  cases options.key with
  | none => rfl
  | some key => exact single?_cons_of_ne (Ne.symm notPayload)

/-- Where a response is given, it is given once and its parts are not. -/
theorem VerifyOptions.GivenBy.missing (h : options.GivenBy (("response", response) :: given)) :
    options.source = .response response ∧ single? "response" given = some none ∧
      single? "certificate" given = some none ∧ single? "witness" given = some none := by
  have source := h.source
  cases asked : options.source with
  | blobs c w =>
    rw [asked] at source
    obtain ⟨_, _, missing⟩ := source?_eq_blobs_iff.mp source
    exact nomatch (single?_cons_self.mp missing).2
  | response file =>
    rw [asked] at source
    obtain ⟨noCertificate, noWitness, held⟩ := source?_eq_response_iff.mp source
    rw [single?_cons_of_ne (by decide)] at noCertificate noWitness
    obtain ⟨value, once, named⟩ := valueOf?_eq_some_iff.mp held
    obtain ⟨noOther, same⟩ := single?_cons_self.mp once
    cases same
    rw [fileName?, Option.ite_none_left_eq_some] at named
    exact ⟨congrArg Source.response (Option.some.inj named.2).symm, noOther, noCertificate, noWitness⟩

theorem VerifyOptions.GivenBy.source?_partsGiven (h : options.GivenBy (("response", response) :: given))
    (certificateNamed : certificate ≠ "") (witnessNamed : witness ≠ "") :
    source? (options.partsGiven certificate witness payload ++ given) =
      some (.blobs certificate witness) := by
  obtain ⟨_, noResponse, noCertificate, noWitness⟩ := h.missing
  have payloadApart {name : String} (other : "expect-payload" ≠ name) :
      single? name (match options.key with
        | some _ => ("expect-payload", payload) :: given
        | none => given) = single? name given := by
    cases options.key with
    | none => rfl
    | some key => exact single?_cons_of_ne other
  refine source?_eq_blobs_iff.mpr
    ⟨valueOf?_eq_some_iff.mpr ⟨certificate, ?_, fileName?_of_ne certificateNamed⟩,
    valueOf?_eq_some_iff.mpr ⟨witness, ?_, fileName?_of_ne witnessNamed⟩, ?_⟩
  · rw [single?_partsGiven, single?_cons_self, single?_cons_of_ne (by decide), payloadApart (by decide)]
    exact ⟨noCertificate, rfl⟩
  · rw [single?_partsGiven, single?_cons_of_ne (by decide), single?_cons_self, payloadApart (by decide)]
    exact ⟨noWitness, rfl⟩
  · rw [single?_partsGiven, single?_cons_of_ne (by decide), single?_cons_of_ne (by decide),
      payloadApart (by decide)]
    exact noResponse

/-- Options that ask for a response ask for its parts once these are given in its place. -/
theorem VerifyOptions.GivenBy.inParts (h : options.GivenBy (("response", response) :: given))
    (notAsked : options.expectPayload = none) (certificateNamed : certificate ≠ "")
    (witnessNamed : witness ≠ "") (payload : String) :
    (options.inParts certificate witness payload).GivenBy
      (options.partsGiven certificate witness payload ++ given) := by
  have kept {name : String} (other : name ∉ ["response", "certificate", "witness", "expect-payload"]) :
      single? name (options.partsGiven certificate witness payload ++ given) =
        single? name (("response", response) :: given) :=
    single?_partsGiven_of_other other
  refine
    { source := h.source?_partsGiven certificateNamed witnessNamed
      canister := (valueOf?_congr (kept (by decide))).trans h.canister
      rootKey := (valueOf?_congr (kept (by decide))).trans h.rootKey
      maxOffset := (valueOf?_congr (kept (by decide))).trans h.maxOffset
      now := (valueOf?_congr (kept (by decide))).trans h.now
      key := (valueOf?_congr (kept (by decide))).trans h.key
      expectPayload := ?_
      json := (congrArg (Option.map Option.isSome) (kept (by decide))).trans h.json
      underKey := by simp [VerifyOptions.inParts] }
  have noPayload : single? "expect-payload" given = some none := by
    have before := h.expectPayload
    rwa [notAsked, valueOf?_eq_none_iff, single?_cons_of_ne (by decide)] at before
  cases key : options.key with
  | none =>
    rw [VerifyOptions.inParts, key, Option.map_none, valueOf?_eq_none_iff, single?_partsGiven, key,
      single?_cons_of_ne (by decide), single?_cons_of_ne (by decide)]
    exact noPayload
  | some key =>
    rw [VerifyOptions.inParts, key, Option.map_some, valueOf?_eq_some_iff]
    refine ⟨payload, ?_, rfl⟩
    rw [single?_partsGiven, key, single?_cons_of_ne (by decide), single?_cons_of_ne (by decide)]
    exact single?_cons_self.mpr ⟨noPayload, rfl⟩

end

theorem valued_verifyKnown {name : String}
    (mem : name ∈ ["response", "certificate", "witness", "expect-payload"]) : Valued verifyKnown name := by
  simp only [List.mem_cons, List.not_mem_nil, or_false] at mem
  rcases mem with rfl | rfl | rfl | rfl
  all_goals exact ⟨by decide, ⟨_, rfl, rfl⟩, by decide⟩

/-- Neither the response nor its parts ask for help or for more to be logged. -/
theorem VerifyOptions.common_partsGiven (options : VerifyOptions)
    (response certificate witness payload : String) (given : List Given) :
    asksForHelp (options.partsGiven certificate witness payload ++ given) =
        asksForHelp (("response", response) :: given) ∧
      timesGiven "verbose" (options.partsGiven certificate witness payload ++ given) =
        timesGiven "verbose" (("response", response) :: given) := by
  unfold partsGiven asksForHelp timesGiven
  cases options.key <;> simp [helpOption]

theorem VerifyOptions.valued_partsGiven (options : VerifyOptions) (certificate witness payload : String) :
    ∀ option ∈ options.partsGiven certificate witness payload, Valued verifyKnown option.1 := by
  intro option mem
  apply valued_verifyKnown
  simp only [partsGiven, List.mem_append, List.mem_cons, List.not_mem_nil, or_false, Option.mem_toList,
    Option.map_eq_some_iff] at mem
  rcases mem with (rfl | rfl) | ⟨_, _, rfl⟩ <;> simp

/-- The arguments that ask for the parts of a response. -/
def VerifyOptions.partsArguments (options : VerifyOptions) (certificate witness payload : String) :
    List String :=
  (options.partsGiven certificate witness payload).map fun option => written option.1 option.2

section

variable {rest : List String} {config : Option String} {verbose : Nat} {options : VerifyOptions}
  {response : String}

/-- Where the response is the first argument, it is the first option given. -/
theorem exists_given_of_response
    (asked : Invocation.ofArguments? ("verify" :: written "response" response :: rest) =
      some ⟨config, verbose, .verify options⟩) :
    ∃ given, collect? verifyKnown rest = some (given, []) ∧
      asksForHelp (("response", response) :: given) = false ∧
      valueOf? "config" fileName? (("response", response) :: given) = some config ∧
      timesGiven "verbose" (("response", response) :: given) = verbose ∧
      options.GivenBy (("response", response) :: given) := by
  obtain ⟨given, collected, noHelp, file, more, means⟩ := ofArguments?_verify_eq_some_iff.mp asked
  have valued : ∀ option ∈ [("response", response)], Valued verifyKnown option.1 :=
    List.forall_mem_singleton.mpr (valued_verifyKnown List.mem_cons_self)
  have first := collect?_written valued rest
  rw [List.map_singleton, List.singleton_append, collected, eq_comm, Option.map_eq_some_iff] at first
  obtain ⟨⟨given, others⟩, collected, same⟩ := first
  cases same
  exact ⟨given, collected, noHelp, file, more, means⟩

theorem source_of_response
    (asked : Invocation.ofArguments? ("verify" :: written "response" response :: rest) =
      some ⟨config, verbose, .verify options⟩) : options.source = .response response := by
  obtain ⟨given, _, _, _, _, means⟩ := exists_given_of_response asked
  exact means.missing.1

/-- The arguments for the parts, put in the place of the one for the response, ask for the same with the
parts of the response. -/
theorem ofArguments?_parts {certificate witness : String}
    (asked : Invocation.ofArguments? ("verify" :: written "response" response :: rest) =
      some ⟨config, verbose, .verify options⟩)
    (notAsked : options.expectPayload = none) (certificateNamed : certificate ≠ "")
    (witnessNamed : witness ≠ "") (payload : String) :
    Invocation.ofArguments? ("verify" :: (options.partsArguments certificate witness payload ++ rest)) =
      some ⟨config, verbose, .verify (options.inParts certificate witness payload)⟩ := by
  obtain ⟨given, collected, noHelp, file, more, means⟩ := exists_given_of_response asked
  obtain ⟨sameHelp, sameMore⟩ := options.common_partsGiven response certificate witness payload given
  refine ofArguments?_verify_eq_some_iff.mpr ⟨options.partsGiven certificate witness payload ++ given, ?_,
    sameHelp.trans noHelp, ?_, sameMore.trans more, ?_⟩
  · rw [VerifyOptions.partsArguments,
      collect?_written (options.valued_partsGiven certificate witness payload), collected, Option.map_some]
  · exact (valueOf?_congr (VerifyOptions.single?_partsGiven_of_other (by decide))).trans file
  · exact means.inParts notAsked certificateNamed witnessNamed payload

end

/-- Where a command is asked for, exit code 0 is that of success alone. -/
theorem exitCode_run_eq_zero_iff {s : Surroundings} {arguments : List String} {invocation : Invocation}
    (asked : Invocation.ofArguments? arguments = some invocation) :
    (run s arguments).exitCode = 0 ↔ ∃ success, (invocation.run s).result = .ok success := by
  simp only [run, asked]
  cases (invocation.run s).result <;> simp

end Certified.CommandLine
