import Mathlib
import Certified.Proofs.CommandLine.Arguments
import Certified.Proofs.CommandLine.Requests
import Certified.Proofs.Verification.Log

/-!
What a run logs. The log changes no answer, and how much is asked to be logged changes nothing but the log: what is
logged with less is logged with more. That something was verified is logged exactly where it was.
-/

namespace Certified

theorem SignatureScheme.quiet_notices (scheme : SignatureScheme) :
    ∀ event ∈ scheme.notices, event.level ≠ .info := by
  cases scheme with
  | ed25519 => nofun
  | none => exact List.forall_mem_singleton.mpr (by nofun)

/-! ### Requests -/

namespace Request

variable {request : Request} {config : Config} {given : Option UInt64} {clock : Int64}

theorem result_timeLogged : (timeLogged given clock).result = .ok (given.getD (clockMillis clock)) := by
  cases given <;> rfl

/-- The log changes no answer. -/
theorem result_verifyLogged (request : Request) (config : Config) (given : Option UInt64) (clock : Int64) :
    (request.verifyLogged config given clock).result =
      request.verify config (given.getD (clockMillis clock)) := by
  simp only [verifyLogged, Logged.result_bind, Logged.result_silent, result_timeLogged, ok_bind,
    Logged.result_note, Logged.result_mapError, Certified.result_verifyLogged, Logged.result_pure]
  unfold verify checkExpectedLogged
  cases request.expected <;> rfl

/-- All that is logged about a request that is accepted. -/
theorem Backed.log_verifyLogged (given : Option UInt64) (clock : Int64) {canister : Principal}
    {policy : Policy} {c : Certificate} {time : UInt64} {witness : HashTree}
    (backed : request.Backed config (given.getD (clockMillis clock)) canister policy c time witness) :
    ∃ key, SigningKey policy canister c key ∧
      (request.verifyLogged config given clock).log =
        (timeLogged given clock).log ++ .verifying canister (given.getD (clockMillis clock)) ::
          (c.signatureLog config.scheme.notices key ++
            [.timely (time / 1000000) policy.maxOffset (given.getD (clockMillis clock)), .witness canister,
              .verified canister]) := by
  obtain ⟨found, made⟩ := resolves_iff.mp backed.resolved
  obtain ⟨key, nanos, signing, read, logged⟩ := backed.accepted.log_verifyLogged config.scheme.notices
  obtain rfl : time = nanos := Except.ok.inj (backed.time.symm.trans read)
  refine ⟨key, signing, ?_⟩
  have decoded : Certificate.decode request.certificate = .ok c := backed.accepted.decoded
  have verified : ((Certified.verifyLogged policy config.scheme.notices (request.evidence canister)
      (given.getD (clockMillis clock))).mapError CommandError.verification).result = .ok witness := by
    rw [Logged.result_mapError, Certified.result_verifyLogged, mapError_eq_ok_iff]
    exact Certified.verify_eq_ok_iff.mpr ⟨c, backed.accepted⟩
  have payload : request.checkExpectedLogged witness = pure () := by
    unfold checkExpectedLogged
    cases asked : request.expected with
    | none => rfl
    | some expected =>
      have shown := backed.expected expected (Option.mem_def.mpr asked)
      simp only [HashTree.checkPayloadLogged, HashTree.checkPayload_eq_ok_iff.mpr shown, shown]
      rfl
  simp only [verifyLogged, found, made, Logged.silent_ok_bind, Logged.log_bind_of_ok result_timeLogged,
    Logged.log_bind_of_ok (Logged.result_note _), Logged.log_note, Logged.log_bind_of_ok verified, payload,
    Logged.log_mapError, logged, decoded, backed.time, mapError_ok, List.append_assoc]
  rfl

theorem quiet_timeLogged : (timeLogged given clock).Quiet := by
  unfold timeLogged
  split
  · exact Logged.quiet_silent _
  · intro event mem
    split at mem
    · rw [List.mem_singleton.mp mem]
      nofun
    · cases mem

theorem quiet_checkExpectedLogged (witness : HashTree) : (request.checkExpectedLogged witness).Quiet := by
  unfold checkExpectedLogged
  split
  · exact (witness.quiet_checkPayloadLogged _).mapError _
  · exact Logged.quiet_silent _

/-- The only event at the level of an answer says of a canister that its data was verified, and it is logged
exactly where there is a report on that canister. -/
theorem mem_log_verifyLogged_iff {event : LogEvent} (answer : event.level = .info) :
    event ∈ (request.verifyLogged config given clock).log ↔ ∃ report,
      request.verify config (given.getD (clockMillis clock)) = .ok report ∧
        event = .verified report.canister := by
  constructor
  · intro mem
    obtain ⟨canister, found, mem⟩ := (Logged.quiet_silent _).exists_of_mem_bind answer mem
    obtain ⟨policy, made, mem⟩ := (Logged.quiet_silent _).exists_of_mem_bind answer mem
    obtain ⟨now, time, mem⟩ := quiet_timeLogged.exists_of_mem_bind answer mem
    obtain ⟨_, _, mem⟩ := (Logged.quiet_note (by nofun)).exists_of_mem_bind answer mem
    obtain ⟨witness, verified, mem⟩ := ((quiet_verifyLogged
      (SignatureScheme.quiet_notices config.scheme) _ _ _).mapError _).exists_of_mem_bind answer mem
    obtain ⟨_, payload, mem⟩ := (quiet_checkExpectedLogged witness).exists_of_mem_bind answer mem
    obtain ⟨c, decoded, mem⟩ := (Logged.quiet_silent _).exists_of_mem_bind answer mem
    obtain ⟨nanos, read, mem⟩ := (Logged.quiet_silent _).exists_of_mem_bind answer mem
    refine ⟨request.reportOf config canister c nanos witness, ?_, List.mem_singleton.mp mem⟩
    rw [← result_verifyLogged]
    simp only [verifyLogged, Logged.result_bind, found, made, time, verified, payload, decoded, read,
      Logged.result_note, ok_bind, Logged.result_pure]
  · rintro ⟨report, reported, rfl⟩
    obtain ⟨canister, policy, c, time, witness, backed, rfl⟩ := verify_eq_ok_iff.mp reported
    obtain ⟨key, _, logged⟩ := backed.log_verifyLogged given clock
    rw [logged]
    simp [reportOf]

/-- Whoever gets a report on a signature that was not checked has been warned. -/
theorem unchecked_mem_log {report : VerificationReport}
    (reported : request.verify config (given.getD (clockMillis clock)) = .ok report)
    (unchecked : report.signatureChecked = false) :
    .unchecked ∈ (request.verifyLogged config given clock).log := by
  obtain ⟨canister, policy, c, time, witness, backed, rfl⟩ := verify_eq_ok_iff.mp reported
  obtain ⟨key, _, logged⟩ := backed.log_verifyLogged given clock
  have scheme : config.scheme = .none := by simpa [reportOf] using unchecked
  rw [logged, scheme, Certificate.signatureLog]
  split <;> simp [SignatureScheme.notices]

end Request

namespace CommandLine

/-! ### What is asked -/

/-- What is to be verified as the options and the files say, under which configuration. -/
structure Asks (s : Surroundings) (file : Option String) (options : VerifyOptions) (config : Config)
    (request : Request) : Prop where
  loaded : loadConfig s file = .ok config
  source : ∃ own, readSource s options.source = .ok (request.certificate, request.witness, own) ∧
    expectedPayload options own = .ok request.expected
  rootKey : givenRootKey options = .ok request.rootKey
  canister : request.canister = options.canister
  maxOffset : request.maxOffset = options.maxOffset

section

variable {s : Surroundings} {file : Option String} {options : VerifyOptions} {config : Config}
  {request : Request}

/-- Once it is read what is asked, it is verified and the report is printed. -/
theorem Asks.runVerify_eq (asks : Asks s file options config request) :
    runVerify s file options =
      (request.verifyLogged config options.now s.now).mapError .ofCommand >>= fun report =>
        pure (printed (reportText options report)) := by
  obtain ⟨loaded, ⟨own, source, expected⟩, rootKey, canister, maxOffset⟩ := asks
  obtain ⟨certificate, witness, _, _, _, _⟩ := request
  cases canister
  cases maxOffset
  simp only [runVerify, loaded, mapError_ok, Logged.silent_ok_bind, source, expected, rootKey]

/-- Where nothing is asked that could be read, nothing is logged. -/
theorem asks_or_silent (s : Surroundings) (file : Option String) (options : VerifyOptions) :
    (∃ config request, Asks s file options config request) ∨
      ∃ failure, runVerify s file options = .silent (.error failure) := by
  cases loaded : loadConfig s file with
  | error e => exact .inr ⟨.ofConfig e, by simp [runVerify, loaded]⟩
  | ok config =>
    cases source : readSource s options.source with
    | error failure => exact .inr ⟨failure, by simp [runVerify, loaded, source]⟩
    | ok parts =>
      obtain ⟨certificate, witness, own⟩ := parts
      cases expected : expectedPayload options own with
      | error failure => exact .inr ⟨failure, by simp [runVerify, loaded, source, expected]⟩
      | ok payload =>
        cases key : givenRootKey options with
        | error failure => exact .inr ⟨failure, by simp [runVerify, loaded, source, expected, key]⟩
        | ok rootKey =>
          let request : Request := {
            certificate, witness, rootKey
            expected := payload
            canister := options.canister
            maxOffset := options.maxOffset }
          exact .inl ⟨config, request, loaded, ⟨own, source, expected⟩, key, rfl, rfl⟩

theorem result_runVerify_eq_ok_iff {success : Success} :
    (runVerify s file options).result = .ok success ↔ ∃ config request report,
      Asks s file options config request ∧
        request.verify config (options.now.getD (clockMillis s.now)) = .ok report ∧
        success = printed (reportText options report) := by
  constructor
  · intro answered
    rcases asks_or_silent s file options with ⟨config, request, asks⟩ | ⟨failure, silent⟩
    · rw [asks.runVerify_eq, Logged.result_bind, Logged.result_mapError, Request.result_verifyLogged] at answered
      obtain ⟨report, verified, made⟩ := bind_eq_ok_iff.mp answered
      exact ⟨config, request, report, asks, mapError_eq_ok_iff.mp verified, (Except.ok.inj made).symm⟩
    · rw [silent] at answered
      cases answered
  · rintro ⟨config, request, report, asks, verified, rfl⟩
    rw [asks.runVerify_eq, Logged.result_bind, Logged.result_mapError, Request.result_verifyLogged, verified]
    rfl

theorem Asks.log_runVerify (asks : Asks s file options config request) :
    (runVerify s file options).log = (request.verifyLogged config options.now s.now).log := by
  rw [asks.runVerify_eq, Logged.log_bind_pure, Logged.log_mapError]

end

/-! ### More or less of the log -/

section

variable {s : Surroundings} {arguments : List String} {invocation : Invocation}

theorem rank_levelFor (verbose : Nat) : (levelFor verbose).rank = 2 + min verbose 2 := by
  rcases verbose with _ | _ | n
  · rfl
  · rfl
  · exact congrArg (2 + ·) (Nat.min_eq_right (Nat.le_add_left 2 n)).symm

/-- What is logged with less is logged with more. -/
theorem Surroundings.shows_mono {m n : Nat} (le : m ≤ n) {event : LogEvent} (shown : s.shows m event = true) :
    s.shows n event = true := by
  unfold Surroundings.shows at shown ⊢
  split at shown
  · exact shown
  · have bound := of_decide_eq_true shown
    rw [rank_levelFor] at bound
    rw [decide_eq_true_eq, rank_levelFor]
    omega

theorem log_run (asked : Invocation.ofArguments? arguments = some invocation) :
    (run s arguments).log = (invocation.run s).log.filter (s.shows invocation.verbose) := by
  simp only [run, asked]
  split <;> rfl

/-- How much is asked to be logged changes nothing but the log, and more of it keeps what there was. -/
theorem run_more_verbose {more : List String} {config : Option String} {m n : Nat} {command : Command}
    (asked : Invocation.ofArguments? arguments = some ⟨config, m, command⟩)
    (askedMore : Invocation.ofArguments? more = some ⟨config, n, command⟩) (le : m ≤ n) :
    run s more = { run s arguments with log := (run s more).log } ∧
      (run s arguments).log.Sublist (run s more).log := by
  have same : Invocation.run s ⟨config, m, command⟩ = Invocation.run s ⟨config, n, command⟩ := rfl
  refine ⟨?_, ?_⟩
  · simp only [run, asked, askedMore, same]
    split <;> rfl
  · rw [log_run asked, log_run askedMore, same]
    exact List.monotone_filter_right _ fun event => Surroundings.shows_mono le

/-! ### Runs of `verify` -/

/-- Where the environment does not say otherwise, a run of `verify` that ends well logs for which canister it has
verified the data, and one that fails does not. -/
theorem verified_mem_log_run_iff {file : Option String} {verbose : Nat} {options : VerifyOptions}
    (asked : Invocation.ofArguments? arguments = some ⟨file, verbose, .verify options⟩)
    (unfiltered : s.logFilter = none) :
    (∃ canister, .verified canister ∈ (run s arguments).log) ↔ (run s arguments).exitCode = 0 := by
  have shown (canister : Principal) : s.shows verbose (.verified canister) = true := by
    apply Surroundings.shows_mono (Nat.zero_le verbose)
    rw [Surroundings.shows, unfiltered]
    rfl
  rw [exitCode_run_eq_zero_iff asked, log_run asked]
  simp only [List.mem_filter, shown, and_true]
  change (∃ canister, .verified canister ∈ (runVerify s file options).log) ↔
    ∃ success, (runVerify s file options).result = .ok success
  constructor
  · rintro ⟨canister, mem⟩
    rcases asks_or_silent s file options with ⟨config, request, asks⟩ | ⟨failure, silent⟩
    · rw [asks.log_runVerify] at mem
      obtain ⟨report, verified, _⟩ := (Request.mem_log_verifyLogged_iff rfl).mp mem
      exact ⟨_, result_runVerify_eq_ok_iff.mpr ⟨config, request, report, asks, verified, rfl⟩⟩
    · rw [silent] at mem
      cases mem
  · rintro ⟨success, answered⟩
    obtain ⟨config, request, report, asks, verified, _⟩ := result_runVerify_eq_ok_iff.mp answered
    rw [asks.log_runVerify]
    exact ⟨report.canister, (Request.mem_log_verifyLogged_iff rfl).mpr ⟨report, verified, rfl⟩⟩

end

end CommandLine

end Certified
