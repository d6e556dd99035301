import TransferLoad.Proofs.Run.Dispatch
import TransferLoad.Proofs.Settings.InOrder

/-!
# Runs that do not start

There are four reasons for which a run has no report: its settings cannot be run, it has no senders, it has
no recipients, or its artifact cannot be created. All of them show before anything is drawn, signed or
submitted. What the client, the signer or the artifact do afterwards is counted and never takes the report
away.
-/

namespace TransferLoad

/-- The output could not be opened at its path, or it did not take what was written first. -/
def Failure.OfOutput (path : String) (cause : Failure) : Prop :=
  (∃ reason, cause = .output path reason) ∨ ∃ reason, cause = .io reason

theorem ArtifactFile.ofOutput_of_create {files files' : FileTree} {path : String} {header : RunHeader}
    {cause : Failure} (hcreate : ArtifactFile.create files path header = (.error cause, files')) :
    cause.OfOutput path := by
  unfold ArtifactFile.create at hcreate
  split at hcreate
  · cases hcreate
    exact Or.inl ⟨_, rfl⟩
  · dsimp only at hcreate
    split at hcreate
    · cases hcreate
    · cases hcreate
      exact Or.inr ⟨_, rfl⟩

namespace RunInput

variable {r : RunInput} {cause : Failure} {files : FileTree}

/-- A run fails exactly with the obstacle that it meets. -/
theorem result_eq_error_iff : r.run.result = .error cause ↔ ∃ files, r.Obstacle cause files := by
  constructor
  · intro hresult
    rcases r.obstacle_or_start with
      ⟨cause', files, hobstacle⟩ | ⟨-, artifact, files, hsenders, hrecipients, -, hrun⟩
    · rw [run_of_obstacle hobstacle] at hresult
      cases hresult
      exact ⟨files, hobstacle⟩
    · rw [hrun] at hresult
      cases hresult
  · rintro ⟨files, hobstacle⟩
    rw [run_of_obstacle hobstacle]
    rfl

/-- Obstacles do not depend on the client, the signer, the time of a cancellation or the fresh seed. -/
theorem Obstacle.elsewhere (hobstacle : r.Obstacle cause files) (client : Client) (signer : Signer)
    (cancelAt : Option Nat) (freshSeed : UInt64) :
    ({ r with client, signer, cancelAt, freshSeed } : RunInput).Obstacle cause files := by
  cases hobstacle with
  | settings hinvalid => exact .settings hinvalid
  | senders hvalid hnone => exact .senders hvalid hnone
  | recipients hvalid hsenders hnone => exact .recipients hvalid hsenders hnone
  | artifact hvalid hsenders hrecipients hcreate => exact .artifact hvalid hsenders hrecipients hcreate

theorem Obstacle.files_eq {detail : String} (hobstacle : r.Obstacle (.invalidConfig detail) files) :
    files = r.files := by
  cases hobstacle with
  | artifact hvalid hsenders hrecipients hcreate =>
    rcases ArtifactFile.ofOutput_of_create hcreate with ⟨reason, hcause⟩ | ⟨reason, hcause⟩
    · cases hcause
    · cases hcause
  | _ => rfl

/-- With settings in order and accounts of both kinds, only the output can fail. -/
theorem Obstacle.ofOutput (hobstacle : r.Obstacle cause files) (horder : r.settings.InOrder)
    (hsenders : 0 < r.senders.length) (hrecipients : 0 < r.recipients.length) :
    cause.OfOutput r.settings.output := by
  cases hobstacle with
  | settings hinvalid =>
    rw [RunSettings.validate_eq_ok_iff.mpr horder] at hinvalid
    cases hinvalid
  | senders hvalid hnone => exact absurd hsenders hnone
  | recipients hvalid _ hnone => exact absurd hrecipients hnone
  | artifact hvalid _ _ hcreate => exact ArtifactFile.ofOutput_of_create hcreate

theorem exists_obstacle_iff : (∃ cause files, r.Obstacle cause files) ↔
    (∃ cause, r.settings.validate = .error cause) ∨ r.senders = [] ∨ r.recipients = [] ∨
      ∃ cause, (ArtifactFile.create r.files r.settings.output r.header).1 = .error cause := by
  constructor
  · rintro ⟨cause, files, hobstacle⟩
    cases hobstacle with
    | settings hinvalid => exact Or.inl ⟨_, hinvalid⟩
    | senders hvalid hnone => exact Or.inr (Or.inl (by simpa using hnone))
    | recipients hvalid hsenders hnone => exact Or.inr (Or.inr (Or.inl (by simpa using hnone)))
    | artifact hvalid hsenders hrecipients hcreate =>
      exact Or.inr (Or.inr (Or.inr ⟨cause, congrArg Prod.fst hcreate⟩))
  · intro hfails
    rcases r.obstacle_or_start with hobstacle |
      ⟨hvalid, artifact, files, hsenders, hrecipients, hcreate, -⟩
    · exact hobstacle
    · rw [hvalid, hcreate] at hfails
      rcases hfails with ⟨cause, hcause⟩ | hnone | hnone | ⟨cause, hcause⟩
      · cases hcause
      · simp [hnone] at hsenders
      · simp [hnone] at hrecipients
      · cases hcause

/-- A run has no report exactly if its settings are invalid, an account pool is empty or the artifact cannot
be created, whatever the client, the signer and a cancellation would have done later. Then no counter has
moved, nothing was signed and nothing was asked; for an invalid configuration no file was touched either.
Settings that were finalized, with as many accounts as they name, leave only the output to fail. -/
theorem no_report_iff (r : RunInput) :
    ((∃ cause, r.run.result = .error cause) ↔
      (∃ cause, r.settings.validate = .error cause) ∨ r.senders = [] ∨ r.recipients = [] ∨
        ∃ cause, (ArtifactFile.create r.files r.settings.output r.header).1 = .error cause) ∧
    (∀ client signer cancelAt freshSeed cause,
      ({ r with client, signer, cancelAt, freshSeed } : RunInput).run.result = .error cause ↔
        r.run.result = .error cause) ∧
    (∀ cause, r.run.result = .error cause →
      r.run.senders = r.senders ∧ r.run.calls = [] ∧ r.run.attempts = [] ∧
        ∀ detail, cause = .invalidConfig detail → r.run.files = r.files) ∧
    (∀ s fit : Settings, s.finalize = .ok fit → r.settings = fit.run →
      r.senders.length = fit.accounts.senders.toNat → r.recipients.length = fit.accounts.recipients.toNat →
      ∀ cause, r.run.result = .error cause → cause.OfOutput r.settings.output) := by
  refine ⟨?_, fun client signer cancelAt freshSeed cause => ?_, fun cause hresult => ?_, ?_⟩
  · rw [← exists_obstacle_iff]
    exact exists_congr fun cause => result_eq_error_iff
  · rw [result_eq_error_iff, result_eq_error_iff]
    constructor
    · rintro ⟨files, hobstacle⟩
      exact ⟨files, hobstacle.elsewhere r.client r.signer r.cancelAt r.freshSeed⟩
    · rintro ⟨files, hobstacle⟩
      exact ⟨files, hobstacle.elsewhere client signer cancelAt freshSeed⟩
  · obtain ⟨files, hobstacle⟩ := result_eq_error_iff.mp hresult
    rw [run_of_obstacle hobstacle]
    refine ⟨rfl, rfl, rfl, ?_⟩
    rintro detail rfl
    exact hobstacle.files_eq
  · intro s fit hfit hsettings hsenders hrecipients cause hresult
    obtain ⟨-, horder⟩ := Settings.finalize_eq_ok_iff.mp hfit
    obtain ⟨files, hobstacle⟩ := result_eq_error_iff.mp hresult
    refine hobstacle.ofOutput (hsettings ▸ horder.run) ?_ ?_
    · rw [hsenders]
      exact toNat_pos_of_ne_zero horder.senders
    · rw [hrecipients]
      exact toNat_pos_of_ne_zero horder.recipients

/-- A run whose output would have to lie below a file. -/
def blocked : RunInput :=
  { small (.steady 10 (.ok "a")) with
    settings := { targetTps := 2, durationSecs := 1, workers := 1, output := "x/out" }
    files := { entries := [(["x"], .file [])] } }

theorem no_report_iff_blocked :
    blocked.run.result = .error (.output "x/out" .alreadyExists) ∧
      blocked.run.senders = blocked.senders ∧ blocked.run.calls = [] ∧
      (∀ client signer cancelAt freshSeed,
        ({ blocked with client, signer, cancelAt, freshSeed } : RunInput).run.result =
          .error (.output "x/out" .alreadyExists)) ∧
      Failure.OfOutput "x/out" (.output "x/out" .alreadyExists) := by
  have hplace : blocked.files.createWithParents "x/out" = (.error .alreadyExists, blocked.files) := by
    decide +kernel
  have hcreate : ArtifactFile.create blocked.files "x/out" blocked.header =
      (.error (.output "x/out" .alreadyExists), blocked.files) := by
    simp only [ArtifactFile.create, hplace]
  have hresult : blocked.run.result = .error (.output "x/out" .alreadyExists) :=
    result_eq_error_iff.mpr ⟨_, .artifact rfl Nat.one_pos Nat.one_pos hcreate⟩
  have hfit : Settings.finalize
      { run := blocked.settings, accounts := { senders := 1, recipients := 1 } } =
        .ok { run := blocked.settings, accounts := { senders := 1, recipients := 1 } } := by
    decide +kernel
  obtain ⟨-, helsewhere, hfailed, houtput⟩ := no_report_iff blocked
  obtain ⟨hsenders, hcalls, -, -⟩ := hfailed _ hresult
  exact ⟨hresult, hsenders, hcalls,
    fun client signer cancelAt freshSeed => (helsewhere client signer cancelAt freshSeed _).mpr hresult,
    houtput _ _ hfit rfl rfl rfl _ hresult⟩

end RunInput

end TransferLoad
