import TransferLoad.Command.Help
import TransferLoad.Net.IpAddress
import TransferLoad.RemoteNode
import TransferLoad.Run.Dispatch
import TransferLoad.Settings.Load
import TransferLoad.Verification

/-!
# A session

What the program does with its arguments, as a function of everything around it: the environment, the
files, the clock, the network and a source of secrets. The outcome is what it writes, how it exits, and
the files it leaves behind.

A failure is told as what was being done, with the causes below. Failures of single transfers and single
lookups are no failures of the session.

Left out are the log with its levels and formats, the endpoint for metrics behind the check of its address, and
the signal that interrupts a run, in whose place stands the time at which it comes.
-/

namespace TransferLoad.Command

/-- Everything around the program. -/
structure Surroundings where
  environment : List (String × String) := []
  files : FileTree := {}
  startedAt : Text.Timestamp.Instant
  transport : Net.Transport
  /-- Fresh secrets of 32 bytes. -/
  secrets : Nat → Bytes
  freshSeed : UInt64 := 0
  cancelAt : Option Nat := none

structure Outcome where
  exitCode : Nat := 0
  output : String := ""
  complaint : String := ""
  files : FileTree

/-! ### Failures -/

/-- Why a session came to nothing. -/
inductive SessionFailure where
  | settings (cause : Failure)
  | loading (cause : Failure)
  | metricsAddress (text : String)
  | provisioning (cause : Failure)
  | run (cause : Failure)
  | verification (path : String) (cause : Failure)
  deriving Repr, DecidableEq

/-- A failure with the causes behind it. -/
def causesOf (f : Failure) : List String := f.message :: f.source?.toList

def SessionFailure.chain : SessionFailure → List String
  | settings cause => causesOf cause
  | loading cause => "load configuration" :: causesOf cause
  | metricsAddress text => ["invalid metrics address " ++ text, "invalid socket address syntax"]
  | provisioning cause => "provision sender accounts" :: causesOf cause
  | run cause => "stress test failed" :: causesOf cause
  | verification path cause => ("verify " ++ path) :: causesOf cause

/-- A text with something before its first line and something else before the others. -/
def indented (first others text : String) : String :=
  first ++ ("\n" ++ others).intercalate ((Net.splitAt '\n' text.toList).map String.ofList)

/-- The causes line by line, with numbers if there is more than one. -/
def renderCauses : List String → String
  | [] => ""
  | [cause] => "\n\nCaused by:\n" ++ indented "    " "    " cause
  | causes =>
    "\n\nCaused by:" ++ String.join (causes.mapIdx fun i cause =>
      let number := toString i
      "\n" ++ indented (String.ofList (List.replicate (5 - number.length) ' ') ++ number ++ ": ") "       " cause)

def SessionFailure.render (f : SessionFailure) : String :=
  match f.chain with
  | [] => ""
  | first :: causes => "Error: " ++ first ++ renderCauses causes ++ "\n"

/-! ### Running -/

/-- What a run is configured with: what is loaded, with the options over it, once it is found to be in order. -/
def RunOptions.configure (o : RunOptions) (s : Surroundings) : Except SessionFailure Settings := do
  let loaded ← (Settings.load s.files o.config s.environment).mapError .loading
  (o.applyTo loaded).finalize.mapError .settings

/-- What a run is configured with, if metrics have an address to be served at or are not asked for. -/
def RunOptions.settings (o : RunOptions) (s : Surroundings) : Except SessionFailure Settings := do
  let settings ← o.configure s
  match settings.metricsAddr with
  | some text => if Net.isSocketAddress text.toList then return settings else throw (.metricsAddress text)
  | none => return settings

def banner (s : Settings) : String :=
  "=== MULTI-ADDRESS STRESS TEST ===\n" ++
    "RPC URL: " ++ s.rpcUrl ++ "\n" ++
    "Target TPS: " ++ toString s.run.targetTps.toNat ++ "\n" ++
    "Duration: " ++ toString s.run.durationSecs.toNat ++ " seconds\n" ++
    "Sender Addresses: " ++ toString s.accounts.senders.toNat ++ "\n" ++
    "Recipient Addresses: " ++ toString s.accounts.recipients.toNat ++ "\n" ++
    "Workers: " ++ toString s.run.workers.toNat ++ "\n" ++
    "Total Transactions: " ++ toString s.run.totalBudget ++ "\n" ++
    "Chain ID: " ++ toString s.run.chainId.toNat ++ "\n\n"

/-- A client whose history began with an earlier conversation. -/
def continued (c : Client) (j : Journal) : Client :=
  let all := fun (calls : List Call) =>
    (calls.map fun call => { call with time := call.time + j.now }) ++ j.calls
  { submit := fun calls now => c.submit (all calls) (now + j.now)
    sequence := fun calls now => c.sequence (all calls) (now + j.now)
    balance := fun calls now => c.balance (all calls) (now + j.now)
    status := fun calls now => c.status (all calls) (now + j.now) }

/-- A session that fails after something was written already. -/
def Surroundings.fail (s : Surroundings) (output : String) (cause : SessionFailure) : Outcome :=
  { exitCode := 1, output, complaint := cause.render, files := s.files }

def Surroundings.runWith (s : Surroundings) (settings : Settings) : Outcome :=
  let senders := Account.generate s.secrets settings.accounts.senders.toNat
  let fresh := fun i => s.secrets (settings.accounts.senders.toNat + i)
  let recipients := Account.generate fresh settings.accounts.recipients.toNat
  let client := RemoteNode.client { baseUrl := settings.rpcUrl, transport := s.transport }
  let p : Provisioning := { client, run := settings.run }
  match p.provision settings.funding senders {} with
  | (.error cause, _, _) => s.fail (banner settings) (.provisioning cause)
  | (.ok (), senders, journal) =>
    let record := RunInput.run
      { settings := settings.run
        senders
        recipients := recipients.map (·.address)
        client := continued client journal
        cancelAt := s.cancelAt
        files := s.files
        startedAt := s.startedAt
        freshSeed := s.freshSeed }
    let console := String.join (record.console.reverse.map fun line => line.render ++ "\n")
    match record.result with
    | .error cause => { s with files := record.files }.fail (banner settings ++ console) (.run cause)
    | .ok report =>
      { output := banner settings ++ console ++ "\n" ++ report.render ++ "\n" ++
          "Transaction hashes saved to: " ++ settings.run.output ++ "\n"
        files := record.files }

def Surroundings.verify (s : Surroundings) (o : VerifyOptions) : Outcome :=
  let client := RemoteNode.client { baseUrl := o.rpcUrl, transport := s.transport }
  match verifyArtifact client s.files o.input o.concurrency.toNat {} with
  | (.error cause, _) => s.fail "" (.verification o.input cause)
  | (.ok report, _) => { output := report.render ++ "\n", files := s.files }

def Surroundings.session (s : Surroundings) (arguments : List String) : Outcome :=
  match CommandLine.read s.environment arguments with
  | .error .misuse => { exitCode := 2, files := s.files }
  | .error .version => { output := versionText, files := s.files }
  | .error (.help none) => { output := generalHelp, files := s.files }
  | .error (.help (some command)) => { output := command.help s.environment, files := s.files }
  | .ok (.verify o) => s.verify o
  | .ok (.run o) =>
    match o.settings s with
    | .error cause => s.fail "" cause
    | .ok settings => s.runWith settings

end TransferLoad.Command
