import TransferLoad.Settings.Basic
import TransferLoad.Text.Numeral

/-!
# Options

Each command takes options with long names. An option stands at most once; its value is attached with an
equals sign or follows as an argument of its own, which then does not begin with a hyphen. Some options
fall back to a variable of the environment, and some have a value that is used otherwise. Arguments are
read from the left, and a wish for help counts when everything before it is in order.
-/

namespace TransferLoad.Command

inductive ValueKind where
  | text
  /-- Any text but the empty one. -/
  | path
  /-- A number of 64 bits. -/
  | word
  /-- A number of 128 bits. -/
  | amount
  | choice (words : List String)
  deriving Repr, DecidableEq

def ValueKind.accepts (kind : ValueKind) (value : String) : Bool :=
  match kind with
  | text => true
  | path => !value.isEmpty
  | word => (Text.readNat maxWord value.toList).toBool
  | amount => (Text.readNat ((1 <<< 128) - 1) value.toList).toBool
  | choice words => words.contains value

structure Fallback where
  variableName : String
  /-- Help does not tell what is in it. -/
  secret : Bool := false
  deriving Repr, DecidableEq

structure OptionSpec where
  name : String
  /-- Without a kind the option is a switch and has no value. -/
  kind : Option ValueKind := some .text
  description : String := ""
  fallback : Option Fallback := none
  default : Option String := none
  deriving Repr, DecidableEq

inductive Subcommand where
  | run
  | verify
  deriving Repr, DecidableEq

namespace Subcommand

def render : Subcommand → String
  | run => "run"
  | verify => "verify"

def all : List Subcommand := [run, verify]

def ofText? (text : String) : Option Subcommand := all.find? fun command => command.render = text

def description : Subcommand → String
  | run => "Fund senders (unless skipped) and run the paced submission test"
  | verify => "Check every hash recorded in an output file against the node"

def rpcFallback : Fallback := { variableName := "RPC_URL" }

def funderFallback : Fallback := { variableName := "IPPAN_FUNDER_KEY", secret := true }

def options : Subcommand → List OptionSpec
  | run => [
    { name := "config", kind := some .path
      description := "Optional config file (TOML/YAML/JSON); IPPAN_STRESS__* env vars also apply" },
    { name := "rpc", description := "RPC base URL", fallback := some rpcFallback },
    { name := "tps", kind := some .word, description := "Target transactions per second" },
    { name := "duration", kind := some .word, description := "Test duration in seconds" },
    { name := "senders", kind := some .word, description := "Number of sender accounts" },
    { name := "recipients", kind := some .word, description := "Number of recipient accounts" },
    { name := "workers", kind := some .word
      description := "Concurrent workers (defaults to one per sender)" },
    { name := "chain-id", kind := some .word },
    { name := "fee-price", kind := some .amount, description := "Fee price in atomic units" },
    { name := "amount", kind := some .amount, description := "Transfer amount in atomic units" },
    { name := "output", kind := some .path, description := "Output file for transaction hashes" },
    { name := "recipient-policy", kind := some (.choice ["round-robin", "random"]) },
    { name := "seed", kind := some .word, description := "Seed for random recipient selection" },
    { name := "distribute-remainder", kind := none
      description := "Give the budget remainder to the first workers instead of dropping it" },
    { name := "skip-funding", kind := none
      description := "Skip the funding phase (senders already funded)" },
    { name := "funder-key"
      description := "Funder secret key as hex; can also come from IPPAN_FUNDER_KEY"
      fallback := some funderFallback },
    { name := "log-level" },
    { name := "log-format", kind := some (.choice ["pretty", "json"]) },
    { name := "metrics-addr"
      description := "Serve Prometheus metrics on this address (e.g. 127.0.0.1:9898)" }]
  | verify => [
    { name := "rpc", fallback := some rpcFallback, default := some "http://127.0.0.1:8080" },
    { name := "input", kind := some .path, description := "Output file written by `run`"
      default := some "tx_hashes.txt" },
    { name := "concurrency", kind := some .word, description := "Concurrent lookups"
      default := some "16" }]

def option? (command : Subcommand) (name : String) : Option OptionSpec :=
  command.options.find? fun spec => spec.name = name

end Subcommand

/-! ### Reading -/

/-- Reading arguments ends without a command to carry out. -/
inductive Interruption where
  | misuse
  | help (topic : Option Subcommand)
  | version
  deriving Repr, DecidableEq

/-- Options with their values; a switch has the empty text. -/
abbrev Given := List (String × String)

def splitAtEquals (chars : List Char) : String × Option String :=
  (String.ofList (chars.takeWhile (· ≠ '=')),
    match chars.dropWhile (· ≠ '=') with
    | _ :: value => some (String.ofList value)
    | [] => none)

/-- An argument that can be a value: it does not begin with a hyphen, unless it is one. -/
def isValue (argument : String) : Bool := argument.toList.head? ≠ some '-' || argument = "-"

def readOptions (command : Subcommand) : Given → List String → Except Interruption Given
  | given, [] => .ok given
  | given, argument :: rest =>
    match argument.toList with
    | ['-', '-'] => if rest = [] then .ok given else .error .misuse
    | '-' :: '-' :: long =>
      let (name, attached) := splitAtEquals long
      if name = "help" ∧ attached = none then .error (.help (some command))
      else
        match command.option? name, given.lookup name with
        | some spec, none =>
          match spec.kind, attached, rest with
          | none, none, rest => readOptions command ((name, "") :: given) rest
          | none, some _, _ => .error .misuse
          | some kind, some value, rest =>
            if kind.accepts value then readOptions command ((name, value) :: given) rest
            else .error .misuse
          | some kind, none, value :: rest =>
            if isValue value && kind.accepts value then readOptions command ((name, value) :: given) rest
            else .error .misuse
          | some _, none, [] => .error .misuse
        | _, _ => .error .misuse
    | '-' :: 'h' :: _ => .error (.help (some command))
    | _ => .error .misuse

/-- The value of an option: the given one, or one from the environment, or the one used otherwise. -/
def valueOf? (command : Subcommand) (given environment : Given) (name : String) : Option String :=
  let spec := command.option? name
  (given.lookup name).or
    (((spec.bind (·.fallback)).bind fun fallback => environment.lookup fallback.variableName).or
      (spec.bind (·.default)))

/-! ### Commands -/

structure RunOptions where
  config : Option String := none
  rpcUrl : Option String := none
  targetTps : Option UInt64 := none
  durationSecs : Option UInt64 := none
  senders : Option UInt64 := none
  recipients : Option UInt64 := none
  workers : Option UInt64 := none
  chainId : Option UInt64 := none
  feePrice : Option Amount := none
  amount : Option Amount := none
  output : Option String := none
  recipientPolicy : Option RecipientPolicy := none
  seed : Option UInt64 := none
  distributeRemainder : Bool := false
  skipFunding : Bool := false
  funderKey : Option String := none
  logLevel : Option String := none
  logFormat : Option String := none
  metricsAddr : Option String := none
  deriving Repr, DecidableEq

structure VerifyOptions where
  rpcUrl : String
  input : String
  concurrency : UInt64
  deriving Repr, DecidableEq

inductive CommandLine where
  | run (options : RunOptions)
  | verify (options : VerifyOptions)
  deriving Repr, DecidableEq

def word? (text : String) : Option UInt64 := (Text.readNat maxWord text.toList).toOption.map UInt64.ofNat

def amount? (text : String) : Option Amount :=
  (Text.readNat ((1 <<< 128) - 1) text.toList).toOption.map (BitVec.ofNat 128)

def policy? (text : String) : Option RecipientPolicy :=
  if text = "random" then some .random else if text = "round-robin" then some .roundRobin else none

def RunOptions.ofValues (value? : String → Option String) : RunOptions where
  config := value? "config"
  rpcUrl := value? "rpc"
  targetTps := (value? "tps").bind word?
  durationSecs := (value? "duration").bind word?
  senders := (value? "senders").bind word?
  recipients := (value? "recipients").bind word?
  workers := (value? "workers").bind word?
  chainId := (value? "chain-id").bind word?
  feePrice := (value? "fee-price").bind amount?
  amount := (value? "amount").bind amount?
  output := value? "output"
  recipientPolicy := (value? "recipient-policy").bind policy?
  seed := (value? "seed").bind word?
  distributeRemainder := (value? "distribute-remainder").isSome
  skipFunding := (value? "skip-funding").isSome
  funderKey := value? "funder-key"
  logLevel := value? "log-level"
  logFormat := value? "log-format"
  metricsAddr := value? "metrics-addr"

def VerifyOptions.ofValues (value? : String → Option String) : VerifyOptions where
  rpcUrl := (value? "rpc").getD ""
  input := (value? "input").getD ""
  concurrency := ((value? "concurrency").bind word?).getD 0

def CommandLine.ofValues (command : Subcommand) (value? : String → Option String) : CommandLine :=
  match command with
  | .run => run (.ofValues value?)
  | .verify => verify (.ofValues value?)

def CommandLine.read (environment : Given) : List String → Except Interruption CommandLine
  | [] => .error .misuse
  | "--help" :: _ => .error (.help none)
  | "--version" :: _ => .error .version
  | ["help"] => .error (.help none)
  | ["help", topic] =>
    match Subcommand.ofText? topic with
    | some command => .error (.help (some command))
    | none => .error .misuse
  | first :: rest =>
    match Subcommand.ofText? first, first.toList with
    | some command, _ =>
      (readOptions command [] rest).map fun given => ofValues command (valueOf? command given environment)
    | none, '-' :: 'h' :: _ => .error (.help none)
    | none, '-' :: 'V' :: _ => .error .version
    | none, _ => .error .misuse

def RunOptions.applyTo (o : RunOptions) (s : Settings) : Settings :=
  { rpcUrl := o.rpcUrl.getD s.rpcUrl
    run := { s.run with
      targetTps := o.targetTps.getD s.run.targetTps
      durationSecs := o.durationSecs.getD s.run.durationSecs
      workers := o.workers.getD s.run.workers
      chainId := o.chainId.getD s.run.chainId
      feePrice := o.feePrice.getD s.run.feePrice
      amount := o.amount.getD s.run.amount
      output := o.output.getD s.run.output
      recipientPolicy := o.recipientPolicy.getD s.run.recipientPolicy
      seed := o.seed.or s.run.seed
      remainder := if o.distributeRemainder then .distribute else s.run.remainder }
    accounts :=
      { senders := o.senders.getD s.accounts.senders
        recipients := o.recipients.getD s.accounts.recipients }
    funding := { s.funding with
      skip := o.skipFunding || s.funding.skip
      funderKey := o.funderKey.or s.funding.funderKey }
    log :=
      { level := o.logLevel.getD s.log.level
        format := o.logFormat.getD s.log.format }
    metricsAddr := o.metricsAddr.or s.metricsAddr }

end TransferLoad.Command
