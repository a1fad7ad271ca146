/-!
# Forms of commands

A form says what a command line may hold: options, each under one or more names and with or without
a value, and at most one operand. It also holds the two texts that are shown to the user, the usage
and the help.
-/

namespace QuantumRisk.Console

/-- The options that exist. -/
inductive Key where
  | help
  | version
  | noBanner
  | quiet
  | reportDir
  | format
  | host
  | port
  deriving DecidableEq, Inhabited, Repr

/-- An option as a form offers it. -/
structure Flag where
  key : Key
  names : List String
  takesValue : Bool := false
  deriving Inhabited

/-- All names of an option, as messages show them. -/
def Flag.title (f : Flag) : String := String.intercalate "/" f.names

/-- The operand of a form. -/
inductive Operand where
  | absent
  /-- A path that may be left out. -/
  | path
  /-- Which reports to show. -/
  | which
  /-- A command with its own command line. -/
  | command
  deriving DecidableEq, Inhabited, Repr

structure Form where
  program : String
  usage : String
  help : String
  flags : List Flag
  operand : Operand
  deriving Inhabited

/-- All option names of a form with their options. -/
def Form.names (f : Form) : List (String × Flag) :=
  f.flags.flatMap fun flag ↦ flag.names.map (·, flag)

def helpFlag : Flag := ⟨.help, ["-h", "--help"], false⟩

def quietFlag : Flag := ⟨.quiet, ["--quiet", "-q"], false⟩

def reportDirFlag : Flag := ⟨.reportDir, ["--report-dir"], true⟩

def formats : List String := ["summary", "json"]

def selections : List String := ["latest", "list"]

def commands : List String := ["scan", "report", "summary", "config", "serve"]

/-! ## The forms -/

private def helpLine : String := "  -h, --help            show this help message and exit\n"

private def mainUsage : String :=
  "usage: pqscan [-h] [--version] [--no-banner] [--quiet]\n"
    ++ "              \x7bscan,report,summary,config,serve\x7d ...\n"

def mainForm : Form where
  program := "pqscan"
  usage := mainUsage
  help := mainUsage ++ "\n"
    ++ "pqscan — quantum-risk static analyzer for Solidity\n"
    ++ "\n"
    ++ "positional arguments:\n"
    ++ "  \x7bscan,report,summary,config,serve\x7d\n"
    ++ "    scan                Analyze a Solidity file\n"
    ++ "    report              Read saved reports\n"
    ++ "    summary             Aggregate risk over saved reports\n"
    ++ "    config              Show current configuration\n"
    ++ "    serve               Run the HTTP API\n"
    ++ "\n"
    ++ "options:\n"
    ++ helpLine
    ++ "  --version             Print version and exit\n"
    ++ "  --no-banner           Suppress the startup banner\n"
    ++ "  --quiet, -q           Minimal output\n"
  flags := [helpFlag, ⟨.version, ["--version"], false⟩, ⟨.noBanner, ["--no-banner"], false⟩,
    quietFlag]
  operand := .command

private def scanUsage : String :=
  "usage: pqscan scan [-h] [--report-dir REPORT_DIR] [--format \x7bsummary,json\x7d]\n"
    ++ "                   [--quiet]\n"
    ++ "                   [path]\n"

def scanForm : Form where
  program := "pqscan scan"
  usage := scanUsage
  help := scanUsage ++ "\n"
    ++ "positional arguments:\n"
    ++ "  path                  Path to the .sol file\n"
    ++ "\n"
    ++ "options:\n"
    ++ helpLine
    ++ "  --report-dir REPORT_DIR\n"
    ++ "                        Directory to write the report to\n"
    ++ "  --format \x7bsummary,json\x7d, -f \x7bsummary,json\x7d\n"
    ++ "                        Console output format (default: summary)\n"
    ++ "  --quiet, -q           Only print the saved report path\n"
  flags := [helpFlag, reportDirFlag, ⟨.format, ["--format", "-f"], true⟩, quietFlag]
  operand := .path

private def reportUsage : String :=
  "usage: pqscan report [-h] [--report-dir REPORT_DIR] \x7blatest,list\x7d\n"

def reportForm : Form where
  program := "pqscan report"
  usage := reportUsage
  help := reportUsage ++ "\n"
    ++ "positional arguments:\n"
    ++ "  \x7blatest,list\x7d         'latest' or 'list'\n"
    ++ "\n"
    ++ "options:\n"
    ++ helpLine
    ++ "  --report-dir REPORT_DIR\n"
    ++ "                        Report directory\n"
  flags := [helpFlag, reportDirFlag]
  operand := .which

private def summaryUsage : String := "usage: pqscan summary [-h] [--report-dir REPORT_DIR]\n"

def summaryForm : Form where
  program := "pqscan summary"
  usage := summaryUsage
  help := summaryUsage ++ "\n"
    ++ "options:\n"
    ++ helpLine
    ++ "  --report-dir REPORT_DIR\n"
    ++ "                        Report directory\n"
  flags := [helpFlag, reportDirFlag]
  operand := .absent

private def configUsage : String := "usage: pqscan config [-h]\n"

def configForm : Form where
  program := "pqscan config"
  usage := configUsage
  help := configUsage ++ "\n"
    ++ "options:\n"
    ++ "  -h, --help  show this help message and exit\n"
  flags := [helpFlag]
  operand := .absent

private def serveUsage : String := "usage: pqscan serve [-h] [--host HOST] [--port PORT]\n"

def serveForm : Form where
  program := "pqscan serve"
  usage := serveUsage
  help := serveUsage ++ "\n"
    ++ "options:\n"
    ++ "  -h, --help   show this help message and exit\n"
    ++ "  --host HOST  Bind address\n"
    ++ "  --port PORT  Bind port\n"
  flags := [helpFlag, ⟨.host, ["--host"], true⟩, ⟨.port, ["--port"], true⟩]
  operand := .absent

end QuantumRisk.Console
