import Conformance.Config.Settings
import Conformance.Files.Disk
import Conformance.Toml.Reader

/-!
# Configuration files

A configuration file is a TOML document with a section for each group of settings. Settings that it does
not mention keep their usual values; names it should not hold do not count.
-/
namespace Conformance.Config

open Files Ports Text Toml

/-- What a setting is, with its usual value if the file does not mention it. -/
def given {α : Type} (usual : α) (read? : Item → Option α) : Option Item → Option α
  | none => some usual
  | some item => read? item

/-- A word of 64 bits. -/
def word? (item : Item) : Option UInt64 := (item.natBelow? wordBound).map UInt64.ofNat

/-- A port. -/
def port? (item : Item) : Option UInt16 := (item.natBelow? portBound).map UInt16.ofNat

/-- The settings of the section `service`. -/
def service? (item : Item) : Option ServiceSettings := do
  let usual : ServiceSettings := {}
  match ← item.section? ["executable", "host", "username", "password", "genesis",
    "address_prefix", "known_prefixes", "extra_args"] with
  | [executable, host, username, password, genesis, addressPrefix, known, extra] =>
    return {
      executable := ← given usual.executable Item.str? executable
      host := ← given usual.host Item.str? host
      username := ← given usual.username Item.str? username
      password := ← given usual.password Item.str? password
      genesis := ← given usual.genesis (fun item => item.str?.map some) genesis
      addressPrefix := ← given usual.addressPrefix Item.str? addressPrefix
      knownPrefixes := ← given usual.knownPrefixes Item.strs? known
      extraArgs := ← given usual.extraArgs Item.strs? extra }
  | _ => none

/-- The settings of the section `ports`. -/
def ports? (item : Item) : Option PortRange := do
  let usual := ({} : Settings).ports
  match ← item.section? ["min", "max", "probe_os"] with
  | [min, max, probe] =>
    return {
      min := ← given usual.min port? min
      max := ← given usual.max port? max
      probe := ← given usual.probe Item.bool? probe }
  | _ => none

/-- The settings of the section `timeouts`. -/
def timeouts? (item : Item) : Option Timeouts := do
  let usual : Timeouts := {}
  match ← item.section? ["rpc_request_secs", "ready_ceiling_secs", "run_secs",
    "stop_grace_millis"] with
  | [request, ready, run, grace] =>
    return {
      request := ← given usual.request word? request
      ready := ← given usual.ready word? ready
      run := ← given usual.run word? run
      stopGrace := ← given usual.stopGrace word? grace }
  | _ => none

/-- The settings of the section `runner`. -/
def runner? (item : Item) : Option RunnerSettings := do
  let usual : RunnerSettings := {}
  match ← item.section? ["jobs", "script_extension", "out_dir"] with
  | [jobs, extension, out] =>
    return {
      jobs := ← given usual.jobs (Item.natBelow? wordBound) jobs
      scriptExtension := ← given usual.scriptExtension Item.str? extension
      outDir := ← given usual.outDir Item.str? out }
  | _ => none

/-- The settings that a document gives. -/
def settings? (document : Entries) : Option Settings := do
  let usual : Settings := {}
  return {
    service := ← given usual.service service? (document.lookup "service")
    ports := ← given usual.ports ports? (document.lookup "ports")
    timeouts := ← given usual.timeouts timeouts? (document.lookup "timeouts")
    runner := ← given usual.runner runner? (document.lookup "runner") }

/-- The settings that the text of a configuration file gives. -/
def read (text : String) : Except Fault Settings :=
  match (Toml.read? text).bind settings? with
  | none => .error (.configParse "no TOML document with settings of the right kinds")
  | some s => s.validate

/-- The settings of a configuration file. -/
def load (disk : Disk) (path : String) : Except Fault Settings :=
  match disk.readText path with
  | .error e => .error (.fileRead path e.message)
  | .ok text => read text

/-- The settings of the file if it is there, or else the usual ones. -/
def loadOrUsual (disk : Disk) (path : Option String) : Except Fault Settings :=
  match path with
  | some path => if disk.exists? path then load disk path else .ok {}
  | none => .ok {}

end Conformance.Config
