import ApiDocs.Command.Options
import ApiDocs.Command.Selection
import ApiDocs.Command.Stylesheet
import ApiDocs.Log.Filter

namespace ApiDocs.Command

open Files Log

/-- What a run has done so far: the disk it leaves, its log, and why it ended early. -/
structure Report where
  disk : Disk
  log : List Record
  written : Bool
  failure : Option Failure

def Report.after (r : Report) (log : List Record) (written : Bool) : Report :=
  { r with log := log ++ r.log, written := written || r.written }

/-- The classes of an input file; none if the file is to be skipped. Every file of a disk can be
read, so a file that has been selected is unreadable only if its content is not UTF-8. -/
def examine (d : Disk) (path : Text) : List Record × Option (List Class) :=
  match d.read path with
  | .error fault =>
    ([program .warn "skipping unreadable file" [("file", path), ("error", fault.message)]], none)
  | .ok content =>
    match decode? content with
    | none =>
      ([program .warn "skipping unreadable file" [("file", path), ("error", invalidMessage)]], none)
    | some s =>
      match Xml.parse s with
      | .error error =>
        ([program .warn "skipping malformed XML" [("file", path), ("error", error.message)]], none)
      | .ok root =>
        let classes := Extract.classes root
        ((Extract.notes root).map ofNote
            ++ [program .info "parsed" [("file", path), ("types", Text.ofNat classes.length)]],
          some classes)

def documentPath (directory stem : Text) (format : Format) : Text :=
  Path.join directory (stem ++ "." ++ format.extension)

def outputStem (path : Text) : Text := (Path.stem? path).getD "documentation"

def wrote (path : Text) : Record := program .info "wrote" [("file", path)]

def convertEach (format : Format) (directory : Text) (d : Disk) : List Text → Report
  | [] => ⟨d, [], false, none⟩
  | path :: rest =>
    match examine d path with
    | (log, none) => (convertEach format directory d rest).after log false
    | (log, some []) =>
      (convertEach format directory d rest).after
        (log ++ [program .info "no documented types, skipping" [("file", path)]]) false
    | (log, some classes) =>
      let target := documentPath directory (outputStem path) format
      match d.write target (encode (format.render classes)) with
      | .error fault => ⟨d, log, false, some (.document target fault)⟩
      | .ok d => (convertEach format directory d rest).after (log ++ [wrote target]) true

def gather (d : Disk) : List Text → List Record × List Class
  | [] => ([], [])
  | path :: rest =>
    let (log, classes) := examine d path
    let (log', classes') := gather d rest
    (log ++ log', classes.getD [] ++ classes')

def convertAll (format : Format) (directory : Text) (d : Disk) (paths : List Text) : Report :=
  match gather d paths with
  | (log, []) => ⟨d, log ++ [program .warn "no documented types found in any input" []], false, none⟩
  | (log, classes) =>
    let target := documentPath directory format.stem format
    match d.write target (encode (format.render classes)) with
    | .error fault => ⟨d, log, false, some (.document target fault)⟩
    | .ok d => ⟨d, log ++ [wrote target], true, none⟩

/-- The style sheet goes beside HTML pages, unless something is there already. -/
def addStylesheet (directory : Text) (r : Report) : Report :=
  let path := Path.join directory stylesheetName
  if r.disk.has path then r
  else
    match r.disk.write path (encode stylesheet) with
    | .error fault => { r with failure := some (.stylesheet path fault) }
    | .ok d => { r with disk := d }

def wantsStylesheet (o : Options) (format : Format) (r : Report) : Bool :=
  r.written && r.failure.isNone && format = .html && !o.noStylesheet

def convertPaths (o : Options) (format : Format) (directory : Text) (d : Disk)
    (paths : List Text) : Report :=
  let r :=
    if o.single then convertAll format directory d paths
    else convertEach format directory d paths
  if wantsStylesheet o format r then addStylesheet directory r else r

/-- The output directory and the format are settled before the inputs are looked for. -/
def convertFiles (o : Options) (d : Disk) : Report :=
  match o.output with
  | none => ⟨d, [], false, some .noOutput⟩
  | some directory =>
    match Format.ofName? o.format with
    | none => ⟨d, [], false, some (.unknownFormat o.format)⟩
    | some format =>
      match d.ensureAll directory with
      | (d, some fault) => ⟨d, [], false, some (.outputDirectory directory fault)⟩
      | (d, none) =>
        match filesOfAll d o.inputs with
        | (_, log, some failure) => ⟨d, log, false, some failure⟩
        | (paths, log, none) =>
          (convertPaths o format directory d (Path.ordered paths)).after log false

def convertInput (o : Options) (input : ByteArray) : List Record × Except Failure Text :=
  match Format.ofName? o.format with
  | none => ([], .error (.unknownFormat o.format))
  | some format =>
    match decode? input with
    | none => ([], .error .undecodableInput)
    | some s =>
      match Xml.parse s with
      | .error error => ([], .error (.malformedInput error))
      | .ok root =>
        ((Extract.notes root).map ofNote, .ok (format.render (Extract.classes root)))

structure Surroundings where
  arguments : List Text
  logSetting : Option Text
  input : ByteArray
  disk : Disk

structure Outcome where
  exitCode : Nat
  output : Text
  errors : Text
  disk : Disk

def helpText : Text :=
  "Generate Markdown and HTML from compiler XML documentation files\n"
    ++ "\n"
    ++ "Usage: xmldoc [OPTIONS] [FILES]...\n"
    ++ "\n"
    ++ "Arguments:\n"
    ++ "  [FILES]...  Input files (glob patterns and directories supported). If omitted, reads from stdin\n"
    ++ "\n"
    ++ "Options:\n"
    ++ "  -o, --output <OUTPUT>  Output directory (required when files are given)\n"
    ++ "  -f, --format <FORMAT>  Output format: markdown (default), bitbucket, html, json [default: markdown]\n"
    ++ "      --single           Merge all inputs into a single document named after the format (documentation.md, BitbucketDocumentation.md, documentation.html)\n"
    ++ "      --no-stylesheet    Do not write styles.css next to HTML output\n"
    ++ "  -h, --help             Print help\n"
    ++ "  -V, --version          Print version\n"

def versionText : Text := "xmldoc 0.1.0\n"

def usageError : Text := "usage error\n"

def logText (setting : Option Text) (log : List Record) : Text :=
  (log.filter (shows (filterOf setting))).flatMap fun r => r.text ++ "\n"

def outcome (s : Surroundings) (log : List Record) (output : Text) (failure : Option Failure)
    (d : Disk) : Outcome where
  exitCode := if failure.isSome then 1 else 0
  output := output
  errors :=
    logText s.logSetting log ++ match failure with
      | none => []
      | some f => f.text
  disk := d

def run (s : Surroundings) : Outcome :=
  match request? s.arguments with
  | none => ⟨2, [], usageError, s.disk⟩
  | some .help => ⟨0, helpText, [], s.disk⟩
  | some .version => ⟨0, versionText, [], s.disk⟩
  | some (.convert o) =>
    if o.inputs = [] then
      match convertInput o s.input with
      | (log, .ok output) => outcome s log output none s.disk
      | (log, .error failure) => outcome s log [] (some failure) s.disk
    else
      let r := convertFiles o s.disk
      outcome s r.log [] r.failure r.disk

end ApiDocs.Command
