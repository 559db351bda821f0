import TlsGate.Command.Run
import TlsGate.Pki.Chain

/-!
The command. Standard input is the one connection that the server is given, and what is sent on it
goes to standard output; the log goes to standard error.
-/

set_option autoImplicit false
set_option relaxedAutoImplicit false

namespace TlsGate.Main

open Command Log Server Tls

local instance room : Yaml.Room := .ofCalls 960

local instance keyLibrary : Pki.KeyLibrary := .standard

def readFiles (fs : FileSystem) (paths : List String) : IO FileSystem :=
  paths.foldlM (fun fs (path : String) => do
    try
      let content ← IO.FS.readBinFile path
      return fs.write (Bytes.ofString path) (.file content.toList)
    catch _ => return fs) fs

def neededFiles (config? : Option String) : IO FileSystem := do
  let paths := config?.toList.filter (!·.isEmpty)
  let fs ← readFiles {} paths
  let named := paths.flatMap fun (path : String) =>
    match (Config.load fs path).2 with
    | .ok c => [c.certPath, c.keyPath, c.clientCas].filterMap Str.string? |>.filter (!·.isEmpty)
    | .error _ => []
  readFiles fs named

def writeLog (records : List Record) : IO Unit := do
  for r in records do
    let text := String.ofList (r.message.points.map fun p => (p.char?).getD '?')
    IO.eprintln (r.source.name ++ " " ++ r.level.name ++ ": " ++ text)

partial def readInput (stream : IO.FS.Stream) (before : ByteArray) : IO ByteArray := do
  let more ← stream.read 65536
  if more.isEmpty then return before else readInput stream (before ++ more)

def surroundings : Surroundings :=
  { verdicts := Pki.Chain.verdicts ⟨⟨2000, 1, 1⟩, 0, 0, 0, 0, none⟩ }

def serveInput (o : Options) (app : Entity) : IO UInt32 := do
  let fs ← neededFiles o.tlsConfig?
  let input ← readInput (← IO.getStdin) .empty
  let arrival : Arrival := { transport := { items := [.data input.toList] } }
  let history :=
    Command.serve (Session.stack surroundings) Session.enoughSteps o app {} fs [.arrival arrival]
  writeLog (o.shown history.start.records)
  let out ← IO.getStdout
  for report in history.reports do
    writeLog (o.shown report.records)
    for piece in (report.visit?.map fun v => v.final.transport.pieces).getD [] do
      out.write ⟨piece.toArray⟩
  out.flush
  return (ending history.start).status.toUInt32

end TlsGate.Main

def main (arguments : List String) : IO UInt32 := do
  match TlsGate.Command.answer true arguments with
  | .printed text =>
    IO.print text
    return 0
  | .refused text =>
    IO.eprint text
    return TlsGate.Command.refusedStatus.toUInt32
  | .appMissing e =>
    IO.eprintln e.message
    return TlsGate.Command.configStatus.toUInt32
  | .serving o app => TlsGate.Main.serveInput o app
