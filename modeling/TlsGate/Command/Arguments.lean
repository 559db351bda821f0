import TlsGate.Address.Parse
import TlsGate.Log
import TlsGate.Text.Digit

/-!
Reading the arguments of the command. An argument that starts with a dash names an option, and the
others are values: of the option before them, or the address. Arguments are taken from left to
right, and the first that cannot be taken decides what the command says; what is missing or left
over is told in the end. After `--` there are only values.
-/

set_option autoImplicit false
set_option relaxedAutoImplicit false

namespace TlsGate.Command

open Address

/-- The library that waits for events; all of them serve alike. -/
inductive EventLoop where
  | asyncio
  | uvloop
  | trio
  deriving DecidableEq, Repr

namespace EventLoop

def all : List EventLoop := [asyncio, uvloop, trio]

def name : EventLoop → String
  | asyncio => "asyncio"
  | uvloop => "uvloop"
  | trio => "trio"

def ofName? (s : String) : Option EventLoop := all.find? (·.name == s)

end EventLoop

def levelOfName? (s : String) : Option Log.Level := Log.Level.all.find? (·.name == s)

inductive Setting where
  | app
  | tlsConfig
  | logLevel
  | loop
  deriving DecidableEq, Repr

inductive Flag where
  | help
  | version
  | setting (s : Setting)
  deriving DecidableEq, Repr

def Setting.flag : Setting → String
  | app => "--app"
  | tlsConfig => "--tls-config"
  | logLevel => "--log-level"
  | loop => "--loop"

def Setting.all : List Setting := [.app, .tlsConfig, .logLevel, .loop]

def Flag.shown : Flag → String
  | help => "-h/--help"
  | version => "--version"
  | setting s => s.flag

/-- The option that an argument names. The version can be asked for only if there is an option for
it. -/
def flagOf? (hasVersion : Bool) (argument : String) : Option Flag :=
  if argument = "-h" ∨ argument = "--help" then some .help
  else if argument = "--version" ∧ hasVersion = true then some .version
  else (Setting.all.find? (·.flag == argument)).map .setting

inductive Fault where
  | valueMissing (s : Setting)
  | unknownChoice (s : Setting) (value : String)
  | valueIgnored (f : Flag) (value : String)
  | badAddress (value : String)
  | addressMissing
  | unrecognized (arguments : List String)
  deriving DecidableEq, Repr

structure Options where
  address : ListenAddress
  app : String
  tlsConfig? : Option String
  logLevel : Log.Level
  loop : EventLoop
  deriving DecidableEq, Repr

inductive Request where
  | run (o : Options)
  | help
  | version
  | refused (fault : Fault)
  deriving DecidableEq, Repr

inductive Shape where
  | value
  | flag (f : Flag) (own? : Option String)
  | helpWith (tail : List Char)
  | unknown
  deriving DecidableEq, Repr

def isNumber (l : List Char) : Bool :=
  let l := if l.getLast? = some '\n' then l.dropLast else l
  let whole := l.takeWhile Text.isDecimalDigit
  match l.dropWhile Text.isDecimalDigit with
  | [] => !whole.isEmpty
  | '.' :: fraction => !fraction.isEmpty && fraction.all Text.isDecimalDigit
  | _ => false

def shape (hasVersion : Bool) (argument : String) : Shape :=
  match argument.toList with
  | [] => .value
  | ['-'] => .value
  | '-' :: second :: tail =>
    match flagOf? hasVersion argument with
    | some f => .flag f none
    | none =>
      let name := argument.toList.takeWhile (· ≠ '=')
      let own := (argument.toList.dropWhile (· ≠ '=')).drop 1
      match (if name.length < argument.length then flagOf? hasVersion (String.ofList name)
        else none) with
      | some .help =>
        if name.length = 2 then .helpWith own else .flag .help (some (String.ofList own))
      | some f => .flag f (some (String.ofList own))
      | none =>
        if second = 'h' then .helpWith tail
        else if isNumber (second :: tail) || argument.toList.contains ' ' then .value
        else .unknown
  | _ => .value

structure Draft where
  address? : Option ListenAddress := none
  app : String
  tlsConfig? : Option String := none
  logLevel : Log.Level := .info
  loop : EventLoop := .asyncio
  extras : List String := []
  deriving DecidableEq, Repr

namespace Draft

def set (d : Draft) (s : Setting) (value : String) : Except Fault Draft :=
  match s with
  | .app => .ok { d with app := value }
  | .tlsConfig => .ok { d with tlsConfig? := some value }
  | .logLevel =>
    match levelOfName? value with
    | some level => .ok { d with logLevel := level }
    | none => .error (.unknownChoice .logLevel value)
  | .loop =>
    match EventLoop.ofName? value with
    | some loop => .ok { d with loop := loop }
    | none => .error (.unknownChoice .loop value)

def place (d : Draft) (value : String) : Except Fault Draft :=
  match d.address? with
  | some _ => .ok { d with extras := value :: d.extras }
  | none =>
    match Address.parse value with
    | .ok address => .ok { d with address? := some address }
    | .error _ => .error (.badAddress value)

def finish (d : Draft) : Request :=
  match d.address? with
  | none => .refused .addressMissing
  | some address =>
    if d.extras.isEmpty then .run ⟨address, d.app, d.tlsConfig?, d.logLevel, d.loop⟩
    else .refused (.unrecognized d.extras.reverse)

/-- Takes the values after `--`: the first is the address, if there is none yet. The mark itself is
left over unless an address stands next to it. -/
def afterMark (d : Draft) (besideAddress : Bool) (values : List String) : Request :=
  let leave (d : Draft) (values : List String) :=
    finish { d with extras := values.reverse ++ d.extras }
  match d.address?, values with
  | some _, values => leave d (if besideAddress then values else "--" :: values)
  | none, [] => leave d ["--"]
  | none, value :: values =>
    match d.place value with
    | .ok d => leave d values
    | .error fault => .refused fault

/-- What help is asked for with letters after it: more help, or something else that no letter asks
for. -/
def helpWith : List Char → Request
  | [] => .refused (.valueIgnored .help "")
  | ['h'] => .help
  | 'h' :: tail => helpWith tail
  | tail => .refused (.valueIgnored .help (String.ofList tail))

/-- Reads arguments; `besideAddress` says whether the address stands right before them. -/
def read (hasVersion : Bool) (d : Draft) (besideAddress : Bool) : List String → Request
  | [] => d.finish
  | argument :: rest =>
    if argument = "--" then d.afterMark besideAddress rest
    else
      match shape hasVersion argument with
      | .value =>
        match d.place argument with
        | .ok next => next.read hasVersion d.address?.isNone rest
        | .error fault => .refused fault
      | .unknown => { d with extras := argument :: d.extras }.read hasVersion false rest
      | .helpWith tail => helpWith tail
      | .flag .help none => .help
      | .flag .version none => .version
      | .flag .help (some own) => .refused (.valueIgnored .help own)
      | .flag .version (some own) => .refused (.valueIgnored .version own)
      | .flag (.setting s) (some own) =>
        match d.set s own with
        | .ok d => d.read hasVersion false rest
        | .error fault => .refused fault
      | .flag (.setting s) none =>
        match rest with
        | [] => .refused (.valueMissing s)
        | value :: rest =>
          if value ≠ "--" ∧ shape hasVersion value = .value then
            match d.set s value with
            | .ok d => d.read hasVersion false rest
            | .error fault => .refused fault
          else .refused (.valueMissing s)

end Draft

def defaultApp : String := "hotls.http.examples.hello:application"

def parse (hasVersion : Bool) (arguments : List String) : Request :=
  Draft.read hasVersion { app := defaultApp } false arguments

end TlsGate.Command
