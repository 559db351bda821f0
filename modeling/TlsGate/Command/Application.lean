import TlsGate.Command.Catalog
import TlsGate.Policy.Context
import TlsGate.Text.Quoted

/-!
Finding an application by its path, `MODULE` or `MODULE:ATTRIBUTE.ATTRIBUTE`. The module is found
from its outermost package inwards, and then one attribute after the other; the first that is
missing is told.
-/

set_option autoImplicit false
set_option relaxedAutoImplicit false

namespace TlsGate.Command

open Policy Text

inductive PathError where
  | noName
  | relative (name : String)
  | noModule (name : String)
  | notPackage (name parent : String)
  | noAttribute (owner : Entity) (key : String)
  | notEnforceable (mode : ClientAuth)
  deriving DecidableEq, Repr

def lackText (key : String) : Entity → String
  | .module name => "module " ++ quoted name ++ " has no attribute " ++ quoted key
  | .type home name =>
    if (home, name) = (Catalog.policyHome, "ClientAuth") then key
    else "type object " ++ quoted name ++ " has no attribute " ++ quoted key
  | .function .. => called "'function' object"
  | .text _ => called "'str' object"
  | .number _ => called "'int' object"
  | .flag _ => called "'bool' object"
  | .mode _ => called "'ClientAuth' object"
  | .object "" .. => key
  | .object name .. => called name
where
  called (name : String) : String := name ++ " has no attribute " ++ quoted key

def PathError.message : PathError → String
  | noName => "Empty module name"
  | relative name =>
    "the 'package' argument is required to perform a relative import for " ++ quoted name
  | noModule name => "No module named " ++ quoted name
  | notPackage name parent =>
    "No module named " ++ quoted name ++ "; " ++ quoted parent ++ " is not a package"
  | noAttribute owner key => lackText key owner
  | notEnforceable mode => ContextError.notEnforceableText mode

def isModule (name : String) : Bool :=
  (Catalog.members.lookup name).isSome || Catalog.foreignPackages.contains name ||
    Catalog.foreignModules.contains name

def isPackage (name : String) : Bool :=
  Catalog.packages.contains name || Catalog.foreignPackages.contains name

def descend (module : String) : List String → Except PathError String
  | [] => .ok module
  | part :: rest =>
    let next := module ++ "." ++ part
    if !isPackage module then .error (.notPackage next module)
    else if isModule next then descend next rest
    else .error (.noModule next)

def findModule (name : String) : Except PathError String :=
  match (fields '.' name.toList).map String.ofList with
  | [] => .error .noName
  | [""] => .error .noName
  | "" :: _ => .error (.relative name)
  | first :: rest => if isModule first then descend first rest else .error (.noModule first)

def packageOf (module : String) : String :=
  if isPackage module then module
  else String.ofList (((cutLast '.' module.toList).1.getD []))

def definitionNames (home name : String) : Names :=
  [("__module__", .text home), ("__qualname__", .text name),
    ("__name__", .text (String.ofList (cutLast '.' name.toList).2))]

def Entity.names : Entity → Names
  | module name =>
    (Catalog.members.lookup name).getD [] ++
      [("__name__", .text name), ("__package__", .text (packageOf name))]
  | type home name => Catalog.typeMembers home name ++ definitionNames home name
  | function home name =>
    ("__call__", .object "'method-wrapper' object" none (some "function.__call__")) ::
      definitionNames home name
  | mode m =>
    (Catalog.typeMembers Catalog.policyHome "ClientAuth").filter
        (fun e => e.2 ≠ Catalog.plain "property") ++
      [("name", .text m.label), ("value", .number m.strength),
        ("requires_certificate", .flag m.requiresCertificate),
        ("accepts_untrusted", .flag m.acceptsUntrusted),
        ("openssl_verify_mode", .number (flagsNumber m.verifyFlags))]
  | _ => []
where
  flagsNumber (flags : List VerifyFlag) : Int :=
    flags.foldl (fun n flag => match flag with
      | .peer => n + 1
      | .failIfNoPeer => n + 2) 0

def verifyNumber : VerifyMode → Int
  | .never => 0
  | .optional => 1
  | .required => 2

def member (owner : Entity) (name : String) : Except PathError Entity :=
  match owner, name with
  | .mode m, "verify_mode" =>
    match m.verifyMode? with
    | some verify => .ok (.number (verifyNumber verify))
    | none => .error (.notEnforceable m)
  | _, _ =>
    match owner.names.lookup name with
    | some found => .ok found
    | none => .error (.noAttribute owner name)

def defaultAttribute : String := "application"

def find (path : String) : Except PathError Entity := do
  let (name, rest) := cutFirst ':' path.toList
  let attributes := String.ofList (rest.getD [])
  let attributes := if attributes.isEmpty then defaultAttribute else attributes
  let module ← findModule (String.ofList name)
  (fields '.' attributes.toList).foldlM (fun owner key => member owner (String.ofList key))
    (.module module)

def Entity.place : Entity → List String
  | module name => [name]
  | type home name => [home, name]
  | function home name => [home, name]
  | object _ home? name? => home?.toList ++ name?.toList
  | _ => []

end TlsGate.Command
